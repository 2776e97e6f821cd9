import Mathlib.Data.Int.Notation
import IotAgent.Lib.OrderedMap
import IotAgent.Lib.Runs

/-!
The registry of brokers (`src/esp/plugins/input_mqtt/ESP_Plugin_Input_Mqtt.{h,cpp}`,
`ESP_MQTT_Broker.{h,cpp}`).

The plugin launches at most one broker for a port, and keeps the number of brokers beside the map
of them. A broker that is stopped counts one less, whatever the port, and is looked for only when
none is left by that count. The library is set up and shut down with the plugin.

* `BrokerRegistry`: the counter, the map and the processes, with `initBroker` and `stopBroker`;
* `BrokerPlugin`: the registry and the inputs, each of which remembers its server;
* `Sound`, `Live`: the counter is the number of entries, and the registered brokers run;
* `sound_iff_ownStops`: the runs in which the counter is right throughout.
-/

namespace IotAgent

namespace Esp

/-- The registry. A broker is the number of its process, in the order of their launches. -/
structure BrokerRegistry where
  nBrokers : ℤ
  mapMqttBroker : OrderedMap ℤ ℕ
  launched : ℕ
  terminated : List ℕ
  libraryUp : Bool

namespace BrokerRegistry

/-- `ESP_Plugin_Input_Mqtt`, which sets up the library. -/
def init : BrokerRegistry :=
  ⟨0, OrderedMap.empty, 0, [], true⟩

variable (r : BrokerRegistry)

def findBroker (port : ℤ) : Option ℕ :=
  r.mapMqttBroker.get port

def isBrokerRunning (port : ℤ) : Bool :=
  (r.findBroker port).isSome

/-- `initBroker`; `res` is what `launchBroker` returns. -/
def initBroker (port res : ℤ) : BrokerRegistry × ℤ :=
  if r.isBrokerRunning port then (r, port)
  else if res = 1 then
    ({ r with
        nBrokers := r.nBrokers + 1
        mapMqttBroker := r.mapMqttBroker.insert (port, r.launched)
        launched := r.launched + 1 }, port)
  else (r, 0)

def removeBrokerFromMap (port : ℤ) : BrokerRegistry :=
  { r with mapMqttBroker := r.mapMqttBroker.erase port }

/-- `stopBroker`, of a broker that was found. -/
def terminate (broker : ℕ) : BrokerRegistry :=
  { r with terminated := r.terminated ++ [broker] }

/-- `stopBroker`, of a port. -/
def stopBroker (port : ℤ) : BrokerRegistry :=
  let r := { r with nBrokers := r.nBrokers - 1 }
  let r :=
    if r.nBrokers = 0 then
      match r.findBroker port with
      | some broker => (r.terminate broker).removeBrokerFromMap port
      | none => r
    else r
  if r.nBrokers < 0 then { r with nBrokers := 0 } else r

/-- The ports with a broker. -/
def ports : List ℤ :=
  r.mapMqttBroker.keys

/-- The counter is the number of entries. -/
def Sound : Prop :=
  r.nBrokers = r.ports.length

/-- The brokers that are registered run, each for one port. -/
structure Live : Prop where
  running : ∀ p b, r.findBroker p = some b → b < r.launched ∧ b ∉ r.terminated
  known : ∀ b ∈ r.terminated, b < r.launched
  inj : ∀ p q b, r.findBroker p = some b → r.findBroker q = some b → p = q

/-- What stopping the broker of a port means. -/
structure Stops (r r' : BrokerRegistry) (port : ℤ) : Prop where
  unregistered : r'.findBroker port = none
  stopped : ∀ b, r.findBroker port = some b → b ∈ r'.terminated
  others : ∀ q b, q ≠ port → r.findBroker q = some b →
    r'.findBroker q = some b ∧ b ∉ r'.terminated

variable {r} {port res p : ℤ} {b : ℕ}

/-! ### What the operations do -/

lemma mem_ports_iff : p ∈ r.ports ↔ ∃ b, r.findBroker p = some b :=
  OrderedMap.mem_keys_iff

lemma initBroker_cases : (r.initBroker port res).1 = r ∨
    (r.findBroker port = none ∧ (r.initBroker port res).1 =
      { r with
        nBrokers := r.nBrokers + 1
        mapMqttBroker := r.mapMqttBroker.insert (port, r.launched)
        launched := r.launched + 1 }) := by
  rw [initBroker]
  split
  · exact Or.inl rfl
  · next hrunning =>
      split
      · exact Or.inr ⟨by simpa [isBrokerRunning] using hrunning, rfl⟩
      · exact Or.inl rfl

lemma stopBroker_of_last (hone : r.nBrokers = 1) (hb : r.findBroker port = some b) :
    r.stopBroker port =
      { r with
        nBrokers := 0
        mapMqttBroker := r.mapMqttBroker.erase port
        terminated := r.terminated ++ [b] } := by
  have hb' : r.mapMqttBroker.get port = some b := hb
  simp [stopBroker, hone, findBroker, hb', terminate, removeBrokerFromMap]

/-- Without a broker to stop only the counter goes down. -/
lemma stopBroker_of_not (h : r.nBrokers = 1 → r.findBroker port = none) :
    r.stopBroker port = { r with nBrokers := max (r.nBrokers - 1) 0 } := by
  by_cases hone : r.nBrokers = 1
  · have hnone : r.mapMqttBroker.get port = none := h hone
    simp [stopBroker, hone, findBroker, hnone]
  · have hne : ¬ r.nBrokers - 1 = 0 := by omega
    simp only [stopBroker, if_neg hne]
    split
    · next hneg => rw [max_eq_right (le_of_lt hneg)]
    · next hpos => rw [max_eq_left (not_lt.mp hpos)]

lemma Sound.initBroker (hr : r.Sound) : (r.initBroker port res).1.Sound := by
  rcases initBroker_cases (r := r) with hsame | ⟨hnone, hnew⟩
  · rw [hsame]
    exact hr
  · have hlen : (r.mapMqttBroker.insert (port, r.launched)).keys.length = r.ports.length + 1 :=
      OrderedMap.length_keys_insert (OrderedMap.get_eq_none_iff.mp hnone)
    rw [hnew, Sound, ports, hlen, hr]
    push_cast
    rfl

/-- The counter stays right exactly if there is no broker or the one to stop only. -/
lemma Sound.stopBroker_iff (hr : r.Sound) :
    (r.stopBroker port).Sound ↔ r.ports = [] ∨ r.ports = [port] := by
  by_cases hfound : r.nBrokers = 1 ∧ ∃ b, r.findBroker port = some b
  · obtain ⟨hone, b, hb⟩ := hfound
    have hports : r.ports = [port] := by
      have hlen : r.ports.length = 1 := by
        rw [hr] at hone
        omega
      obtain ⟨q, hq⟩ := List.length_eq_one_iff.mp hlen
      have hmem := mem_ports_iff.mpr ⟨b, hb⟩
      rw [hq, List.mem_singleton] at hmem
      rw [hq, hmem]
    have herase : (r.mapMqttBroker.erase port).keys = [] := by
      rw [OrderedMap.keys_erase, show r.mapMqttBroker.keys = [port] from hports]
      simp
    rw [stopBroker_of_last hone hb]
    refine iff_of_true ?_ (Or.inr hports)
    rw [Sound, ports, herase]
    rfl
  · have hnot : r.nBrokers = 1 → r.findBroker port = none := fun hone =>
      Option.eq_none_iff_forall_ne_some.mpr fun b hb => hfound ⟨hone, b, hb⟩
    have hsound : (r.stopBroker port).Sound ↔ max (r.nBrokers - 1) 0 = r.ports.length := by
      rw [stopBroker_of_not hnot]
      rfl
    have hown : r.ports ≠ [port] := by
      intro hports
      obtain ⟨b, hb⟩ := mem_ports_iff.mp (hports ▸ List.mem_singleton_self port)
      exact hfound ⟨by rw [hr, hports]; rfl, b, hb⟩
    have hlen : r.ports.length = 0 ↔ r.ports = [] := List.length_eq_zero_iff
    rw [hsound, hr, or_iff_left hown, ← hlen]
    omega

/-! ### Brokers that run -/

lemma live_init : init.Live where
  running := fun p b hb => by cases hb
  known := fun b hb => by cases hb
  inj := fun p q b hp => by cases hp

lemma Live.initBroker (hr : r.Live) : (r.initBroker port res).1.Live := by
  rcases initBroker_cases (r := r) with hsame | ⟨hnone, hnew⟩
  · rw [hsame]
    exact hr
  rw [hnew]
  -- the new process is that of the port, and the others are what they were
  have hfind : ∀ q b, (r.mapMqttBroker.insert (port, r.launched)).get q = some b →
      (q = port ∧ b = r.launched) ∨ r.findBroker q = some b := by
    intro q b hb
    rw [OrderedMap.get_insert, Option.or_eq_some_iff] at hb
    rcases hb with hb | ⟨-, hb⟩
    · exact Or.inr hb
    · split at hb
      · next hq => exact Or.inl ⟨hq, (Option.some.inj hb).symm⟩
      · cases hb
  refine ⟨fun q b hb => ?_, fun b hb => Nat.lt_succ_of_lt (hr.known b hb), fun p q b hp hq => ?_⟩
  · rcases hfind q b hb with ⟨-, rfl⟩ | hb
    · exact ⟨Nat.lt_succ_self _, fun hmem => Nat.lt_irrefl _ (hr.known _ hmem)⟩
    · exact ⟨Nat.lt_succ_of_lt (hr.running q b hb).1, (hr.running q b hb).2⟩
  · rcases hfind p b hp with ⟨hpp, hb⟩ | hp' <;> rcases hfind q b hq with ⟨hqp, hb'⟩ | hq'
    · exact hpp.trans hqp.symm
    · exact absurd (hr.running q b hq').1 (hb ▸ Nat.lt_irrefl _)
    · exact absurd (hr.running p b hp').1 (hb' ▸ Nat.lt_irrefl _)
    · exact hr.inj p q b hp' hq'

/-- Stopping a broker that is found takes its entry and its process, and nothing else. -/
lemma Live.terminate (hr : r.Live) (hb : r.findBroker port = some b) :
    Live { r with
      nBrokers := 0
      mapMqttBroker := r.mapMqttBroker.erase port
      terminated := r.terminated ++ [b] } := by
  have hfind : ∀ q c, (r.mapMqttBroker.erase port).get q = some c →
      q ≠ port ∧ r.findBroker q = some c := by
    intro q c hc
    rw [OrderedMap.get_erase] at hc
    split at hc
    · cases hc
    · next hq => exact ⟨hq, hc⟩
  refine ⟨fun q c hc => ?_, fun c hc => ?_, fun p q c hp hq => ?_⟩
  · obtain ⟨hq, hc⟩ := hfind q c hc
    refine ⟨(hr.running q c hc).1, fun hmem => ?_⟩
    rcases List.mem_append.mp hmem with hmem | hmem
    · exact (hr.running q c hc).2 hmem
    · rw [List.mem_singleton] at hmem
      exact hq (hr.inj q port b (hmem ▸ hc) hb)
  · rcases List.mem_append.mp hc with hc | hc
    · exact hr.known c hc
    · rw [List.mem_singleton.mp hc]
      exact (hr.running port b hb).1
  · exact hr.inj p q c (hfind p c hp).2 (hfind q c hq).2

lemma Live.stopBroker (hr : r.Live) : (r.stopBroker port).Live := by
  by_cases hfound : r.nBrokers = 1 ∧ ∃ b, r.findBroker port = some b
  · obtain ⟨hone, b, hb⟩ := hfound
    rw [stopBroker_of_last hone hb]
    exact hr.terminate hb
  · rw [stopBroker_of_not fun hone =>
      Option.eq_none_iff_forall_ne_some.mpr fun b hb => hfound ⟨hone, b, hb⟩]
    exact ⟨hr.running, hr.known, hr.inj⟩

/-- With no broker or the one to stop only, stopping stops it. -/
lemma Sound.stops (hr : r.Sound) (hown : r.ports = [] ∨ r.ports = [port]) :
    Stops r (r.stopBroker port) port := by
  have hother : ∀ q b, q ≠ port → r.findBroker q ≠ some b := by
    intro q b hq hb
    have hmem := mem_ports_iff.mpr ⟨b, hb⟩
    rcases hown with hports | hports
    · rw [hports] at hmem
      cases hmem
    · rw [hports, List.mem_singleton] at hmem
      exact hq hmem
  cases hb : r.findBroker port with
  | none =>
      rw [stopBroker_of_not fun _ => hb]
      refine ⟨hb, fun c hc => ?_, fun q c hq hc => absurd hc (hother q c hq)⟩
      rw [hb] at hc
      cases hc
  | some b =>
      have hone : r.nBrokers = 1 := by
        have hmem := mem_ports_iff.mpr ⟨b, hb⟩
        rcases hown with hports | hports
        · rw [hports] at hmem
          cases hmem
        · rw [hr, hports]
          rfl
      rw [stopBroker_of_last hone hb]
      refine ⟨?_, fun c hc => ?_, fun q c hq hc => absurd hc (hother q c hq)⟩
      · exact OrderedMap.get_erase.trans (if_pos rfl)
      · rw [hb, Option.some.injEq] at hc
        exact List.mem_append_right _ (List.mem_singleton.mpr hc.symm)

@[simp] lemma initBroker_libraryUp : (r.initBroker port res).1.libraryUp = r.libraryUp := by
  rcases initBroker_cases (r := r) with hsame | ⟨-, hnew⟩
  · rw [hsame]
  · rw [hnew]

@[simp] lemma stopBroker_libraryUp : (r.stopBroker port).libraryUp = r.libraryUp := by
  by_cases hfound : r.nBrokers = 1 ∧ ∃ b, r.findBroker port = some b
  · obtain ⟨hone, b, hb⟩ := hfound
    rw [stopBroker_of_last hone hb]
  · rw [stopBroker_of_not fun hone =>
      Option.eq_none_iff_forall_ne_some.mpr fun b hb => hfound ⟨hone, b, hb⟩]

end BrokerRegistry

/-! ### Inputs -/

/-- The registry, and for each input the server that it remembers. -/
structure BrokerPlugin where
  registry : BrokerRegistry
  sids : ℕ → ℤ

/-- What happens to the brokers. The results of the launches come from outside. -/
inductive BrokerOp where
  | initBroker (port res : ℤ)
  | stopBroker (port : ℤ)
  | openServer (input : ℕ) (res : ℤ)
  | stopServer (input : ℕ)
  | closeServer (input : ℕ)

namespace BrokerPlugin

/-- No broker, and no server open. -/
def new : BrokerPlugin :=
  ⟨BrokerRegistry.init, fun _ => -1⟩

variable (cfg : ℕ → ℤ) (s : BrokerPlugin)

/-- `openServer` of an input, whose port is configured. -/
def openServer (input : ℕ) (res : ℤ) : BrokerPlugin :=
  let (registry, sid) := s.registry.initBroker (cfg input) res
  ⟨registry, fun i => if i = input then sid else s.sids i⟩

/-- `stopServer` of an input. -/
def stopServer (input : ℕ) : BrokerPlugin :=
  { s with registry := s.registry.stopBroker (s.sids input) }

/-- `closeServer` of an input, which forgets nothing. -/
def closeServer (input : ℕ) : BrokerPlugin :=
  { s with registry := s.registry.stopBroker (s.sids input) }

def apply : BrokerOp → BrokerPlugin
  | .initBroker port res => { s with registry := (s.registry.initBroker port res).1 }
  | .stopBroker port => { s with registry := s.registry.stopBroker port }
  | .openServer input res => s.openServer cfg input res
  | .stopServer input => s.stopServer input
  | .closeServer input => s.closeServer input

/-- The plugin after a run. -/
def after (ops : List BrokerOp) : BrokerPlugin :=
  Run.run (apply cfg) new ops

/-- The port whose broker is to be stopped. -/
def stopPort : BrokerOp → Option ℤ
  | .stopBroker port => some port
  | .stopServer input => some (s.sids input)
  | .closeServer input => some (s.sids input)
  | _ => none

/-- No broker is registered, or the one to be stopped only. -/
def OwnStop (op : BrokerOp) : Prop :=
  ∀ p, s.stopPort op = some p → s.registry.ports = [] ∨ s.registry.ports = [p]

variable {cfg s} {op : BrokerOp} {p : ℤ}

lemma apply_registry_of_stopPort (h : s.stopPort op = some p) :
    (s.apply cfg op).registry = s.registry.stopBroker p := by
  cases op <;> cases h <;> rfl

/-- A step starts a broker or stops one. -/
lemma apply_cases (cfg : ℕ → ℤ) (s : BrokerPlugin) (op : BrokerOp) :
    (∃ p, s.stopPort op = some p ∧ (s.apply cfg op).registry = s.registry.stopBroker p) ∨
      (s.stopPort op = none ∧
        ∃ port res, (s.apply cfg op).registry = (s.registry.initBroker port res).1) := by
  cases op with
  | initBroker port res => exact Or.inr ⟨rfl, port, res, rfl⟩
  | stopBroker port => exact Or.inl ⟨port, rfl, rfl⟩
  | openServer input res => exact Or.inr ⟨rfl, cfg input, res, rfl⟩
  | stopServer input => exact Or.inl ⟨s.sids input, rfl, rfl⟩
  | closeServer input => exact Or.inl ⟨s.sids input, rfl, rfl⟩

/-- One step keeps the counter right exactly under the condition. -/
lemma sound_apply_iff (hs : s.registry.Sound) :
    (s.apply cfg op).registry.Sound ↔ s.OwnStop op := by
  rcases apply_cases cfg s op with ⟨p, hp, hreg⟩ | ⟨hnone, port, res, hreg⟩
  · rw [hreg, hs.stopBroker_iff]
    exact ⟨fun hown q hq => Option.some.inj (hp.symm.trans hq) ▸ hown, fun hown => hown p hp⟩
  · rw [hreg]
    exact iff_of_true hs.initBroker fun q hq => by rw [hnone] at hq; cases hq

/-- One step keeps the brokers running, and the library. -/
lemma live_apply (hs : s.registry.Live) : (s.apply cfg op).registry.Live := by
  rcases apply_cases cfg s op with ⟨p, -, hreg⟩ | ⟨-, port, res, hreg⟩
  · rw [hreg]
    exact hs.stopBroker
  · rw [hreg]
    exact hs.initBroker

lemma libraryUp_apply : (s.apply cfg op).registry.libraryUp = s.registry.libraryUp := by
  rcases apply_cases cfg s op with ⟨p, -, hreg⟩ | ⟨-, port, res, hreg⟩ <;> simp [hreg]

/-- Whatever happens, the registered brokers run and the library is up. -/
lemma live_after (cfg : ℕ → ℤ) (ops : List BrokerOp) :
    (after cfg ops).registry.Live ∧ (after cfg ops).registry.libraryUp = true := by
  have hrun : ∀ s : BrokerPlugin, s.registry.Live → s.registry.libraryUp = true →
      (Run.run (apply cfg) s ops).registry.Live ∧
        (Run.run (apply cfg) s ops).registry.libraryUp = true := by
    induction ops with
    | nil => exact fun s hlive hup => ⟨hlive, hup⟩
    | cons op ops ih => exact fun s hlive hup => ih _ (live_apply hlive) (libraryUp_apply.trans hup)
  exact hrun new BrokerRegistry.live_init rfl

/-- **The registry**: the counter is the number of entries throughout a run exactly if every stop
finds no broker or its own only; then each stop stops and takes out its broker and leaves the
others. The library is up throughout. -/
theorem sound_iff_ownStops (cfg : ℕ → ℤ) (ops : List BrokerOp) :
    ((∀ n, (after cfg (ops.take n)).registry.Sound) ↔
      Run.Always (apply cfg) OwnStop new ops) ∧
    (Run.Always (apply cfg) OwnStop new ops → ∀ before op rest, ops = before ++ op :: rest →
      ∀ p, (after cfg before).stopPort op = some p →
        BrokerRegistry.Stops (after cfg before).registry (after cfg (before ++ [op])).registry p) ∧
    (after cfg ops).registry.libraryUp = true := by
  have hstep : ∀ (s : BrokerPlugin) op, s.registry.Sound → True →
      ((s.apply cfg op).registry.Sound ↔ s.OwnStop op) := fun s op hs _ => sound_apply_iff hs
  have hiff : (∀ n, (after cfg (ops.take n)).registry.Sound) ↔
      Run.Always (apply cfg) OwnStop new ops :=
    Run.forall_run_iff (J := fun s : BrokerPlugin => s.registry.Sound) hstep rfl Run.always_true
  refine ⟨hiff, fun hown before op rest heq p hp => ?_, (live_after cfg ops).2⟩
  have htake : ops.take before.length = before := by rw [heq, List.take_left]
  have hsound : (after cfg before).registry.Sound := htake ▸ hiff.mpr hown before.length
  have hstop := Run.always_iff.mp hown before op rest heq p hp
  have hnext : (after cfg (before ++ [op])).registry =
      (after cfg before).registry.stopBroker p := by
    rw [after, Run.run, List.foldl_concat]
    exact apply_registry_of_stopPort hp
  rw [hnext]
  exact hsound.stops hstop

/-- The library is shut down when the last broker has gone, and not before. -/
def LibraryFollows : Prop :=
  s.registry.libraryUp = false ↔ 0 < s.registry.launched ∧ s.registry.ports = []

/-- The last broker is stopped, and the library stays. -/
theorem not_libraryFollows_stopped :
    ¬ (after (fun _ => 1883) [.openServer 0 1, .stopServer 0]).LibraryFollows := by
  intro h
  exact absurd (h.mpr (by decide +kernel)) (by decide +kernel)

end BrokerPlugin

end Esp

end IotAgent
