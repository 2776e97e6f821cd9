import IotAgent.Lib.Runs
import Mathlib.Data.List.Pairwise
import Mathlib.Data.Nat.Basic
import Mathlib.Logic.Function.Basic

/-!
The registration of an agent with the manager (`src/rest/rest_handle.cc`,
`src/services/admin_service.cc`).

Each plugin tells the manager about its services when it starts, and all plugins do so again
behind every operation that changes services. When the manager cannot be reached, a timer is set,
unless it is set already, and when it fires all plugins tell the manager once more. The requests
are under way at the same time, and a request that the agent has given up may still arrive.

* `State`, `Event`, `step`: the agent, its requests and what may happen;
* `timerInv_run`: there is one timer or handler of it exactly while the retries are set;
* `Told`, `Will`, `due_run`: the manager has been told of the services as they are, or it
  is going to be;
* `manager_upToDate`: what the manager has, when nothing is left to do;
* `manager_stale`: it may be older, if the requests arrive in another order.
-/

namespace IotAgent

namespace ManagerRegistration

/-! ### The agent and its requests -/

/-- What a plugin is asked for. -/
structure Plugin where
  resource : String
  protocol : String
  description : String
  managerEndpoint : String
  deriving DecidableEq

/-- A plugin sends a request: it is a real one, for `AdminService`, and it has an endpoint, a
database and a protocol, for `RestHandle`. -/
def Plugin.registers (usingDatabase : Bool) (p : Plugin) : Bool :=
  p.description ≠ "" && (p.managerEndpoint ≠ "" && (usingDatabase && p.protocol ≠ ""))

/-- A request, with its number and the services that were read for it. -/
structure Registration (S : Type*) where
  number : ℕ
  resource : String
  services : S
  deriving DecidableEq

/-- The agent, the network and the manager. -/
structure State (S : Type*) where
  services : String → S
  next : ℕ := 0
  /-- Threads that are about to call `AdminService::register_iota_manager`. -/
  waiting : ℕ := 0
  /-- The plugins that are left, while a thread has the lock. -/
  inside : Option (List Plugin) := none
  /-- Threads that are about to call `set_register_retries(true)`. -/
  errors : ℕ := 0
  retriesSet : Bool := false
  /-- The timer runs. -/
  armed : Bool := false
  /-- Handlers of the timer that are in the queue. -/
  fired : ℕ := 0
  /-- Requests whose callback has not been called. -/
  pending : List (Registration S) := []
  /-- Requests that the manager may still be given. -/
  network : List (Registration S) := []
  /-- Requests that the manager has stored. -/
  handled : List (Registration S) := []

/-- What may happen. A flag says that an exception was thrown, which is logged. -/
inductive Event (S : Type*) where
  | start (p : Plugin) (thrown : Bool)
  | change (resource : String) (services : S) (thrown : Bool)
  | enter
  | attempt (p : Plugin) (thrown : Bool)
  | leave
  | handle (r : Registration S)
  | drop (r : Registration S)
  | answer (r : Registration S)
  | refuse (r : Registration S)
  | fail (r : Registration S)
  | retry
  | expire
  | timeout

variable {S : Type*}

namespace State

/-- A request with the services of a resource. -/
def registration (s : State S) (resource : String) : Registration S :=
  ⟨s.next, resource, s.services resource⟩

/-- `RestHandle::register_iota_manager`. -/
def registerIotaManager (usingDatabase : Bool) (s : State S) (p : Plugin) (thrown : Bool) :
    State S :=
  if p.registers usingDatabase && !thrown then
    { s with
      next := s.next + 1
      pending := s.pending ++ [s.registration p.resource]
      network := s.network ++ [s.registration p.resource] }
  else s

/-- `set_register_retries`. A new timer takes the place of the old one. -/
def setRegisterRetries (s : State S) (enable : Bool) : State S :=
  if enable then
    if s.retriesSet then s else { s with retriesSet := true, armed := true }
  else if s.retriesSet then { s with retriesSet := false, armed := false } else s

/-- What the manager has of a resource. -/
def stored (s : State S) (resource : String) : Option S :=
  ((s.handled.filter (·.resource = resource)).getLast?).map Registration.services

end State

/-! ### The timer -/

variable {s : State S}

/-- The retries are set exactly while the timer runs or a handler of it is in the queue, and there
is not both. -/
structure TimerInv (s : State S) : Prop where
  set : s.retriesSet = true ↔ s.armed = true ∨ 0 < s.fired
  one : s.fired ≤ 1
  apart : s.armed = true → s.fired = 0

lemma TimerInv.congr {t : State S} (h : TimerInv s) (hset : t.retriesSet = s.retriesSet)
    (harmed : t.armed = s.armed) (hfired : t.fired = s.fired) : TimerInv t :=
  ⟨by rw [hset, harmed, hfired]; exact h.set, by rw [hfired]; exact h.one,
    by rw [harmed, hfired]; exact h.apart⟩

lemma TimerInv.registerIotaManager {usingDatabase : Bool} {p : Plugin} (h : TimerInv s)
    (thrown : Bool) : TimerInv (s.registerIotaManager usingDatabase p thrown) := by
  rw [State.registerIotaManager]
  split
  · exact h.congr rfl rfl rfl
  · exact h

/-! ### What happens -/

variable [DecidableEq S] (usingDatabase : Bool) (plugins : List Plugin)

/-- What happens. Events that cannot happen change nothing. The lock is free to be taken while no
thread goes through the plugins. -/
def step (s : State S) : Event S → State S
  | .start p thrown => s.registerIotaManager usingDatabase p thrown
  | .change resource services thrown =>
      { s with
        services := Function.update s.services resource services
        waiting := if thrown then s.waiting else s.waiting + 1 }
  | .enter =>
      if 0 < s.waiting ∧ s.inside = none then
        { s with waiting := s.waiting - 1, inside := some plugins }
      else s
  | .attempt p thrown =>
      match s.inside with
      | some (q :: rest) =>
          if q = p then { s with inside := some rest }.registerIotaManager usingDatabase p thrown
          else s
      | _ => s
  | .leave => if s.inside = some [] then { s with inside := none } else s
  | .handle r =>
      if r ∈ s.network then
        { s with network := s.network.filter (· ≠ r), handled := s.handled ++ [r] }
      else s
  | .drop r => { s with network := s.network.filter (· ≠ r) }
  | .answer r =>
      if r ∈ s.handled then { s with pending := s.pending.filter (· ≠ r) } else s
  | .refuse r =>
      { s with
        pending := s.pending.filter (· ≠ r)
        network := s.network.filter (· ≠ r) }
  | .fail r =>
      if r ∈ s.pending then
        { s with pending := s.pending.filter (· ≠ r), errors := s.errors + 1 }
      else s
  | .retry =>
      if 0 < s.errors ∧ s.inside = none then
        { s with errors := s.errors - 1 }.setRegisterRetries true
      else s
  | .expire => if s.armed then { s with armed := false, fired := s.fired + 1 } else s
  | .timeout =>
      if 0 < s.fired ∧ s.inside = none then
        let s := { s with fired := s.fired - 1 }.setRegisterRetries false
        { s with waiting := s.waiting + 1 }
      else s

variable {usingDatabase plugins} {s : State S}

lemma TimerInv.step (h : TimerInv s) (e : Event S) :
    TimerInv (step usingDatabase plugins s e) := by
  cases e with
  | start p thrown => exact h.registerIotaManager thrown
  | change | drop | refuse => exact h.congr rfl rfl rfl
  | enter | leave | handle | answer | fail =>
      rw [ManagerRegistration.step]
      split
      · exact h.congr rfl rfl rfl
      · exact h
  | attempt p thrown =>
      rw [ManagerRegistration.step]
      split
      · next rest _ =>
          have hrest : TimerInv { s with inside := some rest } := h.congr rfl rfl rfl
          split
          · exact hrest.registerIotaManager thrown
          · exact h
      · exact h
  | retry =>
      rw [ManagerRegistration.step, State.setRegisterRetries]
      split
      · rw [if_pos rfl]
        split
        · exact h.congr rfl rfl rfl
        · next hset =>
            have hnot := mt h.set.mpr hset
            exact ⟨iff_of_true rfl (.inl rfl), h.one, fun _ => by
              show s.fired = 0
              omega⟩
      · exact h
  | expire =>
      rw [ManagerRegistration.step]
      split
      · next harmed =>
          have hzero := h.apart harmed
          refine ⟨iff_of_true (h.set.mpr (.inl harmed)) (.inr (Nat.succ_pos _)), ?_,
            fun hfalse => nomatch hfalse⟩
          show s.fired + 1 ≤ 1
          omega
      · exact h
  | timeout =>
      rw [ManagerRegistration.step, State.setRegisterRetries]
      split
      · next hfired =>
          have hset : s.retriesSet = true := h.set.mpr (.inr hfired.1)
          have hone := h.one
          rw [if_neg Bool.false_ne_true, if_pos hset]
          have hzero : s.fired - 1 = 0 := by omega
          refine ⟨iff_of_false Bool.false_ne_true ?_, ?_, fun hfalse => nomatch hfalse⟩
          · rintro (hfalse | hpos)
            · cases hfalse
            · exact absurd hpos (by simp [hzero])
          · show s.fired - 1 ≤ 1
            omega
      · exact h

/-- After any run the retries are set exactly while there is one timer or one handler of it. -/
theorem timerInv_run (h : TimerInv s) (events : List (Event S)) :
    TimerInv (Run.run (step usingDatabase plugins) s events) := by
  induction events generalizing s with
  | nil => exact h
  | cons e events ih => exact ih (h.step e)

/-! ### What the manager is told -/

section Told

omit [DecidableEq S]

/-- All requests that there have been, but for those that are given up and lost. -/
def State.requests (s : State S) : List (Registration S) :=
  s.pending ++ (s.network ++ s.handled)

/-- The numbers of the requests tell them apart, and are below the next one. -/
structure Numbered (s : State S) : Prop where
  lt : ∀ r ∈ s.requests, r.number < s.next
  inj : ∀ r ∈ s.requests, ∀ r' ∈ s.requests, r.number = r'.number → r = r'

/-- No request for the resource is newer. -/
def Newest (s : State S) (r : Registration S) : Prop :=
  ∀ r' ∈ s.requests, r'.resource = r.resource → r'.number ≤ r.number

/-- The newest request tells the services as they are, and the manager has stored it, or the agent
waits for the answer. -/
def Told (s : State S) (resource : String) : Prop :=
  ∃ r, r.resource = resource ∧ r.services = s.services resource ∧ Newest s r ∧
    (r ∈ s.handled ∨ r ∈ s.pending)

/-- A request for the plugin is going to be sent. -/
def Will (s : State S) (p : Plugin) : Prop :=
  0 < s.waiting ∨ 0 < s.errors ∨ s.retriesSet = true ∨ ∃ rest, s.inside = some rest ∧ p ∈ rest

/-- The manager is told of the services of the plugin, or is going to be. -/
def Due (s : State S) (p : Plugin) : Prop :=
  Told s p.resource ∨ Will s p

variable {t : State S} {resource : String} {p q : Plugin} {thrown : Bool}

lemma mem_requests {r : Registration S} :
    r ∈ s.requests ↔ r ∈ s.pending ∨ r ∈ s.network ∨ r ∈ s.handled := by
  rw [State.requests, List.mem_append, List.mem_append]

lemma requests_of_parts (hpending : ∀ r ∈ t.pending, r ∈ s.pending)
    (hnetwork : ∀ r ∈ t.network, r ∈ s.network)
    (hhandled : ∀ r ∈ t.handled, r ∈ s.handled ∨ r ∈ s.network) :
    ∀ r ∈ t.requests, r ∈ s.requests := by
  intro r hr
  rw [mem_requests] at hr ⊢
  rcases hr with hr | hr | hr
  · exact .inl (hpending r hr)
  · exact .inr (.inl (hnetwork r hr))
  · exact .inr ((hhandled r hr).symm)

lemma Numbered.of_subset (h : Numbered s) (hsub : ∀ r ∈ t.requests, r ∈ s.requests)
    (hnext : t.next = s.next) : Numbered t where
  lt r hr := hnext ▸ h.lt r (hsub r hr)
  inj r hr r' hr' := h.inj r (hsub r hr) r' (hsub r' hr')

lemma Told.of_subset (h : Told s resource) (hsub : ∀ r ∈ t.requests, r ∈ s.requests)
    (hservices : t.services resource = s.services resource)
    (hkept : ∀ r, r.resource = resource → r ∈ s.handled ∨ r ∈ s.pending →
      r ∈ t.handled ∨ r ∈ t.pending) : Told t resource := by
  obtain ⟨r, hr, hsame, hnewest, hmem⟩ := h
  exact ⟨r, hr, hsame.trans hservices.symm, fun r' hr' => hnewest r' (hsub r' hr'),
    hkept r hr hmem⟩

/-- A plugin that sends a request. -/
lemma registerIotaManager_eq (hsend : q.registers usingDatabase = true) :
    s.registerIotaManager usingDatabase q false =
      { s with
        next := s.next + 1
        pending := s.pending ++ [s.registration q.resource]
        network := s.network ++ [s.registration q.resource] } := by
  rw [State.registerIotaManager, hsend]
  rfl

lemma registerIotaManager_of_not (h : ¬ (q.registers usingDatabase = true ∧ thrown = false)) :
    s.registerIotaManager usingDatabase q thrown = s := by
  rw [State.registerIotaManager, if_neg]
  simpa using h

lemma requests_registerIotaManager (hsend : q.registers usingDatabase = true)
    {r : Registration S} (hr : r ∈ (s.registerIotaManager usingDatabase q false).requests) :
    r ∈ s.requests ∨ r = s.registration q.resource := by
  rw [registerIotaManager_eq hsend, mem_requests] at hr
  rw [mem_requests]
  simp only [List.mem_append, List.mem_singleton] at hr
  tauto

lemma Numbered.registerIotaManager (h : Numbered s) (q : Plugin) (thrown : Bool) :
    Numbered (s.registerIotaManager usingDatabase q thrown) := by
  by_cases hsend : q.registers usingDatabase = true ∧ thrown = false
  · obtain ⟨hsend, rfl⟩ := hsend
    have hnext : (s.registerIotaManager usingDatabase q false).next = s.next + 1 := by
      rw [registerIotaManager_eq hsend]
    constructor
    · intro r hr
      rw [hnext]
      rcases requests_registerIotaManager hsend hr with hr | rfl
      · exact Nat.lt_succ_of_lt (h.lt r hr)
      · exact Nat.lt_succ_self s.next
    · intro r hr r' hr' heq
      rcases requests_registerIotaManager hsend hr with hr | rfl
      · rcases requests_registerIotaManager hsend hr' with hr' | rfl
        · exact h.inj r hr r' hr' heq
        · exact absurd heq (Nat.ne_of_lt (h.lt r hr))
      · rcases requests_registerIotaManager hsend hr' with hr' | rfl
        · exact absurd heq.symm (Nat.ne_of_lt (h.lt r' hr'))
        · rfl
  · rwa [registerIotaManager_of_not hsend]

/-- Behind a request the manager is told of the services. -/
lemma told_registerIotaManager (h : Numbered s) (hsend : q.registers usingDatabase = true) :
    Told (s.registerIotaManager usingDatabase q false) q.resource := by
  refine ⟨s.registration q.resource, rfl, ?_, fun r hr _ => ?_, .inr ?_⟩
  · rw [registerIotaManager_eq hsend]
    rfl
  · rcases requests_registerIotaManager hsend hr with hr | rfl
    · exact Nat.le_of_lt (h.lt r hr)
    · exact le_rfl
  · rw [registerIotaManager_eq hsend]
    exact List.mem_append_right _ (List.mem_singleton.mpr rfl)

lemma Told.registerIotaManager (h : Told s resource) (hnumbered : Numbered s) (q : Plugin)
    (thrown : Bool) : Told (s.registerIotaManager usingDatabase q thrown) resource := by
  by_cases hsend : q.registers usingDatabase = true ∧ thrown = false
  · obtain ⟨hsend, rfl⟩ := hsend
    by_cases hq : q.resource = resource
    · exact hq ▸ told_registerIotaManager hnumbered hsend
    · obtain ⟨r, hr, hsame, hnewest, hmem⟩ := h
      refine ⟨r, hr, ?_, fun r' hr' hresource => ?_, ?_⟩
      · rw [registerIotaManager_eq hsend]
        exact hsame
      · rcases requests_registerIotaManager hsend hr' with hr' | rfl
        · exact hnewest r' hr' hresource
        · exact absurd (hresource.trans hr) hq
      · rw [registerIotaManager_eq hsend]
        exact hmem.imp_right (List.mem_append_left _)
  · rwa [registerIotaManager_of_not hsend]

lemma Will.congr (h : Will s p) (hwaiting : s.waiting ≤ t.waiting) (herrors : s.errors ≤ t.errors)
    (hset : t.retriesSet = s.retriesSet)
    (hinside : ∀ rest, s.inside = some rest → p ∈ rest →
      ∃ rest, t.inside = some rest ∧ p ∈ rest) : Will t p := by
  rcases h with h | h | h | ⟨rest, hrest, hp⟩
  · exact .inl (Nat.lt_of_lt_of_le h hwaiting)
  · exact .inr (.inl (Nat.lt_of_lt_of_le h herrors))
  · exact .inr (.inr (.inl (hset.trans h)))
  · exact .inr (.inr (.inr (hinside rest hrest hp)))

lemma Will.of_same (h : Will s p) (hwaiting : t.waiting = s.waiting)
    (herrors : t.errors = s.errors) (hset : t.retriesSet = s.retriesSet)
    (hinside : t.inside = s.inside) : Will t p :=
  h.congr (Nat.le_of_eq hwaiting.symm) (Nat.le_of_eq herrors.symm) hset
    fun rest hrest hp => ⟨rest, hinside.trans hrest, hp⟩

lemma Will.registerIotaManager (h : Will s p) (q : Plugin) (thrown : Bool) :
    Will (s.registerIotaManager usingDatabase q thrown) p := by
  rw [State.registerIotaManager]
  split
  · exact h.of_same rfl rfl rfl rfl
  · exact h

lemma Due.registerIotaManager (h : Due s p) (hnumbered : Numbered s) (q : Plugin)
    (thrown : Bool) : Due (s.registerIotaManager usingDatabase q thrown) p :=
  h.imp (fun h => h.registerIotaManager hnumbered q thrown)
    fun h => h.registerIotaManager q thrown

/-! ### Nothing left to do -/

/-- An agent that has not been started. -/
def init (services : String → S) : State S where
  services := services

lemma timerInv_init (services : String → S) : TimerInv (init services) :=
  ⟨by simp [init], Nat.zero_le 1, fun h => nomatch h⟩

lemma numbered_init (services : String → S) : Numbered (init services) :=
  ⟨fun _ hr => absurd hr List.not_mem_nil, fun _ hr => absurd hr List.not_mem_nil⟩

/-- The agent waits for nothing and has nothing to do. -/
structure Quiet (s : State S) : Prop where
  waiting : s.waiting = 0
  inside : s.inside = none
  errors : s.errors = 0
  armed : s.armed = false
  fired : s.fired = 0
  pending : s.pending = []

/-- The manager was given the requests for a resource in the order in which they were sent. -/
def InOrder (s : State S) (resource : String) : Prop :=
  (s.handled.filter (·.resource = resource)).Pairwise fun r r' => r.number < r'.number

/-- With nothing left to do, the manager has been told. -/
lemma exists_handled_of_quiet (h : Due s p) (htimer : TimerInv s) (hquiet : Quiet s) :
    ∃ r ∈ s.handled, r.resource = p.resource ∧ r.services = s.services p.resource ∧
      Newest s r := by
  obtain ⟨hwaiting, hinside, herrors, harmed, hfired, hpending⟩ := hquiet
  rcases h with ⟨r, hr, hsame, hnewest, hmem⟩ | h | h | h | ⟨rest, hrest, -⟩
  · rw [hpending] at hmem
    exact ⟨r, hmem.resolve_right List.not_mem_nil, hr, hsame, hnewest⟩
  · omega
  · omega
  · rcases htimer.set.mp h with h | h
    · rw [harmed] at h
      cases h
    · omega
  · rw [hinside] at hrest
    cases hrest

/-- In the order in which they were sent, the newest request is the last. -/
lemma stored_of_inOrder {r : Registration S} (hr : r ∈ s.handled) (hnewest : Newest s r)
    (horder : InOrder s r.resource) : s.stored r.resource = some r.services := by
  have hmem : r ∈ s.handled.filter (·.resource = r.resource) :=
    List.mem_filter.mpr ⟨hr, decide_eq_true rfl⟩
  rw [State.stored]
  rcases List.eq_nil_or_concat (s.handled.filter (·.resource = r.resource)) with
    hnil | ⟨l, last, hl⟩
  · rw [hnil] at hmem
    exact absurd hmem List.not_mem_nil
  · rw [List.concat_eq_append] at hl
    rw [InOrder, hl, List.pairwise_append] at horder
    have hlast : last ∈ s.handled.filter (·.resource = r.resource) := by
      rw [hl]
      exact List.mem_append_right _ (List.mem_singleton.mpr rfl)
    obtain ⟨hlast, hresource⟩ := List.mem_filter.mp hlast
    have hle : last.number ≤ r.number :=
      hnewest last (mem_requests.mpr (.inr (.inr hlast))) (of_decide_eq_true hresource)
    rw [hl] at hmem ⊢
    rcases List.mem_append.mp hmem with hmem | hmem
    · have hlt := horder.2.2 r hmem last (List.mem_singleton.mpr rfl)
      omega
    · rw [List.getLast?_concat, List.mem_singleton.mp hmem]
      rfl

end Told

/-! ### Runs -/

variable {p : Plugin}

/-- No exception for the plugin, and no answer of the manager that it does not store the services
of the plugin. -/
def Fine (p : Plugin) : Event S → Prop
  | .start q thrown | .attempt q thrown => thrown = true → q ≠ p
  | .change resource _ thrown => thrown = true → resource ≠ p.resource
  | .refuse r => r.resource ≠ p.resource
  | _ => True

lemma mem_filter_ne {l : List (Registration S)} {r r' : Registration S} (h : r' ∈ l)
    (hne : r' ≠ r) : r' ∈ l.filter (· ≠ r) :=
  List.mem_filter.mpr ⟨h, by simpa using hne⟩

/-- The events that send a request. -/
def Event.Sends : Event S → Prop
  | .start _ _ | .attempt _ _ => True
  | _ => False

/-- All other events leave no request that was not there. -/
lemma requests_step (usingDatabase : Bool) (plugins : List Plugin) {e : Event S}
    (he : ¬ e.Sends) : (∀ r ∈ (step usingDatabase plugins s e).requests, r ∈ s.requests) ∧
      (step usingDatabase plugins s e).next = s.next := by
  cases e with
  | start | attempt => exact absurd trivial he
  | change => exact ⟨fun _ hr => hr, rfl⟩
  | enter | leave | expire =>
      rw [step]
      split
      · exact ⟨fun _ hr => hr, rfl⟩
      · exact ⟨fun _ hr => hr, rfl⟩
  | retry | timeout =>
      rw [step, State.setRegisterRetries]
      split
      · split_ifs
        all_goals exact ⟨fun _ hr => hr, rfl⟩
      · exact ⟨fun _ hr => hr, rfl⟩
  | handle r =>
      rw [step]
      split
      · next hmem =>
          refine ⟨requests_of_parts (fun _ hr => hr) (fun _ hr => List.mem_of_mem_filter hr)
            fun r' hr' => ?_, rfl⟩
          rcases List.mem_append.mp hr' with hr' | hr'
          · exact .inl hr'
          · exact .inr (List.mem_singleton.mp hr' ▸ hmem)
      · exact ⟨fun _ hr => hr, rfl⟩
  | drop r =>
      exact ⟨requests_of_parts (fun _ hr => hr) (fun _ hr => List.mem_of_mem_filter hr)
        fun _ hr => .inl hr, rfl⟩
  | refuse r =>
      exact ⟨requests_of_parts (fun _ hr => List.mem_of_mem_filter hr)
        (fun _ hr => List.mem_of_mem_filter hr) fun _ hr => .inl hr, rfl⟩
  | answer | fail =>
      rw [step]
      split
      · exact ⟨requests_of_parts (fun _ hr => List.mem_of_mem_filter hr) (fun _ hr => hr)
          fun _ hr => .inl hr, rfl⟩
      · exact ⟨fun _ hr => hr, rfl⟩

lemma Numbered.step (h : Numbered s) (e : Event S) :
    Numbered (step usingDatabase plugins s e) := by
  by_cases he : e.Sends
  · cases e with
    | start q thrown => exact h.registerIotaManager q thrown
    | attempt q thrown =>
        rw [ManagerRegistration.step]
        split
        · next rest _ =>
            have hrest : Numbered { s with inside := some rest } := ⟨h.lt, h.inj⟩
            split
            · exact hrest.registerIotaManager q thrown
            · exact h
        · exact h
    | _ => exact he.elim
  · obtain ⟨hsub, hnext⟩ := requests_step usingDatabase plugins he
    exact h.of_subset hsub hnext

section Steps

variable {resource : String} {services : S} {q : Plugin} {thrown : Bool} {r : Registration S}

/-- The services change: the plugins are told to tell the manager, unless there was an
exception. -/
lemma Due.change (h : Due s p) (hfine : Fine p (.change resource services thrown)) :
    Due (step usingDatabase plugins s (.change resource services thrown)) p := by
  cases thrown with
  | false => exact .inr (.inl (Nat.succ_pos s.waiting))
  | true =>
      have hne : p.resource ≠ resource := (hfine rfl).symm
      exact h.imp
        (fun h => h.of_subset (fun _ hr => hr) (Function.update_of_ne hne ..) fun _ _ hr => hr)
        fun h => h.of_same rfl rfl rfl rfl

/-- A thread takes the lock, with all plugins to go through. -/
lemma Due.enter (h : Due s p) (hp : p ∈ plugins) :
    Due (step usingDatabase plugins s .enter) p := by
  rw [step]
  split
  · exact .inr (.inr (.inr (.inr ⟨plugins, rfl, hp⟩)))
  · exact h

/-- The thread comes to a plugin, which may be this one. -/
lemma Due.attempt (h : Due s p) (hnumbered : Numbered s) (hsend : p.registers usingDatabase = true)
    (hfine : Fine p (.attempt q thrown : Event S)) :
    Due (step usingDatabase plugins s (.attempt q thrown)) p := by
  rw [step]
  split
  · next q' rest hinside =>
      split
      · next hq =>
          have hrest : Numbered { s with inside := some rest } := ⟨hnumbered.lt, hnumbered.inj⟩
          by_cases hqp : q = p
          · -- the turn of the plugin
            have hthrown : thrown = false := by
              by_contra hthrown
              exact hfine (by simpa using hthrown) hqp
            subst hqp hthrown
            exact .inl (told_registerIotaManager hrest hsend)
          · have hdue : Due { s with inside := some rest } p := by
              refine h.imp id fun h =>
                h.congr le_rfl le_rfl rfl fun rest' hrest' hmem => ⟨rest, rfl, ?_⟩
              obtain rfl := Option.some.inj (hinside.symm.trans hrest')
              rcases List.mem_cons.mp hmem with rfl | hmem
              · exact absurd hq.symm hqp
              · exact hmem
            exact hdue.registerIotaManager hrest q thrown
      · exact h
  · exact h

/-- The thread leaves when no plugin is left. -/
lemma Due.leave (h : Due s p) : Due (step usingDatabase plugins s .leave) p := by
  rw [step]
  split
  · next hinside =>
      refine h.imp id fun h => h.congr le_rfl le_rfl rfl fun rest hrest hmem => ?_
      obtain rfl := Option.some.inj (hinside.symm.trans hrest)
      exact absurd hmem List.not_mem_nil
  · exact h

/-- A request arrives. -/
lemma Due.handle (h : Due s p) : Due (step usingDatabase plugins s (.handle r)) p := by
  have hsub := (requests_step usingDatabase plugins (s := s) (e := .handle r) id).1
  rw [step] at hsub ⊢
  split
  · next hmem =>
      rw [if_pos hmem] at hsub
      exact h.imp
        (fun h => h.of_subset hsub rfl fun _ _ hr => hr.imp_left (List.mem_append_left _))
        fun h => h.of_same rfl rfl rfl rfl
  · exact h

/-- The answer to a request that is stored comes back. -/
lemma Due.answer (h : Due s p) : Due (step usingDatabase plugins s (.answer r)) p := by
  have hsub := (requests_step usingDatabase plugins (s := s) (e := .answer r) id).1
  rw [step] at hsub ⊢
  split
  · next hmem =>
      rw [if_pos hmem] at hsub
      refine h.imp (fun h => h.of_subset hsub rfl fun r' _ hr => ?_)
        fun h => h.of_same rfl rfl rfl rfl
      by_cases hr' : r' = r
      · exact .inl (hr' ▸ hmem)
      · exact hr.imp_right fun hr => mem_filter_ne hr hr'
  · exact h

/-- A request for another plugin is refused. -/
lemma Due.refuse (h : Due s p) (hfine : Fine p (.refuse r)) :
    Due (step usingDatabase plugins s (.refuse r)) p := by
  have hsub := (requests_step usingDatabase plugins (s := s) (e := .refuse r) id).1
  refine h.imp (fun h => h.of_subset hsub rfl fun r' hresource hr => ?_)
    fun h => h.of_same rfl rfl rfl rfl
  have hr' : r' ≠ r := fun e => hfine (e ▸ hresource)
  exact hr.imp_right fun hr => mem_filter_ne hr hr'

/-- An error sets the retries. -/
lemma Due.retry (h : Due s p) : Due (step usingDatabase plugins s .retry) p := by
  rw [step, State.setRegisterRetries]
  split
  · rw [if_pos rfl]
    split
    · next hset => exact .inr (.inr (.inr (.inl hset)))
    · exact .inr (.inr (.inr (.inl rfl)))
  · exact h

end Steps

/-- What is told stays told, or is told again: one event. -/
lemma due_step {e : Event S} (hnumbered : Numbered s) (hp : p ∈ plugins)
    (hsend : p.registers usingDatabase = true) (hfine : Fine p e) (h : Due s p) :
    Due (step usingDatabase plugins s e) p := by
  cases e with
  | start q thrown => exact h.registerIotaManager hnumbered q thrown
  | change => exact h.change hfine
  | enter => exact h.enter hp
  | attempt => exact h.attempt hnumbered hsend hfine
  | leave => exact h.leave
  | handle => exact h.handle
  | drop r =>
      exact h.imp
        (fun h => h.of_subset (requests_step usingDatabase plugins (e := .drop r) id).1 rfl
          fun _ _ hr => hr)
        fun h => h.of_same rfl rfl rfl rfl
  | answer => exact h.answer
  | refuse => exact h.refuse hfine
  | fail r =>
      rw [step]
      split
      · exact .inr (.inr (.inl (Nat.succ_pos s.errors)))
      · exact h
  | retry => exact h.retry
  | expire =>
      rw [step]
      split
      · exact h.imp id fun h => h.of_same rfl rfl rfl rfl
      · exact h
  | timeout =>
      rw [step]
      split
      · exact .inr (.inl (Nat.succ_pos _))
      · exact h

lemma numbered_run (usingDatabase : Bool) (plugins : List Plugin) (h : Numbered s)
    (events : List (Event S)) : Numbered (Run.run (step usingDatabase plugins) s events) := by
  induction events generalizing s with
  | nil => exact h
  | cons e events ih => exact ih (h.step e)

/-- What is told stays told, or is told again: a run. -/
lemma due_run {events : List (Event S)} (hnumbered : Numbered s) (hp : p ∈ plugins)
    (hsend : p.registers usingDatabase = true) (hfine : ∀ e ∈ events, Fine p e) (h : Due s p) :
    Due (Run.run (step usingDatabase plugins) s events) p := by
  induction events generalizing s with
  | nil => exact h
  | cons e events ih =>
      obtain ⟨he, hevents⟩ := List.forall_mem_cons.mp hfine
      exact ih (hnumbered.step e) hevents (due_step hnumbered hp hsend he h)

/-- Once a plugin has been started and nothing is left to do, the manager has stored a request with
its services as they are, whatever errors there were, and no request for the plugin is newer; if
the requests arrived in their order this is what the manager has. -/
theorem manager_upToDate (usingDatabase : Bool) (plugins : List Plugin) (p : Plugin)
    (hp : p ∈ plugins) (hsend : p.registers usingDatabase = true) (services : String → S)
    (before after : List (Event S)) (hfine : ∀ e ∈ after, Fine p e)
    (hquiet : Quiet (Run.run (step usingDatabase plugins) (init services)
      (before ++ .start p false :: after))) :
    let s := Run.run (step usingDatabase plugins) (init services)
      (before ++ .start p false :: after)
    (∃ r ∈ s.handled, r.resource = p.resource ∧ r.services = s.services p.resource ∧
      Newest s r) ∧
    (InOrder s p.resource → s.stored p.resource = some (s.services p.resource)) := by
  intro s
  have hnumbered := numbered_run usingDatabase plugins (numbered_init services) before
  have hrun : s = Run.run (step usingDatabase plugins)
      ((Run.run (step usingDatabase plugins) (init services) before).registerIotaManager
        usingDatabase p false) after :=
    List.foldl_append
  have hdue : Due s p := by
    rw [hrun]
    exact due_run (hnumbered.registerIotaManager p false) hp hsend hfine
      (.inl (told_registerIotaManager hnumbered hsend))
  have htimer : TimerInv s := timerInv_run (timerInv_init services) _
  obtain ⟨r, hr, hresource, hsame, hnewest⟩ := exists_handled_of_quiet hdue htimer hquiet
  refine ⟨⟨r, hr, hresource, hsame, hnewest⟩, fun horder => ?_⟩
  rw [← hresource] at horder ⊢
  rw [stored_of_inOrder hr hnewest horder, hsame, hresource]

/-! ### Two runs -/

def ulPlugin : Plugin :=
  ⟨"/iot/d", "PDI-IoTA-UltraLight", "UL2", "http://10.0.0.2:8081/iot/protocols"⟩

/-- The request of a number. -/
def request (number services : ℕ) : Registration ℕ :=
  ⟨number, ulPlugin.resource, services⟩

/-- The manager cannot be reached at first. -/
def retried : List (Event ℕ) :=
  [.fail (request 0 5), .retry, .expire, .timeout, .enter, .attempt ulPlugin false, .leave,
    .handle (request 1 5), .answer (request 1 5)]

theorem manager_upToDate_retried :
    (Run.run (step true [ulPlugin]) (init fun _ => 5)
      (.start ulPlugin false :: retried)).stored ulPlugin.resource = some 5 := by
  have hquiet : Quiet (Run.run (step true [ulPlugin]) (init fun _ => 5)
      ([] ++ .start ulPlugin false :: retried)) :=
    ⟨rfl, rfl, rfl, rfl, rfl, rfl⟩
  have hfine : ∀ e ∈ retried, Fine ulPlugin e := by
    simp [retried, Fine]
  refine (manager_upToDate true [ulPlugin] ulPlugin (List.mem_singleton.mpr rfl) (by decide)
    (fun _ => 5) [] retried hfine hquiet).2 ?_
  exact List.pairwise_singleton _ _

/-- The services change, and the requests from before and from behind the change are under way at
the same time. -/
def overtaken : List (Event ℕ) :=
  [.start ulPlugin false, .change ulPlugin.resource 6 false, .enter, .attempt ulPlugin false,
    .leave, .handle (request 1 6), .handle (request 0 5), .answer (request 0 5),
    .answer (request 1 6)]

/-- Without exceptions and errors, the manager may be left with services that are no more. -/
theorem manager_stale : (∀ e ∈ overtaken, Fine ulPlugin e) ∧
    Quiet (Run.run (step true [ulPlugin]) (init fun _ => 5) overtaken) ∧
    (Run.run (step true [ulPlugin]) (init fun _ => 5) overtaken).stored ulPlugin.resource =
      some 5 ∧
    (Run.run (step true [ulPlugin]) (init fun _ => 5) overtaken).services ulPlugin.resource =
      6 := by
  refine ⟨?_, ⟨rfl, rfl, rfl, rfl, rfl, rfl⟩, rfl, rfl⟩
  simp [overtaken, Fine]

end ManagerRegistration

end IotAgent
