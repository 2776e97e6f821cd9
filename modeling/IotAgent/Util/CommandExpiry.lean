import IotAgent.Util.Cache
import IotAgent.Util.TimedCommandCache

/-!
When a command expires.

The handler of a timer carries the command, not the arming it belongs to. It may wait in the
queue while a look-up arms the timer again, it removes by the identifier, which another
command may have as well, and the timeout went through sixteen bits. Where none of this
happens, no command expires before its timeout has passed since its last arming.

* `TimedOp`, `run`: runs of insertions, look-ups, removals, and of the event loop;
* `OnTime`: the handler belongs to the last arming of the only command with its identifier,
  and the timeout fits;
* `NotEarly`: what the handler removes was armed for the last time long enough ago;
* `no_early_expiry`: runs in which every handler is on time.
-/

namespace IotAgent

open HashIndex

/-- What happens to a cache of commands. -/
inductive TimedOp where
  | insert (item : Command)
  | get (fetch : GetFunction) (key : Command)
  | getByEntity (fetch : GetFunction) (key : Command)
  | getById (fetch : GetFunction) (key : Command)
  | getByEntityV (fetch : GetFunction) (key : Command) (newStatus : ℤ)
  | remove (key : Command)
  | removeAll
  | elapse (d : ℕ)
  | expire (a : Arming Ptr)
  | itemTimeout (a : Arming Ptr) (success timeoutRemoves : Bool)

namespace TimedCommandCache

variable {h : Hashing} (o : Order Ptr String) (c : TimedCommandCache h)

/-- Time passes. -/
def elapse (d : ℕ) : TimedCommandCache h :=
  { c with timers := c.timers.elapse d }

/-- The wait of a timer ends at its deadline. -/
def expire (a : Arming Ptr) : TimedCommandCache h where
  __ := c
  timers := c.timers.expire a
  armed := by
    rw [Timers.expire_last]
    exact c.armed

def apply : TimedOp → TimedCommandCache h
  | .insert item => (c.insertNew item).1
  | .get fetch key => (c.get fetch key).1
  | .getByEntity fetch key => (c.getByEntity o fetch key).1
  | .getById fetch key => (c.getById o fetch key).1
  | .getByEntityV fetch key newStatus => (c.getByEntityV o fetch key newStatus).1
  | .remove key => c.remove o key
  | .removeAll => c.removeAll o
  | .elapse d => c.elapse d
  | .expire a => c.expire a
  | .itemTimeout a success timeoutRemoves => c.itemTimeout o a success timeoutRemoves

/-- The cache after a run. -/
def run (ops : List TimedOp) : TimedCommandCache h :=
  ops.foldl (fun c op => c.apply o op) c

/-! ### What a handler removes -/

/-- The handler of the arming `a` is about its command and comes in time. -/
structure OnTime (a : Arming Ptr) : Prop where
  current : c.timers.last a.owner = some a
  alone : ∀ q ∈ c.cache.list, c.cache.idKey q = c.cache.idKey a.owner → q = a.owner
  timeout : (c.cmd a.owner).timeout ≤ 65535

/-- A command that a handler removes was armed for the last time at least its timeout ago. -/
def NotEarly (op : TimedOp) : Prop :=
  ∀ a success timeoutRemoves, op = .itemTimeout a success timeoutRemoves →
    ∀ q ∈ c.cache.list, q ∉ (c.apply o op).cache.list → 0 < (c.cmd q).timeout →
      ∃ b, c.timers.last q = some b ∧
        b.armedAt + (c.cmd q).timeout.toNat * second ≤ c.timers.now

variable {o c} {q : Ptr} {key : Command} {a : Arming Ptr} {success timeoutRemoves : Bool}

/-- A removal takes nothing but a command with the identifier. -/
lemma idKey_of_removed (hq : q ∈ c.cache.list) (hout : q ∉ (c.remove o key).cache.list) :
    c.cache.idKey q = key.uniqueId := by
  rw [remove_cache, CommandCache.remove] at hout
  cases hf : o.find c.cache.idKey key.uniqueId c.cache.list with
  | none =>
      rw [hf] at hout
      exact absurd hq hout
  | some p =>
      rw [hf] at hout
      by_cases hqp : q = p
      · exact hqp ▸ Order.key_of_find hf
      · exact absurd ((List.mem_erase_of_ne hqp).mpr hq) hout

/-- What leaves the cache when a handler runs has the identifier of its command, and the
handler was in the queue as successful. -/
lemma removed_by_itemTimeout (hq : q ∈ c.cache.list)
    (hout : q ∉ (c.itemTimeout o a success timeoutRemoves).cache.list) :
    success = true ∧ (a, true) ∈ c.timers.queued ∧
      c.cache.idKey q = c.cache.idKey a.owner := by
  rw [itemTimeout] at hout
  split at hout
  · next hqueued =>
      cases success with
      | false => exact absurd hq hout
      | true =>
          refine ⟨rfl, hqueued, ?_⟩
          set c' : TimedCommandCache h := { c with timers := c.timers.take a true } with hc'
          cases timeoutRemoves with
          | false => exact idKey_of_removed (c := c') hq hout
          | true =>
              by_cases hmid : q ∈ (c'.remove o (c.cmd a.owner)).cache.list
              · have hkey := idKey_of_removed hmid hout
                rwa [remove_cache, CommandCache.idKey, CommandCache.remove_cmd] at hkey
              · exact idKey_of_removed (c := c') hq hmid
  · exact absurd hq hout

/-- A timeout that fits into sixteen bits is waited for in full. -/
lemma duration_eq {k : Command} (hpos : 0 < k.timeout) (hfits : k.timeout ≤ 65535) :
    k.duration = k.timeout.toNat * second := by
  rw [Command.duration, Int.emod_eq_of_lt (by omega) (by omega)]

/-- A handler that is on time removes nothing early. -/
lemma notEarly_of_onTime (hon : success = true → c.OnTime a) :
    c.NotEarly o (.itemTimeout a success timeoutRemoves) := by
  rintro a' success' timeoutRemoves' heq q hq hout hpos
  obtain ⟨rfl, rfl, rfl⟩ := TimedOp.itemTimeout.inj heq
  obtain ⟨hsuccess, hqueued, hkey⟩ := removed_by_itemTimeout hq hout
  have hown := hon hsuccess
  have hqa : q = a.owner := hown.alone q hq hkey
  obtain ⟨-, -, hdur⟩ := c.armed a.owner a hown.current
  have hdue := Timers.due_of_mem_queued hqueued
  subst hqa
  rw [hdur, duration_eq hpos hown.timeout] at hdue
  exact ⟨a, hown.current, hdue⟩

/-- **No early expiry**: in a run in which every successful handler is on time, no command
is removed by a handler before its timeout has passed since its last arming. -/
theorem no_early_expiry (o : Order Ptr String) (capacity : ℕ) (lru : Bool) (ops : List TimedOp)
    (hon : ∀ before a timeoutRemoves after,
      ops = before ++ .itemTimeout a true timeoutRemoves :: after →
        ((empty capacity lru : TimedCommandCache h).run o before).OnTime a) :
    ∀ before op after, ops = before ++ op :: after →
      ((empty capacity lru : TimedCommandCache h).run o before).NotEarly o op := by
  intro before op after heq a success timeoutRemoves hop
  subst hop
  refine notEarly_of_onTime (fun hs => ?_) a success timeoutRemoves rfl
  subst hs
  exact hon before a timeoutRemoves after heq

/-! ### A look-up while the handler waits -/

/-- A command with a timeout of one second. -/
def oneSecond : Command :=
  { id := "dev1@ping", service := "service", servicePath := "/", sequence := "1f2e", timeout := 1 }

/-- The timer of the command ends, a look-up arms it again, and the handler runs. -/
def lookedUpTooLate : List TimedOp :=
  [.insert oneSecond, .elapse second, .expire ⟨0, 0, second⟩, .getById none oneSecond]

/-- The command is removed when none of the timeout has passed since the look-up. -/
theorem not_notEarly_lookedUpTooLate :
    ¬ ((empty 10 false : TimedCommandCache Cache.byLength).run Order.blocks
        lookedUpTooLate).NotEarly Order.blocks (.itemTimeout ⟨0, 0, second⟩ true false) := by
  intro hnot
  obtain ⟨b, hb, hle⟩ := hnot _ _ _ rfl 0 (by decide +kernel) (by decide +kernel)
    (by decide +kernel)
  have hlast : ((empty 10 false : TimedCommandCache Cache.byLength).run Order.blocks
      lookedUpTooLate).timers.last 0 = some ⟨0, second, second⟩ := by decide +kernel
  rw [hlast, Option.some.injEq] at hb
  subst hb
  revert hle
  decide +kernel

/-- The command expires in its time. -/
theorem notEarly_inTime :
    ((empty 10 false : TimedCommandCache Cache.byLength).run Order.blocks
      [.insert oneSecond, .elapse second, .expire ⟨0, 0, second⟩]).NotEarly
      Order.blocks (.itemTimeout ⟨0, 0, second⟩ true false) := by
  refine no_early_expiry Order.blocks 10 false
    [.insert oneSecond, .elapse second, .expire ⟨0, 0, second⟩,
      .itemTimeout ⟨0, 0, second⟩ true false] ?_ _ _ [] rfl
  rintro (_ | ⟨x, _ | ⟨y, _ | ⟨z, _ | ⟨w, l⟩⟩⟩⟩) a timeoutRemoves after heq
  · simp at heq
  · simp at heq
  · simp at heq
  · simp only [List.cons_append, List.nil_append, List.cons.injEq, TimedOp.itemTimeout.injEq]
      at heq
    obtain ⟨rfl, rfl, rfl, ⟨rfl, -, -⟩, -⟩ := heq
    exact ⟨by decide +kernel, by decide +kernel, by decide +kernel⟩
  · simp at heq

end TimedCommandCache

end IotAgent
