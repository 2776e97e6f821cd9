import IotAgent.Esp.CountedLoop

/-!
Loops without a count, which are left at a break or at the end of the data
(`ESP_Tag_Loop::execute` with `iterations="-1"` and `breakonempty="true"`).

* `runs_tag`, `runs_leaf`, `runs_cancelled`: the tags that are no loops;
* `Repeats`, `runsNext_of_repeats`: a tag that its parent runs until it is parsed;
* `Between`, `Between.runs_round`, `Between.runs_end`: a round of a loop, and its end.
-/

namespace IotAgent

namespace Esp

section Library

variable {lib : CLib} {h h' h'' : Head} {children ts ts' : List Tag} {t t' : Tag}
  {env env' : Env} {parents parents' : List Head} {c c' : Context}

/-! ### Tags that are no loops -/

/-- A new tag. -/
def Head.tag (h : Head) (children : List Tag) : Tag :=
  .node h false false children

def Straight (h : Head) : Prop :=
  match h.kind with
  | .loop .. => False
  | _ => True

lemma execute_of_straight {e : Executed} (he : executeHead lib h env = some e)
    (hstraight : Straight h) : execute lib (h.tag children) env =
      some (e.result, if e.cancel then .node e.head true false (Tag.setAllParsed true children)
        else .node e.head false false children, e.env) := by
  rw [execute]
  split
  · next hkind =>
      rw [Straight, show h.kind = _ from hkind] at hstraight
      exact hstraight.elim
  · rw [show (h.tag children).head = h from rfl, he]
    rfl

/-- A tag, and then its children. -/
lemma runs_tag (he : executeHead lib h env = some ⟨.ok, h', ⟨c, parents⟩, false⟩)
    (hstraight : Straight h)
    (hnext : RunsNext (execute lib) children ⟨c, h' :: parents⟩
      (.ok, ts, ⟨c', h'' :: parents'⟩)) :
    Runs (execute lib) (h.tag children) env (.ok, .node h'' true false ts, ⟨c', parents'⟩) :=
  runs_of_execute rfl (execute_of_straight he hstraight) hnext

lemma runs_leaf (he : executeHead lib h env = some ⟨.ok, h', env', false⟩)
    (hstraight : Straight h) :
    Runs (execute lib) (h.tag []) env (.ok, .node h' true false [], env') :=
  runs_tag he hstraight (runsNext_of_parsed rfl)

/-- A tag that cancels its children. -/
lemma runs_cancelled (he : executeHead lib h env = some ⟨.ok, h', env', true⟩)
    (hstraight : Straight h) :
    Runs (execute lib) (h.tag children) env
      (.ok, .node h' true false (Tag.setAllParsed true children), env') :=
  runs_of_execute rfl (execute_of_straight he hstraight)
    (runsNext_of_parsed (getNextTag_setAllParsed children))

lemma getNextTag_cons (ht : t.parsed = false) : Tag.getNextTag (t :: ts) = some ([], t, ts) := by
  rw [Tag.getNextTag, if_neg (by rw [ht]; exact Bool.false_ne_true)]

lemma runsNext_cons {out : ExecuteResult × List Tag × Env} (ht : t.parsed = false)
    (hrun : Runs (execute lib) t env (.ok, t', env')) (ht' : t'.parsed = true)
    (hnext : RunsNext (execute lib) ts env' out) :
    RunsNext (execute lib) (t :: ts) env (out.1, t' :: out.2.1, out.2.2) := by
  have hrest : RunsNext (execute lib) ([t'] ++ ts) env' (out.1, [t'] ++ out.2.1, out.2.2) :=
    runsNext_append_left (List.forall_mem_singleton.mpr ht') hnext
  exact runsNext_of_ok (getNextTag_cons ht) hrun hrest

/-! ### Tags that run again -/

variable (lib) in
/-- A tag that runs again and again, until it is parsed. -/
inductive Repeats : Tag → Env → Tag → Env → Prop
  | done {t t' : Tag} {env env' : Env} (ht : t.parsed = false)
      (hrun : Runs (execute lib) t env (.ok, t', env')) (ht' : t'.parsed = true) :
      Repeats t env t' env'
  | again {t t' t'' : Tag} {env env' env'' : Env} (ht : t.parsed = false)
      (hrun : Runs (execute lib) t env (.ok, t', env')) (hrest : Repeats t' env' t'' env'') :
      Repeats t env t'' env''

lemma runsNext_of_repeats {out : ExecuteResult × List Tag × Env}
    (hrepeats : Repeats lib t env t' env') (hnext : RunsNext (execute lib) ts env' out) :
    RunsNext (execute lib) (t :: ts) env (out.1, t' :: out.2.1, out.2.2) := by
  induction hrepeats with
  | done ht hrun ht' => exact runsNext_cons ht hrun ht' hnext
  | again ht hrun _ ih => exact runsNext_of_ok (getNextTag_cons ht) hrun (ih hnext)

mutual

lemma reset_setParsed (status : Bool) : ∀ t : Tag, (t.setParsed status).reset = t.reset
  | .node head _ again children => by
      rw [Tag.setParsed, Tag.reset, Tag.reset, resetAll_setAllParsed status children]

lemma resetAll_setAllParsed (status : Bool) :
    ∀ ts : List Tag, Tag.resetAll (Tag.setAllParsed status ts) = Tag.resetAll ts
  | [] => rfl
  | t :: ts => by
      rw [Tag.setAllParsed, Tag.resetAll, Tag.resetAll, reset_setParsed status t,
        resetAll_setAllParsed status ts]

end

/-! ### Rounds -/

/-- The head of an endless loop. -/
def Head.endless (h : Head) (iter niter : ℤ) : Head :=
  { h with kind := .loop (-1) true iter niter }

/-- A loop between two rounds; `Body` says how its children are when they start again. -/
structure Between (h : Head) (Body : List Tag → Prop) (iter niter : ℤ) (t : Tag) : Prop where
  parsed : t.parsed = false
  head : t.head = h.endless iter niter
  body : Body (Tag.resetAll t.children)

/-- A loop that has been left. -/
structure Through (h : Head) (Body : List Tag → Prop) (t : Tag) : Prop where
  parsed : t.parsed = true
  head : t.head.reset = h.endless (-1) 0
  body : Body (Tag.resetAll t.children)

variable {Body : List Tag → Prop} {iter iter' niter : ℤ}

lemma Between.runs_round (ht : Between h Body iter niter t) (hiter : iter ≠ 0)
    (hdata : 0 < c.getAvailableInputData)
    (hround : RunsNext (execute lib) (Tag.resetAll t.children)
      ⟨c, h.endless (-1) (niter + 1) :: parents⟩
      (.ok, ts, ⟨c', h.endless iter' (niter + 1) :: parents⟩))
    (hbody : Body (Tag.resetAll ts)) :
    ∃ t', Runs (execute lib) t ⟨c, parents⟩ (.ok, t', ⟨c', parents⟩) ∧
      Between h Body iter' (niter + 1) t' := by
  have hexec : execute lib t ⟨c, parents⟩ = some (.ok, .node (h.endless (-1) (niter + 1)) false
      true (Tag.resetAll t.children), ⟨c, parents⟩) := by
    rw [execute, ht.head]
    exact if_pos ⟨hiter, .inr hdata⟩
  exact ⟨_, runs_of_execute ht.parsed hexec hround, rfl, rfl,
    (resetAll_setAllParsed false ts).symm ▸ hbody⟩

variable (lib parents) in
/-- A loop without iterations left, or without data, is through. -/
lemma Between.runs_end (ht : Between h Body iter niter t)
    (hend : iter = 0 ∨ c.getAvailableInputData = 0) :
    ∃ t', Repeats lib t ⟨c, parents⟩ t' ⟨c, parents⟩ ∧ Through h Body t' := by
  have hexec : execute lib t ⟨c, parents⟩ = some (.ok, .node (h.endless 0 niter) true false
      (Tag.setAllParsed true t.children), ⟨c, parents⟩) := by
    rw [execute, ht.head]
    refine if_neg fun hmore => ?_
    rcases hend with hend | hend
    · exact hmore.1 hend
    · rcases hmore.2 with hfalse | hdata
      · cases hfalse
      · exact absurd hdata (by rw [hend]; exact lt_irrefl 0)
  refine ⟨_, .done ht.parsed (runs_of_execute ht.parsed hexec
    (runsNext_of_parsed (getNextTag_setAllParsed t.children))) rfl, rfl, rfl, ?_⟩
  exact (resetAll_setAllParsed true t.children).symm ▸ ht.body

/-- A loop that is through starts again with the tag around it. -/
lemma Through.reset (ht : Through h Body t) :
    ∃ ts, Body ts ∧ t.reset = (h.endless (-1) 0).tag ts := by
  obtain ⟨head, parsed, again, children⟩ := t
  exact ⟨_, ht.body, congrArg (Tag.node · false false _) ht.head⟩

end Library

end Esp

end IotAgent
