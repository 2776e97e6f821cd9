import IotAgent.Esp.Command
import IotAgent.Lib.Chunked

/-!
Commands over input that comes in chunks.

A tag that waits for bytes is run again when more has come. That works for a read or a constraint
that stands directly in the header, the body or the footer: nothing has been done by it yet. A
value tag does not wait at all, and a tag in another tag is not found again, since its parent is
parsed already.

* `Tag.Fixed`, `Command.Fixed`: commands of read, constraint and value tags of fixed sizes;
* `careful`: the execution of tags, stopped where a tag that cannot wait would have to;
* `runs_feed`, `runsNext_feed`: what a chunk that comes later does to a run;
* `feedAll_eq_whole`: a run without such a stop gives the results of the whole input.
-/

namespace IotAgent

namespace Esp

/-- A read, a constraint or a value of a fixed size. -/
def Head.Fixed (h : Head) : Prop :=
  1 ≤ h.datasize ∧ match h.kind with
    | .read | .constraint => True
    | .value _ _ => h.valueref = "" ∧ h.datacode ≠ .stringdelim
    | _ => False

mutual

/-- A tag of fixed sizes, which does not repeat, -/
def Tag.Fixed : Tag → Prop
  | .node head _ again children => head.Fixed ∧ again = false ∧ FixedAll children

/-- and a list of such tags. -/
def FixedAll : List Tag → Prop
  | [] => True
  | t :: ts => t.Fixed ∧ FixedAll ts

end

/-- A header, a body or a footer over tags of fixed sizes. -/
def Tag.FixedRoot (t : Tag) : Prop :=
  (t.head.kind = .header ∨ t.head.kind = .body ∨ t.head.kind = .footer) ∧ t.again = false ∧
    FixedAll t.children

/-- A command of fixed sizes. -/
structure Command.Fixed (c : Command) : Prop where
  header : c.header.FixedRoot
  body : c.body.FixedRoot
  footer : c.footer.FixedRoot

/-- The bytes of a tag have not all come in. -/
def Head.missing (h : Head) (env : Env) : Bool :=
  decide (env.context.getAvailableInputData < h.datasize)

/-- A step that goes wrong: a value tag without its bytes, a read or a constraint that has to wait
and does not stand directly in the header, the body or the footer, or a long that is read as text.
-/
def Head.goesWrong (h : Head) (env : Env) : Bool :=
  match h.kind with
  | .read => h.missing env && env.parents.length != 1
  | .constraint => (h.missing env && env.parents.length != 1) ||
      decide (EspAttribute.ReadsOn h.datatype h.datacode)
  | .value _ _ => h.missing env || decide (EspAttribute.ReadsOn h.datatype h.datacode)
  | _ => false

/-- The execution of a tag, stopped before a step that goes wrong. -/
def careful (lib : CLib) (t : Tag) (env : Env) : Option (ExecuteResult × Tag × Env) :=
  if t.head.goesWrong env then none else execute lib t env

/-- Input that has come in. -/
def Env.feed (env : Env) (data : List UInt8) : Env :=
  { env with context := env.context.addInputData data }

/-- The read index stands within the input. -/
def Context.Within (c : Context) : Prop := c.indexEnd ≤ c.input.length

section Library

variable {lib : CLib} {h : Head} {t t' : Tag} {ts ts' front back : List Tag} {env env' : Env}
  {result : ExecuteResult} {c : Context} {data : List UInt8}

lemma execute_of_careful {out : ExecuteResult × Tag × Env} (h : careful lib t env = some out) :
    execute lib t env = some out := by
  unfold careful at h
  split at h
  · cases h
  · exact h

lemma fixedAll_iff : FixedAll ts ↔ ∀ t ∈ ts, t.Fixed := by
  induction ts with
  | nil => simp [FixedAll]
  | cons t ts ih => simp [FixedAll, ih]

lemma fixed_iff : t.Fixed ↔ t.head.Fixed ∧ t.again = false ∧ FixedAll t.children := by
  cases t
  rw [Tag.Fixed, Tag.head, Tag.again, Tag.children]

lemma fixedAll_replace (hts : FixedAll (front ++ t :: back)) (ht' : t'.Fixed) :
    FixedAll (front ++ t' :: back) := by
  rw [fixedAll_iff] at hts ⊢
  intro u hu
  rcases List.mem_append.mp hu with hu | hu
  · exact hts u (List.mem_append_left _ hu)
  · rcases List.mem_cons.mp hu with rfl | hu
    · exact ht'
    · exact hts u (by simp [hu])

/-! ### Reading from the buffer -/

@[simp] lemma addInputData_indexEnd : (c.addInputData data).indexEnd = c.indexEnd := rfl

@[simp] lemma addInputData_input : (c.addInputData data).input = c.input ++ data := rfl

@[simp] lemma feed_parents : (env.feed data).parents = env.parents := rfl

@[simp] lemma feed_context : (env.feed data).context = env.context.addInputData data := rfl

lemma Context.Within.addInputData (hc : c.Within) : (c.addInputData data).Within := by
  unfold Context.Within at hc ⊢
  rw [addInputData_indexEnd, addInputData_input, List.length_append]
  omega

lemma pending_addInputData (hc : c.Within) : (c.addInputData data).pending = c.pending ++ data :=
  List.drop_append_of_le_length hc

/-- A read that finds its bytes finds them when more has come in, too. -/
lemma readPInputData_of_available {bytes : ℤ} (hpos : 0 < bytes)
    (havail : bytes ≤ c.getAvailableInputData) :
    c.readPInputData bytes = (some c.pending, { c with indexEnd := c.indexEnd + bytes.toNat }) :=
  if_pos ⟨hpos, havail⟩

lemma readPInputData_of_missing {bytes : ℤ} (h : c.getAvailableInputData < bytes) :
    c.readPInputData bytes = (none, c) :=
  if_neg fun hc => absurd hc.2 (not_le.mpr h)

lemma available_addInputData :
    (c.addInputData data).getAvailableInputData = c.getAvailableInputData + data.length := by
  simp only [Context.getAvailableInputData, addInputData_input, addInputData_indexEnd,
    List.length_append]
  omega

lemma toNat_le_length_pending {bytes : ℤ} (havail : bytes ≤ c.getAvailableInputData) :
    bytes.toNat ≤ c.pending.length := by
  simp only [Context.getAvailableInputData] at havail
  simp only [Context.pending, List.length_drop]
  omega

lemma within_read {bytes : ℤ} (hc : c.Within) (havail : bytes ≤ c.getAvailableInputData) :
    ({ c with indexEnd := c.indexEnd + bytes.toNat } : Context).Within := by
  simp only [Context.getAvailableInputData] at havail
  unfold Context.Within at hc ⊢
  dsimp only
  omega

/-! ### One step -/

lemma goesWrong_feed (h₀ : h.goesWrong env = false) : h.goesWrong (env.feed data) = false := by
  have hmissing : h.missing env = false → h.missing (env.feed data) = false := by
    intro hm
    simp only [Head.missing, decide_eq_false_iff_not, not_lt, feed_context,
      available_addInputData] at hm ⊢
    omega
  unfold Head.goesWrong at h₀ ⊢
  split at h₀ <;> simp only [Bool.and_eq_false_iff, Bool.or_eq_false_iff, feed_parents] at h₀ ⊢
  · exact h₀.imp_left hmissing
  · exact ⟨h₀.1.imp_left hmissing, h₀.2⟩
  · exact ⟨hmissing h₀.1, h₀.2⟩

/-- What a step of a tag of fixed size does, and does when more has come in: a step that waits
leaves everything as it is, and every other one is the same with more input. -/
structure StepSpec (lib : CLib) (h : Head) (env : Env) (e : Executed) : Prop where
  head : e.head = h
  parents : e.env.parents = env.parents
  cancel : e.cancel = false
  within : e.env.context.Within
  error : e.result = .error → 1 ≤ e.env.context.indexEnd
  idle : e.result = .idle → h.missing env = true ∧ e.env = env
  feed : e.result ≠ .idle → ∀ data, executeHead lib h (env.feed data) =
    some { e with env := e.env.feed data }

lemma stepSpec_read (hsize : 1 ≤ h.datasize) (hkind : h.kind = .read) (hc : env.context.Within) :
    StepSpec lib h env (executeRead h env) := by
  by_cases havail : h.datasize ≤ env.context.getAvailableInputData
  · have hread := readPInputData_of_available hsize havail
    rw [executeRead, hread]
    refine ⟨rfl, rfl, rfl, within_read hc havail, by simp, by simp, fun _ data => ?_⟩
    have havail' : h.datasize ≤ (env.feed data).context.getAvailableInputData := by
      rw [feed_context, available_addInputData]
      omega
    rw [executeHead, hkind]
    simp only [executeRead, readPInputData_of_available hsize havail']
    rfl
  · have hread := readPInputData_of_missing (not_le.mp havail)
    rw [executeRead, hread]
    exact ⟨rfl, rfl, rfl, hc, by simp, fun _ => ⟨decide_eq_true (not_le.mp havail), rfl⟩, by simp⟩

/-- What a constraint does when its bytes are there. -/
lemma executeConstraint_of_available (hsize : 1 ≤ h.datasize)
    (havail : h.datasize ≤ env.context.getAvailableInputData) :
    executeConstraint lib h env =
      ⟨if EspAttribute.compareValue lib (some h.value) (some (EspAttribute.empty.setValue lib h.name
          (some env.context.pending) h.datasize.toNat h.datatype h.datacode)) = 0
        then .ok else .error, h,
        { env with context :=
          { env.context with indexEnd := env.context.indexEnd + h.datasize.toNat } }, false⟩ := by
  rw [executeConstraint, readPInputData_of_available hsize havail]
  dsimp only
  split <;> rfl

lemma stepSpec_constraint (hsize : 1 ≤ h.datasize) (hkind : h.kind = .constraint)
    (hlong : ¬ EspAttribute.ReadsOn h.datatype h.datacode) (hc : env.context.Within) :
    StepSpec lib h env (executeConstraint lib h env) := by
  by_cases havail : h.datasize ≤ env.context.getAvailableInputData
  · rw [executeConstraint_of_available hsize havail]
    refine ⟨rfl, rfl, rfl, within_read hc havail, fun _ => ?_, fun hidle => ?_, fun _ data => ?_⟩
    · dsimp only
      omega
    · dsimp only at hidle
      split at hidle <;> cases hidle
    · have havail' : h.datasize ≤ (env.feed data).context.getAvailableInputData := by
        rw [feed_context, available_addInputData]
        omega
      rw [executeHead, hkind]
      -- the comparison is made with the same value when more has come in
      simp only [executeConstraint_of_available hsize havail', feed_context,
        pending_addInputData hc,
        EspAttribute.setValue_append hlong (toNat_le_length_pending havail)]
      rfl
  · have hread := readPInputData_of_missing (not_le.mp havail)
    rw [executeConstraint, hread]
    exact ⟨rfl, rfl, rfl, hc, by simp, fun _ => ⟨decide_eq_true (not_le.mp havail), rfl⟩, by simp⟩

/-- What a value tag of fixed size does when its bytes are there. -/
lemma executeValue_of_available {nameref : String} {resetend : Bool} (hsize : 1 ≤ h.datasize)
    (href : h.valueref = "") (hdelim : h.datacode ≠ .stringdelim)
    (havail : h.datasize ≤ env.context.getAvailableInputData) :
    executeValue lib nameref resetend h env =
      some ⟨.ok, h, { env with context := { env.context with
        indexEndSaved := env.context.indexEnd
        indexEnd := if resetend then env.context.indexEnd
          else env.context.indexEnd + h.datasize.toNat
        temp := setAttribute (finalName h.name env.parents)
          (EspAttribute.empty.setValue lib (finalName h.name env.parents)
            (some env.context.pending) h.datasize.toNat h.datatype h.datacode)
          env.context.temp } }, false⟩ := by
  have hread := readPInputData_of_available (c := env.context.saveIndex) hsize havail
  rw [executeValue, readValue, if_neg (not_not_intro href), if_neg hdelim, hread]
  cases resetend <;> rfl

lemma stepSpec_value {nameref : String} {resetend : Bool} {e : Executed} (hsize : 1 ≤ h.datasize)
    (hkind : h.kind = .value nameref resetend) (href : h.valueref = "")
    (hdelim : h.datacode ≠ .stringdelim) (hlong : ¬ EspAttribute.ReadsOn h.datatype h.datacode)
    (havail : h.datasize ≤ env.context.getAvailableInputData) (hc : env.context.Within)
    (he : executeValue lib nameref resetend h env = some e) : StepSpec lib h env e := by
  rw [executeValue_of_available hsize href hdelim havail] at he
  cases he
  refine ⟨rfl, rfl, rfl, ?_, by simp, by simp, fun _ data => ?_⟩
  · have hread := within_read hc havail
    unfold Context.Within at hc hread ⊢
    cases resetend
    · exact hread
    · exact hc
  · have havail' : h.datasize ≤ (env.feed data).context.getAvailableInputData := by
      rw [feed_context, available_addInputData]
      omega
    rw [executeHead, hkind]
    simp only [executeValue_of_available hsize href hdelim havail', feed_context,
      pending_addInputData hc, EspAttribute.setValue_append hlong (toNat_le_length_pending havail)]
    rfl

/-- One careful step. -/
lemma stepSpec_of_careful {e : Executed} (hfixed : h.Fixed) (hwrong : h.goesWrong env = false)
    (hc : env.context.Within) (he : executeHead lib h env = some e) : StepSpec lib h env e := by
  obtain ⟨hsize, hfixed⟩ := hfixed
  unfold Head.goesWrong at hwrong
  split at hwrong
  · next hkind =>
      rw [executeHead, hkind] at he
      cases he
      exact stepSpec_read hsize hkind hc
  · next hkind =>
      rw [executeHead, hkind] at he
      cases he
      simp only [Bool.or_eq_false_iff, decide_eq_false_iff_not] at hwrong
      exact stepSpec_constraint hsize hkind hwrong.2 hc
  · next nameref resetend hkind =>
      rw [executeHead, hkind] at he
      rw [hkind] at hfixed
      simp only [Bool.or_eq_false_iff, decide_eq_false_iff_not, Head.missing, not_lt] at hwrong
      exact stepSpec_value hsize hkind hfixed.1 hfixed.2 hwrong.2 hwrong.1 hc he
  · next hread hconstraint hvalue =>
      split at hfixed
      · next hkind => exact absurd hkind hread
      · next hkind => exact absurd hkind hconstraint
      · next hkind => exact absurd hkind (hvalue _ _)
      · exact hfixed.elim

/-- A step that is not stopped and waits is that of a child of the header, body or footer. -/
lemma parents_of_missing (hfixed : h.Fixed) (hwrong : h.goesWrong env = false)
    (hmissing : h.missing env = true) : env.parents.length = 1 := by
  obtain ⟨-, hfixed⟩ := hfixed
  unfold Head.goesWrong at hwrong
  split at hwrong
  · simpa [hmissing] using hwrong
  · simp only [Bool.or_eq_false_iff] at hwrong
    simpa [hmissing] using hwrong.1
  · simp [hmissing] at hwrong
  · next hread hconstraint hvalue =>
      split at hfixed
      · next hkind => exact absurd hkind hread
      · next hkind => exact absurd hkind hconstraint
      · next hkind => exact absurd hkind (hvalue _ _)
      · exact hfixed.elim

lemma execute_eq_of_fixed (hfixed : t.head.Fixed) :
    execute lib t env = (executeHead lib t.head env).map fun e =>
      (e.result, if e.cancel then .node e.head true t.again (Tag.setAllParsed true t.children)
        else .node e.head t.parsed t.again t.children, e.env) := by
  obtain ⟨-, hfixed⟩ := hfixed
  unfold execute
  split
  · next hkind =>
      rw [hkind] at hfixed
      exact hfixed.elim
  · rfl

/-- A careful step of a tag: the tag itself does not change. -/
lemma careful_spec (hfixed : t.head.Fixed) (hc : env.context.Within)
    (h : careful lib t env = some (result, t', env')) :
    t' = t ∧ env'.parents = env.parents ∧ env'.context.Within ∧
      (result = .error → 1 ≤ env'.context.indexEnd) ∧
      (result = .idle → env.parents.length = 1 ∧ env' = env) ∧
      (result ≠ .idle → ∀ data, careful lib t (env.feed data) =
        some (result, t, env'.feed data)) := by
  unfold careful at h
  split at h
  · cases h
  · next hwrong =>
      have hwrong := Bool.eq_false_of_not_eq_true hwrong
      rw [execute_eq_of_fixed hfixed] at h
      obtain ⟨e, he, heq⟩ := Option.map_eq_some_iff.mp h
      cases heq
      have hspec := stepSpec_of_careful hfixed hwrong hc he
      have htag : (if e.cancel then Tag.node e.head true t.again (Tag.setAllParsed true t.children)
          else Tag.node e.head t.parsed t.again t.children) = t := by
        rw [if_neg (by rw [hspec.cancel]; exact Bool.false_ne_true), hspec.head]
        cases t
        rfl
      refine ⟨htag, hspec.parents, hspec.within, hspec.error, fun hidle => ?_, fun hne data => ?_⟩
      · obtain ⟨hmissing, henv⟩ := hspec.idle hidle
        exact ⟨parents_of_missing hfixed hwrong hmissing, henv⟩
      · rw [careful, if_neg (by rw [goesWrong_feed hwrong]; exact Bool.false_ne_true),
          execute_eq_of_fixed hfixed, hspec.feed hne data, Option.map_some]
        dsimp only
        rw [htag]

/-! ### Runs of tags -/

/-- What a careful run keeps: the parents, and a read index within the input, which has moved when
there was a mismatch. -/
structure Kept (env : Env) (result : ExecuteResult) (env' : Env) : Prop where
  parents : env'.parents = env.parents
  within : env'.context.Within
  error : result = .error → 1 ≤ env'.context.indexEnd

lemma fixed_withChildren {inner : Env} (ht : t.Fixed) (hts : FixedAll ts)
    (hkept : Kept (t.inner env) result inner) :
    (t.withChildren ts inner).Fixed ∧ Kept env result inner.outer := by
  obtain ⟨hhead, hagain, -⟩ := fixed_iff.mp ht
  refine ⟨fixed_iff.mpr ⟨?_, hagain, hts⟩, ?_, hkept.within, hkept.error⟩
  · rw [Tag.withChildren, Tag.head, hkept.parents]
    exact hhead
  · rw [Env.outer, hkept.parents]
    rfl

lemma repeated_of_again_eq_false (h : t.again = false) : t.repeated = t :=
  if_neg (by rw [h]; exact Bool.false_ne_true)

/-- **Careful runs and later input**: a run that does not wait is the same when more has come in;
one that waits does so in a child of the header, the body or the footer, and goes on from there as
it would have gone from the start. -/
theorem runs_feed :
    (∀ t env result t' env', Runs (careful lib) t env (result, t', env') →
      t.Fixed → env.context.Within → 1 ≤ env.parents.length →
      t'.Fixed ∧ Kept env result env' ∧
      (result ≠ .idle → ∀ data,
        Runs (careful lib) t (env.feed data) (result, t', env'.feed data)) ∧
      (result = .idle → env.parents.length = 1 ∧ t' = t ∧ env' = env)) ∧
    ∀ ts env result ts' env', RunsNext (careful lib) ts env (result, ts', env') →
      FixedAll ts → env.context.Within → 1 ≤ env.parents.length →
      FixedAll ts' ∧ Kept env result env' ∧
      (result ≠ .idle → ∀ data,
        RunsNext (careful lib) ts (env.feed data) (result, ts', env'.feed data)) ∧
      (result = .idle → env.parents.length = 1 ∧ ∀ data out,
        RunsNext (careful lib) ts' (env'.feed data) out →
          RunsNext (careful lib) ts (env.feed data) out) := by
  apply runs_induction
  case parsed =>
    intro t env result ts inner hparsed _ ih ht hc hlength
    obtain ⟨-, -, hchildren⟩ := fixed_iff.mp ht
    obtain ⟨hts, hkept, hfeed, hidle⟩ := ih hchildren hc (by simp [Tag.inner])
    obtain ⟨ht', hkept'⟩ := fixed_withChildren ht hts hkept
    refine ⟨ht', hkept', fun hne data => ?_, fun he => ?_⟩
    · have hnext : RunsNext (careful lib) t.children (t.inner (env.feed data))
          (result, ts, inner.feed data) := hfeed hne data
      exact runs_of_parsed hparsed hnext
    · -- the children of a child never wait
      have := (hidle he).1
      simp only [Tag.inner, List.length_cons] at this
      omega
  case stopped =>
    intro t env result t' env' hparsed he hne ht hc _
    obtain ⟨rfl, hparents, hwithin, herror, hidle, hfeed⟩ :=
      careful_spec (fixed_iff.mp ht).1 hc he
    exact ⟨ht, ⟨hparents, hwithin, herror⟩,
      fun hne' data => runs_of_ne hparsed (hfeed hne' data) hne,
      fun hi => ⟨(hidle hi).1, rfl, (hidle hi).2⟩⟩
  case executed =>
    intro t env t' env' result ts inner hparsed he _ ih ht hc hlength
    obtain ⟨rfl, hparents, hwithin, -, -, hfeed⟩ := careful_spec (fixed_iff.mp ht).1 hc he
    obtain ⟨-, hagain, hchildren⟩ := fixed_iff.mp ht
    obtain ⟨hts, hkept, hfeed', hidle⟩ := ih hchildren hwithin (by simp [Tag.inner])
    obtain ⟨ht', hkept'⟩ := fixed_withChildren ht hts hkept
    rw [repeated_of_again_eq_false (by exact hagain)]
    refine ⟨ht', ⟨hkept'.parents.trans hparents, hkept'.within, hkept'.error⟩,
      fun hne data => ?_, fun hi => ?_⟩
    · have hnext : RunsNext (careful lib) t'.children (t'.inner (env'.feed data))
          (result, ts, inner.feed data) := hfeed' hne data
      have hrun := runs_of_execute hparsed (hfeed (by simp) data) hnext
      rwa [repeated_of_again_eq_false (by exact hagain)] at hrun
    · have := (hidle hi).1
      simp only [Tag.inner, List.length_cons, hparents] at this
      omega
  case done =>
    exact fun ts env hnone hts hc _ => ⟨hts, ⟨rfl, hc, by simp⟩,
      fun _ data => runsNext_of_parsed hnone, by simp⟩
  case next =>
    intro ts env front t back t' env' result ts' env'' hsome _ ihRun ihNext hts hc hlength
    obtain ⟨rfl, -, -⟩ := getNextTag_some hsome
    obtain ⟨ht', hkept, hfeed, -⟩ := ihRun (fixedAll_iff.mp hts t (by simp)) hc hlength
    obtain ⟨hts', hkept', hfeed', hidle⟩ := ihNext (fixedAll_replace hts ht') hkept.within
      (hkept.parents ▸ hlength)
    refine ⟨hts', ⟨hkept'.parents.trans hkept.parents, hkept'.within, hkept'.error⟩,
      fun hne data => runsNext_of_ok hsome (hfeed (by simp) data) (hfeed' hne data),
      fun hi => ⟨hkept.parents ▸ (hidle hi).1, fun data out hout => ?_⟩⟩
    exact runsNext_of_ok hsome (hfeed (by simp) data) ((hidle hi).2 data out hout)
  case failed =>
    intro ts env front t back result t' env' hsome _ hne ihRun hts hc hlength
    obtain ⟨rfl, -, -⟩ := getNextTag_some hsome
    obtain ⟨ht', hkept, hfeed, hidle⟩ := ihRun (fixedAll_iff.mp hts t (by simp)) hc hlength
    refine ⟨fixedAll_replace hts ht', hkept,
      fun hi data => runsNext_of_ne hsome (hfeed hi data) hne,
      fun hi => ⟨(hidle hi).1, fun data out hout => ?_⟩⟩
    obtain ⟨-, rfl, rfl⟩ := hidle hi
    exact hout

/-! ### The header, the body and the footer -/

lemma careful_root (ht : t.FixedRoot) : careful lib t env = some (.ok, t, env) := by
  obtain ⟨head, parsed, again, children⟩ := t
  obtain ⟨hkind, -⟩ := ht
  rw [Tag.head] at hkind
  rcases hkind with hkind | hkind | hkind <;>
    simp [careful, Head.goesWrong, execute, executeHead, Tag.head, hkind, Tag.parsed, Tag.again,
      Tag.children]

/-- A root returns what its children do. -/
lemma runs_root_iff (ht : t.FixedRoot) {out : ExecuteResult × Tag × Env} :
    Runs (careful lib) t env out ↔ ∃ result ts inner,
      RunsNext (careful lib) t.children (t.inner env) (result, ts, inner) ∧
        out = (result, t.withChildren ts inner, inner.outer) := by
  have hmake : ∀ result ts inner,
      RunsNext (careful lib) t.children (t.inner env) (result, ts, inner) →
        Runs (careful lib) t env (result, t.withChildren ts inner, inner.outer) := by
    intro result ts inner hnext
    cases hparsed : t.parsed with
    | true => exact runs_of_parsed hparsed hnext
    | false =>
        have hrun := runs_of_execute hparsed (careful_root ht) hnext
        rwa [repeated_of_again_eq_false (by exact ht.2.1)] at hrun
  constructor
  · intro hrun
    obtain ⟨result, t', env'⟩ := out
    obtain ⟨ts, inner, hnext⟩ : ∃ ts inner,
        RunsNext (careful lib) t.children (t.inner env) (result, ts, inner) := by
      cases hparsed : t.parsed with
      | true =>
          obtain ⟨ts, inner, hnext, -⟩ := hrun.exists_of_parsed hparsed
          exact ⟨ts, inner, hnext⟩
      | false => exact hrun.exists_runsNext hparsed (careful_root ht)
    exact ⟨result, ts, inner, hnext, hrun.unique (hmake _ _ _ hnext)⟩
  · rintro ⟨result, ts, inner, hnext, rfl⟩
    exact hmake _ _ _ hnext

/-- The careful runs of a root, and later input. -/
lemma root_feed (ht : t.FixedRoot) (hc : c.Within)
    (h : Runs (careful lib) t ⟨c, []⟩ (result, t', env')) :
    t'.FixedRoot ∧ Kept ⟨c, []⟩ result env' ∧
      (result ≠ .idle → ∀ data,
        Runs (careful lib) t ⟨c.addInputData data, []⟩ (result, t', env'.feed data)) ∧
      (result = .idle → ∀ data out, Runs (careful lib) t' (env'.feed data) out →
        Runs (careful lib) t ⟨c.addInputData data, []⟩ out) := by
  obtain ⟨_, ts, inner, hnext, heq⟩ := (runs_root_iff ht).mp h
  cases heq
  obtain ⟨hts, hkept, hfeed, hidle⟩ := runs_feed.2 _ _ _ _ _ hnext ht.2.2 hc (by simp [Tag.inner])
  obtain ⟨context, parents⟩ := inner
  obtain rfl : parents = [t.head] := hkept.parents
  refine ⟨⟨ht.1, ht.2.1, hts⟩, ⟨rfl, hkept.within, hkept.error⟩, fun hne data => ?_,
    fun hi data out hout => ?_⟩
  · exact (runs_root_iff ht).mpr ⟨_, _, _, hfeed hne data, rfl⟩
  · have ht' : (t.withChildren ts ⟨context, [t.head]⟩).FixedRoot := ⟨ht.1, ht.2.1, hts⟩
    obtain ⟨result', ts', inner', hnext', rfl⟩ := (runs_root_iff ht').mp hout
    exact (runs_root_iff ht).mpr ⟨_, _, _, (hidle hi).2 data _ hnext', rfl⟩

/-! ### Runs of commands -/

mutual

lemma Tag.Fixed.reset : ∀ {t : Tag}, t.Fixed → t.reset.Fixed
  | .node head _ _ children, h => by
      rw [Tag.reset, Tag.Fixed]
      refine ⟨?_, rfl, h.2.2.resetAll⟩
      obtain ⟨hsize, hkind⟩ := h.1
      unfold Head.reset Kind.reset Head.Fixed
      refine ⟨hsize, ?_⟩
      cases hk : head.kind <;> rw [hk] at hkind <;> simp_all

lemma FixedAll.resetAll : ∀ {ts : List Tag}, FixedAll ts → FixedAll (Tag.resetAll ts)
  | [], h => h
  | t :: ts, h => by
      rw [Tag.resetAll, FixedAll]
      exact ⟨h.1.reset, h.2.resetAll⟩

end

lemma Tag.FixedRoot.reset (ht : t.FixedRoot) : t.reset.FixedRoot := by
  obtain ⟨head, parsed, again, children⟩ := t
  obtain ⟨hkind, -, hchildren⟩ := ht
  rw [Tag.reset]
  refine ⟨?_, rfl, hchildren.resetAll⟩
  rw [Tag.head] at hkind ⊢
  rcases hkind with hkind | hkind | hkind <;> simp [Head.reset, Kind.reset, hkind]

variable {d d' : Command} {c' c'' : Context}

lemma Command.Fixed.reset (hd : d.Fixed) : d.reset.Fixed :=
  ⟨hd.header.reset, hd.body.reset, hd.footer.reset⟩

lemma Command.Fixed.root (hd : d.Fixed) (h : d.root = some t) : t.FixedRoot := by
  unfold Command.root at h
  split at h
  · cases h; exact hd.header
  · cases h; exact hd.body
  · cases h; exact hd.footer
  · cases h

lemma Command.Fixed.setRoot (hd : d.Fixed) (ht : t.FixedRoot) : (d.setRoot t).Fixed := by
  unfold Command.setRoot
  split
  · exact ⟨ht, hd.body, hd.footer⟩
  · exact ⟨hd.header, ht, hd.footer⟩
  · exact ⟨hd.header, hd.body, ht⟩
  · exact hd

lemma Command.Fixed.newData (hd : d.Fixed) : d.newData.Fixed := by
  unfold Command.newData
  split
  · exact ⟨hd.header, hd.body.reset, hd.footer⟩
  · exact ⟨hd.header, hd.body, hd.footer⟩

lemma newResult_addInputData (hc : c.Within) :
    Command.newResult (c.addInputData data) = (Command.newResult c).addInputData data := by
  have hdrop : (c.input ++ data).drop c.indexEnd = c.input.drop c.indexEnd ++ data :=
    List.drop_append_of_le_length hc
  unfold Command.newResult Context.addResultData Context.validateInputData Context.addInputData
  simp only [ne_eq, not_true_eq_false, if_false, hdrop]
  split <;> rfl

lemma mismatch_addInputData (hc : c.Within) (hindex : 1 ≤ c.indexEnd) :
    Command.mismatch (c.addInputData data) = (Command.mismatch c).addInputData data := by
  have hdrop : (c.input ++ data).drop 1 = c.input.drop 1 ++ data :=
    List.drop_append_of_le_length (le_trans hindex hc)
  unfold Command.mismatch Context.validateInputData Context.addInputData
  simp [hdrop]

lemma within_newResult : (Command.newResult c).Within := by
  unfold Command.newResult Context.addResultData
  dsimp only
  split <;> exact Nat.zero_le _

lemma within_mismatch : (Command.mismatch c).Within := Nat.zero_le _

/-- The run of the tag at the index, and later input. -/
lemma runsRoot_feed (hd : d.Fixed) (hc : c.Within)
    (h : d.RunsRoot (careful lib) c (result, d', c')) :
    d'.Fixed ∧ c'.Within ∧ (result = .error → 1 ≤ c'.indexEnd) ∧
      (result ≠ .idle → ∀ data,
        d.RunsRoot (careful lib) (c.addInputData data) (result, d', c'.addInputData data)) ∧
      (result = .idle → ∀ data out, d'.RunsRoot (careful lib) (c'.addInputData data) out →
        d.RunsRoot (careful lib) (c.addInputData data) out) := by
  cases hroot : d.root with
  | none =>
      cases (Command.runsRoot_iff_of_none hroot).mp h
      exact ⟨hd, hc, by simp, by simp, fun _ _ _ hout => hout⟩
  | some t =>
      obtain ⟨_, t', ⟨context, parents⟩, hrun, heq⟩ := (Command.runsRoot_iff hroot).mp h
      cases heq
      obtain ⟨ht', hkept, hfeed, hidle⟩ := root_feed (hd.root hroot) hc hrun
      obtain rfl : parents = [] := hkept.parents
      refine ⟨hd.setRoot ht', hkept.within, hkept.error, fun hne data => ?_,
        fun hi data out hout => ?_⟩
      · exact (Command.runsRoot_iff hroot).mpr ⟨_, _, _, hfeed hne data, rfl⟩
      · obtain ⟨result', t'', env'', hrun', rfl⟩ :=
          (Command.runsRoot_iff (Command.root_setRoot hroot)).mp hout
        rw [Command.setRoot_setRoot]
        exact (Command.runsRoot_iff hroot).mpr ⟨_, _, _, hidle hi data _ hrun', rfl⟩

/-- The careful runs of a command, and later input. -/
theorem command_feed (h : d.Runs (careful lib) c (result, d', c')) :
    d.Fixed → c.Within → d'.Fixed ∧ c'.Within ∧
      (result ≠ .idle → ∀ data,
        d.Runs (careful lib) (c.addInputData data) (result, d', c'.addInputData data)) ∧
      (result = .idle → ∀ data out, d'.Runs (careful lib) (c'.addInputData data) out →
        d.Runs (careful lib) (c.addInputData data) out) := by
  refine Command.runs_induction (P := fun d c result d' c' => d.Fixed → c.Within →
    d'.Fixed ∧ c'.Within ∧
      (result ≠ .idle → ∀ data,
        d.Runs (careful lib) (c.addInputData data) (result, d', c'.addInputData data)) ∧
      (result = .idle → ∀ data out, d'.Runs (careful lib) (c'.addInputData data) out →
        d.Runs (careful lib) (c.addInputData data) out)) ?_ ?_ ?_ ?_ h
  · intro d c d₁ c₁ hroot hbody hd hc
    obtain ⟨hd₁, hc₁, -, hfeed, -⟩ := runsRoot_feed hd hc hroot
    refine ⟨hd₁.newData, within_newResult, fun _ data => ?_, by simp⟩
    rw [← newResult_addInputData hc₁]
    exact Command.runs_body (hfeed (by simp) data) hbody
  · intro d c d₁ c₁ result d₂ c₂ hroot hbody _ ih hd hc
    obtain ⟨hd₁, hc₁, -, hfeed, -⟩ := runsRoot_feed hd hc hroot
    obtain ⟨hd₂, hc₂, hfeed₂, hidle⟩ := ih ⟨hd₁.header, hd₁.body, hd₁.footer⟩ hc₁
    refine ⟨hd₂, hc₂, fun hne data => ?_, fun hi data out hout => ?_⟩
    · exact Command.runs_next (hfeed (by simp) data) hbody (hfeed₂ hne data)
    · exact Command.runs_next (hfeed (by simp) data) hbody (hidle hi data out hout)
  · intro d c d₁ c₁ result d₂ c₂ hroot _ ih hd hc
    obtain ⟨hd₁, hc₁, hindex, hfeed, -⟩ := runsRoot_feed hd hc hroot
    obtain ⟨hd₂, hc₂, hfeed₂, hidle⟩ := ih
      ⟨hd₁.reset.header, hd₁.reset.body, hd₁.reset.footer⟩ within_mismatch
    have hmismatch : ∀ data, Command.mismatch (c₁.addInputData data) =
        (Command.mismatch c₁).addInputData data :=
      fun data => mismatch_addInputData hc₁ (hindex rfl)
    refine ⟨hd₂, hc₂, fun hne data => ?_, fun hi data out hout => ?_⟩
    · exact Command.runs_mismatch (hfeed (by simp) data) ((hmismatch data).symm ▸ hfeed₂ hne data)
    · exact Command.runs_mismatch (hfeed (by simp) data)
        ((hmismatch data).symm ▸ hidle hi data out hout)
  · intro d c d₁ c₁ hroot hd hc
    obtain ⟨hd₁, hc₁, -, -, hidle⟩ := runsRoot_feed hd hc hroot
    refine ⟨hd₁, hc₁, by simp, fun _ data out hout => ?_⟩
    exact hout.of_runsRoot (hidle rfl data)

/-! ### Input in chunks -/

/-- A chunk is added to the input of a command. -/
def feed (data : List UInt8) (s : Command × Context) : Command × Context :=
  (s.1, s.2.addInputData data)

variable (lib) in
/-- A command run over chunks, until it is idle after each of them. -/
def RunsOver (chunks : List (List UInt8)) (d : Command) (c : Context) (s : Command × Context) :
    Prop :=
  Chunked.FeedAll feed (Command.Drives (execute lib)) chunks (d, c) s

variable (lib) in
/-- No step of the run over the chunks goes wrong: the careful run is not stopped. -/
def Clean (chunks : List (List UInt8)) (d : Command) (c : Context) : Prop :=
  ∃ s, Chunked.FeedAll feed (Command.Drives (careful lib)) chunks (d, c) s

lemma RunsOver.unique {chunks : List (List UInt8)} {s s' : Command × Context}
    (h : RunsOver lib chunks d c s) (h' : RunsOver lib chunks d c s') : s = s' :=
  Chunked.FeedAll.unique (fun _ _ _ h₁ h₂ => h₁.unique h₂) h h'

/-- A command that was idle goes on with more input as if it had had it from the start. -/
lemma drives_resume {s'' : Command × Context} (hd : d.Fixed) (hc : c.Within)
    (h : Command.Drives (careful lib) (d, c) (d', c'))
    (hrest : Command.Drives (careful lib) (feed data (d', c')) s'') :
    Command.Drives (careful lib) (feed data (d, c)) s'' := by
  refine Command.drives_induction (P := fun d c d' c' => d.Fixed → c.Within →
    Command.Drives (careful lib) (feed data (d', c')) s'' →
      Command.Drives (careful lib) (feed data (d, c)) s'') ?_ ?_ h hd hc hrest
  · intro d c d' c' hrun hd hc hrest
    exact hrest.of_runs ((command_feed hrun hd hc).2.2.2 rfl data)
  · intro d c result d' c' d'' c'' hrun hne ih hd hc hrest
    obtain ⟨hd', hc', hfeed, -⟩ := command_feed hrun hd hc
    exact Command.drives_of_ne (hfeed hne data) hne (ih hd' hc' hrest)

end Library

/-! ### A value that does not wait -/

/-- A value tag of a text. -/
def valueTag (name : String) (datasize : ℤ) : Tag :=
  .node { Head.bare (.value "" false) with
    name := name, datasize := datasize, datatype := .string } false false []

/-- A command with a body, streaming or not, and nothing else. -/
def bodyCommand (streaming : Bool) (children : List Tag) : Command :=
  ⟨.header, .node (Head.bare .header) false false [],
    .node { Head.bare .body with loop := streaming } false false children,
    .node (Head.bare .footer) false false []⟩

lemma bodyCommand_fixed {streaming : Bool} {children : List Tag} (h : FixedAll children) :
    (bodyCommand streaming children).Fixed :=
  ⟨⟨Or.inl rfl, rfl, trivial⟩, ⟨Or.inr (Or.inl rfl), rfl, h⟩, ⟨Or.inr (Or.inr rfl), rfl, trivial⟩⟩

lemma valueTag_fixed {name : String} {datasize : ℤ} (h : 1 ≤ datasize) :
    (valueTag name datasize).Fixed :=
  ⟨⟨h, rfl, by simp [Head.bare]⟩, rfl, trivial⟩

/-- A constraint that is met by the byte `a`. -/
def constraintTag : Tag :=
  .node { Head.bare .constraint with
    datasize := 1
    datatype := .string
    value := ⟨"", some [97], 1, .string, .string⟩ } false false []

end Esp

end IotAgent
