import IotAgent.Esp.Tag

/-!
Loops that count (`ESP_Tag_Loop::execute`).

A loop that executes goes back to its start with `reset()`, and so its remaining count is the whole
count again, less one.

* `Tag.NoBreak`, `runs_noBreak`: without a break nothing but a loop itself touches its count;
* `Passes`: the children of a loop, executed a number of times;
* `not_runsNext_of_looping`: a loop of two or more iterations never lets its parent finish;
* `runs_count_iff`: the loops that run their count.
-/

namespace IotAgent

namespace Esp

/-! ### Without a break -/

mutual

/-- No break in a tag, -/
def Tag.NoBreak : Tag → Prop
  | .node head _ _ children => head.kind ≠ .break ∧ NoBreaks children

/-- and none in a list of tags. -/
def NoBreaks : List Tag → Prop
  | [] => True
  | t :: ts => t.NoBreak ∧ NoBreaks ts

end

lemma noBreaks_iff {ts : List Tag} : NoBreaks ts ↔ ∀ t ∈ ts, t.NoBreak := by
  induction ts with
  | nil => simp [NoBreaks]
  | cons t ts ih => simp [NoBreaks, ih]

lemma noBreak_iff {t : Tag} : t.NoBreak ↔ t.head.kind ≠ .break ∧ NoBreaks t.children := by
  cases t
  rw [Tag.NoBreak, Tag.head, Tag.children]

/-- A kind without the mark of a switch. -/
def Kind.unevaluated : Kind → Kind
  | .switch _ => .switch false
  | kind => kind

/-- The kinds of the parents, without the marks of the switches. -/
def kinds (parents : List Head) : List Kind := parents.map fun h => h.kind.unevaluated

lemma unevaluated_reset_ne {kind : Kind} (h : kind ≠ .break) : kind.reset ≠ .break := by
  cases kind <;> simp_all [Kind.reset]

lemma ne_break_of_unevaluated_eq {kind kind' : Kind} (h : kind.unevaluated = kind'.unevaluated)
    (hne : kind' ≠ .break) : kind ≠ .break := by
  rintro rfl
  cases kind' <;> simp_all [Kind.unevaluated]

/-- A loop has no mark. -/
lemma eq_loop_of_unevaluated {kind : Kind} {iterations iter niter : ℤ} {breakonempty : Bool}
    (h : kind.unevaluated = .loop iterations breakonempty iter niter) :
    kind = .loop iterations breakonempty iter niter := by
  cases kind <;> first
    | exact h
    | cases h

mutual

lemma Tag.NoBreak.reset : ∀ {t : Tag}, t.NoBreak → t.reset.NoBreak
  | .node head _ _ children, h => by
      rw [Tag.reset, Tag.NoBreak]
      exact ⟨unevaluated_reset_ne h.1, h.2.resetAll⟩

lemma NoBreaks.resetAll : ∀ {ts : List Tag}, NoBreaks ts → NoBreaks (Tag.resetAll ts)
  | [], h => h
  | t :: ts, h => by
      rw [Tag.resetAll, NoBreaks]
      exact ⟨h.1.reset, h.2.resetAll⟩

end

mutual

lemma Tag.NoBreak.setParsed {status : Bool} : ∀ {t : Tag}, t.NoBreak → (t.setParsed status).NoBreak
  | .node head _ _ children, h => by
      rw [Tag.setParsed, Tag.NoBreak]
      exact ⟨h.1, h.2.setAllParsed⟩

lemma NoBreaks.setAllParsed {status : Bool} :
    ∀ {ts : List Tag}, NoBreaks ts → NoBreaks (Tag.setAllParsed status ts)
  | [], h => h
  | t :: ts, h => by
      rw [Tag.setAllParsed, NoBreaks]
      exact ⟨h.1.setParsed, h.2.setAllParsed⟩

end

section Library

variable {lib : CLib} {h : Head} {t t' : Tag} {ts ts' front back : List Tag} {env env' : Env}
  {result : ExecuteResult} {e : Executed}

lemma updateRef_kind (c : Context) : (updateRef h c).kind = h.kind := by
  unfold updateRef
  split
  · split <;> rfl
  · rfl

lemma readValue_kind {nameref : String} {c : Context} {r : ValueRead}
    (hr : readValue lib nameref h c = some r) : r.head.kind = h.kind := by
  unfold readValue at hr
  split at hr
  · obtain ⟨h', hnamed, rfl⟩ := Option.map_eq_some_iff.mp hr
    have hkind : h'.kind = h.kind := by
      split at hnamed
      · obtain ⟨a, -, rfl⟩ := Option.map_eq_some_iff.mp hnamed
        rfl
      · cases hnamed
        rfl
    rw [← hkind]
    split
    · split <;> rfl
    · rfl
  · split at hr
    · split at hr <;> cases hr <;> rfl
    · cases hr
      rfl

/-- A tag that is no break keeps its kind and those of its parents. -/
lemma executeHead_kinds (hne : h.kind ≠ .break) (he : executeHead lib h env = some e) :
    e.head.kind = h.kind ∧ kinds e.env.parents = kinds env.parents := by
  unfold executeHead at he
  split at he
  all_goals try (cases he; exact ⟨rfl, rfl⟩)
  · cases he
    rw [executeRead]
    split <;> exact ⟨rfl, rfl⟩
  · cases he
    exact ⟨updateRef_kind _, rfl⟩
  · cases he
    rw [executeConstraint]
    split
    · dsimp only
      split <;> exact ⟨rfl, rfl⟩
    · exact ⟨rfl, rfl⟩
  · next hbreak => exact absurd hbreak hne
  · obtain ⟨r, hr, rfl⟩ := Option.map_eq_some_iff.mp he
    dsimp only
    split <;> exact ⟨readValue_kind hr, rfl⟩
  · cases he
    rw [executeCondition]
    split <;> exact ⟨rfl, rfl⟩
  · cases he
    rw [executeResult]
    split <;> exact ⟨rfl, rfl⟩
  · cases he
    exact ⟨updateRef_kind _, rfl⟩
  · cases he
    rw [executeOption]
    split
    · exact ⟨rfl, rfl⟩
    · next p parents hparents =>
        split
        · next evaluated hp =>
            dsimp only
            split
            · refine ⟨rfl, ?_⟩
              rw [hparents]
              simp [kinds, hp, Kind.unevaluated]
            · exact ⟨rfl, rfl⟩
        · exact ⟨rfl, rfl⟩

lemma execute_noBreak (ht : t.NoBreak) (he : execute lib t env = some (result, t', env')) :
    t'.NoBreak ∧ kinds env'.parents = kinds env.parents := by
  rw [noBreak_iff] at ht
  unfold execute at he
  split at he
  · dsimp only at he
    split at he
    · cases he
      exact ⟨⟨by simp, ht.2.resetAll⟩, rfl⟩
    · cases he
      exact ⟨⟨by simp, ht.2.setAllParsed⟩, rfl⟩
  · obtain ⟨e, hexec, heq⟩ := Option.map_eq_some_iff.mp he
    cases heq
    obtain ⟨hkind, hparents⟩ := executeHead_kinds ht.1 hexec
    refine ⟨?_, hparents⟩
    split
    · exact ⟨hkind ▸ ht.1, ht.2.setAllParsed⟩
    · exact ⟨hkind ▸ ht.1, ht.2⟩

/-- What a run leaves in place. -/
lemma noBreak_withChildren {inner : Env} (ht : t.head.kind ≠ .break) (hts : NoBreaks ts)
    (hkinds : kinds inner.parents = kinds (t.inner env).parents) :
    (t.withChildren ts inner).NoBreak ∧ kinds inner.outer.parents = kinds env.parents := by
  obtain ⟨context, parents⟩ := inner
  cases parents with
  | nil => cases hkinds
  | cons h parents =>
      simp only [kinds, Tag.inner, List.map_cons, List.cons.injEq] at hkinds
      exact ⟨⟨ne_break_of_unevaluated_eq hkinds.1 ht, hts⟩, hkinds.2⟩

lemma noBreak_repeated (ht : t.NoBreak) : t.repeated.NoBreak := by
  unfold Tag.repeated
  split
  · exact ht.setParsed
  · exact ht

/-- A child is replaced by one without a break. -/
lemma noBreaks_replace (hts : NoBreaks (front ++ t :: back)) (ht' : t'.NoBreak) :
    NoBreaks (front ++ t' :: back) := by
  rw [noBreaks_iff] at hts ⊢
  intro u hu
  rcases List.mem_append.mp hu with hu | hu
  · exact hts u (List.mem_append_left _ hu)
  · rcases List.mem_cons.mp hu with rfl | hu
    · exact ht'
    · exact hts u (by simp [hu])

/-- Without a break, a run leaves the loops around it alone, and brings no break in. -/
theorem runs_noBreak :
    (∀ t env result t' env', Runs (execute lib) t env (result, t', env') → t.NoBreak →
      t'.NoBreak ∧ kinds env'.parents = kinds env.parents) ∧
    ∀ ts env result ts' env', RunsNext (execute lib) ts env (result, ts', env') → NoBreaks ts →
      NoBreaks ts' ∧ kinds env'.parents = kinds env.parents := by
  apply runs_induction
  case parsed =>
    intro t env result ts inner _ _ ih ht
    rw [noBreak_iff] at ht
    obtain ⟨hts, hkinds⟩ := ih ht.2
    exact noBreak_withChildren ht.1 hts hkinds
  case stopped =>
    intro t env result t' env' _ he _ ht
    exact execute_noBreak ht he
  case executed =>
    intro t env t' env' result ts inner _ he _ ih ht
    obtain ⟨ht', hparents⟩ := execute_noBreak ht he
    rw [noBreak_iff] at ht'
    obtain ⟨hts, hkinds⟩ := ih ht'.2
    obtain ⟨hafter, houter⟩ := noBreak_withChildren ht'.1 hts hkinds
    exact ⟨noBreak_repeated hafter, houter.trans hparents⟩
  case done => exact fun ts env _ hts => ⟨hts, rfl⟩
  case next =>
    intro ts env front t back t' env' result ts' env'' hs _ ihRun ihNext hts
    obtain ⟨rfl, -, -⟩ := getNextTag_some hs
    obtain ⟨ht', hkinds⟩ := ihRun (noBreaks_iff.mp hts t (by simp))
    obtain ⟨hts', hkinds'⟩ := ihNext (noBreaks_replace hts ht')
    exact ⟨hts', hkinds'.trans hkinds⟩
  case failed =>
    intro ts env front t back result t' env' hs _ _ ihRun hts
    obtain ⟨rfl, -, -⟩ := getNextTag_some hs
    obtain ⟨ht', hkinds⟩ := ihRun (noBreaks_iff.mp hts t (by simp))
    exact ⟨noBreaks_replace hts ht', hkinds⟩

/-! ### A loop of two or more iterations -/

/-- A loop that has iterations left, as it stands between two rounds. -/
structure Looping (k : ℤ) (t : Tag) : Prop where
  parsed : t.parsed = false
  noBreaks : NoBreaks t.children
  kind : ∃ iter niter, t.head.kind = .loop k false iter niter ∧ iter ≠ 0

lemma execute_looping {k : ℤ} (hk : 2 ≤ k) (ht : Looping k t)
    (he : execute lib t env = some (result, t', env')) :
    t'.again = true ∧ NoBreaks t'.children ∧ env' = env ∧
      ∃ niter, t'.head.kind = .loop k false (k - 1) niter := by
  obtain ⟨iter, niter, hkind, hiter⟩ := ht.kind
  unfold execute at he
  rw [hkind] at he
  dsimp only at he
  rw [if_pos ⟨hiter, Or.inl rfl⟩] at he
  cases he
  exact ⟨rfl, ht.noBreaks.resetAll, rfl, niter + 1, by
    simp only [Tag.head]
    rw [if_pos (by omega : (0 : ℤ) < k)]⟩

/-- Children with such a loop among them never finish: its count is as high after a round as it
was before. -/
theorem not_ok_of_looping {k : ℤ} (hk : 2 ≤ k) :
    (∀ t env result t' env', Runs (execute lib) t env (result, t', env') →
      Looping k t → result = .ok → Looping k t') ∧
    ∀ ts env result ts' env', RunsNext (execute lib) ts env (result, ts', env') →
      (∃ t ∈ ts, Looping k t) → result ≠ .ok := by
  apply runs_induction
  case parsed =>
    intro t env result ts inner hparsed _ _ ht
    rw [ht.parsed] at hparsed
    cases hparsed
  case stopped => exact fun t env result t' env' _ _ hne _ hok => absurd hok hne
  case executed =>
    intro t env t' env' result ts inner _ he hnext _ ht _
    obtain ⟨hagain, hbreaks, rfl, niter, hkind⟩ := execute_looping hk ht he
    obtain ⟨hts, hkinds⟩ := runs_noBreak.2 _ _ _ _ _ hnext hbreaks
    obtain ⟨context, parents⟩ := inner
    cases parents with
    | nil => cases hkinds
    | cons h parents =>
        simp only [kinds, Tag.inner, List.map_cons, List.cons.injEq] at hkinds
        rw [hkind] at hkinds
        have hh : h.kind = .loop k false (k - 1) niter := eq_loop_of_unevaluated hkinds.1
        rw [Tag.repeated, Tag.withChildren, Tag.again, if_pos hagain, Tag.setParsed]
        exact ⟨rfl, hts.setAllParsed, k - 1, niter, hh, by omega⟩
  case done =>
    rintro ts env hnone ⟨t, ht, hloop⟩
    have := getNextTag_eq_none_iff.mp hnone t ht
    rw [hloop.parsed] at this
    cases this
  case next =>
    rintro ts env front t back t' env' result ts' env'' hs _ ihRun ihNext ⟨u, hu, hloop⟩
    obtain ⟨rfl, -, -⟩ := getNextTag_some hs
    rcases List.mem_append.mp hu with hu | hu
    · exact ihNext ⟨u, List.mem_append_left _ hu, hloop⟩
    · rcases List.mem_cons.mp hu with rfl | hu
      · exact ihNext ⟨t', by simp, ihRun hloop rfl⟩
      · exact ihNext ⟨u, by simp [hu], hloop⟩
  case failed => exact fun _ _ _ _ _ _ _ _ _ _ hne _ _ => hne

/-! ### Rounds -/

/-- The head of a loop of `k` iterations in its round `n`. -/
def Head.inRound (h : Head) (k n : ℕ) : Head :=
  { h with kind := .loop k false ((k : ℤ) - n) n }

variable (lib) in
/-- The children of a loop have been executed a number of times, from their start each time and
to their end. -/
inductive Passes (h : Head) (k : ℕ) (ts : List Tag) (env : Env) : ℕ → List Tag → Env → Prop
  | zero : Passes h k ts env 0 ts env
  | succ {n : ℕ} {ts' ts'' : List Tag} {env' inner : Env} (hpasses : Passes h k ts env n ts' env')
      (hround : RunsNext (execute lib) (Tag.resetAll ts')
        ⟨env'.context, h.inRound k (n + 1) :: env'.parents⟩ (.ok, ts'', inner)) :
      Passes h k ts env (n + 1) ts'' inner.outer

mutual

lemma setParsed_setParsed {status status' : Bool} :
    ∀ t : Tag, (t.setParsed status').setParsed status = t.setParsed status
  | .node head _ again children => by
      rw [Tag.setParsed, Tag.setParsed, Tag.setParsed, setAllParsed_setAllParsed children]

lemma setAllParsed_setAllParsed {status status' : Bool} :
    ∀ ts : List Tag, Tag.setAllParsed status (Tag.setAllParsed status' ts) =
      Tag.setAllParsed status ts
  | [] => rfl
  | t :: ts => by
      rw [Tag.setAllParsed, Tag.setAllParsed, Tag.setAllParsed, setParsed_setParsed t,
        setAllParsed_setAllParsed ts]

end

lemma getNextTag_setAllParsed (ts : List Tag) :
    Tag.getNextTag (Tag.setAllParsed true ts) = none := by
  induction ts with
  | nil => rfl
  | cons t ts ih =>
      obtain ⟨head, parsed, again, children⟩ := t
      rw [Tag.setAllParsed, Tag.setParsed, Tag.getNextTag, Tag.parsed, if_pos rfl, ih]
      rfl

/-- A loop as it stands when it is through. -/
def Finished (k : ℕ) (ts : List Tag) (t : Tag) : Prop :=
  t.head.kind = .loop k false 0 k ∧ t.parsed = true ∧ t.children = Tag.setAllParsed true ts

variable (lib env) in
/-- A loop without iterations left lets its children be, and is through. -/
lemma runs_of_iter_eq_zero {k : ℕ} (hparsed : t.parsed = false)
    (hkind : t.head.kind = .loop k false 0 k) :
    ∃ t', Finished k t.children t' ∧ Runs (execute lib) t env (.ok, t', env) := by
  have hexec : execute lib t env = some (.ok, .node { t.head with kind := .loop k false 0 k } true
      false (Tag.setAllParsed true t.children), env) := by
    unfold execute
    rw [hkind]
    rfl
  have hnext : RunsNext (execute lib) (Tag.setAllParsed true t.children)
      ⟨env.context, { t.head with kind := .loop k false 0 k } :: env.parents⟩ (.ok, _, _) :=
    runsNext_of_parsed (getNextTag_setAllParsed t.children)
  exact ⟨_, ⟨rfl, rfl, rfl⟩, runs_of_execute hparsed hexec hnext⟩

/-- A loop of one iteration executes its children once. -/
lemma runs_of_iter_eq_one (hparsed : t.parsed = false) (hbreaks : NoBreaks t.children)
    (hkind : t.head.kind = .loop 1 false 1 0) {inner : Env}
    (hround : RunsNext (execute lib) (Tag.resetAll t.children)
      ⟨env.context, t.head.inRound 1 1 :: env.parents⟩ (.ok, ts, inner)) :
    ∃ t', t'.parsed = false ∧ t'.head.kind = .loop 1 false 0 1 ∧
      t'.children = Tag.setAllParsed false ts ∧
      Runs (execute lib) t env (.ok, t', inner.outer) := by
  have hexec : execute lib t env = some (.ok, .node (t.head.inRound 1 1) false true
      (Tag.resetAll t.children), env) := by
    unfold execute
    rw [hkind]
    rfl
  have hrun := runs_of_execute hparsed hexec hround
  obtain ⟨-, hkinds⟩ := runs_noBreak.2 _ _ _ _ _ hround hbreaks.resetAll
  obtain ⟨context, parents⟩ := inner
  cases parents with
  | nil => cases hkinds
  | cons h parents =>
      simp only [kinds, List.map_cons, List.cons.injEq] at hkinds
      refine ⟨_, ?_, ?_, ?_, hrun⟩
      · rfl
      · exact eq_loop_of_unevaluated hkinds.1
      · rfl

/-- **The loops that run their count**: a loop of `k` iterations, among children that succeed and
whose own children succeed `k` times, is executed `k` times by its parent, which then returns,
exactly when `k` is at most one. -/
theorem runs_count_iff {p p' l : Tag} {front' back' : List Tag} {env₀ env₁ env₂ env₃ : Env} {k : ℕ}
    (hp : p.parsed = false) (hexec : execute lib p env = some (.ok, p', env₀))
    (hagain : p'.again = false) (hchildren : p'.children = front ++ l :: back)
    (hl : l.parsed = false) (hkind : l.head.kind = .loop k false k 0)
    (hbreaks : NoBreaks l.children)
    (hfront : RunsNext (execute lib) front (p'.inner env₀) (.ok, front', env₁))
    (hpasses : Passes lib l.head k l.children env₁ k ts env₂)
    (hback : RunsNext (execute lib) back env₂ (.ok, back', env₃)) :
    (∃ l', Finished k ts l' ∧ Runs (execute lib) p env
      (.ok, p'.withChildren (front' ++ l' :: back') env₃, env₃.outer)) ↔ k ≤ 1 := by
  constructor
  · rintro ⟨l', -, hrun⟩
    by_contra hk
    obtain ⟨ts', inner, hnext⟩ := hrun.exists_runsNext hp hexec
    refine (not_ok_of_looping (k := k) (by omega)).2 _ _ _ _ _ hnext ?_ rfl
    exact ⟨l, by rw [hchildren]; simp, hl, hbreaks, k, 0, hkind, by omega⟩
  · intro hk
    have hparsed := getNextTag_eq_none_iff.mp hfront.getNextTag_eq_none
    have hget : ∀ t : Tag, t.parsed = false →
        Tag.getNextTag (front' ++ t :: back) = some (front', t, back) := fun t ht => by
      rw [getNextTag_append hparsed, Tag.getNextTag, if_neg (by rw [ht]; exact Bool.false_ne_true)]
      simp
    -- when the loop is through, the parent goes on with the children behind it
    have hrest : ∀ l' : Tag, l'.parsed = true →
        RunsNext (execute lib) (front' ++ l' :: back) env₂ (.ok, front' ++ l' :: back', env₃) := by
      intro l' hl'
      have hall : ∀ t ∈ front' ++ [l'], t.parsed = true := by
        intro t ht
        rcases List.mem_append.mp ht with ht | ht
        · exact hparsed t ht
        · exact List.mem_singleton.mp ht ▸ hl'
      have := runsNext_append_left hall hback
      rwa [List.append_assoc, List.append_assoc] at this
    obtain ⟨l', hfinished, hloop⟩ : ∃ l', Finished k ts l' ∧
        RunsNext (execute lib) (front' ++ l :: back) env₁ (.ok, front' ++ l' :: back', env₃) := by
      rcases Nat.le_one_iff_eq_zero_or_eq_one.mp hk with rfl | rfl
      · cases hpasses
        obtain ⟨l', hfinished, hrun⟩ := runs_of_iter_eq_zero lib env₁ hl hkind
        exact ⟨l', hfinished, runsNext_of_ok (hget l hl) hrun (hrest l' hfinished.2.1)⟩
      · cases hpasses with
        | succ hpasses hround =>
            cases hpasses
            obtain ⟨l₁, hl₁, hkind₁, hchildren₁, hrun₁⟩ :=
              runs_of_iter_eq_one hl hbreaks hkind hround
            obtain ⟨l', hfinished, hrun⟩ := runs_of_iter_eq_zero lib _ hl₁ hkind₁
            rw [hchildren₁] at hfinished
            refine ⟨l', ⟨hfinished.1, hfinished.2.1, ?_⟩, runsNext_of_ok (hget l hl) hrun₁
              (runsNext_of_ok (hget l₁ hl₁) hrun (hrest l' hfinished.2.1))⟩
            exact hfinished.2.2.trans (setAllParsed_setAllParsed ts)
    have hnext : RunsNext (execute lib) p'.children (p'.inner env₀)
        (.ok, front' ++ l' :: back', env₃) := hchildren ▸ runsNext_append hfront hloop
    have hrun := runs_of_execute hp hexec hnext
    rw [Tag.repeated, Tag.withChildren, Tag.again, hagain] at hrun
    refine ⟨l', hfinished, ?_⟩
    rw [Tag.withChildren, hagain]
    exact hrun

end Library

/-! ### A loop around one tag -/

/-- A loop around a tag that always succeeds. -/
def clearLoop (k : ℕ) : Tag :=
  .node (Head.bare (.loop k false k 0)) false false [.node (Head.bare .clear) false false []]

/-- A body with such a loop. -/
def clearLoopBody (k : ℕ) : Tag :=
  .node (Head.bare .body) false false [clearLoop k]

/-- The children of the loop after a round. -/
def clearDone : List Tag := [.node (Head.bare .clear) true false []]

/-- The environment of the children of the body. -/
def bodyEnv : Env := ⟨Context.empty, [Head.bare .body]⟩

/-- One more round of the loop. -/
lemma clearLoop_round {k n : ℕ} {ts : List Tag} (hts : Tag.resetAll ts = (clearLoop k).children)
    (h : Passes CLib.noNumbers (clearLoop k).head k (clearLoop k).children bodyEnv n ts bodyEnv) :
    Passes CLib.noNumbers (clearLoop k).head k (clearLoop k).children bodyEnv (n + 1) clearDone
      bodyEnv := by
  have hround : RunsNext (execute CLib.noNumbers) (Tag.resetAll ts)
      ⟨Context.empty, (clearLoop k).head.inRound k (n + 1) :: [Head.bare .body]⟩
      (.ok, clearDone, ⟨Context.empty, (clearLoop k).head.inRound k (n + 1) ::
        [Head.bare .body]⟩) := ⟨3, by rw [hts]; rfl⟩
  exact Passes.succ h hround

lemma clearLoopBody_execute (k : ℕ) :
    execute CLib.noNumbers (clearLoopBody k) ⟨Context.empty, []⟩ =
      some (.ok, clearLoopBody k, ⟨Context.empty, []⟩) := rfl

/-- A loop of one iteration is executed once. -/
theorem clearLoop_one : ∃ l', Finished 1 clearDone l' ∧
    Runs (execute CLib.noNumbers) (clearLoopBody 1) ⟨Context.empty, []⟩
      (.ok, .node (Head.bare .body) true false [l'], ⟨Context.empty, []⟩) :=
  (runs_count_iff (k := 1) (l := clearLoop 1) rfl (clearLoopBody_execute 1) rfl
    (List.nil_append [clearLoop 1]).symm rfl rfl ⟨⟨by decide, trivial⟩, trivial⟩
    (runsNext_of_parsed rfl) (clearLoop_round rfl Passes.zero) (runsNext_of_parsed rfl)).mpr le_rfl

/-- A loop of two iterations is not executed twice by its parent, which does not return. -/
theorem clearLoop_two : ¬ ∀ (lib : CLib) (p p' l : Tag) (front front' back back' ts : List Tag)
    (env env₀ env₁ env₂ env₃ : Env) (k : ℕ), p.parsed = false →
    execute lib p env = some (.ok, p', env₀) → p'.again = false →
    p'.children = front ++ l :: back → l.parsed = false → l.head.kind = .loop k false k 0 →
    NoBreaks l.children → RunsNext (execute lib) front (p'.inner env₀) (.ok, front', env₁) →
    Passes lib l.head k l.children env₁ k ts env₂ →
    RunsNext (execute lib) back env₂ (.ok, back', env₃) →
    ∃ l', Finished k ts l' ∧ Runs (execute lib) p env
      (.ok, p'.withChildren (front' ++ l' :: back') env₃, env₃.outer) := by
  intro h
  have hbreaks : NoBreaks (clearLoop 2).children := ⟨⟨by decide, trivial⟩, trivial⟩
  have hpasses := clearLoop_round (k := 2) rfl (clearLoop_round rfl Passes.zero)
  obtain ⟨l', -, hrun⟩ := h CLib.noNumbers (clearLoopBody 2) (clearLoopBody 2) (clearLoop 2)
    [] [] [] [] clearDone ⟨Context.empty, []⟩ ⟨Context.empty, []⟩ bodyEnv bodyEnv bodyEnv 2 rfl
    (clearLoopBody_execute 2) rfl rfl rfl rfl hbreaks (runsNext_of_parsed rfl) hpasses
    (runsNext_of_parsed rfl)
  obtain ⟨ts', inner, hnext⟩ := hrun.exists_runsNext rfl (clearLoopBody_execute 2)
  have hloop : Looping 2 (clearLoop 2) := ⟨rfl, hbreaks, 2, 0, rfl, by decide⟩
  exact (not_ok_of_looping le_rfl).2 _ _ _ _ _ hnext
    ⟨clearLoop 2, List.mem_singleton_self _, hloop⟩ rfl

end Esp

end IotAgent
