import IotAgent.Esp.Tag

/-!
Commands and how they are run over what has come in (`ESP_Command::run`).

A command runs its header, its body and its footer; a body that succeeds is a result, and a
mismatch drops one byte and starts again with the body.

* `Command`, `Command.run`: a command and its run to the next result, or until it is idle;
* `Command.drive`: the runs until it is idle;
* `Command.runs_induction`: rule induction for its runs.
-/

namespace IotAgent

namespace Esp

/-- `ESP_COMMAND_INDEX`. -/
inductive CommandIndex
  | header | body | footer | finished
  deriving DecidableEq

/-- `index++`. -/
def CommandIndex.next : CommandIndex → CommandIndex
  | .header => .body
  | .body => .footer
  | .footer | .finished => .finished

/-- `ESP_Command`. -/
structure Command where
  index : CommandIndex
  header : Tag
  body : Tag
  footer : Tag

namespace Command

/-- `reset`. -/
def reset (c : Command) : Command :=
  ⟨.header, c.header.reset, c.body.reset, c.footer.reset⟩

/-- The tag at the index of a command. -/
def root (c : Command) : Option Tag :=
  match c.index with
  | .header => some c.header
  | .body => some c.body
  | .footer => some c.footer
  | .finished => none

/-- The tag at the index is another one. -/
def setRoot (c : Command) (t : Tag) : Command :=
  match c.index with
  | .header => { c with header := t }
  | .body => { c with body := t }
  | .footer => { c with footer := t }
  | .finished => c

section Run

variable (execute : Tag → Env → Option (ExecuteResult × Tag × Env))

/-- The tag at the index of a command is run. -/
def runRoot (fuel : ℕ) (c : Command) (context : Context) :
    Option (ExecuteResult × Command × Context) :=
  match c.root with
  | some t => (Esp.run execute fuel t ⟨context, []⟩).map fun out =>
      (out.1, c.setRoot out.2.1, out.2.2.context)
  | none => some (.idle, c, context)

/-- A command after its body has succeeded: a streaming body starts again. -/
def newData (c : Command) : Command :=
  if c.body.head.loop then { c with index := .body, body := c.body.reset }
  else { c with index := c.index.next }

/-- A context after the body has succeeded. -/
def newResult (context : Context) : Context :=
  { (context.validateInputData 0).addResultData with temp := [] }

/-- A context after a mismatch. -/
def mismatch (context : Context) : Context :=
  { context.validateInputData 1 with temp := [] }

/-- `ESP_Command::run`. -/
def run : ℕ → Command → Context → Option (ExecuteResult × Command × Context)
  | 0, _, _ => none
  | fuel + 1, c, context =>
      match runRoot execute fuel c context with
      | none => none
      | some (.ok, c, context) =>
          if c.index = .body then some (.ok, c.newData, newResult context)
          else run fuel { c with index := c.index.next } context
      | some (.error, c, context) =>
          run fuel { c.reset with index := .body } (mismatch context)
      | some (.idle, c, context) => some (.idle, c, context)

/-- The runs of a command until it reports that it is idle. -/
def drive : ℕ → Command → Context → Option (Command × Context)
  | 0, _, _ => none
  | fuel + 1, c, context =>
      match run execute fuel c context with
      | none => none
      | some (.idle, c, context) => some (c, context)
      | some (_, c, context) => drive fuel c context

/-! ### Runs that return -/

/-- The run of the tag at the index returns. -/
def RunsRoot (c : Command) (context : Context) (out : ExecuteResult × Command × Context) : Prop :=
  ∃ fuel, runRoot execute fuel c context = some out

/-- A run that returns, with fuel enough. -/
def Runs (c : Command) (context : Context) (out : ExecuteResult × Command × Context) : Prop :=
  ∃ fuel, run execute fuel c context = some out

/-- Runs until the command is idle. -/
def Drives (s s' : Command × Context) : Prop :=
  ∃ fuel, drive execute fuel s.1 s.2 = some s'

variable {execute} {execute' : Tag → Env → Option (ExecuteResult × Tag × Env)}
  {fuel fuel' : ℕ} {c c' c'' : Command} {context context' context'' : Context}
  {out : ExecuteResult × Command × Context}

lemma runRoot_le (hle : ∀ t env out, execute t env = some out → execute' t env = some out)
    (hfuel : fuel ≤ fuel') (h : runRoot execute fuel c context = some out) :
    runRoot execute' fuel' c context = some out := by
  unfold runRoot at h ⊢
  split at h
  · obtain ⟨tag, hrun, rfl⟩ := Option.map_eq_some_iff.mp h
    rw [(run_le_all hle hfuel).1 _ _ _ hrun]
    rfl
  · exact h

lemma run_le (hle : ∀ t env out, execute t env = some out → execute' t env = some out)
    (hfuel : fuel ≤ fuel') (h : run execute fuel c context = some out) :
    run execute' fuel' c context = some out := by
  induction fuel generalizing fuel' c context with
  | zero => rw [run] at h; cases h
  | succ fuel ih =>
      obtain ⟨fuel', rfl⟩ : ∃ n, fuel' = n + 1 := ⟨fuel' - 1, by omega⟩
      have hfuel' := Nat.le_of_succ_le_succ hfuel
      rw [run] at h ⊢
      split at h
      · cases h
      · next hroot =>
          rw [runRoot_le hle hfuel' hroot]
          dsimp only
          split at h
          · next hbody => rw [if_pos hbody]; exact h
          · next hbody => rw [if_neg hbody]; exact ih hfuel' h
      · next hroot =>
          rw [runRoot_le hle hfuel' hroot]
          exact ih hfuel' h
      · next hroot =>
          rw [runRoot_le hle hfuel' hroot]
          exact h

lemma drive_le (hle : ∀ t env out, execute t env = some out → execute' t env = some out)
    (hfuel : fuel ≤ fuel') {s : Command × Context} (h : drive execute fuel c context = some s) :
    drive execute' fuel' c context = some s := by
  induction fuel generalizing fuel' c context with
  | zero => rw [drive] at h; cases h
  | succ fuel ih =>
      obtain ⟨fuel', rfl⟩ : ∃ n, fuel' = n + 1 := ⟨fuel' - 1, by omega⟩
      have hfuel' := Nat.le_of_succ_le_succ hfuel
      rw [drive] at h ⊢
      split at h
      · cases h
      · next hrun =>
          rw [run_le hle hfuel' hrun]
          exact h
      · next result _ _ hne hrun =>
          rw [run_le hle hfuel' hrun]
          cases result with
          | ok => exact ih hfuel' h
          | error => exact ih hfuel' h
          | idle => exact (hne rfl).elim

lemma runRoot_mono (hfuel : fuel ≤ fuel') (h : runRoot execute fuel c context = some out) :
    runRoot execute fuel' c context = some out :=
  runRoot_le (fun _ _ _ he => he) hfuel h

lemma run_mono (hfuel : fuel ≤ fuel') (h : run execute fuel c context = some out) :
    run execute fuel' c context = some out :=
  run_le (fun _ _ _ he => he) hfuel h

lemma runsRoot_iff {t : Tag} (h : c.root = some t) : RunsRoot execute c context out ↔
    ∃ result t' env', Esp.Runs execute t ⟨context, []⟩ (result, t', env') ∧
      out = (result, c.setRoot t', env'.context) := by
  constructor
  · rintro ⟨fuel, hrun⟩
    rw [runRoot, h] at hrun
    obtain ⟨⟨result, t', env'⟩, hroot, rfl⟩ := Option.map_eq_some_iff.mp hrun
    exact ⟨result, t', env', ⟨fuel, hroot⟩, rfl⟩
  · rintro ⟨result, t', env', ⟨fuel, hrun⟩, rfl⟩
    refine ⟨fuel, ?_⟩
    rw [runRoot, h]
    dsimp only
    rw [hrun]
    rfl

lemma runsRoot_iff_of_none (h : c.root = none) :
    RunsRoot execute c context out ↔ out = (.idle, c, context) := by
  constructor
  · rintro ⟨fuel, hrun⟩
    rw [runRoot, h] at hrun
    exact (Option.some_inj.mp hrun).symm
  · rintro rfl
    exact ⟨0, by rw [runRoot, h]⟩

lemma root_setRoot {t t' : Tag} (h : c.root = some t) : (c.setRoot t').root = some t' := by
  unfold root at h
  unfold root setRoot
  cases hindex : c.index <;> simp_all

lemma setRoot_setRoot {t t' : Tag} : (c.setRoot t).setRoot t' = c.setRoot t' := by
  unfold setRoot
  cases hindex : c.index <;> simp [hindex]

lemma runs_body (h : RunsRoot execute c context (.ok, c', context')) (hbody : c'.index = .body) :
    Runs execute c context (.ok, c'.newData, newResult context') := by
  obtain ⟨fuel, h⟩ := h
  refine ⟨fuel + 1, ?_⟩
  rw [run, h]
  exact if_pos hbody

lemma runs_next (h : RunsRoot execute c context (.ok, c', context')) (hbody : c'.index ≠ .body)
    (hrest : Runs execute { c' with index := c'.index.next } context' out) :
    Runs execute c context out := by
  obtain ⟨fuel, h⟩ := h
  obtain ⟨fuel', hrest⟩ := hrest
  refine ⟨max fuel fuel' + 1, ?_⟩
  rw [run, runRoot_mono (le_max_left fuel fuel') h]
  dsimp only
  rw [if_neg hbody]
  exact run_mono (le_max_right fuel fuel') hrest

lemma runs_mismatch (h : RunsRoot execute c context (.error, c', context'))
    (hrest : Runs execute { c'.reset with index := .body } (mismatch context') out) :
    Runs execute c context out := by
  obtain ⟨fuel, h⟩ := h
  obtain ⟨fuel', hrest⟩ := hrest
  refine ⟨max fuel fuel' + 1, ?_⟩
  rw [run, runRoot_mono (le_max_left fuel fuel') h]
  exact run_mono (le_max_right fuel fuel') hrest

lemma runs_idle (h : RunsRoot execute c context (.idle, c', context')) :
    Runs execute c context (.idle, c', context') := by
  obtain ⟨fuel, h⟩ := h
  exact ⟨fuel + 1, by rw [run, h]⟩

/-- **Rule induction for the runs of a command.** -/
theorem runs_induction {P : Command → Context → ExecuteResult → Command → Context → Prop}
    (body : ∀ c context c' context', RunsRoot execute c context (.ok, c', context') →
      c'.index = .body → P c context .ok c'.newData (newResult context'))
    (next : ∀ c context c' context' result c'' context'',
      RunsRoot execute c context (.ok, c', context') → c'.index ≠ .body →
      Runs execute { c' with index := c'.index.next } context' (result, c'', context'') →
      P { c' with index := c'.index.next } context' result c'' context'' →
      P c context result c'' context'')
    (mismatched : ∀ c context c' context' result c'' context'',
      RunsRoot execute c context (.error, c', context') →
      Runs execute { c'.reset with index := .body } (mismatch context') (result, c'', context'') →
      P { c'.reset with index := .body } (mismatch context') result c'' context'' →
      P c context result c'' context'')
    (idle : ∀ c context c' context', RunsRoot execute c context (.idle, c', context') →
      P c context .idle c' context')
    {result : ExecuteResult} (h : Runs execute c context (result, c', context')) :
    P c context result c' context' := by
  obtain ⟨fuel, h⟩ := h
  induction fuel generalizing c context with
  | zero => rw [run] at h; cases h
  | succ fuel ih =>
      rw [run] at h
      split at h
      · cases h
      · next hroot =>
          split at h
          · next hbody =>
              cases h
              exact body _ _ _ _ ⟨_, hroot⟩ hbody
          · next hbody => exact next _ _ _ _ _ _ _ ⟨_, hroot⟩ hbody ⟨_, h⟩ (ih h)
      · next hroot => exact mismatched _ _ _ _ _ _ _ ⟨_, hroot⟩ ⟨_, h⟩ (ih h)
      · next hroot =>
          cases h
          exact idle _ _ _ _ ⟨_, hroot⟩

/-- A run depends on how the tag at the index runs. -/
lemma Runs.of_runsRoot (hroot : ∀ s, RunsRoot execute c context s → RunsRoot execute c' context' s)
    (h : Runs execute c context out) : Runs execute c' context' out := by
  obtain ⟨result, d, dcontext⟩ := out
  revert hroot
  refine runs_induction (P := fun c context result d dcontext =>
    (∀ s, RunsRoot execute c context s → RunsRoot execute c' context' s) →
      Runs execute c' context' (result, d, dcontext)) ?_ ?_ ?_ ?_ h
  · exact fun _ _ _ _ h hbody hroot => runs_body (hroot _ h) hbody
  · exact fun _ _ _ _ _ _ _ h hbody hrest _ hroot => runs_next (hroot _ h) hbody hrest
  · exact fun _ _ _ _ _ _ _ h hrest _ hroot => runs_mismatch (hroot _ h) hrest
  · exact fun _ _ _ _ h hroot => runs_idle (hroot _ h)

/-! ### Runs until the command is idle -/

lemma drives_of_idle (h : Runs execute c context (.idle, c', context')) :
    Drives execute (c, context) (c', context') := by
  obtain ⟨fuel, h⟩ := h
  exact ⟨fuel + 1, by rw [drive, h]⟩

lemma drives_of_ne {result : ExecuteResult} {s : Command × Context}
    (h : Runs execute c context (result, c', context')) (hne : result ≠ .idle)
    (hrest : Drives execute (c', context') s) : Drives execute (c, context) s := by
  obtain ⟨fuel, h⟩ := h
  obtain ⟨fuel', hrest⟩ := hrest
  refine ⟨max fuel fuel' + 1, ?_⟩
  have hdrive := drive_le (fun _ _ _ he => he) (le_max_right fuel fuel') hrest
  rw [drive, run_mono (le_max_left fuel fuel') h]
  cases result with
  | ok => exact hdrive
  | error => exact hdrive
  | idle => exact absurd rfl hne

lemma Drives.unique {s s' s'' : Command × Context} (h : Drives execute s s')
    (h' : Drives execute s s'') : s' = s'' := by
  obtain ⟨fuel, h⟩ := h
  obtain ⟨fuel', h'⟩ := h'
  have hle := fun t env out (he : execute t env = some out) => he
  have := (drive_le hle (le_max_left fuel fuel') h).symm.trans
    (drive_le hle (le_max_right fuel fuel') h')
  exact Option.some_inj.mp this

lemma Drives.mono (hle : ∀ t env out, execute t env = some out → execute' t env = some out)
    {s s' : Command × Context} (h : Drives execute s s') : Drives execute' s s' := by
  obtain ⟨fuel, h⟩ := h
  exact ⟨fuel, drive_le hle le_rfl h⟩

/-- **Rule induction for the runs until a command is idle.** -/
theorem drives_induction {P : Command → Context → Command → Context → Prop}
    (idle : ∀ c context c' context', Runs execute c context (.idle, c', context') →
      P c context c' context')
    (next : ∀ c context result c' context' c'' context'',
      Runs execute c context (result, c', context') → result ≠ .idle →
      P c' context' c'' context'' → P c context c'' context'')
    (h : Drives execute (c, context) (c', context')) : P c context c' context' := by
  obtain ⟨fuel, h⟩ := h
  induction fuel generalizing c context with
  | zero => rw [drive] at h; cases h
  | succ fuel ih =>
      rw [drive] at h
      split at h
      · cases h
      · next hrun =>
          cases h
          exact idle _ _ _ _ ⟨_, hrun⟩
      · next hne hrun => exact next _ _ _ _ _ _ _ ⟨_, hrun⟩ (fun he => hne he) (ih h)

/-- A command that is idle at once, or after runs that do not depend on how it started. -/
lemma Drives.of_runs {s : Command × Context}
    (hruns : ∀ out, Runs execute c context out → Runs execute c' context' out)
    (h : Drives execute (c, context) s) : Drives execute (c', context') s := by
  obtain ⟨fuel, h⟩ := h
  cases fuel with
  | zero => rw [drive] at h; cases h
  | succ fuel =>
      rw [drive] at h
      split at h
      · cases h
      · next hrun =>
          cases h
          exact drives_of_idle (hruns _ ⟨_, hrun⟩)
      · next hne hrun => exact drives_of_ne (hruns _ ⟨_, hrun⟩) (fun he => hne he) ⟨_, h⟩

end Run

end Command

end Esp

end IotAgent
