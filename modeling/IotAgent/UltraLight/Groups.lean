import IotAgent.Lib.Attempts
import IotAgent.UltraLight.ULInsertObservation

/-!
The groups of the tokens of a measure.

Behind the fixed tokens the loop reads groups of a name and a value; an empty token in front
of a group is left out. Only the position of the group is compared with the number of the
tokens, so the loop reads behind the last token when that one stands alone.

* `groups`: the groups of a list of tokens, and how they end;
* `plan`: the groups of a payload up to the first stop;
* `translate_eq`: a translation builds the elements of its plan one after the other;
* `buildsOrThrows_iff`: it gives elements or an exception exactly when its plan does not end
  within a group and no element of the plan fails in any other way.
-/

namespace IotAgent

/-- How the groups of a measure end. -/
inductive GroupsEnd where
  | complete
  | emptyValue
  | cut
  deriving DecidableEq

/-- The stop at the end of the groups, if there is one. -/
def GroupsEnd.stop : GroupsEnd → Option Stop
  | .complete => none
  | .emptyValue => some (protocolError "Protocol error, Empty values is not allowed ")
  | .cut => some .outOfBounds

/-- The groups of a name and a value, and how they end. -/
def groups : List String → List (String × String) × GroupsEnd
  | [] => ([], .complete)
  | [_] => ([], .cut)
  | token :: second :: tokens =>
      if token = "" then
        match tokens with
        | [] => ([], .cut)
        | third :: tokens =>
            if third = "" then ([], .emptyValue)
            else ((second, third) :: (groups tokens).1, (groups tokens).2)
      else if second = "" then ([], .emptyValue)
      else ((token, second) :: (groups tokens).1, (groups tokens).2)

section Groups

variable {token second third : String} {tokens : List String}

lemma groups_skip_empty : groups ("" :: second :: "" :: tokens) = ([], .emptyValue) := rfl

lemma groups_skip (hthird : third ≠ "") : groups ("" :: second :: third :: tokens)
    = ((second, third) :: (groups tokens).1, (groups tokens).2) := by
  rw [groups, if_pos rfl]
  exact if_neg hthird

lemma groups_empty (htoken : token ≠ "") : groups (token :: "" :: tokens) = ([], .emptyValue) := by
  cases tokens <;> simp [groups, htoken]

lemma groups_cons (htoken : token ≠ "") (hsecond : second ≠ "") :
    groups (token :: second :: tokens)
      = ((token, second) :: (groups tokens).1, (groups tokens).2) := by
  cases tokens <;> simp [groups, htoken, hsecond]

/-- Nothing but groups. -/
inductive Complete : List String → Prop
  | nil : Complete []
  | skip {name value : String} {tokens : List String} : value ≠ "" → Complete tokens →
      Complete ("" :: name :: value :: tokens)
  | cons {name value : String} {tokens : List String} : name ≠ "" → value ≠ "" →
      Complete tokens → Complete (name :: value :: tokens)

/-- A group that is not complete: a token alone, or behind an empty one. -/
def Partial (tokens : List String) : Prop :=
  (∃ token, tokens = [token]) ∨ ∃ second, tokens = ["", second]

lemma groups_of_partial (hpart : Partial tokens) : groups tokens = ([], .cut) := by
  rcases hpart with ⟨token, rfl⟩ | ⟨second, rfl⟩ <;> rfl

/-- The groups are cut when an incomplete one stands behind complete ones. -/
theorem groups_eq_cut_iff : (groups tokens).2 = .cut ↔
    ∃ front back, tokens = front ++ back ∧ Complete front ∧ Partial back := by
  constructor
  · intro hcut
    induction tokens using groups.induct with
    | case1 => cases hcut
    | case2 token => exact ⟨[], [token], rfl, .nil, Or.inl ⟨token, rfl⟩⟩
    | case3 second => exact ⟨[], ["", second], rfl, .nil, Or.inr ⟨second, rfl⟩⟩
    | case4 second tokens =>
        rw [groups_skip_empty] at hcut
        cases hcut
    | case5 second third tokens hthird ih =>
        rw [groups_skip hthird] at hcut
        obtain ⟨front, back, rfl, hfront, hback⟩ := ih hcut
        exact ⟨"" :: second :: third :: front, back, rfl, .skip hthird hfront, hback⟩
    | case6 token tokens htoken =>
        rw [groups_empty htoken] at hcut
        cases hcut
    | case7 token second tokens htoken hsecond ih =>
        rw [groups_cons htoken hsecond] at hcut
        obtain ⟨front, back, rfl, hfront, hback⟩ := ih hcut
        exact ⟨token :: second :: front, back, rfl, .cons htoken hsecond hfront, hback⟩
  · rintro ⟨front, back, rfl, hfront, hback⟩
    induction hfront with
    | nil => rw [List.nil_append, groups_of_partial hback]
    | skip hvalue _ ih =>
        rw [List.cons_append, List.cons_append, List.cons_append, groups_skip hvalue]
        exact ih
    | cons hname hvalue _ ih =>
        rw [List.cons_append, List.cons_append, groups_cons hname hvalue]
        exact ih

end Groups

/-- A group of a payload, with the date of its measure. -/
structure Group where
  date : String
  name : String
  value : String
  deriving DecidableEq

namespace Translation

variable (t : Translation)

/-- The element of the `k`-th group of a measure. -/
def buildPair (date : String) (g : (String × String) × ℕ) : Except Stop EnvElement :=
  t.buildElement g.2 date g.1.1 g.1.2

/-- The element of the `k`-th group of a payload. -/
def buildGroup (g : Group × ℕ) : Except Stop EnvElement :=
  (t.buildElement g.2 g.1.date g.1.name g.1.value).mapError Stop.handled

/-- The groups of the `i`-th measure, and the stop at their end. -/
def planMeasure (protocol i : ℕ) (measure : String) : List Group × Option Stop :=
  match t.checkMeasure (t.tokensOf protocol measure) with
  | .error stop => ([], some stop)
  | .ok tokens =>
      match t.dateOf i (tokens.getD 2 "") with
      | .error stop => ([], some stop.handled)
      | .ok date =>
          let gs := groups (tokens.drop numElementsUlProtocol)
          (gs.1.map fun g => ⟨date, g.1, g.2⟩, gs.2.stop)

/-- The groups of the measures up to the first stop. -/
def plan (protocol : ℕ) : ℕ → List String → List Group × Option Stop
  | _, [] => ([], none)
  | i, measure :: measures =>
      match t.planMeasure protocol i measure with
      | (gs, some stop) => (gs, some stop)
      | (gs, none) =>
          let rest := plan protocol (i + 1) measures
          (gs ++ rest.1, rest.2)

end Translation

/-! ### Tokens by their index -/

lemma readToken_of_drop {tokens rest : List String} {j : ℕ} (hdrop : tokens.drop j = rest)
    (k : ℕ) : readToken tokens (j + k) = readToken rest k := by
  rw [readToken, readToken, ← hdrop, List.getElem?_drop]

lemma readToken_of_lt {tokens : List String} {i : ℕ} (hi : i < tokens.length) :
    readToken tokens i = .ok tokens[i] := by
  rw [readToken, List.getElem?_eq_getElem hi]

/-- The tokens behind some of those that are left. -/
lemma drop_add_of_drop {tokens rest : List String} {j : ℕ} (hdrop : tokens.drop j = rest)
    (k : ℕ) : tokens.drop (j + k) = rest.drop k := by
  rw [← hdrop, List.drop_drop]

lemma lt_length_of_drop {tokens rest : List String} {token : String} {j : ℕ}
    (hdrop : tokens.drop j = token :: rest) : j < tokens.length := by
  by_contra hle
  rw [List.drop_eq_nil_of_le (Nat.le_of_not_lt hle)] at hdrop
  cases hdrop

namespace Translation

variable {t : Translation} {date : String} {tokens : List String} {elements : List EnvElement}
  {j : ℕ}

/-! ### The loop over the tokens -/

lemma measureLoop_nil (hdrop : tokens.drop j = []) :
    t.measureLoop date tokens j elements = .ok elements := by
  rw [measureLoop, if_neg]
  rw [List.drop_eq_nil_iff] at hdrop
  omega

/-- Behind a token alone, or an empty token and another one, the value is read outside. -/
lemma readToken_cut {rest : List String} (hdrop : tokens.drop j = rest) (hcut : Partial rest) :
    ∃ token, j < tokens.length ∧ readToken tokens j = .ok token ∧
      readToken tokens ((if token = "" then j + 1 else j) + 1) = .error .outOfBounds := by
  rcases hcut with ⟨token, rfl⟩ | ⟨second, rfl⟩
  · refine ⟨token, lt_length_of_drop hdrop, readToken_of_drop hdrop 0, ?_⟩
    split
    · exact readToken_of_drop hdrop 2
    · exact readToken_of_drop hdrop 1
  · exact ⟨"", lt_length_of_drop hdrop, readToken_of_drop hdrop 0, readToken_of_drop hdrop 2⟩

lemma measureLoop_cut {rest : List String} (hdrop : tokens.drop j = rest)
    (hcut : Partial rest) :
    t.measureLoop date tokens j elements = .error .outOfBounds := by
  obtain ⟨token, hlt, htoken, hread⟩ := readToken_cut hdrop hcut
  rw [measureLoop, if_pos hlt, htoken]
  show (readToken tokens ((if token = "" then j + 1 else j) + 1)).bind _ = _
  rw [hread]
  rfl

/-- A group of a name and a value; in front of it may stand an empty token. -/
lemma measureLoop_group {k : ℕ} {token name value : String} (hlt : j < tokens.length)
    (htoken : readToken tokens j = .ok token) (hk : k = if token = "" then j + 1 else j)
    (hname : readToken tokens k = .ok name) (hvalue : readToken tokens (k + 1) = .ok value) :
    t.measureLoop date tokens j elements =
      if value = "" then .error (protocolError "Protocol error, Empty values is not allowed ")
      else (t.buildElement elements.length date name value).bind fun elto =>
        t.measureLoop date tokens (k + 2) (elements ++ [elto]) := by
  subst hk
  rw [measureLoop, if_pos hlt, htoken]
  show (readToken tokens ((if token = "" then j + 1 else j) + 1)).bind _ = _
  rw [hvalue]
  show (readToken tokens (if token = "" then j + 1 else j)).bind _ = _
  rw [hname]
  rfl

/-- The elements, unless there is a stop. -/
def finish (stop : Option Stop) (elements : List EnvElement) : Except Stop (List EnvElement) :=
  match stop with
  | some stop => .error stop
  | none => .ok elements

/-- The step of a group in the loop and in the list of the groups. -/
lemma bind_build_eq {α : Type} {f : α → Except Stop EnvElement} {a : α} {l : List α}
    {stop : Option Stop} {run : EnvElement → Except Stop (List EnvElement)}
    (hrun : ∀ elto, run elto = (l.mapM f).bind fun es =>
      finish stop ((elements ++ [elto]) ++ es)) :
    (f a).bind run = ((a :: l).mapM f).bind fun es => finish stop (elements ++ es) := by
  cases ha : f a with
  | error e =>
      rw [Attempts.mapM_cons_error ha]
      rfl
  | ok elto =>
      rw [Attempts.mapM_cons_ok ha]
      show run elto = _
      rw [hrun]
      cases l.mapM f with
      | error e => rfl
      | ok es =>
          show finish stop ((elements ++ [elto]) ++ es) = finish stop (elements ++ (elto :: es))
          rw [List.append_assoc, List.singleton_append]

/-- The loop builds the elements of the groups one after the other. -/
theorem measureLoop_eq (t : Translation) (date : String) (tokens : List String) (j : ℕ)
    (elements : List EnvElement) :
    t.measureLoop date tokens j elements =
      (((groups (tokens.drop j)).1.zipIdx elements.length).mapM (t.buildPair date)).bind fun es =>
        finish (groups (tokens.drop j)).2.stop (elements ++ es) := by
  generalize hrest : tokens.drop j = rest
  induction rest using groups.induct generalizing j elements with
  | case1 =>
      rw [measureLoop_nil hrest, groups]
      show _ = Except.ok (elements ++ [])
      rw [List.append_nil]
  | case2 token => rw [measureLoop_cut hrest (Or.inl ⟨token, rfl⟩), groups]; rfl
  | case3 second => rw [measureLoop_cut hrest (Or.inr ⟨second, rfl⟩)]; rfl
  | case4 second tokens' =>
      have htoken : readToken tokens j = .ok "" := readToken_of_drop hrest 0
      have hname : readToken tokens (j + 1) = .ok second := readToken_of_drop hrest 1
      have hvalue : readToken tokens (j + 1 + 1) = .ok "" := readToken_of_drop hrest 2
      rw [measureLoop_group (lt_length_of_drop hrest) htoken (if_pos rfl).symm hname hvalue,
        if_pos rfl, groups_skip_empty]
      rfl
  | case5 second third tokens' hthird ih =>
      have htoken : readToken tokens j = .ok "" := readToken_of_drop hrest 0
      have hname : readToken tokens (j + 1) = .ok second := readToken_of_drop hrest 1
      have hvalue : readToken tokens (j + 1 + 1) = .ok third := readToken_of_drop hrest 2
      rw [measureLoop_group (lt_length_of_drop hrest) htoken (if_pos rfl).symm hname hvalue,
        if_neg hthird, groups_skip hthird, List.zipIdx_cons]
      show (t.buildPair date ((second, third), elements.length)).bind _ = _
      refine bind_build_eq fun elto => ?_
      rw [ih (j + 1 + 2) (elements ++ [elto]) (drop_add_of_drop hrest 3), List.length_append]
      rfl
  | case6 token tokens' htoken =>
      have hread : readToken tokens j = .ok token := readToken_of_drop hrest 0
      have hvalue : readToken tokens (j + 1) = .ok "" := readToken_of_drop hrest 1
      rw [measureLoop_group (lt_length_of_drop hrest) hread (if_neg htoken).symm hread hvalue,
        if_pos rfl, groups_empty htoken]
      rfl
  | case7 token second tokens' htoken hsecond ih =>
      have hread : readToken tokens j = .ok token := readToken_of_drop hrest 0
      have hvalue : readToken tokens (j + 1) = .ok second := readToken_of_drop hrest 1
      rw [measureLoop_group (lt_length_of_drop hrest) hread (if_neg htoken).symm hread hvalue,
        if_neg hsecond, groups_cons htoken hsecond, List.zipIdx_cons]
      show (t.buildPair date ((token, second), elements.length)).bind _ = _
      refine bind_build_eq fun elto => ?_
      rw [ih (j + 2) (elements ++ [elto]) (drop_add_of_drop hrest 2), List.length_append]
      rfl

/-! ### The fixed tokens -/

/-- A text that is not empty has a first part. -/
lemma assignedSensorId_isOk {id : String} (hid : id ≠ "") :
    ∃ system, assignedSensorId id = .ok system := by
  rw [assignedSensorId]
  split
  · exact ⟨id, rfl⟩
  · have hpos : 0 < (Text.riotTokenizer id '.').length := by
      rw [Text.riotTokenizer, if_neg hid, List.length_map, List.length_pos_iff]
      exact List.splitOnP_ne_nil _ _
    exact ⟨_, readToken_of_lt hpos⟩

lemma checkMeasure_of_length_lt (hlen : tokens.length < 4) : t.checkMeasure tokens =
    .error (protocolError "Protocol error, a measure is not complete ") := by
  rw [checkMeasure]
  exact if_pos hlen

/-- Four tokens or more are read, whatever they are. -/
lemma checkMeasure_cons (a b c d : String) (rest : List String) :
    t.checkMeasure (a :: b :: c :: d :: rest) =
      if t.idResource b = "" ∨ d = "" then
        .error (protocolError "Protocol error, measurement has not got property or idResource ")
      else
        .ok ((if a = "" then t.queryValue "UC" else a) :: t.idResource b :: c :: d :: rest) := by
  have hlen : ¬ (a :: b :: c :: d :: rest).length < numElementsUlProtocol := by
    simp [numElementsUlProtocol]
  have hsystem : ∀ tokens : List String,
      (if t.idResource b = "" ∨ d = "" then
        Except.error (protocolError
          "Protocol error, measurement has not got property or idResource ")
      else (assignedSensorId (t.idResource b)).bind fun _ => pure tokens) =
      if t.idResource b = "" ∨ d = "" then
        .error (protocolError "Protocol error, measurement has not got property or idResource ")
      else .ok tokens := by
    intro tokens
    split
    · rfl
    · next hid =>
        obtain ⟨system, hsystem⟩ := assignedSensorId_isOk (not_or.mp hid).1
        rw [hsystem]
        rfl
  have hset : (if a = "" then (a :: b :: c :: d :: rest).set 0 (t.queryValue "UC")
      else a :: b :: c :: d :: rest) =
      (if a = "" then t.queryValue "UC" else a) :: b :: c :: d :: rest := by
    split <;> rfl
  rw [checkMeasure, if_neg hlen]
  show (readToken (if a = "" then (a :: b :: c :: d :: rest).set 0 (t.queryValue "UC")
    else a :: b :: c :: d :: rest) 1).bind _ = _
  rw [hset]
  exact hsystem _

/-- What the check does with the tokens: it throws, or keeps those behind the first two. -/
lemma checkMeasure_cases (t : Translation) (tokens : List String) :
    (∃ what, t.checkMeasure tokens = .error (protocolError what)) ∨
    ∃ a b c d rest, tokens = a :: b :: c :: d :: rest ∧ d ≠ "" ∧ ∃ a' b',
      t.checkMeasure tokens = .ok (a' :: b' :: c :: d :: rest) := by
  match tokens with
  | [] | [_] | [_, _] | [_, _, _] =>
      exact Or.inl ⟨_, checkMeasure_of_length_lt (by simp)⟩
  | a :: b :: c :: d :: rest =>
      rw [checkMeasure_cons]
      by_cases hid : t.idResource b = "" ∨ d = ""
      · exact Or.inl ⟨_, if_pos hid⟩
      · exact Or.inr ⟨a, b, c, d, rest, rfl, (not_or.mp hid).2, _, _, if_neg hid⟩

/-- The tokens of a date are there. -/
lemma dateOf_error {i : ℕ} {samplingTime : String} {stop : Stop}
    (hdate : t.dateOf i samplingTime = .error stop) : stop.IsException := by
  rw [dateOf] at hdate
  cases hs : Text.riotTokenizer samplingTime ' ' with
  | nil =>
      rw [hs] at hdate
      cases hdate
  | cons start rest =>
      rw [hs] at hdate
      cases rest with
      | nil =>
          cases hiso : t.clock.iso start <;>
            simp [readToken, hiso, Bind.bind, Except.bind] at hdate
          subst hdate
          trivial
      | cons duration rest =>
          cases hp : t.clock.period start duration with
          | none => simp [readToken, hp, Bind.bind, Except.bind] at hdate
          | some result =>
              cases result <;> simp [readToken, hp, Bind.bind, Except.bind] at hdate <;>
                subst hdate <;> trivial

/-! ### A translation by its plan -/

lemma finish_handled (g : GroupsEnd) :
    (finish g.stop elements).mapError Stop.handled = finish g.stop elements := by
  cases g <;> rfl

/-- A measure adds the elements of its groups. -/
lemma translateMeasure_eq (t : Translation) (protocol i : ℕ) (elements : List EnvElement)
    (measure : String) : t.translateMeasure protocol i elements measure =
      (((t.planMeasure protocol i measure).1.zipIdx elements.length).mapM t.buildGroup).bind
        fun es => finish (t.planMeasure protocol i measure).2 (elements ++ es) := by
  rw [translateMeasure, planMeasure]
  rcases checkMeasure_cases t (t.tokensOf protocol measure) with
    ⟨what, hcheck⟩ | ⟨a, b, c, d, rest, -, -, a', b', hcheck⟩
  · rw [hcheck]
    rfl
  · rw [hcheck]
    show ((readToken (a' :: b' :: c :: d :: rest) 2).bind fun time =>
      (t.dateOf i time).bind fun date => t.measureLoop date (a' :: b' :: c :: d :: rest)
        numElementsUlProtocol elements).mapError Stop.handled = _
    have hread : readToken (a' :: b' :: c :: d :: rest) 2 = .ok c := rfl
    rw [hread]
    show ((t.dateOf i c).bind fun date => t.measureLoop date (a' :: b' :: c :: d :: rest)
        numElementsUlProtocol elements).mapError Stop.handled = _
    have hget : (a' :: b' :: c :: d :: rest).getD 2 "" = c := rfl
    dsimp only
    rw [hget]
    cases hdate : t.dateOf i c with
    | error stop => rfl
    | ok date =>
        show (t.measureLoop date (a' :: b' :: c :: d :: rest) numElementsUlProtocol
          elements).mapError Stop.handled = _
        rw [measureLoop_eq, Attempts.mapError_bind, Attempts.mapM_mapError, List.zipIdx_map,
          List.mapM_map]
        simp only [finish_handled]
        rfl

/-- The measures add the elements of their plan. -/
lemma translateMeasures_eq (t : Translation) (protocol i : ℕ) (measures : List String)
    (elements : List EnvElement) : t.translateMeasures protocol i measures elements =
      (((t.plan protocol i measures).1.zipIdx elements.length).mapM t.buildGroup).bind
        fun es => finish (t.plan protocol i measures).2 (elements ++ es) := by
  induction measures generalizing i elements with
  | nil =>
      show Except.ok elements = Except.ok (elements ++ [])
      rw [List.append_nil]
  | cons measure measures ih =>
      show (t.translateMeasure protocol i elements measure).bind
        (t.translateMeasures protocol (i + 1) measures) = _
      rw [translateMeasure_eq, plan]
      match hplan : t.planMeasure protocol i measure with
      | (gs, some stop) =>
          cases (gs.zipIdx elements.length).mapM t.buildGroup <;> rfl
      | (gs, none) =>
          dsimp only
          rw [List.zipIdx_append, List.mapM_append]
          cases hgs : (gs.zipIdx elements.length).mapM t.buildGroup with
          | error stop => rfl
          | ok es =>
              have hlen : es.length = gs.length := by
                rw [← (Attempts.mapM_eq_ok_iff.mp hgs).length_eq, List.length_zipIdx]
              show t.translateMeasures protocol (i + 1) measures (elements ++ es) = _
              rw [ih, List.length_append, hlen]
              cases ((t.plan protocol (i + 1) measures).1.zipIdx
                (elements.length + gs.length)).mapM t.buildGroup with
              | error stop => rfl
              | ok es' =>
                  show finish _ ((elements ++ es) ++ es') = finish _ (elements ++ (es ++ es'))
                  rw [List.append_assoc]

/-- The groups of a payload with their numbers. -/
def groupsOf (t : Translation) (protocol : ℕ) (strIo : String) : List (Group × ℕ) :=
  (t.plan protocol 0 (measuresOf strIo)).1.zipIdx

/-- The stop at their end. -/
def stopOf (t : Translation) (protocol : ℕ) (strIo : String) : Option Stop :=
  (t.plan protocol 0 (measuresOf strIo)).2

/-- The last test of a translation. -/
def counted (strIo : String) (elements : List EnvElement) : Except Stop (List EnvElement) :=
  if (measuresOf strIo).length ≠ elements.length then .error (protocolError "Protocol error, ")
  else .ok elements

/-- A translation builds the elements of its plan, if there is a measure. -/
theorem translate_eq (t : Translation) (protocol : ℕ) {strIo : String}
    (hms : measuresOf strIo ≠ []) : t.translate protocol strIo =
      ((t.groupsOf protocol strIo).mapM t.buildGroup).bind fun es =>
        (finish (t.stopOf protocol strIo) es).bind (counted strIo) := by
  rw [translate, if_neg hms]
  show (t.translateMeasures protocol 0 (measuresOf strIo) []).bind (counted strIo) = _
  rw [translateMeasures_eq]
  show (((t.groupsOf protocol strIo).mapM t.buildGroup).bind fun es =>
    finish (t.stopOf protocol strIo) ([] ++ es)).bind (counted strIo) = _
  simp only [Attempts.bind_bind, List.nil_append]

/-! ### Reading within the tokens -/

/-- A translation gives elements, or it throws. -/
def BuildsOrThrows (t : Translation) (protocol : ℕ) (strIo : String) : Prop :=
  (∃ elements, t.translate protocol strIo = .ok elements) ∨
  ∃ stop, t.translate protocol strIo = .error stop ∧ stop.IsException

/-- The tokens of a measure that passes the checks end within a group. -/
def MeasureCut (t : Translation) (protocol i : ℕ) (measure : String) : Prop :=
  ∃ tokens date, t.checkMeasure (t.tokensOf protocol measure) = .ok tokens ∧
    t.dateOf i (tokens.getD 2 "") = .ok date ∧
    (groups (tokens.drop numElementsUlProtocol)).2 = .cut

/-- The first measure that does not end with its groups is cut, and every group as far as
there gives its element. -/
def CutShort (t : Translation) (protocol : ℕ) (strIo : String) : Prop :=
  (∃ before measure after, measuresOf strIo = before ++ measure :: after ∧
    (∀ i m, before[i]? = some m → (t.planMeasure protocol i m).2 = none) ∧
    t.MeasureCut protocol before.length measure) ∧
  ∀ g ∈ t.groupsOf protocol strIo, Attempts.Succeeds t.buildGroup g

/-- The first group that does not give its element neither gives an exception. -/
def Stuck (t : Translation) (protocol : ℕ) (strIo : String) : Prop :=
  ∃ before g after stop, t.groupsOf protocol strIo = before ++ g :: after ∧
    (∀ x ∈ before, Attempts.Succeeds t.buildGroup x) ∧ t.buildGroup g = .error stop ∧
    ¬ stop.IsException

lemma Stop.handled_isException {stop : Stop} (hstop : stop.IsException) :
    stop.handled.IsException := by
  cases stop <;> trivial

/-- How the groups of a measure end. -/
lemma planMeasure_stop {protocol i : ℕ} {measure : String} {stop : Stop}
    (hplan : (t.planMeasure protocol i measure).2 = some stop) :
    stop.IsException ∨ (stop = .outOfBounds ∧ t.MeasureCut protocol i measure) := by
  rw [planMeasure] at hplan
  rcases checkMeasure_cases t (t.tokensOf protocol measure) with
    ⟨what, hcheck⟩ | ⟨a, b, c, d, rest, -, -, a', b', hcheck⟩
  · rw [hcheck] at hplan
    cases hplan
    exact Or.inl trivial
  · rw [hcheck] at hplan
    dsimp only at hplan
    cases hdate : t.dateOf i ((a' :: b' :: c :: d :: rest).getD 2 "") with
    | error e =>
        rw [hdate] at hplan
        cases hplan
        exact Or.inl (Stop.handled_isException (dateOf_error hdate))
    | ok date =>
        rw [hdate] at hplan
        dsimp only at hplan
        cases hend : (groups ((a' :: b' :: c :: d :: rest).drop numElementsUlProtocol)).2 with
        | complete =>
            rw [hend] at hplan
            cases hplan
        | emptyValue =>
            rw [hend] at hplan
            cases hplan
            exact Or.inl trivial
        | cut =>
            rw [hend] at hplan
            cases hplan
            exact Or.inr ⟨rfl, _, date, hcheck, hdate, hend⟩

lemma planMeasure_of_cut {protocol i : ℕ} {measure : String}
    (hcut : t.MeasureCut protocol i measure) :
    (t.planMeasure protocol i measure).2 = some .outOfBounds := by
  obtain ⟨tokens, date, hcheck, hdate, hend⟩ := hcut
  rw [planMeasure, hcheck]
  dsimp only
  rw [hdate]
  dsimp only
  rw [hend]
  rfl

/-- A plan stops with the first measure that does. -/
lemma plan_stop_iff {protocol i : ℕ} {measures : List String} {stop : Stop} :
    (t.plan protocol i measures).2 = some stop ↔
      ∃ before measure after, measures = before ++ measure :: after ∧
        (∀ k m, before[k]? = some m → (t.planMeasure protocol (i + k) m).2 = none) ∧
        (t.planMeasure protocol (i + before.length) measure).2 = some stop := by
  induction measures generalizing i with
  | nil =>
      constructor
      · intro h
        cases h
      · rintro ⟨before, measure, after, hms, -⟩
        simp at hms
  | cons m ms ih =>
      have ih' := @ih (i + 1)
      simp only [Nat.add_assoc, Nat.add_comm 1] at ih'
      rw [Attempts.exists_first_cons (P := fun k m => (t.planMeasure protocol (i + k) m).2 = none)
        (Q := fun k m => (t.planMeasure protocol (i + k) m).2 = some stop)]
      rw [← ih', Nat.add_zero, plan]
      rcases hplan : t.planMeasure protocol i m with ⟨gs, _ | stop'⟩
      · simp
      · simp

/-- A payload is cut short when its plan ends within a group. -/
lemma cutShort_iff {protocol : ℕ} {strIo : String} : t.CutShort protocol strIo ↔
    t.stopOf protocol strIo = some .outOfBounds ∧
      ∀ g ∈ t.groupsOf protocol strIo, Attempts.Succeeds t.buildGroup g := by
  refine and_congr_left fun _ => ?_
  rw [stopOf, plan_stop_iff]
  simp only [Nat.zero_add]
  refine exists_congr fun before => exists_congr fun measure => exists_congr fun after =>
    and_congr_right fun _ => and_congr_right fun _ => ⟨planMeasure_of_cut, fun hplan => ?_⟩
  rcases planMeasure_stop hplan with hstop | ⟨-, hcut⟩
  · exact absurd hstop id
  · exact hcut

/-- The stop of a plan is an exception, or the plan ends within a group. -/
lemma stopOf_cases {protocol : ℕ} {strIo : String} {stop : Stop}
    (hstop : t.stopOf protocol strIo = some stop) : stop.IsException ∨ stop = .outOfBounds := by
  obtain ⟨before, measure, after, -, -, hmeasure⟩ := plan_stop_iff.mp hstop
  exact (planMeasure_stop hmeasure).imp_right And.left

/-- The first group that fails stops the translation. -/
lemma translate_of_mapM_error {protocol : ℕ} {strIo : String} {stop : Stop}
    (hms : measuresOf strIo ≠ [])
    (hfail : (t.groupsOf protocol strIo).mapM t.buildGroup = .error stop) :
    t.translate protocol strIo = .error stop := by
  rw [translate_eq t protocol hms, hfail]
  rfl

/-- When every group gives its element, the end of the plan and the count decide. -/
lemma translate_of_mapM_ok {protocol : ℕ} {strIo : String} {es : List EnvElement}
    (hms : measuresOf strIo ≠ [])
    (hok : (t.groupsOf protocol strIo).mapM t.buildGroup = .ok es) :
    t.translate protocol strIo =
      match t.stopOf protocol strIo with
      | some stop => .error stop
      | none => counted strIo es := by
  rw [translate_eq t protocol hms, hok, Attempts.ok_bind]
  generalize t.stopOf protocol strIo = stop
  cases stop with
  | none => rw [finish, Attempts.ok_bind]
  | some stop => rfl

/-- Without a measure there is no plan. -/
lemma groupsOf_nil {protocol : ℕ} {strIo : String} (hms : measuresOf strIo = []) :
    t.groupsOf protocol strIo = [] := by
  rw [groupsOf, hms]
  rfl

/-- What is cut short is read behind its end. -/
lemma translate_of_cutShort {protocol : ℕ} {strIo : String} (hcut : t.CutShort protocol strIo) :
    t.translate protocol strIo = .error .outOfBounds := by
  obtain ⟨hstop, hall⟩ := cutShort_iff.mp hcut
  have hms : measuresOf strIo ≠ [] := by
    intro hnil
    rw [stopOf, hnil] at hstop
    cases hstop
  obtain ⟨es, hrun⟩ := Attempts.mapM_isOk_iff.mpr hall
  rw [translate_of_mapM_ok hms hrun, hstop]

/-- What gets stuck does not throw. -/
lemma translate_of_stuck {protocol : ℕ} {strIo : String} (hstuck : t.Stuck protocol strIo) :
    ∃ stop, t.translate protocol strIo = .error stop ∧ ¬ stop.IsException := by
  obtain ⟨before, g, after, stop, hgs, hbefore, hg, hstop⟩ := hstuck
  have hms : measuresOf strIo ≠ [] := by
    intro hnil
    rw [groupsOf_nil hnil] at hgs
    simp at hgs
  have hrun := Attempts.mapM_eq_error_iff.mpr ⟨before, g, after, hgs, hbefore, hg⟩
  exact ⟨stop, translate_of_mapM_error hms hrun, hstop⟩

/-- There is no other way to stop without an exception. -/
lemma cutShort_or_stuck {protocol : ℕ} {strIo : String} {stop : Stop}
    (herror : t.translate protocol strIo = .error stop) (hstop : ¬ stop.IsException) :
    t.CutShort protocol strIo ∨ t.Stuck protocol strIo := by
  by_cases hms : measuresOf strIo = []
  · rw [translate, if_pos hms] at herror
    cases herror
    exact absurd trivial hstop
  cases hrun : (t.groupsOf protocol strIo).mapM t.buildGroup with
  | error stop' =>
      obtain ⟨before, g, after, hgs, hbefore, hg⟩ := Attempts.mapM_eq_error_iff.mp hrun
      rw [translate_of_mapM_error hms hrun] at herror
      cases herror
      exact Or.inr ⟨before, g, after, stop, hgs, hbefore, hg, hstop⟩
  | ok es =>
      rw [translate_of_mapM_ok hms hrun] at herror
      cases hend : t.stopOf protocol strIo with
      | none =>
          rw [hend] at herror
          dsimp only at herror
          rw [counted] at herror
          split at herror
          · cases herror
            exact absurd trivial hstop
          · cases herror
      | some stop' =>
          rw [hend] at herror
          cases herror
          rcases stopOf_cases hend with hexc | rfl
          · exact absurd hexc hstop
          · exact Or.inl (cutShort_iff.mpr ⟨hend, Attempts.mapM_isOk_iff.mp ⟨es, hrun⟩⟩)

/-- **Reading within the tokens**: a translation gives elements or throws exactly when no
measure that it reaches ends within a group, and no element of a group it reaches fails other
than by an exception. -/
theorem buildsOrThrows_iff (t : Translation) (protocol : ℕ) (strIo : String) :
    t.BuildsOrThrows protocol strIo ↔ ¬ t.CutShort protocol strIo ∧ ¬ t.Stuck protocol strIo := by
  constructor
  · intro h
    constructor
    · intro hcut
      have herror := translate_of_cutShort hcut
      rcases h with ⟨elements, hok⟩ | ⟨stop, hthrow, hexc⟩
      · rw [hok] at herror
        cases herror
      · rw [hthrow] at herror
        cases herror
        exact hexc
    · intro hstuck
      obtain ⟨stop, herror, hstop⟩ := translate_of_stuck hstuck
      rcases h with ⟨elements, hok⟩ | ⟨stop', hthrow, hexc⟩
      · rw [hok] at herror
        cases herror
      · rw [hthrow] at herror
        cases herror
        exact hstop hexc
  · rintro ⟨hcut, hstuck⟩
    cases hrun : t.translate protocol strIo with
    | ok elements => exact Or.inl ⟨elements, hrun⟩
    | error stop =>
        refine Or.inr ⟨stop, hrun, ?_⟩
        by_contra hstop
        rcases cutShort_or_stuck hrun hstop with h | h
        · exact hcut h
        · exact hstuck h

/-- The stop of a translation. -/
def stopped {α : Type} : Except Stop α → Option Stop
  | .ok _ => none
  | .error stop => some stop

/-- A device that is not registered, without mappings. -/
def plain : Translation where
  lib := ⟨fun _ => none, fun _ => ""⟩
  clock := ⟨fun _ => "2016-01-01T00:00:00Z", fun _ => "2016-01-01T00:00:00Z", .text,
    fun _ _ => none⟩
  dev := some (Device.ofName "dev1" "service")
  service := ⟨[], [], []⟩
  query := []

/-- Two pairs between bars: the first name is taken for a time, and the last value for a name
that has none. -/
theorem not_buildsOrThrows_twoPairs : ¬ plain.BuildsOrThrows 0 "a|1|b|2" := by
  have hread : stopped (plain.translate 0 "a|1|b|2") = some .outOfBounds := by decide +kernel
  rintro (⟨elements, hok⟩ | ⟨stop, herror, hexc⟩)
  · rw [hok] at hread
    cases hread
  · rw [herror] at hread
    cases hread
    exact hexc

end Translation

end IotAgent
