import IotAgent.UltraLight.Groups
import IotAgent.UltraLight.Ul20Service

/-!
The measures of a payload and its elements.

A measure of a device is a name and a value between bars, and a time may stand in front. It
is brought into the form with the four fixed tokens by its bars alone, so a measure that has
too few of them or too many goes through the same loop as any other.

* `measureOf`: the name and the value of a measure;
* `Form`: the tokens of the form, by the parts of the measure;
* `Judged`: what the groups of the tokens say of the measure;
* `AllOrNothing`: a translation makes of every measure an element with its name and its value,
  and throws when there is a measure without them;
* `allOrNothing_iff`: exactly when it is not cut short, does not get stuck with such a measure
  in the payload, and loses no value under a mapping.
-/

namespace IotAgent

namespace Translation

variable {t : Translation} {m : String}

/-! ### The parts of a measure -/

/-- The parts of a text between the bars. -/
def parts (l : List Char) : List String :=
  (l.splitOn '|').map String.ofList

/-- The name and the value of a measure. A time may stand in front. -/
def measureOf (m : String) : Option (String × String) :=
  match Text.riotTokenizer m '|' with
  | [name, value] | [_, name, value] =>
      if name ≠ "" ∧ value ≠ "" then some (name, value) else none
  | _ => none

/-- A value is not empty. -/
lemma value_ne_empty {name value : String} (hm : measureOf m = some (name, value)) :
    value ≠ "" := by
  rw [measureOf] at hm
  split at hm
  · split at hm
    · next h =>
        cases hm
        exact h.2
    · cases hm
  · split at hm
    · next h =>
        cases hm
        exact h.2
    · cases hm
  · cases hm

lemma riotTokenizer_bar (hm : m ≠ "") : Text.riotTokenizer m '|' = parts m.toList := by
  rw [Text.riotTokenizer, if_neg hm, parts]

lemma parts_append (xs ys : List Char) : parts (xs ++ '|' :: ys) = parts xs ++ parts ys := by
  rw [parts, List.splitOn_append_cons_self, List.map_append, parts, parts]

lemma parts_of_notMem {l : List Char} (hl : '|' ∉ l) : parts l = [String.ofList l] := by
  rw [parts, List.splitOn_eq_singleton hl]
  rfl

lemma parts_ne_nil (l : List Char) : parts l ≠ [] := by
  rw [parts, ne_eq, List.map_eq_nil_iff]
  exact List.splitOn_ne_nil _ _

/-- What stands in front of the first bar, and what stands behind it. -/
def beforeBar (l : List Char) : List Char :=
  l.takeWhile (· ≠ '|')

def afterBar (l : List Char) : List Char :=
  (l.dropWhile (· ≠ '|')).tail

lemma eq_beforeBar_append {l : List Char} (hl : '|' ∈ l) :
    l = beforeBar l ++ '|' :: afterBar l := by
  rw [beforeBar, afterBar]
  induction l with
  | nil => cases hl
  | cons c l ih =>
      by_cases hc : c = '|'
      · rw [hc]
        rfl
      · have hl' : '|' ∈ l := (List.mem_cons.mp hl).resolve_left fun h => hc h.symm
        rw [List.takeWhile_cons_of_pos (by simpa using hc),
          List.dropWhile_cons_of_pos (by simpa using hc), List.cons_append, ← ih hl']

lemma notMem_beforeBar (l : List Char) : '|' ∉ beforeBar l := by
  intro hmem
  have hbar := List.all_eq_true.mp List.all_takeWhile '|' hmem
  simp at hbar

/-- The first bar ends the first part. -/
lemma parts_of_mem {l : List Char} (hl : '|' ∈ l) :
    parts l = String.ofList (beforeBar l) :: parts (afterBar l) := by
  rw [eq_beforeBar_append hl, parts_append, parts_of_notMem (notMem_beforeBar l),
    ← eq_beforeBar_append hl]
  rfl

/-- The name that the form has in front of its empty token, and the tokens behind it: none but
an empty one for a text without bars, otherwise the name again and what the measure goes on
with. -/
inductive Form (m : String) : String → List String → Prop
  | bare : measureOf m = none → Form m "" [""]
  | pair {name value : String} {rest : List String} :
      measureOf m = (if rest = [] ∧ name ≠ "" ∧ value ≠ "" then some (name, value) else none) →
      Form m name (name :: value :: rest)

/-- The tokens of a text with the bars of the form. -/
lemma riotTokenizer_form (resource time name data : String) (hname : '|' ∉ name.toList) :
    Text.riotTokenizer ("|" ++ resource ++ "|" ++ time ++ "|" ++ name ++ "||" ++ data) '|' =
      "" :: ((parts resource.toList ++ parts time.toList) ++ name :: "" :: parts data.toList) := by
  have hlist : ("|" ++ resource ++ "|" ++ time ++ "|" ++ name ++ "||" ++ data).toList =
      [] ++ '|' :: (resource.toList ++ '|' :: (time.toList ++ '|' :: (name.toList ++ '|' ::
        ([] ++ '|' :: data.toList)))) := by
    simp
  have hne : "|" ++ resource ++ "|" ++ time ++ "|" ++ name ++ "||" ++ data ≠ "" := by
    intro h
    rw [h] at hlist
    simp at hlist
  have hnil : parts [] = [""] := rfl
  rw [riotTokenizer_bar hne, hlist]
  simp only [parts_append, hnil, parts_of_notMem hname, String.ofList_toList]
  simp

/-! ### The form of a measure -/

lemma tokensOf_zero (t : Translation) (m : String) : t.tokensOf 0 m =
    Text.riotTokenizer (contentForSBCProtocol m (t.queryValue "t") t.deviceName) '|' := by
  rw [tokensOf, if_pos rfl]

/-- A text without bars is thrown away. -/
lemma tokensOf_bare (t : Translation) (hbar : '|' ∉ m.toList) : t.tokensOf 0 m =
    "" :: ((parts t.deviceName.toList ++ parts []) ++ "" :: "" :: [""]) := by
  have hcontent : contentForSBCProtocol m (t.queryValue "t") t.deviceName =
      "|" ++ t.deviceName ++ "|" ++ "" ++ "|" ++ "" ++ "||" ++ "" := by
    simp only [contentForSBCProtocol]
    rw [if_pos hbar]
  rw [tokensOf_zero, hcontent, riotTokenizer_form _ _ _ _ (by simp)]
  rfl

/-- A name with one bar behind it; the time is that of the request. -/
lemma tokensOf_pair (t : Translation) (hbar : '|' ∈ m.toList)
    (hafter : '|' ∉ afterBar m.toList) : t.tokensOf 0 m =
    "" :: ((parts t.deviceName.toList ++ parts (t.queryValue "t").toList) ++
      String.ofList (beforeBar m.toList) :: "" :: parts m.toList) := by
  have hcontent : contentForSBCProtocol m (t.queryValue "t") t.deviceName =
      "|" ++ t.deviceName ++ "|" ++ t.queryValue "t" ++ "|" ++
        String.ofList (beforeBar m.toList) ++ "||" ++ m := by
    rw [afterBar] at hafter
    simp only [contentForSBCProtocol, beforeBar]
    rw [if_neg (not_not.mpr hbar), if_pos hafter]
  rw [tokensOf_zero, hcontent, riotTokenizer_form _ _ _ _ (by
    rw [String.toList_ofList]
    exact notMem_beforeBar _)]

/-- A time, a name and what stands behind it. -/
lemma tokensOf_timed (t : Translation) (hbar : '|' ∈ m.toList)
    (hafter : '|' ∈ afterBar m.toList) : t.tokensOf 0 m =
    "" :: ((parts t.deviceName.toList ++ parts (beforeBar m.toList)) ++
      String.ofList (beforeBar (afterBar m.toList)) :: "" :: parts (afterBar m.toList)) := by
  have hcontent : contentForSBCProtocol m (t.queryValue "t") t.deviceName =
      "|" ++ t.deviceName ++ "|" ++ String.ofList (beforeBar m.toList) ++ "|" ++
        String.ofList (beforeBar (afterBar m.toList)) ++ "||" ++
          String.ofList (afterBar m.toList) := by
    rw [afterBar] at hafter
    simp only [contentForSBCProtocol, beforeBar, afterBar]
    rw [if_neg (not_not.mpr hbar), if_neg (not_not.mpr hafter)]
  rw [tokensOf_zero, hcontent, riotTokenizer_form _ _ _ _ (by
    rw [String.toList_ofList]
    exact notMem_beforeBar _), String.toList_ofList, String.toList_ofList]

lemma two_le_length_parts (l l' : List Char) : 2 ≤ (parts l ++ parts l').length := by
  have hl := List.length_pos_iff.mpr (parts_ne_nil l)
  have hl' := List.length_pos_iff.mpr (parts_ne_nil l')
  rw [List.length_append]
  omega

/-- The tokens of a measure are those of the device and of the time, and the form. -/
lemma tokensOf_form (t : Translation) (m : String) : ∃ front name back,
    t.tokensOf 0 m = "" :: (front ++ name :: "" :: back) ∧ 2 ≤ front.length ∧
      Form m name back := by
  by_cases hbar : '|' ∈ m.toList
  · have hm : m ≠ "" := by
      rintro rfl
      simp at hbar
    have hparts := parts_of_mem hbar
    by_cases hafter : '|' ∈ afterBar m.toList
    · refine ⟨_, _, _, tokensOf_timed t hbar hafter, two_le_length_parts _ _, ?_⟩
      obtain ⟨value, rest, hrest⟩ :=
        List.exists_cons_of_ne_nil (parts_ne_nil (afterBar (afterBar m.toList)))
      have hback := parts_of_mem hafter
      rw [hrest] at hback
      rw [hback] at hparts ⊢
      refine .pair ?_
      rw [measureOf, riotTokenizer_bar hm, hparts]
      cases rest <;> simp
    · refine ⟨_, _, _, tokensOf_pair t hbar hafter, two_le_length_parts _ _, ?_⟩
      rw [parts_of_notMem hafter] at hparts
      rw [hparts]
      refine .pair ?_
      rw [measureOf, riotTokenizer_bar hm, hparts]
      simp
  · refine ⟨_, _, _, tokensOf_bare t hbar, two_le_length_parts _ _, .bare ?_⟩
    rw [measureOf]
    by_cases hm : m = ""
    · rw [hm]
      rfl
    · rw [riotTokenizer_bar hm, parts_of_notMem hbar]

/-! ### What the groups say of a measure -/

/-- Groups that end within one show that the measure is malformed, and complete ones are the
name and the value of the measure or at least two. -/
structure Judged (m : String) (gs : List (String × String) × GroupsEnd) : Prop where
  cut : gs.2 = .cut → measureOf m = none
  complete : gs.2 = .complete → (∃ g, gs.1 = [g] ∧ measureOf m = some g) ∨ 2 ≤ gs.1.length

section Judged

variable {name value token : String} {front back tokens : List String}
  {gs : List (String × String) × GroupsEnd}

lemma judged_emptyValue (hgs : gs.2 = .emptyValue) : Judged m gs where
  cut h := by
    rw [hgs] at h
    cases h
  complete h := by
    rw [hgs] at h
    cases h

lemma groups_ne_nil (htokens : tokens ≠ []) (hend : (groups tokens).2 = .complete) :
    (groups tokens).1 ≠ [] := by
  induction tokens using groups.induct with
  | case1 => exact absurd rfl htokens
  | case2 token => cases hend
  | case3 second => cases hend
  | case4 second tokens => cases hend
  | case5 second third tokens hthird _ =>
      rw [groups_skip hthird]
      exact List.cons_ne_nil _ _
  | case6 token tokens htoken =>
      rw [groups_empty htoken] at hend
      cases hend
  | case7 token second tokens htoken hsecond _ =>
      rw [groups_cons htoken hsecond]
      exact List.cons_ne_nil _ _

/-- A group more in front. -/
lemma Judged.cons {g : String × String} (hgs : Judged m gs) : Judged m (g :: gs.1, gs.2) where
  cut := hgs.cut
  complete hend := by
    refine Or.inr ?_
    rcases hgs.complete hend with ⟨g', hone, -⟩ | htwo
    · simp [hone]
    · simp only [List.length_cons]
      omega

/-- The name, the empty token and what stands behind it. -/
lemma groups_form (hform : Form m name back) :
    (groups (name :: "" :: back)).2 = .emptyValue := by
  cases hform with
  | bare _ => rfl
  | @pair name value rest _ =>
      by_cases hname : name = ""
      · rw [hname]
        rfl
      · rw [groups_empty hname]

/-- The empty token and what stands behind it: the name and the value of the measure. -/
lemma judged_behind (hform : Form m name back) (hname : name ≠ "") :
    Judged m (groups ("" :: back)) := by
  cases hform with
  | bare _ => exact absurd rfl hname
  | @pair name value rest hm =>
      by_cases hvalue : value = ""
      · rw [hvalue, groups_skip_empty]
        exact judged_emptyValue rfl
      rw [groups_skip hvalue]
      constructor
      · intro hcut
        have hrest : rest ≠ [] := by
          rintro rfl
          cases hcut
        rw [hm, if_neg fun h => hrest h.1]
      · intro hend
        by_cases hrest : rest = []
        · refine Or.inl ⟨(name, value), ?_, ?_⟩
          · rw [hrest]
            rfl
          · rw [hm, if_pos ⟨hrest, hname, hvalue⟩]
        · have hpos := List.length_pos_iff.mpr (groups_ne_nil hrest hend)
          refine Or.inr ?_
          rw [List.length_cons]
          omega

/-- With a token in front the name of the measure is taken for a value. -/
lemma judged_token (token : String) (hform : Form m name back) :
    Judged m (groups (token :: name :: "" :: back)) := by
  by_cases htoken : token = ""
  · rw [htoken, groups_skip_empty]
    exact judged_emptyValue rfl
  by_cases hname : name = ""
  · rw [hname, groups_empty htoken]
    exact judged_emptyValue rfl
  rw [groups_cons htoken hname]
  exact (judged_behind hform hname).cons

/-- The same with any tokens in front. -/
lemma judged_front (front : List String) (hform : Form m name back) :
    Judged m (groups (front ++ name :: "" :: back)) := by
  induction front using groups.induct with
  | case1 => exact judged_emptyValue (groups_form hform)
  | case2 token => exact judged_token token hform
  | case3 second =>
      show Judged m (groups ("" :: second :: name :: "" :: back))
      by_cases hname : name = ""
      · rw [hname, groups_skip_empty]
        exact judged_emptyValue rfl
      · rw [groups_skip hname]
        exact (judged_behind hform hname).cons
  | case4 second tokens => exact judged_emptyValue rfl
  | case5 second third tokens hthird ih =>
      rw [List.cons_append, List.cons_append, List.cons_append, groups_skip hthird]
      exact ih.cons
  | case6 token tokens htoken =>
      rw [List.cons_append, List.cons_append, groups_empty htoken]
      exact judged_emptyValue rfl
  | case7 token second tokens htoken hsecond ih =>
      rw [List.cons_append, List.cons_append, groups_cons htoken hsecond]
      exact ih.cons

/-- The tokens behind the fixed ones, whatever the name of the device and the time are. -/
lemma judged_drop {a b c d : String} (htokens : t.tokensOf 0 m = a :: b :: c :: d :: tokens)
    (hd : d ≠ "") : Judged m (groups tokens) := by
  obtain ⟨front, name, back, hform, hlen, hback⟩ := tokensOf_form t m
  rw [hform] at htokens
  -- there are two tokens at least in front of the name
  rcases front with _ | ⟨x, _ | ⟨y, _ | ⟨z, front⟩⟩⟩
  · simp at hlen
  · simp at hlen
  · cases htokens
    exact judged_behind hback hd
  · cases htokens
    exact judged_front front hback

end Judged

/-! ### The plan of a payload -/

section Plan

variable {i : ℕ} {measures : List String} {gs : List Group}

/-- Only malformed measures are cut. -/
lemma measureOf_of_cut (hcut : t.MeasureCut 0 i m) : measureOf m = none := by
  obtain ⟨tokens, date, hcheck, -, hend⟩ := hcut
  rcases checkMeasure_cases t (t.tokensOf 0 m) with
    ⟨what, herror⟩ | ⟨a, b, c, d, rest, htokens, hd, a', b', hok⟩
  · rw [hcheck] at herror
    cases herror
  · rw [hcheck, Except.ok.injEq] at hok
    rw [hok] at hend
    exact (judged_drop htokens hd).cut hend

/-- A measure without a stop has its one group, or more than one. -/
lemma planMeasure_none (hplan : t.planMeasure 0 i m = (gs, none)) :
    (∃ g, gs = [g] ∧ measureOf m = some (g.name, g.value)) ∨ 2 ≤ gs.length := by
  rw [planMeasure] at hplan
  rcases checkMeasure_cases t (t.tokensOf 0 m) with
    ⟨what, hcheck⟩ | ⟨a, b, c, d, rest, htokens, hd, a', b', hcheck⟩
  · rw [hcheck] at hplan
    cases hplan
  rw [hcheck] at hplan
  dsimp only at hplan
  cases hdate : t.dateOf i ((a' :: b' :: c :: d :: rest).getD 2 "") with
  | error e =>
      rw [hdate] at hplan
      cases hplan
  | ok date =>
      rw [hdate] at hplan
      obtain ⟨hgs, hend⟩ := Prod.mk.inj hplan
      have hcomplete : (groups rest).2 = .complete := by
        cases hrest : (groups rest).2 with
        | complete => rfl
        | emptyValue | cut =>
            rw [show (groups ((a' :: b' :: c :: d :: rest).drop numElementsUlProtocol)).2 = _
              from hrest] at hend
            cases hend
      have hmap : (groups rest).1.map (fun g => (⟨date, g.1, g.2⟩ : Group)) = gs := hgs
      rcases (judged_drop htokens hd).complete hcomplete with ⟨g, hone, hm⟩ | htwo
      · rw [hone] at hmap
        exact Or.inl ⟨⟨date, g.1, g.2⟩, hmap.symm, hm⟩
      · refine Or.inr ?_
        rwa [← hmap, List.length_map]

/-- A plan without a stop has a group for every measure, and is made of the measures' own if
there are no more. -/
lemma plan_none (hplan : t.plan 0 i measures = (gs, none)) : measures.length ≤ gs.length ∧
    (measures.length = gs.length →
      List.Forall₂ (fun m g => measureOf m = some (g.name, g.value)) measures gs) := by
  induction measures generalizing i gs with
  | nil =>
      cases hplan
      exact ⟨Nat.le_refl _, fun _ => .nil⟩
  | cons m measures ih =>
      rw [plan] at hplan
      rcases hm : t.planMeasure 0 i m with ⟨gs₁, stop₁⟩
      rw [hm] at hplan
      cases stop₁ with
      | some stop => cases hplan
      | none =>
          rcases hrest : t.plan 0 (i + 1) measures with ⟨gs₂, stop⟩
          rw [hrest] at hplan
          obtain ⟨hgs, rfl⟩ : gs₁ ++ gs₂ = gs ∧ stop = none := Prod.mk.inj hplan
          obtain ⟨hle, hall⟩ := ih hrest
          rw [← hgs, List.length_append, List.length_cons]
          rcases planMeasure_none hm with ⟨g, rfl, hg⟩ | htwo
          · refine ⟨?_, fun hlen => .cons hg (hall ?_)⟩
            · rw [List.length_singleton]
              omega
            · rw [List.length_singleton] at hlen
              omega
          · exact ⟨by omega, fun hlen => by omega⟩

lemma forall₂_of_plan (hstop : (t.plan 0 i measures).2 = none)
    (hlen : measures.length = (t.plan 0 i measures).1.length) :
    List.Forall₂ (fun m g => measureOf m = some (g.name, g.value)) measures
      (t.plan 0 i measures).1 :=
  (plan_none (Prod.ext rfl hstop)).2 hlen

end Plan

/-! ### Elements under the mappings -/

/-- What is found under a name for the device and its service. -/
def envMapping (t : Translation) : String → Mapping :=
  EnvElement.mapping t.lib
    { EnvElement.ofTexts t.deviceName "" "false" with
      serviceInfo := t.service, deviceInfo := t.dev }

lemma baseElement_mapping {k : ℕ} {base : EnvElement} (hbase : t.baseElement k = .ok base) :
    base.mapping t.lib = t.envMapping :=
  (EnvElement.setEnvInfo_sameInfo hbase).mapping

/-- The `k`-th element carries a name and a value: it is the element of the device, the
attribute of the measure under its alias, and the attribute with the time. -/
def Carries (t : Translation) (k : ℕ) (name value : String) (elto : EnvElement) : Prop :=
  ∃ base att date, t.baseElement k = .ok base ∧
    EnvElement.Alias t.envMapping (Attribute.renderName name) value att.name att.value ∧
    (base.push att).add t.lib (timeAttribute date) = .ok elto

lemma isCompound_measureAttribute (date name value : String) :
    EnvElement.isCompound (measureAttribute date name value) = false := by
  have hempty : Text.renderIdentifier "" ≠ Attribute.compound := by decide
  exact decide_eq_false hempty

/-- The value of a measure is lost under the mappings. -/
def LostUnder (t : Translation) (name : String) : Prop :=
  EnvElement.Lost t.envMapping (Attribute.renderName name)

lemma LostUnder.not_carries {k : ℕ} {name value : String} {elto : EnvElement}
    (hlost : t.LostUnder name) : ¬ t.Carries k name value elto := by
  rintro ⟨base, att, date, -, halias, -⟩
  exact hlost.not_alias halias

/-- An element that is built carries the name and the value, unless the value is lost. -/
lemma buildElement_cases {k : ℕ} {date name value : String} {elto : EnvElement}
    (hvalue : value ≠ "") (hbuild : t.buildElement k date name value = .ok elto) :
    t.LostUnder name ∨ t.Carries k name value elto := by
  rw [buildElement] at hbuild
  cases hbase : t.baseElement k with
  | error stop =>
      rw [hbase] at hbuild
      cases hbuild
  | ok base =>
      rw [hbase] at hbuild
      replace hbuild : (base.add t.lib (measureAttribute date name value)).bind
        (fun elto => elto.add t.lib (timeAttribute date)) = .ok elto := hbuild
      cases hadd : base.add t.lib (measureAttribute date name value) with
      | error stop =>
          rw [hadd] at hbuild
          cases hbuild
      | ok elto₁ =>
          rw [hadd] at hbuild
          have hwritten : EnvElement.Written (measureAttribute date name value) := fun hcoords =>
            absurd hcoords (by decide : Text.renderIdentifier "" ≠ StoreTypes.coords)
          have hvalue' : (measureAttribute date name value).value = value := if_neg hvalue
          have hcases := EnvElement.add_cases (isCompound_measureAttribute date name value)
            (hvalue'.trans_ne hvalue) hwritten hadd
          rw [baseElement_mapping hbase, hvalue'] at hcases
          rcases hcases with ⟨hlost, -⟩ | ⟨att, halias, rfl⟩
          · exact Or.inl hlost
          · exact Or.inr ⟨base, att, date, hbase, halias, hbuild⟩

lemma buildGroup_eq_ok {g : Group × ℕ} {elto : EnvElement} (hg : t.buildGroup g = .ok elto) :
    t.buildElement g.2 g.1.date g.1.name g.1.value = .ok elto := by
  rw [buildGroup] at hg
  cases hbuild : t.buildElement g.2 g.1.date g.1.name g.1.value with
  | error stop =>
      rw [hbuild] at hg
      cases hg
  | ok elto' =>
      rw [hbuild] at hg
      cases hg
      rfl

/-! ### All or nothing -/

/-- The elements that `service` sends for the body of a message. A body that answers a command
is not translated, and when the translation throws nothing is sent. -/
def sentElements (t : Translation) (content : String) : List EnvElement :=
  if content = "" ∨ Ul20Service.isCommandResp content ≠ none then []
  else
    match t.translate 0 content with
    | .ok elements => elements
    | .error _ => []

lemma sentElements_of_error {content : String} {stop : Stop}
    (herror : t.translate 0 content = .error stop) : t.sentElements content = [] := by
  rw [sentElements, herror]
  split <;> rfl

/-- A translation makes of every measure, in their order, the element that carries its name
and its value. It throws when there is a measure without them, so that nothing is sent. -/
def AllOrNothing (t : Translation) (strIo : String) : Prop :=
  (∀ elements, t.translate 0 strIo = .ok elements →
    List.Forall₂ (fun m elto => ∃ name value, measureOf m.1 = some (name, value) ∧
      t.Carries m.2 name value elto) (measuresOf strIo).zipIdx elements) ∧
  ((∃ m ∈ measuresOf strIo, measureOf m = none) →
    ∃ stop, t.translate 0 strIo = .error stop ∧ stop.IsException ∧ t.sentElements strIo = [])

/-- Every group gives its element, and there are as many as measures. -/
structure Fits (t : Translation) (strIo : String) : Prop where
  stop : t.stopOf 0 strIo = none
  succeeds : ∀ g ∈ t.groupsOf 0 strIo, Attempts.Succeeds t.buildGroup g
  length : (measuresOf strIo).length = (t.groupsOf 0 strIo).length

/-- The payload fits, and the name of one of its measures leads to a mapping that loses the
value. -/
def Loses (t : Translation) (strIo : String) : Prop :=
  t.Fits strIo ∧
    ∃ m ∈ measuresOf strIo, ∃ name value, measureOf m = some (name, value) ∧ t.LostUnder name

section Payload

variable {strIo : String} {elements : List EnvElement}

/-- The elements of a translation are those of the groups. -/
lemma mapM_of_translate (hok : t.translate 0 strIo = .ok elements) :
    (t.groupsOf 0 strIo).mapM t.buildGroup = .ok elements ∧ t.Fits strIo := by
  have hms : measuresOf strIo ≠ [] := by
    intro hnil
    rw [translate, if_pos hnil] at hok
    cases hok
  cases hrun : (t.groupsOf 0 strIo).mapM t.buildGroup with
  | error stop =>
      rw [translate_of_mapM_error hms hrun] at hok
      cases hok
  | ok es =>
      rw [translate_of_mapM_ok hms hrun] at hok
      cases hstop : t.stopOf 0 strIo with
      | some stop =>
          rw [hstop] at hok
          cases hok
      | none =>
          rw [hstop] at hok
          dsimp only at hok
          rw [counted] at hok
          split at hok
          · cases hok
          · next hlen =>
              cases hok
              refine ⟨rfl, hstop, Attempts.mapM_isOk_iff.mp ⟨_, hrun⟩, ?_⟩
              rw [(Attempts.mapM_eq_ok_iff.mp hrun).length_eq]
              exact not_not.mp hlen

/-- What fits is translated. -/
lemma translate_of_fits (hfits : t.Fits strIo) (hms : measuresOf strIo ≠ []) :
    ∃ elements, t.translate 0 strIo = .ok elements := by
  obtain ⟨es, hrun⟩ := Attempts.mapM_isOk_iff.mpr hfits.succeeds
  refine ⟨es, ?_⟩
  rw [translate_of_mapM_ok hms hrun, hfits.stop]
  dsimp only
  rw [counted, if_neg]
  rw [not_not, hfits.length]
  exact (Attempts.mapM_eq_ok_iff.mp hrun).length_eq

/-- The groups of a payload that fits are the names and the values of its measures. -/
lemma groupsOf_of_fits (hfits : t.Fits strIo) :
    List.Forall₂ (fun m g => measureOf m.1 = some (g.1.name, g.1.value) ∧ g.2 = m.2)
      (measuresOf strIo).zipIdx (t.groupsOf 0 strIo) := by
  obtain ⟨hstop, -, hlen⟩ := hfits
  rw [stopOf] at hstop
  rw [groupsOf, List.length_zipIdx] at hlen
  exact Attempts.forall₂_zipIdx (forall₂_of_plan hstop hlen) 0

/-- The element of a measure carries its name and its value, unless the value is lost. -/
lemma forall₂_of_translate (hok : t.translate 0 strIo = .ok elements) :
    List.Forall₂ (fun m elto => ∃ name value, measureOf m.1 = some (name, value) ∧
      (t.LostUnder name ∨ t.Carries m.2 name value elto)) (measuresOf strIo).zipIdx elements := by
  obtain ⟨hrun, hfits⟩ := mapM_of_translate hok
  refine (Attempts.mapM_forall₂ (groupsOf_of_fits hfits) hrun).imp ?_
  rintro ⟨m, k⟩ elto ⟨g, ⟨hm, rfl⟩, hg⟩
  have hvalue : g.1.value ≠ "" := value_ne_empty hm
  exact ⟨g.1.name, g.1.value, hm, buildElement_cases hvalue (buildGroup_eq_ok hg)⟩

/-- Where elements are given, every measure has a name and a value. -/
lemma measureOf_of_translate (hok : t.translate 0 strIo = .ok elements) :
    ∀ m ∈ measuresOf strIo, measureOf m ≠ none := by
  intro m hm hnone
  obtain ⟨k, elto, name, value, hsome, -⟩ :=
    Attempts.exists_of_forall₂ (forall₂_of_translate hok) hm
  rw [hnone] at hsome
  cases hsome

lemma Loses.not_allOrNothing (hloses : t.Loses strIo) : ¬ t.AllOrNothing strIo := by
  obtain ⟨hfits, m, hm, name, value, hsome, hlost⟩ := hloses
  intro hall
  obtain ⟨elements, hok⟩ := translate_of_fits hfits (List.ne_nil_of_mem hm)
  obtain ⟨k, elto, name', value', hsome', hcarries⟩ :=
    Attempts.exists_of_forall₂ (hall.1 elements hok) hm
  rw [hsome] at hsome'
  cases hsome'
  exact hlost.not_carries hcarries

/-- A malformed measure is refused unless the translation stops in another way. -/
lemma throws_of_malformed (hcut : ¬ t.CutShort 0 strIo)
    (hstuck : t.Stuck 0 strIo → ∀ m ∈ measuresOf strIo, measureOf m ≠ none)
    (hbad : ∃ m ∈ measuresOf strIo, measureOf m = none) :
    ∃ stop, t.translate 0 strIo = .error stop ∧ stop.IsException ∧
      t.sentElements strIo = [] := by
  obtain ⟨m, hm, hnone⟩ := hbad
  cases hrun : t.translate 0 strIo with
  | ok elements => exact absurd hnone (measureOf_of_translate hrun m hm)
  | error stop =>
      refine ⟨stop, rfl, ?_, sentElements_of_error hrun⟩
      by_contra hstop
      rcases cutShort_or_stuck hrun hstop with h | h
      · exact hcut h
      · exact hstuck h m hm hnone

/-- **All or nothing**: a translation makes of every measure its element, and throws when there
is a malformed one, exactly when no measure is cut short, no element gets stuck in a payload
with a malformed measure, and no value is lost under the mappings. -/
theorem allOrNothing_iff (t : Translation) (strIo : String) :
    t.AllOrNothing strIo ↔ ¬ t.CutShort 0 strIo ∧
      (t.Stuck 0 strIo → ∀ m ∈ measuresOf strIo, measureOf m ≠ none) ∧ ¬ t.Loses strIo := by
  constructor
  · intro hall
    refine ⟨fun hcut => ?_, fun hstuck m hm hnone => ?_, fun h => h.not_allOrNothing hall⟩
    · -- the measure that is cut is malformed, and nothing is thrown
      have hstop := translate_of_cutShort hcut
      obtain ⟨⟨before, m, after, hms, -, hm⟩, -⟩ := hcut
      obtain ⟨stop, herror, hexc, -⟩ := hall.2 ⟨m, by rw [hms]; simp, measureOf_of_cut hm⟩
      rw [hstop] at herror
      cases herror
      exact hexc
    · obtain ⟨stop, hstop, hnot⟩ := translate_of_stuck hstuck
      obtain ⟨stop', herror, hexc, -⟩ := hall.2 ⟨m, hm, hnone⟩
      rw [hstop] at herror
      cases herror
      exact hnot hexc
  · rintro ⟨hcut, hstuck, hloses⟩
    refine ⟨fun elements hok => ?_, throws_of_malformed hcut hstuck⟩
    obtain ⟨-, hfits⟩ := mapM_of_translate hok
    have hmem : ∀ m ∈ (measuresOf strIo).zipIdx, m.1 ∈ measuresOf strIo := fun _ =>
      List.fst_mem_of_mem_zipIdx
    refine ((List.forall₂_and_left _ _).mpr ⟨hmem, forall₂_of_translate hok⟩).imp ?_
    rintro ⟨m, k⟩ elto ⟨hm, name, value, hsome, hlost | hcarries⟩
    · exact absurd ⟨hfits, m, hm, name, value, hsome, hlost⟩ hloses
    · exact ⟨name, value, hsome, hcarries⟩

/-- Two pairs between bars are no measure, and they are not refused. -/
theorem not_allOrNothing_twoPairs : ¬ plain.AllOrNothing "a|1|b|2" := by
  have hread : stopped (plain.translate 0 "a|1|b|2") = some .outOfBounds := by decide +kernel
  have hbad : "a|1|b|2" ∈ measuresOf "a|1|b|2" ∧ measureOf "a|1|b|2" = none := by
    decide +kernel
  intro hall
  obtain ⟨stop, herror, hexc, -⟩ := hall.2 ⟨_, hbad⟩
  rw [herror] at hread
  cases hread
  exact hexc

end Payload

end Translation

end IotAgent
