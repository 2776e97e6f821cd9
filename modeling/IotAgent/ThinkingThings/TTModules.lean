import IotAgent.Lib.RawJson
import IotAgent.Util.JsonWriter

/-!
The modules of Thinking Things (`src/esp/plugins/postprocessor_tt/TTModules.cpp`,
`src/esp/plugins/postprocessor_tt/ESP_Plugin_Postprocessor_TT.cpp`).

Every module of a message is made into an attribute for the context broker, or into two for a
configuration: one under the name of what the device has at present, and a plain one. The
attributes are texts of JSON that are put together by hand.

* `TTModules.transform`, `execute`: the modules and the postprocessor;
* `TTModules.doc`, `TTModules.plainDoc`: the attributes that are meant;
* `Complete`, `bValid_iff`: when a module is valid;
* `transform_means`: when the text of an attribute is read as what is meant;
* `execute_reads`: the same of the text of the postprocessor.
-/

namespace IotAgent

namespace TT

open JsonLexer JsonWriter

/-- What `find` and `getValueAsString` give of a result of the parser. -/
abbrev Result := String → Option String

/-- The text of an attribute that may be missing. -/
def Result.text (r : Result) (name : String) : String :=
  (r name).getD ""

/-- `tt::Pair`. -/
structure Pair where
  name : String
  mandatory : Bool

/-- `CB_OUTGC_PREFIX`. -/
def cbOutgcPrefix : String := "_TTcurrent_"

/-- `TTModules`, with the settings of the module. -/
inductive TTModules
  | gps (refCoordX refCoordY separator metaName metaType metaValue : String)
  | p1b (name : String) (mappings : List (String × Pair))
  | gm
  | gc

/-- What `transform` sets. -/
structure Transformed where
  bValid : Bool
  json : String
  plainJson : String

/-! ### The texts -/

section Texts

variable (r : Result)

/-- `appendSleepCondTime`. -/
def appendSleepCondTime : String :=
  let sleepCondition := r.text "sleepcondition"
  let sleepTime := r.text "sleeptime"
  (if sleepCondition ≠ "" then
    "\"name\":\"sleepcondition\",\"type\":\"string\",\"value\":\"" ++ sleepCondition ++ "\""
  else "") ++
  (if sleepTime ≠ "" then
    (if sleepCondition ≠ "" then "\x7d,\x7b" else "") ++
      "\"name\":\"sleeptime\",\"type\":\"string\",\"value\":\"" ++ sleepTime ++ "\""
  else "")

/-- `doMetadatas`. -/
def doMetadatas : String :=
  if r.text "sleepcondition" ≠ "" ∨ r.text "sleeptime" ≠ "" then
    ",\"metadatas\":[\x7b" ++ appendSleepCondTime r ++ "\x7d]"
  else ""

/-- One parameter in the loop over the mappings, with the text, the number of hits and the
validity so far. -/
def checkMapping (s : String × ℕ × Bool) (mapping : String × Pair) : String × ℕ × Bool :=
  if r.text mapping.1 ≠ "" then
    (s.1 ++ (if 0 < s.2.1 then "\x7d,\x7b" else "") ++ "\"name\":\"" ++ mapping.2.name ++
      "\",\"type\":\"string\",\"value\":\"" ++ r.text mapping.1 ++ "\"", s.2.1 + 1, s.2.2)
  else if mapping.2.mandatory then (s.1, s.2.1, false)
  else s

/-- The text of an attribute with a text as its value. -/
def simpleJson (name value : String) : String :=
  if r.text "param_1" ≠ "" ∧ r.text "param_2" ≠ "" then
    "\x7b\"name\":\"" ++ name ++ "\",\"type\":\"string\",\"value\":\"" ++ value ++ "\"" ++
      doMetadatas r ++ "\x7d"
  else "\x7b\x7d"

/-- `transform`. -/
def TTModules.transform : TTModules → Transformed
  | gps refCoordX refCoordY separator metaName metaType metaValue =>
      if r.text refCoordX ≠ "" ∧ r.text refCoordY ≠ "" then
        let sleepAndCond := appendSleepCondTime r
        let json := "\x7b\"name\":\"position\",\"type\":\"coords\",\"value\":\"" ++
          r.text refCoordX ++ separator ++ r.text refCoordY ++
          "\",\"metadatas\":[\x7b\"name\":\"" ++ metaName ++ "\",\"type\":\"" ++ metaType ++
          "\",\"value\":\"" ++ metaValue ++ "\"\x7d" ++
          (if sleepAndCond ≠ "" then ",\x7b" ++ sleepAndCond ++ "\x7d" else "") ++ "]\x7d"
        ⟨true, json, json⟩
      else ⟨false, "\x7b\x7d", "\x7b\x7d"⟩
  | p1b name mappings =>
      let s := mappings.foldl (checkMapping r) ("\x7b", 0, true)
      let json := "\x7b\"name\":\"" ++ name ++ "\",\"type\":\"compound\",\"value\":[" ++
        (s.1 ++ "\x7d") ++ "]" ++ doMetadatas r ++ "\x7d"
      ⟨s.2.2, json, json⟩
  | gm =>
      let json := simpleJson r (r.text "param_1") (r.text "param_2")
      ⟨decide (r.text "param_1" ≠ "" ∧ r.text "param_2" ≠ ""), json, json⟩
  | gc =>
      ⟨decide (r.text "param_1" ≠ "" ∧ r.text "param_2" ≠ ""),
        simpleJson r (cbOutgcPrefix ++ r.text "param_1") (r.text "param_2"),
        simpleJson r (r.text "param_1") (r.text "param_2")⟩

end Texts

/-! ### The postprocessor -/

/-- `load_default_TTModules`. -/
def defaultTTModules : List (String × TTModules) :=
  [("B", .p1b "B" [("param_1", ⟨"voltaje", true⟩), ("param_2", ⟨"estado_activacion", true⟩),
      ("param_3", ⟨"hay_cargador", true⟩), ("param_4", ⟨"estado_carga", true⟩),
      ("param_5", ⟨"modo_carga", true⟩), ("param_6", ⟨"tiempo_desco_stack", true⟩)]),
    ("GC", .gc), ("GM", .gm),
    ("GPS", .gps "param_1" "param_2" "," "location" "string" "WGS84"),
    ("P1", .p1b "P1" [("param_1", ⟨"mcc", true⟩), ("param_2", ⟨"mnc", true⟩),
      ("param_3", ⟨"cell-id", true⟩), ("param_4", ⟨"lac", true⟩), ("param_5", ⟨"dbm", false⟩)])]

/-- `execute`, with the modules of the postprocessor: its result, if it is valid. -/
def execute (modulesMap : List (String × TTModules)) (r : Result) : Option String := do
  let keyword ← r "module"
  let ttObj ← modulesMap.lookup keyword
  let t := ttObj.transform r
  if t.bValid then
    some ("\x7b \"processed\" : " ++ t.json ++ ",\"plain\" : " ++ t.plainJson ++ "\x7d")
  else none

/-! ### What is meant -/

/-- Metadata: a name, a type and a value. -/
abbrev Metadata := String × String × String

def Metadata.doc (m : Metadata) : Json :=
  .object [("name", .string m.1), ("type", .string m.2.1), ("value", .string m.2.2)]

/-- An attribute, with its metadata if there are any. -/
def attributeDoc (name type : String) (value : Json) (metadatas : List Metadata) : Json :=
  .object ([("name", .string name), ("type", .string type), ("value", value)] ++
    if metadatas.isEmpty then [] else [("metadatas", .array (metadatas.map Metadata.doc))])

section Docs

variable (r : Result)

/-- The metadata of a sleep. -/
def sleeps : List Metadata :=
  (if r.text "sleepcondition" ≠ "" then
    [("sleepcondition", "string", r.text "sleepcondition")] else []) ++
  (if r.text "sleeptime" ≠ "" then [("sleeptime", "string", r.text "sleeptime")] else [])

/-- The parameters that came, among those with a mapping. -/
def hits (mappings : List (String × Pair)) : List Metadata :=
  (mappings.filter fun mapping => r.text mapping.1 ≠ "").map fun mapping =>
    (mapping.2.name, "string", r.text mapping.1)

/-- The value of a module with mappings; an object without members if nothing came. -/
def compoundDoc (hits : List Metadata) : Json :=
  .array (if hits.isEmpty then [.object []] else hits.map Metadata.doc)

/-- The attribute that is meant by a module. -/
def TTModules.doc : TTModules → Json
  | gps refCoordX refCoordY separator metaName metaType metaValue =>
      attributeDoc "position" "coords" (.string (r.text refCoordX ++ separator ++ r.text refCoordY))
        ((metaName, metaType, metaValue) :: sleeps r)
  | p1b name mappings => attributeDoc name "compound" (compoundDoc (hits r mappings)) (sleeps r)
  | gm => attributeDoc (r.text "param_1") "string" (.string (r.text "param_2")) (sleeps r)
  | gc => attributeDoc (cbOutgcPrefix ++ r.text "param_1") "string" (.string (r.text "param_2"))
      (sleeps r)

/-- The plain attribute: that of a configuration has the name that the device gave. -/
def TTModules.plainDoc : TTModules → Json
  | gc => attributeDoc (r.text "param_1") "string" (.string (r.text "param_2")) (sleeps r)
  | m => m.doc r

/-- The texts that come between quotes. -/
def TTModules.quotedTexts : TTModules → List String
  | gps refCoordX refCoordY separator metaName metaType metaValue =>
      [r.text refCoordX, separator, r.text refCoordY, metaName, metaType, metaValue,
        r.text "sleepcondition", r.text "sleeptime"]
  | p1b name mappings =>
      name :: ((hits r mappings).flatMap fun hit => [hit.1, hit.2.2]) ++
        [r.text "sleepcondition", r.text "sleeptime"]
  | gm | gc => [r.text "param_1", r.text "param_2", r.text "sleepcondition", r.text "sleeptime"]

end Docs

/-! ### Attributes as texts -/

/-- A text all of whose letters are read as themselves. -/
def PlainText (s : String) : Prop := ∀ c ∈ s.toList, JsonLexer.Plain c

lemma plainText_of_all {s : String} (h : s.toList.all (JsonLexer.Plain ·) = true) : PlainText s :=
  fun _ hc => of_all h hc

lemma plainText_append {s t : String} : PlainText (s ++ t) ↔ PlainText s ∧ PlainText t := by
  rw [PlainText, String.toList_append, List.forall_mem_append]
  rfl

lemma plainText_empty : PlainText "" := fun _ hc => absurd hc List.not_mem_nil

def Metadata.Plain (m : Metadata) : Prop := PlainText m.1 ∧ PlainText m.2.1 ∧ PlainText m.2.2

/-- A member of an object as a text: its name, its text, its value and the condition under which
the text is read as the value. -/
structure RawMember where
  name : String
  text : List Char
  value : Json
  cond : Prop

/-- A member with a text between quotes. -/
def rawString (name value : String) : RawMember :=
  ⟨name, quoted value.toList, .string value, PlainText value⟩

/-- The text of an object. -/
def rawObject (ms : List RawMember) : List Char :=
  '\x7b' :: (JsonValue.commas (fun m => quoted m.name.toList ++ ':' :: m.text) ms ++ ['\x7d'])

def Metadata.members (m : Metadata) : List RawMember :=
  [rawString "name" m.1, rawString "type" m.2.1, rawString "value" m.2.2]

/-- The text of a list of metadata. -/
def rawMetadatas (ms : List Metadata) : List Char :=
  '[' :: (JsonValue.commas (fun m => rawObject m.members) ms ++ [']'])

/-- The members of an attribute. -/
def attributeMembers (name type : String) (value : RawMember) (metadatas : List Metadata) :
    List RawMember :=
  [rawString "name" name, rawString "type" type, value] ++
    if metadatas.isEmpty then [] else
      [⟨"metadatas", rawMetadatas metadatas, .array (metadatas.map Metadata.doc),
        ∀ m ∈ metadatas, m.Plain⟩]

lemma toItems_eq (items : List Json) : toItems id items = items.map (toValue id) := by
  induction items with
  | nil => rw [toItems, List.map_nil]
  | cons v vs ih => rw [toItems, List.map_cons, ih]

lemma toMembers_eq (members : List (String × Json)) :
    toMembers id members = members.map fun m => (units m.1.toList, toValue id m.2) := by
  induction members with
  | nil => rw [toMembers, List.map_nil]
  | cons m ms ih =>
      obtain ⟨name, v⟩ := m
      rw [toMembers, List.map_cons, ih]
      rfl

/-- A member whose text means its value, under a name of plain letters. -/
structure RawMember.Fair (m : RawMember) : Prop where
  name : PlainText m.name
  means : Means m.cond m.text (toValue id m.value).tokens

lemma means_rawObject {ms : List RawMember} (h : ∀ m ∈ ms, m.Fair) :
    Means (∀ m ∈ ms, m.cond) (rawObject ms)
      (toValue id (.object (ms.map fun m => (m.name, m.value)))).tokens := by
  refine (JsonValue.means_object (fun m hm => (h m hm).name) fun m hm => (h m hm).means).congr
    Iff.rfl rfl ?_
  rw [toValue, toMembers_eq, List.map_map]
  rfl

lemma fair_rawString {name : String} (hname : PlainText name) (value : String) :
    (rawString name value).Fair := by
  refine ⟨hname, (means_quoted value.toList).congr Iff.rfl rfl ?_⟩
  rw [rawString, toValue, JsonValue.tokens]
  rfl

lemma forall_mem_three {α : Type*} {p : α → Prop} {a b c : α} :
    (∀ x ∈ [a, b, c], p x) ↔ p a ∧ p b ∧ p c := by
  simp

lemma means_metadata (m : Metadata) :
    Means m.Plain (rawObject m.members) (toValue id m.doc).tokens := by
  refine (means_rawObject (forall_mem_three.mpr ⟨?_, ?_, ?_⟩)).congr forall_mem_three rfl rfl
  all_goals exact fair_rawString (plainText_of_all rfl) _

lemma means_rawMetadatas (ms : List Metadata) :
    Means (∀ m ∈ ms, m.Plain) (rawMetadatas ms)
      (toValue id (.array (ms.map Metadata.doc))).tokens := by
  refine (JsonValue.means_array fun m _ => means_metadata m).congr Iff.rfl rfl ?_
  rw [toValue, toItems_eq, List.map_map]
  rfl

/-- An attribute means its document exactly if all of its texts are plain. -/
lemma means_attribute {value : RawMember} (hname : value.name = "value") (hvalue : value.Fair)
    (name type : String) (metadatas : List Metadata) :
    Means (PlainText name ∧ PlainText type ∧ value.cond ∧ ∀ m ∈ metadatas, m.Plain)
      (rawObject (attributeMembers name type value metadatas))
      (toValue id (attributeDoc name type value.value metadatas)).tokens := by
  have hmetadatas : RawMember.Fair ⟨"metadatas", rawMetadatas metadatas,
      .array (metadatas.map Metadata.doc), ∀ m ∈ metadatas, m.Plain⟩ :=
    ⟨(plainText_of_all rfl : PlainText "metadatas"), means_rawMetadatas metadatas⟩
  have hthree : ∀ m ∈ [rawString "name" name, rawString "type" type, value], m.Fair :=
    forall_mem_three.mpr ⟨fair_rawString (plainText_of_all rfl) _,
      fair_rawString (plainText_of_all rfl) _, hvalue⟩
  cases metadatas with
  | nil =>
      refine (means_rawObject hthree).congr ?_ rfl ?_
      · rw [forall_mem_three]
        simp [rawString]
      · simp [attributeDoc, rawString, hname]
  | cons m ms =>
      refine (means_rawObject (List.forall_mem_append.mpr
        ⟨hthree, List.forall_mem_singleton.mpr hmetadatas⟩)).congr ?_ rfl ?_
      · rw [List.forall_mem_append, forall_mem_three, List.forall_mem_singleton]
        simp [rawString, and_assoc]
      · simp [attributeDoc, rawString, hname]

/-! ### The texts of the modules -/

section Transform

variable (r : Result)

lemma toList_doMetadatas : (doMetadatas r).toList =
    if (sleeps r).isEmpty then [] else
      ',' :: (quoted "metadatas".toList ++ ':' :: rawMetadatas (sleeps r)) := by
  rw [doMetadatas, appendSleepCondTime, sleeps]
  by_cases hcond : r.text "sleepcondition" = "" <;> by_cases htime : r.text "sleeptime" = ""
  all_goals simp [hcond, htime, quoted, rawMetadatas, JsonValue.commas, rawObject,
    Metadata.members, rawString]

/-- The text of an attribute, with that of its value. -/
lemma toList_attribute (name type : String) (value : RawMember) (hname : value.name = "value")
    (metadatas : List Metadata) :
    rawObject (attributeMembers name type value metadatas) =
      ("\x7b\"name\":\"" ++ name ++ "\",\"type\":\"" ++ type ++ "\",\"value\":").toList ++
        value.text ++ (if metadatas.isEmpty then [] else
          ',' :: (quoted "metadatas".toList ++ ':' :: rawMetadatas metadatas)) ++ ['\x7d'] := by
  cases metadatas <;>
    simp [rawObject, attributeMembers, JsonValue.commas, rawString, quoted, hname]

lemma toList_simpleJson (hname : r.text "param_1" ≠ "") (hvalue : r.text "param_2" ≠ "")
    (name value : String) : (simpleJson r name value).toList =
      rawObject (attributeMembers name "string" (rawString "value" value) (sleeps r)) := by
  rw [simpleJson, if_pos ⟨hname, hvalue⟩, toList_attribute _ _ _ rfl]
  simp [toList_doMetadatas, rawString, quoted]

/-- The text of the members of a hit. -/
def hitText (hit : Metadata) : String :=
  "\"name\":\"" ++ hit.1 ++ "\",\"type\":\"string\",\"value\":\"" ++ hit.2.2 ++ "\""

/-- The loop over the mappings, from where it stands. -/
lemma foldl_checkMapping (mappings : List (String × Pair)) (text : String) (count : ℕ)
    (valid : Bool) : mappings.foldl (checkMapping r) (text, count, valid) =
      (text ++ String.join ((hits r mappings).zipIdx count |>.map fun hit =>
          (if 0 < hit.2 then "\x7d,\x7b" else "") ++ hitText hit.1),
        count + (hits r mappings).length,
        valid && mappings.all fun mapping =>
          decide (r.text mapping.1 ≠ "") || !mapping.2.mandatory) := by
  induction mappings generalizing text count valid with
  | nil => simp [hits]
  | cons mapping mappings ih =>
      rw [List.foldl_cons, checkMapping]
      by_cases htext : r.text mapping.1 = ""
      · have hhits : hits r (mapping :: mappings) = hits r mappings := by simp [hits, htext]
        rw [if_neg (not_not.mpr htext), hhits]
        cases hmandatory : mapping.2.mandatory
        · rw [if_neg Bool.false_ne_true, ih]
          simp [htext, hmandatory]
        · rw [if_pos rfl, ih]
          simp [htext, hmandatory]
      · have hhits : hits r (mapping :: mappings) =
            (mapping.2.name, "string", r.text mapping.1) :: hits r mappings := by
          simp [hits, htext]
        rw [if_pos htext, ih, hhits]
        simp [hitText, htext, String.append_assoc, Nat.add_assoc, Nat.add_comm 1]

/-- Behind the first hit there is always a separator. -/
lemma map_zipIdx_of_pos (hits : List Metadata) {count : ℕ} (hcount : 0 < count) :
    (hits.zipIdx count).map (fun hit =>
      (if 0 < hit.2 then "\x7d,\x7b" else "") ++ hitText hit.1) =
    hits.map fun hit => "\x7d,\x7b" ++ hitText hit := by
  induction hits generalizing count with
  | nil => rfl
  | cons hit hits ih =>
      rw [List.zipIdx_cons, List.map_cons, List.map_cons, if_pos hcount, ih (Nat.succ_pos count)]

/-- Braces between the hits, seen from the other side. -/
lemma flatMap_braces {α : Type*} (text : α → List Char) (as : List α) (t : List Char) :
    (as.flatMap fun a => '\x7d' :: ',' :: '\x7b' :: text a) ++ '\x7d' :: t =
      '\x7d' :: ((as.flatMap fun a => ',' :: '\x7b' :: (text a ++ ['\x7d'])) ++ t) := by
  induction as with
  | nil => rfl
  | cons a as ih => simp [ih]

lemma rawObject_members {hit : Metadata} (htype : hit.2.1 = "string") :
    rawObject hit.members = '\x7b' :: ((hitText hit).toList ++ ['\x7d']) := by
  simp [rawObject, Metadata.members, rawString, JsonValue.commas, quoted, hitText, htype]

/-- The value of a module with mappings, as a text. -/
def compoundText (hits : List Metadata) : String :=
  "[" ++ (("\x7b" ++ String.join (hits.zipIdx.map fun hit =>
    (if 0 < hit.2 then "\x7d,\x7b" else "") ++ hitText hit.1)) ++ "\x7d") ++ "]"

lemma toList_compoundText {hit : Metadata} {hits : List Metadata}
    (htype : ∀ h ∈ hit :: hits, h.2.1 = "string") :
    (compoundText (hit :: hits)).toList = rawMetadatas (hit :: hits) := by
  have hflat : hits.flatMap (fun h => ',' :: rawObject h.members) =
      hits.flatMap fun h => ',' :: '\x7b' :: ((hitText h).toList ++ ['\x7d']) :=
    List.flatMap_congr fun h hh => by rw [rawObject_members (htype h (List.mem_cons_of_mem _ hh))]
  rw [compoundText, List.zipIdx_cons, List.map_cons, map_zipIdx_of_pos hits Nat.zero_lt_one,
    rawMetadatas, JsonValue.commas, rawObject_members (htype hit List.mem_cons_self), hflat]
  have hbraces := flatMap_braces (fun h : Metadata => (hitText h).toList) hits [']']
  simp only [String.toList_append, String.toList_join, List.flatMap_cons, List.flatMap_map,
    List.cons_append, List.append_assoc, String.reduceToList, List.nil_append]
  rw [hbraces]
  simp

lemma plain_sleeps_iff : (∀ m ∈ sleeps r, m.Plain) ↔
    PlainText (r.text "sleepcondition") ∧ PlainText (r.text "sleeptime") := by
  have hnames : PlainText "sleepcondition" ∧ PlainText "sleeptime" ∧ PlainText "string" :=
    ⟨plainText_of_all rfl, plainText_of_all rfl, plainText_of_all rfl⟩
  have hone : ∀ name text : String, PlainText name →
      ((∀ m ∈ (if text ≠ "" then [(name, "string", text)] else [] : List Metadata), m.Plain) ↔
        PlainText text) := by
    intro name text hname
    by_cases htext : text = ""
    · rw [if_neg (not_not.mpr htext), htext]
      exact iff_of_true (fun _ hm => absurd hm List.not_mem_nil) plainText_empty
    · rw [if_pos htext, List.forall_mem_singleton]
      exact ⟨fun h => h.2.2, fun h => ⟨hname, hnames.2.2, h⟩⟩
  rw [sleeps, List.forall_mem_append, hone _ _ hnames.1, hone _ _ hnames.2.1]

lemma fair_compound {hits : List Metadata} (htype : ∀ h ∈ hits, h.2.1 = "string") :
    RawMember.Fair ⟨"value", (compoundText hits).toList, compoundDoc hits,
      ∀ hit ∈ hits, hit.Plain⟩ := by
  refine ⟨(plainText_of_all rfl : PlainText "value"), ?_⟩
  cases hits with
  | nil =>
      have hrun : run (.between false) (compoundText []).toList =
          some (.between false, [.lbracket, .lbrace, .rbrace, .rbracket]) := rfl
      exact (means_of_run hrun).congr (by simp) rfl
        (by rw [compoundDoc, toValue, toItems_eq]; simp [toValue, toMembers, JsonValue.tokens,
          JsonValue.restItems])
  | cons hit hits =>
      rw [toList_compoundText htype]
      exact means_rawMetadatas (hit :: hits)

lemma type_of_mem_hits {mappings : List (String × Pair)} :
    ∀ h ∈ hits r mappings, h.2.1 = "string" := by
  intro h hh
  obtain ⟨mapping, -, rfl⟩ := List.mem_map.mp hh
  rfl

/-- The text of a module with mappings. -/
lemma toList_p1b (name : String) (mappings : List (String × Pair)) (cond : Prop) :
    ((TTModules.p1b name mappings).transform r).json.toList =
      rawObject (attributeMembers name "compound" ⟨"value",
        (compoundText (hits r mappings)).toList, compoundDoc (hits r mappings), cond⟩
        (sleeps r)) := by
  have hjson : ((TTModules.p1b name mappings).transform r).json =
      "\x7b\"name\":\"" ++ name ++ "\",\"type\":\"compound\",\"value\":" ++
        compoundText (hits r mappings) ++ doMetadatas r ++ "\x7d" := by
    rw [TTModules.transform, foldl_checkMapping, compoundText]
    apply String.toList_inj.mp
    simp only [String.toList_append, List.append_assoc]
    rfl
  rw [hjson, toList_attribute _ _ _ rfl]
  simp only [String.toList_append, toList_doMetadatas, List.append_assoc]
  rfl

/-- The metadata of a sleep behind others. -/
lemma toList_sleepAndCond :
    (if appendSleepCondTime r ≠ "" then ",\x7b" ++ appendSleepCondTime r ++ "\x7d" else "").toList =
      (sleeps r).flatMap fun m => ',' :: rawObject m.members := by
  have hne : ∀ text tail : String, "\"" ++ text ++ tail ≠ "" := by
    intro text tail h
    have hlist := congrArg String.toList h
    simp at hlist
  rw [appendSleepCondTime, sleeps]
  by_cases hcond : r.text "sleepcondition" = "" <;> by_cases htime : r.text "sleeptime" = ""
  all_goals simp [hcond, htime, quoted, JsonValue.commas, rawObject, Metadata.members, rawString]

/-- The text of a position. -/
lemma toList_gps (refCoordX refCoordY separator metaName metaType metaValue : String)
    (hcoords : r.text refCoordX ≠ "" ∧ r.text refCoordY ≠ "") :
    ((TTModules.gps refCoordX refCoordY separator metaName metaType metaValue).transform
        r).json.toList =
      rawObject (attributeMembers "position" "coords"
        (rawString "value" (r.text refCoordX ++ separator ++ r.text refCoordY))
        ((metaName, metaType, metaValue) :: sleeps r)) := by
  rw [TTModules.transform, if_pos hcoords, toList_attribute _ _ _ rfl]
  simp only [String.toList_append, toList_sleepAndCond, rawMetadatas, JsonValue.commas,
    List.append_assoc]
  simp [rawObject, Metadata.members, rawString, JsonValue.commas, quoted]

/-- **A module that is valid** means its attributes exactly if the texts in them are plain. -/
lemma transform_means {m : TTModules} (hvalid : (m.transform r).bValid = true) :
    Means (∀ s ∈ m.quotedTexts r, PlainText s) (m.transform r).json.toList
        (toValue id (m.doc r)).tokens ∧
      Means (∀ s ∈ m.quotedTexts r, PlainText s) (m.transform r).plainJson.toList
        (toValue id (m.plainDoc r)).tokens := by
  have hstring : PlainText "string" := plainText_of_all rfl
  -- the two modules with one name and one value
  have hsimple : ∀ name : String, (PlainText name ↔ PlainText (r.text "param_1")) →
      r.text "param_1" ≠ "" → r.text "param_2" ≠ "" →
      Means (∀ s ∈ TTModules.gm.quotedTexts r, PlainText s)
        (simpleJson r name (r.text "param_2")).toList
        (toValue id
          (attributeDoc name "string" (.string (r.text "param_2")) (sleeps r))).tokens := by
    intro name hname hfirst hsecond
    have hattribute := means_attribute rfl
      (fair_rawString (plainText_of_all rfl : PlainText "value") (r.text "param_2"))
      name "string" (sleeps r)
    refine hattribute.congr ?_ (toList_simpleJson r hfirst hsecond _ _).symm rfl
    rw [hname, plain_sleeps_iff]
    simp [TTModules.quotedTexts, rawString, hstring]
  cases m with
  | gps refCoordX refCoordY separator metaName metaType metaValue =>
      have hcoords : r.text refCoordX ≠ "" ∧ r.text refCoordY ≠ "" := by
        by_contra hnot
        rw [TTModules.transform, if_neg hnot] at hvalid
        cases hvalid
      have hplain : ((TTModules.gps refCoordX refCoordY separator metaName metaType
          metaValue).transform r).plainJson = ((TTModules.gps refCoordX refCoordY separator
            metaName metaType metaValue).transform r).json := by
        rw [TTModules.transform, if_pos hcoords]
      have hattribute := means_attribute rfl
        (fair_rawString (plainText_of_all rfl : PlainText "value")
          (r.text refCoordX ++ separator ++ r.text refCoordY)) "position" "coords"
        ((metaName, metaType, metaValue) :: sleeps r)
      rw [hplain]
      refine and_self_iff.mpr (hattribute.congr ?_ (toList_gps r _ _ _ _ _ _ hcoords).symm rfl)
      have hposition : PlainText "position" ∧ PlainText "coords" :=
        ⟨plainText_of_all rfl, plainText_of_all rfl⟩
      rw [List.forall_mem_cons, plain_sleeps_iff, Metadata.Plain]
      simp [TTModules.quotedTexts, rawString, plainText_append, hposition, and_assoc]
  | p1b name mappings =>
      have hattribute := @means_attribute ⟨"value", (compoundText (hits r mappings)).toList,
        compoundDoc (hits r mappings), ∀ hit ∈ hits r mappings, hit.Plain⟩ rfl
        (fair_compound (type_of_mem_hits r)) name "compound" (sleeps r)
      refine (and_self_iff).mpr (hattribute.congr ?_ ?_ rfl)
      · have hcompound : PlainText "compound" := plainText_of_all rfl
        have hhits : (∀ hit ∈ hits r mappings, hit.Plain) ↔
            ∀ s ∈ (hits r mappings).flatMap fun hit => [hit.1, hit.2.2], PlainText s := by
          rw [List.forall_mem_flatMap]
          refine forall₂_congr fun hit hhit => ?_
          rw [Metadata.Plain, type_of_mem_hits r hit hhit]
          simp [hstring]
        rw [hhits, plain_sleeps_iff]
        simp [TTModules.quotedTexts, hcompound, or_imp, forall_and]
      · exact (toList_p1b r name mappings _).symm
  | gm =>
      obtain ⟨hfirst, hsecond⟩ := of_decide_eq_true hvalid
      exact and_self_iff.mpr (hsimple _ Iff.rfl hfirst hsecond)
  | gc =>
      obtain ⟨hfirst, hsecond⟩ := of_decide_eq_true hvalid
      have hcurrent : PlainText cbOutgcPrefix := plainText_of_all rfl
      exact ⟨hsimple _ (by rw [plainText_append, and_iff_right hcurrent]) hfirst hsecond,
        hsimple _ Iff.rfl hfirst hsecond⟩

/-- What has to come for a module. -/
def TTModules.Complete : TTModules → Prop
  | gps refCoordX refCoordY _ _ _ _ => r.text refCoordX ≠ "" ∧ r.text refCoordY ≠ ""
  | p1b _ mappings => ∀ mapping ∈ mappings, mapping.2.mandatory = true → r.text mapping.1 ≠ ""
  | gm | gc => r.text "param_1" ≠ "" ∧ r.text "param_2" ≠ ""

lemma bValid_iff (m : TTModules) : (m.transform r).bValid = true ↔ m.Complete r := by
  cases m with
  | gps refCoordX refCoordY separator metaName metaType metaValue =>
      rw [TTModules.transform, TTModules.Complete]
      split
      · next hcoords => exact iff_of_true rfl hcoords
      · next hcoords => exact iff_of_false Bool.false_ne_true hcoords
  | p1b name mappings =>
      have hvalid : ((TTModules.p1b name mappings).transform r).bValid =
          mappings.all fun mapping =>
            decide (r.text mapping.1 ≠ "") || !mapping.2.mandatory := by
        rw [TTModules.transform, foldl_checkMapping]
        exact Bool.true_and _
      rw [hvalid, List.all_eq_true, TTModules.Complete]
      refine forall₂_congr fun mapping _ => ?_
      cases mapping.2.mandatory <;> simp
  | gm => exact decide_eq_true_iff
  | gc => exact decide_eq_true_iff

variable {r}

/-- The postprocessor has a result for a module exactly if what is mandatory has come, and its
text is read as the two attributes that are meant exactly if all texts of the device are plain. -/
theorem execute_reads {modulesMap : List (String × TTModules)} {keyword : String} {m : TTModules}
    (hmodule : r "module" = some keyword) (hm : modulesMap.lookup keyword = some m) :
    ((execute modulesMap r).isSome = true ↔ m.Complete r) ∧
      ∀ text ∈ execute modulesMap r, JsonValue.Reads text.toList
          (toValue id (.object [("processed", m.doc r), ("plain", m.plainDoc r)])) ↔
        ∀ s ∈ m.quotedTexts r, PlainText s := by
  have hexecute : execute modulesMap r = if (m.transform r).bValid then
      some ("\x7b \"processed\" : " ++ (m.transform r).json ++ ",\"plain\" : " ++
        (m.transform r).plainJson ++ "\x7d") else none := by
    rw [execute, hmodule]
    exact congrArg (Option.bind · _) hm
  rw [hexecute, ← bValid_iff]
  by_cases hvalid : (m.transform r).bValid = true
  · rw [if_pos hvalid]
    refine ⟨iff_of_true rfl hvalid, fun text htext => ?_⟩
    obtain rfl := Option.some_inj.mp htext
    have hfirst : run (.between false) "\x7b \"processed\" : ".toList =
        some (.between false, [.lbrace, .string (units "processed".toList), .colon]) := rfl
    have hsecond : run (.between false) ",\"plain\" : ".toList =
        some (.between false, [.comma, .string (units "plain".toList), .colon]) := rfl
    have hclose : run (.between false) "\x7d".toList = some (.between false, [.rbrace]) := rfl
    obtain ⟨hjson, hplain⟩ := transform_means r hvalid
    refine JsonValue.reads_iff_of_means ((((hjson.cons_run hfirst).append
      ((hplain.append_run hclose).cons_run hsecond)).congr and_self_iff ?_ ?_))
    · simp only [String.toList_append, List.append_assoc]
    · rw [toValue, toMembers_eq, JsonValue.tokens_object_eq]
      simp [JsonValue.membersTokens, JsonValue.restMembers]
  · rw [if_neg hvalid]
    exact ⟨iff_of_false Bool.false_ne_true hvalid, fun text htext => absurd htext (by simp)⟩

end Transform

/-- A configuration of a device. -/
def configuration : Result := fun name =>
  [("module", "GC"), ("param_1", "refresh"), ("param_2", "33")].lookup name

theorem execute_reads_configuration : ∃ text, execute defaultTTModules configuration = some text ∧
    JsonValue.Reads text.toList (toValue id (.object
      [("processed", attributeDoc "_TTcurrent_refresh" "string" (.string "33") []),
        ("plain", attributeDoc "refresh" "string" (.string "33") [])])) := by
  obtain ⟨hsome, hreads⟩ := execute_reads
    (show configuration "module" = some "GC" from rfl)
    (show defaultTTModules.lookup "GC" = some .gc from rfl)
  obtain ⟨text, htext⟩ := Option.isSome_iff_exists.mp (hsome.mpr ⟨by decide, by decide⟩)
  refine ⟨text, htext, (hreads text htext).mpr ?_⟩
  have hall : (TTModules.gc.quotedTexts configuration).all
      (fun s => s.toList.all (JsonLexer.Plain ·)) = true := rfl
  exact fun s hs => plainText_of_all (List.all_eq_true.mp hall s hs)

end TT

end IotAgent
