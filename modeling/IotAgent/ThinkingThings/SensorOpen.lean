import IotAgent.Esp.EndlessLoop
import IotAgent.Esp.Chunks
import IotAgent.Lib.RegexSyntax
import IotAgent.Lib.Replacing
import Mathlib.Data.List.Find
import Mathlib.Logic.Function.Basic

/-!
The command that reads the messages of Thinking Things
(`src/thinkingthings/config/sensortt-open.xml`), tag by tag.

A message names its sender and has modules, and a module has a bus, a name and a list of
parameters, among them the time for which the device sleeps, with a condition behind it. The
sensor is a program for the parser: a loop over the modules, and in it one over the parameters
that is left at the letter in front of the next module.

* `parseElement`, `main`: the tags of the sensor;
* `At`: what is left of the input, and the measures, between two tags;
* `executeValue_field`: a text up to its delimiter, or up to the end;
* `executeValue_peek`, `executeConstraint_of_pending`, `executeRead_of_pending`,
  `executeCondition_of_temp`, `executeOption_hash`: what the tags do with them.
-/

namespace IotAgent

namespace Esp

open Regex (bytes)

/-! ### The sensor -/

/-- The attributes of an element. -/
structure Xml where
  name : String := ""
  byteoffset : ℤ := 0
  datasize : ℤ := 0
  datatype : DataType := .unknown
  datacode : DataCode := .unknown
  loop : Bool := false
  valueref : String := ""
  valuestring : Option String := none

/-- The value that a tag gets from its element. -/
def Xml.value (lib : CLib) (x : Xml) : EspAttribute :=
  match x.valuestring with
  | some valuestring => EspAttribute.empty.setValue lib x.name (some (bytes valuestring))
      valuestring.length .string .string
  | none => EspAttribute.empty

/-- `parseElement`. -/
def parseElement (lib : CLib) (kind : Kind) (x : Xml) : Head where
  kind := kind
  name := x.name
  byteoffset := x.byteoffset
  datasize :=
    match x.valuestring with
    | some _ => (x.value lib).datasize
    | none => if x.datasize = 0 then x.byteoffset else x.datasize
  datatype := x.datatype
  datacode := x.datacode
  value := x.value lib
  loop := x.loop
  valueref := x.valueref

namespace SensorOpen

section Tags

variable (lib : CLib)

/-- A tag that reads a text up to a delimiter. -/
def fieldHead (name delimiter : String) (resetend : Bool) : Head :=
  parseElement lib (.value "" resetend)
    { name, datatype := .string, datacode := .stringdelim, valuestring := some delimiter }

def constraintHead (valuestring : String) : Head :=
  parseElement lib .constraint { datatype := .string, valuestring := some valuestring }

/-- The tag that looks at the next letter. -/
def peekHead : Head :=
  parseElement lib (.value "" true)
    { name := "_temp", byteoffset := 1, datasize := 1, datatype := .string, datacode := .string }

def loopHead (iter niter : ℤ) : Head :=
  parseElement lib (.loop (-1) true iter niter) {}

/-- The switch; `value` is what it has looked at last. -/
def switchHead (evaluated : Bool) (value : EspAttribute) : Head :=
  { parseElement lib (.switch evaluated) { valueref := "_temp" } with value := value }

def conditionHead (operation : String) : Head :=
  parseElement lib (.condition operation) { valueref := "_temp", valuestring := some "$" }

/-- The option for the letter in front of a module. -/
def hashOption : Tag :=
  (parseElement lib .option { valuestring := some "#" }).tag
    [(parseElement lib .read { byteoffset := 1 }).tag [], (parseElement lib .break {}).tag []]

/-- The option for everything else. -/
def itemOption : Tag :=
  (parseElement lib .option {}).tag
    [(fieldHead lib "_temp" "," true).tag [],
      (conditionHead lib "notcontains").tag [(fieldHead lib "param_$" "," false).tag []],
      (conditionHead lib "contains").tag
        [(fieldHead lib "sleeptime" "$" false).tag [],
          (fieldHead lib "sleepcondition" "," false).tag []]]

/-- What the loop over the parameters repeats. -/
def itemTags (value : EspAttribute) : List Tag :=
  [(peekHead lib).tag [],
    (switchHead lib false value).tag [hashOption lib, itemOption lib]]

/-- What the loop over the modules repeats. -/
def moduleTags (value : EspAttribute) : List Tag :=
  [(fieldHead lib "busid" "," false).tag [], (fieldHead lib "module" "," false).tag [],
    (loopHead lib (-1) 0).tag (itemTags lib value),
    (parseElement lib (.result false) {}).tag [], (parseElement lib .clear {}).tag []]

def bodyTags : List Tag :=
  [(constraintHead lib "cadena=#").tag [], (fieldHead lib "request" "," false).tag [],
    (constraintHead lib "#").tag [], (parseElement lib (.result false) {}).tag [],
    (parseElement lib .clear {}).tag [],
    (loopHead lib (-1) 0).tag (moduleTags lib EspAttribute.empty),
    (parseElement lib .close {}).tag []]

/-- The command `main`. -/
def main : Command where
  index := .header
  header := (parseElement lib .header {}).tag []
  body := (parseElement lib .body {}).tag (bodyTags lib)
  footer := (parseElement lib .footer {}).tag []

end Tags

/-! ### Fields -/

/-- The measure of a text that has been read; an empty text leaves it without a value. -/
def measure (name : String) (field : List UInt8) (datacode : DataCode) : EspAttribute :=
  if field = [] then ⟨name, none, 0, .unknown, .unknown⟩
  else ⟨name, some field, field.length, .string, datacode⟩

variable {lib : CLib} {c c' : Context} {field rest : List UInt8} {d : UInt8}
  {f : String → Option EspAttribute}

lemma fitTo_of_length {field : List UInt8} : fitTo field.length field = field := by
  rw [fitTo, List.take_left]

lemma setValue_field (name : String) (hfield : field ≠ []) (rest : List UInt8)
    (datacode : DataCode) : EspAttribute.empty.setValue lib name (some (field ++ rest))
      field.length .string datacode = measure name field datacode := by
  rw [measure, if_neg hfield, EspAttribute.setValue]
  simp only [EspAttribute.decode, List.take_left, fitTo_of_length]

/-- A context between two tags: what is left of its input, and the measures. -/
structure At (c : Context) (rest : List UInt8) (f : String → Option EspAttribute) : Prop where
  within : c.Within
  pending : c.pending = rest
  temp : ∀ name, c.temp.lookup name = f name
  named : ∀ a ∈ c.temp, a.2.name = a.1 ∧ (a.1.startsWith "_" = true → a.1 = "_temp")

lemma At.available (h : At c rest f) : c.getAvailableInputData = rest.length := by
  have hle : c.indexEnd ≤ c.input.length := h.within
  have hlength := congrArg List.length h.pending
  rw [Context.pending, List.length_drop] at hlength
  rw [Context.getAvailableInputData]
  omega

/-- The read index moves over a part of the input. -/
lemma At.move (h : At c (field ++ rest) f) :
    At { c with indexEnd := c.indexEnd + field.length } rest f where
  within := by
    have hle : c.indexEnd ≤ c.input.length := h.within
    have hlength := congrArg List.length h.pending
    rw [Context.pending, List.length_drop, List.length_append] at hlength
    show c.indexEnd + field.length ≤ c.input.length
    omega
  pending := by
    have hpending := h.pending
    rw [Context.pending] at hpending
    show c.input.drop (c.indexEnd + field.length) = rest
    rw [← List.drop_drop, hpending, List.drop_left]
  temp := h.temp
  named := h.named

lemma At.saved (h : At c rest f) (n : ℕ) : At { c with indexEndSaved := n } rest f :=
  ⟨h.within, h.pending, h.temp, h.named⟩

lemma lookup_pair (name name' : String) (attr : EspAttribute) (attributes : Attributes) :
    List.lookup name' ((name, attr) :: attributes) =
      if name' = name then some attr else attributes.lookup name' := by
  rw [List.lookup_cons]
  by_cases h : name' = name
  · rw [if_pos h, beq_iff_eq.mpr h]
  · rw [if_neg h, beq_eq_false_iff_ne.mpr h]

lemma lookup_setAttribute (name : String) (attr : EspAttribute) (attributes : Attributes)
    (name' : String) : (setAttribute name attr attributes).lookup name' =
      if name' = name then some attr else attributes.lookup name' := by
  induction attributes with
  | nil => exact lookup_pair ..
  | cons a attributes ih =>
      obtain ⟨key, value⟩ := a
      rw [setAttribute, lookup_pair key]
      dsimp only
      by_cases hkey : name = key
      · rw [if_pos hkey, lookup_pair]
        split_ifs with h h' <;> simp_all
      · rw [if_neg hkey]
        by_cases hlt : name < key
        · rw [if_pos hlt, lookup_pair, lookup_pair]
        · rw [if_neg hlt, lookup_pair, ih]
          split_ifs with h h' <;> simp_all

lemma mem_setAttribute {name : String} {attr : EspAttribute} {attributes : Attributes}
    {a : String × EspAttribute} (h : a ∈ setAttribute name attr attributes) :
    a = (name, attr) ∨ a ∈ attributes := by
  induction attributes with
  | nil => exact .inl (List.mem_singleton.mp h)
  | cons b attributes ih =>
      rw [setAttribute] at h
      split_ifs at h
      · exact (List.mem_cons.mp h).imp_right (List.mem_cons_of_mem _)
      · exact (List.mem_cons.mp h)
      · rcases List.mem_cons.mp h with h | h
        · exact .inr (h ▸ List.mem_cons_self)
        · exact (ih h).imp_right (List.mem_cons_of_mem _)

/-- A measure that may be stored: its name has an underscore in front only if it is `_temp`. -/
def Visible (name : String) : Prop :=
  name.startsWith "_" = true → name = "_temp"

lemma At.set (h : At c rest f) {name : String} {attr : EspAttribute} (hattr : attr.name = name)
    (hname : Visible name) : At { c with temp := setAttribute name attr c.temp } rest
      (Function.update f name (some attr)) where
  within := h.within
  pending := h.pending
  temp name' := by
    rw [lookup_setAttribute, h.temp, Function.update_apply]
  named a ha := by
    rcases mem_setAttribute ha with rfl | ha
    · exact ⟨hattr, hname⟩
    · exact h.named a ha

/-- The search for a letter in what is left of the input. -/
lemma At.searchAttributeValue {data : List UInt8} (h : At c data f) {attr : EspAttribute}
    (hvalue : attr.value = some [d]) (hsize : attr.datasize = 1) :
    c.searchAttributeValue attr =
      ((List.range data.length).find? fun j => (data.drop j).take 1 == [d]).map
        fun j : ℕ => (j : ℤ) := by
  have hle : c.indexEnd ≤ c.input.length := h.within
  have havail := h.available
  rw [Context.getAvailableInputData] at havail
  have hrange : (do let a ← List.range (c.getAvailableInputData - 0).toNat; pure (a : ℤ)) =
      (List.range data.length).map fun a : ℕ => (a : ℤ) := by
    rw [List.map_eq_flatMap, Int.sub_zero, h.available, Int.toNat_natCast]
    rfl
  rw [Context.searchAttributeValue, Context.searchAttributeValueInRange, hvalue, hsize,
    Option.getD_some, hrange, List.find?_map, List.find?_map, Option.map_map]
  have hmap : (fun i : ℤ => 0 + i) ∘ (fun j : ℕ => (j : ℤ)) = fun j : ℕ => (j : ℤ) :=
    funext fun j => Int.zero_add _
  rw [hmap]
  congr 1
  refine List.find?_congr fun j hj => ?_
  rw [List.mem_range] at hj
  have hindex : (c.indexEnd + (0 + (j : ℤ))).toNat = c.indexEnd + j := by omega
  have hletter : (c.input.drop (c.indexEnd + j)).take 1 = (data.drop j).take 1 := by
    rw [← List.drop_drop]
    exact congrArg (fun l => (l.drop j).take 1) h.pending
  simp only [Function.comp_apply, hindex, hletter]
  rw [decide_eq_true (by omega), decide_eq_true (by push_cast; omega)]
  simp

lemma take_drop_ne (hfield : d ∉ field) {j : ℕ} (hj : j < field.length) (rest : List UInt8) :
    ((field ++ rest).drop j).take 1 ≠ [d] := by
  rw [List.drop_append_of_le_length hj.le, List.drop_eq_getElem_cons hj]
  intro heq
  rw [List.cons_append, List.take_succ_cons, List.take_zero, List.singleton_inj] at heq
  exact hfield (heq ▸ List.getElem_mem hj)

/-- What stands behind a text: a delimiter, or nothing at all. -/
def Stops (d : UInt8) (stop rest : List UInt8) : Prop :=
  stop = d :: rest ∨ stop = [] ∧ rest = []

/-- The first place of a letter in the input, if it is there. -/
lemma At.search {stop : List UInt8} (h : At c (field ++ stop) f) (hfield : d ∉ field)
    (hstop : Stops d stop rest) {attr : EspAttribute} (hvalue : attr.value = some [d])
    (hsize : attr.datasize = 1) :
    c.searchAttributeValue attr = if stop = [] then none else some (field.length : ℤ) := by
  rw [h.searchAttributeValue hvalue hsize]
  rcases hstop with rfl | ⟨rfl, -⟩
  · rw [if_neg (List.cons_ne_nil _ _), Option.map_eq_some_iff]
    refine ⟨field.length, List.find?_range_eq_some.mpr ⟨?_, ?_, ?_⟩, rfl⟩
    · rw [List.drop_left]
      exact beq_self_eq_true _
    · rw [List.mem_range, List.length_append, List.length_cons]
      omega
    · exact fun j hj => by simp [take_drop_ne hfield hj]
  · rw [if_pos rfl, Option.map_eq_none_iff, List.find?_eq_none]
    intro j hj
    rw [List.append_nil, List.mem_range] at hj
    simpa using take_drop_ne hfield hj []

/-- Nothing is read of an empty part. -/
lemma At.readPInputData (h : At c (field ++ rest) f) :
    c.readPInputData field.length = (if field = [] then none else some (field ++ rest),
      { c with indexEnd := c.indexEnd + field.length }) := by
  by_cases hnil : field = []
  · subst hnil
    exact if_neg fun hpos => absurd hpos.1 (lt_irrefl _)
  · have hpos : (0 : ℤ) < field.length := Int.natCast_pos.mpr (List.length_pos_iff.mpr hnil)
    rw [readPInputData_of_available hpos (by rw [h.available, List.length_append]; omega),
      h.pending, if_neg hnil]
    rfl

/-- The tags that read a text up to the letter `d`. -/
structure Delimited (h : Head) (d : UInt8) : Prop where
  valueref : h.valueref = ""
  datatype : h.datatype = .string
  datacode : h.datacode = .stringdelim
  value : h.value.value = some [d]
  datasize : h.value.datasize = 1

variable (lib) in
/-- A text up to its delimiter is read, or one up to the end. -/
lemma readValue_field {h : Head} {stop : List UInt8} (hd : Delimited h d)
    (hat : At c (field ++ stop) f) (hfield : d ∉ field) (hstop : Stops d stop rest) :
    ∃ n, readValue lib "" h c = some ⟨if field = [] then none else some (field ++ stop),
        field.length, dataread (if field = [] then none else some (field ++ stop)),
        { c with indexEnd := n }, h⟩ ∧ At { c with indexEnd := n } rest f := by
  have hfirst := hat.readPInputData
  have hsearch := hat.search hfield hstop hd.value hd.datasize
  rw [readValue, if_neg (not_not_intro hd.valueref), if_pos hd.datacode, hsearch]
  rcases hstop with rfl | ⟨rfl, rfl⟩
  · have hat₁ : At { c with indexEnd := c.indexEnd + field.length } ([d] ++ rest) f := hat.move
    have hsecond := hat₁.readPInputData
    rw [List.length_singleton] at hsecond
    refine ⟨_, ?_, hat₁.move⟩
    rw [if_neg (List.cons_ne_nil _ _), hd.datasize]
    dsimp only
    rw [if_neg one_ne_zero, hfirst]
    dsimp only
    rw [hsecond]
    rfl
  · refine ⟨_, ?_, hat.move⟩
    rw [if_pos rfl]
    dsimp only
    rw [hat.available, List.append_nil] at *
    rw [hfirst]

variable (lib) in
/-- A text up to its delimiter is a measure. -/
lemma executeValue_field {h : Head} {resetend : Bool} {parents : List Head} {name : String}
    {stop : List UInt8} (hd : Delimited h d) (hat : At c (field ++ stop) f) (hfield : d ∉ field)
    (hstop : Stops d stop rest) (hname : finalName h.name parents = name)
    (hvisible : Visible name) :
    ∃ c', executeValue lib "" resetend h ⟨c, parents⟩ =
        some ⟨.ok, h, ⟨c', parents⟩, false⟩ ∧
      At c' (if resetend then field ++ stop else rest)
        (Function.update f name (some (measure name field .stringdelim))) ∧
      c'.results = c.results := by
  have hat₁ : At c.saveIndex (field ++ stop) f := hat.saved _
  obtain ⟨n, hread, hat₂⟩ := readValue_field lib hd hat₁ hfield hstop
  have hmeasure : EspAttribute.empty.setValue lib name
      (if field = [] then none else some (field ++ stop)) (field.length : ℤ).toNat h.datatype
      h.datacode = measure name field .stringdelim := by
    rw [hd.datatype, hd.datacode]
    by_cases hnil : field = []
    · rw [if_pos hnil, measure, if_pos hnil]
      rfl
    · rw [if_neg hnil, Int.toNat_natCast]
      exact setValue_field name hnil _ _
  have hdataread : ∀ result : Option (List UInt8), 0 ≤ dataread result := by
    intro result
    rw [dataread]
    split <;> decide
  have hmeasured : (measure name field .stringdelim).name = name := by
    rw [measure]
    split <;> rfl
  rw [executeValue, hread, Option.map_some]
  dsimp only
  rw [if_pos (hdataread _), hname, hmeasure]
  refine ⟨_, rfl, ?_, by cases resetend <;> rfl⟩
  cases resetend
  · exact hat₂.set hmeasured hvisible
  · exact hat₁.set hmeasured hvisible

/-! ### The tags -/

/-- `','`. -/
def comma : UInt8 := 0x2C

/-- `'$'`. -/
def dollar : UInt8 := 0x24

/-- `'#'`. -/
def hash : UInt8 := 0x23

section Tags

variable (lib) {parents : List Head} {b : UInt8}

lemma delimited_comma (name : String) (resetend : Bool) :
    Delimited (fieldHead lib name "," resetend) comma :=
  ⟨rfl, rfl, rfl, rfl, rfl⟩

lemma delimited_dollar (name : String) (resetend : Bool) :
    Delimited (fieldHead lib name "$" resetend) dollar :=
  ⟨rfl, rfl, rfl, rfl, rfl⟩

lemma dollar_eq : "$" = String.singleton '$' := rfl

lemma finalName_of_notMem {name : String} (hname : '$' ∉ name.toList) (parents : List Head) :
    finalName name parents = name := by
  rw [finalName]
  split
  · rw [dollar_eq, Replacing.replace_singleton_of_notMem hname]
  · rfl

/-- The name of the parameter that is read in a round of the loop. -/
def paramName (k : ℕ) : String := "param_" ++ toString (k : ℤ)

lemma finalName_param {k : ℕ} (h : loopCount parents = some (k : ℤ)) :
    finalName "param_$" parents = paramName k := by
  rw [finalName, h, dollar_eq]
  apply String.toList_inj.mp
  rw [Replacing.toList_replace_singleton]
  simp [paramName, Replacing.image]

lemma visible_of_head {name : String} (hname : name.toList.head? ≠ some '_') : Visible name := by
  intro h
  rw [String.startsWith_string_iff] at h
  obtain ⟨t, ht⟩ := h
  rw [← ht] at hname
  exact absurd rfl hname

lemma visible_temp : Visible "_temp" := fun _ => rfl

lemma visible_param (k : ℕ) : Visible (paramName k) :=
  visible_of_head (by simp [paramName])

/-- The next letter is looked at. -/
lemma executeValue_peek (hat : At c (b :: rest) f) (parents : List Head) :
    ∃ c', executeHead lib (peekHead lib) ⟨c, parents⟩ =
        some ⟨.ok, peekHead lib, ⟨c', parents⟩, false⟩ ∧
      At c' (b :: rest) (Function.update f "_temp" (some (measure "_temp" [b] .string))) ∧
      c'.results = c.results := by
  have havail : (peekHead lib).datasize ≤ c.getAvailableInputData := by
    rw [hat.available]
    exact Int.ofNat_le.mpr (Nat.succ_le_succ (Nat.zero_le _))
  have hexec : executeHead lib (peekHead lib) ⟨c, parents⟩ = some _ :=
    executeValue_of_available le_rfl rfl (fun h => by cases h) havail
  have hname : finalName "_temp" parents = "_temp" := finalName_of_notMem (by decide) parents
  have hvalue : EspAttribute.empty.setValue lib "_temp" (some c.pending) 1 .string .string =
      measure "_temp" [b] .string := by
    rw [hat.pending]
    exact setValue_field "_temp" (List.cons_ne_nil b []) rest _
  refine ⟨_, hexec, ?_, rfl⟩
  have hset := (hat.saved c.indexEnd).set
    (show (measure "_temp" [b] .string).name = "_temp" from rfl) visible_temp
  rw [← hvalue] at hset ⊢
  rw [show (peekHead lib).name = "_temp" from rfl, hname]
  exact hset

lemma value_of_valuestring (x : Xml) {valuestring : String}
    (hx : x.valuestring = some valuestring) : x.value lib = ⟨x.name, some (bytes valuestring),
      (bytes valuestring).length, .string, .string⟩ := by
  have hlength : valuestring.length = (bytes valuestring).length := (List.length_map _).symm
  rw [Xml.value, hx]
  simp only [hlength, EspAttribute.setValue, EspAttribute.decode, List.take_length, fitTo_of_length]

lemma sign_self {α : Type*} [Preorder α] [DecidableRel fun a b : α => a < b] (a : α) :
    EspAttribute.sign a a = 0 := by
  rw [EspAttribute.sign, if_neg (lt_irrefl a), if_neg (lt_irrefl a)]

/-- A text that has to stand there. -/
lemma executeConstraint_of_pending {valuestring : String} (hne : bytes valuestring ≠ [])
    (hat : At c (bytes valuestring ++ rest) f) (parents : List Head) :
    ∃ c', executeHead lib (constraintHead lib valuestring) ⟨c, parents⟩ =
        some ⟨.ok, constraintHead lib valuestring, ⟨c', parents⟩, false⟩ ∧
      At c' rest f ∧ c'.results = c.results := by
  have hvalue : (constraintHead lib valuestring).value = _ :=
    value_of_valuestring lib { datatype := .string, valuestring := some valuestring } rfl
  have hsize : (constraintHead lib valuestring).datasize = (bytes valuestring).length := by
    show ((constraintHead lib valuestring).value.datasize : ℤ) = _
    rw [hvalue]
  have hpos : 0 < (bytes valuestring).length := List.length_pos_iff.mpr hne
  have hexec : executeConstraint lib (constraintHead lib valuestring) ⟨c, parents⟩ = _ :=
    executeConstraint_of_available (by rw [hsize]; omega)
      (by rw [hsize, hat.available, List.length_append]; omega)
  refine ⟨_, congrArg some (hexec.trans ?_), hat.move, rfl⟩
  have hcompare : EspAttribute.compareValue lib (some (constraintHead lib valuestring).value)
      (some (EspAttribute.empty.setValue lib (constraintHead lib valuestring).name (some c.pending)
        (constraintHead lib valuestring).datasize.toNat (constraintHead lib valuestring).datatype
        (constraintHead lib valuestring).datacode)) = 0 := by
    rw [hsize, hat.pending, Int.toNat_natCast, hvalue,
      show (constraintHead lib valuestring).datatype = .string from rfl, setValue_field _ hne,
      measure, if_neg hne]
    exact sign_self _
  rw [if_pos hcompare, hsize, Int.toNat_natCast]

/-- One letter is skipped. -/
lemma executeRead_of_pending (hat : At c (b :: rest) f) (parents : List Head) :
    ∃ c', executeHead lib (parseElement lib .read { byteoffset := 1 }) ⟨c, parents⟩ =
        some ⟨.ok, parseElement lib .read { byteoffset := 1 }, ⟨c', parents⟩, false⟩ ∧
      At c' rest f ∧ c'.results = c.results := by
  have hat₁ : At c ([b] ++ rest) f := hat
  have hread := hat₁.readPInputData
  rw [if_neg (List.cons_ne_nil b []), List.length_singleton] at hread
  refine ⟨_, congrArg some ?_, hat₁.move, rfl⟩
  rw [executeRead, show (parseElement lib .read { byteoffset := 1 }).datasize = ((1 : ℕ) : ℤ)
    from rfl, hread]
  rfl

lemma getValueAsString_measure (name : String) (field : List UInt8) (datacode : DataCode) :
    (measure name field datacode).getValueAsString lib = textOfBytes field := by
  rw [measure]
  split
  · next hnil =>
      rw [hnil]
      rfl
  · rfl

lemma contains_dollar_iff {text : String} : contains text "$" = true ↔ '$' ∈ text.toList := by
  have hlist : "$".toList = ['$'] := rfl
  rw [contains, hlist, List.any_eq_true]
  constructor
  · rintro ⟨i, -, hi⟩
    obtain ⟨t, ht⟩ := List.isPrefixOf_iff_prefix.mp hi
    exact List.mem_of_mem_drop (i := i) (by rw [← ht]; exact List.mem_cons_self)
  · intro hmem
    obtain ⟨t, t', ht⟩ := List.append_of_mem hmem
    refine ⟨t.length, ?_, ?_⟩
    · rw [List.mem_range, ← String.length_toList, ht, List.length_append]
      omega
    · rw [ht, List.drop_left]
      exact List.isPrefixOf_iff_prefix.mpr ⟨t', rfl⟩

lemma dollar_mem_textOfBytes : '$' ∈ (textOfBytes field).toList ↔ dollar ∈ field := by
  have hletter : ∀ b : UInt8, Char.ofNat b.toNat = '$' ↔ b = dollar := by
    intro b
    have hvalid : b.toNat.isValidChar := Or.inl (by have := b.toNat_lt; omega)
    constructor
    · intro h
      have hnat := congrArg Char.toNat h
      rw [Char.ofNat, dif_pos hvalid] at hnat
      exact UInt8.toNat_inj.mp hnat
    · rintro rfl
      rfl
  rw [textOfBytes, String.toList_ofList, List.mem_map]
  constructor
  · rintro ⟨b, hb, h⟩
    exact (hletter b).mp h ▸ hb
  · exact fun h => ⟨dollar, h, rfl⟩

lemma At.search_temp (hat : At c rest f) (name : String) :
    searchAttributeRefByName c name = f name :=
  hat.temp name

/-- A condition looks for a dollar in what was looked at last. -/
lemma executeCondition_of_temp (hat : At c rest f) {m : EspAttribute}
    (htemp : f "_temp" = some m) (hm : m.getValueAsString lib = textOfBytes field)
    (operation : String) (parents : List Head) (hoperation : operation ≠ "" ∧
      operation ≠ "equal" ∧ operation ≠ "notequal" ∧ operation ≠ "default") :
    executeHead lib (conditionHead lib operation) ⟨c, parents⟩ =
      some ⟨.ok, conditionHead lib operation, ⟨c, parents⟩,
        !decide ((operation = "notcontains" ∧ dollar ∉ field) ∨
          (operation = "contains" ∧ dollar ∈ field))⟩ := by
  obtain ⟨hempty, hequal, hnot, hdefault⟩ := hoperation
  have hsearch := (hat.search_temp "_temp").trans htemp
  have hvalue : ((conditionHead lib operation).value).getValueAsString lib = "$" := rfl
  have hcontains : contains (textOfBytes field) "$" = decide (dollar ∈ field) := by
    rw [Bool.eq_iff_iff, contains_dollar_iff, dollar_mem_textOfBytes, decide_eq_true_iff]
  refine congrArg some ?_
  rw [executeCondition, show (conditionHead lib operation).valueref = "_temp" from rfl, hsearch]
  simp only [hm, hvalue, hcontains]
  simp [hempty, hequal, hnot, hdefault]

lemma sign_singleton_eq_zero_iff {m n : ℕ} : EspAttribute.sign [m] [n] = 0 ↔ m = n := by
  rw [EspAttribute.sign]
  constructor
  · intro h
    by_contra hne
    rcases Nat.lt_or_gt_of_ne hne with hlt | hlt
    · rw [if_pos (List.cons_lt_cons_iff.mpr (.inl hlt))] at h
      cases h
    · have hlists : [n] < [m] := List.cons_lt_cons_iff.mpr (.inl hlt)
      rw [if_neg (lt_asymm hlists), if_pos hlists] at h
      cases h
  · rintro rfl
    exact sign_self _

/-- The option for the letter in front of a module. -/
lemma executeOption_hash (hat : At c rest f)
    (htemp : f "_temp" = some (measure "_temp" [b] .string)) (parents : List Head)
    (value : EspAttribute) :
    executeHead lib (hashOption lib).head ⟨c, switchHead lib false value :: parents⟩ =
      some ⟨.ok, (hashOption lib).head,
        ⟨c, switchHead lib (decide (b = hash)) value :: parents⟩, !decide (b = hash)⟩ := by
  have hsearch := (hat.search_temp "_temp").trans htemp
  have hcompare : EspAttribute.compareValue lib (some (measure "_temp" [b] .string))
      (some (hashOption lib).head.value) = 0 ↔ b = hash := by
    rw [← UInt8.toNat_inj]
    exact sign_singleton_eq_zero_iff
  have hsize : (hashOption lib).head.value.datasize ≠ 0 := one_ne_zero
  refine congrArg some ?_
  rw [executeOption]
  dsimp only [switchHead, parseElement]
  rw [hsearch]
  by_cases hb : b = hash
  · rw [if_pos ⟨.inl (hcompare.mpr hb), rfl⟩]
    simp [hb]
  · rw [if_neg (fun h => h.1.elim (fun h => hb (hcompare.mp h)) hsize)]
    simp [hb]

/-- The option for everything else. -/
lemma executeOption_item (c : Context) (evaluated : Bool) (value : EspAttribute)
    (parents : List Head) :
    executeHead lib (itemOption lib).head ⟨c, switchHead lib evaluated value :: parents⟩ =
      some ⟨.ok, (itemOption lib).head, ⟨c, switchHead lib true value :: parents⟩,
        evaluated⟩ := by
  refine congrArg some ?_
  rw [executeOption]
  dsimp only [switchHead, parseElement]
  cases evaluated
  · exact if_pos ⟨.inr rfl, rfl⟩
  · exact if_neg fun h => absurd h.2 (by decide)

end Tags

end SensorOpen

end Esp

end IotAgent
