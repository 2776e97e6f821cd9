import IotAgent.ThinkingThings.SensorOpen

/-!
What the command for Thinking Things makes of a message: one result with the sender, and one for
every module.

* `Item`, `Module`, `Message`: what a message says, and its text;
* `runs_hash`, `runs_of_item`: one round of the loop over the parameters;
* `repeats_items`, `repeats_modules`: the two loops;
* `main_reads`: what the command makes of a message.
-/

namespace IotAgent

namespace Esp

namespace SensorOpen

open Regex (bytes)

/-! ### Messages -/

/-- A parameter, or the time for which the device sleeps and its condition. -/
inductive Item
  | param (text : List UInt8)
  | sleep (time condition : List UInt8)

namespace Item

def text : Item → List UInt8
  | param text => text
  | sleep time condition => time ++ dollar :: condition

/-- The texts of an item have no delimiters in them, and do not look like the next module. -/
def Ok : Item → Prop
  | param text => comma ∉ text ∧ dollar ∉ text ∧ text.head? ≠ some hash
  | sleep time condition => comma ∉ time ∧ dollar ∉ time ∧ time.head? ≠ some hash ∧
      comma ∉ condition

instance instDecidableOk : (item : Item) → Decidable item.Ok
  | param text =>
      inferInstanceAs (Decidable (comma ∉ text ∧ dollar ∉ text ∧ text.head? ≠ some hash))
  | sleep time condition =>
      inferInstanceAs (Decidable (comma ∉ time ∧ dollar ∉ time ∧ time.head? ≠ some hash ∧
        comma ∉ condition))

/-- What is read of an item, in the round `k`. -/
def texts (k : ℕ) (f : String → Option String) : Item → String → Option String
  | param text => Function.update f (paramName k) (some (textOfBytes text))
  | sleep time condition =>
      Function.update (Function.update f "sleeptime" (some (textOfBytes time)))
        "sleepcondition" (some (textOfBytes condition))

/-- The text of a list of items; behind the last one there may be no comma. -/
def allText (closed : Bool) : List Item → List UInt8
  | [] => []
  | [item] => item.text ++ if closed then [comma] else []
  | item :: items => item.text ++ comma :: allText closed items

/-- What is read of a list of items; `k` is the round of the first one. -/
def allTexts : ℕ → (String → Option String) → List Item → String → Option String
  | _, f, [] => f
  | k, f, item :: items => allTexts (k + 1) (item.texts k f) items

end Item

/-- A module of a message; `closed` if there is a comma behind its last parameter. -/
structure Module where
  bus : List UInt8
  name : List UInt8
  items : List Item
  closed : Bool

namespace Module

def text (m : Module) : List UInt8 :=
  m.bus ++ comma :: (m.name ++ comma :: Item.allText m.closed m.items)

def Ok (m : Module) : Prop :=
  comma ∉ m.bus ∧ comma ∉ m.name ∧ ∀ item ∈ m.items, item.Ok

instance instDecidableOk (m : Module) : Decidable m.Ok :=
  inferInstanceAs (Decidable (_ ∧ _ ∧ _))

/-- What is read of a module. -/
def texts (m : Module) : String → Option String :=
  Item.allTexts 1 (Function.update (Function.update (fun _ => none) "busid"
    (some (textOfBytes m.bus))) "module" (some (textOfBytes m.name))) m.items

/-- The modules behind a letter for each of them. -/
def allText : List Module → List UInt8
  | [] => []
  | m :: modules => hash :: (m.text ++ allText modules)

/-- Only at the end of the message may a comma be left out, behind something. -/
def AllOk : List Module → Prop
  | [] => True
  | m :: modules => m.Ok ∧ (m.closed = false → modules = [] ∧
      ∀ item ∈ m.items.getLast?, item.text ≠ []) ∧ AllOk modules

instance instDecidableAllOk : (modules : List Module) → Decidable (AllOk modules)
  | [] => .isTrue trivial
  | m :: modules =>
      have := instDecidableAllOk modules
      have : Decidable (modules = []) := decidable_of_iff _ List.isEmpty_iff
      inferInstanceAs (Decidable (m.Ok ∧ (m.closed = false → modules = [] ∧
        ∀ item ∈ m.items.getLast?, item.text ≠ []) ∧ AllOk modules))

end Module

/-- A message, with the sender in front. -/
structure Message where
  request : List UInt8
  modules : List Module

namespace Message

def text (m : Message) : List UInt8 :=
  bytes "cadena=#" ++ (m.request ++ comma :: Module.allText m.modules)

structure Ok (m : Message) : Prop where
  request : comma ∉ m.request
  modules : m.modules ≠ []
  all : Module.AllOk m.modules

end Message

/-! ### A round of the loop over the parameters -/

variable {lib : CLib} {c c' : Context} {rest stop field : List UInt8} {d : UInt8}
  {f : String → Option EspAttribute} {parents : List Head} {t t' : Tag}

section Rounds

variable {b : UInt8} {k : ℕ} {iter : ℤ} {P : Context → Prop} {value : EspAttribute}

/-- What the switch is between. -/
def options (lib : CLib) : List Tag := [hashOption lib, itemOption lib]

/-- The next letter is looked at, and then there is one of two options. -/
lemma runs_round (hat : At c (b :: rest) f)
    (hoptions : ∀ c₁ value, At c₁ (b :: rest)
      (Function.update f "_temp" (some (measure "_temp" [b] .string))) → c₁.results = c.results →
      ∃ c₂ ts, RunsNext (execute lib) (options lib)
          ⟨c₁, switchHead lib false value :: loopHead lib (-1) k :: parents⟩
          (.ok, ts, ⟨c₂, switchHead lib true value :: loopHead lib iter k :: parents⟩) ∧
        Tag.resetAll ts = options lib ∧ P c₂) (value : EspAttribute) :
    ∃ c₂ value' ts, RunsNext (execute lib) (itemTags lib value)
        ⟨c, loopHead lib (-1) k :: parents⟩
        (.ok, ts, ⟨c₂, loopHead lib iter k :: parents⟩) ∧
      Tag.resetAll ts = itemTags lib value' ∧ P c₂ := by
  obtain ⟨c₁, hpeek, hat₁, hresults⟩ :=
    executeValue_peek lib hat (loopHead lib (-1) k :: parents)
  have hsearch := (hat₁.search_temp "_temp").trans (Function.update_self ..)
  set value' := measure "_temp" [b] .string
  obtain ⟨c₂, ts, hrun, hreset, hP⟩ := hoptions c₁ value' hat₁ hresults
  have hswitch : executeHead lib (switchHead lib false value)
      ⟨c₁, loopHead lib (-1) k :: parents⟩ =
        some ⟨.ok, switchHead lib false value', ⟨c₁, loopHead lib (-1) k :: parents⟩, false⟩ := by
    refine congrArg some ?_
    rw [updateRef, show (switchHead lib false value).valueref = "_temp" from rfl,
      if_pos (by decide : "_temp" ≠ ""), hsearch]
    rfl
  refine ⟨c₂, value', _, runsNext_cons rfl (runs_leaf hpeek trivial) rfl
    (runsNext_cons rfl (runs_tag hswitch trivial hrun) rfl
      (runsNext_of_parsed rfl)), ?_, hP⟩
  show [_, Tag.node _ false false (Tag.resetAll ts)] = _
  rw [hreset]
  rfl

variable (lib parents) in
/-- The letter in front of a module is skipped, and ends the loop. -/
lemma runs_hash (hat : At c (hash :: rest) f) (value : EspAttribute) :
    ∃ c₂ value' ts, RunsNext (execute lib) (itemTags lib value)
        ⟨c, loopHead lib (-1) k :: parents⟩ (.ok, ts, ⟨c₂, loopHead lib 0 k :: parents⟩) ∧
      Tag.resetAll ts = itemTags lib value' ∧
      At c₂ rest (Function.update f "_temp" (some (measure "_temp" [hash] .string))) ∧
      c₂.results = c.results := by
  refine runs_round hat (fun c₁ value hat₁ hresults => ?_) value
  have hoption := executeOption_hash lib hat₁ (Function.update_self ..)
    (loopHead lib (-1) k :: parents) value
  rw [decide_eq_true rfl] at hoption
  obtain ⟨c₂, hread, hat₂, hresults₂⟩ := executeRead_of_pending lib hat₁
    ((hashOption lib).head :: switchHead lib true value :: loopHead lib (-1) k :: parents)
  have hbreak : executeHead lib (parseElement lib .break {}) ⟨c₂, (hashOption lib).head ::
      switchHead lib true value :: loopHead lib (-1) k :: parents⟩ =
        some ⟨.ok, parseElement lib .break {}, ⟨c₂, (hashOption lib).head ::
          switchHead lib true value :: loopHead lib 0 k :: parents⟩, false⟩ := rfl
  have hitem := executeOption_item lib c₂ true value (loopHead lib 0 k :: parents)
  refine ⟨c₂, _, runsNext_cons rfl (runs_tag hoption trivial
    (runsNext_cons rfl (runs_leaf hread trivial) rfl
      (runsNext_cons rfl (runs_leaf hbreak trivial) rfl
        (runsNext_of_parsed rfl)))) rfl
    (runsNext_cons rfl (runs_cancelled hitem trivial) rfl
      (runsNext_of_parsed rfl)), rfl, hat₂, hresults₂.trans hresults⟩

/-- What is read of an item, after the first look at it. -/
def itemChildren (lib : CLib) : List Tag := (itemOption lib).children

/-- Any other letter chooses the other option. -/
lemma runs_item (hat : At c (b :: rest) f) (hb : b ≠ hash)
    (hchildren : ∀ c₁ value, At c₁ (b :: rest)
      (Function.update f "_temp" (some (measure "_temp" [b] .string))) → c₁.results = c.results →
      ∃ c₂ ts, RunsNext (execute lib) (itemChildren lib)
          ⟨c₁, (itemOption lib).head :: switchHead lib true value ::
            loopHead lib (-1) k :: parents⟩
          (.ok, ts, ⟨c₂, (itemOption lib).head :: switchHead lib true value ::
            loopHead lib (-1) k :: parents⟩) ∧
        Tag.resetAll ts = itemChildren lib ∧ P c₂) (value : EspAttribute) :
    ∃ c₂ value' ts, RunsNext (execute lib) (itemTags lib value)
        ⟨c, loopHead lib (-1) k :: parents⟩ (.ok, ts, ⟨c₂, loopHead lib (-1) k :: parents⟩) ∧
      Tag.resetAll ts = itemTags lib value' ∧ P c₂ := by
  refine runs_round hat (fun c₁ value hat₁ hresults => ?_) value
  have hoption := executeOption_hash lib hat₁ (Function.update_self ..)
    (loopHead lib (-1) k :: parents) value
  rw [decide_eq_false hb] at hoption
  have hitem := executeOption_item lib c₁ false value (loopHead lib (-1) k :: parents)
  obtain ⟨c₂, ts, hrun, hreset, hP⟩ := hchildren c₁ value hat₁ hresults
  refine ⟨c₂, _, runsNext_cons rfl (runs_cancelled hoption trivial) rfl
    (runsNext_cons rfl (runs_tag hitem trivial hrun) rfl
      (runsNext_of_parsed rfl)), ?_, hP⟩
  show [_, Tag.node _ false false (Tag.resetAll ts)] = _
  rw [hreset]
  rfl

namespace Item

/-- The measures of an item that is read in the round `k`. -/
def measures (k : ℕ) (f : String → Option EspAttribute) : Item → String → Option EspAttribute
  | param text => Function.update f (paramName k)
      (some (measure (paramName k) text .stringdelim))
  | sleep time condition =>
      Function.update (Function.update f "sleeptime" (some (measure "sleeptime" time .stringdelim)))
        "sleepcondition" (some (measure "sleepcondition" condition .stringdelim))

end Item

lemma paramName_ne_temp (k : ℕ) : paramName k ≠ "_temp" := by
  intro h
  have hhead := congrArg (fun s => s.toList.head?) h
  simp [paramName] at hhead

variable (lib parents) in
/-- A text up to its delimiter, by its tag. -/
lemma runs_field {name delimiter name' : String} {resetend : Bool}
    (hd : Delimited (fieldHead lib name delimiter resetend) d)
    (hat : At c (field ++ stop) f) (hfield : d ∉ field) (hstop : Stops d stop rest)
    (hname : finalName name parents = name') (hvisible : Visible name') :
    ∃ c', Runs (execute lib) ((fieldHead lib name delimiter resetend).tag []) ⟨c, parents⟩
        (.ok, .node (fieldHead lib name delimiter resetend) true false [], ⟨c', parents⟩) ∧
      At c' (if resetend then field ++ stop else rest)
        (Function.update f name' (some (measure name' field .stringdelim))) ∧
      c'.results = c.results := by
  obtain ⟨c', hexec, hat', hresults⟩ :=
    executeValue_field lib hd hat hfield hstop hname hvisible
  exact ⟨c', runs_leaf hexec trivial, hat', hresults⟩

/-- The first letter of an item. -/
lemma exists_cons_of_ne_hash (hne : field ++ stop ≠ []) (hfield : field.head? ≠ some hash)
    (hstop : Stops comma stop rest) : ∃ b data, field ++ stop = b :: data ∧ b ≠ hash := by
  cases field with
  | nil =>
      rcases hstop with rfl | ⟨rfl, -⟩
      · exact ⟨comma, rest, rfl, by decide⟩
      · exact absurd rfl hne
  | cons b field => exact ⟨b, _, rfl, fun h => hfield (congrArg some h)⟩

/-- One parameter. -/
lemma runs_param (hcomma : comma ∉ field) (hdollar : dollar ∉ field)
    (hhash : field.head? ≠ some hash) (hne : field ++ stop ≠ []) (hstop : Stops comma stop rest)
    (hat : At c (field ++ stop) f) (value : EspAttribute) :
    ∃ c₂ value' ts, RunsNext (execute lib) (itemTags lib value)
        ⟨c, loopHead lib (-1) k :: parents⟩ (.ok, ts, ⟨c₂, loopHead lib (-1) k :: parents⟩) ∧
      Tag.resetAll ts = itemTags lib value' ∧
      (∃ w, At c₂ rest (Function.update ((Item.param field).measures k f) "_temp" w)) ∧
      c₂.results = c.results := by
  obtain ⟨b, data, hb, hbhash⟩ := exists_cons_of_ne_hash hne hhash hstop
  rw [hb] at hat
  refine runs_item hat hbhash (fun c₁ value hat₁ hresults₁ => ?_) value
  rw [← hb] at hat₁
  set around := (itemOption lib).head :: switchHead lib true value ::
    loopHead lib (-1) k :: parents with haround
  obtain ⟨c₂, hlook, hat₂, hresults₂⟩ := runs_field lib around (delimited_comma lib "_temp" true)
    hat₁ hcomma hstop (finalName_of_notMem (by decide) around) visible_temp
  -- it has no dollar, so it is a parameter
  have hthere := executeCondition_of_temp lib hat₂ (Function.update_self ..)
    (getValueAsString_measure ..) "notcontains" around (by decide)
  obtain ⟨c₃, hread, hat₃, hresults₃⟩ := runs_field lib
    (conditionHead lib "notcontains" :: around) (delimited_comma lib "param_$" false)
    hat₂ hcomma hstop (finalName_param (k := k) rfl) (visible_param k)
  have htemp := (Function.update_of_ne (paramName_ne_temp k).symm
    (some (measure (paramName k) field .stringdelim)) _).trans (Function.update_self "_temp"
      (some (measure "_temp" field .stringdelim)) (Function.update f "_temp"
        (some (measure "_temp" [b] .string))))
  have hlater := executeCondition_of_temp lib hat₃ htemp
    (getValueAsString_measure ..) "contains" around (by decide)
  have hyes : (!decide ((("notcontains" : String) = "notcontains" ∧ dollar ∉ field) ∨
      (("notcontains" : String) = "contains" ∧ dollar ∈ field))) = false := by simp [hdollar]
  have hno : (!decide ((("contains" : String) = "notcontains" ∧ dollar ∉ field) ∨
      (("contains" : String) = "contains" ∧ dollar ∈ field))) = true := by simp [hdollar]
  rw [hyes] at hthere
  rw [hno] at hlater
  refine ⟨c₃, _, runsNext_cons rfl hlook rfl
    (runsNext_cons rfl (runs_tag hthere trivial
      (runsNext_cons rfl hread rfl
        (runsNext_of_parsed rfl))) rfl
      (runsNext_cons rfl (runs_cancelled hlater trivial) rfl
        (runsNext_of_parsed rfl))), rfl,
    ⟨some (measure "_temp" field .stringdelim), ?_⟩, hresults₃.trans (hresults₂.trans hresults₁)⟩
  rw [Function.update_idem, Function.update_comm (paramName_ne_temp k).symm] at hat₃
  exact hat₃

/-- The time for which the device sleeps, and its condition. -/
lemma runs_sleep {time condition : List UInt8} (hok : (Item.sleep time condition).Ok)
    (hstop : Stops comma stop rest) (hat : At c ((Item.sleep time condition).text ++ stop) f)
    (value : EspAttribute) :
    ∃ c₂ value' ts, RunsNext (execute lib) (itemTags lib value)
        ⟨c, loopHead lib (-1) k :: parents⟩ (.ok, ts, ⟨c₂, loopHead lib (-1) k :: parents⟩) ∧
      Tag.resetAll ts = itemTags lib value' ∧
      (∃ w, At c₂ rest (Function.update ((Item.sleep time condition).measures k f) "_temp" w)) ∧
      c₂.results = c.results := by
  obtain ⟨hcomma, hdollar, hhash, hcondition⟩ := hok
  rw [Item.text] at hat
  set field := time ++ dollar :: condition with hfield
  have hfieldComma : comma ∉ field := by
    rw [hfield, List.mem_append, List.mem_cons]
    rintro (h | h | h)
    · exact hcomma h
    · exact absurd h (by decide)
    · exact hcondition h
  have hfieldDollar : dollar ∈ field := List.mem_append_right _ List.mem_cons_self
  have hfieldHash : field.head? ≠ some hash := by
    cases time with
    | nil => exact fun h => absurd (Option.some_inj.mp h) (by decide : dollar ≠ hash)
    | cons b time => exact hhash
  obtain ⟨b, data, hb, hbhash⟩ := exists_cons_of_ne_hash
    (List.append_ne_nil_of_left_ne_nil (List.ne_nil_of_mem hfieldDollar) stop) hfieldHash hstop
  rw [hb] at hat
  refine runs_item hat hbhash (fun c₁ value hat₁ hresults₁ => ?_) value
  rw [← hb] at hat₁
  set around := (itemOption lib).head :: switchHead lib true value ::
    loopHead lib (-1) k :: parents with haround
  obtain ⟨c₂, hlook, hat₂, hresults₂⟩ := runs_field lib around (delimited_comma lib "_temp" true)
    hat₁ hfieldComma hstop (finalName_of_notMem (by decide) around) visible_temp
  -- it has a dollar, so it is no parameter
  have hearlier := executeCondition_of_temp lib hat₂ (Function.update_self ..)
    (getValueAsString_measure ..) "notcontains" around (by decide)
  have hthere := executeCondition_of_temp lib hat₂ (Function.update_self ..)
    (getValueAsString_measure ..) "contains" around (by decide)
  have hno : (!decide ((("notcontains" : String) = "notcontains" ∧ dollar ∉ field) ∨
      (("notcontains" : String) = "contains" ∧ dollar ∈ field))) = true := by simp [hfieldDollar]
  have hyes : (!decide ((("contains" : String) = "notcontains" ∧ dollar ∉ field) ∨
      (("contains" : String) = "contains" ∧ dollar ∈ field))) = false := by simp [hfieldDollar]
  rw [hno] at hearlier
  rw [hyes] at hthere
  have hparts : (if true = true then field ++ stop else rest) =
      time ++ dollar :: (condition ++ stop) := by
    rw [if_pos rfl, hfield, List.append_assoc]
    rfl
  rw [hparts] at hat₂
  obtain ⟨c₃, htime, hat₃, hresults₃⟩ := runs_field lib
    (conditionHead lib "contains" :: around) (delimited_dollar lib "sleeptime" false)
    hat₂ hdollar (.inl rfl) (finalName_of_notMem (by decide) _) (visible_of_head (by decide))
  obtain ⟨c₄, hcond, hat₄, hresults₄⟩ := runs_field lib
    (conditionHead lib "contains" :: around) (delimited_comma lib "sleepcondition" false)
    hat₃ hcondition hstop (finalName_of_notMem (by decide) _) (visible_of_head (by decide))
  refine ⟨c₄, _, runsNext_cons rfl hlook rfl
    (runsNext_cons rfl (runs_cancelled hearlier trivial) rfl
      (runsNext_cons rfl (runs_tag hthere trivial (runsNext_cons rfl htime rfl
        (runsNext_cons rfl hcond rfl (runsNext_of_parsed rfl)))) rfl
        (runsNext_of_parsed rfl))), rfl,
    ⟨some (measure "_temp" field .stringdelim), ?_⟩,
    hresults₄.trans (hresults₃.trans (hresults₂.trans hresults₁))⟩
  rw [Function.update_idem, Function.update_comm (by decide : "_temp" ≠ "sleeptime"),
    Function.update_comm (by decide : "_temp" ≠ "sleepcondition")] at hat₄
  exact hat₄

variable (lib parents) in
/-- An item is read in one round. -/
lemma runs_of_item {item : Item} (hok : item.Ok) (hne : item.text ++ stop ≠ [])
    (hstop : Stops comma stop rest) (hat : At c (item.text ++ stop) f) (value : EspAttribute) :
    ∃ c₂ value' ts, RunsNext (execute lib) (itemTags lib value)
        ⟨c, loopHead lib (-1) k :: parents⟩ (.ok, ts, ⟨c₂, loopHead lib (-1) k :: parents⟩) ∧
      Tag.resetAll ts = itemTags lib value' ∧
      (∃ w, At c₂ rest (Function.update (item.measures k f) "_temp" w)) ∧
      c₂.results = c.results := by
  cases item with
  | param text => exact runs_param hok.1 hok.2.1 hok.2.2 hne hstop hat value
  | sleep time condition => exact runs_sleep hok hstop hat value

end Rounds

/-! ### The loop over the parameters -/

/-- The children of the loop over the parameters, -/
def Items (lib : CLib) (ts : List Tag) : Prop := ∃ value, ts = itemTags lib value

/-- and those of the loop over the modules. -/
def Modules (lib : CLib) (ts : List Tag) : Prop := ∃ value, ts = moduleTags lib value

namespace Item

/-- The measures of a list of items; `k` is the round of the first one. -/
def allMeasures : ℕ → (String → Option EspAttribute) → List Item → String → Option EspAttribute
  | _, f, [] => f
  | k, f, item :: items => allMeasures (k + 1) (item.measures k f) items

lemma measures_temp (k : ℕ) (f : String → Option EspAttribute) (w : Option EspAttribute)
    (item : Item) : item.measures k (Function.update f "_temp" w) =
      Function.update (item.measures k f) "_temp" w := by
  cases item with
  | param text => exact Function.update_comm (paramName_ne_temp k).symm ..
  | sleep time condition =>
      rw [measures, measures, Function.update_comm (by decide : "_temp" ≠ "sleeptime"),
        Function.update_comm (by decide : "_temp" ≠ "sleepcondition")]

/-- The first of a list of items, and what is behind it. -/
lemma exists_allText {closed : Bool} {item : Item} {items : List Item}
    (hclosed : closed = false → stop = [] ∧ ∀ i ∈ (item :: items).getLast?, i.text ≠ []) :
    ∃ behind, allText closed (item :: items) ++ stop = item.text ++ behind ∧
      item.text ++ behind ≠ [] ∧ Stops comma behind (allText closed items ++ stop) := by
  cases items with
  | nil =>
      cases closed with
      | true =>
          refine ⟨comma :: stop, ?_, List.append_ne_nil_of_right_ne_nil _ (List.cons_ne_nil _ _),
            .inl rfl⟩
          rw [allText, if_pos rfl, List.append_assoc]
          rfl
      | false =>
          obtain ⟨rfl, hlast⟩ := hclosed rfl
          refine ⟨[], ?_, ?_, .inr ⟨rfl, rfl⟩⟩
          · rw [allText, if_neg Bool.false_ne_true, List.append_nil]
          · rw [List.append_nil]
            exact hlast item rfl
  | cons item' items =>
      refine ⟨comma :: (allText closed (item' :: items) ++ stop), ?_,
        List.append_ne_nil_of_right_ne_nil _ (List.cons_ne_nil _ _), .inl rfl⟩
      rw [allText, List.append_assoc]
      · rfl
      · exact fun h => by cases h

end Item

variable (parents) in
/-- **The loop over the parameters** reads all of them, and the letter in front of the next
module. -/
lemma repeats_items {items : List Item} (hok : ∀ item ∈ items, item.Ok) {closed : Bool} {k : ℕ}
    (hstop : Stops hash stop rest)
    (hclosed : closed = false → stop = [] ∧ ∀ item ∈ items.getLast?, item.text ≠ [])
    {w : Option EspAttribute} (ht : Between (loopHead lib (-1) 0) (Items lib) (-1) k t)
    (hat : At c (Item.allText closed items ++ stop) (Function.update f "_temp" w)) :
    ∃ t' c', Repeats lib t ⟨c, parents⟩ t' ⟨c', parents⟩ ∧
      Through (loopHead lib (-1) 0) (Items lib) t' ∧
      (∃ w', At c' rest (Function.update (Item.allMeasures (k + 1) f items) "_temp" w')) ∧
      c'.results = c.results := by
  induction items generalizing k f w c t with
  | nil =>
      obtain ⟨value, hvalue⟩ := ht.body
      rcases hstop with rfl | ⟨rfl, rfl⟩
      · -- the letter is skipped in a round of its own
        obtain ⟨c₂, value', ts, hround, hreset, hat₂, hresults⟩ :=
          runs_hash lib parents (k := k + 1) hat value
        rw [← hvalue] at hround
        obtain ⟨t₂, hrun, ht₂⟩ := ht.runs_round (by decide)
          (by rw [hat.available]; exact Int.natCast_pos.mpr (Nat.succ_pos _)) hround
          ⟨value', hreset⟩
        obtain ⟨t', hrepeats, hthrough⟩ := ht₂.runs_end lib parents (c := c₂) (.inl rfl)
        rw [Function.update_idem] at hat₂
        exact ⟨t', c₂, .again ht.parsed hrun hrepeats, hthrough, ⟨_, hat₂⟩, hresults⟩
      · obtain ⟨t', hrepeats, hthrough⟩ := ht.runs_end lib parents (c := c) (.inr hat.available)
        exact ⟨t', c, hrepeats, hthrough, ⟨w, hat⟩, rfl⟩
  | cons item items ih =>
      obtain ⟨value, hvalue⟩ := ht.body
      obtain ⟨behind, htext, hne, hbehind⟩ := Item.exists_allText hclosed
      rw [htext] at hat
      obtain ⟨c₂, value', ts, hround, hreset, ⟨w₂, hat₂⟩, hresults⟩ :=
        runs_of_item lib parents (k := k + 1)
          (hok item List.mem_cons_self) hne hbehind hat value
      have hdata : 0 < c.getAvailableInputData := by
        rw [hat.available]
        exact Int.natCast_pos.mpr (List.length_pos_iff.mpr hne)
      rw [← hvalue] at hround
      obtain ⟨t₂, hrun, ht₂⟩ := ht.runs_round (by decide) hdata hround ⟨value', hreset⟩
      rw [Item.measures_temp, Function.update_idem] at hat₂
      have hclosed' : closed = false → stop = [] ∧ ∀ i ∈ items.getLast?, i.text ≠ [] := by
        refine fun h => ⟨(hclosed h).1, fun i hi => (hclosed h).2 i ?_⟩
        rw [Option.mem_def] at hi ⊢
        rw [List.getLast?_cons, hi]
        rfl
      obtain ⟨t', c', hrepeats, hthrough, hat', hresults'⟩ :=
        ih (fun i hi => hok i (List.mem_cons_of_mem _ hi)) hclosed' ht₂ hat₂
      exact ⟨t', c', .again ht.parsed hrun hrepeats, hthrough, hat', hresults'.trans hresults⟩

/-! ### Results -/

section Results

variable {name : String} {attr : EspAttribute}

variable (lib) in
/-- The texts of a result. -/
def textsOf (attributes : Attributes) (name : String) : Option String :=
  (attributes.lookup name).map (EspAttribute.getValueAsString lib)

variable (lib) in
/-- The texts of the measures that a result has. -/
def shown (f : String → Option EspAttribute) (name : String) : Option String :=
  if name.startsWith "_" then none else (f name).map (EspAttribute.getValueAsString lib)

lemma shown_update (hname : name.startsWith "_" = false) :
    shown lib (Function.update f name (some attr)) =
      Function.update (shown lib f) name (some (attr.getValueAsString lib)) := by
  funext name'
  rw [shown, Function.update_apply, Function.update_apply, shown]
  by_cases heq : name' = name
  · rw [if_pos heq, if_pos heq, heq, if_neg (by rw [hname]; exact Bool.false_ne_true)]
    rfl
  · rw [if_neg heq, if_neg heq]

lemma shown_temp (w : Option EspAttribute) :
    shown lib (Function.update f "_temp" w) = shown lib f := by
  funext name
  rw [shown, shown]
  by_cases h : name.startsWith "_" = true
  · rw [if_pos h, if_pos h]
  · have hne : name ≠ "_temp" := by
      rintro rfl
      exact h (String.startsWith_string_iff.mpr ⟨"temp".toList, rfl⟩)
    rw [Function.update_of_ne hne]

lemma startsWith_of_head (hname : name.toList.head? ≠ some '_') :
    name.startsWith "_" = false := by
  refine Bool.eq_false_iff.mpr fun h => ?_
  rw [String.startsWith_string_iff] at h
  obtain ⟨t, ht⟩ := h
  rw [← ht] at hname
  exact absurd rfl hname

lemma Item.shown_measures (k : ℕ) (f : String → Option EspAttribute) (item : Item) :
    shown lib (item.measures k f) = item.texts k (shown lib f) := by
  cases item with
  | param text =>
      have hname : (paramName k).startsWith "_" = false :=
        startsWith_of_head (by simp [paramName])
      rw [measures, texts, shown_update hname, getValueAsString_measure]
  | sleep time condition =>
      rw [measures, texts, shown_update (startsWith_of_head (by decide)),
        shown_update (startsWith_of_head (by decide)), getValueAsString_measure,
        getValueAsString_measure]

/-- Reading an item keeps the measures there are. -/
lemma Item.allMeasures_ne_none {k : ℕ} {items : List Item} (hf : f name ≠ none) :
    allMeasures k f items name ≠ none := by
  have hupdate : ∀ {f : String → Option EspAttribute} (name' : String) (attr : EspAttribute),
      f name ≠ none → Function.update f name' (some attr) name ≠ none := by
    intro f name' attr hf
    rw [Function.update_apply]
    split
    · exact Option.some_ne_none attr
    · exact hf
  induction items generalizing k f with
  | nil => exact hf
  | cons item items ih =>
      refine ih ?_
      cases item with
      | param text => exact hupdate _ _ hf
      | sleep time condition => exact hupdate _ _ (hupdate _ _ hf)

lemma Item.shown_allMeasures (k : ℕ) (f : String → Option EspAttribute) (items : List Item) :
    shown lib (allMeasures k f items) = allTexts k (shown lib f) items := by
  induction items generalizing k f with
  | nil => rfl
  | cons item items ih => rw [allMeasures, allTexts, ih, shown_measures]

lemma lookup_filter (p : String → Bool) (attributes : Attributes) :
    (attributes.filter fun a => p a.1).lookup name =
      if p name then attributes.lookup name else none := by
  induction attributes with
  | nil => simp
  | cons a attributes ih =>
      obtain ⟨key, value⟩ := a
      rw [List.filter_cons]
      dsimp only
      by_cases hkey : name = key
      · subst hkey
        cases hp : p name
        · rw [if_neg Bool.false_ne_true, ih, hp]
          rfl
        · rw [if_pos rfl, if_pos rfl, lookup_pair, lookup_pair, if_pos rfl, if_pos rfl]
      · rw [lookup_pair, if_neg hkey, ← ih]
        split
        · rw [lookup_pair, if_neg hkey]
        · rfl

variable (lib) in
/-- A result has the measures that are shown. -/
lemma At.addResultData (hat : At c rest f) (hname : name.startsWith "_" = false)
    (hf : f name ≠ none) :
    At c.addResultData rest f ∧ ∃ attributes, c.addResultData.results = c.results ++ [attributes] ∧
      textsOf lib attributes = shown lib f := by
  set attributes := c.temp.filter fun a => !a.2.name.startsWith "_" with hattributes
  have hfilter : attributes = c.temp.filter fun a => !a.1.startsWith "_" :=
    List.filter_congr fun a ha => by rw [(hat.named a ha).1]
  have hlookup : ∀ name, attributes.lookup name =
      if name.startsWith "_" then none else f name := by
    intro name
    rw [hfilter, lookup_filter (fun name => !name.startsWith "_"), hat.temp]
    cases name.startsWith "_" <;> rfl
  have hpos : 0 < attributes.length := by
    refine List.length_pos_iff.mpr fun hnil => hf ?_
    have hnone := hlookup name
    rw [hnil, if_neg (by rw [hname]; exact Bool.false_ne_true)] at hnone
    exact hnone.symm
  have hadd : c.addResultData = { c with results := c.results ++ [attributes] } := if_pos hpos
  rw [hadd]
  refine ⟨⟨hat.within, hat.pending, hat.temp, hat.named⟩, attributes, rfl, ?_⟩
  funext name
  rw [textsOf, hlookup, shown]
  split <;> rfl

lemma runs_result (c : Context) :
    Runs (execute lib) ((parseElement lib (.result false) {}).tag []) ⟨c, parents⟩
      (.ok, .node (parseElement lib (.result false) {}) true false [],
        ⟨c.addResultData, parents⟩) :=
  runs_leaf (congrArg some (if_pos (.inl rfl))) trivial

lemma runs_clear (c : Context) :
    Runs (execute lib) ((parseElement lib .clear {}).tag []) ⟨c, parents⟩
      (.ok, .node (parseElement lib .clear {}) true false [], ⟨{ c with temp := [] }, parents⟩) :=
  runs_leaf rfl trivial

lemma runs_close (c : Context) :
    Runs (execute lib) ((parseElement lib .close {}).tag []) ⟨c, parents⟩
      (.ok, .node (parseElement lib .close {}) true false [],
        ⟨{ c with close := true }, parents⟩) :=
  runs_leaf rfl trivial

lemma At.clear (hat : At c rest f) : At { c with temp := [] } rest fun _ => none :=
  ⟨hat.within, hat.pending, fun _ => rfl, fun _ h => absurd h List.not_mem_nil⟩

end Results

lemma At.temp_eq_nil (hat : At c rest fun _ => none) : c.temp = [] := by
  cases htemp : c.temp with
  | nil => rfl
  | cons a temp =>
      have hlookup := hat.temp a.1
      rw [htemp, show a = (a.1, a.2) from rfl, lookup_pair, if_pos rfl] at hlookup
      cases hlookup

/-! ### The loop over the modules -/

variable (lib parents) in
/-- **A round of the loop over the modules**: one module is one result. -/
lemma runs_module {m : Module} (hok : m.Ok) (hstop : Stops hash stop rest)
    (hclosed : m.closed = false → stop = [] ∧ ∀ item ∈ m.items.getLast?, item.text ≠ [])
    (hat : At c (m.text ++ stop) fun _ => none) (value : EspAttribute) :
    ∃ c' ts attributes, RunsNext (execute lib) (moduleTags lib value) ⟨c, parents⟩
        (.ok, ts, ⟨c', parents⟩) ∧
      Modules lib (Tag.resetAll ts) ∧ At c' rest (fun _ => none) ∧
      c'.results = c.results ++ [attributes] ∧ textsOf lib attributes = m.texts := by
  obtain ⟨hbus, hname, hitems⟩ := hok
  have htext : m.text ++ stop =
      m.bus ++ comma :: (m.name ++ comma :: (Item.allText m.closed m.items ++ stop)) := by
    rw [Module.text]
    simp
  rw [htext] at hat
  obtain ⟨c₁, hrun₁, hat₁, hresults₁⟩ := runs_field lib parents (delimited_comma lib "busid" false)
    hat hbus (.inl rfl) (finalName_of_notMem (by decide) _) (visible_of_head (by decide))
  obtain ⟨c₂, hrun₂, hat₂, hresults₂⟩ := runs_field lib parents
    (delimited_comma lib "module" false) hat₁ hname (.inl rfl)
    (finalName_of_notMem (by decide) _) (visible_of_head (by decide))
  rw [if_neg Bool.false_ne_true] at hat₂
  set f := Function.update (Function.update (fun _ => none) "busid"
    (some (measure "busid" m.bus .stringdelim))) "module"
      (some (measure "module" m.name .stringdelim)) with hf
  have htemp : Function.update f "_temp" none = f := by
    rw [Function.update_eq_self_iff, hf, Function.update_of_ne (by decide),
      Function.update_of_ne (by decide)]
  have hbetween : Between (loopHead lib (-1) 0) (Items lib) (-1) (0 : ℕ)
      ((loopHead lib (-1) 0).tag (itemTags lib value)) := ⟨rfl, rfl, value, rfl⟩
  obtain ⟨t', c₃, hrepeats, hthrough, ⟨w, hat₃⟩, hresults₃⟩ :=
    repeats_items parents hitems hstop hclosed hbetween (htemp.symm ▸ hat₂)
  have hshown : shown lib (Function.update (Item.allMeasures 1 f m.items) "_temp" w) = m.texts := by
    rw [shown_temp, Item.shown_allMeasures, hf, shown_update (startsWith_of_head (by decide)),
      shown_update (startsWith_of_head (by decide)), getValueAsString_measure,
      getValueAsString_measure]
    refine congrArg (fun g => Item.allTexts 1 (Function.update (Function.update g _ _) _ _) m.items)
      (funext fun name => ?_)
    rw [shown]
    split <;> rfl
  have hbusid : Function.update (Item.allMeasures 1 f m.items) "_temp" w "busid" ≠ none := by
    rw [Function.update_of_ne (by decide)]
    refine Item.allMeasures_ne_none ?_
    rw [hf, Function.update_of_ne (by decide), Function.update_self]
    exact Option.some_ne_none _
  obtain ⟨hat₄, attributes, hresults₄, htexts⟩ :=
    hat₃.addResultData lib (startsWith_of_head (by decide)) hbusid
  obtain ⟨_, ⟨value', rfl⟩, hinner⟩ := hthrough.reset
  refine ⟨{ c₃.addResultData with temp := [] }, _, attributes,
    runsNext_cons rfl hrun₁ rfl (runsNext_cons rfl hrun₂ rfl
      (runsNext_of_repeats hrepeats (runsNext_cons rfl (runs_result c₃) rfl
        (runsNext_cons rfl (runs_clear _) rfl (runsNext_of_parsed rfl))))), ⟨value', ?_⟩,
    hat₄.clear, ?_,
    htexts.trans hshown⟩
  · show [_, _, t'.reset, _, _] = _
    rw [hinner]
    rfl
  · show c₃.addResultData.results = _
    rw [hresults₄, hresults₃, hresults₂, hresults₁]

lemma stops_allText (modules : List Module) :
    Stops hash (Module.allText modules) (Module.allText modules).tail := by
  cases modules with
  | nil => exact .inr ⟨rfl, rfl⟩
  | cons m modules => exact .inl rfl

variable (parents) in
/-- **The loop over the modules** makes a result of each of them. -/
lemma repeats_modules {modules : List Module} (hok : Module.AllOk modules) {n : ℤ}
    (ht : Between (loopHead lib (-1) 0) (Modules lib) (-1) n t)
    (hat : At c (Module.allText modules).tail fun _ => none) :
    ∃ t' c' results, Repeats lib t ⟨c, parents⟩ t' ⟨c', parents⟩ ∧ t'.parsed = true ∧
      At c' [] (fun _ => none) ∧ c'.results = c.results ++ results ∧
      results.map (textsOf lib) = modules.map Module.texts := by
  induction modules generalizing n c t with
  | nil =>
      obtain ⟨t', hrepeats, hthrough⟩ := ht.runs_end lib parents (c := c) (.inr hat.available)
      exact ⟨t', c, [], hrepeats, hthrough.parsed, hat, (List.append_nil _).symm, rfl⟩
  | cons m modules ih =>
      obtain ⟨hm, hclosed, hmodules⟩ := hok
      obtain ⟨value, hvalue⟩ := ht.body
      have hclosed' : m.closed = false → Module.allText modules = [] ∧
          ∀ item ∈ m.items.getLast?, item.text ≠ [] := fun h =>
        ⟨by rw [(hclosed h).1]; rfl, (hclosed h).2⟩
      obtain ⟨c₁, ts, attributes, hround, hbody, hat₁, hresults₁, htexts⟩ :=
        runs_module lib (loopHead lib (-1) (n + 1) :: parents) hm (stops_allText modules) hclosed'
          hat value
      have hdata : 0 < c.getAvailableInputData := by
        rw [hat.available]
        refine Int.natCast_pos.mpr (List.length_pos_iff.mpr ?_)
        exact List.append_ne_nil_of_left_ne_nil
          (List.append_ne_nil_of_right_ne_nil _ (List.cons_ne_nil _ _)) _
      rw [← hvalue] at hround
      obtain ⟨t₁, hrun, ht₁⟩ := ht.runs_round (by decide) hdata hround hbody
      obtain ⟨t', c', results, hrepeats, hparsed, hat', hresults, hmap⟩ := ih hmodules ht₁ hat₁
      refine ⟨t', c', attributes :: results, .again ht.parsed hrun hrepeats, hparsed, hat', ?_, ?_⟩
      · rw [hresults, hresults₁, List.append_assoc]
        rfl
      · rw [List.map_cons, List.map_cons, htexts, hmap]

/-! ### A message -/

/-- What is read of the sender of a message. -/
def requestTexts (m : Message) : String → Option String :=
  Function.update (fun _ => none) "request" (some (textOfBytes m.request))

variable (lib parents) in
/-- The body of the command over a message. -/
lemma runs_bodyTags {m : Message} (hok : m.Ok) (hat : At c m.text fun _ => none) :
    ∃ ts c' results, RunsNext (execute lib) (bodyTags lib) ⟨c, parents⟩
        (.ok, ts, ⟨c', parents⟩) ∧
      At c' [] (fun _ => none) ∧ c'.close = true ∧ c'.results = c.results ++ results ∧
      results.map (textsOf lib) = requestTexts m :: m.modules.map Module.texts := by
  obtain ⟨hrequest, hmodules, hall⟩ := hok
  obtain ⟨c₁, hcadena, hat₁, hresults₁⟩ :=
    executeConstraint_of_pending lib (by decide) hat parents
  obtain ⟨c₂, hrun₂, hat₂, hresults₂⟩ := runs_field lib parents
    (delimited_comma lib "request" false) hat₁ hrequest (.inl rfl)
    (finalName_of_notMem (by decide) _) (visible_of_head (by decide))
  have hfirst : Module.allText m.modules = bytes "#" ++ (Module.allText m.modules).tail := by
    obtain ⟨m', modules, hcons⟩ := List.exists_cons_of_ne_nil hmodules
    rw [hcons]
    rfl
  rw [if_neg Bool.false_ne_true, hfirst] at hat₂
  obtain ⟨c₃, hhash, hat₃, hresults₃⟩ :=
    executeConstraint_of_pending lib (by decide) hat₂ parents
  obtain ⟨hat₄, attributes, hresults₄, htexts⟩ :=
    hat₃.addResultData lib (startsWith_of_head (by decide : "request".toList.head? ≠ some '_'))
      (by rw [Function.update_self]; exact Option.some_ne_none _)
  have hbetween : Between (loopHead lib (-1) 0) (Modules lib) (-1) 0
      ((loopHead lib (-1) 0).tag (moduleTags lib EspAttribute.empty)) := ⟨rfl, rfl, _, rfl⟩
  obtain ⟨t', c₅, results, hrepeats, hparsed, hat₅, hresults₅, hmap⟩ :=
    repeats_modules parents hall hbetween hat₄.clear
  refine ⟨_, { c₅ with close := true }, attributes :: results,
    runsNext_cons rfl (runs_leaf hcadena trivial) rfl (runsNext_cons rfl hrun₂ rfl
      (runsNext_cons rfl (runs_leaf hhash trivial) rfl (runsNext_cons rfl (runs_result c₃) rfl
        (runsNext_cons rfl (runs_clear _) rfl (runsNext_of_repeats hrepeats
          (runsNext_cons rfl (runs_close c₅) rfl (runsNext_of_parsed rfl))))))),
    ⟨hat₅.within, hat₅.pending, hat₅.temp, hat₅.named⟩, rfl, ?_, ?_⟩
  · show c₅.results = _
    rw [hresults₅]
    show c₃.addResultData.results ++ results = _
    rw [hresults₄, hresults₃, hresults₂, hresults₁, List.append_assoc]
    rfl
  · rw [List.map_cons, hmap, htexts, shown_update (startsWith_of_head (by decide)),
      getValueAsString_measure, requestTexts]
    refine congrArg (fun g => Function.update g _ _ :: _) (funext fun name => ?_)
    rw [shown]
    split <;> rfl

variable (lib) in
/-- The command over a message that stands in front of it. -/
lemma runs_main {m : Message} (hok : m.Ok) (hat : At c m.text fun _ => none) :
    ∃ command context results, Command.Runs (execute lib) (main lib) c (.ok, command, context) ∧
      context.close = true ∧ context.pending = [] ∧ context.results = c.results ++ results ∧
      results.map (textsOf lib) = requestTexts m :: m.modules.map Module.texts := by
  obtain ⟨ts, c', results, hbody, hat', hclose, hresults, hmap⟩ := runs_bodyTags lib
    [parseElement lib .body {}] hok hat
  have hheader : Runs (execute lib) (main lib).header ⟨c, []⟩ (.ok, _, ⟨c, []⟩) :=
    runs_leaf rfl trivial
  have hrunBody : Runs (execute lib) (main lib).body ⟨c, []⟩ (.ok, _, ⟨c', []⟩) :=
    runs_tag rfl trivial hbody
  have hnew : Command.newResult c' = { c'.validateInputData 0 with temp := [] } := by
    rw [Command.newResult, Context.addResultData, Context.validateInputData, hat'.temp_eq_nil]
    rfl
  have hpending : (c'.validateInputData 0).pending = [] := hat'.pending
  refine ⟨_, _, results,
    Command.runs_next ((Command.runsRoot_iff rfl).mpr ⟨_, _, _, hheader, rfl⟩)
      (fun h => by cases h)
      (Command.runs_body ((Command.runsRoot_iff rfl).mpr ⟨_, _, _, hrunBody, rfl⟩) rfl),
    ?_, ?_, ?_, hmap⟩
  · rw [hnew]
    exact hclose
  · rw [hnew]
    exact hpending
  · rw [hnew]
    exact hresults

lemma at_addInputData (data : List UInt8) :
    At (Context.empty.addInputData data) data fun _ => none :=
  ⟨Nat.zero_le _, rfl, fun _ => rfl, fun _ h => absurd h List.not_mem_nil⟩

/-- A device that sends two modules and sleeps. -/
def sample : Message :=
  ⟨bytes "8934075379000039321",
    [⟨bytes "0", bytes "GM", [.param (bytes "amp"), .param (bytes "3")], true⟩,
      ⟨bytes "1", bytes "GM", [.param (bytes "55"), .sleep (bytes "23") (bytes "none")], false⟩]⟩

end SensorOpen

end Esp

end IotAgent
