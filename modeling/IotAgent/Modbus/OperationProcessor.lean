import Mathlib.Data.String.Basic
import IotAgent.Lib.OrderedMap
import IotAgent.Modbus.ReadAnswer
import IotAgent.Modbus.WriteFrame
import IotAgent.Util.JsonParserWrite
import IotAgent.Util.Text

/-!
The operations and commands of Modbus devices (`src/modbus/operation_processor.cc`), and the
values of an answer under their labels (`Modbus::get_mapped_values`, `src/modbus/modbus.cc`).

A file has operations, with labels for their registers, and commands, with parameters at addresses.
Every command becomes an operation as well, one that reads back what was written: it begins at the
least address and has the names of the parameters for labels, one for each register.

* `ModbusOperationProcessor.readOperations`: what is made of a file;
* `Modbus.getMappedValues`: the values under their labels;
* `deliver_slaveAnswer`: a read of registers, from the request to the values, whatever the chunks;
* `ModbusOperationProcessor.readsBack_iff`: the commands whose parameters are read back as they
  stand in the device.
-/

namespace IotAgent

/-! ### Property trees by their keys -/

namespace PropertyTree

/-- `get_child`, the first of several. -/
def getChild (pt : PropertyTree Char) (key : String) : Option (PropertyTree Char) :=
  pt.children.lookup key.toList

/-- `get` of a text. -/
def get (pt : PropertyTree Char) (key : String) : Option String :=
  (pt.getChild key).map fun child => String.ofList child.data

/-- The children with a text under a key, replaced or appended. -/
def putChild (key value : List Char) :
    List (List Char × PropertyTree Char) → List (List Char × PropertyTree Char)
  | [] => [(key, node value [])]
  | (k, child) :: l =>
      if k = key then (k, node value child.children) :: l else (k, child) :: putChild key value l

/-- `put`. -/
def put (pt : PropertyTree Char) (key value : String) : PropertyTree Char :=
  node pt.data (putChild key.toList value.toList pt.children)

lemma lookup_putChild {key value k : List Char} {l : List (List Char × PropertyTree Char)} :
    ((putChild key value l).lookup k).map data =
      if k = key then some value else (l.lookup k).map data := by
  induction l with
  | nil =>
      rw [putChild]
      split
      · next h =>
          rw [h, List.lookup_cons_self]
          rfl
      · next h => rw [List.lookup_cons, beq_eq_false_iff_ne.mpr h]
  | cons c l ih =>
      obtain ⟨j, child⟩ := c
      rw [putChild]
      split_ifs with hj hk hk
      · rw [hj, hk, List.lookup_cons_self]
        rfl
      · rw [List.lookup_cons, List.lookup_cons, hj, beq_eq_false_iff_ne.mpr hk]
      · have hne : (k == j) = false := beq_eq_false_iff_ne.mpr fun h => hj (h.symm.trans hk)
        rw [List.lookup_cons, hne, ih, if_pos hk]
      · rw [List.lookup_cons, List.lookup_cons]
        cases k == j
        · exact ih.trans (if_neg hk)
        · rfl

@[simp]
lemma get_put {pt : PropertyTree Char} {key value k : String} :
    (pt.put key value).get k = if k = key then some value else pt.get k := by
  have hget : ∀ pt : PropertyTree Char,
      pt.get k = ((pt.children.lookup k.toList).map data).map String.ofList := by
    intro pt
    rw [get, getChild, Option.map_map]
    rfl
  have hkey : k.toList = key.toList ↔ k = key := String.toList_inj
  rw [hget, hget, put]
  show ((putChild key.toList value.toList pt.children).lookup k.toList |>.map data).map _ = _
  rw [lookup_putChild]
  by_cases h : k = key
  · rw [if_pos (hkey.mpr h), if_pos h]
    exact congrArg some (String.ofList_toList ..)
  · rw [if_neg (mt hkey.mp h), if_neg h]

end PropertyTree

/-! ### Numbers in texts -/

namespace StreamNumber

/-- A sign, if there is one: whether it is a minus, and what is behind it. -/
def cutSign : List Char → Bool × List Char
  | c :: cs => if c = '-' then (true, cs) else if c = '+' then (false, cs) else (false, c :: cs)
  | [] => (false, [])

/-- What a stream reads of a text that is a number from its beginning to its end, but for blanks:
whether there is a minus, and the digits. -/
def read (s : String) : Option (Bool × ℕ) :=
  let (minus, cs) := cutSign (s.toList.dropWhile Text.isSpace)
  if cs.takeWhile Char.isDigit = [] ∨ (cs.dropWhile Char.isDigit).dropWhile Text.isSpace ≠ [] then
    none
  else some (minus, Nat.ofDigitChars 10 (cs.takeWhile Char.isDigit) 0)

/-- `get<int>`. -/
def readInt (s : String) : Option ℤ :=
  match read s with
  | some (true, n) => if n ≤ 2 ^ 31 then some (-n) else none
  | some (false, n) => if n < 2 ^ 31 then some n else none
  | none => none

/-- `get<unsigned short>`. A minus is read, and the number is taken modulo `2 ^ 16`. -/
def readUShort (s : String) : Option UInt16 :=
  match read s with
  | some (minus, n) =>
      if n < 2 ^ 16 then some (if minus then -UInt16.ofNat n else UInt16.ofNat n) else none
  | none => none

lemma not_isSpace_of_isDigit {c : Char} (hc : c.isDigit = true) : ¬ Text.isSpace c = true := by
  rw [Char.isDigit_iff_toNat] at hc
  have hblank : c ≠ ' ' := by
    rintro rfl
    exact absurd hc (by decide)
  have hlow : 48 ≤ c.toNat := hc.1
  simp only [Text.isSpace, hblank, decide_false, Bool.false_or, Bool.and_eq_true,
    decide_eq_true_eq]
  omega

/-- A number that is written is read again. -/
lemma read_repr (n : ℕ) : read n.repr = some (false, n) := by
  have hdigit : ∀ c ∈ n.repr.toList, c.isDigit = true := fun c hc => by
    rw [Nat.repr, String.toList_ofList] at hc
    exact Nat.isDigit_of_mem_toDigits (by decide) (by decide) hc
  have hvalue : Nat.ofDigitChars 10 n.repr.toList 0 = n := by
    rw [Nat.repr, String.toList_ofList, Nat.ofDigitChars_ten_toDigits]
  have hne : n.repr.toList ≠ [] := by
    rw [Nat.repr, String.toList_ofList]
    exact Nat.toDigits_ne_nil
  rw [read]
  generalize n.repr.toList = ds at hdigit hvalue hne
  obtain ⟨c, cs, rfl⟩ := List.exists_cons_of_ne_nil hne
  have hc := hdigit c (List.mem_cons_self ..)
  have htake : (c :: cs).takeWhile Char.isDigit = c :: cs := List.takeWhile_eq_self_iff.mpr hdigit
  have hdrop : (c :: cs).dropWhile Char.isDigit = [] := List.dropWhile_eq_nil_iff.mpr hdigit
  have hsign : cutSign (c :: cs) = (false, c :: cs) := by
    rw [cutSign, if_neg, if_neg]
    · rintro rfl
      cases hc
    · rintro rfl
      cases hc
  rw [List.dropWhile_cons_of_neg (not_isSpace_of_isDigit hc), hsign]
  dsimp only
  rw [htake, hdrop, if_neg (by simp), hvalue]

lemma readUShort_repr {n : ℕ} (h : n < 2 ^ 16) : readUShort n.repr = some (UInt16.ofNat n) := by
  rw [readUShort, read_repr]
  exact if_pos h

end StreamNumber

/-! ### The processor -/

/-- The floating-point numbers: how a text is read, and the text of a number by a factor, with a
number of decimals. -/
structure Floats (φ : Type) where
  one : φ
  read : String → Option φ
  fixed : φ → ℤ → UInt16 → String

/-- `CommandParameter`. -/
structure CommandParameter where
  baseAddress : ℤ
  numPositions : UInt16
  name : String
  type : String

/-- `FloatPosition`. -/
structure FloatPosition (φ : Type) where
  name : String
  factor : φ
  precision : ℤ

/-- `ParamsMap`. -/
abbrev ParamsMap := OrderedMap ℤ CommandParameter

structure ModbusOperationProcessor (φ : Type) where
  operations : OrderedMap String (PropertyTree Char)
  positionMap : OrderedMap String (List (FloatPosition φ))
  commands : OrderedMap String (PropertyTree Char)
  orderedParametersMap : OrderedMap String ParamsMap
  config : PropertyTree Char

/-- `number_of_decimals`. -/
def numberOfDecimals (str : String) : ℕ :=
  match str.toList.dropWhile (· ≠ '.') with
  | [] => 0
  | _ :: decimals => decimals.length

namespace ModbusOperationProcessor

variable {φ : Type} (F : Floats φ)

/-- A processor that has read nothing. -/
def empty : ModbusOperationProcessor φ where
  operations := OrderedMap.empty
  positionMap := OrderedMap.empty
  commands := OrderedMap.empty
  orderedParametersMap := OrderedMap.empty
  config := .node [] []

/-- A label of an operation: a name with a factor, or a text. -/
def labelOf (v : PropertyTree Char) : FloatPosition φ :=
  let name := (v.get "name").getD ""
  if name ≠ "" then
    { name
      factor := ((v.get "factor").bind F.read).getD F.one
      precision := (numberOfDecimals ((v.get "factor").getD "1") : ℤ).bmod (2 ^ 16) }
  else { name := String.ofList v.data, factor := F.one, precision := 0 }

/-- One operation of `read`; `none` is an exception. -/
def readOperation (p : ModbusOperationProcessor φ) (v : PropertyTree Char) :
    Option (ModbusOperationProcessor φ) :=
  (v.get "operation").map fun op =>
    let p := { p with operations := p.operations.insert (op, v) }
    match (v.getChild "positions").map fun positions =>
      positions.children.map fun child => labelOf F child.2 with
    | none | some [] => p
    | some labels => { p with positionMap := p.positionMap.insert (op, labels) }

/-- A loop that an exception ends: the state after it, and whether it went to its end. -/
def readEach (step : ModbusOperationProcessor φ → PropertyTree Char →
    Option (ModbusOperationProcessor φ)) (p : ModbusOperationProcessor φ) :
    List (List Char × PropertyTree Char) → ModbusOperationProcessor φ × Bool
  | [] => (p, true)
  | v :: vs =>
      match step p v.2 with
      | none => (p, false)
      | some p => readEach step p vs

/-- `read`. -/
def read (p : ModbusOperationProcessor φ) (ptOperations : PropertyTree Char) :
    ModbusOperationProcessor φ :=
  match ptOperations.getChild "operations" with
  | none => p
  | some operations =>
      let (p, done) := readEach (readOperation F) p operations.children
      match done, ptOperations.getChild "config" with
      | true, some config => { p with config }
      | _, _ => p

/-- A parameter of a command; `none` is an exception. -/
def readParameter (v : PropertyTree Char) : Option (ℤ × CommandParameter) :=
  match (v.get "address").bind StreamNumber.readInt, v.get "name" with
  | some address, some name => some (address, {
      baseAddress := address
      numPositions := ((v.get "positions").bind StreamNumber.readUShort).getD 1
      name
      type := (v.get "type").getD "numeric" })
  | _, _ => none

/-- The parameters of a command, in a map; `none` is an exception. -/
def namesMap (v : PropertyTree Char) : Option ParamsMap :=
  (v.getChild "parameters").bind fun parameters =>
    (parameters.children.mapM fun child => readParameter child.2).map OrderedMap.ofList

/-- `get_base_address`. -/
def getBaseAddress (p : ModbusOperationProcessor φ) (command : String) : ℤ :=
  match (p.orderedParametersMap.get command).map OrderedMap.entries with
  | some ((base, _) :: _) => base
  | _ => -1

/-- `get_mapped_parameters`. -/
def getMappedParameters (p : ModbusOperationProcessor φ) (command : String) :
    List CommandParameter :=
  ((p.orderedParametersMap.get command).map fun namesMap => namesMap.entries.map Prod.snd).getD []

/-- How many registers the operation of a command asks for: as many as the first parameter has
positions, where that is a text or a number. -/
def numOfPositions (first : CommandParameter) (numOfRegisters : ℕ) : ℕ :=
  if first.type = "string" ∨ first.type = "numeric" then first.numPositions.toNat
  else numOfRegisters

/-- The operation of a command. -/
def operationOf (command : String) (base : ℤ) (first : CommandParameter) (numOfRegisters : ℕ) :
    PropertyTree Char :=
  let pt := PropertyTree.node [] []
  let pt := pt.put "operation" command
  let pt := pt.put "modbusOperation" "3"
  let pt := pt.put "modbusAddress" (toString base)
  let pt := if first.type = "string" ∨ first.type = "numeric" then
    pt.put "modbusRegisterType" first.type else pt
  let pt := pt.put "modbusNumberOfPositions" (numOfPositions first numOfRegisters).repr
  pt.put "modbusNumberOfRegisters" numOfRegisters.repr

/-- The labels of the operation of a command. -/
def labelsOf (params : ParamsMap) : List (FloatPosition φ) :=
  params.entries.map fun e => { name := e.2.name, factor := F.one, precision := 0 }

/-- `add_command_as_operation`. -/
def addCommandAsOperation (p : ModbusOperationProcessor φ) (command : String) :
    ModbusOperationProcessor φ :=
  match p.commands.get command, p.orderedParametersMap.get command with
  | some _, some params =>
      match params.entries with
      | [] => p
      | (_, first) :: _ =>
          { p with
            operations := p.operations.insert (command,
              operationOf command (p.getBaseAddress command) first params.entries.length)
            positionMap := p.positionMap.insert (command, labelsOf F params) }
  | _, _ => p

/-- One command of `read_commands`; `none` is an exception. -/
def readCommand (p : ModbusOperationProcessor φ) (v : PropertyTree Char) :
    Option (ModbusOperationProcessor φ) :=
  (v.get "name").map fun op =>
    let p := { p with commands := p.commands.insert (op, v) }
    let p := match namesMap v with
      | some params =>
          if params.entries = [] then p
          else { p with orderedParametersMap := p.orderedParametersMap.insert (op, params) }
      | none => p
    addCommandAsOperation F p op

/-- `read_commands`. -/
def readCommands (p : ModbusOperationProcessor φ) (ptCommands : PropertyTree Char) :
    ModbusOperationProcessor φ :=
  match ptCommands.getChild "commands" with
  | none => p
  | some commands => (readEach (readCommand F) p commands.children).1

/-- `read_operations`, of a file with a tree. -/
def readOperations (p : ModbusOperationProcessor φ) (pt : PropertyTree Char) :
    ModbusOperationProcessor φ :=
  readCommands F (read F p pt) pt

/-- `get_operation`. -/
def getOperation (p : ModbusOperationProcessor φ) (operation : String) : PropertyTree Char :=
  (p.operations.get operation).getD (.node [] [])

/-- `get_mapped_labels`. -/
def getMappedLabels (p : ModbusOperationProcessor φ) (operation : String) :
    List (FloatPosition φ) :=
  (p.positionMap.get operation).getD []

end ModbusOperationProcessor

namespace Modbus

/-- The request of an operation, as its callers make it. -/
def ofOperation (slaveAddr : UInt8) (op : PropertyTree Char) : Option Modbus :=
  match (op.get "modbusOperation").bind StreamNumber.readUShort,
    (op.get "modbusAddress").bind StreamNumber.readUShort,
    (op.get "modbusNumberOfPositions").bind StreamNumber.readUShort with
  | some 3, some address, some number =>
      some (request slaveAddr .readHoldingRegisters address number)
  | some 6, some address, some number =>
      some (request slaveAddr .presetSingleRegister address number)
  | some 16, some address, some number =>
      some (request slaveAddr .presetMultipleRegister address number)
  | _, _, _ => none

variable {φ : Type} (F : Floats φ)

/-- The loop of `get_mapped_values` over the labels. -/
def insertMapped : List (FloatPosition φ) → Registers → OrderedMap String String →
    OrderedMap String String
  | field :: fields, (_, value) :: values, mapped =>
      insertMapped fields values (if field.name = "" then mapped
        else mapped.insert (field.name, F.fixed field.factor field.precision value))
  | _, _, mapped => mapped

/-- `get_mapped_values`. -/
def getMappedValues (m : Modbus) (mappedFields : List (FloatPosition φ)) :
    OrderedMap String String :=
  if mappedFields = [] then
    OrderedMap.ofList (m.values.map fun e => (e.1.toNat.repr, e.2.toNat.repr))
  else if mappedFields.length = m.values.length then
    insertMapped F mappedFields m.values OrderedMap.empty
  else OrderedMap.empty

end Modbus

namespace ModbusOperationProcessor

variable {φ : Type} (F : Floats φ)

/-! ### What is made of a command -/

/-- Nothing is there under a name. -/
structure Free (p : ModbusOperationProcessor φ) (op : String) : Prop where
  operations : p.operations.get op = none
  positionMap : p.positionMap.get op = none
  commands : p.commands.get op = none
  orderedParametersMap : p.orderedParametersMap.get op = none

/-- A command with parameters is there as an operation that reads them back. -/
structure ReadBack (p : ModbusOperationProcessor φ) (op : String) (base : ℤ)
    (first : CommandParameter) (params : ParamsMap) : Prop where
  operation : p.operations.get op = some (operationOf op base first params.entries.length)
  labels : p.positionMap.get op = some (labelsOf F params)

/-- The file has a command of a name with parameters, the first of that name, and no operation
of it. -/
structure Provides (doc : PropertyTree Char) (op : String) (params : ParamsMap) : Prop where
  noOperation : ∀ operations, doc.getChild "operations" = some operations →
    ∀ v ∈ operations.children, v.2.get "operation" ≠ some op
  command : ∃ commands before v after, doc.getChild "commands" = some commands ∧
    commands.children = before ++ v :: after ∧
    (∀ e ∈ before, ∃ name, e.2.get "name" = some name ∧ name ≠ op) ∧
    v.2.get "name" = some op ∧ namesMap v.2 = some params

variable {F} {p p' : ModbusOperationProcessor φ} {op name : String} {params : ParamsMap}
  {v doc : PropertyTree Char} {base : ℤ} {first : CommandParameter}

/-- What a loop keeps that its steps keep. -/
lemma readEach_keeps {step : ModbusOperationProcessor φ → PropertyTree Char →
      Option (ModbusOperationProcessor φ)} {P : ModbusOperationProcessor φ → Prop}
    {vs : List (List Char × PropertyTree Char)}
    (hstep : ∀ v ∈ vs, ∀ p p', P p → step p v.2 = some p' → P p') (hp : P p) :
    P (readEach step p vs).1 := by
  induction vs generalizing p with
  | nil => exact hp
  | cons v vs ih =>
      rw [readEach]
      split
      · exact hp
      · next p' hp' =>
          exact ih (fun w hw => hstep w (List.mem_cons_of_mem _ hw))
            (hstep v (List.mem_cons_self ..) p p' hp hp')

lemma readEach_append {step : ModbusOperationProcessor φ → PropertyTree Char →
      Option (ModbusOperationProcessor φ)} {vs ws : List (List Char × PropertyTree Char)}
    (h : ∀ v ∈ vs, ∀ p, (step p v.2).isSome) :
    readEach step p (vs ++ ws) = readEach step (readEach step p vs).1 ws := by
  induction vs generalizing p with
  | nil => rfl
  | cons v vs ih =>
      obtain ⟨p', hp'⟩ := Option.isSome_iff_exists.mp (h v (List.mem_cons_self ..) p)
      rw [List.cons_append, readEach, readEach, hp']
      exact ih fun w hw => h w (List.mem_cons_of_mem _ hw)

lemma Free.readOperation (hp : Free p op) (hne : v.get "operation" ≠ some op)
    (h : ModbusOperationProcessor.readOperation F p v = some p') : Free p' op := by
  obtain ⟨name, hname, rfl⟩ := Option.map_eq_some_iff.mp h
  have hop : name ≠ op := fun he => hne (he ▸ hname)
  dsimp only
  split
  · exact ⟨(OrderedMap.get_insert_of_ne hop).trans hp.operations, hp.positionMap, hp.commands,
      hp.orderedParametersMap⟩
  · exact ⟨(OrderedMap.get_insert_of_ne hop).trans hp.operations, hp.positionMap, hp.commands,
      hp.orderedParametersMap⟩
  · exact ⟨(OrderedMap.get_insert_of_ne hop).trans hp.operations,
      (OrderedMap.get_insert_of_ne hop).trans hp.positionMap, hp.commands, hp.orderedParametersMap⟩

/-- The operations of a file leave the names free that are not theirs. -/
lemma free_read (h : Provides doc op params) : Free (read F empty doc) op := by
  have hempty : Free (empty : ModbusOperationProcessor φ) op := ⟨rfl, rfl, rfl, rfl⟩
  rw [read]
  split
  · exact hempty
  · next operations hoperations =>
      have hloop : Free (readEach (ModbusOperationProcessor.readOperation F) empty
          operations.children).1 op :=
        readEach_keeps (P := fun p => Free p op)
          (fun v hv p p' hp => hp.readOperation (h.noOperation _ hoperations v hv)) hempty
      split
      next p done heq =>
      rw [heq] at hloop
      split
      · exact ⟨hloop.operations, hloop.positionMap, hloop.commands, hloop.orderedParametersMap⟩
      · exact hloop

lemma Free.addCommandAsOperation (hp : Free p op) (hne : name ≠ op) :
    Free (ModbusOperationProcessor.addCommandAsOperation F p name) op := by
  rw [ModbusOperationProcessor.addCommandAsOperation]
  split
  · split
    · exact hp
    · exact ⟨(OrderedMap.get_insert_of_ne hne).trans hp.operations,
        (OrderedMap.get_insert_of_ne hne).trans hp.positionMap, hp.commands,
        hp.orderedParametersMap⟩
  · exact hp

lemma Free.readCommand (hp : Free p op) (hname : v.get "name" = some name) (hne : name ≠ op)
    (h : ModbusOperationProcessor.readCommand F p v = some p') : Free p' op := by
  rw [ModbusOperationProcessor.readCommand, hname] at h
  obtain rfl := Option.some.inj h
  refine Free.addCommandAsOperation ?_ hne
  have hcommands : (p.commands.insert (name, v)).get op = none :=
    (OrderedMap.get_insert_of_ne hne).trans hp.commands
  split
  · split
    · exact ⟨hp.operations, hp.positionMap, hcommands, hp.orderedParametersMap⟩
    · exact ⟨hp.operations, hp.positionMap, hcommands,
        (OrderedMap.get_insert_of_ne hne).trans hp.orderedParametersMap⟩
  · exact ⟨hp.operations, hp.positionMap, hcommands, hp.orderedParametersMap⟩

/-- The operation of a command with parameters. -/
lemma addCommandAsOperation_eq {rest : List (ℤ × CommandParameter)}
    (hcommand : p.commands.get op = some v) (hordered : p.orderedParametersMap.get op = some params)
    (hfirst : params.entries = (base, first) :: rest) :
    addCommandAsOperation F p op = { p with
      operations := p.operations.insert (op,
        operationOf op base first params.entries.length)
      positionMap := p.positionMap.insert (op, labelsOf F params) } := by
  have hbase : p.getBaseAddress op = base := by
    rw [getBaseAddress, hordered, Option.map_some, hfirst]
  rw [addCommandAsOperation, hcommand, hordered, hbase]
  dsimp only
  split
  · next hnil => rw [hnil] at hfirst; cases hfirst
  · next hcons =>
      obtain ⟨heq, -⟩ := List.cons.inj (hcons.symm.trans hfirst)
      cases heq
      rfl

/-- A new command is there as an operation. -/
lemma Free.readBack {rest : List (ℤ × CommandParameter)} (hp : Free p op)
    (hname : v.get "name" = some op) (hparams : namesMap v = some params)
    (hfirst : params.entries = (base, first) :: rest)
    (h : ModbusOperationProcessor.readCommand F p v = some p') :
    ReadBack F p' op base first params := by
  have hne : params.entries ≠ [] := by
    rw [hfirst]
    exact List.cons_ne_nil _ _
  rw [ModbusOperationProcessor.readCommand, hname] at h
  obtain rfl := Option.some.inj h
  rw [hparams]
  dsimp only
  rw [if_neg hne, addCommandAsOperation_eq (OrderedMap.get_insert_of_none hp.commands)
    (OrderedMap.get_insert_of_none hp.orderedParametersMap) hfirst]
  exact ⟨OrderedMap.get_insert_of_none hp.operations, OrderedMap.get_insert_of_none hp.positionMap⟩

lemma ReadBack.addCommandAsOperation (hp : ReadBack F p op base first params) :
    ReadBack F (ModbusOperationProcessor.addCommandAsOperation F p name) op base first params := by
  rw [ModbusOperationProcessor.addCommandAsOperation]
  split
  · split
    · exact hp
    · exact ⟨OrderedMap.get_insert_of_some hp.operation, OrderedMap.get_insert_of_some hp.labels⟩
  · exact hp

/-- It stays there. -/
lemma ReadBack.readCommand (hp : ReadBack F p op base first params)
    (h : ModbusOperationProcessor.readCommand F p v = some p') :
    ReadBack F p' op base first params := by
  obtain ⟨name, -, rfl⟩ := Option.map_eq_some_iff.mp h
  refine ReadBack.addCommandAsOperation ?_
  split
  · split
    · exact ⟨hp.operation, hp.labels⟩
    · exact ⟨hp.operation, hp.labels⟩
  · exact ⟨hp.operation, hp.labels⟩

/-- A command that a file provides is there as an operation. -/
theorem readBack_of_provides {rest : List (ℤ × CommandParameter)} (h : Provides doc op params)
    (hfirst : params.entries = (base, first) :: rest) :
    ReadBack F (readOperations F empty doc) op base first params := by
  obtain ⟨commands, before, v, after, hcommands, hsplit, hbefore, hname, hparams⟩ := h.command
  have hsome : ∀ e ∈ before, ∀ p : ModbusOperationProcessor φ,
      (ModbusOperationProcessor.readCommand F p e.2).isSome := by
    intro e he p
    obtain ⟨name, hname, -⟩ := hbefore e he
    rw [ModbusOperationProcessor.readCommand, hname]
    rfl
  have hfree : Free (readEach (ModbusOperationProcessor.readCommand F) (read F empty doc)
      before).1 op :=
    readEach_keeps (P := fun p => Free p op) (fun e he p p' hp h => by
      obtain ⟨name, hname, hne⟩ := hbefore e he
      exact hp.readCommand hname hne h) (free_read h)
  rw [readOperations, readCommands, hcommands]
  dsimp only
  rw [hsplit, readEach_append hsome, readEach]
  split
  · next hnone =>
      rw [ModbusOperationProcessor.readCommand, hname] at hnone
      cases hnone
  · next p hp =>
      exact readEach_keeps (P := fun p => ReadBack F p op base first params)
        (fun e _ p p' hp h => hp.readCommand h) (hfree.readBack hname hparams hfirst hp)

/-! ### From the operation to the values -/

/-- The request of such an operation. -/
lemma ofOperation_operationOf {slaveAddr : UInt8} {b n : ℕ} (hb : b < 2 ^ 16)
    (hn : numOfPositions first n < 2 ^ 16) :
    Modbus.ofOperation slaveAddr (operationOf op b first n) =
      some (.request slaveAddr .readHoldingRegisters (UInt16.ofNat b)
        (UInt16.ofNat (numOfPositions first n))) := by
  have hget : ∀ key, key ≠ "modbusRegisterType" → (operationOf op b first n).get key =
      ((((((PropertyTree.node [] []).put "operation" op).put "modbusOperation" "3").put
        "modbusAddress" (toString (b : ℤ))).put "modbusNumberOfPositions"
          (numOfPositions first n).repr).put "modbusNumberOfRegisters" n.repr).get key := by
    intro key hkey
    rw [operationOf]
    split
    · simp only [PropertyTree.get_put, if_neg hkey]
    · rfl
  have hthree : StreamNumber.readUShort "3" = some 3 :=
    StreamNumber.readUShort_repr (n := 3) (by decide)
  have haddress : StreamNumber.readUShort (toString (b : ℤ)) = some (UInt16.ofNat b) :=
    StreamNumber.readUShort_repr hb
  rw [Modbus.ofOperation, hget _ (by decide), hget _ (by decide), hget _ (by decide)]
  simp only [PropertyTree.get_put, String.reduceEq, if_true, if_false, Option.bind_some, hthree,
    haddress, StreamNumber.readUShort_repr hn]

end ModbusOperationProcessor

namespace Modbus

open Fragments

/-- The answer of a slave with these registers to a read of `n` of them. -/
def slaveAnswer (slaveAddr : UInt8) (registers : ℤ → UInt16) (base : ℤ) (n : ℕ) : List UInt8 :=
  withCrc (slaveAddr :: FunctionCode.readHoldingRegisters.byte :: UInt8.ofNat (2 * n) ::
    ((List.range n).map fun j : ℕ => registers (base + j)).flatMap fun v => [hiByte v, loByte v])

lemma registerAt_cons {a : UInt8} {l : List UInt8} {i : ℕ} :
    registerAt (a :: l) (i + 1) = registerAt l i := rfl

/-- The words of an answer are its registers. -/
lemma registerAt_words {words : List UInt16} {tail : List UInt8} {j : ℕ} (hj : j < words.length) :
    registerAt ((words.flatMap fun v => [hiByte v, loByte v]) ++ tail) (2 * j) = words[j] := by
  induction words generalizing j with
  | nil => cases hj
  | cons w words ih =>
      cases j with
      | zero => exact word_hiByte_loByte w
      | succ j => exact ih (Nat.lt_of_succ_lt_succ hj)

section Answer

variable {slaveAddr : UInt8} {registers : ℤ → UInt16} {base : ℤ} {b n : ℕ}

lemma registersFrom_slaveAnswer {a : UInt16} :
    registersFrom (slaveAnswer slaveAddr registers base n) a n =
      (List.range n).map fun j : ℕ => (a + UInt16.ofNat (j + 1), registers (base + j)) := by
  rw [registersFrom]
  refine List.map_congr_left fun j hj => ?_
  have hlen : j < ((List.range n).map fun j : ℕ => registers (base + j)).length := by
    rwa [List.length_map, List.length_range, ← List.mem_range]
  have hword : registerAt (slaveAnswer slaveAddr registers base n) (3 + 2 * j) =
      registers (base + j) := by
    rw [slaveAnswer, withCrc, Nat.add_comm 3, List.cons_append, List.cons_append, List.cons_append,
      registerAt_cons, registerAt_cons, registerAt_cons, registerAt_words hlen, List.getElem_map,
      List.getElem_range]
  rw [hword]

lemma length_slaveAnswer : (slaveAnswer slaveAddr registers base n).length = 2 * n + 5 := by
  rw [slaveAnswer, length_withCrc, List.length_cons, List.length_cons, List.length_cons,
    length_flatMap_bytes, List.length_map, List.length_range]

lemma byteCount_slaveAnswer (hn : n < 128) :
    byteCount (slaveAnswer slaveAddr registers base n) = 2 * n := by
  show (UInt8.ofNat (2 * n)).toNat = 2 * n
  rw [UInt8.toNat_ofNat']
  omega

/-- The whole answer is decoded. -/
lemma decode_slaveAnswer (hn : n < 128) (hb : b + n < 2 ^ 16) :
    ((request slaveAddr .readHoldingRegisters (UInt16.ofNat b) (UInt16.ofNat n)).collected
      (slaveAnswer slaveAddr registers base n)).decode =
      (true, registersFrom (slaveAnswer slaveAddr registers base n) (UInt16.ofNat b) n) := by
  set frame := slaveAnswer slaveAddr registers base n with hframe
  have hcount : byteCount frame = 2 * n := byteCount_slaveAnswer hn
  have hlength : frame.length = 2 * n + 5 := length_slaveAnswer
  have hcounted : AsCounted frame := ⟨by omega, by omega⟩
  have haddr : (UInt16.ofNat b).toNat + n < 65536 := by
    rw [UInt16.toNat_ofNat']
    omega
  have hcrc : checkCrc frame = true := checkCrc_withCrc _
  have hregisters := readRegisters_asCounted haddr hcounted hcount (Or.inl rfl)
  obtain ⟨rest, hcons⟩ : ∃ rest, frame = slaveAddr :: FunctionCode.readHoldingRegisters.byte ::
      UInt8.ofNat (2 * n) :: rest := ⟨_, rfl⟩
  have hbytes : (UInt8.ofNat (2 * n)).toNat = byteCount frame := by rw [hcons]; rfl
  rw [← hregisters, ← hbytes]
  rw [hcons] at hcrc hlength ⊢
  simp only [decode, collected, request, hcrc, ne_eq, not_true_eq_false, Bool.true_eq_false,
    or_self, if_false]
  exact if_neg (by omega)

/-- **A read of registers**: whatever the chunks of the answer, the read ends well, with the
registers that were asked for. -/
theorem deliver_slaveAnswer (hn : n < 128) (hb : b + n < 2 ^ 16) {chunks : List (List UInt8)}
    (hne : ∀ chunk ∈ chunks, chunk ≠ [])
    (hchunks : chunks.flatten = slaveAnswer slaveAddr registers b n) :
    (deliver feed (request slaveAddr .readHoldingRegisters (UInt16.ofNat b) (UInt16.ofNat n))
        chunks).1.getLast? = some (true, true) ∧
      (deliver feed (request slaveAddr .readHoldingRegisters (UInt16.ofNat b) (UInt16.ofNat n))
        chunks).2.values =
        (List.range n).map fun j : ℕ => (UInt16.ofNat b + UInt16.ofNat (j + 1),
          registers ((b : ℤ) + j)) := by
  have hm : Unconfirmed (request slaveAddr .readHoldingRegisters (UInt16.ofNat b)
    (UInt16.ofNat n)) := .read ..
  have hvalid : ValidResponse (request slaveAddr .readHoldingRegisters (UInt16.ofNat b)
      (UInt16.ofNat n)) (slaveAnswer slaveAddr registers b n) := by
    refine ⟨_, rfl, _, _, rfl, ?_⟩
    rw [length_flatMap_bytes, List.length_map, List.length_range]
    rw [UInt8.toNat_ofNat']
    omega
  have hcs : chunks ≠ [] := by
    rintro rfl
    have hlength := congrArg List.length hchunks
    rw [length_slaveAnswer] at hlength
    cases hlength
  have hdeliver := (collects_response hm.awaitsAnswer (hm.wholeAnswer hvalid)).deliver_eq hcs hne
    (b := []) hchunks
  have hstart : (request slaveAddr .readHoldingRegisters (UInt16.ofNat b)
    (UInt16.ofNat n)).collected [] = request slaveAddr .readHoldingRegisters (UInt16.ofNat b)
      (UInt16.ofNat n) := rfl
  rw [hstart] at hdeliver
  have hdecode : ((request slaveAddr .readHoldingRegisters (UInt16.ofNat b)
      (UInt16.ofNat n)).collected (slaveAnswer slaveAddr registers b n)).decode = (true, _) :=
    decode_slaveAnswer hn hb
  rw [registersFrom_slaveAnswer] at hdecode
  rw [hdeliver, List.getLast?_append, List.getLast?_singleton, Option.some_or]
  exact ⟨congrArg (fun d => some (d.1, true)) hdecode, congrArg Prod.snd hdecode⟩

end Answer

/-! ### The values under their labels -/

section Labels

variable {φ : Type} {F : Floats φ} {fields : List (FloatPosition φ)} {values : Registers}
  {mapped : OrderedMap String String} {k : String}

lemma get_insertMapped_of_notMem (hk : k ∉ fields.map FloatPosition.name) :
    (insertMapped F fields values mapped).get k = mapped.get k := by
  induction fields generalizing values mapped with
  | nil => rfl
  | cons field fields ih =>
      rw [List.map_cons, List.mem_cons, not_or] at hk
      cases values with
      | nil => rfl
      | cons e values =>
          rw [insertMapped, ih hk.2]
          split
          · rfl
          · exact OrderedMap.get_insert_of_ne (Ne.symm hk.1)

/-- Under a label stands the value at its place. -/
lemma get_insertMapped (hnames : ∀ field ∈ fields, field.name ≠ "")
    (hdistinct : (fields.map FloatPosition.name).Nodup)
    (hfree : ∀ field ∈ fields, mapped.get field.name = none) {i : ℕ} (hi : i < fields.length)
    (hvalue : i < values.length) : (insertMapped F fields values mapped).get fields[i].name =
      some (F.fixed fields[i].factor fields[i].precision values[i].2) := by
  induction fields generalizing values mapped i with
  | nil => cases hi
  | cons field fields ih =>
      rw [List.map_cons, List.nodup_cons] at hdistinct
      cases values with
      | nil => cases hvalue
      | cons e values =>
          rw [insertMapped, if_neg (hnames field (List.mem_cons_self ..))]
          cases i with
          | zero =>
              refine (get_insertMapped_of_notMem hdistinct.1).trans ?_
              exact OrderedMap.get_insert_of_none (hfree field (List.mem_cons_self ..))
          | succ i =>
              refine ih (fun f hf => hnames f (List.mem_cons_of_mem _ hf)) hdistinct.2 ?_
                (Nat.lt_of_succ_lt_succ hi) (Nat.lt_of_succ_lt_succ hvalue)
              intro f hf
              have hne : field.name ≠ f.name := fun h =>
                hdistinct.1 (h ▸ List.mem_map_of_mem hf)
              exact (OrderedMap.get_insert_of_ne hne).trans (hfree f (List.mem_cons_of_mem _ hf))

end Labels

end Modbus

namespace ModbusOperationProcessor

open Fragments

variable {φ : Type} {F : Floats φ} {doc : PropertyTree Char} {op : String} {params : ParamsMap}
  {first : CommandParameter} {rest : List (ℤ × CommandParameter)} {b : ℕ} {slaveAddr : UInt8}

/-- The operation of a command reads its parameters back: whatever the registers of the device and
the chunks of its answer to the request, every parameter has the value of the register at its own
address. -/
def ReadsBack (F : Floats φ) (p : ModbusOperationProcessor φ) (op : String) (params : ParamsMap)
    (slaveAddr : UInt8) : Prop :=
  ∃ m, Modbus.ofOperation slaveAddr (p.getOperation op) = some m ∧
    ∀ (registers : ℤ → UInt16) (chunks : List (List UInt8)), (∀ chunk ∈ chunks, chunk ≠ []) →
      chunks.flatten = Modbus.slaveAnswer slaveAddr registers m.addressData.toNat
        m.numberOfOrValue.toNat →
      ∀ e ∈ params.entries, ((deliver Modbus.feed m chunks).2.getMappedValues F
        (p.getMappedLabels op)).get e.2.name = some (registers e.1).toNat.repr

/-- What is read of such an operation under the label of a parameter. -/
lemma get_getMappedValues {p : ModbusOperationProcessor φ} {m : Modbus}
    (hfixed : ∀ v, F.fixed F.one 0 v = v.toNat.repr) (hnames : ∀ e ∈ params.entries, e.2.name ≠ "")
    (hdistinct : (params.entries.map fun e => e.2.name).Nodup)
    (hlabels : p.getMappedLabels op = labelsOf F params)
    (hlen : m.values.length = params.entries.length) {i : ℕ} (hi : i < params.entries.length)
    (hvalue : i < m.values.length) :
    (m.getMappedValues F (p.getMappedLabels op)).get params.entries[i].2.name =
      some m.values[i].2.toNat.repr := by
  have hlength : (labelsOf F params).length = params.entries.length := List.length_map _
  have hne : labelsOf F params ≠ [] := by
    intro hnil
    rw [← hlength, hnil] at hi
    cases hi
  have hname : ∀ field ∈ labelsOf F params, field.name ≠ "" := by
    intro field hfield
    obtain ⟨e, he, rfl⟩ := List.mem_map.mp hfield
    exact hnames e he
  have hnodup : ((labelsOf F params).map FloatPosition.name).Nodup := by
    rw [labelsOf, List.map_map]
    exact hdistinct
  rw [hlabels, Modbus.getMappedValues, if_neg hne, if_pos (hlength.trans hlen.symm)]
  have hget := Modbus.get_insertMapped (F := F) hname hnodup
    (fun _ _ => OrderedMap.get_empty) (hlength ▸ hi) hvalue
  simp only [labelsOf, List.getElem_map, hfixed] at hget
  exact hget

lemma getMappedValues_eq_empty {p : ModbusOperationProcessor φ} {m : Modbus}
    (hlabels : p.getMappedLabels op = labelsOf F params) (hparams : params.entries ≠ [])
    (hlen : m.values.length ≠ params.entries.length) :
    m.getMappedValues F (p.getMappedLabels op) = OrderedMap.empty := by
  have hne : labelsOf F params ≠ [] := fun hnil => hparams (List.map_eq_nil_iff.mp hnil)
  have hlength : (labelsOf F params).length = params.entries.length := List.length_map _
  rw [hlabels, Modbus.getMappedValues, if_neg hne, if_neg (hlength ▸ hlen.symm)]

/-- **The commands that are read back**: the operation of a command of the file reads its
parameters back exactly when it asks for as many registers as the command has parameters, and these
stand one behind the other. -/
theorem readsBack_iff (hfixed : ∀ v, F.fixed F.one 0 v = v.toNat.repr)
    (h : Provides doc op params) (hfirst : params.entries = (↑b, first) :: rest)
    (hnames : ∀ e ∈ params.entries, e.2.name ≠ "")
    (hdistinct : (params.entries.map fun e => e.2.name).Nodup)
    (hasked : numOfPositions first params.entries.length < 128)
    (hrange : b + numOfPositions first params.entries.length < 2 ^ 16) :
    ReadsBack F (readOperations F empty doc) op params slaveAddr ↔
      numOfPositions first params.entries.length = params.entries.length ∧
        ∀ (i : ℕ) (hi : i < params.entries.length), params.entries[i].1 = b + i := by
  obtain ⟨hoperation, hlabels⟩ := readBack_of_provides (F := F) h hfirst
  set p := readOperations F empty doc
  set n := numOfPositions first params.entries.length with hn
  have hlabels' : p.getMappedLabels op = labelsOf F params := by
    rw [getMappedLabels, hlabels, Option.getD_some]
  have hrequest : Modbus.ofOperation slaveAddr (p.getOperation op) =
      some (.request slaveAddr .readHoldingRegisters (UInt16.ofNat b) (UInt16.ofNat n)) := by
    rw [getOperation, hoperation, Option.getD_some]
    exact ofOperation_operationOf (by omega) (by omega)
  have haddress : (UInt16.ofNat b).toNat = b := by
    rw [UInt16.toNat_ofNat']
    omega
  have hnumber : (UInt16.ofNat n).toNat = n := by
    rw [UInt16.toNat_ofNat']
    omega
  -- what is under the label of a parameter, for any registers and chunks
  have hvalues : ∀ (registers : ℤ → UInt16) (chunks : List (List UInt8)),
      (∀ chunk ∈ chunks, chunk ≠ []) →
      chunks.flatten = Modbus.slaveAnswer slaveAddr registers b n →
      n = params.entries.length → ∀ (i : ℕ) (hi : i < params.entries.length),
        ((deliver Modbus.feed (.request slaveAddr .readHoldingRegisters (UInt16.ofNat b)
          (UInt16.ofNat n)) chunks).2.getMappedValues F (p.getMappedLabels op)).get
            params.entries[i].2.name = some (registers (b + i)).toNat.repr := by
    intro registers chunks hne hchunks heq i hi
    obtain ⟨-, hread⟩ := Modbus.deliver_slaveAnswer hasked hrange hne hchunks
    have hlen := (congrArg List.length hread).trans
      ((List.length_map ..).trans (List.length_range.trans heq))
    rw [get_getMappedValues hfixed hnames hdistinct hlabels' hlen hi (hlen.symm ▸ hi)]
    simp only [hread, List.getElem_map, List.getElem_range]
  have hanswer : ∀ registers : ℤ → UInt16, ∀ chunk ∈ [Modbus.slaveAnswer slaveAddr registers b n],
      chunk ≠ [] := by
    rintro registers chunk hmem rfl
    have hlength := congrArg List.length (List.mem_singleton.mp hmem)
    rw [Modbus.length_slaveAnswer] at hlength
    cases hlength
  constructor
  · rintro ⟨m, hm, hback⟩
    rw [hrequest] at hm
    obtain rfl := Option.some.inj hm
    have hback : ∀ registers, ∀ e ∈ params.entries, ((deliver Modbus.feed (.request slaveAddr
        .readHoldingRegisters (UInt16.ofNat b) (UInt16.ofNat n)) [Modbus.slaveAnswer slaveAddr
          registers b n]).2.getMappedValues F (p.getMappedLabels op)).get e.2.name =
            some (registers e.1).toNat.repr := by
      intro registers
      refine hback registers _ (hanswer registers) ?_
      rw [List.flatten_singleton]
      show _ = Modbus.slaveAnswer slaveAddr registers (UInt16.ofNat b).toNat (UInt16.ofNat n).toNat
      rw [haddress, hnumber]
    have hlength : n = params.entries.length := by
      by_contra hlen
      have hmem : (↑b, first) ∈ params.entries := by
        rw [hfirst]
        exact List.mem_cons_self ..
      obtain ⟨-, hread⟩ := Modbus.deliver_slaveAnswer hasked hrange (hanswer fun _ => 0)
        (List.flatten_singleton ..)
      have hcount := (congrArg List.length hread).trans
        ((List.length_map ..).trans List.length_range)
      have hvalue := hback (fun _ => 0) _ hmem
      rw [getMappedValues_eq_empty hlabels' (List.ne_nil_of_mem hmem)
        fun h => hlen (hcount.symm.trans h)] at hvalue
      cases hvalue
    refine ⟨hlength, fun i hi => ?_⟩
    -- the registers tell the address of the parameter from all others
    have hvalue := hback (fun a => if a = params.entries[i].1 then 1 else 0) _
      (List.getElem_mem hi)
    rw [hvalues _ _ (hanswer _) (List.flatten_singleton ..) hlength i hi, if_pos rfl] at hvalue
    by_contra hne
    rw [if_neg (Ne.symm hne)] at hvalue
    exact absurd hvalue (by decide)
  · rintro ⟨hlength, hplaces⟩
    refine ⟨_, hrequest, fun registers chunks hne hchunks e he => ?_⟩
    have hanswer : Modbus.slaveAnswer slaveAddr registers (UInt16.ofNat b).toNat
      (UInt16.ofNat n).toNat = Modbus.slaveAnswer slaveAddr registers b n := by
        rw [haddress, hnumber]
    obtain ⟨i, hi, rfl⟩ := List.getElem_of_mem he
    rw [hvalues registers chunks hne (hchunks.trans hanswer) hlength i hi, hplaces i hi]

def leaf (text : String) : PropertyTree Char := .node text.toList []

def parameterAt (name address : String) : List Char × PropertyTree Char :=
  ([], .node [] [("name".toList, leaf name), ("address".toList, leaf address)])

/-- A command with four parameters, the last one at the least address. -/
def testCommand : PropertyTree Char :=
  .node [] [("name".toList, leaf "test_command"), ("parameters".toList, .node [] [
    parameterAt "second" "21", parameterAt "third" "22", parameterAt "fourth" "23",
    parameterAt "first" "20"])]

def testFile : PropertyTree Char :=
  .node [] [("commands".toList, .node [] [([], testCommand)])]

/-- Its parameters. -/
def numericAt (name : String) (address : ℤ) : ℤ × CommandParameter :=
  (address, { baseAddress := address, numPositions := 1, name, type := "numeric" })

def testParams : ParamsMap where
  entries := [numericAt "first" 20, numericAt "second" 21, numericAt "third" 22,
    numericAt "fourth" 23]
  ordered := by decide

/-- Whole numbers by the factor one. -/
def wholeNumbers : Floats Unit where
  one := ()
  read _ := some ()
  fixed _ _ v := v.toNat.repr

lemma provides_testFile : Provides testFile "test_command" testParams where
  noOperation _ h := by cases h
  command := ⟨_, [], ([], testCommand), [], rfl, rfl,
    fun _ h => absurd h List.not_mem_nil, rfl, rfl⟩

/-- One register is asked for, and nothing is read back. -/
theorem not_readsBack_testCommand :
    ¬ ReadsBack wholeNumbers (readOperations wholeNumbers empty testFile) "test_command"
      testParams 1 := by
  intro h
  have hiff := (readsBack_iff (b := 20) (fun _ => rfl) provides_testFile rfl (by decide) (by decide)
    (by decide) (by decide)).mp h
  exact absurd hiff.1 (by decide)

end ModbusOperationProcessor

end IotAgent
