import IotAgent.Esp.Attribute

/-!
The tags of a command and how they are run over a context (`src/esp/source/TDA.cpp`,
`src/esp/plugins/parser_basic/ESP_Plugin_Parser_Basic.cpp`).

A tag is a tree with flags. A tag that is executed sees its parents: a value tag the count of the
loop around it, an option its switch, and a break sets the loop around it to its end.

* `Context`: the buffers with their read index, the measures and the results;
* `Tag`, `Tag.reset`, `Tag.setChildrenParsed`: the trees and their flags;
* `execute`: the tags of the basic parser;
* `run`, `runWhile`, `runNext`: a tag and its children, with fuel for the loops of the source;
* `Runs`: a run that returns.
-/

namespace IotAgent

namespace Esp

/-! ### The context -/

/-- `CC_AttributesType`, in the order of the names. -/
abbrev Attributes := List (String × EspAttribute)

/-- `attributes[name] = attr`. -/
def setAttribute (name : String) (attr : EspAttribute) : Attributes → Attributes
  | [] => [(name, attr)]
  | a :: attributes =>
      if name = a.1 then (name, attr) :: attributes
      else if name < a.1 then (name, attr) :: a :: attributes
      else a :: setAttribute name attr attributes

/-- `ESP_Context`. -/
structure Context where
  input : List UInt8
  indexEnd : ℕ
  indexEndSaved : ℕ
  output : List UInt8
  close : Bool
  temp : Attributes
  results : List Attributes
  deriving DecidableEq

namespace Context

/-- A new context. -/
def empty : Context := ⟨[], 0, 0, [], false, [], []⟩

/-- `addInputData`. -/
def addInputData (c : Context) (data : List UInt8) : Context :=
  { c with input := c.input ++ data }

/-- `getAvailableInputData`. -/
def getAvailableInputData (c : Context) : ℤ :=
  (c.input.length : ℤ) - c.indexEnd

/-- What stands in the input buffer from the read index on. -/
def pending (c : Context) : List UInt8 :=
  c.input.drop c.indexEnd

/-- `readPInputData`: the buffer from the read index on, which moves behind the bytes read. -/
def readPInputData (c : Context) (bytes : ℤ) : Option (List UInt8) × Context :=
  if 0 < bytes ∧ bytes ≤ c.getAvailableInputData then
    (some c.pending, { c with indexEnd := c.indexEnd + bytes.toNat })
  else (none, c)

/-- `validateInputData`: the bytes before the read index, or before the offset, are dropped. -/
def validateInputData (c : Context) (offset : ℕ) : Context :=
  let indexEnd := if offset ≠ 0 then offset else c.indexEnd
  { c with input := c.input.drop indexEnd, indexEnd := 0 }

/-- `addResultData`: the measures without those of names that start with an underscore. -/
def addResultData (c : Context) : Context :=
  let finalValues := c.temp.filter fun a => !a.2.name.startsWith "_"
  if 0 < finalValues.length then { c with results := c.results ++ [finalValues] } else c

/-- `saveIndex`. -/
def saveIndex (c : Context) : Context := { c with indexEndSaved := c.indexEnd }

/-- `restoreIndex`. -/
def restoreIndex (c : Context) : Context := { c with indexEnd := c.indexEndSaved }

/-- `searchAttributeValueInRange`, as the distance from the read index. -/
def searchAttributeValueInRange (c : Context) (attr : EspAttribute) (offset size : ℤ) :
    Option ℤ :=
  let value := (attr.value.getD []).take attr.datasize
  ((List.range (size - offset).toNat).map fun i => offset + (i : ℤ)).find? fun i =>
    decide (0 ≤ c.indexEnd + i) &&
      decide ((attr.datasize : ℤ) ≤ c.input.length - (c.indexEnd + i)) &&
      ((c.input.drop (c.indexEnd + i).toNat).take attr.datasize == value)

/-- `searchAttributeValue`. -/
def searchAttributeValue (c : Context) (attr : EspAttribute) : Option ℤ :=
  c.searchAttributeValueInRange attr 0 c.getAvailableInputData

/-- `addOutputData`. -/
def addOutputData (c : Context) (data : List UInt8) : Context :=
  { c with output := c.output ++ data }

end Context

/-! ### Tags -/

/-- The tags that `createParser` makes, and the three roots of a command. -/
inductive Kind
  | header | body | footer
  | read | write | constraint | close | clear | break
  | value (nameref : String) (resetend : Bool)
  | condition (operation : String)
  | result (nodata : Bool)
  | switch (evaluated : Bool)
  | option
  | loop (iterations : ℤ) (breakonempty : Bool) (iter niter : ℤ)
  deriving DecidableEq

/-- What a tag is, without its flags and its children. -/
structure Head where
  kind : Kind
  name : String
  byteoffset : ℤ
  datasize : ℤ
  datatype : DataType
  datacode : DataCode
  value : EspAttribute
  loop : Bool
  valueref : String
  deriving DecidableEq

/-- A head with nothing but its kind. -/
def Head.bare (kind : Kind) : Head :=
  ⟨kind, "", 0, 0, .unknown, .unknown, EspAttribute.empty, false, ""⟩

/-- `ESP_Tag_Base`. -/
inductive Tag
  | node (head : Head) (parsed again : Bool) (children : List Tag)

/-- What a tag sees when it is executed: the context, and its parents from the nearest on. -/
structure Env where
  context : Context
  parents : List Head

/-- `ExecuteResultType`. -/
inductive ExecuteResult
  | error | idle | ok
  deriving DecidableEq

/-- What `reset` does beside the flags: a loop starts again, a switch is not evaluated. -/
def Kind.reset : Kind → Kind
  | .loop iterations breakonempty _ _ => .loop iterations breakonempty iterations 0
  | .switch _ => .switch false
  | kind => kind

/-- `reset` of what a tag is. -/
def Head.reset (h : Head) : Head := { h with kind := h.kind.reset }

namespace Tag

def head : Tag → Head
  | node head _ _ _ => head

/-- `_parsed`. -/
def parsed : Tag → Bool
  | node _ parsed _ _ => parsed

/-- `_repeat`. -/
def again : Tag → Bool
  | node _ _ again _ => again

/-- `subtags`. -/
def children : Tag → List Tag
  | node _ _ _ children => children

mutual

/-- `reset`. -/
def reset : Tag → Tag
  | node head _ _ children => node head.reset false false (resetAll children)

/-- `reset` of the children. -/
def resetAll : List Tag → List Tag
  | [] => []
  | t :: ts => t.reset :: resetAll ts

end

mutual

/-- `setChildrenParsed(true, status)`. -/
def setParsed (status : Bool) : Tag → Tag
  | node head _ again children => node head status again (setAllParsed status children)

/-- `setChildrenParsed(true, status)` of the children. -/
def setAllParsed (status : Bool) : List Tag → List Tag
  | [] => []
  | t :: ts => t.setParsed status :: setAllParsed status ts

end

/-- `getNextTag`: the first child that is not parsed, between those before and behind it. -/
def getNextTag : List Tag → Option (List Tag × Tag × List Tag)
  | [] => none
  | t :: ts =>
      if t.parsed then (getNextTag ts).map fun s => (t :: s.1, s.2.1, s.2.2)
      else some ([], t, ts)

end Tag

/-! ### Execution -/

/-- `searchParent(this, "loop")`: the count of the nearest loop. -/
def loopCount : List Head → Option ℤ
  | [] => none
  | h :: parents =>
      match h.kind with
      | .loop _ _ _ niter => some niter
      | _ => loopCount parents

/-- The nearest loop gets no more iterations. -/
def breakLoop : List Head → List Head
  | [] => []
  | h :: parents =>
      match h.kind with
      | .loop iterations breakonempty _ niter =>
          { h with kind := .loop iterations breakonempty 0 niter } :: parents
      | _ => h :: breakLoop parents

/-- What executing a tag does: its result, the tag afterwards without flags and children, what is
around it, and whether its children are cancelled, `setChildrenParsed(true, true)`. -/
structure Executed where
  result : ExecuteResult
  head : Head
  env : Env
  cancel : Bool

section Library

variable (lib : CLib)

/-- A reference into the measures. -/
def searchAttributeRefByName (c : Context) (name : String) : Option EspAttribute :=
  c.temp.lookup name

/-- `ESP_Tag_Read::execute`. -/
def executeRead (h : Head) (env : Env) : Executed :=
  match env.context.readPInputData h.datasize with
  | (some _, context) => ⟨.ok, h, { env with context := context }, false⟩
  | (none, context) => ⟨.idle, h, { env with context := context }, false⟩

/-- The value that a reference gives, where it is set and found. -/
def updateRef (h : Head) (c : Context) : Head :=
  if h.valueref ≠ "" then
    match searchAttributeRefByName c h.valueref with
    | some attr => { h with value := attr }
    | none => h
  else h

/-- `ESP_Tag_Write::execute`. -/
def executeWrite (h : Head) (env : Env) : Executed :=
  let h := updateRef h env.context
  ⟨.ok, h, { env with context :=
    env.context.addOutputData ((h.value.value.getD []).take h.value.datasize) }, false⟩

/-- `ESP_Tag_Constraint::execute`. -/
def executeConstraint (h : Head) (env : Env) : Executed :=
  match env.context.readPInputData h.datasize with
  | (some buffer, context) =>
      let result := EspAttribute.empty.setValue lib h.name (some buffer) h.datasize.toNat
        h.datatype h.datacode
      if EspAttribute.compareValue lib (some h.value) (some result) = 0 then
        ⟨.ok, h, { env with context := context }, false⟩
      else ⟨.error, h, { env with context := context }, false⟩
  | (none, context) => ⟨.idle, h, { env with context := context }, false⟩

/-- What a value tag reads: where it points to, the size of it, what the source calls `dataread`,
and the context and the tag afterwards. -/
structure ValueRead where
  result : Option (List UInt8)
  finalsize : ℤ
  dataread : ℤ
  context : Context
  head : Head

/-- A read that was made, as a number. -/
def dataread (result : Option (List UInt8)) : ℤ :=
  if result.isSome then 1 else 0

/-- The reading of `ESP_Tag_Value::execute`; `none` is a null pointer that is followed. -/
def readValue (nameref : String) (h : Head) (c : Context) : Option ValueRead :=
  if h.valueref ≠ "" then
    let named : Option Head :=
      if nameref ≠ "" then
        (searchAttributeRefByName c nameref).map fun a => { h with name := a.getValueAsString lib }
      else some h
    named.map fun h =>
      match searchAttributeRefByName c h.valueref with
      | some a =>
          if h.name ≠ "" then
            ⟨a.value, a.datasize, a.datasize, c, { h with
              datatype := if h.datatype = .unknown then a.datatype else h.datatype
              datacode := if h.datacode = .unknown then a.datacode else h.datacode }⟩
          else ⟨none, 0, 0, c, h⟩
      | none => ⟨none, 0, 0, c, h⟩
  else if h.datacode = .stringdelim then
    match c.searchAttributeValue h.value with
    | some index =>
        let finalsize := if h.value.datasize = 0 then c.getAvailableInputData else index
        let (result, c) := c.readPInputData finalsize
        let (_, c) := c.readPInputData h.value.datasize
        some ⟨result, finalsize, dataread result, c, h⟩
    | none =>
        let finalsize := c.getAvailableInputData
        let (result, c) := c.readPInputData finalsize
        some ⟨result, finalsize, dataread result, c, h⟩
  else
    let (result, c) := c.readPInputData h.datasize
    some ⟨result, h.datasize, dataread result, c, h⟩

/-- The name of a measure, where `$` stands for the count of the loop. -/
def finalName (name : String) (parents : List Head) : String :=
  match loopCount parents with
  | some niter => name.replace "$" (toString niter)
  | none => name

/-- `ESP_Tag_Value::execute`. -/
def executeValue (nameref : String) (resetend : Bool) (h : Head) (env : Env) : Option Executed :=
  (readValue lib nameref h env.context.saveIndex).map fun r =>
    let context := if resetend then r.context.restoreIndex else r.context
    if 0 ≤ r.dataread then
      let name := finalName r.head.name env.parents
      let attr := EspAttribute.empty.setValue lib name r.result r.finalsize.toNat
        r.head.datatype r.head.datacode
      ⟨.ok, r.head, { env with context :=
        { context with temp := setAttribute name attr context.temp } }, false⟩
    else ⟨.idle, r.head, { env with context := context }, false⟩

/-- Whether a text stands in another one. -/
def contains (text part : String) : Bool :=
  (List.range (text.length + 1)).any fun i => part.toList.isPrefixOf (text.toList.drop i)

/-- `ESP_Tag_Condition::execute`. -/
def executeCondition (operation : String) (h : Head) (env : Env) : Executed :=
  match searchAttributeRefByName env.context h.valueref with
  | some valueref =>
      let compare := EspAttribute.compareValue lib (some valueref) (some h.value)
      let found := contains (valueref.getValueAsString lib) (h.value.getValueAsString lib)
      let holds := ((operation = "" ∨ operation = "equal") ∧ compare = 0) ∨
        (operation = "notequal" ∧ compare ≠ 0) ∨ (operation = "notcontains" ∧ found = false) ∨
        (operation = "contains" ∧ found = true) ∨ operation = "default"
      ⟨.ok, h, env, !decide holds⟩
  | none =>
      ⟨.ok, h, env,
        (env.context.searchAttributeValueInRange h.value h.byteoffset h.datasize).isNone⟩

/-- `ESP_Tag_Option::execute`. -/
def executeOption (h : Head) (env : Env) : Executed :=
  match env.parents with
  | [] => ⟨.error, h, env, false⟩
  | p :: parents =>
      match p.kind with
      | .switch evaluated =>
          let ref := searchAttributeRefByName env.context p.valueref
          let compare := EspAttribute.compareValue lib ref (some h.value)
          if (compare = 0 ∨ h.value.datasize = 0) ∧ evaluated = false then
            ⟨.ok, h, { env with parents := { p with kind := .switch true } :: parents }, false⟩
          else ⟨.ok, h, env, true⟩
      | _ => ⟨.error, h, env, false⟩

/-- `ESP_Tag_Result::execute`. -/
def executeResult (nodata : Bool) (h : Head) (env : Env) : Executed :=
  if nodata = false ∨ env.context.getAvailableInputData = 0 then
    ⟨.ok, h, { env with context := env.context.addResultData }, false⟩
  else ⟨.ok, h, env, false⟩

/-- `execute` of the tags that are no loops. -/
def executeHead (h : Head) (env : Env) : Option Executed :=
  match h.kind with
  | .header | .body | .footer | .loop .. => some ⟨.ok, h, env, false⟩
  | .read => some (executeRead h env)
  | .write => some (executeWrite h env)
  | .constraint => some (executeConstraint lib h env)
  | .close => some ⟨.ok, h, { env with context := { env.context with close := true } }, false⟩
  | .clear => some ⟨.ok, h, { env with context := { env.context with temp := [] } }, false⟩
  | .break => some ⟨.ok, h, { env with parents := breakLoop env.parents }, false⟩
  | .value nameref resetend => executeValue lib nameref resetend h env
  | .condition operation => some (executeCondition lib operation h env)
  | .result nodata => some (executeResult nodata h env)
  | .switch _ => some ⟨.ok, updateRef h env.context, env, false⟩
  | .option => some (executeOption lib h env)

/-- `execute`: the virtual function, by the kind of the tag. -/
def execute (t : Tag) (env : Env) : Option (ExecuteResult × Tag × Env) :=
  match t.head.kind with
  | .loop iterations breakonempty iter niter =>
      if iter ≠ 0 ∧ (breakonempty = false ∨ 0 < env.context.getAvailableInputData) then
        -- `reset()` sets `iter` to `_iterations` again, only `niter` is put back
        let iter := if 0 < iterations then iterations - 1 else iterations
        let head := { t.head with kind := .loop iterations breakonempty iter (niter + 1) }
        some (.ok, .node head false true (Tag.resetAll t.children), env)
      else
        let head := { t.head with kind := .loop iterations breakonempty 0 niter }
        some (.ok, .node head true false (Tag.setAllParsed true t.children), env)
  | _ =>
      (executeHead lib t.head env).map fun e =>
        (e.result, if e.cancel then .node e.head true t.again (Tag.setAllParsed true t.children)
          else .node e.head t.parsed t.again t.children, e.env)

end Library

/-! ### Running a tag -/

/-- How a tag stands after its children have run. -/
def Tag.withChildren (t : Tag) (ts : List Tag) (inner : Env) : Tag :=
  .node (inner.parents.headD t.head) true t.again ts

/-- The environment of a tag after its children have run. -/
def Env.outer (inner : Env) : Env := ⟨inner.context, inner.parents.tail⟩

/-- The environment of the children of a tag. -/
def Tag.inner (t : Tag) (env : Env) : Env := ⟨env.context, t.head :: env.parents⟩

/-- A tag that repeats is not parsed after its run. -/
def Tag.repeated (t : Tag) : Tag := if t.again then t.setParsed false else t

section Run

-- the virtual function that the base class calls
variable (execute : Tag → Env → Option (ExecuteResult × Tag × Env))

mutual

/-- `ESP_Tag_Base::run`. -/
def run : ℕ → Tag → Env → Option (ExecuteResult × Tag × Env)
  | 0, _, _ => none
  | fuel + 1, t, env =>
      if t.parsed then
        match runNext fuel t.children (t.inner env) with
        | none => none
        | some (result, children, inner) =>
            some (result, t.withChildren children inner, inner.outer)
      else
        match execute t env with
        | none => none
        | some (.ok, t, env) =>
            match runWhile fuel (.node t.head true t.again t.children) env with
            | none => none
            | some (result, t, env) =>
                some (result, t.repeated, env)
        | some (result, t, env) => some (result, t, env)

/-- The loop over `getNextTag` of a tag that has been executed. -/
def runWhile : ℕ → Tag → Env → Option (ExecuteResult × Tag × Env)
  | 0, _, _ => none
  | fuel + 1, t, env =>
      match Tag.getNextTag t.children with
      | none => some (.ok, t, env)
      | some _ =>
          match run fuel t env with
          | none => none
          | some (.ok, t, env) => runWhile fuel t env
          | some (result, t, env) => some (result, t, env)

/-- The children that are not parsed, one after the other. -/
def runNext : ℕ → List Tag → Env → Option (ExecuteResult × List Tag × Env)
  | 0, _, _ => none
  | fuel + 1, children, env =>
      match Tag.getNextTag children with
      | none => some (.ok, children, env)
      | some (before, next, after) =>
          match run fuel next env with
          | none => none
          | some (.ok, next, env) => runNext fuel (before ++ next :: after) env
          | some (result, next, env) => some (result, before ++ next :: after, env)

end

variable {execute}

/-- More fuel, or a virtual function that returns more often, gives the same runs. -/
lemma run_le_all {execute' : Tag → Env → Option (ExecuteResult × Tag × Env)}
    (hle : ∀ t env out, execute t env = some out → execute' t env = some out)
    {fuel fuel' : ℕ} (hfuel : fuel ≤ fuel') :
    (∀ t env out, run execute fuel t env = some out → run execute' fuel' t env = some out) ∧
    (∀ t env out, runWhile execute fuel t env = some out →
      runWhile execute' fuel' t env = some out) ∧
    (∀ ts env out, runNext execute fuel ts env = some out →
      runNext execute' fuel' ts env = some out) := by
  induction fuel generalizing fuel' with
  | zero =>
      refine ⟨fun t env out h => ?_, fun t env out h => ?_, fun ts env out h => ?_⟩
      · rw [run] at h; cases h
      · rw [runWhile] at h; cases h
      · rw [runNext] at h; cases h
  | succ fuel ih =>
      obtain ⟨fuel', rfl⟩ : ∃ n, fuel' = n + 1 := ⟨fuel' - 1, by omega⟩
      obtain ⟨ihRun, ihWhile, ihNext⟩ := ih (Nat.le_of_succ_le_succ hfuel)
      refine ⟨fun t env out h => ?_, fun t env out h => ?_, fun ts env out h => ?_⟩
      · rw [run] at h ⊢
        split at h
        · next hparsed =>
            rw [if_pos hparsed]
            split at h
            · cases h
            · next hnext => rw [ihNext _ _ _ hnext]; exact h
        · next hparsed =>
            rw [if_neg hparsed]
            split at h
            · cases h
            · next hexec =>
                rw [hle _ _ _ hexec]
                dsimp only
                split at h
                · cases h
                · next hwhile => rw [ihWhile _ _ _ hwhile]; exact h
            · next result _ _ hne hexec =>
                rw [hle _ _ _ hexec]
                cases result with
                | ok => exact (hne rfl).elim
                | error => exact h
                | idle => exact h
      · rw [runWhile] at h ⊢
        split at h
        · exact h
        · split at h
          · cases h
          · next hrun => rw [ihRun _ _ _ hrun]; exact ihWhile _ _ _ h
          · next result _ _ hne hrun =>
              rw [ihRun _ _ _ hrun]
              cases result with
              | ok => exact (hne rfl).elim
              | error => exact h
              | idle => exact h
      · rw [runNext] at h ⊢
        split at h
        · exact h
        · split at h
          · cases h
          · next hrun => rw [ihRun _ _ _ hrun]; exact ihNext _ _ _ h
          · next result _ _ hne hrun =>
              rw [ihRun _ _ _ hrun]
              cases result with
              | ok => exact (hne rfl).elim
              | error => exact h
              | idle => exact h

/-! ### Runs that return -/

variable (execute) in
/-- A run that returns, with fuel enough. -/
def Runs (t : Tag) (env : Env) (out : ExecuteResult × Tag × Env) : Prop :=
  ∃ fuel, run execute fuel t env = some out

variable (execute) in
/-- The children that are not parsed, run until one of them does not return `ok`. -/
def RunsNext (ts : List Tag) (env : Env) (out : ExecuteResult × List Tag × Env) : Prop :=
  ∃ fuel, runNext execute fuel ts env = some out

lemma run_mono {fuel fuel' : ℕ} (hfuel : fuel ≤ fuel') {t : Tag} {env : Env}
    {out : ExecuteResult × Tag × Env} (h : run execute fuel t env = some out) :
    run execute fuel' t env = some out :=
  (run_le_all (fun _ _ _ he => he) hfuel).1 _ _ _ h

lemma runWhile_mono {fuel fuel' : ℕ} (hfuel : fuel ≤ fuel') {t : Tag} {env : Env}
    {out : ExecuteResult × Tag × Env} (h : runWhile execute fuel t env = some out) :
    runWhile execute fuel' t env = some out :=
  (run_le_all (fun _ _ _ he => he) hfuel).2.1 _ _ _ h

lemma runNext_mono {fuel fuel' : ℕ} (hfuel : fuel ≤ fuel') {ts : List Tag} {env : Env}
    {out : ExecuteResult × List Tag × Env} (h : runNext execute fuel ts env = some out) :
    runNext execute fuel' ts env = some out :=
  (run_le_all (fun _ _ _ he => he) hfuel).2.2 _ _ _ h

variable {t t' : Tag} {ts ts' front back : List Tag} {env env' : Env} {result : ExecuteResult}

/-- A run returns in one way only. -/
lemma Runs.unique {out out' : ExecuteResult × Tag × Env} (h : Runs execute t env out)
    (h' : Runs execute t env out') : out = out' := by
  obtain ⟨fuel, h⟩ := h
  obtain ⟨fuel', h'⟩ := h'
  have := (run_mono (le_max_left fuel fuel') h).symm.trans (run_mono (le_max_right fuel fuel') h')
  exact Option.some_inj.mp this

lemma RunsNext.unique {out out' : ExecuteResult × List Tag × Env} (h : RunsNext execute ts env out)
    (h' : RunsNext execute ts env out') : out = out' := by
  obtain ⟨fuel, h⟩ := h
  obtain ⟨fuel', h'⟩ := h'
  have := (runNext_mono (le_max_left fuel fuel') h).symm.trans
    (runNext_mono (le_max_right fuel fuel') h')
  exact Option.some_inj.mp this

/-- The next tag is the first that is not parsed. -/
lemma getNextTag_some {s : List Tag × Tag × List Tag} (hs : Tag.getNextTag ts = some s) :
    ts = s.1 ++ s.2.1 :: s.2.2 ∧ s.2.1.parsed = false ∧ ∀ t ∈ s.1, t.parsed = true := by
  induction ts generalizing s with
  | nil => cases hs
  | cons t ts ih =>
      rw [Tag.getNextTag] at hs
      split at hs
      · next hparsed =>
          obtain ⟨s', hs', rfl⟩ := Option.map_eq_some_iff.mp hs
          obtain ⟨hts, hnext, hfront⟩ := ih hs'
          refine ⟨by rw [hts]; rfl, hnext, ?_⟩
          rintro t' (_ | ⟨_, ht'⟩)
          · exact hparsed
          · exact hfront t' ht'
      · next hparsed =>
          cases hs
          exact ⟨rfl, Bool.eq_false_of_not_eq_true hparsed, by simp⟩

/-- Behind children that are parsed, the next tag is that of the others. -/
lemma getNextTag_append (h : ∀ t ∈ front, t.parsed = true) :
    Tag.getNextTag (front ++ back) =
      (Tag.getNextTag back).map fun s => (front ++ s.1, s.2.1, s.2.2) := by
  induction front with
  | nil => cases h : Tag.getNextTag back <;> simp [h]
  | cons t front ih =>
      rw [List.cons_append, Tag.getNextTag, if_pos (h t (by simp)),
        ih fun u hu => h u (by simp [hu]), Option.map_map]
      rfl

lemma getNextTag_eq_none_iff : Tag.getNextTag ts = none ↔ ∀ t ∈ ts, t.parsed = true := by
  induction ts with
  | nil => simp [Tag.getNextTag]
  | cons t ts ih =>
      rw [Tag.getNextTag]
      cases h : t.parsed <;> simp [h, ih]

/-- Children that are all parsed are done. -/
lemma runsNext_of_parsed (h : Tag.getNextTag ts = none) : RunsNext execute ts env (.ok, ts, env) :=
  ⟨1, by rw [runNext, h]⟩

lemma runsNext_of_ok {out : ExecuteResult × List Tag × Env}
    (h : Tag.getNextTag ts = some (front, t, back)) (hrun : Runs execute t env (.ok, t', env'))
    (hrest : RunsNext execute (front ++ t' :: back) env' out) : RunsNext execute ts env out := by
  obtain ⟨fuel, hrun⟩ := hrun
  obtain ⟨fuel', hrest⟩ := hrest
  refine ⟨max fuel fuel' + 1, ?_⟩
  rw [runNext, h]
  dsimp only
  rw [run_mono (le_max_left fuel fuel') hrun]
  exact runNext_mono (le_max_right fuel fuel') hrest

lemma runsNext_of_ne (h : Tag.getNextTag ts = some (front, t, back))
    (hrun : Runs execute t env (result, t', env')) (hne : result ≠ .ok) :
    RunsNext execute ts env (result, front ++ t' :: back, env') := by
  obtain ⟨fuel, hrun⟩ := hrun
  refine ⟨fuel + 1, ?_⟩
  rw [runNext, h]
  dsimp only
  rw [hrun]
  cases result with
  | ok => exact absurd rfl hne
  | error => rfl
  | idle => rfl

/-- Children that have run to their end are all parsed. -/
lemma RunsNext.getNextTag_eq_none (h : RunsNext execute ts env (.ok, ts', env')) :
    Tag.getNextTag ts' = none := by
  obtain ⟨fuel, h⟩ := h
  induction fuel generalizing ts env with
  | zero => rw [runNext] at h; cases h
  | succ fuel ih =>
      rw [runNext] at h
      split at h
      · next hnone => cases h; exact hnone
      · split at h
        · cases h
        · exact ih h
        · next hne _ => cases h; exact (hne rfl).elim

lemma runs_of_parsed (h : t.parsed = true)
    (hnext : RunsNext execute t.children (t.inner env) (result, ts, env')) :
    Runs execute t env (result, t.withChildren ts env', env'.outer) := by
  obtain ⟨fuel, hnext⟩ := hnext
  refine ⟨fuel + 1, ?_⟩
  rw [run, if_pos h, hnext]

lemma runs_of_ne (h : t.parsed = false) (hexec : execute t env = some (result, t', env'))
    (hne : result ≠ .ok) : Runs execute t env (result, t', env') := by
  refine ⟨1, ?_⟩
  rw [run, if_neg (by rw [h]; exact Bool.false_ne_true), hexec]
  cases result with
  | ok => exact absurd rfl hne
  | error => rfl
  | idle => rfl

/-- The loop of a tag that has been executed runs the children once. -/
lemma runWhile_of_runsNext {head : Head} {again : Bool} {inner : Env}
    (hnext : RunsNext execute ts ⟨env.context, head :: env.parents⟩ (result, ts', inner)) :
    ∃ fuel, runWhile execute fuel (.node head true again ts) env =
      some (result, .node (inner.parents.headD head) true again ts', inner.outer) := by
  cases hget : Tag.getNextTag ts with
  | none =>
      obtain ⟨rfl, rfl, rfl⟩ : ExecuteResult.ok = result ∧ ts = ts' ∧
          (⟨env.context, head :: env.parents⟩ : Env) = inner := by
        have := (runsNext_of_parsed hget).unique hnext
        simpa only [Prod.mk.injEq] using this
      refine ⟨1, ?_⟩
      rw [runWhile, Tag.children, hget]
      rfl
  | some s =>
      obtain ⟨fuel, hrun⟩ := runs_of_parsed (t := .node head true again ts) rfl hnext
      cases result with
      | ok =>
          refine ⟨max fuel 1 + 1, ?_⟩
          rw [runWhile, Tag.children, hget]
          dsimp only
          rw [run_mono (le_max_left fuel 1) hrun]
          refine runWhile_mono (le_max_right fuel 1) ?_
          rw [runWhile, Tag.withChildren, Tag.children, hnext.getNextTag_eq_none]
          rfl
      | error =>
          refine ⟨fuel + 1, ?_⟩
          rw [runWhile, Tag.children, hget]
          dsimp only
          rw [hrun]
          rfl
      | idle =>
          refine ⟨fuel + 1, ?_⟩
          rw [runWhile, Tag.children, hget]
          dsimp only
          rw [hrun]
          rfl

/-- A tag that is executed well runs its children, and is not parsed afterwards if it repeats. -/
lemma runs_of_execute {inner : Env} (h : t.parsed = false)
    (hexec : execute t env = some (.ok, t', env'))
    (hnext : RunsNext execute t'.children (t'.inner env') (result, ts, inner)) :
    Runs execute t env (result, (t'.withChildren ts inner).repeated, inner.outer) := by
  obtain ⟨fuel, hwhile⟩ := @runWhile_of_runsNext _ _ _ _ _ _ t'.again _ hnext
  refine ⟨fuel + 1, ?_⟩
  rw [run, if_neg (by rw [h]; exact Bool.false_ne_true), hexec]
  dsimp only
  rw [hwhile]
  rfl

/-- Children behind others that are parsed. -/
lemma runsNext_append_left (hfront : ∀ t ∈ front, t.parsed = true)
    (h : RunsNext execute back env (result, ts', env')) :
    RunsNext execute (front ++ back) env (result, front ++ ts', env') := by
  obtain ⟨fuel, h⟩ := h
  induction fuel generalizing back env with
  | zero => rw [runNext] at h; cases h
  | succ fuel ih =>
      rw [runNext] at h
      split at h
      · next hnone =>
          cases h
          refine runsNext_of_parsed ?_
          rw [getNextTag_append hfront, hnone]
          rfl
      · next ts₁ t ts₂ hsome =>
          have happend : Tag.getNextTag (front ++ back) = some (front ++ ts₁, t, ts₂) := by
            rw [getNextTag_append hfront, hsome]
            rfl
          split at h
          · cases h
          · next t' env₁ hrun =>
              refine runsNext_of_ok happend ⟨_, hrun⟩ ?_
              rw [List.append_assoc]
              exact ih h
          · next hne hrun =>
              cases h
              rw [← List.append_assoc]
              exact runsNext_of_ne happend ⟨_, hrun⟩ fun he => hne he

/-- Children that run to their end, and then those behind them. -/
lemma runsNext_append {out : ExecuteResult × List Tag × Env}
    (h : RunsNext execute front env (.ok, ts', env'))
    (hback : RunsNext execute (ts' ++ back) env' out) :
    RunsNext execute (front ++ back) env out := by
  obtain ⟨fuel, h⟩ := h
  induction fuel generalizing front env with
  | zero => rw [runNext] at h; cases h
  | succ fuel ih =>
      rw [runNext] at h
      split at h
      · cases h
        exact hback
      · next ts₁ t ts₂ hsome =>
          split at h
          · cases h
          · next t' env₁ hrun =>
              have hnext : Tag.getNextTag (front ++ back) = some (ts₁, t, ts₂ ++ back) := by
                obtain ⟨rfl, hparsed, hfront⟩ := getNextTag_some hsome
                rw [List.append_assoc, getNextTag_append hfront, List.cons_append, Tag.getNextTag,
                  if_neg (by rw [hparsed]; exact Bool.false_ne_true)]
                simp
              refine runsNext_of_ok hnext ⟨_, hrun⟩ ?_
              have := ih h
              rwa [List.append_assoc, List.cons_append] at this
          · next hne _ =>
              cases h
              exact (hne rfl).elim

/-- The loop of a tag that has been executed, by the run of its children. -/
lemma runNext_of_runWhile {fuel : ℕ} {head : Head} {again : Bool}
    (h : runWhile execute fuel (.node head true again ts) env = some (result, t', env')) :
    ∃ ts' inner, runNext execute fuel ts ⟨env.context, head :: env.parents⟩ =
        some (result, ts', inner) ∧
      t' = .node (inner.parents.headD head) true again ts' ∧ env' = inner.outer := by
  cases fuel with
  | zero => rw [runWhile] at h; cases h
  | succ fuel =>
      rw [runWhile, Tag.children] at h
      split at h
      · next hnone =>
          cases h
          exact ⟨ts, _, by rw [runNext, hnone], rfl, rfl⟩
      · cases fuel with
        | zero => rw [run] at h; cases h
        | succ fuel =>
            rw [run, Tag.parsed, if_pos rfl, Tag.children] at h
            split at h
            · cases h
            · next hrun =>
                split at hrun
                · cases hrun
                · next ts' inner hnext =>
                    cases hrun
                    rw [runWhile, Tag.withChildren, Tag.children,
                      RunsNext.getNextTag_eq_none ⟨_, hnext⟩] at h
                    cases h
                    exact ⟨ts', inner, runNext_mono (by omega) hnext, rfl, rfl⟩
            · next hne hrun =>
                split at hrun
                · cases hrun
                · next ts' inner hnext =>
                    cases hrun
                    cases h
                    exact ⟨ts', inner, runNext_mono (by omega) hnext, rfl, rfl⟩

/-- A tag that has not run and is executed well returns what its children do. -/
lemma Runs.exists_runsNext {out : Tag × Env} (h : t.parsed = false)
    (hexec : execute t env = some (.ok, t', env')) (hrun : Runs execute t env (result, out)) :
    ∃ ts inner, RunsNext execute t'.children (t'.inner env') (result, ts, inner) := by
  obtain ⟨fuel, hrun⟩ := hrun
  cases fuel with
  | zero => rw [run] at hrun; cases hrun
  | succ fuel =>
      rw [run, if_neg (by rw [h]; exact Bool.false_ne_true), hexec] at hrun
      dsimp only at hrun
      split at hrun
      · cases hrun
      · next hwhile =>
          obtain ⟨ts, inner, hnext, -, -⟩ := runNext_of_runWhile hwhile
          cases hrun
          exact ⟨ts, inner, _, hnext⟩

/-- A tag that has been executed before returns what its children do. -/
lemma Runs.exists_of_parsed (h : t.parsed = true)
    (hrun : Runs execute t env (result, t', env')) :
    ∃ ts inner, RunsNext execute t.children (t.inner env) (result, ts, inner) ∧
      t' = t.withChildren ts inner ∧ env' = inner.outer := by
  obtain ⟨fuel, hrun⟩ := hrun
  cases fuel with
  | zero => rw [run] at hrun; cases hrun
  | succ fuel =>
      rw [run, if_pos h] at hrun
      split at hrun
      · cases hrun
      · next ts inner hnext =>
          cases hrun
          exact ⟨ts, inner, ⟨_, hnext⟩, rfl, rfl⟩

/-- **Rule induction for runs**: what holds of every tag when it returns, `P`, and of the children
of a tag when they do, `Q`. -/
theorem runs_induction {P : Tag → Env → ExecuteResult → Tag → Env → Prop}
    {Q : List Tag → Env → ExecuteResult → List Tag → Env → Prop}
    (parsed : ∀ t env result ts inner, t.parsed = true →
      RunsNext execute t.children (t.inner env) (result, ts, inner) →
      Q t.children (t.inner env) result ts inner →
      P t env result (t.withChildren ts inner) inner.outer)
    (stopped : ∀ t env result t' env', t.parsed = false →
      execute t env = some (result, t', env') → result ≠ .ok → P t env result t' env')
    (executed : ∀ t env t' env' result ts inner, t.parsed = false →
      execute t env = some (.ok, t', env') →
      RunsNext execute t'.children (t'.inner env') (result, ts, inner) →
      Q t'.children (t'.inner env') result ts inner →
      P t env result (t'.withChildren ts inner).repeated inner.outer)
    (done : ∀ ts env, Tag.getNextTag ts = none → Q ts env .ok ts env)
    (next : ∀ ts env front t back t' env' result ts' env'',
      Tag.getNextTag ts = some (front, t, back) → Runs execute t env (.ok, t', env') →
      P t env .ok t' env' → Q (front ++ t' :: back) env' result ts' env'' →
      Q ts env result ts' env'')
    (failed : ∀ ts env front t back result t' env',
      Tag.getNextTag ts = some (front, t, back) → Runs execute t env (result, t', env') →
      result ≠ .ok → P t env result t' env' → Q ts env result (front ++ t' :: back) env') :
    (∀ t env result t' env', Runs execute t env (result, t', env') → P t env result t' env') ∧
    ∀ ts env result ts' env', RunsNext execute ts env (result, ts', env') →
      Q ts env result ts' env' := by
  have hall : ∀ fuel,
      (∀ t env result t' env', run execute fuel t env = some (result, t', env') →
        P t env result t' env') ∧
      ∀ ts env result ts' env', runNext execute fuel ts env = some (result, ts', env') →
        Q ts env result ts' env' := by
    intro fuel
    induction fuel with
    | zero =>
        refine ⟨fun t env result t' env' h => ?_, fun ts env result ts' env' h => ?_⟩
        · rw [run] at h; cases h
        · rw [runNext] at h; cases h
    | succ fuel ih =>
        refine ⟨fun t env result t' env' h => ?_, fun ts env result ts' env' h => ?_⟩
        · rw [run] at h
          split at h
          · next hparsed =>
              split at h
              · cases h
              · next hnext =>
                  cases h
                  exact parsed _ _ _ _ _ hparsed ⟨_, hnext⟩ (ih.2 _ _ _ _ _ hnext)
          · next hparsed =>
              have hparsed := Bool.eq_false_of_not_eq_true hparsed
              split at h
              · cases h
              · next t₁ env₁ hexec =>
                  split at h
                  · cases h
                  · next hwhile =>
                      obtain ⟨ts', inner, hnext, ht, henv⟩ := runNext_of_runWhile hwhile
                      cases h
                      rw [ht, henv]
                      exact executed _ _ _ _ _ _ _ hparsed hexec ⟨_, hnext⟩
                        (ih.2 _ _ _ _ _ hnext)
              · next hne hexec =>
                  cases h
                  exact stopped _ _ _ _ _ hparsed hexec fun he => hne he
        · rw [runNext] at h
          split at h
          · next hnone =>
              cases h
              exact done _ _ hnone
          · next hsome =>
              split at h
              · cases h
              · next hrun =>
                  exact next _ _ _ _ _ _ _ _ _ _ hsome ⟨_, hrun⟩ (ih.1 _ _ _ _ _ hrun)
                    (ih.2 _ _ _ _ _ h)
              · next hne hrun =>
                  cases h
                  exact failed _ _ _ _ _ _ _ _ hsome ⟨_, hrun⟩ (fun he => hne he)
                    (ih.1 _ _ _ _ _ hrun)
  refine ⟨fun t env result t' env' ⟨fuel, h⟩ => (hall fuel).1 t env result t' env' h,
    fun ts env result ts' env' ⟨fuel, h⟩ => (hall fuel).2 ts env result ts' env' h⟩

end Run

end Esp

end IotAgent
