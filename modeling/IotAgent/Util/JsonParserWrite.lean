import IotAgent.Lib.JsonTexts

/-!
Property trees as JSON (`src/util/json_parser_write.hpp`, `src/util/json_parser.hpp`).

A tree has a text and children under keys. A child without children of its own is written as a
string, one whose children all have the empty key as an array, and everything else as an object.
Control characters are written as they are, where there is no short escape for them.

* `createEscapes`, `writeJsonHelper`, `verifyJson`, `writeJson`: the writer;
* `toValue`, `readTree`: the value that is written, and the tree of a value;
* `yields_writeJsonHelper`: what is read of a tree that is written;
* `writeJson_roundTrip`: the trees that are written as JSON, and that they come back.
-/

namespace IotAgent

open JsonLexer

/-- `ptree`. -/
inductive PropertyTree (α : Type*) where
  | node (data : List α) (children : List (List α × PropertyTree α))

namespace PropertyTree

/-! ### The writer -/

/-- One character of `create_escapes`. -/
def createEscape (c : Char) : List Char :=
  if c = ' ' ∨ c = '!' ∨ ('#' ≤ c ∧ c ≤ '.') ∨ ('0' ≤ c ∧ c ≤ '[') ∨ ']' ≤ c then [c]
  else if c = '\x08' then ['\\', 'b']
  else if c = '\x0c' then ['\\', 'f']
  else if c = '\n' then ['\\', 'n']
  else if c = '\r' then ['\\', 'r']
  else if c = '\t' then ['\\', 't']
  else if c = '/' then ['/']
  else if c = '"' then ['\\', '"']
  else if c = '\\' then ['\\', '\\']
  else [c]

/-- `create_escapes`. -/
def createEscapes (s : List Char) : List Char :=
  s.flatMap createEscape

/-- The text of a node, `get_value`. -/
def data {α : Type*} : PropertyTree α → List α
  | node data _ => data

def children {α : Type*} : PropertyTree α → List (List α × PropertyTree α)
  | node _ children => children

/-- `Str(4 * indent, Ch(' '))`. -/
def blanks (indent : ℕ) : List Char :=
  List.replicate (4 * indent) ' '

/-- The children under the empty key are all that there are. -/
def isArray {α : Type*} (children : List (List α × PropertyTree α)) : Bool :=
  children.countP (fun child => child.1.isEmpty) = children.length

mutual

/-- `write_json_helper`. -/
def writeJsonHelper (pretty : Bool) (indent : ℕ) : PropertyTree Char → List Char
  | node data children =>
      if 0 < indent ∧ children.isEmpty then quoted (createEscapes data)
      else if 0 < indent ∧ isArray children then
        ['['] ++ (if pretty then ['\n'] else []) ++ writeItems pretty indent children ++
          blanks indent ++ [']']
      else
        ['\x7b'] ++ (if pretty then ['\n'] else []) ++ writeMembers pretty indent children ++
          (if pretty then blanks indent else []) ++ ['\x7d']

/-- The loop over the items of an array. -/
def writeItems (pretty : Bool) (indent : ℕ) :
    List (List Char × PropertyTree Char) → List Char
  | [] => []
  | (_, pt) :: rest =>
      (if pretty then blanks (indent + 1) else []) ++ writeJsonHelper pretty (indent + 1) pt ++
        (if rest.isEmpty then [] else [',']) ++ (if pretty then ['\n'] else []) ++
        writeItems pretty indent rest

/-- The loop over the members of an object. -/
def writeMembers (pretty : Bool) (indent : ℕ) :
    List (List Char × PropertyTree Char) → List Char
  | [] => []
  | (key, pt) :: rest =>
      (if pretty then blanks (indent + 1) else []) ++ quoted (createEscapes key) ++ [':'] ++
        (if pretty then
          if pt.children.isEmpty then [' '] else ['\n'] ++ blanks (indent + 1)
        else []) ++
        writeJsonHelper pretty (indent + 1) pt ++ (if rest.isEmpty then [] else [',']) ++
        (if pretty then ['\n'] else []) ++ writeMembers pretty indent rest

end

mutual

/-- `verify_json`. -/
def verifyJson (depth : ℕ) : PropertyTree Char → Bool
  | node data children =>
      if depth = 0 ∧ ¬ data.isEmpty then false
      else if ¬ data.isEmpty ∧ ¬ children.isEmpty then false
      else verifyChildren (depth + 1) children

def verifyChildren (depth : ℕ) : List (List Char × PropertyTree Char) → Bool
  | [] => true
  | (_, pt) :: rest => verifyJson depth pt && verifyChildren depth rest

end

/-- `write_json`; `none` is the exception for a tree that cannot be written. -/
def writeJson (pretty : Bool) (pt : PropertyTree Char) : Option (List Char) :=
  if verifyJson 0 pt then some (writeJsonHelper pretty 0 pt ++ ['\n']) else none

/-! ### Values and trees -/

mutual

/-- The value that is written. -/
def toValue (indent : ℕ) : PropertyTree Char → JsonValue
  | node data children =>
      if 0 < indent ∧ children.isEmpty then .string (units data)
      else if 0 < indent ∧ isArray children then .array (toItems indent children)
      else .object (toMembers indent children)

def toItems (indent : ℕ) : List (List Char × PropertyTree Char) → List JsonValue
  | [] => []
  | (_, pt) :: rest => toValue (indent + 1) pt :: toItems indent rest

def toMembers (indent : ℕ) :
    List (List Char × PropertyTree Char) → List (List ℕ × JsonValue)
  | [] => []
  | (key, pt) :: rest => (units key, toValue (indent + 1) pt) :: toMembers indent rest

end

mutual

/-- The tree of a value: the items of an array are children under the empty key, and everything
but arrays and objects is a text. -/
def readTree : JsonValue → PropertyTree ℕ
  | .word w => node (units w.letters) []
  | .number text => node (units text) []
  | .string us => node us []
  | .array items => node [] (readItems items)
  | .object members => node [] (readMembers members)

def readItems : List JsonValue → List (List ℕ × PropertyTree ℕ)
  | [] => []
  | v :: vs => ([], readTree v) :: readItems vs

def readMembers : List (List ℕ × JsonValue) → List (List ℕ × PropertyTree ℕ)
  | [] => []
  | (key, v) :: ms => (key, readTree v) :: readMembers ms

end

mutual

/-- The tree in code units. -/
def inUnits : PropertyTree Char → PropertyTree ℕ
  | node data children => node (units data) (inUnitsAll children)

def inUnitsAll : List (List Char × PropertyTree Char) → List (List ℕ × PropertyTree ℕ)
  | [] => []
  | (key, pt) :: rest => (units key, inUnits pt) :: inUnitsAll rest

end

/-- A character that has an escape, or needs none. -/
def Writable (c : Char) : Prop :=
  0x20 ≤ c.toNat ∨ c ∈ ['\x08', '\x0c', '\n', '\r', '\t']

instance : DecidablePred Writable := fun _ => inferInstanceAs (Decidable (_ ∨ _))

mutual

/-- All texts of a tree have only such characters. -/
def AllWritable : PropertyTree Char → Prop
  | node data children => (∀ c ∈ data, Writable c) ∧ EachWritable children

def EachWritable : List (List Char × PropertyTree Char) → Prop
  | [] => True
  | (key, pt) :: rest => (∀ c ∈ key, Writable c) ∧ AllWritable pt ∧ EachWritable rest

end

/-! ### What is read of a tree -/

variable {c : Char} {pretty : Bool} {indent : ℕ} {children : List (List Char × PropertyTree Char)}

lemma createEscape_of_plain (h : Plain c) : createEscape c = [c] := by
  obtain ⟨hquote, hbackslash, hcontrol⟩ := h
  have hne : ∀ d : Char, d.toNat < 0x20 → c ≠ d := fun d hd e => by
    rw [e] at hcontrol
    omega
  rw [createEscape, if_neg (hne '\x08' (by decide)), if_neg (hne '\x0c' (by decide)),
    if_neg (hne '\n' (by decide)), if_neg (hne '\r' (by decide)), if_neg (hne '\t' (by decide)),
    if_neg hquote, if_neg hbackslash]
  split_ifs with hset hslash
  · rfl
  · rw [hslash]
  · rfl

lemma createEscape_of_control (h : c.toNat < 0x20) (hnot : ¬ Writable c) :
    createEscape c = [c] := by
  have hne : ∀ d ∈ ['\x08', '\x0c', '\n', '\r', '\t'], c ≠ d := fun d hd e =>
    hnot (.inr (e ▸ hd))
  have hlarge : ∀ d : Char, 0x20 ≤ d.toNat → c ≠ d := fun d hd e => by
    rw [e] at h
    omega
  rw [createEscape, if_neg (hne '\x08' (by decide)), if_neg (hne '\x0c' (by decide)),
    if_neg (hne '\n' (by decide)), if_neg (hne '\r' (by decide)), if_neg (hne '\t' (by decide)),
    if_neg (hlarge '/' (by decide)), if_neg (hlarge '"' (by decide)),
    if_neg (hlarge '\\' (by decide)), ite_self]

/-- What the writer makes of one character is read as the character, or spoils the text. -/
lemma escapes_createEscape : Escapes Writable createEscape where
  run_of c hc read := by
    by_cases hplain : Plain c
    · obtain ⟨hquote, hbackslash, hcontrol⟩ := hplain
      rw [createEscape_of_plain ⟨hquote, hbackslash, hcontrol⟩, run, step, if_neg hquote,
        if_neg hbackslash, if_neg (Nat.not_lt.mpr hcontrol)]
      rfl
    · obtain hspecial : c ∈ ['"', '\\', '\x08', '\x0c', '\n', '\r', '\t'] := by
        by_contra hmem
        simp only [List.mem_cons, List.not_mem_nil, not_or, or_false] at hmem
        refine hplain ⟨hmem.1, hmem.2.1, hc.resolve_right fun h => ?_⟩
        simp only [List.mem_cons, List.not_mem_nil, or_false] at h
        tauto
      have hall : ∀ c ∈ ['"', '\\', '\x08', '\x0c', '\n', '\r', '\t'],
          run (.text read) (createEscape c) = some (.text (read ++ unitsOf c), []) := by
        simp only [List.forall_mem_cons]
        exact ⟨rfl, rfl, rfl, rfl, rfl, rfl, rfl, fun _ h => absurd h List.not_mem_nil⟩
      exact hall c hspecial
  run_of_not c hc read := by
    have hcontrol : c.toNat < 0x20 := by
      by_contra h
      exact hc (.inl (Nat.not_lt.mp h))
    have hne : ∀ d : Char, 0x20 ≤ d.toNat → c ≠ d := fun d hd e => by
      rw [e] at hcontrol
      omega
    rw [createEscape_of_control hcontrol hc, run, step, if_neg (hne '"' (by decide)),
      if_neg (hne '\\' (by decide)), if_pos hcontrol, Option.bind_none]

lemma isArray_iff : isArray children = true ↔ ∀ child ∈ children, child.1 = [] := by
  rw [isArray, decide_eq_true_iff, List.countP_eq_length]
  simp only [List.isEmpty_iff]

lemma blank_blanks (n : ℕ) : Blank (blanks n) := fun c hc => by
  rw [List.eq_of_mem_replicate hc]
  rfl

lemma blank_append {x y : List Char} (hx : Blank x) (hy : Blank y) : Blank (x ++ y) :=
  List.forall_mem_append.mpr ⟨hx, hy⟩

lemma blank_ite {b : Bool} {x y : List Char} (hx : Blank x) (hy : Blank y) :
    Blank (if b then x else y) := by
  split
  · exact hx
  · exact hy

lemma blank_nil : Blank [] := fun _ h => absurd h List.not_mem_nil

lemma blank_break : Blank ['\n'] :=
  List.forall_mem_singleton.mpr rfl

lemma blank_space : Blank [' '] :=
  List.forall_mem_singleton.mpr rfl

/-- The comma behind all but the last. -/
lemma yields_comma {α : Type*} (rest : List α) :
    Yields True (if rest.isEmpty then [] else [',']) (if rest.isEmpty then [] else [.comma]) := by
  split
  · exact yields_nil
  · exact yields_mark rfl

lemma comma_items (rest : List (List Char × PropertyTree Char)) :
    (if rest.isEmpty then [] else [.comma]) ++ JsonValue.itemsTokens (toItems indent rest) =
      JsonValue.restItems (toItems indent rest) := by
  cases rest <;> rfl

lemma comma_members (rest : List (List Char × PropertyTree Char)) :
    (if rest.isEmpty then [] else [.comma]) ++ JsonValue.membersTokens (toMembers indent rest) =
      JsonValue.restMembers (toMembers indent rest) := by
  cases rest <;> rfl

mutual

/-- A tree is read as its value if its texts can be written, and else it spoils every text. The
induction is on the tree, with the items of an array and the members of an object. -/
theorem yields_writeJsonHelper (pretty : Bool) (indent : ℕ) (pt : PropertyTree Char)
    (hverify : verifyJson indent pt) :
    Yields (AllWritable pt) (writeJsonHelper pretty indent pt) (toValue indent pt).tokens := by
  match pt, hverify with
  | node data children, hverify =>
      rw [verifyJson] at hverify
      split at hverify
      · cases hverify
      · next hroot =>
          split at hverify
          · cases hverify
          · next hboth =>
              have hbreak : Blank (if pretty then ['\n'] else []) :=
                blank_ite blank_break blank_nil
              rw [writeJsonHelper, toValue, AllWritable]
              by_cases hleaf : 0 < indent ∧ children.isEmpty
              · obtain rfl := List.isEmpty_iff.mp hleaf.2
                rw [if_pos hleaf, if_pos hleaf]
                exact (escapes_createEscape.yields_quoted data).congr
                  ⟨fun h => ⟨h, trivial⟩, And.left⟩ rfl
              · have hdata : data = [] := by
                  by_contra hne
                  rw [List.isEmpty_iff, not_and] at hboth hroot
                  rcases Nat.eq_zero_or_pos indent with hzero | hpos
                  · exact hroot hzero hne
                  · exact hboth hne fun hnil => hleaf ⟨hpos, hnil⟩
                subst hdata
                rw [if_neg hleaf, if_neg hleaf]
                by_cases harray : 0 < indent ∧ isArray children
                · rw [if_pos harray, if_pos harray, JsonValue.tokens_array]
                  have hitems := yields_writeItems pretty indent children
                    (isArray_iff.mp harray.2) hverify
                  exact (((((yields_mark (c := '[') rfl).append (yields_blank hbreak)).append
                    hitems).append (yields_blank (blank_blanks indent))).append
                    (yields_mark rfl)).congr (by simp) (by simp)
                · rw [if_neg harray, if_neg harray, JsonValue.tokens_object_eq]
                  have hmembers := yields_writeMembers pretty indent children hverify
                  have hclose : Blank (if pretty then blanks indent else []) :=
                    blank_ite (blank_blanks indent) blank_nil
                  exact (((((yields_mark (c := '\x7b') rfl).append (yields_blank hbreak)).append
                    hmembers).append (yields_blank hclose)).append
                    (yields_mark rfl)).congr (by simp) (by simp)

theorem yields_writeItems (pretty : Bool) (indent : ℕ)
    (children : List (List Char × PropertyTree Char))
    (hkeys : ∀ child ∈ children, child.1 = []) (hverify : verifyChildren (indent + 1) children) :
    Yields (EachWritable children) (writeItems pretty indent children)
      (JsonValue.itemsTokens (toItems indent children)) := by
  match children, hkeys, hverify with
  | [], _, _ => exact yields_nil.congr Iff.rfl rfl
  | (key, pt) :: rest, hkeys, hverify =>
      obtain ⟨hkey, hkeys⟩ := List.forall_mem_cons.mp hkeys
      rw [verifyChildren, Bool.and_eq_true] at hverify
      have hfront : Blank (if pretty then blanks (indent + 1) else []) :=
        blank_ite (blank_blanks _) blank_nil
      have hbreak : Blank (if pretty then ['\n'] else []) := blank_ite blank_break blank_nil
      have hpt := yields_writeJsonHelper pretty (indent + 1) pt hverify.1
      have hrest := yields_writeItems pretty indent rest hkeys hverify.2
      rw [writeItems, toItems, JsonValue.itemsTokens, ← comma_items, EachWritable]
      refine (((((yields_blank hfront).append hpt).append (yields_comma rest)).append
        (yields_blank hbreak)).append hrest).congr ?_ ?_
      · simp [show key = [] from hkey]
      · simp only [List.nil_append, List.append_nil, List.append_assoc]

theorem yields_writeMembers (pretty : Bool) (indent : ℕ)
    (children : List (List Char × PropertyTree Char))
    (hverify : verifyChildren (indent + 1) children) :
    Yields (EachWritable children) (writeMembers pretty indent children)
      (JsonValue.membersTokens (toMembers indent children)) := by
  match children, hverify with
  | [], _ => exact yields_nil.congr Iff.rfl rfl
  | (key, pt) :: rest, hverify =>
      rw [verifyChildren, Bool.and_eq_true] at hverify
      have hfront : Blank (if pretty then blanks (indent + 1) else []) :=
        blank_ite (blank_blanks _) blank_nil
      have hbreak : Blank (if pretty then ['\n'] else []) := blank_ite blank_break blank_nil
      have hbehind : Blank (if pretty then
          if pt.children.isEmpty then [' '] else ['\n'] ++ blanks (indent + 1) else []) :=
        blank_ite (blank_ite blank_space (blank_append blank_break (blank_blanks _))) blank_nil
      have hpt := yields_writeJsonHelper pretty (indent + 1) pt hverify.1
      have hrest := yields_writeMembers pretty indent rest hverify.2
      rw [writeMembers, toMembers, JsonValue.membersTokens, ← comma_members, EachWritable]
      refine ((((((((yields_blank hfront).append
        (escapes_createEscape.yields_quoted key)).append (yields_mark rfl)).append
        (yields_blank hbehind)).append hpt).append (yields_comma rest)).append
        (yields_blank hbreak)).append hrest).congr ?_ ?_
      · simp [and_assoc]
      · simp only [List.nil_append, List.append_nil, List.append_assoc, List.cons_append]

end

/-! ### The way back -/

lemma node_of_leaf {data : List Char} (h : children.isEmpty) :
    inUnits (node data children) = node (units data) [] := by
  rw [List.isEmpty_iff.mp h]
  rfl

mutual

/-- The tree of the value that is written of a tree is the tree. -/
theorem readTree_toValue (indent : ℕ) (pt : PropertyTree Char) (hverify : verifyJson indent pt) :
    readTree (toValue indent pt) = inUnits pt := by
  match pt, hverify with
  | node data children, hverify =>
      rw [verifyJson] at hverify
      split at hverify
      · cases hverify
      · next hroot =>
          split at hverify
          · cases hverify
          · next hboth =>
              rw [toValue]
              by_cases hleaf : 0 < indent ∧ children.isEmpty
              · rw [if_pos hleaf, node_of_leaf hleaf.2]
                rfl
              · have hdata : data = [] := by
                  by_contra hne
                  rw [List.isEmpty_iff, not_and] at hboth hroot
                  rcases Nat.eq_zero_or_pos indent with hzero | hpos
                  · exact hroot hzero hne
                  · exact hboth hne fun hnil => hleaf ⟨hpos, hnil⟩
                subst hdata
                rw [if_neg hleaf]
                by_cases harray : 0 < indent ∧ isArray children
                · rw [if_pos harray, readTree, inUnits, readItems_toItems indent children
                    (isArray_iff.mp harray.2) hverify]
                  rfl
                · rw [if_neg harray, readTree, inUnits, readMembers_toMembers indent children
                    hverify]
                  rfl

theorem readItems_toItems (indent : ℕ) (children : List (List Char × PropertyTree Char))
    (hkeys : ∀ child ∈ children, child.1 = []) (hverify : verifyChildren (indent + 1) children) :
    readItems (toItems indent children) = inUnitsAll children := by
  match children, hkeys, hverify with
  | [], _, _ => rfl
  | (key, pt) :: rest, hkeys, hverify =>
      obtain ⟨hkey, hkeys⟩ := List.forall_mem_cons.mp hkeys
      rw [verifyChildren, Bool.and_eq_true] at hverify
      rw [toItems, readItems, inUnitsAll, readTree_toValue (indent + 1) pt hverify.1,
        readItems_toItems indent rest hkeys hverify.2, show key = [] from hkey]
      rfl

theorem readMembers_toMembers (indent : ℕ) (children : List (List Char × PropertyTree Char))
    (hverify : verifyChildren (indent + 1) children) :
    readMembers (toMembers indent children) = inUnitsAll children := by
  match children, hverify with
  | [], _ => rfl
  | (key, pt) :: rest, hverify =>
      rw [verifyChildren, Bool.and_eq_true] at hverify
      rw [toMembers, readMembers, inUnitsAll, readTree_toValue (indent + 1) pt hverify.1,
        readMembers_toMembers indent rest hverify.2]

end

/-- A tree that is written can be read exactly if all its texts can be written, and then it comes
back as it was. -/
theorem writeJson_roundTrip (pretty : Bool) (pt : PropertyTree Char) (text : List Char)
    (hwrite : writeJson pretty pt = some text) :
    ((∃ v, JsonValue.Reads text v) ↔ AllWritable pt) ∧
      ∀ v, JsonValue.Reads text v → readTree v = inUnits pt := by
  rw [writeJson] at hwrite
  split at hwrite
  · next hverify =>
      obtain rfl := Option.some.inj hwrite
      have hyields := ((yields_writeJsonHelper pretty 0 pt hverify).append
        (yields_blank blank_break)).congr (and_iff_left trivial) (List.append_nil _)
      refine ⟨⟨fun ⟨v, hv⟩ => ((JsonValue.reads_iff_of_yields hyields).mp hv).1, fun h =>
        ⟨_, (JsonValue.reads_iff_of_yields hyields).mpr ⟨h, rfl⟩⟩⟩, fun v hv => ?_⟩
      rw [← ((JsonValue.reads_iff_of_yields hyields).mp hv).2]
      exact readTree_toValue 0 pt hverify
  · cases hwrite

/-- A service with its static attributes and two resources. -/
def serviceTree : PropertyTree Char :=
  node [] [
    ("static_attributes".toList, node [] [
      ([], node [] [("name".toList, node "place".toList []),
        ("value".toList, node "a \"b\"\t/c".toList [])])]),
    ("resource".toList, node [] [([], node "/iot/d".toList []), ([], node "/iot/tt".toList [])])]

def serviceText : String :=
  "\x7b\"static_attributes\":[\x7b\"name\":\"place\",\"value\":\"a \\\"b\\\"\\t/c\"\x7d    ]," ++
    "\"resource\":[\"/iot/d\",\"/iot/tt\"    ]\x7d\n"

theorem writeJson_service : ∃ v,
    JsonValue.Reads serviceText.toList v ∧ readTree v = inUnits serviceTree := by
  obtain ⟨hreads, htree⟩ :=
    writeJson_roundTrip false serviceTree serviceText.toList (by decide +kernel)
  have hwritable : AllWritable serviceTree := by
    simp [serviceTree, AllWritable, EachWritable, Writable]
  obtain ⟨v, hv⟩ := hreads.mpr hwritable
  exact ⟨v, hv, htree v hv⟩

/-! ### Trees that have been read -/

lemma units_eq_nil {s : List Char} : units s = [] ↔ s = [] := by
  refine ⟨fun h => ?_, fun h => h ▸ rfl⟩
  have hle := length_le_length_units s
  rw [h] at hle
  exact List.length_eq_zero_iff.mp (Nat.le_zero.mp hle)

mutual

/-- No node of a tree that has been read has a text and children, so below the root it can be
written. -/
theorem verifyJson_of_read (depth : ℕ) (pt : PropertyTree Char) (v : JsonValue)
    (h : inUnits pt = readTree v) : verifyJson (depth + 1) pt := by
  match pt, v, h with
  | node data children, .word w, h | node data children, .number text, h
  | node data children, .string us, h =>
      obtain ⟨-, hchildren⟩ := PropertyTree.node.inj h
      cases children with
      | nil => simp [verifyJson, verifyChildren]
      | cons child children => cases hchildren
  | node data children, .array items, h =>
      obtain ⟨hdata, hchildren⟩ := PropertyTree.node.inj h
      rw [verifyJson, units_eq_nil.mp hdata]
      exact verifyChildren_of_items (depth + 1) children items hchildren
  | node data children, .object members, h =>
      obtain ⟨hdata, hchildren⟩ := PropertyTree.node.inj h
      rw [verifyJson, units_eq_nil.mp hdata]
      exact verifyChildren_of_members (depth + 1) children members hchildren

theorem verifyChildren_of_items (depth : ℕ) (children : List (List Char × PropertyTree Char))
    (vs : List JsonValue) (h : inUnitsAll children = readItems vs) :
    verifyChildren (depth + 1) children := by
  match children, vs, h with
  | [], _, _ => rfl
  | (key, pt) :: rest, v :: vs, h =>
      obtain ⟨hchild, hrest⟩ := List.cons.inj h
      rw [verifyChildren, verifyJson_of_read depth pt v (congrArg Prod.snd hchild),
        verifyChildren_of_items depth rest vs hrest]
      rfl

theorem verifyChildren_of_members (depth : ℕ) (children : List (List Char × PropertyTree Char))
    (ms : List (List ℕ × JsonValue)) (h : inUnitsAll children = readMembers ms) :
    verifyChildren (depth + 1) children := by
  match children, ms, h with
  | [], _, _ => rfl
  | (key, pt) :: rest, (name, v) :: ms, h =>
      obtain ⟨hchild, hrest⟩ := List.cons.inj h
      rw [verifyChildren, verifyJson_of_read depth pt v (congrArg Prod.snd hchild),
        verifyChildren_of_members depth rest ms hrest]
      rfl

end

/-- Of the trees that have been read, those without a text at the root can be written. -/
lemma verifyJson_root {pt : PropertyTree Char} {v : JsonValue} (h : inUnits pt = readTree v)
    (hdata : pt.data = []) : verifyJson 0 pt := by
  match pt, v, h, hdata with
  | node _ children, .word w, h, rfl | node _ children, .number text, h, rfl
  | node _ children, .string us, h, rfl =>
      obtain ⟨-, hchildren⟩ := PropertyTree.node.inj h
      cases children with
      | nil => rfl
      | cons child children => cases hchildren
  | node _ children, .array items, h, rfl =>
      rw [verifyJson]
      exact verifyChildren_of_items 0 children items (PropertyTree.node.inj h).2
  | node _ children, .object members, h, rfl =>
      rw [verifyJson]
      exact verifyChildren_of_members 0 children members (PropertyTree.node.inj h).2

/-- What has been read as an object or as an array is always written, and is read again as it was
unless it has a control character without a short escape; then what is written is no JSON. -/
theorem writeJson_readTree (pretty : Bool) (v : JsonValue) (pt : PropertyTree Char)
    (hread : inUnits pt = readTree v) (hdata : pt.data = []) :
    ∃ text, writeJson pretty pt = some text ∧
      ((∃ v', JsonValue.Reads text v') ↔ AllWritable pt) ∧
      ∀ v', JsonValue.Reads text v' → readTree v' = readTree v := by
  have hwrite : writeJson pretty pt = some (writeJsonHelper pretty 0 pt ++ ['\n']) :=
    if_pos (verifyJson_root hread hdata)
  obtain ⟨hreads, htree⟩ := writeJson_roundTrip pretty pt _ hwrite
  exact ⟨_, hwrite, hreads, fun v' hv' => (htree v' hv').trans hread⟩

/-- An object with the control character 1, and the tree of it. -/
theorem writeJson_control : ∃ text, writeJson true (node [] [(['a'], node ['\x01'] [])]) =
    some text ∧ ¬ ∃ v, JsonValue.Reads text v := by
  obtain ⟨text, hwrite, hreads, -⟩ := writeJson_readTree true
    (.object [([0x61], .string [1])]) (node [] [(['a'], node ['\x01'] [])]) rfl rfl
  refine ⟨text, hwrite, fun hv => ?_⟩
  have hwritable := hreads.mp hv
  simp [AllWritable, EachWritable, Writable] at hwritable

end PropertyTree

end IotAgent
