import Mathlib.Data.List.Basic
import Mathlib.Data.List.DropRight
import Mathlib.Data.List.TakeWhile
import Mathlib.Data.Nat.Notation

/-!
Texts, as the agent takes them apart (`src/util/FuncUtil.{h,cc}` and the string algorithms
of boost).

* `trim`, `startsWith`, `replaceAll`: the string algorithms;
* `cString`: what is read of a text through a pointer to its characters;
* `riotTokenizer`: the parts of a text, empty ones included;
* `renderIdentifier`: a text without the characters that identifiers must not have.
-/

namespace IotAgent

namespace Text

/-- The white space of the C locale. -/
def isSpace (c : Char) : Bool :=
  c = ' ' || (9 ≤ c.toNat && c.toNat ≤ 13)

/-- `boost::trim`. -/
def trim (s : String) : String :=
  String.ofList (((s.toList.dropWhile isSpace).reverse.dropWhile isSpace).reverse)

/-- One trimming is enough. -/
@[simp]
lemma trim_trim (s : String) : trim (trim s) = trim s := by
  -- what is left begins as it did before the end was trimmed
  have hstart : (List.rdropWhile isSpace (s.toList.dropWhile isSpace)).dropWhile isSpace =
      List.rdropWhile isSpace (s.toList.dropWhile isSpace) := by
    rw [List.dropWhile_eq_self_iff]
    intro hpos
    obtain ⟨t, ht⟩ := List.rdropWhile_prefix isSpace (s.toList.dropWhile isSpace)
    have hne : s.toList.dropWhile isSpace ≠ [] := by
      intro hnil
      rw [hnil] at hpos
      exact absurd hpos (by simp)
    have hhead : (s.toList.dropWhile isSpace).head hne =
        (List.rdropWhile isSpace (s.toList.dropWhile isSpace))[0] := by
      rw [List.head_eq_getElem]
      exact (List.IsPrefix.getElem ⟨t, ht⟩ hpos).symm
    rw [← hhead, Bool.not_eq_true]
    exact List.head_dropWhile_not isSpace hne
  calc trim (trim s)
      = String.ofList (List.rdropWhile isSpace ((List.rdropWhile isSpace
          (s.toList.dropWhile isSpace)).dropWhile isSpace)) := by
        rw [trim, trim, String.toList_ofList, List.rdropWhile, List.rdropWhile]
    _ = trim s := by
        rw [hstart, List.rdropWhile_idempotent, trim, List.rdropWhile]

/-- `boost::starts_with`. -/
def startsWith (input test : String) : Bool :=
  test.toList.isPrefixOf input.toList

/-- `std::replace` over a text. -/
def replaceAll (s : String) (old new : Char) : String :=
  String.ofList (s.toList.map fun c => if c = old then new else c)

/-- A text that is read through a pointer ends where the first character NUL is. -/
def cString (s : String) : String :=
  String.ofList (s.toList.takeWhile (· ≠ '\x00'))

/-- It is the whole text exactly when there is no such character in it. -/
lemma cString_eq_self_iff {s : String} : cString s = s ↔ '\x00' ∉ s.toList := by
  rw [cString, ← String.toList_inj, String.toList_ofList, List.takeWhile_eq_self_iff]
  constructor
  · intro hall hmem
    exact of_decide_eq_true (hall _ hmem) rfl
  · intro hnot c hc
    refine decide_eq_true ?_
    rintro rfl
    exact hnot hc

/-- `riot_tokenizer`: all parts between the separators. An empty text has none. -/
def riotTokenizer (str : String) (sep : Char) : List String :=
  if str = "" then [] else (str.toList.splitOn sep).map String.ofList

/-- The characters that an identifier must not have. -/
def forbiddenCharacters : List Char :=
  "<>();'=\"/?#& ".toList

def identifierMaxLength : ℕ := 256

/-- `render_identifier`. -/
def renderIdentifier (strToRender : String) : String :=
  String.ofList ((strToRender.toList.filter (· ∉ forbiddenCharacters)).take identifierMaxLength)

/-- One rendering is enough. -/
@[simp]
lemma renderIdentifier_renderIdentifier (s : String) :
    renderIdentifier (renderIdentifier s) = renderIdentifier s := by
  set l := s.toList.filter (· ∉ forbiddenCharacters) with hl
  have hall : ∀ c ∈ l.take identifierMaxLength, c ∉ forbiddenCharacters := fun c hc => by
    simpa using (List.mem_filter.mp (List.mem_of_mem_take hc)).2
  have hfilter : (l.take identifierMaxLength).filter (· ∉ forbiddenCharacters)
      = l.take identifierMaxLength :=
    List.filter_eq_self.mpr fun c hc => decide_eq_true (hall c hc)
  rw [renderIdentifier, renderIdentifier, ← hl, String.toList_ofList, hfilter, List.take_take,
    Nat.min_self]

end Text

end IotAgent
