import Mathlib.Data.String.Basic

/-!
The replacement of a letter in a text by another text.

`String.replace` goes through a searcher for the pattern; for a pattern of one letter the letters
are replaced one by one.

* `toList_replace_singleton`: the text after the replacement;
* `replace_singleton_of_notMem`: nothing changes without the letter.
-/

namespace Replacing

open String Slice Pattern Model

variable {s : String.Slice} {c : Char} {r : String} {p q : s.Pos}

lemma copy_sliceFrom (h : p ≤ q) :
    (s.sliceFrom p).copy = (s.slice p q h).copy ++ (s.sliceFrom q).copy := by
  have happend := (p.sliceFrom q h).splits.eq_append
  simpa using happend

/-- A part of a text in which no match begins does not have the letter. -/
lemma notMem_slice (hlt : p < q)
    (hnot : ∀ pos, p ≤ pos → pos < q → ¬ MatchesAt (String.singleton c) pos) :
    c ∉ (s.slice p q (Std.le_of_lt hlt)).copy.toList := by
  intro hc
  obtain ⟨t, t', ht⟩ := List.append_of_mem hc
  have hslice : (s.slice p q (Std.le_of_lt hlt)).copy =
      String.ofList t ++ (String.singleton c ++ String.ofList t') := by
    apply String.toList_inj.mp
    simpa using ht
  have hp := p.splits
  have hq := q.splits
  have hfrom := copy_sliceFrom (Std.le_of_lt hlt)
  rw [hslice, String.append_assoc, String.append_assoc] at hfrom
  have hcopy := hp.eq_append
  rw [hfrom, ← String.append_assoc] at hcopy
  have hsplits := Slice.Pos.splits_ofEqAppend hcopy
  refine hnot _ ?_ ?_ (ForwardStringSearcher.matchesAt_iff_splits.mpr ⟨_, _, hsplits⟩)
  · exact (hp.le_iff_exists_eq_append hsplits).mpr ⟨_, rfl, hfrom⟩
  · refine (hsplits.lt_iff_exists_eq_append hq).mpr
      ⟨String.singleton c ++ String.ofList t', by simp, ?_, (String.append_assoc ..).symm⟩
    have happend := hq.eq_append
    have hlists := congrArg String.toList (hcopy.symm.trans happend)
    simp only [String.toList_append, ← List.append_assoc] at hlists
    apply String.toList_inj.mp
    simpa only [String.toList_append, ← List.append_assoc] using
      (List.append_cancel_right hlists).symm

/-- What `replace` makes of a step of the searcher. -/
def put (s : Slice) (r : String) (sofar : String) : SearchStep s → String
  | .matched .. => sofar ++ r.toSlice
  | .rejected start stop => sofar ++ s.slice! start stop

/-- A letter that is replaced. -/
def image (c : Char) (r : String) (d : Char) : List Char :=
  if d = c then r.toList else [d]

lemma flatMap_image {l : List Char} (hl : c ∉ l) : l.flatMap (image c r) = l := by
  induction l with
  | nil => rfl
  | cons d l ih =>
      rw [List.mem_cons, not_or] at hl
      rw [List.flatMap_cons, ih hl.2, image, if_neg (Ne.symm hl.1)]
      rfl

lemma foldl_put {l : List (SearchStep s)} (h : IsValidSearchFrom (String.singleton c) p l)
    (sofar : String) : (l.foldl (put s r) sofar).toList =
      sofar.toList ++ (s.sliceFrom p).copy.toList.flatMap (image c r) := by
  induction h generalizing sofar with
  | endPos => simp
  | @matched l p q hmatch _ ih =>
      obtain ⟨hle, hcopy⟩ := ForwardStringSearcher.isLongestMatchAt_iff.mp hmatch
      rw [List.foldl_cons, ih, copy_sliceFrom hle, hcopy]
      simp [put, image]
  | @mismatched l p q hlt hnot _ ih =>
      have hle := Std.le_of_lt hlt
      have hslice : s.slice! p q = s.slice p q hle := Slice.slice_eq_slice!.symm
      rw [List.foldl_cons, ih, copy_sliceFrom hle, put, hslice]
      simp [flatMap_image (notMem_slice hlt hnot)]

/-- Every letter is replaced by itself. -/
theorem toList_replace_singleton (s : String) (c : Char) (r : String) :
    (s.replace (String.singleton c) r).toList = s.toList.flatMap (image c r) := by
  have hlawful : LawfulToForwardSearcherModel (String.singleton c) :=
    ForwardStringSearcher.lawfulToForwardSearcherModel (by simp)
  have hvalid := hlawful.isValidSearchFrom_toList s.toSlice
  rw [String.replace, Slice.replace, ← Std.Iter.foldl_toList]
  have hcongr : ∀ (f : String → SearchStep s.toSlice → String)
      (l : List (SearchStep s.toSlice)),
      (∀ sofar x, f sofar x = put s.toSlice r sofar x) →
        l.foldl f "" = l.foldl (put s.toSlice r) "" :=
    fun f l hf => congrArg (fun f => l.foldl f "") (funext fun sofar => funext (hf sofar))
  refine (congrArg String.toList (hcongr _ _ fun sofar x => ?_)).trans
    ((foldl_put hvalid "").trans (by simp))
  cases x <;> rfl

theorem replace_singleton_of_notMem {s : String} (hs : c ∉ s.toList) :
    s.replace (String.singleton c) r = s := by
  rw [← String.toList_inj, toList_replace_singleton, flatMap_image hs]

end Replacing
