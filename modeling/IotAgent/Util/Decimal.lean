import IotAgent.Util.HttpClient

/-!
Numbers in decimal digits, as `atoi` reads them.

* `Decimal`: the digits of a number, zeros in front included;
* `Decimal.atoi`: what is read of them.
-/

namespace IotAgent

/-- A number in decimal digits. -/
structure Decimal (ds : List Char) (n : ℕ) : Prop where
  ne_nil : ds ≠ []
  digit : ∀ c ∈ ds, c.isDigit = true
  value : Nat.ofDigitChars 10 ds 0 = n

lemma digits_eq (cs : List Char) :
    Text.digits cs = Nat.ofDigitChars 10 (cs.takeWhile Char.isDigit) 0 := by
  have hfold : ∀ (ds : List Char) (k : ℕ),
      ds.foldl (fun (n : ℤ) c => 10 * n + (c.toNat - '0'.toNat : ℕ)) k
        = Nat.ofDigitChars 10 ds k := by
    intro ds
    induction ds with
    | nil => simp
    | cons c ds ih =>
        intro k
        rw [List.foldl_cons, Nat.ofDigitChars_cons, ← ih]
        push_cast
        rfl
  exact hfold _ 0

namespace Decimal

variable {ds : List Char} {n : ℕ}

/-- `atoi` reads the digits. -/
lemma atoi (hds : Decimal ds n) (hn : n < 2 ^ 31) : Text.atoi ds = n := by
  have hdigits : Text.digits ds = n := by
    rw [digits_eq, List.takeWhile_eq_self_iff.mpr hds.digit, hds.value]
  have hvalue : (max (-2 ^ 63) (min (n : ℤ) (2 ^ 63 - 1))).bmod (2 ^ 32) = n := by
    have hlong : max (-2 ^ 63) (min (n : ℤ) (2 ^ 63 - 1)) = n := by omega
    rw [hlong, Int.bmod_def]
    split <;> omega
  obtain ⟨c, cs, rfl⟩ := List.exists_cons_of_ne_nil hds.ne_nil
  have hc := hds.digit c (List.mem_cons_self ..)
  have hspace : ¬ Text.isSpace c = true := by
    have hlow : 48 ≤ c.toNat := by
      simp only [Char.isDigit, Bool.and_eq_true, decide_eq_true_eq] at hc
      exact hc.1
    have hblank : c ≠ ' ' := by
      rintro rfl
      cases hc
    simp only [Text.isSpace, hblank, decide_false, Bool.false_or, Bool.and_eq_true,
      decide_eq_true_eq]
    omega
  rw [Text.atoi, List.dropWhile_cons_of_neg hspace]
  split
  · next h =>
      obtain ⟨rfl, rfl⟩ := List.cons.inj h
      cases hc
  · next h =>
      obtain ⟨rfl, rfl⟩ := List.cons.inj h
      cases hc
  · rw [hdigits, hvalue]

/-- A letter does not stand among the digits. -/
lemma not_mem (hds : Decimal ds n) {c : Char} (hc : c.isDigit = false) : c ∉ ds := by
  intro h
  rw [hds.digit c h] at hc
  cases hc

end Decimal

end IotAgent
