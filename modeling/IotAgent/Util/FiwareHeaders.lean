import IotAgent.Util.CLocale
import IotAgent.Util.Types

/-!
The headers Fiware-Service and Fiware-ServicePath (`src/util/FuncUtil.cc`).

Both checks measure the header and go through its characters until one is wrong. A service path
begins with a slash, and a star or a number sign may stand behind it alone.

* `checkFiwareServiceName`, `checkFiwareServicePathName`: the checks;
* `checkFiwareServiceName_eq_ok_iff`, `checkFiwareServicePathName_eq_ok_iff`: the headers that
  pass them.
-/

namespace IotAgent

namespace FiwareHeaders

open CLocale

def star : UInt8 := 0x2A

def numberSign : UInt8 := 0x23

/-! ### The checks -/

/-- `FIWARE_SERVICE_LENGTH`. -/
def fiwareServiceLength : ℕ := 50

/-- A loop over characters that ends at the first wrong one. -/
def scan (wrong : UInt8 → Bool) : List UInt8 → Bool → Bool
  | [], error => error
  | c :: cs, error => if error then error else scan wrong cs (wrong c)

/-- `check_fiware_service_name`. -/
def checkFiwareServiceName (headerFiwareService : List UInt8) : Except IotaException Unit :=
  let error := decide (headerFiwareService = [] ∨
    fiwareServiceLength < headerFiwareService.length)
  if scan (fun c => (!isAlnum c && c ≠ underscore) || (isAlpha c && !isLower c))
      headerFiwareService error then
    .error ⟨Types.reasonMalformedHeader, Types.detailsHeaderFiwareService,
      Types.responseCodeFiwareServiceError⟩
  else .ok ()

/-- `check_fiware_service_path_name`. Behind the last character stands a NUL. -/
def checkFiwareServicePathName (headerFiwareServicePath : List UInt8) :
    Except IotaException Unit :=
  if headerFiwareServicePath = [] then .ok ()
  else
    let size := headerFiwareServicePath.length
    let wildCard := decide (headerFiwareServicePath.getD 1 0 = star ∨
      headerFiwareServicePath.getD 1 0 = numberSign)
    let error := headerFiwareServicePath.getD 0 0 ≠ slash || (wildCard && 2 < size) ||
      fiwareServiceLength + 1 < size
    let start := if wildCard then 2 else 1
    if scan (fun c => !isAlnum c && c ≠ underscore) (headerFiwareServicePath.drop start) error then
      .error ⟨Types.reasonMalformedHeader, Types.detailsHeaderFiwareServicePath,
        Types.responseCodeFiwareServicePathError⟩
    else .ok ()

/-! ### What passes -/

/-- A letter, a digit or the underscore. -/
def NameChar (c : UInt8) : Prop :=
  isAlnum c = true ∨ c = underscore

instance : DecidablePred NameChar := fun _ => inferInstanceAs (Decidable (_ ∨ _))

variable {wrong : UInt8 → Bool} {cs : List UInt8} {error : Bool}

lemma scan_eq : scan wrong cs error = (error || cs.any wrong) := by
  induction cs generalizing error with
  | nil => rw [scan, List.any_nil, Bool.or_false]
  | cons c cs ih =>
      rw [scan, ih, List.any_cons]
      cases error <;> rfl

/-- Nothing is wrong at the beginning, and no character is. -/
lemma scan_eq_false_iff :
    scan wrong cs error = false ↔ error = false ∧ ∀ c ∈ cs, wrong c = false := by
  rw [scan_eq, Bool.or_eq_false_iff, List.any_eq_false]
  simp only [Bool.not_eq_true]

lemma not_nameChar_iff (c : UInt8) :
    (!isAlnum c && decide (c ≠ underscore)) = false ↔ NameChar c := by
  rw [NameChar, Bool.and_eq_false_iff, Bool.not_eq_false', decide_eq_false_iff_not, not_not]

lemma ite_error_eq_ok_iff {e : IotaException} {b : Bool} :
    (if b then .error e else .ok () : Except IotaException Unit) = .ok () ↔ b = false := by
  cases b <;> simp

/-- The names of services have small letters, digits and underscores. -/
theorem checkFiwareServiceName_eq_ok_iff (name : List UInt8) :
    checkFiwareServiceName name = .ok () ↔
      name ≠ [] ∧ name.length ≤ 50 ∧ ∀ c ∈ name, NameChar c ∧ isUpper c = false := by
  rw [checkFiwareServiceName, ite_error_eq_ok_iff, scan_eq_false_iff, decide_eq_false_iff_not,
    not_or, Nat.not_lt, fiwareServiceLength, and_assoc]
  simp only [Bool.or_eq_false_iff, not_nameChar_iff, isAlpha_and_not_isLower_iff]

/-- A path without a wild card: the slash, and a name that may be empty. -/
lemma plain_eq_ok_iff {c : UInt8} (name : List UInt8) (hstar : name.getD 0 0 ≠ star)
    (hsign : name.getD 0 0 ≠ numberSign) :
    checkFiwareServicePathName (c :: name) = .ok () ↔
      c = slash ∧ name.length ≤ 50 ∧ ∀ c ∈ name, NameChar c := by
  have hwild : decide ((c :: name).getD 1 0 = star ∨ (c :: name).getD 1 0 = numberSign) = false :=
    decide_eq_false (not_or.mpr ⟨hstar, hsign⟩)
  rw [checkFiwareServicePathName, if_neg (List.cons_ne_nil _ _), ite_error_eq_ok_iff,
    scan_eq_false_iff, hwild]
  simp only [Bool.false_and, Bool.or_false, Bool.or_eq_false_iff, decide_eq_false_iff_not,
    not_not, Nat.not_lt, Bool.false_eq_true, if_false, List.drop_one, List.tail_cons,
    List.length_cons, List.getD_cons_zero, not_nameChar_iff, Nat.add_le_add_iff_right, and_assoc]
  rfl

/-- A path with a wild card has nothing behind it. -/
lemma wild_eq_ok_iff {c w : UInt8} {rest : List UInt8} (hw : w = star ∨ w = numberSign) :
    checkFiwareServicePathName (c :: w :: rest) = .ok () ↔ c = slash ∧ rest = [] := by
  have hwild : decide ((c :: w :: rest).getD 1 0 = star ∨
      (c :: w :: rest).getD 1 0 = numberSign) = true := decide_eq_true hw
  rw [checkFiwareServicePathName, if_neg (List.cons_ne_nil _ _), ite_error_eq_ok_iff,
    scan_eq_false_iff, hwild]
  simp only [Bool.true_and, Bool.or_eq_false_iff, decide_eq_false_iff_not, not_not, Nat.not_lt,
    if_true, List.length_cons, List.getD_cons_zero, not_nameChar_iff, fiwareServiceLength,
    List.drop_succ_cons, List.drop_zero]
  constructor
  · rintro ⟨⟨⟨hc, hlen⟩, -⟩, -⟩
    exact ⟨hc, List.eq_nil_of_length_eq_zero (by omega)⟩
  · rintro ⟨rfl, rfl⟩
    exact ⟨⟨⟨rfl, by simp⟩, by simp⟩, fun c hc => by cases hc⟩

/-- **Service paths**: nothing, a wild card behind the slash, or a name of at most fifty
characters. -/
theorem checkFiwareServicePathName_eq_ok_iff (path : List UInt8) :
    checkFiwareServicePathName path = .ok () ↔
      path = [] ∨ path = [slash, star] ∨ path = [slash, numberSign] ∨
        ∃ name, path = slash :: name ∧ name.length ≤ 50 ∧ ∀ c ∈ name, NameChar c := by
  match path with
  | [] => exact iff_of_true rfl (.inl rfl)
  | [c] =>
      rw [plain_eq_ok_iff [] (by decide) (by decide)]
      simp
  | c :: w :: rest =>
      by_cases hw : w = star ∨ w = numberSign
      · have hname : ¬ NameChar w := by rcases hw with rfl | rfl <;> decide
        rw [wild_eq_ok_iff hw]
        constructor
        · rintro ⟨rfl, rfl⟩
          rcases hw with rfl | rfl
          · exact .inr (.inl rfl)
          · exact .inr (.inr (.inl rfl))
        · rintro (h | h | h | ⟨name, h, -, hall⟩)
          · cases h
          · cases h; exact ⟨rfl, rfl⟩
          · cases h; exact ⟨rfl, rfl⟩
          · obtain ⟨-, rfl⟩ := List.cons.inj h
            exact absurd (hall w (List.mem_cons_self ..)) hname
      · obtain ⟨hstar, hsign⟩ := not_or.mp hw
        rw [plain_eq_ok_iff (w :: rest) hstar hsign]
        simp [hstar, hsign]

end FiwareHeaders

end IotAgent
