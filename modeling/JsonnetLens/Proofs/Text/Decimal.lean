import JsonnetLens.Text.Digit
import Mathlib.Data.List.Basic
import Mathlib.Tactic.Ring
/-!
# Decimal numbers are read back

`ofNat` writes digits of the ASCII kind and no needless zero, and `digitsValue` reads the number back
from them.  A run of digits of some length writes a number with at most as many digits, so a limit on
what is read is a limit on what is written.
-/
namespace JsonnetLens.Text

theorem isAsciiDigit_iff {c : Char} : c.isDigit = true ↔ 0x30 ≤ c.toNat ∧ c.toNat ≤ 0x39 := by
  simp [Char.isDigit, UInt32.le_iff_toNat_le]

theorem digitValue?_of_isAsciiDigit {c : Char} (h : c.isDigit = true) :
    digitValue? c = some (c.toNat - 0x30) := by
  rw [digitValue?, if_pos h]

theorem isDigit_of_isAsciiDigit {c : Char} (h : c.isDigit = true) : isDigit c = true := by
  rw [isDigit, digitValue?_of_isAsciiDigit h, Option.isSome_some]

theorem foldl_digits_eq {t : Text} (h : ∀ c ∈ t, c.isDigit = true) (n : Nat) :
    t.foldl (fun n c => 10 * n + (digitValue? c).getD 0) n = Nat.ofDigitChars 10 t n := by
  induction t generalizing n with
  | nil => rfl
  | cons c t ih =>
    have hc := h c List.mem_cons_self
    have ht : ∀ d ∈ t, d.isDigit = true := fun d hd => h d (List.mem_cons_of_mem _ hd)
    rw [List.foldl_cons, ih ht, Nat.ofDigitChars_cons, digitValue?_of_isAsciiDigit hc, Option.getD_some]
    rfl

theorem ofDigitChars_lt {t : Text} (h : ∀ c ∈ t, c.isDigit = true) (n : Nat) :
    Nat.ofDigitChars 10 t n < (n + 1) * 10 ^ t.length := by
  induction t generalizing n with
  | nil => simp
  | cons c t ih =>
    have hc := isAsciiDigit_iff.1 (h c List.mem_cons_self)
    have ht : ∀ d ∈ t, d.isDigit = true := fun d hd => h d (List.mem_cons_of_mem _ hd)
    have hdigit : 10 * n + (c.toNat - '0'.toNat) + 1 ≤ (n + 1) * 10 := by
      have hzero : '0'.toNat = 0x30 := rfl
      omega
    calc Nat.ofDigitChars 10 (c :: t) n
        = Nat.ofDigitChars 10 t (10 * n + (c.toNat - '0'.toNat)) := Nat.ofDigitChars_cons ..
      _ < (10 * n + (c.toNat - '0'.toNat) + 1) * 10 ^ t.length := ih ht _
      _ ≤ (n + 1) * 10 * 10 ^ t.length := Nat.mul_le_mul_right _ hdigit
      _ = (n + 1) * 10 ^ (c :: t).length := by rw [List.length_cons, pow_succ]; ring

theorem digitsValue_lt {t : Text} (h : ∀ c ∈ t, c.isDigit = true) : digitsValue t < 10 ^ t.length := by
  have hlt := ofDigitChars_lt h 0
  rw [digitsValue, foldl_digits_eq h]
  omega

/-! ## What is written -/

theorem isAsciiDigit_of_mem_ofNat {c : Char} {n : Nat} (h : c ∈ ofNat n) : c.isDigit = true :=
  Nat.isDigit_of_mem_toDigits (by decide) (by decide) h

theorem ofNat_ne_nil (n : Nat) : ofNat n ≠ [] := Nat.toDigits_ne_nil

/-- **A number is read back from its digits.** -/
theorem digitsValue_ofNat (n : Nat) : digitsValue (ofNat n) = n := by
  rw [digitsValue, foldl_digits_eq fun c hc => isAsciiDigit_of_mem_ofNat hc]
  exact Nat.ofDigitChars_ten_toDigits

theorem length_ofNat_le {n k : Nat} (hk : 0 < k) (h : n < 10 ^ k) : (ofNat n).length ≤ k :=
  (Nat.length_toDigits_le_iff (by decide) hk).2 h

theorem length_ofNat_pow (k : Nat) : (ofNat (10 ^ k)).length = k + 1 := by
  have hle : (ofNat (10 ^ k)).length ≤ k + 1 :=
    length_ofNat_le (Nat.succ_pos k) (Nat.pow_lt_pow_right (by decide) (Nat.lt_succ_self k))
  have hgt : k < (ofNat (10 ^ k)).length := by
    by_contra hnot
    rcases Nat.eq_zero_or_pos k with rfl | hk
    · exact hnot (List.length_pos_iff.2 (ofNat_ne_nil _))
    · have hlt := (Nat.length_toDigits_le_iff (by decide) hk).1 (Nat.le_of_not_lt hnot)
      exact Nat.lt_irrefl _ hlt
  omega

/-- A number is written with no more digits than any run that reads as it. -/
theorem length_ofNat_digitsValue_le {t : Text} (h : ∀ c ∈ t, c.isDigit = true) (hne : t ≠ []) :
    (ofNat (digitsValue t)).length ≤ t.length :=
  length_ofNat_le (List.length_pos_iff.2 hne) (digitsValue_lt h)

/-- There is no needless zero. -/
theorem head?_ofNat_ne {n : Nat} (h : n ≠ 0) : (ofNat n).head? ≠ some '0' := by
  induction n using Nat.strong_induction_on with
  | _ n ih =>
    rw [ofNat, Nat.toDigits_eq_if (by decide)]
    by_cases hlt : n < 10
    · rw [if_pos hlt, List.head?_cons]
      simpa [Nat.digitChar_eq_zero] using h
    · rw [if_neg hlt, List.head?_append_of_ne_nil _ Nat.toDigits_ne_nil]
      exact ih (n / 10) (by omega) (by omega)

end JsonnetLens.Text
