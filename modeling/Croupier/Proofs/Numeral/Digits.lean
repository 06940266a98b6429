import Croupier.Numeral
import Mathlib.Algebra.Group.Nat.Defs

/-!
# Croupier.Proofs.Numeral.Digits

Runs of digits: how large the number is that a run stands for, where a run ends, how the decimal
notation of a number starts, and which runs are the notation of a number.

* `toDigits_value`: a run that is not padded is the notation of its value.
* `signedValue_ofInt`, `signedValue_signed`, `signedValue_twoPlaces`: what is printed of a whole
  number is read back.
-/

namespace Croupier
namespace Numeral

theorem digit_le_nine {c : Char} (h : c.isDigit = true) : c.toNat - '0'.toNat ≤ 9 := by
  simp only [Char.isDigit, Bool.and_eq_true, decide_eq_true_eq] at h
  have h9 : c.toNat ≤ 57 := h.2
  have h0 : '0'.toNat = 48 := rfl
  omega

/-- Each character of a run adds at most one digit to the number. -/
theorem foldl_lt {digits : List Char} {next : Nat → Char → Nat}
    (h : ∀ n, ∀ c ∈ digits, next n c ≤ 10 * n + 9) (init : Nat) :
    digits.foldl next init < (init + 1) * 10 ^ digits.length := by
  induction digits generalizing init with
  | nil => rw [List.foldl_nil, List.length_nil, Nat.pow_zero]; omega
  | cons c digits ih =>
    have hdigit := h init c List.mem_cons_self
    rw [List.foldl_cons, List.length_cons]
    calc digits.foldl next (next init c)
      _ < (next init c + 1) * 10 ^ digits.length :=
        ih (fun n d hd => h n d (List.mem_cons_of_mem c hd)) _
      _ ≤ ((init + 1) * 10) * 10 ^ digits.length := Nat.mul_le_mul_right _ (by omega)
      _ = (init + 1) * 10 ^ (digits.length + 1) := by
        rw [Nat.pow_succ, Nat.mul_assoc, Nat.mul_comm 10]

theorem value_lt {digits : List Char} (h : ∀ c ∈ digits, c.isDigit = true) :
    value digits < 10 ^ digits.length := by
  have hlt := foldl_lt (fun n c hc => Nat.add_le_add_left (digit_le_nine (h c hc)) (10 * n)) 0
  rw [Nat.zero_add, Nat.one_mul] at hlt
  exact hlt

/-- Digits after a number make nothing of it only if it is zero and they are zeros. -/
theorem ofDigitChars_eq_zero_iff {digits : List Char} (h : ∀ c ∈ digits, c.isDigit = true) {n : Nat} :
    Nat.ofDigitChars 10 digits n = 0 ↔ n = 0 ∧ ∀ c ∈ digits, c = '0' := by
  induction digits generalizing n with
  | nil => simp
  | cons c digits ih =>
    obtain ⟨hc, hdigits⟩ := List.forall_mem_cons.1 h
    have hrange : 48 ≤ c.toNat ∧ c.toNat ≤ 57 := Char.isDigit_iff_toNat.1 hc
    have hzero : c = '0' ↔ c.toNat = 48 := by rw [← Char.toNat_inj]; rfl
    rw [Nat.ofDigitChars_cons, ih hdigits, List.forall_mem_cons, hzero, ← and_assoc]
    refine and_congr_left fun _ => ?_
    have h0 : '0'.toNat = 48 := rfl
    omega

theorem value_eq_zero_iff {digits : List Char} (h : ∀ c ∈ digits, c.isDigit = true) :
    value digits = 0 ↔ ∀ c ∈ digits, c = '0' := by
  rw [value, ofDigitChars_eq_zero_iff h, and_iff_right rfl]

theorem isWritable_eq_false_iff {n : Int} :
    isWritable n = false ↔ Nat.pow 10 maxDigits ≤ n.natAbs := by
  rw [Bool.eq_false_iff, ne_eq, isWritable_iff, Nat.not_lt]

/-- The first number that is too long to be written. -/
theorem isWritable_pow : isWritable (Nat.pow 10 maxDigits : Nat) = false :=
  isWritable_eq_false_iff.2 (Nat.le_of_eq (Int.natAbs_natCast _).symm)

theorem pow_maxDigits_pos : 0 < Nat.pow 10 maxDigits := by
  have hzero : isWritable 0 = true := rfl
  exact isWritable_iff.1 hzero

theorem isWritable_of_lt_pow {n : Int} {k : Nat} (hk : k ≤ maxDigits) (h : n.natAbs < 10 ^ k) :
    isWritable n = true := by
  rw [isWritable_iff]
  refine Nat.lt_of_lt_of_le h ?_
  generalize maxDigits = m at hk
  exact Nat.pow_le_pow_right (by decide) hk

section Run

variable {digits rest : List Char}

theorem takeWhile_digits (hd : ∀ c ∈ digits, c.isDigit = true)
    (hr : ∀ c ∈ rest.head?, c.isDigit = false) :
    (digits ++ rest).takeWhile Char.isDigit = digits := by
  rw [List.takeWhile_append_of_pos hd]
  cases rest with
  | nil => rw [List.takeWhile_nil, List.append_nil]
  | cons c rest => simp [hr c rfl]

theorem dropWhile_digits (hd : ∀ c ∈ digits, c.isDigit = true)
    (hr : ∀ c ∈ rest.head?, c.isDigit = false) :
    (digits ++ rest).dropWhile Char.isDigit = rest := by
  rw [List.dropWhile_append_of_pos hd]
  cases rest with
  | nil => rfl
  | cons c rest => simp [hr c rfl]

end Run

/-- Only zero is written with a zero in front. -/
theorem exists_toDigits_cons (n : Nat) :
    ∃ c cs, Nat.toDigits 10 n = c :: cs ∧ c.isDigit = true ∧ (0 < n → c ≠ '0') := by
  induction n using Nat.strongRecOn with
  | ind n ih =>
    by_cases hsmall : n < 10
    · have hdigits : ∀ m < 10, m.digitChar.isDigit = true ∧ (0 < m → m.digitChar ≠ '0') := by decide
      rw [Nat.toDigits_of_lt_base hsmall]
      exact ⟨n.digitChar, [], rfl, hdigits n hsmall⟩
    · obtain ⟨c, cs, hdigits, hdigit, hzero⟩ := ih (n / 10) (by omega)
      rw [Nat.toDigits_of_base_le (by decide) (by omega), hdigits]
      exact ⟨c, cs ++ [(n % 10).digitChar], rfl, hdigit, fun _ => hzero (by omega)⟩

/-! ## The notation of a number -/

theorem repr_ne_empty (n : Nat) : Nat.repr n ≠ "" := by
  intro h
  have hdigits : Nat.toDigits 10 n = [] := by rw [← Nat.toList_repr, h]; rfl
  exact Nat.toDigits_ne_nil hdigits

/-- A zero in front of other digits. -/
def Padded (digits : List Char) : Prop :=
  ∃ c rest, digits = '0' :: c :: rest

/-- The number that a run of digits after a sign stands for; the sign may be missing. -/
def signedValue : List Char → Int
  | '+' :: digits => value digits
  | '-' :: digits => -value digits
  | digits => value digits

theorem toList_signed (n : Int) :
    (signed n).toList = (if n < 0 then '-' else '+') :: Nat.toDigits 10 n.natAbs := by
  rw [signed, String.toList_append, Nat.toList_repr]
  split <;> rfl

theorem signedValue_signed (n : Int) : signedValue (signed n).toList = n := by
  rw [toList_signed]
  split
  · rw [signedValue, value_toDigits]
    omega
  · rw [signedValue, value_toDigits]
    omega

theorem plus_notMem_ofInt (n : Int) : '+' ∉ (ofInt n).toList := by
  intro hplus
  rw [ofInt, String.toList_append, Nat.toList_repr, List.mem_append] at hplus
  rcases hplus with hsign | hdigits
  · split at hsign
    · simp at hsign
    · simp at hsign
  · have hdigit := Nat.isDigit_of_mem_toDigits (by decide) (by decide) hdigits
    cases hdigit

theorem signedValue_of_isDigit {c : Char} (hc : c.isDigit = true) (cs : List Char) :
    signedValue (c :: cs) = value (c :: cs) := by
  unfold signedValue
  split
  · rename_i heq
    rw [(List.cons.inj heq).1] at hc
    cases hc
  · rename_i heq
    rw [(List.cons.inj heq).1] at hc
    cases hc
  · rfl

theorem signedValue_ofInt (n : Int) : signedValue (ofInt n).toList = n := by
  obtain ⟨c, cs, hcs, hc, -⟩ := exists_toDigits_cons n.natAbs
  have hvalue : value (c :: cs) = n.natAbs := by rw [← hcs, value_toDigits]
  rw [ofInt, String.toList_append, Nat.toList_repr, hcs]
  split
  · change signedValue ('-' :: c :: cs) = n
    rw [signedValue, hvalue]
    omega
  · change signedValue (c :: cs) = n
    rw [signedValue_of_isDigit hc, hvalue]
    omega

/-- A zero in front counts for nothing. -/
theorem signedValue_twoPlaces (n : Int) : signedValue (twoPlaces n).toList = n := by
  rw [twoPlaces]
  split
  · have hdigits : ("0" ++ ofInt n).toList = '0' :: Nat.toDigits 10 n.natAbs := by
      rw [ofInt, if_neg (by omega), String.empty_append, String.toList_append, Nat.toList_repr]
      rfl
    have hzero : value ('0' :: Nat.toDigits 10 n.natAbs) = value (Nat.toDigits 10 n.natAbs) := rfl
    rw [hdigits, signedValue_of_isDigit rfl, hzero, value_toDigits]
    omega
  · exact signedValue_ofInt n

end Numeral
end Croupier
