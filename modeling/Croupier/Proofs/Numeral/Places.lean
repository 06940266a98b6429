import Croupier.Numeral
import Mathlib.Algebra.Group.Nat.Defs
import Mathlib.Data.List.Lex

/-!
# Croupier.Proofs.Numeral.Places

A fixed number of decimal places. Of two numbers with as many places the smaller one comes first
in the order of texts: `places_lt_places`.
-/

namespace Croupier
namespace Numeral

/-- The last `k` decimal places of a number. -/
def places : Nat → Nat → List Char
  | 0, _ => []
  | k + 1, n => places k (n / 10) ++ [(n % 10).digitChar]

theorem length_places (k n : Nat) : (places k n).length = k := by
  induction k generalizing n with
  | zero => rfl
  | succ k ih => rw [places, List.length_append, ih, List.length_singleton]

theorem digitChar_lt_digitChar {a b : Nat} (h : a < b) (hb : b < 10) :
    a.digitChar < b.digitChar := by
  have hdigits : ∀ b < 10, ∀ a < b, a.digitChar < b.digitChar := by decide
  exact hdigits b hb a h

theorem isDigit_digitChar {n : Nat} (h : n < 10) : n.digitChar.isDigit = true := by
  have hdigits : ∀ n < 10, n.digitChar.isDigit = true := by decide
  exact hdigits n h

theorem isDigit_of_mem_places {k n : Nat} {c : Char} (h : c ∈ places k n) : c.isDigit = true := by
  induction k generalizing n with
  | zero => cases h
  | succ k ih =>
    rcases List.mem_append.1 h with h | h
    · exact ih h
    · rw [List.mem_singleton.1 h]
      exact isDigit_digitChar (Nat.mod_lt n (by decide))

/-- Texts that differ within the same number of characters may go on as they like. -/
theorem append_lt_append {front front' back back' : List Char}
    (hlen : front.length = front'.length) (h : front < front') : front ++ back < front' ++ back' := by
  induction front generalizing front' with
  | nil =>
    rw [List.eq_nil_of_length_eq_zero hlen.symm] at h
    exact absurd h (List.not_lt_nil [])
  | cons c front ih =>
    cases front' with
    | nil => cases hlen
    | cons c' front' =>
      rw [List.cons_append, List.cons_append, List.cons_lt_cons_iff]
      rcases List.cons_lt_cons_iff.1 h with hc | ⟨hc, htail⟩
      · exact .inl hc
      · exact .inr ⟨hc, ih (Nat.succ.inj hlen) htail⟩

theorem places_lt_places {k m n : Nat} (h : m < n) (hn : n < 10 ^ k) :
    places k m < places k n := by
  induction k generalizing m n with
  | zero => omega
  | succ k ih =>
    rw [Nat.pow_succ] at hn
    by_cases hdiv : m / 10 < n / 10
    · exact append_lt_append (by rw [length_places, length_places]) (ih hdiv (by omega))
    · have heq : m / 10 = n / 10 := by omega
      rw [places, places, heq]
      refine List.append_left_lt (List.cons_lt_cons_iff.2 (.inl ?_))
      exact digitChar_lt_digitChar (by omega) (Nat.mod_lt n (by decide))

/-- A number of `k + 1` digits is written in so many places. -/
theorem toDigits_eq_places {k n : Nat} (hlow : 10 ^ k ≤ n) (hhigh : n < 10 ^ (k + 1)) :
    Nat.toDigits 10 n = places (k + 1) n := by
  induction k generalizing n with
  | zero =>
    have hten : n < 10 := hhigh
    rw [Nat.toDigits_of_lt_base hten, places, places, Nat.mod_eq_of_lt hten]
    rfl
  | succ k ih =>
    have hpos : 0 < 10 ^ k := Nat.pow_pos (by decide)
    rw [Nat.pow_succ] at hlow hhigh
    rw [Nat.toDigits_of_base_le (by decide) (by omega), ih (by omega) (by omega)]
    rfl

theorem toList_ofInt {k : Nat} {n : Int} (hlow : 10 ^ k ≤ n.toNat) (hhigh : n.toNat < 10 ^ (k + 1)) :
    (ofInt n).toList = places (k + 1) n.toNat := by
  have hpos : 0 < 10 ^ k := Nat.pow_pos (by decide)
  have habs : n.natAbs = n.toNat := by omega
  rw [ofInt, if_neg (by omega), String.empty_append, Nat.toList_repr, habs,
    toDigits_eq_places hlow hhigh]

theorem toList_twoPlaces {n : Int} (hlow : 0 ≤ n) (hhigh : n < 100) :
    (twoPlaces n).toList = places 2 n.toNat := by
  by_cases hsmall : n < 10
  · have hdigits : (ofInt n).toList = places 1 n.toNat := by
      have habs : n.natAbs = n.toNat := by omega
      rw [ofInt, if_neg (by omega), String.empty_append, Nat.toList_repr, habs,
        Nat.toDigits_of_lt_base (by omega), places, places, Nat.mod_eq_of_lt (by omega)]
      rfl
    have hzero : n.toNat / 10 = 0 := by omega
    rw [twoPlaces, if_pos ⟨hlow, hsmall⟩, String.toList_append, hdigits, places, places, places,
      places, hzero]
    rfl
  · rw [twoPlaces, if_neg (by omega), toList_ofInt (k := 1) (by omega) (by omega)]

end Numeral
end Croupier
