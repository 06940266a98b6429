import Croupier.Range

/-!
# Croupier.Dice.Spec

A die specification `NdS+B`, and its header, the shortest expression that denotes it.
-/

namespace Croupier

/-- `count` dice of `sides` sides each, and `bonus` added to their sum. -/
@[ext]
structure DieSpec where
  count : Nat
  sides : Nat
  bonus : Int
  one_le_count : 1 ≤ count
  minSides_le : minSides ≤ sides
  le_maxSides : sides ≤ maxSides
  deriving DecidableEq, Repr

namespace DieSpec

/-- The count is looked at before the sides. -/
def ofInts (count sides bonus : Int) : Except Unfit DieSpec :=
  if hc : count < 1 then
    .error (OutOfRange.count count).unfit
  else if hs : (minSides : Int) ≤ sides ∧ sides ≤ maxSides then
    .ok {
      count := count.toNat
      sides := sides.toNat
      bonus := bonus
      one_le_count := by omega
      minSides_le := by omega
      le_maxSides := by omega }
  else
    .error (OutOfRange.sides sides).unfit

/-- `NdS`, and the signed bonus unless it is zero, however long the numbers are. -/
def shorthand (spec : DieSpec) : String :=
  Nat.repr spec.count ++ "d" ++ Nat.repr spec.sides ++
    if spec.bonus = 0 then "" else Numeral.signed spec.bonus

/-- The header, if its numbers are short enough to be written. -/
def header? (spec : DieSpec) : Option String :=
  Numeral.writing? [spec.count, spec.bonus] spec.shorthand

/-- The percentile die. -/
def d100 : DieSpec where
  count := 1
  sides := 100
  bonus := 0
  one_le_count := by decide
  minSides_le := by decide
  le_maxSides := by decide

end DieSpec
end Croupier
