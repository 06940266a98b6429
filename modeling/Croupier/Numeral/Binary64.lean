/-!
# Croupier.Numeral.Binary64

A decimal number `digits · 10 ^ exponent` taken as a binary64 float and cut to a whole number.
All steps are exact: the quotient of two natural numbers is rounded to 53 significant bits, to
even on a tie, and only then is its fraction dropped.
-/

namespace Croupier
namespace Numeral
namespace Binary64

/-- `num / den` rounded to the nearest whole number, a tie to the even one. -/
def roundDiv (num den : Nat) : Nat :=
  let q := num / den
  let r := num % den
  if 2 * r < den ∨ (2 * r = den ∧ q % 2 = 0) then q else q + 1

/-- The greatest `k` with `2 ^ k ≤ num / den`, for positive `num` and `den`. -/
def log2Div (num den : Nat) : Int :=
  let k : Int := (Nat.log2 num : Int) - Nat.log2 den
  if den <<< k.toNat ≤ num <<< (-k).toNat then k else k - 1

/-- The least exponent of a unit in the last place. -/
def minUlp : Int := -1074

/-- The nearest float to `num / den` without its fraction; `none` stands for infinity. -/
def truncDiv (num den : Nat) : Option Nat :=
  let ulp := max (log2Div num den - 52) minUlp
  let q := roundDiv (num <<< (-ulp).toNat) (den <<< ulp.toNat)
  let n := q <<< ulp.toNat >>> (-ulp).toNat
  if n.log2 < 1024 then some n else none

/-- Beyond these powers of ten a number is infinite, or less than one half. -/
def truncNat (digits : Nat) (exponent : Int) : Option Nat :=
  let places : Int := (Nat.repr digits).length + exponent
  if digits = 0 ∨ places < -1 then some 0
  else if 310 < places then none
  else truncDiv (digits * Nat.pow 10 exponent.toNat) (Nat.pow 10 (-exponent).toNat)

/-- The whole part, towards zero, of the float nearest to `digits · 10 ^ exponent`; `none` for an
infinite one. -/
def trunc (digits exponent : Int) : Option Int :=
  (truncNat digits.natAbs exponent).map fun n => if digits < 0 then -(n : Int) else n

end Binary64
end Numeral
end Croupier
