import Croupier.Dice.Spec
import Croupier.Entropy.Sampler

/-!
# Croupier.Dice.Outcome

Rolling the dice of a specification, and the trace that shows how the total came about. Dice are
rolled before it turns out that a number is too long for a trace.
-/

namespace Croupier

open Entropy

structure Outcome where
  rolls : List Int
  bonus : Int
  total : Int
  trace : String
  deriving DecidableEq, Repr

/-- `n` draws in order; the first that fails ends them. -/
def rollMany (sides offset : Int) : Nat → Source → Except Failure (List Int) × Source
  | 0, s => (.ok [], s)
  | n + 1, s =>
    match uniform sides offset s with
    | (.error e, s) => (.error e, s)
    | (.ok roll, s) =>
      match rollMany sides offset n s with
      | (.error e, s) => (.error e, s)
      | (.ok rolls, s) => (.ok (roll :: rolls), s)

namespace DieSpec

/-- The rolls joined by plus signs, in brackets before a bonus. The total is left out where it
would repeat a single roll. -/
def trace (spec : DieSpec) (rolls : List Int) (total : Int) : String :=
  let sum := "+".intercalate (rolls.map Numeral.ofInt)
  spec.shorthand ++ " ::= " ++
    (if spec.bonus = 0 then sum else "(" ++ sum ++ ")" ++ Numeral.signed spec.bonus) ++
    (if spec.bonus ≠ 0 ∨ 1 < spec.count then " = " ++ Numeral.ofInt total else "")

def outcome (spec : DieSpec) (rolls : List Int) : Outcome :=
  let total := rolls.foldr (· + ·) 0 + spec.bonus
  { rolls := rolls, bonus := spec.bonus, total := total, trace := spec.trace rolls total }

/-- Whether all numbers of the trace are short enough to be written. -/
def isTraceable (spec : DieSpec) (o : Outcome) : Bool :=
  ((spec.count : Int) :: spec.bonus :: o.total :: o.rolls).all Numeral.isWritable

/-- Sides are numbered from `offset` upwards. -/
def evaluate (spec : DieSpec) (offset : Int) (s : Source) : Except Failure Outcome × Source :=
  match rollMany spec.sides offset spec.count s with
  | (.error e, s) => (.error e, s)
  | (.ok rolls, s) =>
    let o := spec.outcome rolls
    (if spec.isTraceable o then .ok o else .error .unwritable, s)

end DieSpec
end Croupier
