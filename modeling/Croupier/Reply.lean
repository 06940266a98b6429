import Croupier.Dice.Outcome
import Croupier.Order
import Croupier.Percentile.Grade

/-!
# Croupier.Reply

What is said in answer to an order. All dice of an order are rolled before anything is said; if
one draw fails, nothing is.
-/

namespace Croupier

open Entropy

namespace Reply

/-- `TAG (WHO LABEL)  ==> `, in front of every result. -/
def heading (tag who : String) (label : Option String) : String :=
  tag ++ " (" ++
    (match label with
      | none => who
      | some label => who ++ " " ++ label) ++
    ")  ==> "

/-- The expressions in order, each with its dice. -/
def rollAll : List DieSpec → Source → Except Failure (List Outcome) × Source
  | [], s => (.ok [], s)
  | spec :: specs, s =>
    match spec.evaluate 1 s with
    | (.error e, s) => (.error e, s)
    | (.ok outcome, s) =>
      match rollAll specs s with
      | (.error e, s) => (.error e, s)
      | (.ok outcomes, s) => (.ok (outcome :: outcomes), s)

/-- One line for each expression. -/
def diceText (who : String) (label : Option String) (outcomes : List Outcome) : String :=
  "\n".intercalate (outcomes.map fun o => heading "DICE" who label ++ o.trace)

def toDice (who : String) (order : DiceOrder) (s : Source) : Except Failure String × Source :=
  match rollAll order.specs s with
  | (.error e, s) => (.error e, s)
  | (.ok outcomes, s) => (.ok (diceText who order.label outcomes), s)

/-- One roll of the percentile die, numbered from zero, graded against the target. -/
def toCheck (who : String) (order : CheckOrder) (s : Source) : Except Failure String × Source :=
  match DieSpec.d100.evaluate 0 s with
  | (.error e, s) => (.error e, s)
  | (.ok outcome, s) =>
    match grade outcome.total order.target with
    | .error e => (.error (.ofUnfit e), s)
    | .ok g =>
      match g.text? with
      | none => (.error .unwritable, s)
      | some text => (.ok (heading "EPD" who order.label ++ text), s)

end Reply

/-- The reply to a line of dice expressions; a line that is no order gets none. -/
def diceReply (who : String) (args : Option String) (cap : Option Int) (s : Source) :
    Except Failure (Option String) × Source :=
  match DiceOrder.ofArgs cap args with
  | .order order =>
    match Reply.toDice who order s with
    | (.error e, s) => (.error e, s)
    | (.ok text, s) => (.ok (some text), s)
  | _ => (.ok none, s)

/-- The reply to a percentile check; a line that is no order gets none. -/
def checkReply (who : String) (args : Option String) (s : Source) :
    Except Failure (Option String) × Source :=
  match CheckOrder.ofArgs args with
  | .order order =>
    match Reply.toCheck who order s with
    | (.error e, s) => (.error e, s)
    | (.ok text, s) => (.ok (some text), s)
  | _ => (.ok none, s)

end Croupier
