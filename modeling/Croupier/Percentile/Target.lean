import Croupier.Dice.Notation

/-!
# Croupier.Percentile.Target

Target numbers of percentile checks: an optional sign and one to nine ASCII digits. Zero may
carry a minus sign, a larger number may not.
-/

namespace Croupier

inductive TargetFault where
  | nonNumeric
  | negative
  deriving DecidableEq, Repr

def TargetFault.name : TargetFault → String
  | .nonNumeric => "non_numeric_target"
  | .negative => "negative_target"

/-- The fault, and the token it was found in. -/
structure TargetError where
  fault : TargetFault
  text : Option String
  deriving DecidableEq, Repr

namespace Target

/-- The signed number that the characters spell. -/
def ofChars? : List Char → Option Int
  | '+' :: digits => (Numeral.short? digits).map fun n : Nat => (n : Int)
  | '-' :: digits => (Numeral.short? digits).map fun n : Nat => -(n : Int)
  | digits => (Numeral.short? digits).map fun n : Nat => (n : Int)

def parse (token : Option String) : Except TargetError Nat :=
  match token.bind fun s => ofChars? s.toList with
  | none => .error ⟨.nonNumeric, token⟩
  | some n => if n < 0 then .error ⟨.negative, token⟩ else .ok n.toNat

end Target
end Croupier
