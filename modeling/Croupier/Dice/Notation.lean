import Croupier.Dice.Spec
import Croupier.Text.Quoted

/-!
# Croupier.Dice.Notation

Dice expressions: an optional count, `d` or `D`, the sides, and an optional signed bonus, each
number written with one to nine ASCII digits and nothing around them.

`Expression.ofChars?` takes the text apart, `DieSpec.parse` also checks the numbers.
-/

namespace Croupier

/-- A number of an expression: one to nine digits. -/
def Numeral.short? (digits : List Char) : Option Nat :=
  if digits.all Char.isDigit && 1 ≤ digits.length && digits.length ≤ 9 then
    some (value digits)
  else
    none

/-- The numbers of a well-formed dice expression, not yet checked against what dice there are. -/
structure Expression where
  count : Nat
  sides : Nat
  bonus : Int
  deriving DecidableEq, Repr

namespace Expression

/-- A missing count is one. -/
def count? : List Char → Option Nat
  | [] => some 1
  | digits => Numeral.short? digits

/-- A missing bonus is zero. -/
def bonus? : List Char → Option Int
  | [] => some 0
  | '+' :: digits => (Numeral.short? digits).map fun n : Nat => (n : Int)
  | '-' :: digits => (Numeral.short? digits).map fun n : Nat => -(n : Int)
  | _ => none

/-- The count is the run of digits in front, the sides are the run of digits after the letter. -/
def ofChars? (cs : List Char) : Option Expression :=
  match cs.dropWhile Char.isDigit with
  | [] => none
  | letter :: tail =>
    if letter = 'd' ∨ letter = 'D' then
      match count? (cs.takeWhile Char.isDigit), Numeral.short? (tail.takeWhile Char.isDigit),
          bonus? (tail.dropWhile Char.isDigit) with
      | some count, some sides, some bonus => some ⟨count, sides, bonus⟩
      | _, _, _ => none
    else
      none

end Expression

/-- Why a text is no die specification. -/
inductive ParseFault where
  | malformed
  | zeroCount
  | sidesOutOfRange
  deriving DecidableEq, Repr

def ParseFault.name : ParseFault → String
  | .malformed => "malformed"
  | .zeroCount => "zero_count"
  | .sidesOutOfRange => "sides_out_of_range"

/-- The fault, and the text it was found in. -/
structure ParseError where
  fault : ParseFault
  text : Option String
  deriving DecidableEq, Repr

/-! ## In records -/

def ParseFault.capitals : ParseFault → String
  | .malformed => "MALFORMED"
  | .zeroCount => "ZERO_COUNT"
  | .sidesOutOfRange => "SIDES_OUT_OF_RANGE"

def ParseError.described (e : ParseError) : String :=
  "ParseError(kind=<ParseErrorKind." ++ e.fault.capitals ++ ": '" ++ e.fault.name ++ "'>, text=" ++
    (match e.text with
      | none => "None"
      | some text => Text.quoted text) ++
    ")"

def DieSpec.described (spec : DieSpec) : String :=
  "DieSpec(count=" ++ Nat.repr spec.count ++ ", sides=" ++ Nat.repr spec.sides ++ ", bonus=" ++
    Numeral.ofInt spec.bonus ++ ")"

namespace DieSpec

/-- A missing text is malformed; a count of zero is reported before unusable sides. -/
def parse (text : Option String) : Except ParseError DieSpec :=
  match text.bind fun s => Expression.ofChars? s.toList with
  | none => .error ⟨.malformed, text⟩
  | some e =>
    if hc : e.count = 0 then .error ⟨.zeroCount, text⟩
    else if hs : minSides ≤ e.sides ∧ e.sides ≤ maxSides then
      .ok {
        count := e.count
        sides := e.sides
        bonus := e.bonus
        one_le_count := Nat.one_le_iff_ne_zero.2 hc
        minSides_le := hs.1
        le_maxSides := hs.2 }
    else .error ⟨.sidesOutOfRange, text⟩

def looksLikeSpec (text : Option String) : Bool :=
  match parse text with
  | .ok _ => true
  | .error _ => false

/-- Whether there is a header and it denotes the specification it was written for. It does not when
a number has more than nine digits. -/
def headerReadsBack (spec : DieSpec) : Bool :=
  match spec.header? with
  | none => false
  | some header =>
    match parse (some header) with
    | .ok spec' => spec' = spec
    | .error _ => false

end DieSpec
end Croupier
