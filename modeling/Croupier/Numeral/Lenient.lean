import Croupier.Numeral
import Croupier.Text.Blank
import Croupier.Text.DecimalDigit
import Croupier.Text.Quoted

/-!
# Croupier.Numeral.Lenient

Whole numbers as people write them: blanks around the number, a sign, decimal digits of any
script, single underscores between digits. At most 4300 digits are taken.
-/

namespace Croupier
namespace Numeral
namespace Lenient

inductive Fault where
  | malformed (text : String)
  | tooLong (digits : Nat)
  deriving DecidableEq, Repr

/-- A malformed text is shown in quoted form, cut to its first 200 characters. -/
def Fault.message : Fault → String
  | .malformed text =>
    "invalid literal for int() with base 10: " ++
      String.ofList ((Text.quoted text).toList.take 200)
  | .tooLong digits =>
    "Exceeds the limit (" ++ Nat.repr maxDigits ++ " digits) for integer string conversion: " ++
      "value has " ++ Nat.repr digits ++
      " digits; use sys.set_int_max_str_digits() to increase the limit"

/-- The blanks that may surround the number; the information separators are not among them. -/
def isMargin (c : Char) : Bool :=
  Text.isBlank c && !(0x1C ≤ c.toNat && c.toNat ≤ 0x1F)

/-- The characters that a number is made of, after its sign. -/
def inRun (c : Char) : Bool :=
  (Text.digit? c).isSome || c = '_'

/-- The groups of digits that underscores separate, all of them non-empty. -/
def groups? (run : List Char) : Option (List (List Char)) :=
  let groups := run.splitOn '_'
  if groups.all fun g => !g.isEmpty then some groups else none

def value (digits : List Char) : Nat :=
  digits.foldl (fun n c => n * 10 + (Text.digit? c).getD 0) 0

/-- The sign in front, and what follows it. -/
def splitSign (cs : List Char) : Int × List Char :=
  match cs with
  | '+' :: rest => (1, rest)
  | '-' :: rest => (-1, rest)
  | rest => (1, rest)

/-- The number of digits is looked at before what follows them. -/
def toInt (text : String) : Except Fault Int :=
  let (sign, cs) := splitSign (text.toList.dropWhile isMargin)
  match groups? (cs.takeWhile inRun) with
  | none => .error (.malformed text)
  | some groups =>
    let digits := groups.flatten
    if maxDigits < digits.length then .error (.tooLong digits.length)
    else if (cs.dropWhile inRun).all isMargin then .ok (sign * value digits)
    else .error (.malformed text)

end Lenient
end Numeral
end Croupier
