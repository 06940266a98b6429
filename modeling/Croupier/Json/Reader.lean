import Croupier.Json.Basic
import Croupier.Numeral

/-!
# Croupier.Json.Reader

Reading JSON text. Beyond the standard it takes `NaN`, `Infinity`, `-Infinity` and escapes for
single surrogates (read as U+FFFD). A whole number may have at most 4300 digits, and values nest
to a depth that the reader is given. Of two faults the one further to the front counts.

Each reader takes the characters that are left and returns the value and the characters after
it. `value` also counts down two numbers: the levels of nesting that are left, and the steps. No
more than two steps, one into a container and one to its first value, come between a character and
the next, so `enoughSteps` never run out.
-/

namespace Croupier
namespace Json

/-- The four blanks that may stand between tokens. -/
def isGap (c : Char) : Bool :=
  c = ' ' || c = '\t' || c = '\n' || c = '\r'

def skipGap (cs : List Char) : List Char :=
  cs.dropWhile isGap

/-- The rest after a fixed word. -/
def after? (word : String) (cs : List Char) : Option (List Char) :=
  if word.toList.isPrefixOf cs then some (cs.drop word.length) else none

/-- The values that hold others. -/
inductive Container where
  | array
  | object
  deriving DecidableEq, Repr

def Container.name : Container → String
  | .array => "array"
  | .object => "object"

/-- Why a text cannot be read. -/
inductive Unread where
  | malformed
  | tooDeep (c : Container)
  deriving DecidableEq, Repr

/-- What is said of the value that would be nested too deeply. -/
def Container.tooDeep (c : Container) : String :=
  "maximum recursion depth exceeded while decoding a JSON " ++ c.name ++ " from a unicode string"

/-- A reader of something that nests. -/
abbrev Step (α : Type) := Except Unread (α × List Char)

/-- What a reader of something flat finds. -/
def flat {α : Type} : Option (α × List Char) → Step α
  | none => .error .malformed
  | some found => .ok found

/-! ## Strings -/

/-- A string is written as characters and as 16-bit units. -/
inductive Piece where
  | char (c : Char)
  | unit (n : Nat)

def hexDigit? (c : Char) : Option Nat :=
  if '0' ≤ c ∧ c ≤ '9' then some (c.toNat - 0x30)
  else if 'a' ≤ c ∧ c ≤ 'f' then some (c.toNat - 0x61 + 10)
  else if 'A' ≤ c ∧ c ≤ 'F' then some (c.toNat - 0x41 + 10)
  else none

def unit? (a b c d : Char) : Option Nat :=
  match hexDigit? a, hexDigit? b, hexDigit? c, hexDigit? d with
  | some a, some b, some c, some d => some (((a * 16 + b) * 16 + c) * 16 + d)
  | _, _, _, _ => none

/-- The character that a backslash and this letter stand for. -/
def escaped? (c : Char) : Option Char :=
  if c = '"' ∨ c = '\\' ∨ c = '/' then some c
  else if c = 'b' then some (Char.ofNat 0x08)
  else if c = 'f' then some (Char.ofNat 0x0C)
  else if c = 'n' then some '\n'
  else if c = 'r' then some '\r'
  else if c = 't' then some '\t'
  else none

/-- The pieces up to the closing quote, newest first on `acc`. -/
def pieces (acc : List Piece) : List Char → Option (List Piece × List Char)
  | [] => none
  | '"' :: rest => some (acc.reverse, rest)
  | '\\' :: 'u' :: a :: b :: c :: d :: rest =>
    match unit? a b c d with
    | some n => pieces (.unit n :: acc) rest
    | none => none
  | '\\' :: c :: rest =>
    match escaped? c with
    | some c => pieces (.char c :: acc) rest
    | none => none
  | c :: rest => if c.toNat < 0x20 then none else pieces (.char c :: acc) rest

/-- A high and a low unit in a row are one character; a unit that is half of nothing is
replaced. -/
def join : List Piece → List Char
  | [] => []
  | .char c :: rest => c :: join rest
  | .unit high :: .unit low :: rest =>
    if 0xD800 ≤ high ∧ high < 0xDC00 ∧ 0xDC00 ≤ low ∧ low < 0xE000 then
      Char.ofNat (0x10000 + (high - 0xD800) * 0x400 + (low - 0xDC00)) :: join rest
    else
      single high :: join (.unit low :: rest)
  | .unit n :: rest => single n :: join rest
where
  single (n : Nat) : Char :=
    if 0xD800 ≤ n ∧ n < 0xE000 then Char.ofNat 0xFFFD else Char.ofNat n

/-- A string after its opening quote. -/
def stringTail? (cs : List Char) : Option (String × List Char) :=
  (pieces [] cs).map fun (ps, rest) => (String.ofList (join ps), rest)

/-! ## Numbers -/

/-- The digits of the whole part: a zero alone, or a run that starts with another digit. -/
def wholePart? (cs : List Char) : Option (List Char × List Char) :=
  match cs with
  | '0' :: rest => some (['0'], rest)
  | _ =>
    let digits := cs.takeWhile Char.isDigit
    if digits.isEmpty then none else some (digits, cs.dropWhile Char.isDigit)

/-- The digits after a point; a point without digits is not part of the number. -/
def fraction (cs : List Char) : List Char × List Char :=
  match cs with
  | '.' :: rest =>
    let digits := rest.takeWhile Char.isDigit
    if digits.isEmpty then ([], cs) else (digits, rest.dropWhile Char.isDigit)
  | _ => ([], cs)

/-- The exponent after an `e`; without digits it is not part of the number. -/
def exponent? (cs : List Char) : Option (Int × List Char) :=
  match cs with
  | 'e' :: rest | 'E' :: rest =>
    match rest with
    | '-' :: ds => (digits? ds).map fun (n, rest) => (-(n : Int), rest)
    | '+' :: ds => (digits? ds).map fun (n, rest) => ((n : Int), rest)
    | ds => (digits? ds).map fun (n, rest) => ((n : Int), rest)
  | _ => none
where
  digits? (ds : List Char) : Option (Nat × List Char) :=
    let run := ds.takeWhile Char.isDigit
    if run.isEmpty then none else some (Numeral.value run, ds.dropWhile Char.isDigit)

/-- A number whose minus sign, if any, has been read. -/
def unsigned? (sign : Int) (cs : List Char) : Option (Json × List Char) :=
  match wholePart? cs with
  | none => none
  | some (whole, rest) =>
    let (places, rest) := fraction rest
    let digits := sign * (Numeral.value (whole ++ places) : Int)
    match exponent? rest with
    | some (e, rest) => some (.real digits (e - places.length), rest)
    | none =>
      if !places.isEmpty then some (.real digits (-(places.length : Int)), rest)
      else if whole.length ≤ Numeral.maxDigits then some (.int digits, rest)
      else none

def number? (cs : List Char) : Option (Json × List Char) :=
  match cs with
  | '-' :: rest =>
    match after? "Infinity" rest with
    | some rest => some (.infinity true, rest)
    | none => unsigned? (-1) rest
  | _ => unsigned? 1 cs

/-! ## Values -/

mutual

def value (room : Nat) : Nat → List Char → Step Json
  | 0, _ => .error .malformed
  | steps + 1, cs =>
    match cs with
    | '"' :: rest => (flat (stringTail? rest)).map fun (s, rest) => (.string s, rest)
    | '[' :: rest =>
      match room with
      | 0 => .error (.tooDeep .array)
      | room + 1 =>
        match skipGap rest with
        | ']' :: rest => .ok (.array [], rest)
        | rest => (items room steps [] rest).map fun (items, rest) => (.array items, rest)
    | '\x7b' :: rest =>
      match room with
      | 0 => .error (.tooDeep .object)
      | room + 1 =>
        match skipGap rest with
        | '\x7d' :: rest => .ok (.object [], rest)
        | rest => (fields room steps [] rest).map fun (fields, rest) => (.object fields, rest)
    | 'n' :: _ => flat ((after? "null" cs).map fun rest => (.null, rest))
    | 't' :: _ => flat ((after? "true" cs).map fun rest => (.bool true, rest))
    | 'f' :: _ => flat ((after? "false" cs).map fun rest => (.bool false, rest))
    | 'N' :: _ => flat ((after? "NaN" cs).map fun rest => (.nan, rest))
    | 'I' :: _ => flat ((after? "Infinity" cs).map fun rest => (.infinity false, rest))
    | _ => flat (number? cs)

/-- The items up to the closing bracket, newest first on `acc`; one item has to follow. -/
def items (room : Nat) : Nat → List Json → List Char → Step (List Json)
  | 0, _, _ => .error .malformed
  | steps + 1, acc, cs =>
    match value room steps cs with
    | .error e => .error e
    | .ok (item, rest) =>
      match skipGap rest with
      | ',' :: rest => items room steps (item :: acc) (skipGap rest)
      | ']' :: rest => .ok ((item :: acc).reverse, rest)
      | _ => .error .malformed

/-- The fields up to the closing brace, newest first on `acc`; one field has to follow. -/
def fields (room : Nat) : Nat → List (String × Json) → List Char → Step (List (String × Json))
  | 0, _, _ => .error .malformed
  | steps + 1, acc, cs =>
    match cs with
    | '"' :: rest =>
      match stringTail? rest with
      | none => .error .malformed
      | some (key, rest) =>
        match skipGap rest with
        | ':' :: rest =>
          match value room steps (skipGap rest) with
          | .error e => .error e
          | .ok (item, rest) =>
            match skipGap rest with
            | ',' :: rest => fields room steps ((key, item) :: acc) (skipGap rest)
            | '\x7d' :: rest => .ok (((key, item) :: acc).reverse, rest)
            | _ => .error .malformed
        | _ => .error .malformed
    | _ => .error .malformed

end

/-- The steps that reading a value may take. -/
def enoughSteps (cs : List Char) : Nat :=
  2 * cs.length + 1

/-- One value with nothing but gaps around it. Values that hold others nest no deeper than
`nesting`. -/
def ofString (nesting : Nat) (text : String) : Except Unread Json :=
  let cs := text.toList
  match value nesting (enoughSteps cs) (skipGap cs) with
  | .error e => .error e
  | .ok (v, rest) => if (skipGap rest).isEmpty then .ok v else .error .malformed

end Json
end Croupier
