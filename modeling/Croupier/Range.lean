import Croupier.Numeral

/-!
# Croupier.Range

The ranges that numbers have to lie in, and what is said of a number outside its range.
-/

namespace Croupier

/-- A die has a choice to make. -/
def minSides : Nat := 2

/-- One random byte has to decide one die. -/
def maxSides : Nat := 255

/-- A number outside the range of what it counts. -/
inductive OutOfRange where
  | count (n : Int)
  | sides (n : Int)
  | roll (n : Int)
  deriving DecidableEq, Repr

def OutOfRange.number : OutOfRange → Int
  | .count n | .sides n | .roll n => n

def OutOfRange.message : OutOfRange → String
  | .count n => "骰子顆數必須 >= 1：" ++ Numeral.ofInt n
  | .sides n =>
    "骰面數必須在 " ++ Nat.repr minSides ++ "~" ++ Nat.repr maxSides ++ "：" ++ Numeral.ofInt n
  | .roll n => "d100 骰值必須在 0~99：" ++ Numeral.ofInt n

/-- What comes of a number outside its range: it is named, unless it is too long to be written. -/
inductive Unfit where
  | outOfRange (e : OutOfRange)
  | unwritable
  deriving DecidableEq, Repr

def OutOfRange.unfit (e : OutOfRange) : Unfit :=
  if Numeral.isWritable e.number then .outOfRange e else .unwritable

def Unfit.message : Unfit → String
  | .outOfRange e => e.message
  | .unwritable => Numeral.unwritable

/-- The quantities for which any number from one upwards will do. -/
inductive Quantity where
  | blockSize
  | messageLimit
  | diceCap
  deriving DecidableEq, Repr

def Quantity.name : Quantity → String
  | .blockSize => "block_size"
  | .messageLimit => "limit"
  | .diceCap => "max_dice"

/-- What is said when the quantity is below one. -/
def Quantity.belowOne (q : Quantity) : String :=
  q.name ++ " 必須 >= 1"

end Croupier
