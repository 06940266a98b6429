/-!
# Croupier.Numeral

Whole numbers in decimal notation: `value` reads a run of digits, `ofInt`, `signed` and
`twoPlaces` print. Very long numbers are neither read nor written: see `isWritable`.
-/

namespace Croupier
namespace Numeral

/-- Numbers with more digits than this are neither read nor written. -/
def maxDigits : Nat := 4300

/-- Whether a number is short enough to be written. -/
def isWritable (n : Int) : Bool :=
  (Nat.repr n.natAbs).length ≤ maxDigits

/-- What is said of a number that is too long to be written. -/
def unwritable : String :=
  "Exceeds the limit (" ++ Nat.repr maxDigits ++ " digits) for integer string conversion; " ++
    "use sys.set_int_max_str_digits() to increase the limit"

/-- Value of a run of ASCII digits; leading zeros count for nothing. -/
def value (digits : List Char) : Nat :=
  Nat.ofDigitChars 10 digits 0

/-- A minus sign for a negative number, no sign otherwise. -/
def ofInt (n : Int) : String :=
  (if n < 0 then "-" else "") ++ Nat.repr n.natAbs

/-- A sign in every case; zero is positive. -/
def signed (n : Int) : String :=
  (if n < 0 then "-" else "+") ++ Nat.repr n.natAbs

/-- At least two characters: a single digit gets a zero in front, a minus sign counts as one
of the two. -/
def twoPlaces (n : Int) : String :=
  if 0 ≤ n ∧ n < 10 then "0" ++ ofInt n else ofInt n

/-- A text with these numbers in it, if all of them are short enough to be written. -/
def writing? (numbers : List Int) (text : String) : Option String :=
  if numbers.all isWritable then some text else none

theorem value_toDigits (n : Nat) : value (Nat.toDigits 10 n) = n :=
  Nat.ofDigitChars_ten_toDigits

theorem isWritable_iff {n : Int} : isWritable n = true ↔ n.natAbs < Nat.pow 10 maxDigits := by
  rw [isWritable, decide_eq_true_iff, Nat.length_repr_le_iff (by decide), Nat.pow_eq]

section Writing

variable {numbers : List Int} {text line : String}

theorem writing?_eq_some_iff :
    writing? numbers text = some line ↔ (∀ n ∈ numbers, isWritable n = true) ∧ text = line := by
  simp only [writing?, Option.ite_none_right_eq_some, List.all_eq_true, Option.some.injEq]

theorem writing?_eq_none_iff :
    writing? numbers text = none ↔ ∃ n ∈ numbers, isWritable n = false := by
  simp [writing?]

theorem writing?_of_forall (h : ∀ n ∈ numbers, isWritable n = true) :
    writing? numbers text = some text :=
  writing?_eq_some_iff.2 ⟨h, rfl⟩

end Writing

end Numeral
end Croupier
