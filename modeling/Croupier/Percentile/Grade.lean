import Croupier.Range

/-!
# Croupier.Percentile.Grade

Grading of a percentile roll against a target: the verdict, the margin, and the line that
reports them.
-/

namespace Croupier

inductive Verdict where
  | ultimateSuccess
  | criticalSuccess
  | excellentSuccess
  | success
  | failure
  | severeFailure
  | criticalFailure
  | ultimateFailure
  deriving DecidableEq, Repr

def Verdict.label : Verdict → String
  | .ultimateSuccess => "ULTIMATE SUCCESS!!!"
  | .criticalSuccess => "CRITICAL SUCCESS!!!"
  | .excellentSuccess => "Excellent Success!"
  | .success => "Success!"
  | .failure => "Failure"
  | .severeFailure => "Severe Failure"
  | .criticalFailure => "CRITICAL FAILURE"
  | .ultimateFailure => "ULTIMATE FAILURE!!"

structure Grade where
  roll : Int
  target : Int
  isCritical : Bool
  isSuccess : Bool
  margin : Int
  verdict : Verdict
  deriving DecidableEq, Repr

namespace Grade

/-- A margin from here on makes a success excellent and a failure severe. -/
def wideMargin : Int := 30

/-- Doubles (00, 11, ..., 99) are critical. -/
def isDouble (roll : Int) : Bool :=
  roll % 11 = 0

/-- A roll succeeds up to the target, but 99 never does. -/
def succeeds (roll target : Int) : Bool :=
  roll ≤ target && roll ≠ 99

/-- Distance from the target. A 99 that fails at or below its target has none. -/
def marginOf (roll target : Int) : Int :=
  if succeeds roll target then target - roll else max (roll - target) 0

def verdictOf (roll target : Int) : Verdict :=
  if succeeds roll target then
    if roll = 0 then .ultimateSuccess
    else if isDouble roll then .criticalSuccess
    else if wideMargin ≤ marginOf roll target then .excellentSuccess
    else .success
  else if roll = 99 then .ultimateFailure
  else if isDouble roll then .criticalFailure
  else if wideMargin ≤ marginOf roll target then .severeFailure
  else .failure

/-- `RR vs TT -- LABEL`, and the margin of success or failure when there is one, however long the
numbers are. -/
def line (g : Grade) : String :=
  Numeral.twoPlaces g.roll ++ " vs " ++ Numeral.twoPlaces g.target ++ " -- " ++ g.verdict.label ++
    if 0 < g.margin then
      " (" ++ (if g.isSuccess then "MoS" else "MoF") ++ " = " ++ Numeral.ofInt g.margin ++ ")"
    else
      ""

/-- The numbers that stand in the line. -/
def numbers (g : Grade) : List Int :=
  [g.roll, g.target] ++ if 0 < g.margin then [g.margin] else []

/-- The line, if the numbers in it are short enough to be written. -/
def text? (g : Grade) : Option String :=
  Numeral.writing? g.numbers g.line

theorem text?_eq_some_iff {g : Grade} {text : String} :
    g.text? = some text ↔
      (∀ n ∈ g.numbers, Numeral.isWritable n = true) ∧ g.line = text :=
  Numeral.writing?_eq_some_iff

theorem forall_mem_numbers {g : Grade} {P : Int → Prop} :
    (∀ n ∈ g.numbers, P n) ↔ P g.roll ∧ P g.target ∧ (0 < g.margin → P g.margin) := by
  rw [numbers]
  split <;> simp [*]

end Grade

/-- A roll shows 00 to 99; the target may be any number. -/
def grade (roll target : Int) : Except Unfit Grade :=
  if 0 ≤ roll ∧ roll ≤ 99 then
    .ok {
      roll := roll
      target := target
      isCritical := Grade.isDouble roll
      isSuccess := Grade.succeeds roll target
      margin := Grade.marginOf roll target
      verdict := Grade.verdictOf roll target }
  else
    .error (OutOfRange.roll roll).unfit

namespace Grade

/-- Rolls that meet every verdict against a target of 50. -/
def sampleRolls : List Int :=
  [0, 20, 22, 40, 44, 50, 60, 66, 80, 88, 99]

/-- The sample rolls graded against one target. -/
def samples (target : Int) : List Grade :=
  sampleRolls.filterMap fun roll => (grade roll target).toOption

/-- The lines for the sample rolls, if all of them can be written. -/
def sampleLines? (target : Int) : Option (List String) :=
  (samples target).mapM text?

end Grade
end Croupier
