import Croupier.Dice.Notation
import Croupier.Journal
import Croupier.Percentile.Target
import Croupier.Text.Blank
import Croupier.Text.Quoted

/-!
# Croupier.Order

What a player asks for: dice expressions and a label after them, or a target and a label. The
words of a command line are taken from the front, and the first word decides whether the line is
an order at all.
-/

namespace Croupier

/-- Dice to roll, at least one expression, and the words that say what for. -/
structure DiceOrder where
  specs : List DieSpec
  label : Option String
  deriving DecidableEq, Repr

/-- A target to check against, and the words that say what for. -/
structure CheckOrder where
  target : Nat
  label : Option String
  deriving DecidableEq, Repr

/-- The words of a command line; a missing line has none. -/
def commandWords (args : Option String) : List String :=
  match args with
  | none => []
  | some line => Text.words line

/-- Words that stand for nothing in particular; no words are no label. -/
def labelOf (words : List String) : Option String :=
  if words.isEmpty then none else some (" ".intercalate words)

namespace DiceOrder

/-- Whether the dice are within the cap. -/
def withinCap (cap : Option Int) (spec : DieSpec) : Bool :=
  match cap with
  | none => true
  | some n => (spec.count : Int) ≤ n

/-- The specification a word stands for, if it is one and within the cap. -/
def accept? (cap : Option Int) (word : String) : Option DieSpec :=
  match DieSpec.parse (some word) with
  | .ok spec => if withinCap cap spec then some spec else none
  | .error _ => none

/-- The specifications in front, and the words from the first that is none. -/
def take (cap : Option Int) : List String → List DieSpec × List String
  | [] => ([], [])
  | word :: words =>
    match accept? cap word with
    | some spec =>
      let (specs, rest) := take cap words
      (spec :: specs, rest)
    | none => ([], word :: words)

/-- How a command line was taken. -/
inductive Taken where
  | nothing
  | refused (word : String)
  | order (o : DiceOrder)
  deriving DecidableEq, Repr

def ofArgs (cap : Option Int) (args : Option String) : Taken :=
  match take cap (commandWords args) with
  | ([], []) => .nothing
  | ([], word :: _) => .refused word
  | (specs, rest) => .order ⟨specs, labelOf rest⟩

theorem take_of_ofArgs {cap : Option Int} {args : Option String} {order : DiceOrder}
    (h : ofArgs cap args = .order order) :
    order.specs ≠ [] ∧ ∃ rest, take cap (commandWords args) = (order.specs, rest) ∧
      order.label = labelOf rest := by
  rw [ofArgs] at h
  rcases htake : take cap (commandWords args) with ⟨specs, rest⟩
  rw [htake] at h
  cases specs with
  | nil => cases rest <;> cases h
  | cons spec specs =>
    cases h
    exact ⟨List.cons_ne_nil spec specs, rest, rfl, rfl⟩

/-- Each specification takes one word. -/
theorem take_snd (cap : Option Int) (words : List String) :
    (take cap words).2 = words.drop (take cap words).1.length := by
  induction words with
  | nil => rfl
  | cons word words ih =>
    cases hword : accept? cap word with
    | none => simp only [take, hword, List.length_nil, List.drop_zero]
    | some spec => simp only [take, hword, List.length_cons, List.drop_succ_cons, ih]

/-- What is left when expressions were taken in front is the end of the line. -/
theorem take_suffix (cap : Option Int) (words : List String) : (take cap words).2 <:+ words := by
  rw [take_snd]
  exact List.drop_suffix _ _

/-- The record of a line that is passed over: its first word, and what that was read as. -/
def passedOver (word : String) : Record :=
  .debug ("忽略骰子指令：" ++ Text.quoted word ++ " -> " ++
    match DieSpec.parse (some word) with
    | .ok spec => spec.described
    | .error e => e.described)

/-- A line that starts with another word is passed over. -/
def Taken.records : Taken → List Record
  | .refused word => [passedOver word]
  | _ => []

end DiceOrder

namespace CheckOrder

inductive Taken where
  | nothing
  | refused (fault : TargetFault) (word : String)
  | order (o : CheckOrder)
  deriving DecidableEq, Repr

def ofArgs (args : Option String) : Taken :=
  match commandWords args with
  | [] => .nothing
  | word :: rest =>
    match Target.parse (some word) with
    | .ok target => .order ⟨target, labelOf rest⟩
    | .error e => .refused e.fault word

theorem words_of_ofArgs {args : Option String} {order : CheckOrder}
    (h : ofArgs args = .order order) :
    ∃ word rest, commandWords args = word :: rest ∧
      Target.parse (some word) = .ok order.target ∧ order.label = labelOf rest := by
  rw [ofArgs] at h
  split at h
  · cases h
  · rename_i word rest hwords
    split at h
    · rename_i target htarget
      cases h
      exact ⟨word, rest, hwords, htarget, rfl⟩
    · cases h

theorem ofArgs_of_words {args : Option String} {word : String} {rest : List String} {target : Nat}
    (hargs : commandWords args = word :: rest)
    (htarget : Target.parse (some word) = .ok target) :
    ofArgs args = .order ⟨target, labelOf rest⟩ := by
  rw [ofArgs, hargs]
  simp only [htarget]

def Taken.records : Taken → List Record
  | .refused fault word =>
    [.debug ("忽略 EP 指令：" ++ fault.name ++ " (" ++ Text.quoted word ++ ")")]
  | _ => []

end CheckOrder
end Croupier
