/-!
# Croupier.Entropy.Provider

Where random bytes come from. A provider is asked for a number of bytes and gives an answer,
which need not be what it was asked for.
-/

namespace Croupier
namespace Entropy

/-- The ways in which a provider breaks. -/
inductive Breakdown where
  | system
  | unsupported
  | badValue
  | internal
  deriving DecidableEq, Repr

/-- A system that fails or lacks the device has no entropy to give; the other breakdowns are
defects of the provider. -/
def Breakdown.isOutage : Breakdown → Bool
  | .system | .unsupported => true
  | .badValue | .internal => false

inductive Answer where
  | bytes (data : List UInt8)
  | nothing
  | broke (how : Breakdown) (message : String)
  deriving DecidableEq, Repr

def Answer.contents : Answer → List UInt8
  | .bytes data => data
  | _ => []

/-- A finite stream, a period repeated for ever from some position on, or a script of answers. -/
inductive Provider where
  | stream (rest : List UInt8)
  | cycle (period : Array UInt8) (position : Nat)
  | script (answers : List Answer)
  deriving DecidableEq, Repr

namespace Provider

/-- The answer of a provider that has nothing left. -/
def exhausted : Answer :=
  .broke .system "script exhausted"

/-- `n` bytes of a repeated period from a position on; an empty period has none. -/
def spin (period : Array UInt8) (position n : Nat) : List UInt8 :=
  if period.isEmpty then []
  else (List.range n).map fun i => period.getD ((position + i) % period.size) 0

/-- A stream gives all or nothing, a script gives its next answer whatever was asked for. -/
def ask (n : Nat) : Provider → Answer × Provider
  | .stream rest =>
    if n ≤ rest.length then (.bytes (rest.take n), .stream (rest.drop n))
    else (exhausted, .stream rest)
  | .cycle period position =>
    (.bytes (spin period position n), .cycle period ((position + n) % period.size))
  | .script [] => (exhausted, .script [])
  | .script (answer :: rest) => (answer, .script rest)

theorem ask_stream_of_le {rest : List UInt8} {n : Nat} (h : n ≤ rest.length) :
    ask n (.stream rest) = (.bytes (rest.take n), .stream (rest.drop n)) :=
  if_pos h

theorem ask_stream_of_lt {rest : List UInt8} {n : Nat} (h : rest.length < n) :
    ask n (.stream rest) = (exhausted, .stream rest) :=
  if_neg (Nat.not_le.2 h)

theorem isEmpty_eq_false {period : Array UInt8} (h : 0 < period.size) : period.isEmpty = false := by
  rw [Array.isEmpty, decide_eq_false_iff_not]
  omega

@[simp] theorem length_spin {period : Array UInt8} (h : 0 < period.size) (position n : Nat) :
    (spin period position n).length = n := by
  simp [spin, isEmpty_eq_false h]

theorem getElem?_spin {period : Array UInt8} (h : 0 < period.size) (position : Nat) {n i : Nat}
    (hi : i < n) :
    (spin period position n)[i]? = some (period.getD ((position + i) % period.size) 0) := by
  simp [spin, isEmpty_eq_false h, hi]

/-- A number of bytes after which a provider has shown every byte it will ever give. -/
def horizon : Provider → Nat
  | .stream rest => rest.length
  | .cycle period _ => period.size
  | .script answers => (answers.flatMap Answer.contents).length

end Provider
end Entropy
end Croupier
