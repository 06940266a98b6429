import Croupier.Reply

/-!
# Croupier.Session

Everything that can be asked of one source of entropy, from a single byte to a reply. A session
is a list of such calls; what one call leaves of the source is what the next one finds.
-/

namespace Croupier

open Entropy

namespace Session

inductive Call where
  | byte
  | fill (n : Nat)
  | uniform (sides offset : Int)
  | evaluate (count sides bonus offset : Int)
  | dice (who : String) (args : Option String) (cap : Option Int)
  | check (who : String) (args : Option String)
  deriving DecidableEq, Repr

inductive Product where
  | byte (b : UInt8)
  | bytes (data : List UInt8)
  | number (n : Int)
  | outcome (o : Outcome)
  | reply (text : Option String)
  deriving DecidableEq, Repr

/-- What a call comes to, and what is put on record meanwhile. -/
structure Turn where
  product : Except Failure Product
  records : List Record

/-- Wraps what a draw gives. -/
def product {α : Type} (wrap : α → Product) (drawn : Except Failure α × Source) :
    Turn × Source :=
  (⟨drawn.1.map wrap, []⟩, drawn.2)

def Call.run (s : Source) : Call → Turn × Source
  | .byte => product .byte s.nextByte
  | .fill n =>
    let (outcome, buffer, s) := s.fill (.blank : Buffer n)
    product .bytes (outcome.map fun _ => buffer.bytes, s)
  | .uniform sides offset => product .number (Entropy.uniform sides offset s)
  | .evaluate count sides bonus offset =>
    match DieSpec.ofInts count sides bonus with
    | .error e => (⟨.error (.ofUnfit e), []⟩, s)
    | .ok spec => product .outcome (spec.evaluate offset s)
  | .dice who args cap =>
    let (turn, s) := product .reply (diceReply who args cap s)
    ({ turn with records := (DiceOrder.ofArgs cap args).records }, s)
  | .check who args =>
    let (turn, s) := product .reply (checkReply who args s)
    ({ turn with records := (CheckOrder.ofArgs args).records }, s)

/-- The calls in order. -/
def run (s : Source) : List Call → List Turn × Source
  | [] => ([], s)
  | call :: calls =>
    let (turn, s) := call.run s
    let (turns, s) := run s calls
    (turn :: turns, s)

end Session
end Croupier
