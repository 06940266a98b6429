import Croupier.Range

/-!
# Croupier.Message.Chunks

Cutting a long text into messages. Lines are packed together as long as they fit; a line that is
too long by itself is cut at the limit. A message is never empty: where nothing is pending, an
empty line adds nothing.
-/

namespace Croupier
namespace Message

/-- The most characters that one message may hold. -/
def limit : Nat := 2000

/-- The full pieces in front of a line, and the part that fits. -/
def cutLine (limit : Nat) (line : List Char) : List (List Char) × List Char :=
  if _h : 0 < limit ∧ (line.drop limit).isEmpty = false then
    let (pieces, rest) := cutLine limit (line.drop limit)
    (line.take limit :: pieces, rest)
  else
    ([], line)
termination_by line.length
decreasing_by
  simp only [List.isEmpty_eq_false_iff, ne_eq, List.drop_eq_nil_iff] at _h
  simp only [List.length_drop]
  omega

/-- What is pending becomes a chunk, if there is any. -/
def flush (pending : List Char) : List (List Char) :=
  if pending.isEmpty then [] else [pending]

/-- Chunks of at most `limit` characters for the pending characters and the lines after them. -/
def pack (limit : Nat) (pending : List Char) : List (List Char) → List (List Char)
  | [] => flush pending
  | line :: lines =>
    if limit < line.length then
      let (pieces, rest) := cutLine limit line
      flush pending ++ pieces ++ pack limit rest lines
    else if pending.isEmpty then
      pack limit line lines
    else if pending.length + 1 + line.length ≤ limit then
      pack limit (pending ++ '\n' :: line) lines
    else
      pending :: pack limit line lines

def lines (text : String) : List (List Char) :=
  text.toList.splitOn '\n'

/-- The messages that carry a text, for a limit of at least one. -/
def split (limit : Nat) (text : String) : List String :=
  (pack limit [] (lines text)).map String.ofList

/-- The messages that carry a text; a limit below one is refused. -/
def chunks (text : String) (limit : Int) : Except Quantity (List String) :=
  if limit < 1 then .error .messageLimit else .ok (split limit.toNat text)

end Message
end Croupier
