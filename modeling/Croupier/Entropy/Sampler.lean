import Croupier.Entropy.Source

/-!
# Croupier.Entropy.Sampler

Uniform draws by rejection. For a die of `n` sides only the bytes below the greatest multiple of
`n` up to 255 count; each residue is met by equally many of them, so no side is favoured.
-/

namespace Croupier
namespace Entropy

/-- Bytes from here on are rejected. -/
def fairBound (sides : Nat) : Nat :=
  maxSides / sides * sides

/-- The first byte below the bound, among at most `fuel` bytes. -/
def drawWithin (bound : Nat) : Nat → Source → Except Failure UInt8 × Source
  | 0, s => (.error .endless, s)
  | fuel + 1, s =>
    match s.nextByte with
    | (.error e, s) => (.error e, s)
    | (.ok b, s) => if b.toNat < bound then (.ok b, s) else drawWithin bound fuel s

section DrawWithin

variable {bound fuel : Nat} {s t : Source}

theorem drawWithin_succ_of_error {e : Failure} (h : s.nextByte = (.error e, t)) :
    drawWithin bound (fuel + 1) s = (.error e, t) := by
  simp only [drawWithin, h]

theorem drawWithin_succ_of_lt {b : UInt8} (h : s.nextByte = (.ok b, t)) (hb : b.toNat < bound) :
    drawWithin bound (fuel + 1) s = (.ok b, t) := by
  simp only [drawWithin, h, if_pos hb]

theorem drawWithin_succ_of_le {b : UInt8} (h : s.nextByte = (.ok b, t)) (hb : bound ≤ b.toNat) :
    drawWithin bound (fuel + 1) s = drawWithin bound fuel t := by
  simp only [drawWithin, h, if_neg (Nat.not_lt.2 hb)]

end DrawWithin

/-- The first byte below the bound. Past the horizon no new byte turns up, so a draw that gets
there has no end. -/
def draw (bound : Nat) (s : Source) : Except Failure UInt8 × Source :=
  drawWithin bound (s.horizon + 1) s

/-- A whole number from `offset` to `offset + sides - 1`, each as likely as the others. -/
def uniform (sides offset : Int) (s : Source) : Except Failure Int × Source :=
  if (minSides : Int) ≤ sides ∧ sides ≤ maxSides then
    match draw (fairBound sides.toNat) s with
    | (.error e, s) => (.error e, s)
    | (.ok b, s) => (.ok (offset + (b.toNat : Int) % sides), s)
  else
    (.error (.ofUnfit (OutOfRange.sides sides).unfit), s)

end Entropy
end Croupier
