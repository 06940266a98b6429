import Croupier.Entropy.Supply

/-!
# Croupier.Entropy.Source

A source hands out single bytes from blocks of a fixed size. It fills its block from its supply
when the cursor has passed the last byte of it.

A source that is refused a block is left as it was, but for its supply.
-/

namespace Croupier
namespace Entropy

structure Source where
  blockSize : Nat
  block : Buffer blockSize
  cursor : Nat
  supply : Supply
  one_le_blockSize : 1 ≤ blockSize
  cursor_le : cursor ≤ blockSize

/-- Why there is no source with blocks of some size. -/
inductive NoSource where
  | belowOne
  | noBlock (e : NoBuffer)
  deriving DecidableEq, Repr

def NoSource.message : NoSource → String
  | .belowOne => Quantity.blockSize.belowOne
  | .noBlock e => e.message

namespace Source

/-- A source that has not been used. The block counts as used up, so that nothing is asked for
before the first byte is needed. -/
def fresh (blockSize : Nat) (h : 1 ≤ blockSize) (provider : Provider) : Source where
  blockSize := blockSize
  block := .blank
  cursor := blockSize
  supply := { provider := provider, history := #[] }
  one_le_blockSize := h
  cursor_le := Nat.le_refl blockSize

/-- There has to be room for a block in the memory there is. -/
def ofProvider (memory : Nat) (blockSize : Int) (provider : Provider) : Except NoSource Source :=
  if h : blockSize < 1 then .error .belowOne
  else
    match bufferSize memory blockSize with
    | .error e => .error (.noBlock e)
    | .ok _ => .ok (fresh blockSize.toNat (by omega) provider)

/-- The bytes of the block that have not been handed out. -/
def unread (s : Source) : List UInt8 :=
  s.block.bytes.drop s.cursor

/-- Fills a buffer of the caller; the block is left alone. -/
def fill {n : Nat} (buffer : Buffer n) (s : Source) : Except Failure Unit × Buffer n × Source :=
  match s.supply.fill .buffer buffer with
  | (outcome, buffer, supply) => (outcome, buffer, { s with supply := supply })

def nextByte (s : Source) : Except Failure UInt8 × Source :=
  if h : s.cursor < s.blockSize then
    (.ok (s.block.byteAt s.cursor), { s with cursor := s.cursor + 1, cursor_le := h })
  else
    match s.supply.fill .block s.block with
    | (.ok (), block, supply) =>
      (.ok (block.byteAt 0),
        { s with block := block, cursor := 1, supply := supply, cursor_le := s.one_le_blockSize })
    | (.error e, block, supply) => (.error e, { s with block := block, supply := supply })

section NextByte

variable {s t : Source}

theorem length_unread (s : Source) : s.unread.length = s.blockSize - s.cursor := by
  rw [unread, List.length_drop, Buffer.length_bytes]

@[simp] theorem unread_fresh (n : Nat) (h : 1 ≤ n) (p : Provider) : (fresh n h p).unread = [] := by
  rw [← List.length_eq_zero_iff, length_unread, fresh, Nat.sub_self]

theorem cursor_lt_of_unread {b : UInt8} {rest : List UInt8} (h : s.unread = b :: rest) :
    s.cursor < s.blockSize := by
  have := congrArg List.length h
  simp only [length_unread, List.length_cons] at this
  omega

theorem not_cursor_lt_of_unread (h : s.unread = []) : ¬ s.cursor < s.blockSize := by
  have := congrArg List.length h
  simp only [length_unread, List.length_nil] at this
  omega

theorem nextByte_of_unread {b : UInt8} {rest : List UInt8} (h : s.unread = b :: rest) :
    ∃ t, s.nextByte = (.ok b, t) ∧ t.unread = rest ∧ t.blockSize = s.blockSize ∧
      t.supply = s.supply := by
  have hlt := cursor_lt_of_unread h
  rw [unread, Buffer.drop_bytes _ hlt] at h
  cases h
  exact ⟨_, dif_pos hlt, rfl, rfl, rfl⟩

theorem nextByte_of_refill {buffer : Buffer s.blockSize} (hu : s.unread = [])
    (hj : Supply.judge s.blockSize (s.supply.provider.ask s.blockSize).1 = .ok buffer) :
    ∃ b t, s.nextByte = (.ok b, t) ∧ buffer.bytes = b :: t.unread ∧ t.blockSize = s.blockSize ∧
      t.supply = s.supply.asked .block s.blockSize := by
  have hbytes := buffer.drop_bytes s.one_le_blockSize
  rw [List.drop_zero] at hbytes
  let t : Source := {
    s with
    block := buffer
    cursor := 1
    supply := s.supply.asked .block s.blockSize
    cursor_le := s.one_le_blockSize }
  refine ⟨buffer.byteAt 0, t, ?_, hbytes, rfl, rfl⟩
  rw [nextByte, dif_neg (not_cursor_lt_of_unread hu), Supply.fill_of_ok hj]

theorem nextByte_of_refusal {e : Failure} (hu : s.unread = [])
    (hj : Supply.judge s.blockSize (s.supply.provider.ask s.blockSize).1 = .error e) :
    s.nextByte = (.error e, { s with supply := s.supply.asked .block s.blockSize }) := by
  rw [nextByte, dif_neg (not_cursor_lt_of_unread hu), Supply.fill_of_error hj]

/-- All that can happen when a byte is asked for: it is read from the block, or a new block is
had, or none is. -/
theorem nextByte_cases {r : Except Failure UInt8} (h : s.nextByte = (r, t)) :
    (∃ b, r = .ok b ∧ s.unread = b :: t.unread ∧ t.blockSize = s.blockSize ∧
      t.supply = s.supply) ∨
    (∃ b, r = .ok b ∧ s.unread = [] ∧ t.blockSize = s.blockSize ∧
      (s.supply.provider.ask s.blockSize).1 = .bytes (b :: t.unread) ∧
      t.unread.length + 1 = s.blockSize ∧ t.supply = s.supply.asked .block s.blockSize) ∨
    (∃ e, r = .error e ∧ s.unread = [] ∧
      Supply.judge s.blockSize (s.supply.provider.ask s.blockSize).1 = .error e ∧
      t = { s with supply := s.supply.asked .block s.blockSize }) := by
  cases hu : s.unread with
  | cons b rest =>
    obtain ⟨t', ht, hrest, hsize, hsupply⟩ := nextByte_of_unread hu
    rw [h] at ht
    cases ht
    exact .inl ⟨b, rfl, by rw [hrest], hsize, hsupply⟩
  | nil =>
    cases hj : Supply.judge s.blockSize (s.supply.provider.ask s.blockSize).1 with
    | ok buffer =>
      obtain ⟨b, t', ht, hbytes, hsize, hsupply⟩ := nextByte_of_refill hu hj
      rw [h] at ht
      cases ht
      have hanswer := Supply.eq_bytes_of_judge hj
      have hlength := buffer.length_bytes
      rw [hbytes] at hanswer hlength
      exact .inr (.inl ⟨b, rfl, rfl, hsize, hanswer, hlength, hsupply⟩)
    | error e =>
      have ht := nextByte_of_refusal hu hj
      rw [h] at ht
      cases ht
      exact .inr (.inr ⟨e, rfl, rfl, rfl, rfl⟩)

end NextByte

/-- A number of bytes after which the source has shown every byte it will ever give. -/
def horizon (s : Source) : Nat :=
  (s.blockSize - s.cursor) + s.supply.provider.horizon

/-- The sizes asked for since an earlier state of the source. -/
def requestsSince (earlier s : Source) : List Nat :=
  (s.supply.history.toList.drop earlier.supply.history.size).map (·.size)

end Source
end Entropy
end Croupier
