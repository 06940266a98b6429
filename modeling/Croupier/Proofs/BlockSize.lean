import Croupier.Proofs.Drawing
import Croupier.Proofs.Entropy.Rejection

/-!
# Croupier.Proofs.BlockSize

The size of the blocks cannot be told from what a session gives. Two sources are `Alike` if they
have the same bytes and failures to give, one by one; what is drawn from like sources is the same
and leaves them alike (`ByBytes.alike`). Sources over one stream or one cycle are alike whatever
their block sizes, but for the end of a stream that fills no block (`blockSize_invisible`).
-/

namespace Croupier
namespace Entropy

/-- Two sources with the same to give. There is never an end to the bytes below 128, which every
fair draw takes, but by a failure. -/
structure Alike (s t : Source) : Prop where
  same : ∀ n, s.forecast n = t.forecast n
  lively : ∀ n, ∃ k, ¬ Rejects 128 (s.forecast (n + k))

theorem Alike.after {s t : Source} (h : Alike s t) (n : Nat) : Alike (s.after n) (t.after n) := by
  refine ⟨fun k => ?_, fun m => ?_⟩
  · rw [Source.forecast_after, Source.forecast_after, h.same]
  · obtain ⟨k, hk⟩ := h.lively (n + m)
    exact ⟨k, by rwa [Source.forecast_after, ← Nat.add_assoc]⟩

theorem Alike.nextByte {s t : Source} (h : Alike s t) :
    s.nextByte.1 = t.nextByte.1 ∧ Alike s.nextByte.2 t.nextByte.2 :=
  ⟨h.same 0, h.after 1⟩

/-- More than half of the bytes are accepted, whatever the number of sides. -/
theorem half_le_fairBound {sides : Nat} (hmin : minSides ≤ sides) (hmax : sides ≤ maxSides) :
    128 ≤ fairBound sides := by
  unfold fairBound minSides maxSides at *
  have hpos : 0 < sides := by omega
  have hdiv := Nat.div_add_mod 255 sides
  have hmod := Nat.mod_lt 255 hpos
  have hone : sides * 1 ≤ sides * (255 / sides) :=
    Nat.mul_le_mul_left sides (Nat.div_pos hmax hpos)
  rw [Nat.mul_comm (255 / sides)]
  omega

theorem Rejects.mono {small large : Nat} {r : Except Failure UInt8} (h : Rejects large r)
    (hle : small ≤ large) : Rejects small r := by
  cases r with
  | error e => exact h
  | ok b => exact Nat.le_trans hle h

theorem Alike.draw {s t : Source} (h : Alike s t) {bound : Nat} (hbound : 128 ≤ bound) :
    (draw bound s).1 = (draw bound t).1 ∧ Alike (draw bound s).2 (draw bound t).2 := by
  obtain ⟨n, hn⟩ := h.lively 0
  obtain ⟨k, -, hk⟩ := exists_firstFit fun hreject => hn (Rejects.mono hreject hbound)
  have hk' : FirstFit bound t k := by
    refine ⟨fun i hi => ?_, ?_⟩
    · rw [← h.same]; exact hk.rejects i hi
    · rw [← h.same]; exact hk.fits
  rw [draw_of_firstFit hk, draw_of_firstFit hk']
  exact ⟨h.same k, h.after (k + 1)⟩

/-! ## Like sources over one provider -/

theorem alike_of_streams {s t : Source} {bytes : List UInt8} (hs : s.Streams bytes)
    (ht : t.Streams bytes) : Alike s t := by
  refine ⟨fun n => ?_, fun n => ⟨bytes.length, ?_⟩⟩
  · rw [Source.forecast_of_streams hs, Source.forecast_of_streams ht]
  · rw [Source.forecast_of_streams hs, List.getElem?_eq_none (Nat.le_add_left _ _)]
    exact id

theorem alike_of_cycles {s t : Source} {f : Nat → UInt8} (hs : s.Cycles f) (ht : t.Cycles f)
    (hf : ∀ n, ∃ k, (f (n + k)).toNat < 128) : Alike s t := by
  refine ⟨fun n => ?_, fun n => ?_⟩
  · rw [Source.forecast_of_cycles hs, Source.forecast_of_cycles ht]
  · obtain ⟨k, hk⟩ := hf n
    refine ⟨k, ?_⟩
    rw [Source.forecast_of_cycles hs]
    exact Nat.not_le.2 hk

/-- Every byte of a cycle comes round again. -/
theorem exists_return {period : Array UInt8} {b : UInt8} (hb : b ∈ period) (start : Nat) :
    ∃ k, period.getD ((start + k) % period.size) 0 = b := by
  obtain ⟨i, hi, hget⟩ := Array.mem_iff_getElem.1 hb
  refine ⟨period.size * start + i - start, ?_⟩
  have hle : 1 * start ≤ period.size * start := Nat.mul_le_mul_right start (by omega)
  have hsum : start + (period.size * start + i - start) = period.size * start + i := by omega
  rw [hsum, Nat.mul_add_mod, Nat.mod_eq_of_lt hi, Array.getD_eq_getD_getElem?,
    Array.getElem?_eq_getElem hi, Option.getD_some, hget]

end Entropy

open Entropy Drawing

/-! ## Drawings from like sources -/

theorem Drawing.ByBytes.alike {α : Type} {d : Drawing α} (hd : ByBytes d) {s t : Source}
    (h : Alike s t) : (d s).1 = (d t).1 ∧ Alike (d s).2 (d t).2 := by
  induction hd generalizing s t with
  | give a => exact ⟨rfl, h⟩
  | fail e => exact ⟨rfl, h⟩
  | byte => exact h.nextByte
  | draw hmin hmax => exact h.draw (half_le_fairBound hmin hmax)
  | @andThen _ _ d f _ _ ihd ihf =>
    obtain ⟨hresult, hleft⟩ := ihd h
    rcases hs : d s with ⟨r, s'⟩
    rcases ht : d t with ⟨r', t'⟩
    rw [hs, ht] at hresult hleft
    subst hresult
    cases r with
    | error e =>
      rw [andThen_of_error hs, andThen_of_error ht]
      exact ⟨rfl, hleft⟩
    | ok a =>
      rw [andThen_of_ok hs, andThen_of_ok ht]
      exact ihf a hleft

namespace Session

theorem run_of_alike {calls : List Call} (hcalls : ∀ call ∈ calls, call.isFill = false)
    {s t : Source} (h : Alike s t) : (run s calls).1 = (run t calls).1 := by
  induction calls generalizing s t with
  | nil => rfl
  | cons call calls ih =>
    obtain ⟨d, records, -, hd, hrun⟩ := drawing_of_call (hcalls call List.mem_cons_self)
    obtain ⟨hresult, hleft⟩ := hd.alike h
    have htail := ih (fun c hc => hcalls c (List.mem_cons_of_mem call hc)) hleft
    simp only [run, hrun]
    rw [hresult, htail]

end Session

/-- Over a stream, blocks of any size give call by call what single bytes give over as much of the
stream as falls into whole blocks. Over a cycle with a byte below 128 all block sizes give the
same. -/
theorem blockSize_invisible (calls : List Session.Call)
    (hcalls : ∀ call ∈ calls, call.isFill = false) :
    (∀ (bytes : List UInt8) (n : Nat) (hn : 1 ≤ n),
      (wholeBlocks n bytes <+: bytes ∧ n ∣ (wholeBlocks n bytes).length ∧
        ∀ start, start <+: bytes → n ∣ start.length → start <+: wholeBlocks n bytes) ∧
      (Session.run (Source.fresh n hn (.stream bytes)) calls).1 =
        (Session.run (Source.fresh 1 Nat.one_pos (.stream (wholeBlocks n bytes))) calls).1) ∧
    ∀ (period : Array UInt8) (position n m : Nat) (hn : 1 ≤ n) (hm : 1 ≤ m),
      (∃ b ∈ period, b.toNat < 128) →
      (Session.run (Source.fresh n hn (.cycle period position)) calls).1 =
        (Session.run (Source.fresh m hm (.cycle period position)) calls).1 := by
  constructor
  · intro bytes n hn
    refine ⟨⟨List.take_prefix _ _, dvd_length_wholeBlocks n bytes,
      fun start => prefix_wholeBlocks⟩, ?_⟩
    have hone := Source.streams_fresh 1 Nat.one_pos (wholeBlocks n bytes)
    rw [wholeBlocks_one] at hone
    exact Session.run_of_alike hcalls (alike_of_streams (Source.streams_fresh n hn bytes) hone)
  · rintro period position n m hn hm ⟨b, hb, hlow⟩
    have hpos : 0 < period.size := Array.size_pos_of_mem hb
    refine Session.run_of_alike hcalls (alike_of_cycles (Source.cycles_fresh n hn hpos position)
      (Source.cycles_fresh m hm hpos position) fun start => ?_)
    obtain ⟨k, hk⟩ := exists_return hb (position + start)
    exact ⟨k, by rw [← Nat.add_assoc, hk]; exact hlow⟩

/-- Two rolls with a rejected byte between them, in blocks of different sizes. The stream ends in
the middle of a block. -/
theorem blockSize_invisible_rolls :
    let calls : List Session.Call := [.uniform 6 1, .uniform 20 1, .byte]
    (Session.run (Source.fresh 2 (by decide) (.stream [7, 255, 9, 3, 1])) calls).1 =
        (Session.run (Source.fresh 1 (by decide) (.stream [7, 255, 9, 3])) calls).1 ∧
      (Session.run (Source.fresh 3 (by decide) (.cycle #[7, 255] 0)) calls).1 =
        (Session.run (Source.fresh 5 (by decide) (.cycle #[7, 255] 0)) calls).1 := by
  intro calls
  obtain ⟨hstream, hcycle⟩ := blockSize_invisible calls (by decide)
  exact ⟨(hstream [7, 255, 9, 3, 1] 2 (by decide)).2,
    hcycle #[7, 255] 0 3 5 (by decide) (by decide) ⟨7, by simp, by decide⟩⟩

end Croupier
