import Croupier.Proofs.BlockSize
import Croupier.Proofs.Ledger

/-!
# Croupier.Proofs.Entropy.Termination

When a draw comes to an end. `Settles` is a draw that nothing limits; `draw`, which looks no further
than the horizon, comes to the same and gives up just where there is no end.

* `Settles.draw_eq`, `exists_settles_iff`: draws with a limit and without.
* `Streams.exists_settles`: over a stream there is always an end, by induction on what remains.
* `Cycles.exists_settles`: over a cycle the distance to a byte that fits bounds what is taken.
* `uniform_ends_if_it_can`: when uniform numbers come to an end.
-/

namespace Croupier
namespace Entropy

/-- Byte after byte is taken, until one is below the bound or none is had. -/
inductive Settles (bound : Nat) :
    Source → List UInt8 → Except Failure UInt8 → Source → Prop where
  | fits {s t : Source} {b : UInt8} :
      s.nextByte = (.ok b, t) → b.toNat < bound → Settles bound s [b] (.ok b) t
  | fails {s t : Source} {e : Failure} :
      s.nextByte = (.error e, t) → Settles bound s [] (.error e) t
  | rejects {s t u : Source} {b : UInt8} {taken : List UInt8} {r : Except Failure UInt8} :
      s.nextByte = (.ok b, t) → bound ≤ b.toNat → Settles bound t taken r u →
        Settles bound s (b :: taken) r u

/-! ## Draws with a limit and without -/

section Settles

variable {bound : Nat} {s t : Source} {taken : List UInt8} {r : Except Failure UInt8}

theorem Settles.exists_firstFit (h : Settles bound s taken r t) :
    ∃ k, FirstFit bound s k ∧ s.forecast k = r ∧ s.after (k + 1) = t := by
  induction h with
  | fits hb hlt =>
    refine ⟨0, firstFit_zero hb (Nat.not_le.2 hlt), ?_, ?_⟩
    · rw [Source.forecast_zero, hb]
    · rw [Source.after_succ, hb]
      rfl
  | fails he =>
    refine ⟨0, firstFit_zero he id, ?_, ?_⟩
    · rw [Source.forecast_zero, he]
    · rw [Source.after_succ, he]
      rfl
  | rejects hb hle _ ih =>
    obtain ⟨k, hk, hforecast, hafter⟩ := ih
    refine ⟨k + 1, (firstFit_succ_iff hb hle).2 hk, ?_, ?_⟩
    · rw [Source.forecast_succ, hb, hforecast]
    · rw [Source.after_succ, hb, hafter]

theorem FirstFit.exists_settles {k : Nat} (h : FirstFit bound s k) :
    ∃ taken, Settles bound s taken (s.forecast k) (s.after (k + 1)) := by
  induction k generalizing s with
  | zero =>
    have hfit := h.fits
    rcases hs : s.nextByte with ⟨r, t⟩
    rw [Source.forecast_zero, hs] at hfit
    rw [Source.after_succ, Source.forecast_zero, hs]
    cases r with
    | error e => exact ⟨[], .fails hs⟩
    | ok b => exact ⟨[b], .fits hs (Nat.not_le.1 hfit)⟩
  | succ k ih =>
    have hreject := h.rejects 0 k.succ_pos
    rcases hs : s.nextByte with ⟨r, t⟩
    rw [Source.forecast_zero, hs] at hreject
    rw [Source.after_succ, Source.forecast_succ, hs]
    cases r with
    | error e => exact hreject.elim
    | ok b =>
      obtain ⟨taken, htaken⟩ := ih ((firstFit_succ_iff hs hreject).1 h)
      exact ⟨b :: taken, .rejects hs hreject htaken⟩

/-- The limit of `draw` is never what a draw without limit would overstep. -/
theorem Settles.draw_eq (h : Settles bound s taken r t) : draw bound s = (r, t) := by
  obtain ⟨k, hk, hforecast, hafter⟩ := h.exists_firstFit
  rw [draw_of_firstFit hk, hforecast, hafter]

theorem Settles.ne_endless (h : Settles bound s taken r t) : r ≠ .error .endless := by
  induction h with
  | fits _ _ => intro hr; cases hr
  | fails he =>
    intro hr
    rcases (Source.refusal_of_nextByte he).1.failure_cases with ⟨_, rfl⟩ | ⟨_, _, -, rfl⟩
    · cases hr
    · cases hr
  | rejects _ _ _ ih => exact ih

theorem exists_settles_iff :
    (∃ taken r t, Settles bound s taken r t) ↔ (draw bound s).1 ≠ .error .endless := by
  constructor
  · rintro ⟨taken, r, t, h⟩
    rw [h.draw_eq]
    exact h.ne_endless
  · intro h
    by_contra hnone
    refine h ?_
    have hrejects : ∀ i, Rejects bound (s.forecast i) := by
      intro i
      by_contra hfit
      obtain ⟨k, -, hk⟩ := exists_firstFit hfit
      obtain ⟨taken, htaken⟩ := hk.exists_settles
      exact hnone ⟨taken, _, _, htaken⟩
    rw [draw_of_no_fit hrejects]

end Settles

/-! ## Streams and cycles -/

namespace Source

variable {s : Source}

theorem Streams.exists_settles (bound : Nat) {bytes : List UInt8} (h : s.Streams bytes) :
    ∃ taken r t, Settles bound s taken r t ∧ taken <+: bytes ∧
      ((∃ b, r = .ok b) ∨ r = .error dry) := by
  induction bytes generalizing s with
  | nil =>
    obtain ⟨t, ht, -⟩ := nextByte_of_streams_nil h
    exact ⟨[], _, t, .fails ht, List.prefix_rfl, .inr rfl⟩
  | cons b bytes ih =>
    obtain ⟨t, ht, hrest⟩ := nextByte_of_streams_cons h
    by_cases hb : b.toNat < bound
    · exact ⟨[b], _, t, .fits ht hb, by simp, .inl ⟨b, rfl⟩⟩
    · obtain ⟨taken, r, u, hsettles, htaken, hr⟩ := ih hrest
      exact ⟨b :: taken, r, u, .rejects ht (Nat.not_lt.1 hb) hsettles, by simpa using htaken, hr⟩

theorem Cycles.exists_settles {bound : Nat} {f : Nat → UInt8} (h : s.Cycles f) {k : Nat}
    (hk : (f k).toNat < bound) :
    ∃ taken b t, Settles bound s taken (.ok b) t ∧ taken.length ≤ k + 1 := by
  induction k generalizing s f with
  | zero =>
    obtain ⟨t, ht, -⟩ := nextByte_of_cycles h
    exact ⟨[f 0], f 0, t, .fits ht hk, Nat.le_refl 1⟩
  | succ k ih =>
    obtain ⟨t, ht, hrest⟩ := nextByte_of_cycles h
    by_cases hb : (f 0).toNat < bound
    · exact ⟨[f 0], f 0, t, .fits ht hb, by simp⟩
    · obtain ⟨taken, b, u, hsettles, hlength⟩ := ih hrest hk
      exact ⟨f 0 :: taken, b, u, .rejects ht (Nat.not_lt.1 hb) hsettles, by simpa using hlength⟩

theorem Cycles.exists_lt_of_settles {bound : Nat} {f : Nat → UInt8} (h : s.Cycles f)
    {taken : List UInt8} {r : Except Failure UInt8} {t : Source} (hs : Settles bound s taken r t) :
    ∃ k, (f k).toNat < bound := by
  obtain ⟨k, hk, -⟩ := hs.exists_firstFit
  have hfit := hk.fits
  rw [forecast_of_cycles h] at hfit
  exact ⟨k, Nat.not_le.1 hfit⟩

end Source

/-- No more than one turn of a cycle is needed to come to a byte of it. -/
theorem exists_return_lt {period : Array UInt8} {b : UInt8} (hb : b ∈ period) (start : Nat) :
    ∃ k < period.size, period.getD ((start + k) % period.size) 0 = b := by
  obtain ⟨k, hk⟩ := exists_return hb start
  refine ⟨k % period.size, Nat.mod_lt _ (Array.size_pos_of_mem hb), ?_⟩
  rw [Nat.add_mod_mod, hk]

theorem getD_mod_mem {period : Array UInt8} (h : 0 < period.size) (i : Nat) :
    period.getD (i % period.size) 0 ∈ period := by
  have hi : i % period.size < period.size := Nat.mod_lt i h
  simp [Array.getD, hi]

/-! ## States over a cycle -/

/-- The source stands over the cycle, and what it has to give is the cycle from some place on. -/
def Source.Turns (period : Array UInt8) (s : Source) : Prop :=
  ∃ start, s.Cycles fun i => period.getD ((start + i) % period.size) 0

namespace Source.Turns

variable {period : Array UInt8} {s : Source}

theorem fresh (n : Nat) (hn : 1 ≤ n) (h : 0 < period.size) (position : Nat) :
    (Source.fresh n hn (.cycle period position)).Turns period :=
  ⟨position, cycles_fresh n hn h position⟩

theorem nextByte (h : s.Turns period) : s.nextByte.2.Turns period := by
  obtain ⟨start, hcycles⟩ := h
  obtain ⟨t, ht, hrest⟩ := nextByte_of_cycles hcycles
  refine ⟨start + 1, ?_⟩
  rw [ht]
  simpa only [Nat.add_assoc, Nat.add_comm 1] using hrest

theorem exists_settles (h : s.Turns period) {bound : Nat} (hb : ∃ b ∈ period, b.toNat < bound) :
    ∃ taken b t, Settles bound s taken (.ok b) t ∧ taken.length ≤ period.size := by
  obtain ⟨start, hcycles⟩ := h
  obtain ⟨b, hmem, hlt⟩ := hb
  obtain ⟨k, hk, hreturn⟩ := exists_return_lt hmem start
  rw [← hreturn] at hlt
  obtain ⟨taken, b, t, hsettles, hlength⟩ := hcycles.exists_settles hlt
  exact ⟨taken, b, t, hsettles, Nat.le_trans hlength hk⟩

theorem settles_iff (h : s.Turns period) (hpos : 0 < period.size) {bound : Nat} :
    (∃ taken r t, Settles bound s taken r t) ↔ ∃ b ∈ period, b.toNat < bound := by
  constructor
  · rintro ⟨taken, r, t, hsettles⟩
    obtain ⟨start, hcycles⟩ := h
    obtain ⟨k, hk⟩ := hcycles.exists_lt_of_settles hsettles
    exact ⟨_, getD_mod_mem hpos _, hk⟩
  · intro hb
    obtain ⟨taken, b, t, hsettles, -⟩ := h.exists_settles hb
    exact ⟨taken, _, t, hsettles⟩

end Source.Turns
end Entropy

open Entropy Drawing

/-! ## Uniform numbers -/

theorem uniform_of_settles {sides : Nat} (hmin : 2 ≤ sides) (hmax : sides ≤ 255) (offset : Int)
    {s t : Source} {taken : List UInt8} {r : Except Failure UInt8}
    (h : Settles (255 / sides * sides) s taken r t) :
    uniform sides offset s = (r.map fun b => offset + (b.toNat : Int) % sides, t) := by
  have hdraw : draw (fairBound sides) s = (r, t) := h.draw_eq
  rw [uniform_of_range ⟨Int.ofNat_le.2 hmin, Int.ofNat_le.2 hmax⟩, map_apply, Int.toNat_natCast,
    hdraw]

theorem uniform_of_not_settles {sides : Nat} (hmin : 2 ≤ sides) (hmax : sides ≤ 255) (offset : Int)
    {s : Source} (h : ¬ ∃ taken r t, Settles (255 / sides * sides) s taken r t) :
    (uniform sides offset s).1 = .error .endless := by
  have hdraw : (draw (fairBound sides) s).1 = .error .endless :=
    not_not.1 fun hne => h (exists_settles_iff.2 hne)
  rw [uniform_of_range ⟨Int.ofNat_le.2 hmin, Int.ofNat_le.2 hmax⟩, map_apply, Int.toNat_natCast,
    hdraw]
  rfl

/-- Over a cycle, in every state that is reached without filling other buffers, a uniform number
comes to an end just if some byte of the cycle fits, and takes at most one turn; a byte below 128
fits whatever the sides. Over a stream it always comes to an end, to a number or to an outage, and
takes nothing but bytes that remain. -/
theorem uniform_ends_if_it_can :
    (∀ (period : Array UInt8) (position n : Nat) (hn : 1 ≤ n) (calls : List Session.Call),
      0 < period.size → (∀ call ∈ calls, call.isFill = false) →
      let s := (Session.run (.fresh n hn (.cycle period position)) calls).2
      ∀ (sides : Nat) (offset : Int), 2 ≤ sides → sides ≤ 255 →
        let m := 255 / sides * sides
        ((∃ taken r t, Settles m s taken r t) ↔ ∃ b ∈ period, b.toNat < m) ∧
        ((∃ b ∈ period, b.toNat < m) → ∃ taken b t,
          Settles m s taken (.ok b) t ∧ taken.length ≤ period.size ∧
            uniform sides offset s = (.ok (offset + (b.toNat : Int) % sides), t)) ∧
        ((¬ ∃ b ∈ period, b.toNat < m) → (uniform sides offset s).1 = .error .endless) ∧
        ((∃ b ∈ period, b.toNat < 128) → ∃ taken r t, Settles m s taken r t)) ∧
    ∀ (s : Source) (rest : List UInt8) (sides : Nat) (offset : Int),
      s.supply.provider = .stream rest → 2 ≤ sides → sides ≤ 255 →
      ∃ taken r t, Settles (255 / sides * sides) s taken r t ∧ taken <+: s.unread ++ rest ∧
        ((∃ b, r = .ok b ∧ uniform sides offset s = (.ok (offset + (b.toNat : Int) % sides), t)) ∨
          ∃ outage, r = .error (.unavailable outage) ∧
            uniform sides offset s = (.error (.unavailable outage), t)) := by
  constructor
  · intro period position n hn calls hpos hcalls s sides offset hmin hmax m
    have hturns : s.Turns period :=
      Session.invariant_run (fun _ h => h.nextByte) hcalls (.fresh n hn hpos position)
    refine ⟨hturns.settles_iff hpos, ?_, ?_, ?_⟩
    · intro hb
      obtain ⟨taken, b, t, hsettles, hlength⟩ := hturns.exists_settles hb
      exact ⟨taken, b, t, hsettles, hlength, uniform_of_settles hmin hmax offset hsettles⟩
    · intro hnone
      rw [← hturns.settles_iff hpos] at hnone
      exact uniform_of_not_settles hmin hmax offset hnone
    · rintro ⟨b, hb, hlow⟩
      have hfits : b.toNat < m := Nat.lt_of_lt_of_le hlow (half_le_fairBound hmin hmax)
      exact (hturns.settles_iff hpos).2 ⟨b, hb, hfits⟩
  · intro s rest sides offset hprovider hmin hmax
    have hstreams : s.Streams (s.unread ++ wholeBlocks s.blockSize rest) :=
      ⟨rest, hprovider, rfl⟩
    have hremain : s.unread ++ wholeBlocks s.blockSize rest <+: s.unread ++ rest :=
      (List.prefix_append_right_inj _).2 (List.take_prefix _ _)
    obtain ⟨taken, r, t, hsettles, htaken, hr⟩ := hstreams.exists_settles (255 / sides * sides)
    have huniform := uniform_of_settles hmin hmax offset hsettles
    refine ⟨taken, r, t, hsettles, htaken.trans hremain, ?_⟩
    rcases hr with ⟨b, rfl⟩ | rfl
    · exact .inl ⟨b, rfl, huniform⟩
    · exact .inr ⟨_, rfl, huniform⟩

/-- A cycle of three in blocks of two, read from its second byte on; a cycle of which every byte is
rejected; and a stream whose last byte fills no block. -/
theorem uniform_ends_if_it_can_across_blocks :
    let cycle (period : Array UInt8) : Source :=
      (Session.run (.fresh 2 (by decide) (.cycle period 0)) [.byte]).2
    let stream : Source := .fresh 2 (by decide) (.stream [253, 255, 7])
    (∃ taken b t, Settles 252 (cycle #[7, 252, 255]) taken (.ok b) t ∧ taken.length ≤ 3 ∧
      uniform 6 1 (cycle #[7, 252, 255]) = (.ok (1 + (b.toNat : Int) % 6), t)) ∧
    (¬ ∃ taken r t, Settles 252 (cycle #[254, 252, 255]) taken r t) ∧
    ∃ taken r t, Settles 252 stream taken r t ∧ taken <+: [253, 255, 7] := by
  intro cycle stream
  obtain ⟨hcycle, hstream⟩ := uniform_ends_if_it_can
  have hcalls : ∀ call ∈ [Session.Call.byte], call.isFill = false := by simp [Session.Call.isFill]
  obtain ⟨-, hends, -⟩ :=
    hcycle #[7, 252, 255] 0 2 (by decide) [.byte] (by simp) hcalls 6 1 (by decide) (by decide)
  obtain ⟨hnever, -⟩ :=
    hcycle #[254, 252, 255] 0 2 (by decide) [.byte] (by simp) hcalls 6 1 (by decide) (by decide)
  obtain ⟨taken, r, t, hsettles, htaken, -⟩ :=
    hstream stream [253, 255, 7] 6 1 rfl (by decide) (by decide)
  have hnone : ¬ ∃ b ∈ (#[254, 252, 255] : Array UInt8), b.toNat < 252 := by simp
  exact ⟨hends ⟨7, by simp, by simp⟩, hnever.not.2 hnone, taken, r, t, hsettles, htaken⟩

end Croupier
