import Croupier.Entropy.Sampler
import Croupier.Proofs.Entropy.Forecast
import Mathlib.Data.Nat.Find

/-!
# Croupier.Proofs.Entropy.Rejection

A draw in terms of the forecast: it comes to the first result that it does not reject. The number
of bytes that `draw` allows itself is never what stops it (`draw_of_firstFit`), unless nothing
would (`draw_of_no_fit`).
-/

namespace Croupier
namespace Entropy

/-- A byte from the bound on is rejected. A failure is not: it ends the draw. -/
def Rejects (bound : Nat) : Except Failure UInt8 → Prop
  | .ok b => bound ≤ b.toNat
  | .error _ => False

/-- Result number `k` is the first that a draw does not reject. -/
structure FirstFit (bound : Nat) (s : Source) (k : Nat) : Prop where
  rejects : ∀ i < k, Rejects bound (s.forecast i)
  fits : ¬ Rejects bound (s.forecast k)

theorem exists_firstFit {bound : Nat} {s : Source} {n : Nat}
    (h : ¬ Rejects bound (s.forecast n)) : ∃ k ≤ n, FirstFit bound s k := by
  classical
  have hex : ∃ k, ¬ Rejects bound (s.forecast k) := ⟨n, h⟩
  exact ⟨Nat.find hex, Nat.find_min' hex h,
    ⟨fun i hi => not_not.1 (Nat.find_min hex hi), Nat.find_spec hex⟩⟩

theorem firstFit_zero {bound : Nat} {s t : Source} {r : Except Failure UInt8}
    (h : s.nextByte = (r, t)) (hr : ¬ Rejects bound r) : FirstFit bound s 0 := by
  refine ⟨nofun, ?_⟩
  rwa [Source.forecast_zero, h]

/-- A rejected result is passed over. -/
theorem firstFit_succ_iff {bound k : Nat} {s t : Source} {r : Except Failure UInt8}
    (h : s.nextByte = (r, t)) (hr : Rejects bound r) :
    FirstFit bound s (k + 1) ↔ FirstFit bound t k := by
  constructor
  · intro hs
    refine ⟨fun i hi => ?_, ?_⟩
    · simpa only [Source.forecast_succ, h] using hs.rejects (i + 1) (by omega)
    · simpa only [Source.forecast_succ, h] using hs.fits
  · intro ht
    refine ⟨fun i hi => ?_, ?_⟩
    · cases i with
      | zero => rwa [Source.forecast_zero, h]
      | succ i =>
        rw [Source.forecast_succ, h]
        exact ht.rejects i (by omega)
    · rw [Source.forecast_succ, h]
      exact ht.fits

theorem drawWithin_of_firstFit {bound fuel k : Nat} {s : Source} (h : FirstFit bound s k)
    (hk : k < fuel) : drawWithin bound fuel s = (s.forecast k, s.after (k + 1)) := by
  induction fuel generalizing s k with
  | zero => omega
  | succ fuel ih =>
    rcases hs : s.nextByte with ⟨r, t⟩
    cases k with
    | zero =>
      have hfit := h.fits
      rw [Source.after_succ, Source.forecast_zero, hs]
      rw [Source.forecast_zero, hs] at hfit
      cases r with
      | error e => exact drawWithin_succ_of_error hs
      | ok b => exact drawWithin_succ_of_lt hs (Nat.not_le.1 hfit)
    | succ k =>
      have hreject := h.rejects 0 k.succ_pos
      rw [Source.forecast_zero, hs] at hreject
      cases r with
      | error e => exact hreject.elim
      | ok b =>
        have ht := (firstFit_succ_iff hs hreject).1 h
        rw [drawWithin_succ_of_le hs hreject, ih ht (by omega), Source.forecast_succ,
          Source.after_succ s, hs]

theorem drawWithin_of_no_fit {bound fuel : Nat} {s : Source}
    (h : ∀ i < fuel, Rejects bound (s.forecast i)) :
    drawWithin bound fuel s = (.error .endless, s.after fuel) := by
  induction fuel generalizing s with
  | zero => rfl
  | succ fuel ih =>
    rcases hs : s.nextByte with ⟨r, t⟩
    have hreject := h 0 fuel.succ_pos
    rw [Source.forecast_zero, hs] at hreject
    cases r with
    | error e => exact hreject.elim
    | ok b =>
      have ht : ∀ i < fuel, Rejects bound (t.forecast i) := by
        intro i hi
        simpa only [Source.forecast_succ, hs] using h (i + 1) (by omega)
      rw [drawWithin_succ_of_le hs hreject, ih ht, Source.after_succ, hs]

/-- If a draw has an end, it comes within the horizon: a source that ends fails by then, and a
cycle has shown all its bytes. -/
theorem FirstFit.le_horizon {bound : Nat} {s : Source} {k : Nat} (h : FirstFit bound s k) :
    k ≤ s.horizon := by
  by_cases hends : s.supply.provider.Ends
  · obtain ⟨n, hn, e, he⟩ := Source.exists_failure_le_horizon hends
    refine Nat.le_trans (Nat.not_lt.1 fun hlt => ?_) hn
    have := h.rejects n hlt
    rw [he] at this
    exact this
  · obtain ⟨f, hf⟩ := Source.exists_cycles hends
    obtain ⟨size, hsize, hpos, hperiodic⟩ := hf.periodic
    refine Nat.not_lt.1 fun hlt => h.fits ?_
    have hback := h.rejects (k - size) (by omega)
    have hsame := hperiodic (k - size) (by omega)
    rw [Nat.sub_add_cancel (by omega)] at hsame
    rw [Source.forecast_of_cycles hf] at hback ⊢
    rw [hsame]
    exact hback

theorem draw_of_firstFit {bound : Nat} {s : Source} {k : Nat} (h : FirstFit bound s k) :
    draw bound s = (s.forecast k, s.after (k + 1)) :=
  drawWithin_of_firstFit h (Nat.lt_succ_of_le h.le_horizon)

theorem draw_of_no_fit {bound : Nat} {s : Source} (h : ∀ i, Rejects bound (s.forecast i)) :
    draw bound s = (.error .endless, s.after (s.horizon + 1)) :=
  drawWithin_of_no_fit fun i _ => h i

theorem draw_of_fit {bound : Nat} {s t : Source} {r : Except Failure UInt8}
    (h : s.nextByte = (r, t)) (hr : ¬ Rejects bound r) : draw bound s = (r, t) := by
  rw [draw_of_firstFit (firstFit_zero h hr), Source.forecast_zero, Source.after_succ, h]
  rfl

/-- A stream ends, so what a draw rejects makes no difference to what it comes to. -/
theorem draw_of_rejected {bound : Nat} {s t : Source} {b : UInt8} {bytes : List UInt8}
    (h : s.nextByte = (.ok b, t)) (hb : bound ≤ b.toNat) (ht : t.Streams bytes) :
    draw bound s = draw bound t := by
  have hend : ¬ Rejects bound (t.forecast bytes.length) := by
    rw [Source.forecast_of_streams ht, List.getElem?_eq_none (Nat.le_refl _)]
    exact id
  obtain ⟨k, -, hk⟩ := exists_firstFit hend
  rw [draw_of_firstFit ((firstFit_succ_iff h hb).2 hk), draw_of_firstFit hk,
    Source.forecast_succ, Source.after_succ, h]

end Entropy
end Croupier
