import Croupier.Proofs.Entropy.Rejection
import Croupier.Proofs.Ledger
import Croupier.Proofs.Throws

/-!
# Croupier.Proofs.Stops

How a row of throws may go. Either all of them are made, or at one of them, after some bytes that
it rejects, a byte is refused (`StopsAt`), or one of them rejects whatever is still to come
(`Endless`), which takes a provider that goes round for ever. There is nothing else
(`throwAll_cases`).
-/

namespace Croupier

open Entropy Drawing

namespace Entropy

theorem Provider.ends_ask (n : Nat) (p : Provider) : (p.ask n).2.Ends ↔ p.Ends := by
  cases p with
  | stream rest =>
    rw [ask]
    split <;> exact Iff.rfl
  | cycle period position => exact Iff.rfl
  | script answers => cases answers <;> exact Iff.rfl

namespace Source

theorem ends_nextByte (s : Source) :
    s.nextByte.2.supply.provider.Ends ↔ s.supply.provider.Ends := by
  rcases h : s.nextByte with ⟨r, t⟩
  rcases nextByte_cases h with ⟨-, -, -, -, hsupply⟩ | ⟨-, -, -, -, -, -, hsupply⟩ |
    ⟨-, -, -, -, rfl⟩
  · rw [hsupply]
  · rw [hsupply]
    exact Provider.ends_ask _ _
  · exact Provider.ends_ask _ _

/-- Whether a provider comes to an end does not change as it is asked. -/
theorem Trail.ends_iff {s t : Source} {handed : List UInt8} (h : Trail s handed t) :
    t.supply.provider.Ends ↔ s.supply.provider.Ends := by
  induction h with
  | refl => exact Iff.rfl
  | @byte s _ _ _ _ hb _ ih =>
    rw [ih, ← ends_nextByte s, hb]
  | @refused s _ _ _ _ he _ ih =>
    rw [ih, ← ends_nextByte s, he]
  | fill hf _ ih =>
    obtain ⟨rfl, -⟩ := fill_eq hf
    rw [ih]
    exact Provider.ends_ask _ _

end Source
end Entropy

namespace Throw

variable {d : Throw} {s : Source}

theorem drawing_of_firstFit {k : Nat} (h : FirstFit (fairBound d.sides) s k) :
    d.drawing s = ((s.forecast k).map d.face, s.after (k + 1)) := by
  rw [drawing_eq, map_apply, draw_of_firstFit h]

theorem drawing_of_no_fit (h : ∀ i, Rejects (fairBound d.sides) (s.forecast i)) :
    d.drawing s = (.error .endless, s.after (s.horizon + 1)) := by
  rw [drawing_eq, map_apply, draw_of_no_fit h]
  rfl

end Throw

/-- The throws before `d` have been made, which leaves the source as `u`. -/
def Reaches (throws : List Throw) (s : Source) (d : Throw) (u : Source) : Prop :=
  ∃ before behind faces, throws = before ++ d :: behind ∧ throwAll before s = (.ok faces, u)

/-- Some throw is refused a byte, after bytes that it rejects. -/
def StopsAt (throws : List Throw) (s : Source) (e : Failure) (t : Source) : Prop :=
  ∃ d u k, Reaches throws s d u ∧ (∀ i < k, Rejects (fairBound d.sides) (u.forecast i)) ∧
    (u.after k).nextByte = (.error e, t)

/-- Some throw rejects all bytes there will ever be. -/
def Endless (throws : List Throw) (s : Source) : Prop :=
  ∃ d u, Reaches throws s d u ∧ ∀ i, Rejects (fairBound d.sides) (u.forecast i)

section Stops

variable {throws : List Throw} {s t : Source} {e : Failure}

theorem throwAll_of_reaches {d : Throw} {u : Source} (h : Reaches throws s d u)
    (hd : d.drawing u = (.error e, t)) : throwAll throws s = (.error e, t) := by
  obtain ⟨before, behind, faces, rfl, hbefore⟩ := h
  have hbehind : throwAll (d :: behind) u = (.error e, t) := andThen_of_error hd
  rw [throwAll_append, andThen_of_ok hbefore, map_apply, hbehind]
  rfl

theorem throwAll_of_stopsAt (h : StopsAt throws s e t) : throwAll throws s = (.error e, t) := by
  obtain ⟨d, u, k, hreach, hrejects, hnext⟩ := h
  have hforecast : u.forecast k = .error e := by rw [Source.forecast, hnext]
  have hfit : FirstFit (fairBound d.sides) u k := ⟨hrejects, by rw [hforecast]; exact id⟩
  refine throwAll_of_reaches hreach ?_
  rw [Throw.drawing_of_firstFit hfit, hforecast, Source.after_succ_right, hnext]
  rfl

theorem throwAll_of_endless (h : Endless throws s) :
    ∃ t, throwAll throws s = (.error .endless, t) := by
  obtain ⟨d, u, hreach, hrejects⟩ := h
  exact ⟨_, throwAll_of_reaches hreach (Throw.drawing_of_no_fit hrejects)⟩

theorem StopsAt.cases (h : StopsAt throws s e t) :
    (∃ outage, e = .unavailable outage) ∨
      ∃ how message, (how = .badValue ∨ how = .internal) ∧ e = .defect how message := by
  obtain ⟨d, u, k, -, -, hnext⟩ := h
  exact (Source.refusal_of_nextByte hnext).1.failure_cases

theorem Endless.not_ends (h : Endless throws s) : ¬ s.supply.provider.Ends := by
  obtain ⟨d, u, ⟨before, behind, faces, -, hbefore⟩, hrejects⟩ := h
  intro hends
  obtain ⟨handed, htrail, -⟩ := (byBytes_throwAll before).exists_trail s
  rw [hbefore] at htrail
  obtain ⟨n, -, e, he⟩ := Source.exists_failure_le_horizon (htrail.ends_iff.2 hends)
  have := hrejects n
  rw [he] at this
  exact this

/-- What comes after one throw comes after it and the throws in front of it. -/
theorem Reaches.cons {d d' : Throw} {u v : Source} {x : Int} (hd : d.drawing s = (.ok x, u))
    (h : Reaches throws u d' v) : Reaches (d :: throws) s d' v := by
  obtain ⟨before, behind, faces, rfl, hbefore⟩ := h
  refine ⟨d :: before, behind, x :: faces, rfl, ?_⟩
  rw [throwAll, andThen_of_ok hd, map_apply, hbefore]
  rfl

theorem throwAll_cases (throws : List Throw) (s : Source) :
    (∃ faces t, throwAll throws s = (.ok faces, t)) ∨ (∃ e t, StopsAt throws s e t) ∨
      Endless throws s := by
  induction throws generalizing s with
  | nil => exact .inl ⟨[], s, rfl⟩
  | cons d throws ih =>
    have hfirst : Reaches (d :: throws) s d s := ⟨[], throws, [], rfl, rfl⟩
    by_cases hendless : ∀ i, Rejects (fairBound d.sides) (s.forecast i)
    · exact .inr (.inr ⟨d, s, hfirst, hendless⟩)
    obtain ⟨n, hn⟩ := not_forall.1 hendless
    obtain ⟨k, -, hfit⟩ := exists_firstFit hn
    rcases hnext : (s.after k).nextByte with ⟨r, u⟩
    cases r with
    | error e => exact .inr (.inl ⟨e, u, d, s, k, hfirst, hfit.rejects, hnext⟩)
    | ok b =>
      have hd : d.drawing s = (.ok (d.face b), u) := by
        rw [Throw.drawing_of_firstFit hfit, Source.forecast, Source.after_succ_right, hnext]
        rfl
      rcases ih u with ⟨faces, t, hrest⟩ | ⟨e, t, d', v, k, hreach, hstop⟩ | ⟨d', v, hreach, hall⟩
      · refine .inl ⟨d.face b :: faces, t, ?_⟩
        rw [throwAll, andThen_of_ok hd, map_apply, hrest]
        rfl
      · exact .inr (.inl ⟨e, t, d', v, k, hreach.cons hd, hstop⟩)
      · exact .inr (.inr ⟨d', v, hreach.cons hd, hall⟩)

end Stops
end Croupier
