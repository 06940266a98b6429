import Croupier.Proofs.Entropy.Rejection
import Croupier.Proofs.Ledger
import Croupier.Proofs.Throws
import Mathlib.Algebra.BigOperators.Fin
import Mathlib.Algebra.Order.BigOperators.Group.Finset
import Mathlib.Data.FinEnum
import Mathlib.Data.Set.Card.Arithmetic
import Mathlib.Data.Set.Finite.List

/-!
# Croupier.Proofs.Fairness

No result of a row of throws is likelier than another. `Decides throws bytes faces` says that the
throws, made over these bytes, come to `faces` just when the bytes are used up.

* `returns_iff_decides`: this is what the source and the sampler do.
* `ncard_decides`: the number of deciding byte strings of a length does not depend on the faces.
* `throws_fair`: so all results are had equally often, over byte strings of every length.
-/

namespace Croupier

open Entropy Drawing

/-- The throws come to the faces, each by the first byte that it accepts, and no byte is left. -/
inductive Decides : List Throw → List UInt8 → List Int → Prop
  | nil : Decides [] [] []
  | accepted {d : Throw} {ds : List Throw} {b : UInt8} {bytes : List UInt8} {faces : List Int} :
      b.toNat < fairBound d.sides → Decides ds bytes faces →
      Decides (d :: ds) (b :: bytes) (d.face b :: faces)
  | rejected {d : Throw} {ds : List Throw} {b : UInt8} {bytes : List UInt8} {faces : List Int} :
      fairBound d.sides ≤ b.toNat → Decides (d :: ds) bytes faces →
      Decides (d :: ds) (b :: bytes) faces

/-! ## Throws over a stream -/

namespace Throw

variable {d : Throw} {s t : Source} {b : UInt8}

theorem drawing_of_error {e : Failure} (h : s.nextByte = (.error e, t)) :
    d.drawing s = (.error e, t) := by
  rw [drawing_eq, map_apply, draw_of_fit h id]
  rfl

theorem drawing_of_accepted (h : s.nextByte = (.ok b, t)) (hb : b.toNat < fairBound d.sides) :
    d.drawing s = (.ok (d.face b), t) := by
  rw [drawing_eq, map_apply, draw_of_fit h (Nat.not_le.2 hb)]
  rfl

theorem drawing_of_rejected {bytes : List UInt8} (h : s.nextByte = (.ok b, t))
    (hb : fairBound d.sides ≤ b.toNat) (ht : t.Streams bytes) : d.drawing s = d.drawing t := by
  rw [drawing_eq, map_apply, map_apply, draw_of_rejected h hb ht]

end Throw

section ThrowAll

variable {d : Throw} {ds : List Throw} {s t : Source} {b : UInt8}

theorem throwAll_of_accepted (h : s.nextByte = (.ok b, t)) (hb : b.toNat < fairBound d.sides) :
    throwAll (d :: ds) s = ((throwAll ds t).1.map (d.face b :: ·), (throwAll ds t).2) := by
  rw [throwAll, andThen_of_ok (Throw.drawing_of_accepted h hb), map_apply]

theorem throwAll_of_rejected {bytes : List UInt8} (h : s.nextByte = (.ok b, t))
    (hb : fairBound d.sides ≤ b.toNat) (ht : t.Streams bytes) :
    throwAll (d :: ds) s = throwAll (d :: ds) t := by
  simp only [throwAll, andThen, Throw.drawing_of_rejected h hb ht]

end ThrowAll

theorem exists_throwAll_of_decides {ds : List Throw} {bytes : List UInt8} {faces : List Int}
    (h : Decides ds bytes faces) {s : Source} (hs : s.Streams bytes) :
    ∃ t, throwAll ds s = (.ok faces, t) ∧ t.Streams [] := by
  induction h generalizing s with
  | nil => exact ⟨s, rfl, hs⟩
  | accepted hb _ ih =>
    obtain ⟨t, ht, htail⟩ := Source.nextByte_of_streams_cons hs
    obtain ⟨u, hu, hend⟩ := ih htail
    exact ⟨u, by rw [throwAll_of_accepted ht hb, hu]; rfl, hend⟩
  | rejected hb _ ih =>
    obtain ⟨t, ht, htail⟩ := Source.nextByte_of_streams_cons hs
    obtain ⟨u, hu, hend⟩ := ih htail
    exact ⟨u, by rw [throwAll_of_rejected ht hb htail, hu], hend⟩

theorem decides_of_throwAll {ds : List Throw} {bytes : List UInt8} {faces : List Int}
    {s t : Source} (hs : s.Streams bytes) (h : throwAll ds s = (.ok faces, t))
    (ht : t.Streams []) : Decides ds bytes faces := by
  induction bytes generalizing ds faces s with
  | nil =>
    cases ds with
    | nil => cases h; exact .nil
    | cons d ds =>
      obtain ⟨u, hu, -⟩ := Source.nextByte_of_streams_nil hs
      rw [throwAll, andThen_of_error (Throw.drawing_of_error hu)] at h
      cases h
  | cons b bytes ih =>
    cases ds with
    | nil =>
      cases h
      cases hs.unique ht
    | cons d ds =>
      obtain ⟨u, hu, htail⟩ := Source.nextByte_of_streams_cons hs
      by_cases hb : b.toNat < fairBound d.sides
      · rw [throwAll_of_accepted hu hb] at h
        rcases hrest : throwAll ds u with ⟨r, w⟩
        rw [hrest] at h
        cases r with
        | error e => cases h
        | ok rest => cases h; exact .accepted hb (ih htail hrest)
      · have hb' := Nat.not_lt.1 hb
        rw [throwAll_of_rejected hu hb' htail] at h
        exact .rejected hb' (ih htail h)

/-- Over a source that gives `bytes` byte by byte, the throws come to `faces` and the bytes are
used up. -/
def Returns (throws : List Throw) (bytes : List UInt8) (faces : List Int) : Prop :=
  ∃ t, throwAll throws (.fresh 1 Nat.one_pos (.stream bytes)) = (.ok faces, t) ∧
    t.unread = [] ∧ t.supply.provider = .stream []

theorem Returns.unique {throws : List Throw} {bytes : List UInt8} {faces faces' : List Int}
    (h : Returns throws bytes faces) (h' : Returns throws bytes faces') : faces = faces' := by
  obtain ⟨t, ht, -⟩ := h
  obtain ⟨t', ht', -⟩ := h'
  rw [ht] at ht'
  cases ht'
  rfl

theorem returns_iff_decides {throws : List Throw} {bytes : List UInt8} {faces : List Int} :
    Returns throws bytes faces ↔ Decides throws bytes faces := by
  have hfresh := Source.streams_fresh 1 Nat.one_pos bytes
  rw [wholeBlocks_one] at hfresh
  constructor
  · rintro ⟨t, ht, hunread, hprovider⟩
    exact decides_of_throwAll hfresh ht ⟨[], hprovider, by simp [hunread, wholeBlocks]⟩
  · intro h
    obtain ⟨t, ht, rest, hprovider, hnil⟩ := exists_throwAll_of_decides h hfresh
    -- throwing does not change the size of the blocks
    obtain ⟨handed, htrail, -⟩ :=
      (byBytes_throwAll throws).exists_trail (.fresh 1 Nat.one_pos (.stream bytes))
    rw [ht] at htrail
    have hsize : t.blockSize = 1 :=
      (htrail.uniform (n := 1) ⟨rfl, by simp [Source.fresh]⟩).blockSize_eq
    rw [hsize, wholeBlocks_one] at hnil
    obtain ⟨hunread, rfl⟩ := List.append_eq_nil_iff.1 hnil.symm
    exact ⟨t, ht, hunread, hprovider⟩

/-! ## Counting byte strings -/

theorem notMem_image_cons {b c : UInt8} (hne : b ≠ c) {xs ys : Set (List UInt8)}
    {bytes : List UInt8} (h : bytes ∈ (b :: ·) '' xs) : bytes ∉ (c :: ·) '' ys := by
  obtain ⟨tail, -, rfl⟩ := h
  rintro ⟨tail', -, heq⟩
  exact hne (List.cons_eq_cons.1 heq).1.symm

/-- Byte strings are counted by what they begin with. -/
theorem ncard_length_succ (P : List UInt8 → Prop) (n : Nat) :
    {bytes : List UInt8 | bytes.length = n + 1 ∧ P bytes}.ncard =
      ∑ b : UInt8, {bytes : List UInt8 | bytes.length = n ∧ P (b :: bytes)}.ncard := by
  have hsplit : {bytes : List UInt8 | bytes.length = n + 1 ∧ P bytes} =
      ⋃ b : UInt8, (b :: ·) '' {bytes | bytes.length = n ∧ P (b :: bytes)} := by
    ext bytes
    cases bytes <;> simp
  have hfinite : ∀ b : UInt8, {bytes : List UInt8 | bytes.length = n ∧ P (b :: bytes)}.Finite :=
    fun b => (List.finite_length_eq UInt8 n).subset fun _ h => h.1
  rw [hsplit, Set.ncard_iUnion_of_finite (fun b => (hfinite b).image _)
    fun b c hne => Set.disjoint_left.2 fun _ h => notMem_image_cons hne h,
    finsum_eq_sum_of_fintype]
  exact Finset.sum_congr rfl fun b _ => Set.ncard_image_of_injective _ List.cons_injective

/-- A sum over all bytes, those below a bound first. -/
theorem sum_bytes (f : Nat → Nat) {bound : Nat} (h : bound ≤ 256) :
    ∑ b : UInt8, f b.toNat =
      ∑ i ∈ Finset.range bound, f i + ∑ i ∈ Finset.range (256 - bound), f (bound + i) := by
  have hrange : ∑ b : UInt8, f b.toNat = ∑ i ∈ Finset.range 256, f i := by
    rw [← Fin.sum_univ_eq_sum_range]
    exact Fintype.sum_equiv FinEnum.equiv _ _ fun _ => rfl
  rw [hrange, ← Finset.sum_range_add, Nat.add_sub_cancel' h]

/-- Every residue is met once in each of `q` rounds. -/
theorem sum_rounds (q sides r a : Nat) (hr : r < sides) :
    ∑ i ∈ Finset.range (q * sides), (if i % sides = r then a else 0) = q * a := by
  induction q with
  | zero => simp
  | succ q ih =>
    have hround : ∀ i ∈ Finset.range sides,
        (if (q * sides + i) % sides = r then a else 0) = if i = r then a else 0 := by
      intro i hi
      rw [Nat.mul_add_mod_self_right, Nat.mod_eq_of_lt (Finset.mem_range.1 hi)]
    rw [Nat.succ_mul, Finset.sum_range_add, ih, Finset.sum_congr rfl hround, Nat.succ_mul]
    simp [hr]

/-! ## Counting deciding strings -/

/-- How many byte strings of a length decide a row of throws in favour of one result. -/
def ways : List Throw → Nat → Nat
  | [], 0 => 1
  | [], _ + 1 => 0
  | _ :: _, 0 => 0
  | d :: ds, n + 1 =>
    maxSides / d.sides * ways ds n + (256 - fairBound d.sides) * ways (d :: ds) n

theorem fairBound_le (sides : Nat) : fairBound sides ≤ 255 :=
  Nat.div_mul_le_self maxSides sides

/-- A side is shown by one accepted byte in each round of residues. -/
theorem sum_throw {d : Throw} {x : Int} (hx : d.Shows x) (a c : Nat) :
    ∑ b : UInt8, (if b.toNat < fairBound d.sides then if d.face b = x then a else 0 else c) =
      maxSides / d.sides * a + (256 - fairBound d.sides) * c := by
  obtain ⟨r, hr, rfl⟩ : ∃ r : Nat, r < d.sides ∧ x = d.offset + r :=
    ⟨(x - d.offset).toNat, by have := hx.1; have := hx.2; omega, by have := hx.1; omega⟩
  have hface : ∀ b : UInt8, d.face b = d.offset + r ↔ b.toNat % d.sides = r := by
    intro b
    rw [Throw.face]
    omega
  have hlow : ∀ i ∈ Finset.range (fairBound d.sides),
      (if i < fairBound d.sides then if i % d.sides = r then a else 0 else c) =
        if i % d.sides = r then a else 0 :=
    fun i hi => if_pos (Finset.mem_range.1 hi)
  have hhigh : ∀ i ∈ Finset.range (256 - fairBound d.sides),
      (if fairBound d.sides + i < fairBound d.sides then
        if (fairBound d.sides + i) % d.sides = r then a else 0 else c) = c :=
    fun i _ => if_neg (by omega)
  simp only [hface]
  calc ∑ b : UInt8, (if b.toNat < fairBound d.sides then
          if b.toNat % d.sides = r then a else 0 else c)
      = ∑ i ∈ Finset.range (fairBound d.sides), (if i % d.sides = r then a else 0) +
          ∑ _i ∈ Finset.range (256 - fairBound d.sides), c := by
        rw [sum_bytes (fun i => if i < fairBound d.sides then if i % d.sides = r then a else 0
          else c) (Nat.le_succ_of_le (fairBound_le d.sides)), Finset.sum_congr rfl hlow,
          Finset.sum_congr rfl hhigh]
    _ = maxSides / d.sides * a + (256 - fairBound d.sides) * c := by
        rw [Finset.sum_const, Finset.card_range, smul_eq_mul, fairBound, sum_rounds _ _ _ _ hr]

theorem decides_cons_iff {d : Throw} {ds : List Throw} {b : UInt8} {bytes : List UInt8} {x : Int}
    {faces : List Int} :
    Decides (d :: ds) (b :: bytes) (x :: faces) ↔
      if b.toNat < fairBound d.sides then d.face b = x ∧ Decides ds bytes faces
      else Decides (d :: ds) bytes (x :: faces) := by
  split
  · rename_i hb
    constructor
    · intro h
      cases h with
      | accepted _ h => exact ⟨rfl, h⟩
      | rejected hb' _ => omega
    · rintro ⟨rfl, h⟩
      exact .accepted hb h
  · rename_i hb
    constructor
    · intro h
      cases h with
      | accepted hb' _ => exact absurd hb' hb
      | rejected _ h => exact h
    · exact .rejected (Nat.not_lt.1 hb)

theorem ncard_decides {ds : List Throw} {faces : List Int} (h : List.Forall₂ Throw.Shows ds faces)
    (n : Nat) :
    {bytes : List UInt8 | bytes.length = n ∧ Decides ds bytes faces}.ncard = ways ds n := by
  induction n generalizing ds faces with
  | zero =>
    cases h with
    | nil =>
      have hone : {bytes : List UInt8 | bytes.length = 0 ∧ Decides [] bytes []} = {[]} := by
        ext bytes
        cases bytes <;> simp [Decides.nil]
      rw [hone, Set.ncard_singleton, ways]
    | @cons d x ds faces hx hrest =>
      have hnone : {bytes : List UInt8 | bytes.length = 0 ∧ Decides (d :: ds) bytes (x :: faces)} =
          ∅ := by
        ext bytes
        cases bytes with
        | nil => exact iff_of_false (fun h => nomatch h.2) id
        | cons b bytes => simp
      rw [hnone, Set.ncard_empty, ways]
  | succ n ih =>
    rw [ncard_length_succ]
    cases h with
    | nil =>
      have hnone : ∀ b : UInt8,
          {bytes : List UInt8 | bytes.length = n ∧ Decides [] (b :: bytes) []} = ∅ := by
        intro b
        ext bytes
        exact iff_of_false (fun h => nomatch h.2) id
      simp only [hnone, Set.ncard_empty, Finset.sum_const_zero, ways]
    | @cons d x ds faces hx hrest =>
      have hbyte : ∀ b : UInt8,
          {bytes : List UInt8 |
            bytes.length = n ∧ Decides (d :: ds) (b :: bytes) (x :: faces)}.ncard =
          if b.toNat < fairBound d.sides then if d.face b = x then ways ds n else 0
          else ways (d :: ds) n := by
        intro b
        simp only [decides_cons_iff]
        by_cases hb : b.toNat < fairBound d.sides
        · by_cases hface : d.face b = x
          · simp only [hb, hface, if_true, true_and]
            exact ih hrest
          · simp [hb, hface]
        · simp only [hb, if_false]
          exact ih (.cons hx hrest)
      simp only [hbyte, sum_throw hx, ways]

theorem ways_pos {ds : List Throw} (hne : ds ≠ []) {n : Nat} (hn : ds.length ≤ n) :
    0 < ways ds n := by
  induction n generalizing ds with
  | zero => exact absurd (List.length_eq_zero_iff.1 (Nat.le_zero.1 hn)) hne
  | succ n ih =>
    obtain ⟨d, ds, rfl⟩ := List.exists_cons_of_ne_nil hne
    rw [List.length_cons] at hn
    have hrounds : 0 < maxSides / d.sides := Nat.div_pos d.le_maxSides d.sides_pos
    have hbound := fairBound_le d.sides
    rw [ways]
    by_cases hds : ds = []
    · subst hds
      cases n with
      | zero => exact Nat.add_pos_left (Nat.mul_pos hrounds Nat.one_pos) _
      | succ n =>
        -- any rejected byte may come first
        exact Nat.add_pos_right _ (Nat.mul_pos (by omega) (ih hne (by simp)))
    · exact Nat.add_pos_left (Nat.mul_pos hrounds (ih hds (by omega))) _

theorem ncard_returns {throws : List Throw} {faces : List Int}
    (h : List.Forall₂ Throw.Shows throws faces) (n : Nat) :
    {bytes : List UInt8 | bytes.length = n ∧ Returns throws bytes faces}.ncard = ways throws n := by
  simp only [returns_iff_decides]
  exact ncard_decides h n

/-- As many byte strings of a length make the throws come to one result as to any other, and there
are such strings for every length that gives each throw a byte. Outcomes and replies to dice orders
draw throws in a row and nothing else. -/
theorem throws_fair :
    (∀ (throws : List Throw) (v w : List Int) (n : Nat),
      List.Forall₂ Throw.Shows throws v → List.Forall₂ Throw.Shows throws w →
      {bytes : List UInt8 | bytes.length = n ∧ Returns throws bytes v}.ncard =
        {bytes : List UInt8 | bytes.length = n ∧ Returns throws bytes w}.ncard ∧
      (throws ≠ [] → throws.length ≤ n →
        0 < {bytes : List UInt8 | bytes.length = n ∧ Returns throws bytes v}.ncard)) ∧
    (∀ (spec : DieSpec) (offset : Int), spec.evaluate offset =
      andThen (throwAll (spec.throws offset)) fun rolls s => (spec.written rolls, s)) ∧
    ∀ (who : String) (args : Option String) (cap : Option Int), diceReply who args cap =
      match DiceOrder.ofArgs cap args with
      | .order order =>
        map (fun rolls => some (Reply.diceText who order.label (Reply.deal order.specs rolls)))
          (throwAll (order.specs.flatMap (·.throws 1)))
      | _ => give none := by
  refine ⟨fun throws v w n hv hw => ?_, DieSpec.evaluate_eq_throwAll, diceReply_eq_throwAll⟩
  rw [ncard_returns hv, ncard_returns hw]
  exact ⟨rfl, fun hne hn => ways_pos hne hn⟩

/-- A die of six sides and one of twenty over strings of five bytes. -/
theorem throws_fair_d6_d20 :
    let d6 : Throw := ⟨6, 1, by decide, by decide⟩
    let d20 : Throw := ⟨20, 1, by decide, by decide⟩
    let count (faces : List Int) : Nat :=
      {bytes : List UInt8 | bytes.length = 5 ∧ Returns [d6, d20] bytes faces}.ncard
    count [1, 20] = count [6, 7] ∧ 0 < count [1, 20] := by
  intro d6 d20 count
  have hshown : List.Forall₂ Throw.Shows [d6, d20] [1, 20] :=
    .cons (And.intro (by decide) (by decide)) (.cons (And.intro (by decide) (by decide)) .nil)
  have hshown' : List.Forall₂ Throw.Shows [d6, d20] [6, 7] :=
    .cons (And.intro (by decide) (by decide)) (.cons (And.intro (by decide) (by decide)) .nil)
  obtain ⟨hsame, hpos⟩ := throws_fair.1 [d6, d20] [1, 20] [6, 7] 5 hshown hshown'
  exact ⟨hsame, hpos (List.cons_ne_nil _ _) (by decide)⟩

end Croupier
