import Croupier.Proofs.Drawing
import Croupier.Proofs.Orders
import Croupier.Proofs.Percentile.Grammar
import Mathlib.Data.List.Forall2

/-!
# Croupier.Proofs.Throws

A throw is a die with a choice to make, and the number on its first side. Outcomes and replies
draw nothing but throws, made in order: `evaluate_eq_throwAll`, `diceReply_eq_throwAll` and
`checkReply_eq_throwAll`. The numbers of an order are short, so that a reply can always be written
once its throws are made.
-/

namespace Croupier

open Entropy Drawing

structure Throw where
  sides : Nat
  offset : Int
  minSides_le : minSides ≤ sides
  le_maxSides : sides ≤ maxSides

namespace Throw

def drawing (d : Throw) : Drawing Int :=
  uniform d.sides d.offset

/-- What is shown by a byte that is accepted. -/
def face (d : Throw) (b : UInt8) : Int :=
  d.offset + (b.toNat : Int) % d.sides

/-- The number is on one of the sides. -/
def Shows (d : Throw) (x : Int) : Prop :=
  d.offset ≤ x ∧ x ≤ d.offset + d.sides - 1

theorem sides_pos (d : Throw) : 0 < d.sides :=
  Nat.lt_of_lt_of_le (by decide) d.minSides_le

theorem shows_face (d : Throw) (b : UInt8) : d.Shows (d.face b) := by
  have hpos := d.sides_pos
  have hlow := Int.emod_nonneg (b.toNat : Int) (b := d.sides) (by omega)
  have hhigh := Int.emod_lt_of_pos (b.toNat : Int) (b := d.sides) (by omega)
  unfold Shows face
  omega

theorem drawing_eq (d : Throw) : d.drawing = map d.face (draw (fairBound d.sides)) :=
  uniform_of_range ⟨Int.ofNat_le.2 d.minSides_le, Int.ofNat_le.2 d.le_maxSides⟩ d.offset

theorem shows_of_drawing {d : Throw} {s t : Source} {x : Int} (h : d.drawing s = (.ok x, t)) :
    d.Shows x := by
  rw [drawing_eq] at h
  obtain ⟨b, -, rfl⟩ := ok_of_map h
  exact d.shows_face b

end Throw

/-- The throws in order; the first that fails ends them. -/
def throwAll : List Throw → Drawing (List Int)
  | [] => give []
  | d :: ds => andThen d.drawing fun x => map (x :: ·) (throwAll ds)

theorem throwAll_append (xs ys : List Throw) :
    throwAll (xs ++ ys) = andThen (throwAll xs) fun a => map (a ++ ·) (throwAll ys) := by
  induction xs with
  | nil =>
    rw [throwAll, give_andThen, List.nil_append]
    funext s
    rcases h : throwAll ys s with ⟨r, t⟩
    rw [map_apply, h]
    cases r <;> rfl
  | cons d xs ih =>
    simp only [List.cons_append, throwAll, ih, map, andThen_assoc, give_andThen]

theorem shown_of_throwAll {ds : List Throw} {s t : Source} {faces : List Int}
    (h : throwAll ds s = (.ok faces, t)) : List.Forall₂ Throw.Shows ds faces := by
  induction ds generalizing s faces with
  | nil => cases h; exact .nil
  | cons d ds ih =>
    obtain ⟨x, u, hd, hmap⟩ := ok_of_andThen h
    obtain ⟨rest, hrest, rfl⟩ := ok_of_map hmap
    exact .cons (Throw.shows_of_drawing hd) (ih hrest)

theorem byBytes_throwAll (ds : List Throw) : ByBytes (throwAll ds) := by
  induction ds with
  | nil => exact .give []
  | cons d ds ih => exact .andThen (byBytes_uniform d.sides d.offset) fun _ => .map ih

/-! ## Outcomes -/

namespace DieSpec

/-- The throws of a specification whose sides are numbered from `offset`. -/
def throws (spec : DieSpec) (offset : Int) : List Throw :=
  List.replicate spec.count ⟨spec.sides, offset, spec.minSides_le, spec.le_maxSides⟩

end DieSpec

theorem rollMany_eq_throwAll (d : Throw) (n : Nat) :
    rollMany d.sides d.offset n = throwAll (List.replicate n d) := by
  induction n with
  | zero => rfl
  | succ n ih => rw [rollMany_succ, ih, List.replicate_succ, throwAll]; rfl

namespace DieSpec

theorem evaluate_eq_throwAll (spec : DieSpec) (offset : Int) :
    spec.evaluate offset =
      andThen (throwAll (spec.throws offset)) fun rolls s => (spec.written rolls, s) := by
  rw [evaluate_eq, throws, ← rollMany_eq_throwAll]

/-- The rolls of dice numbered from one upwards. -/
structure Rolled (spec : DieSpec) (rolls : List Int) : Prop where
  length_eq : rolls.length = spec.count
  one_le : ∀ x ∈ rolls, 1 ≤ x
  le_sides : ∀ x ∈ rolls, x ≤ spec.sides

theorem Rolled.isByte {spec : DieSpec} {rolls : List Int} (h : spec.Rolled rolls) :
    ∀ x ∈ rolls, 0 ≤ x ∧ x ≤ 255 := by
  intro x hx
  have hone := h.one_le x hx
  have hle := h.le_sides x hx
  have hsides : spec.sides ≤ 255 := spec.le_maxSides
  omega

theorem rolled_of_shown {spec : DieSpec} {rolls : List Int}
    (h : List.Forall₂ Throw.Shows (spec.throws 1) rolls) : spec.Rolled rolls := by
  obtain ⟨hlen, hall⟩ := List.forall₂_iff_get.1 h
  rw [throws, List.length_replicate] at hlen
  have hshows : ∀ x ∈ rolls, 1 ≤ x ∧ x ≤ 1 + (spec.sides : Int) - 1 := by
    intro x hx
    obtain ⟨i, hi, rfl⟩ := List.mem_iff_get.1 hx
    simpa [throws, Throw.Shows] using hall i (by simp [throws]; omega) i.isLt
  exact ⟨hlen.symm, fun x hx => (hshows x hx).1, fun x hx => by have := hshows x hx; omega⟩

theorem sum_of_bytes {rolls : List Int} (h : ∀ x ∈ rolls, 0 ≤ x ∧ x ≤ 255) :
    0 ≤ rolls.foldr (· + ·) 0 ∧ rolls.foldr (· + ·) 0 ≤ 255 * (rolls.length : Int) := by
  induction rolls with
  | nil => simp
  | cons x rolls ih =>
    have hx := h x List.mem_cons_self
    have htail := ih fun y hy => h y (List.mem_cons_of_mem x hy)
    simp only [List.foldr_cons, List.length_cons]
    omega

/-- Nine digits at most in the expression make short numbers everywhere in the trace. -/
theorem written_of_bytes {spec : DieSpec} (hspec : spec.Fits) {rolls : List Int}
    (hlen : rolls.length = spec.count) (hrolls : ∀ x ∈ rolls, 0 ≤ x ∧ x ≤ 255) :
    spec.written rolls = .ok (spec.outcome rolls) := by
  obtain ⟨hcount, hbonus⟩ := hspec
  obtain ⟨hlow, hhigh⟩ := sum_of_bytes hrolls
  rw [written, if_pos]
  simp only [isTraceable, outcome, List.all_eq_true, List.mem_cons]
  have htwelve : 12 ≤ Numeral.maxDigits := by decide
  rintro n (rfl | rfl | rfl | hn)
  · exact Numeral.isWritable_of_lt_pow htwelve (by omega)
  · exact Numeral.isWritable_of_lt_pow htwelve (by omega)
  · exact Numeral.isWritable_of_lt_pow htwelve (by omega)
  · have hbyte := hrolls n hn
    exact Numeral.isWritable_of_lt_pow htwelve (by omega)

theorem written_of_fits {spec : DieSpec} (hspec : spec.Fits) {rolls : List Int}
    (hrolls : spec.Rolled rolls) : spec.written rolls = .ok (spec.outcome rolls) :=
  written_of_bytes hspec hrolls.length_eq hrolls.isByte

theorem evaluate_of_written {spec : DieSpec} {offset : Int}
    (h : ∀ rolls, List.Forall₂ Throw.Shows (spec.throws offset) rolls →
      spec.written rolls = .ok (spec.outcome rolls)) :
    spec.evaluate offset = map spec.outcome (throwAll (spec.throws offset)) := by
  rw [evaluate_eq_throwAll]
  refine andThen_congr fun s t rolls hrolls => ?_
  rw [h rolls (shown_of_throwAll hrolls)]
  rfl

theorem evaluate_of_fits {spec : DieSpec} (h : spec.Fits) :
    spec.evaluate 1 = map spec.outcome (throwAll (spec.throws 1)) :=
  evaluate_of_written fun _ hrolls => written_of_fits h (rolled_of_shown hrolls)

end DieSpec

/-! ## Replies -/

namespace DiceOrder

theorem fits_of_take {cap : Option Int} {words : List String} {spec : DieSpec}
    (h : spec ∈ (take cap words).1) : spec.Fits := by
  obtain ⟨word, -, hword⟩ := exists_word_of_mem_take h
  exact DieSpec.fits_of_parse (accept?_eq_some_iff.1 hword).1

theorem fits_of_ofArgs {cap : Option Int} {args : Option String} {order : DiceOrder}
    (h : ofArgs cap args = .order order) : ∀ spec ∈ order.specs, spec.Fits := by
  obtain ⟨-, rest, htake, -⟩ := take_of_ofArgs h
  exact fun spec hspec => fits_of_take (by rw [htake]; exact hspec)

end DiceOrder

namespace Reply

/-- The outcomes of a row of specifications whose rolls lie one after another. -/
def deal : List DieSpec → List Int → List Outcome
  | [], _ => []
  | spec :: specs, rolls =>
    spec.outcome (rolls.take spec.count) :: deal specs (rolls.drop spec.count)

theorem rollAll_eq_throwAll {specs : List DieSpec} (h : ∀ spec ∈ specs, spec.Fits) :
    rollAll specs = map (deal specs) (throwAll (specs.flatMap (·.throws 1))) := by
  induction specs with
  | nil => rfl
  | cons spec specs ih =>
    have hspec := h spec List.mem_cons_self
    have hspecs := ih fun other hother => h other (List.mem_cons_of_mem spec hother)
    rw [rollAll_cons, DieSpec.evaluate_of_fits hspec, hspecs, List.flatMap_cons, throwAll_append]
    simp only [map, andThen_assoc, give_andThen]
    refine andThen_congr fun s t rolls hrolls => ?_
    have hlen := (DieSpec.rolled_of_shown (shown_of_throwAll hrolls)).length_eq
    simp only [deal, ← hlen, List.take_left, List.drop_left]

end Reply

theorem diceReply_eq_throwAll (who : String) (args : Option String) (cap : Option Int) :
    diceReply who args cap =
      match DiceOrder.ofArgs cap args with
      | .order order =>
        map (fun rolls => some (Reply.diceText who order.label (Reply.deal order.specs rolls)))
          (throwAll (order.specs.flatMap (·.throws 1)))
      | _ => give none := by
  cases h : DiceOrder.ofArgs cap args with
  | order order =>
    rw [diceReply_of_order h, Reply.toDice_eq,
      Reply.rollAll_eq_throwAll (DiceOrder.fits_of_ofArgs h)]
    simp only [map, andThen_assoc, give_andThen]
  | nothing => exact diceReply_of_no_order (by simp [h]) who
  | refused word => exact diceReply_of_no_order (by simp [h]) who

/-! ## Checks -/

namespace DieSpec

/-- The percentile die shows 00 to 99. -/
theorem exists_roll_of_shown {rolls : List Int}
    (h : List.Forall₂ Throw.Shows (d100.throws 0) rolls) : ∃ x, rolls = [x] ∧ 0 ≤ x ∧ x ≤ 99 := by
  cases h with
  | cons hx hnil =>
    cases hnil
    simp only [Throw.Shows, d100] at hx
    exact ⟨_, rfl, by omega, by omega⟩

theorem total_d100 (x : Int) : (d100.outcome [x]).total = x := by
  simp [outcome, d100]

theorem evaluate_d100 : d100.evaluate 0 = map d100.outcome (throwAll (d100.throws 0)) := by
  refine evaluate_of_written fun rolls hrolls => ?_
  obtain ⟨x, rfl, hlow, hhigh⟩ := exists_roll_of_shown hrolls
  refine written_of_bytes ⟨by decide, by decide⟩ rfl fun y hy => ?_
  rw [List.mem_singleton.1 hy]
  omega

end DieSpec

/-- The grade of a roll of 00 to 99. -/
def Grade.ofRoll (roll target : Int) : Grade where
  roll := roll
  target := target
  isCritical := isDouble roll
  isSuccess := succeeds roll target
  margin := marginOf roll target
  verdict := verdictOf roll target

theorem Grade.text?_ofRoll {roll target : Int} (hroll : 0 ≤ roll ∧ roll ≤ 99)
    (htarget : 0 ≤ target ∧ target ≤ 999999999) :
    (ofRoll roll target).text? = some (ofRoll roll target).line := by
  have htwelve : 12 ≤ Numeral.maxDigits := by decide
  have hmargin : (marginOf roll target).natAbs < 10 ^ 12 := by
    rw [marginOf]
    split <;> omega
  refine text?_eq_some_iff.2 ⟨forall_mem_numbers.2 ⟨?_, ?_, fun _ => ?_⟩, rfl⟩
  · exact Numeral.isWritable_of_lt_pow htwelve (by simp only [ofRoll]; omega)
  · exact Numeral.isWritable_of_lt_pow htwelve (by simp only [ofRoll]; omega)
  · exact Numeral.isWritable_of_lt_pow htwelve hmargin

namespace Reply

def gradeText (who : String) (order : CheckOrder) (roll : Int) : String :=
  heading "EPD" who order.label ++ (Grade.ofRoll roll order.target).line

theorem checkText_of_range {order : CheckOrder} {roll : Int} (hroll : 0 ≤ roll ∧ roll ≤ 99)
    (htarget : order.target ≤ 999999999) (who : String) :
    checkText who order roll = .ok (gradeText who order roll) := by
  have hgrade : grade roll order.target = .ok (Grade.ofRoll roll order.target) := if_pos hroll
  have htarget' : 0 ≤ (order.target : Int) ∧ (order.target : Int) ≤ 999999999 := by omega
  have hwritten := Grade.text?_ofRoll hroll htarget'
  simp only [checkText, hgrade, hwritten, gradeText]

theorem toCheck_eq_throwAll {order : CheckOrder} (htarget : order.target ≤ 999999999)
    (who : String) :
    toCheck who order = map (fun rolls => gradeText who order (DieSpec.d100.outcome rolls).total)
      (throwAll (DieSpec.d100.throws 0)) := by
  rw [toCheck_eq, DieSpec.evaluate_d100]
  simp only [map, andThen_assoc, give_andThen]
  refine andThen_congr fun s t rolls hrolls => ?_
  obtain ⟨x, rfl, hroll⟩ := DieSpec.exists_roll_of_shown (shown_of_throwAll hrolls)
  rw [DieSpec.total_d100, checkText_of_range hroll htarget]
  rfl

end Reply

theorem checkReply_eq_throwAll (who : String) (args : Option String) :
    checkReply who args =
      match CheckOrder.ofArgs args with
      | .order order =>
        map (fun rolls => some (Reply.gradeText who order (DieSpec.d100.outcome rolls).total))
          (throwAll (DieSpec.d100.throws 0))
      | _ => give none := by
  cases h : CheckOrder.ofArgs args with
  | order order =>
    obtain ⟨word, rest, -, htarget, -⟩ := CheckOrder.words_of_ofArgs h
    rw [checkReply_of_order h, Reply.toCheck_eq_throwAll (Target.le_of_parse htarget)]
    simp only [map, andThen_assoc, give_andThen]
  | nothing => exact checkReply_of_no_order (by simp [h]) who
  | refused fault word => exact checkReply_of_no_order (by simp [h]) who

end Croupier
