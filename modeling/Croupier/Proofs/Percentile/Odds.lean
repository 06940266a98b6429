import Croupier.Proofs.Fairness
import Croupier.Proofs.Percentile.Grades
import Mathlib.Data.Int.Interval

/-!
# Croupier.Proofs.Percentile.Odds

The odds of a check. Of all byte strings of a length, `Answers who args bytes reply` picks those
that are used up by the check; each roll is had from equally many of them, and so a check succeeds
with as many rolls as its target says, but for the 99.

* `answers_iff`: an answer comes from one throw of the percentile die.
* `ncard_rolls`: the byte strings that come to a roll out of a set.
* `check_odds`: the odds.
-/

namespace Croupier

open Entropy Drawing

/-! ## Lines of successes -/

namespace CheckLine

def successLabels : List String :=
  ["ULTIMATE SUCCESS!!!", "CRITICAL SUCCESS!!!", "Excellent Success!", "Success!"]

/-- The label is that of a success, and so is the mark of the margin. -/
def ReportsSuccess (line : String) : Prop :=
  label line ∈ successLabels ∧ ∀ mark ∈ mark? line, mark = "(MoS"

theorem label_mem_successLabels {roll target : Int} :
    (Grade.verdictOf roll target).label ∈ successLabels ↔ Grade.succeeds roll target = true := by
  unfold Grade.verdictOf
  split
  · rename_i h
    refine iff_of_true ?_ h
    split_ifs <;> decide
  · rename_i h
    refine iff_of_false ?_ h
    split_ifs <;> decide

theorem reportsSuccess_line {roll target : Int} :
    ReportsSuccess (Grade.ofRoll roll target).line ↔ roll ≤ target ∧ roll ≠ 99 := by
  rw [← Grade.succeeds_iff, ReportsSuccess, label_line, mark?_line]
  constructor
  · exact fun h => label_mem_successLabels.1 h.1
  · intro h
    refine ⟨label_mem_successLabels.2 h, fun mark hmark => ?_⟩
    split at hmark
    · cases hmark
      simp only [Grade.ofRoll, h]
      rfl
    · cases hmark

end CheckLine

/-! ## Answers -/

/-- Over a source that gives `bytes` byte by byte, the check is answered with `reply` and the bytes
are used up. -/
def Answers (who : String) (args : Option String) (bytes : List UInt8) (reply : String) : Prop :=
  ∃ t, checkReply who args (.fresh 1 Nat.one_pos (.stream bytes)) = (.ok (some reply), t) ∧
    t.unread = [] ∧ t.supply.provider = .stream []

theorem answers_iff {who : String} {args : Option String} {order : CheckOrder}
    (horder : CheckOrder.ofArgs args = .order order) {bytes : List UInt8} {reply : String} :
    Answers who args bytes reply ↔
      ∃ x, (0 ≤ x ∧ x ≤ 99) ∧ Returns (DieSpec.d100.throws 0) bytes [x] ∧
        reply = Reply.gradeText who order x := by
  have hcheck := checkReply_eq_throwAll who args
  simp only [horder] at hcheck
  rw [Answers, hcheck]
  constructor
  · rintro ⟨t, ht, hused⟩
    obtain ⟨rolls, hrolls, hreply⟩ := ok_of_map ht
    obtain ⟨x, rfl, hx⟩ := DieSpec.exists_roll_of_shown (shown_of_throwAll hrolls)
    rw [DieSpec.total_d100] at hreply
    exact ⟨x, hx, ⟨t, hrolls, hused⟩, (Option.some.inj hreply).symm⟩
  · rintro ⟨x, -, ⟨t, ht, hused⟩, rfl⟩
    refine ⟨t, ?_, hused⟩
    rw [map_apply, ht, Except.map, DieSpec.total_d100]

theorem exists_line_of_answers {who : String} {args : Option String} {order : CheckOrder}
    (horder : CheckOrder.ofArgs args = .order order) {bytes : List UInt8} {reply : String}
    (h : Answers who args bytes reply) :
    ∃ line, reply = Reply.heading "EPD" who order.label ++ line := by
  obtain ⟨x, -, -, htext⟩ := (answers_iff horder).1 h
  exact ⟨_, htext⟩

/-! ## Counting -/

/-- A roll is shown by two bytes, and 56 bytes are rejected. -/
theorem ways_d100 (n : Nat) : ways (DieSpec.d100.throws 0) (n + 1) = 2 * 56 ^ n := by
  induction n with
  | zero => rfl
  | succ n ih =>
    have hstep : ways (DieSpec.d100.throws 0) (n + 1 + 1) =
        2 * 0 + 56 * ways (DieSpec.d100.throws 0) (n + 1) := rfl
    rw [hstep, ih]
    ring

theorem ncard_rolls {rolls : Finset Int} (h : ∀ x ∈ rolls, 0 ≤ x ∧ x ≤ 99) (n : Nat) :
    {bytes : List UInt8 | bytes.length = n + 1 ∧
      ∃ x ∈ rolls, Returns (DieSpec.d100.throws 0) bytes [x]}.ncard =
      rolls.card * (2 * 56 ^ n) := by
  let coming (x : Int) : Set (List UInt8) :=
    {bytes | bytes.length = n + 1 ∧ Returns (DieSpec.d100.throws 0) bytes [x]}
  have hunion : {bytes : List UInt8 | bytes.length = n + 1 ∧
      ∃ x ∈ rolls, Returns (DieSpec.d100.throws 0) bytes [x]} =
      ⋃ x ∈ (rolls : Set Int), coming x := by
    ext bytes
    simp [coming]
  have hfinite : ∀ x ∈ (rolls : Set Int), (coming x).Finite := fun x _ =>
    (List.finite_length_eq UInt8 (n + 1)).subset fun _ h => h.1
  have hdisjoint : (rolls : Set Int).PairwiseDisjoint coming := by
    intro x _ y _ hne
    refine Set.disjoint_left.2 fun bytes hx hy => hne ?_
    exact List.singleton_inj.1 (hx.2.unique hy.2)
  have hcount : ∀ x ∈ rolls, (coming x).ncard = 2 * 56 ^ n := by
    intro x hx
    have hshows : List.Forall₂ Throw.Shows (DieSpec.d100.throws 0) [x] := by
      refine .cons ⟨(h x hx).1, ?_⟩ .nil
      have := (h x hx).2
      simp only [DieSpec.d100]
      omega
    rw [← ways_d100 n]
    exact ncard_returns hshows (n + 1)
  rw [hunion, rolls.finite_toSet.ncard_biUnion hfinite hdisjoint, finsum_mem_coe_finset,
    Finset.sum_const_nat hcount]

/-- The answers whose lines have a property are counted by the rolls whose lines have it. -/
theorem ncard_answers {who : String} {args : Option String} {order : CheckOrder}
    (horder : CheckOrder.ofArgs args = .order order) {P : String → Prop} {rolls : Finset Int}
    (hrolls : ∀ x, x ∈ rolls ↔ (0 ≤ x ∧ x ≤ 99) ∧ P (Grade.ofRoll x order.target).line) (n : Nat) :
    {bytes : List UInt8 | bytes.length = n + 1 ∧ ∃ line,
      Answers who args bytes (Reply.heading "EPD" who order.label ++ line) ∧ P line}.ncard =
      rolls.card * (2 * 56 ^ n) := by
  rw [← ncard_rolls (fun x hx => ((hrolls x).1 hx).1) n]
  congr 1
  ext bytes
  refine and_congr_right fun _ => ?_
  constructor
  · rintro ⟨line, hanswers, hline⟩
    obtain ⟨x, hx, hreturns, htext⟩ := (answers_iff horder).1 hanswers
    obtain rfl := (String.append_right_inj _).1 htext
    exact ⟨x, (hrolls x).2 ⟨hx, hline⟩, hreturns⟩
  · rintro ⟨x, hx, hreturns⟩
    obtain ⟨hrange, hline⟩ := (hrolls x).1 hx
    exact ⟨_, (answers_iff horder).2 ⟨x, hrange, hreturns, rfl⟩, hline⟩

/-- The odds of a check. Over all byte strings of a length that the check uses up, it succeeds with
`min (target + 1) 99` rolls of a hundred, and each roll is had equally often. -/
theorem check_odds (who : String) {args : Option String} {word : String} {rest : List String}
    (hargs : commandWords args = word :: rest) {target : Nat}
    (htarget : Target.parse (some word) = .ok target) {length : Nat} (hlength : 1 ≤ length) :
    (∀ bytes reply, Answers who args bytes reply →
        ∃ line, reply = Reply.heading "EPD" who (labelOf rest) ++ line) ∧
      {bytes : List UInt8 | bytes.length = length ∧ ∃ reply, Answers who args bytes reply}.ncard =
        200 * 56 ^ (length - 1) ∧
      {bytes : List UInt8 | bytes.length = length ∧ ∃ line,
        Answers who args bytes (Reply.heading "EPD" who (labelOf rest) ++ line) ∧
          CheckLine.ReportsSuccess line}.ncard =
        2 * min (target + 1) 99 * 56 ^ (length - 1) ∧
      ∀ roll : Int, 0 ≤ roll ∧ roll ≤ 99 →
        {bytes : List UInt8 | bytes.length = length ∧ ∃ line,
          Answers who args bytes (Reply.heading "EPD" who (labelOf rest) ++ line) ∧
            CheckLine.roll line = roll}.ncard =
          2 * 56 ^ (length - 1) := by
  obtain ⟨n, rfl⟩ : ∃ n, length = n + 1 := ⟨length - 1, by omega⟩
  rw [Nat.add_sub_cancel]
  have horder := CheckOrder.ofArgs_of_words hargs htarget
  refine ⟨fun _ _ => exists_line_of_answers horder, ?_, ?_, fun roll hroll => ?_⟩
  · have hline : ∀ bytes, (∃ reply, Answers who args bytes reply) ↔
        ∃ line, Answers who args bytes (Reply.heading "EPD" who (labelOf rest) ++ line) ∧ True := by
      intro bytes
      constructor
      · rintro ⟨reply, h⟩
        obtain ⟨line, rfl⟩ := exists_line_of_answers horder h
        exact ⟨line, h, trivial⟩
      · rintro ⟨line, h, -⟩
        exact ⟨_, h⟩
    have hall : ∀ x, x ∈ Finset.Icc (0 : Int) 99 ↔ (0 ≤ x ∧ x ≤ 99) ∧ True := by simp
    have hcard : (Finset.Icc (0 : Int) 99).card = 100 := rfl
    simp only [hline]
    rw [ncard_answers horder hall, hcard]
    ring
  · have hsuccess : ∀ x, x ∈ Finset.Icc (0 : Int) (min target 98) ↔
        (0 ≤ x ∧ x ≤ 99) ∧ CheckLine.ReportsSuccess (Grade.ofRoll x target).line := by
      intro x
      rw [CheckLine.reportsSuccess_line, Finset.mem_Icc]
      omega
    have hcard : (min (target : Int) 98 + 1 - 0).toNat = min (target + 1) 99 := by omega
    rw [ncard_answers horder hsuccess, Int.card_Icc, hcard]
    ring
  · have hroll' : ∀ x, x ∈ ({roll} : Finset Int) ↔
        (0 ≤ x ∧ x ≤ 99) ∧ CheckLine.roll (Grade.ofRoll x target).line = roll := by
      intro x
      rw [CheckLine.roll_line, Finset.mem_singleton]
      constructor
      · rintro rfl
        exact ⟨hroll, rfl⟩
      · exact fun h => h.2
    rw [ncard_answers horder hroll', Finset.card_singleton, Nat.one_mul]

/-- A target of 50 over strings of two bytes. -/
theorem check_odds_fifty :
    commandWords (some "50 listen") = ["50", "listen"] ∧ Target.parse (some "50") = .ok 50 ∧
      1 ≤ 2 ∧
      {bytes : List UInt8 | bytes.length = 2 ∧
        ∃ reply, Answers "Nobody" (some "50 listen") bytes reply}.ncard = 11200 ∧
      {bytes : List UInt8 | bytes.length = 2 ∧ ∃ line,
        Answers "Nobody" (some "50 listen") bytes
            (Reply.heading "EPD" "Nobody" (some "listen") ++ line) ∧
          CheckLine.ReportsSuccess line}.ncard = 5712 := by
  have hargs : commandWords (some "50 listen") = ["50", "listen"] := by decide
  have htarget : Target.parse (some "50") = .ok 50 := by decide
  obtain ⟨-, hall, hsuccess, -⟩ := check_odds "Nobody" hargs htarget (show 1 ≤ 2 by decide)
  exact ⟨hargs, htarget, by decide, hall, hsuccess⟩

end Croupier
