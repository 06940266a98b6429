import Croupier.Proofs.Percentile.Lines

/-!
# Croupier.Proofs.Percentile.Grades

Grades are in order. With a minus sign for failures the margin is the distance of the target from
the roll, but for a 99 that fails at or below its target; so it goes up with the target and down
with the roll, and the label goes up its ladder with it.

* `grade_eq_ok_iff`: which rolls are graded.
* `Grade.signedMargin_ofRoll`: the margin with its sign.
* `Grade.rung_mono`: a higher target never makes for a worse label.
* `Grade.text?_ofRoll_eq_none_iff`: which grades have a line.
* `grades_in_order`: all of this, and that a line tells roll and target.
-/

namespace Croupier

theorem grade_eq_ok_iff {roll target : Int} {g : Grade} :
    grade roll target = .ok g ↔ (0 ≤ roll ∧ roll ≤ 99) ∧ g = Grade.ofRoll roll target := by
  unfold grade
  split
  · rename_i hroll
    constructor
    · intro h
      cases h
      exact ⟨hroll, rfl⟩
    · rintro ⟨-, rfl⟩
      rfl
  · rename_i hroll
    constructor
    · intro h
      cases h
    · rintro ⟨hroll', -⟩
      exact absurd hroll' hroll

namespace Grade

/-! ## Margins -/

/-- The margin, below zero for a failure. -/
def signedMargin (g : Grade) : Int :=
  if g.isSuccess then g.margin else -g.margin

theorem succeeds_iff {roll target : Int} : succeeds roll target = true ↔ roll ≤ target ∧ roll ≠ 99 := by
  simp [succeeds]

theorem marginOf_nonneg (roll target : Int) : 0 ≤ marginOf roll target := by
  unfold marginOf
  split
  · rename_i h
    have := (succeeds_iff.1 h).1
    omega
  · omega

theorem signedMargin_ofRoll {roll : Int} (hroll : roll ≤ 99) (target : Int) :
    (ofRoll roll target).signedMargin = if roll = 99 ∧ 99 ≤ target then 0 else target - roll := by
  by_cases h : succeeds roll target = true
  · obtain ⟨hle, hne⟩ := succeeds_iff.1 h
    simp only [signedMargin, ofRoll, marginOf, h, if_true]
    rw [if_neg fun hlast => hne hlast.1]
  · have hfails : ¬ (roll ≤ target ∧ roll ≠ 99) := fun hle => h (succeeds_iff.2 hle)
    simp only [signedMargin, ofRoll, marginOf, h, if_false, Bool.false_eq_true]
    split <;> omega

section Order

variable {roll roll' target target' : Int}

theorem signedMargin_mono_target (hroll : roll ≤ 99) (h : target ≤ target') :
    (ofRoll roll target).signedMargin ≤ (ofRoll roll target').signedMargin := by
  rw [signedMargin_ofRoll hroll, signedMargin_ofRoll hroll]
  split <;> split <;> omega

theorem signedMargin_anti_roll (hroll : roll' ≤ 99) (h : roll ≤ roll') :
    (ofRoll roll' target).signedMargin ≤ (ofRoll roll target).signedMargin := by
  rw [signedMargin_ofRoll hroll, signedMargin_ofRoll (Int.le_trans h hroll)]
  split <;> split <;> omega

end Order

/-! ## Labels -/

/-- The labels that a roll can get, the worst first. -/
def ladder (roll : Int) : List String :=
  if roll = 99 then ["ULTIMATE FAILURE!!"]
  else if roll = 0 then ["CRITICAL FAILURE", "ULTIMATE SUCCESS!!!"]
  else if roll % 11 = 0 then ["CRITICAL FAILURE", "CRITICAL SUCCESS!!!"]
  else ["Severe Failure", "Failure", "Success!", "Excellent Success!"]

/-- How far up the ladder of its roll a grade stands. -/
def rung (g : Grade) : Nat :=
  (ladder g.roll).idxOf g.verdict.label

section Verdicts

variable {roll : Int} (target : Int)

theorem verdictOf_ninetyNine : verdictOf 99 target = .ultimateFailure := by
  simp [verdictOf, succeeds]

theorem verdictOf_zero :
    verdictOf 0 target = if 0 ≤ target then .ultimateSuccess else .criticalFailure := by
  simp [verdictOf, succeeds, isDouble]

theorem verdictOf_of_double (hdouble : roll % 11 = 0) (hzero : roll ≠ 0) (hlast : roll ≠ 99) :
    verdictOf roll target = if roll ≤ target then .criticalSuccess else .criticalFailure := by
  simp [verdictOf, succeeds, isDouble, hdouble, hzero, hlast]

theorem verdictOf_of_not_double (hdouble : roll % 11 ≠ 0) :
    verdictOf roll target =
      if target ≤ roll - 30 then .severeFailure
      else if target < roll then .failure
      else if target < roll + 30 then .success
      else .excellentSuccess := by
  have hzero : roll ≠ 0 := by omega
  have hlast : roll ≠ 99 := by omega
  by_cases hle : roll ≤ target
  · have hsucceeds : succeeds roll target = true := succeeds_iff.2 ⟨hle, hlast⟩
    rw [if_neg (by omega), if_neg (by omega)]
    simp only [verdictOf, marginOf, wideMargin, hsucceeds, isDouble, hzero, hdouble, if_true, if_false,
      decide_false, Bool.false_eq_true]
    split <;> split <;> first | rfl | omega
  · have hfails : ¬ succeeds roll target = true := fun h => hle (succeeds_iff.1 h).1
    simp only [verdictOf, marginOf, wideMargin, hfails, isDouble, hlast, hdouble, if_false,
      decide_false, Bool.false_eq_true]
    rw [if_pos (show target < roll by omega)]
    split <;> split <;> first | rfl | omega

end Verdicts

theorem rung_ofRoll (roll target : Int) :
    (ofRoll roll target).rung =
      if roll = 99 then 0
      else if roll % 11 = 0 then (if roll ≤ target then 1 else 0)
      else if target ≤ roll - 30 then 0
      else if target < roll then 1
      else if target < roll + 30 then 2
      else 3 := by
  simp only [rung, ofRoll]
  by_cases hlast : roll = 99
  · rw [if_pos hlast, hlast, verdictOf_ninetyNine]
    decide
  rw [if_neg hlast]
  by_cases hdouble : roll % 11 = 0
  · rw [if_pos hdouble]
    by_cases hzero : roll = 0
    · rw [hzero, verdictOf_zero]
      split <;> decide
    · have hladder : ladder roll = ["CRITICAL FAILURE", "CRITICAL SUCCESS!!!"] := by
        simp [ladder, hlast, hzero, hdouble]
      rw [hladder, verdictOf_of_double target hdouble hzero hlast]
      split <;> decide
  · have hzero : roll ≠ 0 := by omega
    have hladder : ladder roll =
        ["Severe Failure", "Failure", "Success!", "Excellent Success!"] := by
      simp [ladder, hlast, hzero, hdouble]
    rw [if_neg hdouble, hladder, verdictOf_of_not_double target hdouble]
    split
    · decide
    split
    · decide
    split <;> decide

theorem length_ladder (roll : Int) :
    (ladder roll).length = if roll = 99 then 1 else if roll % 11 = 0 then 2 else 4 := by
  unfold ladder
  split_ifs <;> first | rfl | omega

theorem rung_lt (roll target : Int) : (ofRoll roll target).rung < (ladder roll).length := by
  rw [rung_ofRoll, length_ladder]
  split_ifs <;> omega

/-- Each label of a roll is on its ladder. -/
theorem label_mem_ladder (roll target : Int) :
    (verdictOf roll target).label ∈ ladder roll :=
  List.idxOf_lt_length_iff.1 (rung_lt roll target)

/-- A higher target never makes for a worse label. -/
theorem rung_mono {roll target target' : Int} (h : target ≤ target') :
    (ofRoll roll target).rung ≤ (ofRoll roll target').rung := by
  rw [rung_ofRoll, rung_ofRoll]
  split_ifs <;> omega

/-! ## Lines -/

/-- A line tells the roll and the target. -/
theorem line_inj {g g' : Grade} (h : g.line = g'.line) : g.roll = g'.roll ∧ g.target = g'.target := by
  rw [← CheckLine.roll_line g, ← CheckLine.target_line g, h, CheckLine.roll_line,
    CheckLine.target_line]
  exact ⟨rfl, rfl⟩

/-- A roll is short, so it is the target or the margin that is too long for a line. -/
theorem text?_ofRoll_eq_none_iff {roll : Int} (hroll : 0 ≤ roll ∧ roll ≤ 99) (target : Int) :
    (ofRoll roll target).text? = none ↔ Numeral.isWritable target = false ∨
      0 < (ofRoll roll target).margin ∧
        Numeral.isWritable (ofRoll roll target).margin = false := by
  have hshort : Numeral.isWritable roll = true :=
    Numeral.isWritable_of_lt_pow (k := 2) (by decide) (by omega)
  have hnumbers := forall_mem_numbers (g := ofRoll roll target)
    (P := fun n => Numeral.isWritable n = true)
  rw [text?, Numeral.writing?_eq_none_iff, ← not_iff_not]
  simp only [not_exists, not_and, Bool.not_eq_false, not_or]
  rw [hnumbers]
  exact and_iff_right hshort

end Grade

open Grade Numeral in
/-- Every roll of 00 to 99 is graded against every target, and the grades are in order. Each has its
line, unless the target or the margin in it is too long to be written; a line carries the margin of
its grade and tells roll and target. -/
theorem grades_in_order {roll : Int} (hroll : 0 ≤ roll ∧ roll ≤ 99) (target : Int) :
    ∃ g, grade roll target = .ok g ∧
      0 ≤ g.margin ∧
      g.signedMargin = (if roll = 99 ∧ 99 ≤ target then 0 else target - roll) ∧
      g.verdict.label ∈ ladder roll ∧
      (∀ target' g', grade roll target' = .ok g' → target ≤ target' →
        g.signedMargin ≤ g'.signedMargin ∧
        (ladder roll).idxOf g.verdict.label ≤ (ladder roll).idxOf g'.verdict.label) ∧
      (∀ roll' g', grade roll' target = .ok g' → roll ≤ roll' →
        g'.signedMargin ≤ g.signedMargin) ∧
      (g.text? = none ↔
        isWritable target = false ∨ 0 < g.margin ∧ isWritable g.margin = false) ∧
      ∀ text, g.text? = some text →
        (∀ m, ("(MoS = " ++ ofInt m ++ ")").toList <:+: text.toList ↔
          g.isSuccess = true ∧ 0 < g.margin ∧ g.margin = m) ∧
        (∀ m, ("(MoF = " ++ ofInt m ++ ")").toList <:+: text.toList ↔
          g.isSuccess = false ∧ 0 < g.margin ∧ g.margin = m) ∧
        ∀ roll' target' g', grade roll' target' = .ok g' → g'.text? = some text →
          roll' = roll ∧ target' = target := by
  refine ⟨ofRoll roll target, grade_eq_ok_iff.2 ⟨hroll, rfl⟩, marginOf_nonneg _ _,
    signedMargin_ofRoll hroll.2 target, label_mem_ladder _ _, ?_, ?_,
    text?_ofRoll_eq_none_iff hroll target, ?_⟩
  · intro target' g' hg' hle
    obtain ⟨-, rfl⟩ := grade_eq_ok_iff.1 hg'
    exact ⟨signedMargin_mono_target hroll.2 hle, rung_mono hle⟩
  · intro roll' g' hg' hle
    obtain ⟨hroll', rfl⟩ := grade_eq_ok_iff.1 hg'
    exact signedMargin_anti_roll hroll'.2 hle
  · intro text htext
    obtain ⟨-, rfl⟩ := text?_eq_some_iff.1 htext
    refine ⟨(ofRoll roll target).margin_infix_iff true,
      (ofRoll roll target).margin_infix_iff false, ?_⟩
    intro roll' target' g' hg' htext'
    obtain ⟨-, rfl⟩ := grade_eq_ok_iff.1 hg'
    exact line_inj (text?_eq_some_iff.1 htext').2

theorem grades_in_order_ninetyNine :
    (0 ≤ (99 : Int) ∧ (99 : Int) ≤ 99) ∧
      ∃ g, grade 99 120 = .ok g ∧ g.signedMargin = 0 ∧
        g.verdict.label = "ULTIMATE FAILURE!!" := by
  have hroll : 0 ≤ (99 : Int) ∧ (99 : Int) ≤ 99 := by decide
  obtain ⟨g, hg, -, hmargin, hlabel, -⟩ := grades_in_order hroll 120
  refine ⟨hroll, g, hg, hmargin, ?_⟩
  have hladder : Grade.ladder 99 = ["ULTIMATE FAILURE!!"] := rfl
  rw [hladder, List.mem_singleton] at hlabel
  exact hlabel

/-- Twenty fails a target of 4300 nines below zero by a margin of 4301 digits: the target can be
written, but the grade has no line, and so none that carries the margin. -/
theorem no_line_of_long_margin :
    Numeral.isWritable (1 - (Nat.pow 10 Numeral.maxDigits : Nat)) = true ∧
      ∃ g, grade 20 (1 - (Nat.pow 10 Numeral.maxDigits : Nat)) = .ok g ∧
        g.isSuccess = false ∧ 0 < g.margin ∧
        ¬ ∃ text, g.text? = some text ∧
          ("(MoF = " ++ Numeral.ofInt g.margin ++ ")").toList <:+: text.toList := by
  have hpos := Numeral.pow_maxDigits_pos
  have hlong : ∀ n : Int, Nat.pow 10 Numeral.maxDigits ≤ n.natAbs →
      Numeral.isWritable n = false := fun _ => Numeral.isWritable_eq_false_iff.2
  rw [Numeral.isWritable_iff]
  generalize Nat.pow 10 Numeral.maxDigits = p at hpos hlong ⊢
  have hfails : Grade.succeeds 20 (1 - p) = false := by
    rw [Bool.eq_false_iff, ne_eq, Grade.succeeds_iff]
    omega
  have hmargin : (Grade.ofRoll 20 (1 - p)).margin = 19 + p := by
    simp only [Grade.ofRoll, Grade.marginOf, hfails, Bool.false_eq_true, if_false]
    omega
  refine ⟨by omega, Grade.ofRoll 20 (1 - p), grade_eq_ok_iff.2 ⟨by decide, rfl⟩, hfails,
    by rw [hmargin]; omega, ?_⟩
  rintro ⟨text, htext, -⟩
  have hnone : (Grade.ofRoll 20 (1 - p)).text? = none :=
    (Grade.text?_ofRoll_eq_none_iff (by decide) _).2 <| .inr <| by
      rw [hmargin]
      exact ⟨by omega, hlong _ (by omega)⟩
  rw [hnone] at htext
  cases htext

end Croupier
