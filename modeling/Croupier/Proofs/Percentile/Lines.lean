import Croupier.Percentile.Grade
import Croupier.Proofs.Dice.Traces

/-!
# Croupier.Proofs.Percentile.Lines

Reading the line of a check. Between its spaces stand the roll, `vs`, the target, two dashes, the
words of the label, and the margin in brackets where there is one; a bracket opens nothing else.

* `Grade.pieces_line`: the pieces of a line.
* `CheckLine.roll_line`, `target_line`, `label_line`, `mark?_line`: what is read from them.
* `Grade.margin_infix_iff`: the margins that a line carries.
-/

namespace Croupier

open Trace

/-! ## What a line says -/

namespace CheckLine

def roll (line : String) : Int :=
  Numeral.signedValue ((pieces line).getD 0 "").toList

def target (line : String) : Int :=
  Numeral.signedValue ((pieces line).getD 2 "").toList

/-- A margin is put in brackets. -/
def opensMargin (piece : String) : Bool :=
  piece.toList.head? = some '('

/-- The words after the dashes, up to the margin. -/
def label (line : String) : String :=
  " ".intercalate (((pieces line).drop 4).takeWhile fun piece => !opensMargin piece)

/-- What the margin is marked with, where there is one. -/
def mark? (line : String) : Option String :=
  ((pieces line).drop 4).find? opensMargin

end CheckLine

namespace Grade

/-- The mark of a margin of success or failure. -/
def marked (success : Bool) : String :=
  if success then "MoS" else "MoF"

theorem line_eq (g : Grade) :
    g.line = Numeral.twoPlaces g.roll ++ " vs " ++ Numeral.twoPlaces g.target ++ " -- " ++
      g.verdict.label ++
      if 0 < g.margin then " (" ++ marked g.isSuccess ++ " = " ++ Numeral.ofInt g.margin ++ ")"
      else "" :=
  rfl

/-! ## The pieces of a line -/

theorem pieces_line (g : Grade) :
    pieces g.line =
      Numeral.twoPlaces g.roll :: "vs" :: Numeral.twoPlaces g.target :: "--" ::
        (pieces g.verdict.label ++
          if 0 < g.margin then ["(" ++ marked g.isSuccess, "=", Numeral.ofInt g.margin ++ ")"]
          else []) := by
  have hvs : Avoids ' ' "vs" := by decide
  have hdashes : Avoids ' ' "--" := by decide
  have hroll : Avoids ' ' (Numeral.twoPlaces g.roll) := .twoPlaces rfl _
  have htarget : Avoids ' ' (Numeral.twoPlaces g.target) := .twoPlaces rfl _
  have htext : g.line = Numeral.twoPlaces g.roll ++ (" " ++ "vs" ++ " ") ++
      (Numeral.twoPlaces g.target ++ (" " ++ "--" ++ " ") ++ (g.verdict.label ++
        if 0 < g.margin then " (" ++ marked g.isSuccess ++ " = " ++ Numeral.ofInt g.margin ++ ")"
        else "")) := by
    rw [line_eq]
    simp only [String.append_assoc]
    rfl
  rw [htext, pieces_around hvs, pieces_around hdashes, pieces_of_avoids hroll,
    pieces_of_avoids htarget]
  split
  · have hequals : Avoids ' ' "=" := by decide
    have hmark : Avoids ' ' ("(" ++ marked g.isSuccess) := by
      cases g.isSuccess <;> decide
    have hmargin : Avoids ' ' (Numeral.ofInt g.margin ++ ")") := .append (.ofInt rfl _) (by decide)
    have hshown : g.verdict.label ++
          (" (" ++ marked g.isSuccess ++ " = " ++ Numeral.ofInt g.margin ++ ")") =
        g.verdict.label ++ " " ++ ("(" ++ marked g.isSuccess) ++ (" " ++ "=" ++ " ") ++
          (Numeral.ofInt g.margin ++ ")") := by
      simp only [String.append_assoc]
      rfl
    rw [hshown, pieces_around hequals, pieces_append, pieces_of_avoids hmark,
      pieces_of_avoids hmargin]
    simp
  · simp

end Grade

namespace CheckLine

theorem roll_line (g : Grade) : roll g.line = g.roll := by
  rw [roll, g.pieces_line]
  exact Numeral.signedValue_twoPlaces g.roll

theorem target_line (g : Grade) : target g.line = g.target := by
  rw [target, g.pieces_line]
  exact Numeral.signedValue_twoPlaces g.target

theorem not_opensMargin_of_mem_label {v : Verdict} :
    ∀ piece ∈ pieces v.label, opensMargin piece = false := by
  cases v <;> decide

theorem label_line (g : Grade) : label g.line = g.verdict.label := by
  have hwords : ∀ piece ∈ pieces g.verdict.label, (!opensMargin piece) = true := by
    intro piece hpiece
    rw [not_opensMargin_of_mem_label piece hpiece]
    rfl
  rw [label, g.pieces_line]
  simp only [List.drop_succ_cons, List.drop_zero]
  rw [List.takeWhile_append_of_pos hwords]
  split
  · have hopens : opensMargin ("(" ++ Grade.marked g.isSuccess) = true := by
      cases g.isSuccess <;> rfl
    rw [List.takeWhile_cons_of_neg (by simp [hopens]), List.append_nil, intercalate_pieces]
  · rw [List.takeWhile_nil, List.append_nil, intercalate_pieces]

theorem mark?_line (g : Grade) :
    mark? g.line = if 0 < g.margin then some ("(" ++ Grade.marked g.isSuccess) else none := by
  have hwords : (pieces g.verdict.label).find? opensMargin = none := by
    rw [List.find?_eq_none]
    intro piece hpiece
    simp [not_opensMargin_of_mem_label piece hpiece]
  rw [mark?, g.pieces_line]
  simp only [List.drop_succ_cons, List.drop_zero]
  rw [List.find?_append, hwords, Option.none_or]
  split
  · have hopens : opensMargin ("(" ++ Grade.marked g.isSuccess) = true := by
      cases g.isSuccess <;> rfl
    exact List.find?_cons_of_pos hopens
  · rfl

end CheckLine

/-! ## The margins that a line carries -/

namespace Grade

/-- What stands behind the bracket. -/
def marginText (success : Bool) (m : Int) : List Char :=
  (marked success ++ " = " ++ Numeral.ofInt m ++ ")").toList

theorem toList_margin (success : Bool) (m : Int) :
    ("(" ++ marked success ++ " = " ++ Numeral.ofInt m ++ ")").toList =
      '(' :: marginText success m := by
  simp [marginText]

theorem toList_marked (success : Bool) :
    (marked success).toList = ['M', 'o', if success then 'S' else 'F'] := by
  cases success <;> simp [marked]

theorem marginText_eq (success : Bool) (m : Int) :
    marginText success m = 'M' :: 'o' :: (if success then 'S' else 'F') :: ' ' :: '=' :: ' ' ::
      ((Numeral.ofInt m).toList ++ [')']) := by
  simp [marginText, toList_marked]

/-- A margin is told by the beginning of what stands behind the bracket. -/
theorem eq_of_marginText {success success' : Bool} {m m' : Int} {back : List Char}
    (h : marginText success m = marginText success' m' ++ back) : success = success' ∧ m = m' := by
  have hletter : ∀ b b' : Bool, (if b then 'S' else 'F') = (if b' then 'S' else 'F') → b = b' := by
    decide
  have hclose : ')' ∉ (Numeral.ofInt m).toList := Avoids.ofInt rfl m
  rw [marginText_eq, marginText_eq] at h
  simp only [List.cons_append, List.append_assoc, List.nil_append, List.cons.injEq, true_and] at h
  obtain ⟨hmark, hnumber⟩ := h
  obtain ⟨hdigits, -⟩ := (List.append_cons_inj_of_notMem hclose List.not_mem_nil).1 hnumber
  refine ⟨hletter _ _ hmark, ?_⟩
  rw [← Numeral.signedValue_ofInt m, hdigits, Numeral.signedValue_ofInt]

theorem avoids_label (v : Verdict) : Avoids '(' v.label := by
  cases v <;> decide

/-- A line carries one margin or none. -/
theorem margin_infix_iff (g : Grade) (success : Bool) (m : Int) :
    ("(" ++ marked success ++ " = " ++ Numeral.ofInt m ++ ")").toList <:+: g.line.toList ↔
      g.isSuccess = success ∧ 0 < g.margin ∧ g.margin = m := by
  let front := Numeral.twoPlaces g.roll ++ " vs " ++ Numeral.twoPlaces g.target ++ " -- " ++
    g.verdict.label
  have hfront : Avoids '(' front :=
    .append (.append (.append (.append (.twoPlaces rfl _) (by decide)) (.twoPlaces rfl _))
      (by decide)) (avoids_label _)
  rw [toList_margin]
  by_cases hmargin : 0 < g.margin
  · have htext : g.line.toList =
        (front ++ " ").toList ++ '(' :: marginText g.isSuccess g.margin := by
      rw [line_eq, if_pos hmargin]
      simp [marginText, front]
    rw [htext]
    constructor
    · rintro ⟨before, back, h⟩
      have hspace : '(' ∉ (front ++ " ").toList := Avoids.append hfront (by decide)
      have hinner : '(' ∉ marginText g.isSuccess g.margin :=
        Avoids.append (.append (.append (by cases g.isSuccess <;> decide) (by decide))
          (.ofInt rfl _)) (by decide)
      rw [List.append_assoc, List.cons_append, eq_comm,
        List.append_cons_inj_of_notMem hspace hinner] at h
      obtain ⟨hsuccess, hm⟩ := eq_of_marginText h.2.2
      exact ⟨hsuccess, hmargin, hm⟩
    · rintro ⟨rfl, -, rfl⟩
      exact (List.suffix_append _ _).isInfix
  · -- a line without a margin has no bracket
    have htext : g.line.toList = front.toList := by
      rw [line_eq, if_neg hmargin, String.append_empty]
    rw [htext]
    refine iff_of_false (fun h => ?_) fun h => hmargin h.2.1
    exact hfront (h.subset List.mem_cons_self)

end Grade
end Croupier
