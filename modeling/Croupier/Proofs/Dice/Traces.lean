import Croupier.Proofs.Dice.Headers
import Croupier.Proofs.Throws
import Mathlib.Algebra.Ring.Int.Defs
import Mathlib.Data.List.TakeWhile

/-!
# Croupier.Proofs.Dice.Traces

What a trace tells. Between its spaces stand the header, the mark `::=`, the rolls, and the total
where it is shown, and none of them can be taken for another; so a trace is read from its pieces.

* `rollMany_eq_ok_iff`: rolls are drawn one after another.
* `pieces_trace`: the pieces of a trace.
* `rolls_of_shownRolls`: the rolls are read back from the piece that shows them.
* `trace_tells_outcome`: all that a trace tells.
-/

namespace Croupier

open Entropy Drawing

/-! ## Rolls in order -/

/-- Numbers that are drawn from a source one after another. -/
inductive Draws (sides offset : Int) : Source → List Int → Source → Prop where
  | nil {s : Source} : Draws sides offset s [] s
  | cons {s t u : Source} {roll : Int} {rolls : List Int} :
      uniform sides offset s = (.ok roll, t) → Draws sides offset t rolls u →
        Draws sides offset s (roll :: rolls) u

theorem rollMany_eq_ok_iff {sides offset : Int} {n : Nat} {s t : Source} {rolls : List Int} :
    rollMany sides offset n s = (.ok rolls, t) ↔
      rolls.length = n ∧ Draws sides offset s rolls t := by
  induction n generalizing s rolls with
  | zero =>
    constructor
    · intro h
      cases h
      exact ⟨rfl, .nil⟩
    · rintro ⟨hlength, h⟩
      cases h with
      | nil => rfl
      | cons _ _ => cases hlength
  | succ n ih =>
    rw [rollMany_succ]
    constructor
    · intro h
      obtain ⟨roll, u, hroll, hmap⟩ := ok_of_andThen h
      obtain ⟨rest, hrest, rfl⟩ := ok_of_map hmap
      obtain ⟨hlength, hdraws⟩ := ih.1 hrest
      exact ⟨by rw [List.length_cons, hlength], .cons hroll hdraws⟩
    · rintro ⟨hlength, h⟩
      cases h with
      | nil => cases hlength
      | cons hroll hdraws =>
        have hrest := ih.2 ⟨Nat.succ.inj hlength, hdraws⟩
        rw [andThen_of_ok hroll, map_apply, hrest]
        rfl

theorem Draws.mem_range {spec : DieSpec} {offset : Int} {s t : Source} {rolls : List Int}
    (h : Draws spec.sides offset s rolls t) :
    ∀ x ∈ rolls, offset ≤ x ∧ x ≤ offset + spec.sides - 1 := by
  induction h with
  | nil => exact List.forall_mem_nil _
  | cons hroll _ ih =>
    let die : Throw := ⟨spec.sides, offset, spec.minSides_le, spec.le_maxSides⟩
    have hshows : die.Shows _ := Throw.shows_of_drawing hroll
    exact List.forall_mem_cons.2 ⟨hshows, ih⟩

theorem DieSpec.exists_rolls {spec : DieSpec} {offset : Int} {s t : Source} {o : Outcome}
    (h : spec.evaluate offset s = (.ok o, t)) :
    ∃ rolls, rollMany spec.sides offset spec.count s = (.ok rolls, t) ∧ o = spec.outcome rolls := by
  rw [evaluate_eq] at h
  obtain ⟨rolls, u, hrolls, hwritten⟩ := ok_of_andThen h
  rw [written] at hwritten
  split at hwritten
  · cases hwritten; exact ⟨rolls, hrolls, rfl⟩
  · cases hwritten

/-- What stands in a trace can be written, and so can the header. -/
theorem DieSpec.header?_of_evaluate {spec : DieSpec} {offset : Int} {s t : Source} {o : Outcome}
    (h : spec.evaluate offset s = (.ok o, t)) : spec.header? = some spec.shorthand := by
  rw [evaluate_eq] at h
  obtain ⟨rolls, u, -, hwritten⟩ := ok_of_andThen h
  rw [written] at hwritten
  split at hwritten
  · rename_i htraceable
    simp only [isTraceable, List.all_cons, Bool.and_eq_true] at htraceable
    exact header?_eq_some_iff.2 ⟨⟨htraceable.1, htraceable.2.1⟩, rfl⟩
  · cases hwritten

theorem DieSpec.rolls_ne_nil {spec : DieSpec} {offset : Int} {s t : Source} {rolls : List Int}
    (h : rollMany spec.sides offset spec.count s = (.ok rolls, t)) : rolls ≠ [] := by
  rintro rfl
  exact absurd (rollMany_eq_ok_iff.1 h).1 (Nat.ne_of_lt spec.one_le_count)

/-! ## Rolls as they are shown -/

/-- The rolls as a trace shows them. -/
def DieSpec.shownRolls (spec : DieSpec) (rolls : List Int) : String :=
  let sum := "+".intercalate (rolls.map Numeral.ofInt)
  if spec.bonus = 0 then sum else "(" ++ sum ++ ")" ++ Numeral.signed spec.bonus

theorem DieSpec.trace_eq (spec : DieSpec) (rolls : List Int) (total : Int) :
    spec.trace rolls total = spec.shorthand ++ " ::= " ++ spec.shownRolls rolls ++
      (if spec.bonus ≠ 0 ∨ 1 < spec.count then " = " ++ Numeral.ofInt total else "") :=
  rfl

section Avoided

variable {c : Char} (hc : Numeral.isMark c = false)
include hc

theorem Avoids.sum (rolls : List Int) : Avoids c ("+".intercalate (rolls.map Numeral.ofInt)) := by
  have hplus : c ≠ '+' := by
    rintro rfl
    cases hc
  refine intercalate (by simpa [Avoids] using hplus) ?_
  intro s hs
  obtain ⟨n, -, rfl⟩ := List.mem_map.1 hs
  exact ofInt hc n

theorem Avoids.shownRolls (spec : DieSpec) (hopen : c ≠ '(') (hclose : c ≠ ')')
    (rolls : List Int) : Avoids c (spec.shownRolls rolls) :=
  ite (sum hc rolls) (append (append (append (by simpa [Avoids] using hopen) (sum hc rolls))
    (by simpa [Avoids] using hclose)) (signed hc _))

end Avoided

/-! ## Reading a trace -/

namespace Trace

/-- What stands between the spaces of a text. -/
def pieces (text : String) : List String :=
  (text.toList.splitOn ' ').map String.ofList

/-- What stands in brackets, or everything if there are none. -/
def unbracketed (shown : List Char) : List Char :=
  (shown.filter (· ≠ '(')).takeWhile (· ≠ ')')

/-- The numbers that are shown in what follows the mark. -/
def rolls (back : String) : List Int :=
  let shown := (pieces back).headD ""
  ((unbracketed shown.toList).splitOn '+').map Numeral.signedValue

theorem pieces_of_avoids {text : String} (h : Avoids ' ' text) : pieces text = [text] := by
  rw [pieces, List.splitOn_eq_singleton h, List.map_singleton, String.ofList_toList]

theorem pieces_append (a b : String) : pieces (a ++ " " ++ b) = pieces a ++ pieces b := by
  have hchars : (a ++ " " ++ b).toList = a.toList ++ ' ' :: b.toList := by simp
  rw [pieces, hchars, List.splitOn_append_cons_self, List.map_append]
  rfl

theorem intercalate_pieces (text : String) : " ".intercalate (pieces text) = text := by
  have hchars : (text.toList.splitOn ' ').map (String.toList ∘ String.ofList) =
      text.toList.splitOn ' ' := by simp [Function.comp_def]
  have hspace : " ".toList = [' '] := rfl
  rw [← String.toList_inj, String.toList_intercalate, pieces, List.map_map, hchars, hspace,
    List.intercalate_splitOn]

section Cut

variable {mark : String} (hmark : Avoids ' ' mark)
include hmark

theorem pieces_around (front back : String) :
    pieces (front ++ (" " ++ mark ++ " ") ++ back) = pieces front ++ mark :: pieces back := by
  have hassoc : front ++ (" " ++ mark ++ " ") ++ back = front ++ " " ++ mark ++ " " ++ back := by
    simp only [String.append_assoc]
  rw [hassoc, pieces_append, pieces_append, pieces_of_avoids hmark, List.append_assoc,
    List.singleton_append]

/-- A piece that occurs once shows where a text has to be cut. -/
theorem pieces_of_cut {text front back : String} {before after : List String}
    (h : text = front ++ (" " ++ mark ++ " ") ++ back)
    (htext : pieces text = before ++ mark :: after) (hbefore : mark ∉ before)
    (hafter : mark ∉ after) : pieces front = before ∧ pieces back = after := by
  rw [h, pieces_around hmark, eq_comm, List.append_cons_inj_of_notMem hbefore hafter] at htext
  exact ⟨htext.1.symm, htext.2.2.symm⟩

end Cut

section Brackets

variable {cs : List Char} (hopen : '(' ∉ cs) (hclose : ')' ∉ cs)
include hopen hclose

theorem unbracketed_append (rest : List Char) :
    unbracketed (cs ++ rest) = cs ++ unbracketed rest := by
  have hfilter : cs.filter (· ≠ '(') = cs := by
    rw [List.filter_eq_self]
    intro c hc
    exact decide_eq_true (ne_of_mem_of_not_mem hc hopen)
  rw [unbracketed, List.filter_append, hfilter, List.takeWhile_append_of_pos]
  · rfl
  · intro c hc
    exact decide_eq_true (ne_of_mem_of_not_mem hc hclose)

theorem unbracketed_of_notMem : unbracketed cs = cs := by
  simpa [unbracketed] using unbracketed_append hopen hclose []

theorem unbracketed_brackets (rest : List Char) :
    unbracketed ('(' :: (cs ++ ')' :: rest)) = cs := by
  have hopening : unbracketed ('(' :: (cs ++ ')' :: rest)) = unbracketed (cs ++ ')' :: rest) := rfl
  have hclosing : unbracketed (')' :: rest) = [] := by simp [unbracketed]
  rw [hopening, unbracketed_append hopen hclose, hclosing, List.append_nil]

end Brackets

theorem unbracketed_shownRolls (spec : DieSpec) (numbers : List Int) :
    unbracketed (spec.shownRolls numbers).toList =
      ("+".intercalate (numbers.map Numeral.ofInt)).toList := by
  have hopen : Avoids '(' ("+".intercalate (numbers.map Numeral.ofInt)) := .sum rfl numbers
  have hclose : Avoids ')' ("+".intercalate (numbers.map Numeral.ofInt)) := .sum rfl numbers
  rw [DieSpec.shownRolls]
  split
  · exact unbracketed_of_notMem hopen hclose
  · simpa using unbracketed_brackets hopen hclose (Numeral.signed spec.bonus).toList

/-- The rolls are read back from the piece that shows them. -/
theorem rolls_of_shownRolls {spec : DieSpec} {numbers : List Int} (hne : numbers ≠ [])
    {back : String} {after : List String}
    (h : pieces back = spec.shownRolls numbers :: after) : rolls back = numbers := by
  have hpieces : ∀ digits ∈ (numbers.map Numeral.ofInt).map String.toList, '+' ∉ digits := by
    intro digits hdigits
    simp only [List.mem_map, exists_exists_and_eq_and] at hdigits
    obtain ⟨n, -, rfl⟩ := hdigits
    exact Numeral.plus_notMem_ofInt n
  have hsplit := List.splitOn_intercalate '+' hpieces (by simpa using hne)
  have hsum : ("+".intercalate (numbers.map Numeral.ofInt)).toList =
      ['+'].intercalate ((numbers.map Numeral.ofInt).map String.toList) :=
    String.toList_intercalate
  have hread : (Numeral.signedValue ∘ String.toList) ∘ Numeral.ofInt = id :=
    funext Numeral.signedValue_ofInt
  simp only [rolls]
  rw [h, List.headD_cons, unbracketed_shownRolls, hsum, hsplit, List.map_map, List.map_map, hread,
    List.map_id]

end Trace

/-! ## The pieces of a trace -/

namespace DieSpec

open Trace

theorem pieces_trace (spec : DieSpec) (rolls : List Int) (total : Int) :
    pieces (spec.trace rolls total) =
      [spec.shorthand] ++ "::=" :: spec.shownRolls rolls ::
        if spec.bonus ≠ 0 ∨ 1 < spec.count then ["=", Numeral.ofInt total] else [] := by
  have hmark : Avoids ' ' "::=" := by decide
  have hheader : Avoids ' ' spec.shorthand := spec.avoids_shorthand rfl (by decide)
  have hrolls : Avoids ' ' (spec.shownRolls rolls) :=
    .shownRolls rfl spec (by decide) (by decide) rolls
  have htext : spec.trace rolls total = spec.shorthand ++ (" " ++ "::=" ++ " ") ++
      (spec.shownRolls rolls ++
        if spec.bonus ≠ 0 ∨ 1 < spec.count then " = " ++ Numeral.ofInt total else "") := by
    rw [trace_eq, String.append_assoc]
    rfl
  -- what stands on both sides of the mark has no space but those around the equals sign
  rw [htext, pieces_around hmark, pieces_of_avoids hheader]
  split
  · have hequals : Avoids ' ' "=" := by decide
    have htotal : Avoids ' ' (Numeral.ofInt total) := .ofInt rfl total
    have hshown : spec.shownRolls rolls ++ (" = " ++ Numeral.ofInt total) =
        spec.shownRolls rolls ++ (" " ++ "=" ++ " ") ++ Numeral.ofInt total := by
      rw [String.append_assoc]
      rfl
    rw [hshown, pieces_around hequals, pieces_of_avoids hrolls, pieces_of_avoids htotal]
    rfl
  · rw [String.append_empty, pieces_of_avoids hrolls]

theorem exists_back (spec : DieSpec) (rolls : List Int) (total : Int) :
    ∃ back, spec.trace rolls total = spec.shorthand ++ " ::= " ++ back := by
  rw [trace_eq, String.append_assoc]
  exact ⟨_, rfl⟩

section Reading

variable {spec : DieSpec} {rolls : List Int} {total : Int} {front back : String}

/-- A character that a mark has and the other pieces lack keeps them apart. -/
theorem ne_of_not_avoids {mark : String} {c : Char} (hmark : ¬ Avoids c mark)
    (hc : Numeral.isMark c = false) (hletter : c ≠ 'd') (hopen : c ≠ '(') (hclose : c ≠ ')') :
    mark ≠ spec.shorthand ∧ mark ≠ spec.shownRolls rolls ∧ mark ≠ Numeral.ofInt total := by
  refine ⟨?_, ?_, ?_⟩
  · rintro rfl
    exact hmark (spec.avoids_shorthand hc hletter)
  · rintro rfl
    exact hmark (.shownRolls hc spec hopen hclose rolls)
  · rintro rfl
    exact hmark (.ofInt hc total)

theorem front_of_trace (h : spec.trace rolls total = front ++ " ::= " ++ back) :
    front = spec.shorthand ∧ ∃ after, pieces back = spec.shownRolls rolls :: after := by
  have hmark : Avoids ' ' "::=" := by decide
  have hcolon : ¬ Avoids ':' "::=" := by decide
  obtain ⟨hheader, hrolls, htotal⟩ : "::=" ≠ spec.shorthand ∧ "::=" ≠ spec.shownRolls rolls ∧
      "::=" ≠ Numeral.ofInt total :=
    ne_of_not_avoids hcolon rfl (by decide) (by decide) (by decide)
  have hafter : "::=" ∉ spec.shownRolls rolls ::
      if spec.bonus ≠ 0 ∨ 1 < spec.count then ["=", Numeral.ofInt total] else [] := by
    split
    · simp [hrolls, htotal]
    · simp [hrolls]
  obtain ⟨hfront, hback⟩ :=
    pieces_of_cut hmark h (spec.pieces_trace rolls total) (by simpa using hheader) hafter
  refine ⟨?_, _, hback⟩
  rw [← intercalate_pieces front, hfront, String.intercalate_singleton]

theorem back_of_trace (h : spec.trace rolls total = front ++ " = " ++ back) :
    (spec.bonus ≠ 0 ∨ 1 < spec.count) ∧ back = Numeral.ofInt total := by
  have hmark : Avoids ' ' "=" := by decide
  have hequals : ¬ Avoids '=' "=" := by decide
  obtain ⟨hheader, hrolls, htotal⟩ : "=" ≠ spec.shorthand ∧ "=" ≠ spec.shownRolls rolls ∧
      "=" ≠ Numeral.ofInt total :=
    ne_of_not_avoids hequals rfl (by decide) (by decide) (by decide)
  have hpieces := spec.pieces_trace rolls total
  split at hpieces
  · rename_i hshows
    have hcut : pieces (spec.trace rolls total) =
        [spec.shorthand, "::=", spec.shownRolls rolls] ++ "=" :: [Numeral.ofInt total] := hpieces
    obtain ⟨-, hback⟩ := pieces_of_cut hmark h hcut (by simp [hheader, hrolls])
      (by simpa using htotal)
    refine ⟨hshows, ?_⟩
    rw [← intercalate_pieces back, hback, String.intercalate_singleton]
  · -- where no total is shown, no piece is the equals sign
    have hmem : "=" ∈ pieces (front ++ (" " ++ "=" ++ " ") ++ back) := by
      rw [pieces_around hmark]
      exact List.mem_append_right _ List.mem_cons_self
    have htext : spec.trace rolls total = front ++ (" " ++ "=" ++ " ") ++ back := h
    rw [← htext, hpieces] at hmem
    simp [hheader, hrolls] at hmem

theorem exists_total_iff :
    (∃ front back, spec.trace rolls total = front ++ " = " ++ back) ↔
      spec.bonus ≠ 0 ∨ 1 < spec.count := by
  constructor
  · rintro ⟨front, back, h⟩
    exact (back_of_trace h).1
  · intro hshows
    refine ⟨spec.shorthand ++ " ::= " ++ spec.shownRolls rolls, Numeral.ofInt total, ?_⟩
    simp only [trace_eq, if_pos hshows, String.append_assoc]

end Reading

/-- What was drawn, and that the trace tells it. The rolls lie on the sides of the dice, and their
sum and the bonus make the total. However a trace is cut at the mark, the header stands in front of
it and the rolls are read from behind it; a total stands at the end if there is a bonus or more than
one roll. Outcomes with the same trace have the same specification, rolls and total. -/
theorem trace_tells_outcome {spec : DieSpec} {offset : Int} {s t : Source} {o : Outcome}
    (h : spec.evaluate offset s = (.ok o, t)) :
    (o.rolls.length = spec.count ∧ Draws spec.sides offset s o.rolls t) ∧
      (∀ x ∈ o.rolls, offset ≤ x ∧ x ≤ offset + spec.sides - 1) ∧
      o.total = o.rolls.sum + spec.bonus ∧
      (∃ header, spec.header? = some header ∧ (∃ back, o.trace = header ++ " ::= " ++ back) ∧
        ∀ front back, o.trace = front ++ " ::= " ++ back →
          front = header ∧ Trace.rolls back = o.rolls) ∧
      ((∃ front back, o.trace = front ++ " = " ++ back) ↔ spec.bonus ≠ 0 ∨ 1 < spec.count) ∧
      (∀ front back, o.trace = front ++ " = " ++ back → back = Numeral.ofInt o.total) ∧
      ∀ (spec' : DieSpec) (offset' : Int) (s' t' : Source) (o' : Outcome),
        spec'.evaluate offset' s' = (.ok o', t') → o'.trace = o.trace →
          spec' = spec ∧ o'.rolls = o.rolls ∧ o'.total = o.total := by
  obtain ⟨rolls, hrolls, rfl⟩ := exists_rolls h
  obtain ⟨hlength, hdraws⟩ := rollMany_eq_ok_iff.1 hrolls
  have htotal : (spec.outcome rolls).total = rolls.sum + spec.bonus := rfl
  have hread : ∀ front back, spec.trace rolls (spec.outcome rolls).total =
      front ++ " ::= " ++ back → front = spec.shorthand ∧ Trace.rolls back = rolls := by
    intro front back hcut
    obtain ⟨hfront, after, hback⟩ := front_of_trace hcut
    exact ⟨hfront, rolls_of_shownRolls (rolls_ne_nil hrolls) hback⟩
  refine ⟨⟨hlength, hdraws⟩, hdraws.mem_range, htotal,
    ⟨_, header?_of_evaluate h, spec.exists_back _ _, hread⟩, exists_total_iff,
    fun front back hcut => (back_of_trace hcut).2, ?_⟩
  intro spec' offset' s' t' o' h' htrace
  obtain ⟨rolls', hrolls', rfl⟩ := exists_rolls h'
  -- the other trace is cut where this one is
  obtain ⟨back, hback⟩ := spec'.exists_back rolls' (spec'.outcome rolls').total
  obtain ⟨-, after, hafter⟩ := front_of_trace hback
  obtain ⟨hheader, hsame⟩ := hread spec'.shorthand back (htrace.symm.trans hback)
  obtain rfl : spec' = spec := shorthand_injective hheader
  have hshown : Trace.rolls back = rolls' := rolls_of_shownRolls (rolls_ne_nil hrolls') hafter
  rw [← hshown, hsame]
  exact ⟨rfl, rfl, rfl⟩

/-- A roll below zero, whose sign stands behind a plus sign. -/
theorem trace_tells_outcome_negative_roll :
    let spec : DieSpec := ⟨2, 6, -3, by decide, by decide, by decide⟩
    let s : Source := .fresh 1 (by decide) (.stream [3, 0])
    ∃ o t, spec.evaluate (-1) s = (.ok o, t) ∧ o.trace = "2d6-3 ::= (2+-1)-3 = -2" ∧
      Trace.rolls "(2+-1)-3 = -2" = [2, -1] := by
  intro spec s
  let o : Outcome := ⟨[2, -1], -3, -2, "2d6-3 ::= (2+-1)-3 = -2"⟩
  have hrolled : (spec.evaluate (-1) s).1 = .ok o := by decide +kernel
  have hevaluate : spec.evaluate (-1) s = (.ok o, (spec.evaluate (-1) s).2) :=
    Prod.ext hrolled rfl
  obtain ⟨-, -, -, ⟨header, -, -, hread⟩, -⟩ := trace_tells_outcome hevaluate
  exact ⟨o, _, hevaluate, rfl, (hread "2d6-3" "(2+-1)-3 = -2" rfl).2⟩

end DieSpec
end Croupier
