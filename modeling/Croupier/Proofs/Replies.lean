import Croupier.Proofs.Dice.Traces
import Croupier.Proofs.Text.Words
import Mathlib.Data.List.Forall2

/-!
# Croupier.Proofs.Replies

What replies are made of. A reply to a dice order has a line for each outcome, a reply to a check
is one line, and as long as the name of the player is one line no other newline gets in: neither
the words of a label nor numbers have any.

* `exists_outcomes`, `exists_grade`: a reply comes from an order and what was drawn for it.
* `exists_lines`, `oneLine_of_checkReply`: the lines of a reply.
-/

namespace Croupier

open Entropy Drawing

/-! ## What was drawn for a reply -/

namespace Reply

/-- The outcomes belong to the specifications, one to each. -/
theorem outcomes_of_rollAll {specs : List DieSpec} {s t : Source} {outcomes : List Outcome}
    (h : rollAll specs s = (.ok outcomes, t)) :
    List.Forall₂ (fun spec o => ∃ rolls, o = spec.outcome rolls) specs outcomes := by
  induction specs generalizing s outcomes with
  | nil => cases h; exact .nil
  | cons spec specs ih =>
    rw [rollAll_cons] at h
    obtain ⟨o, u, ho, hmap⟩ := ok_of_andThen h
    obtain ⟨rest, hrest, rfl⟩ := ok_of_map hmap
    obtain ⟨rolls, -, rfl⟩ := DieSpec.exists_rolls ho
    exact .cons ⟨rolls, rfl⟩ (ih hrest)

theorem exists_spec_of_mem {specs : List DieSpec} {s t : Source} {outcomes : List Outcome}
    (h : rollAll specs s = (.ok outcomes, t)) {o : Outcome} (ho : o ∈ outcomes) :
    ∃ spec ∈ specs, ∃ rolls, o = spec.outcome rolls := by
  have hall := outcomes_of_rollAll h
  clear h
  induction hall with
  | nil => cases ho
  | @cons spec _ specs _ hspec _ ih =>
    rcases List.mem_cons.1 ho with rfl | ho
    · exact ⟨spec, List.mem_cons_self, hspec⟩
    · obtain ⟨spec', hmem, hrolls⟩ := ih ho
      exact ⟨spec', List.mem_cons_of_mem spec hmem, hrolls⟩

theorem rollAll_ne_nil {specs : List DieSpec} {s t : Source} {outcomes : List Outcome}
    (hne : specs ≠ []) (h : rollAll specs s = (.ok outcomes, t)) : outcomes ≠ [] := by
  rintro rfl
  exact hne (List.forall₂_nil_right_iff.1 (outcomes_of_rollAll h))

end Reply

/-- A reply to a line of dice expressions comes from an order and its outcomes. -/
theorem exists_outcomes {who reply : String} {args : Option String} {cap : Option Int}
    {s t : Source} (h : diceReply who args cap s = (.ok (some reply), t)) :
    ∃ order outcomes, DiceOrder.ofArgs cap args = .order order ∧
      Reply.rollAll order.specs s = (.ok outcomes, t) ∧
      reply = Reply.diceText who order.label outcomes := by
  cases horder : DiceOrder.ofArgs cap args with
  | order order =>
    rw [diceReply_of_order horder, Reply.toDice_eq] at h
    obtain ⟨text, htext, hreply⟩ := ok_of_map h
    obtain ⟨outcomes, hroll, rfl⟩ := ok_of_map htext
    cases hreply
    exact ⟨order, outcomes, rfl, hroll, rfl⟩
  | nothing => rw [diceReply_of_no_order (by simp [horder])] at h; cases h
  | refused word => rw [diceReply_of_no_order (by simp [horder])] at h; cases h

/-- A reply to a check comes from an order and the grade of one roll, which can be written. -/
theorem exists_grade {who reply : String} {args : Option String} {s t : Source}
    (h : checkReply who args s = (.ok (some reply), t)) :
    ∃ order o g line, CheckOrder.ofArgs args = .order order ∧
      DieSpec.d100.evaluate 0 s = (.ok o, t) ∧ grade o.total order.target = .ok g ∧
      g.text? = some line ∧ reply = Reply.heading "EPD" who order.label ++ line := by
  cases horder : CheckOrder.ofArgs args with
  | order order =>
    rw [checkReply_of_order horder, Reply.toCheck_eq] at h
    obtain ⟨text, htext, hreply⟩ := ok_of_map h
    cases hreply
    obtain ⟨o, u, ho, hcheck⟩ := ok_of_andThen htext
    rw [Reply.checkText] at hcheck
    split at hcheck
    · cases hcheck
    · rename_i g hg
      split at hcheck
      · cases hcheck
      · rename_i line hline
        cases hcheck
        exact ⟨order, o, g, line, rfl, ho, hg, hline, rfl⟩
  | nothing => rw [checkReply_of_no_order (by simp [horder])] at h; cases h
  | refused fault word => rw [checkReply_of_no_order (by simp [horder])] at h; cases h

/-! ## Lines of replies -/

theorem Avoids.commandWord {c : Char} (hc : Text.isBlank c = true) {args : Option String}
    {w : String} (h : w ∈ commandWords args) : Avoids c w := by
  cases args with
  | none => cases h
  | some line => exact word hc h

/-- A trace has numbers, a letter, brackets and what stands between them. -/
theorem Avoids.trace {c : Char} (hc : Numeral.isMark c = false) (hletter : c ≠ 'd')
    (hopen : c ≠ '(') (hclose : c ≠ ')') (hmark : Avoids c " ::= ") (spec : DieSpec)
    (rolls : List Int) (total : Int) : Avoids c (spec.trace rolls total) := by
  have hheader : Avoids c spec.shorthand := spec.avoids_shorthand hc hletter
  have hrolls : Avoids c (spec.shownRolls rolls) := Avoids.shownRolls hc spec hopen hclose rolls
  have hequals : Avoids c " = " := fun h =>
    hmark ((by decide : " = ".toList ⊆ " ::= ".toList) h)
  rw [spec.trace_eq]
  refine append (append (append hheader hmark) hrolls) ?_
  exact Avoids.ite (append hequals (Avoids.ofInt hc _)) nofun

namespace OneLine

theorem labelOf {words : List String} {label : String} (h : labelOf words = some label)
    (hwords : ∀ w ∈ words, OneLine w) : OneLine label := by
  rw [Croupier.labelOf] at h
  split at h
  · cases h
  · cases h
    exact Avoids.intercalate (by decide) hwords

theorem heading {tag who : String} {label : Option String} (htag : OneLine tag)
    (hwho : OneLine who) (hlabel : ∀ l ∈ label, OneLine l) :
    OneLine (Reply.heading tag who label) := by
  refine append (append (append htag (by decide)) ?_) (by decide)
  cases label with
  | none => exact hwho
  | some label => exact append (append hwho (by decide)) (hlabel label rfl)

theorem trace (spec : DieSpec) (rolls : List Int) (total : Int) :
    OneLine (spec.trace rolls total) :=
  Avoids.trace (by decide) (by decide) (by decide) (by decide) (by decide) spec rolls total

theorem grade (g : Grade) : OneLine g.line := by
  have hlabel : OneLine g.verdict.label := by cases g.verdict <;> decide
  have hplaces : ∀ n, OneLine (Numeral.twoPlaces n) := Avoids.twoPlaces (by decide)
  refine append ?_ (Avoids.ite ?_ (by decide))
  · exact append (append (append (append (hplaces _) (by decide)) (hplaces _)) (by decide)) hlabel
  · exact append (append (append (append (by decide) (Avoids.ite (by decide) (by decide)))
      (by decide)) (Avoids.ofInt (by decide) _)) (by decide)

end OneLine

theorem Reply.heading_ne_empty (tag who : String) (label : Option String) :
    heading tag who label ≠ "" := by
  intro h
  have := congrArg String.length h
  simp [heading] at this

theorem DiceOrder.oneLine_label {cap : Option Int} {args : Option String} {order : DiceOrder}
    (h : ofArgs cap args = .order order) : ∀ l ∈ order.label, OneLine l := by
  obtain ⟨-, rest, htake, hlabel⟩ := take_of_ofArgs h
  have hrest := take_suffix cap (commandWords args)
  rw [htake] at hrest
  intro l hl
  exact OneLine.labelOf (hlabel ▸ hl) fun w hw =>
    Avoids.commandWord (by decide) (hrest.subset hw)

theorem CheckOrder.oneLine_label {args : Option String} {order : CheckOrder}
    (h : ofArgs args = .order order) : ∀ l ∈ order.label, OneLine l := by
  obtain ⟨word, rest, hwords, -, hlabel⟩ := words_of_ofArgs h
  intro l hl
  have hrest : ∀ w ∈ rest, w ∈ commandWords args := fun w hw =>
    hwords ▸ List.mem_cons_of_mem word hw
  exact OneLine.labelOf (hlabel ▸ hl) fun w hw =>
    Avoids.commandWord (by decide) (hrest w hw)

section DiceLines

variable {who : String} {args : Option String} {cap : Option Int} {order : DiceOrder}
  {s t : Source} {outcomes : List Outcome}

theorem outcomes_ne_nil (horder : DiceOrder.ofArgs cap args = .order order)
    (hroll : Reply.rollAll order.specs s = (.ok outcomes, t)) : outcomes ≠ [] :=
  Reply.rollAll_ne_nil (DiceOrder.take_of_ofArgs horder).1 hroll

theorem oneLine_of_outcome (hwho : OneLine who) (horder : DiceOrder.ofArgs cap args = .order order)
    (hroll : Reply.rollAll order.specs s = (.ok outcomes, t)) :
    ∀ x ∈ outcomes.map fun o => Reply.heading "DICE" who order.label ++ o.trace, OneLine x := by
  intro x hx
  obtain ⟨o, ho, rfl⟩ := List.mem_map.1 hx
  obtain ⟨spec, -, rolls, rfl⟩ := Reply.exists_spec_of_mem hroll ho
  have htag : OneLine "DICE" := by decide
  exact (htag.heading hwho (DiceOrder.oneLine_label horder)).append (.trace _ _ _)

/-- The lines of a reply to a dice order, one for each outcome. -/
theorem lines_diceText (hwho : OneLine who) (horder : DiceOrder.ofArgs cap args = .order order)
    (hroll : Reply.rollAll order.specs s = (.ok outcomes, t)) :
    Message.lines (Reply.diceText who order.label outcomes) =
      outcomes.map fun o => (Reply.heading "DICE" who order.label ++ o.trace).toList := by
  have hne : (outcomes.map fun o => Reply.heading "DICE" who order.label ++ o.trace) ≠ [] :=
    fun hnil => outcomes_ne_nil horder hroll (List.map_eq_nil_iff.1 hnil)
  rw [Reply.diceText, Message.lines_intercalate hne (oneLine_of_outcome hwho horder hroll),
    List.map_map]
  rfl

end DiceLines

/-- The lines of a reply to a dice order: at least one, and none of them empty. -/
theorem exists_lines {who reply : String} {args : Option String} {cap : Option Int}
    {s t : Source} (hwho : OneLine who) (h : diceReply who args cap s = (.ok (some reply), t)) :
    ∃ texts : List String, texts ≠ [] ∧ (∀ x ∈ texts, x ≠ "" ∧ OneLine x) ∧
      reply = "\n".intercalate texts := by
  obtain ⟨order, outcomes, horder, hroll, rfl⟩ := exists_outcomes h
  refine ⟨_, fun hnil => ?_, fun x hx => ?_, rfl⟩
  · exact outcomes_ne_nil horder hroll (List.map_eq_nil_iff.1 hnil)
  · refine ⟨fun hempty => ?_, oneLine_of_outcome hwho horder hroll x hx⟩
    obtain ⟨o, ho, rfl⟩ := List.mem_map.1 hx
    exact Reply.heading_ne_empty _ _ _ (String.append_eq_empty_iff.1 hempty).1

theorem oneLine_of_checkReply {who reply : String} {args : Option String} {s t : Source}
    (hwho : OneLine who) (h : checkReply who args s = (.ok (some reply), t)) : OneLine reply := by
  obtain ⟨order, o, g, line, horder, -, -, hline, rfl⟩ := exists_grade h
  obtain ⟨-, rfl⟩ := Grade.text?_eq_some_iff.1 hline
  exact (OneLine.heading (by decide) hwho (CheckOrder.oneLine_label horder)).append (.grade g)

end Croupier
