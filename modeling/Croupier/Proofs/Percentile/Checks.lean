import Croupier.Proofs.Entropy.Consumption
import Croupier.Proofs.Percentile.Grades
import Croupier.Proofs.Replies

/-!
# Croupier.Proofs.Percentile.Checks

Which lines are answered as checks, and what an answer says of the target. A line is answered if its
first word is a target; the target in the answer is one as well, and of the same number.

* `throwAll_d100_of_fitsAfter`: one throw of the percentile die.
* `exists_shown_of_checkReply`: the target in an answer.
* `targets_read_and_shown`: any text as a target, and any line as a check.
-/

namespace Croupier

open Drawing Entropy Numeral

/-- The first word of the line is a target of so much. -/
def Aims (args : Option String) (target : Nat) : Prop :=
  ∃ word ∈ (commandWords args).head?, Target.Spells word.toList target

variable {who reply : String} {args : Option String} {s t : Source}

theorem exists_aims_iff (args : Option String) :
    (∃ target, Aims args target) ↔ ∃ order, CheckOrder.ofArgs args = .order order := by
  simp only [CheckOrder.exists_order_iff, Target.parse_eq_ok_iff, Aims]
  exact ⟨fun ⟨n, word, hword, h⟩ => ⟨word, hword, n, h⟩,
    fun ⟨word, hword, n, h⟩ => ⟨n, word, hword, h⟩⟩

theorem aims_of_order {order : CheckOrder} (h : CheckOrder.ofArgs args = .order order) :
    Aims args order.target ∧ order.label = labelOf (commandWords args).tail := by
  obtain ⟨word, rest, hwords, htarget, hlabel⟩ := CheckOrder.words_of_ofArgs h
  rw [Aims, hwords]
  exact ⟨⟨word, rfl, Target.parse_eq_ok_iff.1 htarget⟩, hlabel⟩

/-- If a byte fits, it decides the throw, which takes no byte behind it. -/
theorem throwAll_d100_of_fitsAfter {rejected : List UInt8} {b : UInt8}
    (h : s.FitsAfter 200 rejected b) :
    ∃ t, throwAll (DieSpec.d100.throws 0) s = (.ok [0 + (b.toNat : Int) % (100 : Nat)], t) ∧
      s.Hands (rejected ++ [b]) t := by
  obtain ⟨t, hdraw, hhands⟩ := draw_of_fitsAfter h
  refine ⟨t, ?_, hhands⟩
  have hthrow : Throw.drawing ⟨100, 0, by decide, by decide⟩ s =
      (.ok (0 + (b.toNat : Int) % (100 : Nat)), t) := by
    have hbound : fairBound 100 = 200 := rfl
    simp only [Throw.drawing_eq, map_apply, hbound, hdraw]
    rfl
  exact andThen_of_ok hthrow

/-- Behind the heading and the roll stands a target of the same number as the first word. -/
theorem exists_shown_of_checkReply (h : checkReply who args s = (.ok (some reply), t)) :
    ∃ target line roll shown, Aims args target ∧
      reply = Reply.heading "EPD" who (labelOf (commandWords args).tail) ++ line ∧
      (Trace.pieces line).take 4 = [roll, "vs", shown, "--"] ∧
      Target.parse (some shown) = .ok target := by
  obtain ⟨order, o, g, line, horder, -, hgrade, hline, rfl⟩ := exists_grade h
  obtain ⟨-, rfl⟩ := grade_eq_ok_iff.1 hgrade
  obtain ⟨-, rfl⟩ := Grade.text?_eq_some_iff.1 hline
  obtain ⟨haims, hlabel⟩ := aims_of_order horder
  have hle : order.target ≤ 999999999 := by
    obtain ⟨word, -, -, htarget, -⟩ := CheckOrder.words_of_ofArgs horder
    exact Target.le_of_parse htarget
  refine ⟨order.target, _, twoPlaces o.total, twoPlaces order.target, haims, by rw [hlabel], ?_,
    Target.parse_eq_ok_iff.2 (Target.spells_twoPlaces hle)⟩
  rw [Grade.pieces_line]
  rfl

/-- A text is read as a target of `n` just if it spells it, with a sign or without; it is refused as
negative if it has a minus sign and a digit other than zero, and as no number if it spells nothing;
the text is in the error. So a check is answered, once a byte comes that decides the percentile die,
just if the first word of its line spells a target, and the answer has a target of the same number
behind the roll. -/
theorem targets_read_and_shown :
    (∀ text : String,
      (∀ n : Nat, Target.parse (some text) = .ok n ↔ Target.Spells text.toList n) ∧
      (Target.parse (some text) = .error ⟨.negative, some text⟩ ↔
        ∃ digits, text.toList = '-' :: digits ∧ IsShort digits ∧ ∃ c ∈ digits, c ≠ '0') ∧
      (Target.parse (some text) = .error ⟨.nonNumeric, some text⟩ ↔
        ∀ n, ¬ Target.Spells text.toList n) ∧
      ∀ e, Target.parse (some text) = .error e → e.text = some text) ∧
    ∀ (who : String) (args : Option String) (s : Source),
      (∀ rejected b, s.FitsAfter 200 rejected b →
        ∃ t, s.Hands (rejected ++ [b]) t ∧
          ((∃ reply, checkReply who args s = (.ok (some reply), t)) ↔ ∃ target, Aims args target)) ∧
      ((¬ ∃ target, Aims args target) → checkReply who args s = (.ok none, s)) ∧
      ∀ reply t, checkReply who args s = (.ok (some reply), t) →
        ∃ target line roll shown, Aims args target ∧
          reply = Reply.heading "EPD" who (labelOf (commandWords args).tail) ++ line ∧
          (Trace.pieces line).take 4 = [roll, "vs", shown, "--"] ∧
          Target.parse (some shown) = .ok target := by
  refine ⟨fun text => ⟨fun n => Target.parse_eq_ok_iff, ?_, Target.parse_eq_nonNumeric_iff,
    fun e => Target.text_of_parse⟩, fun who args s => ⟨fun rejected b hfits => ?_, fun hnone => ?_,
    fun reply t => exists_shown_of_checkReply⟩⟩
  · rw [Target.parse_eq_negative_iff, Target.Spells.exists_neg_iff]
  · obtain ⟨t, hthrow, hhands⟩ := throwAll_d100_of_fitsAfter hfits
    refine ⟨t, hhands, ?_⟩
    constructor
    · rintro ⟨reply, h⟩
      obtain ⟨target, -, -, -, haims, -⟩ := exists_shown_of_checkReply h
      exact ⟨target, haims⟩
    · intro haims
      obtain ⟨order, horder⟩ := (exists_aims_iff args).1 haims
      have hcheck := checkReply_eq_throwAll who args
      simp only [horder] at hcheck
      rw [hcheck, map_apply, hthrow]
      exact ⟨_, rfl⟩
  · rw [exists_aims_iff] at hnone
    rw [checkReply_of_no_order fun order horder => hnone ⟨order, horder⟩]
    rfl

/-- A byte is rejected, the next one decides a check against fifty, and a target with a minus sign
is no target. -/
theorem targets_read_and_shown_fifty :
    let s : Source := .fresh 1 (by decide) (.script [.bytes [201], .bytes [73]])
    Target.parse (some "-050") = .error ⟨.negative, some "-050"⟩ ∧
      checkReply "ann" (some "-050 hide") s = (.ok none, s) ∧
      s.FitsAfter 200 [201] 73 ∧
      ∃ reply t, checkReply "ann" (some "+050 hide") s = (.ok (some reply), t) ∧
        s.Hands [201, 73] t ∧
        ∃ line roll shown, reply = Reply.heading "EPD" "ann" (some "hide") ++ line ∧
          (Trace.pieces line).take 4 = [roll, "vs", shown, "--"] ∧
          Target.parse (some shown) = .ok 50 := by
  intro s
  obtain ⟨htexts, hchecks⟩ := targets_read_and_shown
  have hfits : s.FitsAfter 200 [201] 73 :=
    ⟨[], _, ⟨_, .block rfl rfl (.block rfl rfl .nothing), rfl⟩,
      List.forall_mem_singleton.2 (by decide), by decide⟩
  have hnegative : Target.parse (some "-050") = .error ⟨.negative, some "-050"⟩ := by decide
  have hfifty : Target.parse (some "+050") = .ok 50 := by decide
  have hwords : commandWords (some "+050 hide") = ["+050", "hide"] := by decide
  have haims : ∃ target, Aims (some "+050 hide") target := by
    refine ⟨50, "+050", ?_, ((htexts "+050").1 50).1 hfifty⟩
    rw [hwords]
    rfl
  have hnone : ¬ ∃ target, Aims (some "-050 hide") target := by
    rintro ⟨target, word, hword, hspells⟩
    have hwords' : commandWords (some "-050 hide") = ["-050", "hide"] := by decide
    rw [hwords'] at hword
    cases hword
    have hread := ((htexts "-050").1 target).2 hspells
    rw [hnegative] at hread
    cases hread
  obtain ⟨t, hhands, hanswered⟩ := (hchecks "ann" (some "+050 hide") s).1 _ _ hfits
  obtain ⟨reply, hreply⟩ := hanswered.2 haims
  obtain ⟨target, line, roll, shown, hshown, htext, hpieces, hread⟩ :=
    (hchecks "ann" (some "+050 hide") s).2.2 reply t hreply
  have htarget : target = 50 := by
    obtain ⟨word, hword, hspells⟩ := hshown
    rw [hwords] at hword
    cases hword
    have hread' := ((htexts "+050").1 target).2 hspells
    rw [hfifty] at hread'
    exact (Except.ok.inj hread').symm
  rw [hwords] at htext
  subst htarget
  exact ⟨hnegative, (hchecks "ann" (some "-050 hide") s).2.1 hnone, hfits, reply, t, hreply, hhands,
    line, roll, shown, htext, hpieces, hread⟩

end Croupier
