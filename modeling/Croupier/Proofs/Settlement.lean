import Croupier.Proofs.Authority

/-!
# Croupier.Proofs.Settlement

What settles a confirmation: nothing does. An older question takes clicks like the latest one, and a
click may still be on its way when the buttons are gone. Each confirming click of the requester
closes the bot, whatever was clicked before, and a cancelling click changes nothing.

* `closesBy_iff`: what closes the bot.
* `confirmation_stays_open`: a question is settled once if its requester sees to it, and only then.
-/

namespace Croupier
namespace Office

/-- The requester of the question makes a choice. -/
def Clicks (number : Nat) (choice : Confirmation.Choice) (s : Scene) : Prop :=
  ∃ question, s.before.questions[number]? = some question ∧
    s.event = .click number question.requester.id choice

/-- A click on the question closes the bot. -/
def ClosesBy (number : Nat) (s : Scene) : Prop :=
  (∃ user choice, s.event = .click number user choice) ∧ s.before.closed < s.after.closed

/-- Once the requester has cancelled, the question closes the bot no more; nor does it after it has
closed the bot. -/
def SettledOnce (number : Nat) (ss : List Scene) : Prop :=
  ss.Pairwise fun earlier later =>
    Clicks number .cancel earlier ∨ ClosesBy number earlier → ¬ ClosesBy number later

variable {o : Office} {number : Nat} {event : Event}

theorem after_of_cancel (h : Clicks number .cancel (.ofStep step o event)) :
    (o.step event).2 = o := by
  obtain ⟨question, hquestion, rfl⟩ := h
  simp only [Croupier.Scene.ofStep] at hquestion
  simp only [step, hquestion, settle, ne_eq, not_true_eq_false, if_false]

theorem after_of_confirm (h : Clicks number .confirm (.ofStep step o event)) :
    (o.step event).2 = { o with closed := o.closed + 1 } := by
  obtain ⟨question, hconfirms⟩ := h
  exact after_of_confirms hconfirms

theorem closesBy_iff (o : Office) (number : Nat) (event : Event) :
    ClosesBy number (.ofStep step o event) ↔ Clicks number .confirm (.ofStep step o event) := by
  constructor
  · rintro ⟨⟨user, choice, hevent⟩, hclosed⟩
    rcases o.closed_cases event with hsame | ⟨number', question, hquestion, hconfirm⟩
    · exact absurd hsame (Nat.ne_of_gt hclosed)
    · rw [hevent] at hconfirm
      cases hconfirm
      exact ⟨question, hquestion, hevent⟩
  · intro h
    refine ⟨?_, ?_⟩
    · obtain ⟨question, -, hevent⟩ := h
      exact ⟨_, _, hevent⟩
    · simp only [Croupier.Scene.ofStep, after_of_confirm h]
      exact Nat.lt_succ_self _

/-- A question closes the bot as often as its requester confirms, and what was clicked before makes
no difference. So it is settled once just when no confirming click of its requester comes after
another click of theirs. -/
theorem confirmation_stays_open (o : Office) (events : List Event) (number : Nat) :
    (∀ s ∈ o.scenes events,
      (s.after.questions = s.before.questions ∨
        ∃ caller, s.event = .command caller .shutdown ∧
          s.before.isAuthorised caller.id = true ∧
          s.after.questions = s.before.questions ++ [⟨caller⟩]) ∧
      (ClosesBy number s ↔ Clicks number .confirm s) ∧
      (Clicks number .confirm s →
        s.after = { s.before with closed := s.before.closed + 1 }) ∧
      (Clicks number .cancel s → s.after = s.before)) ∧
    (SettledOnce number (o.scenes events) ↔
      (o.scenes events).Pairwise fun earlier later =>
        (∃ choice, Clicks number choice earlier) → ¬ Clicks number .confirm later) := by
  have hscene : ∀ s ∈ o.scenes events, s = .ofStep step s.before s.event := fun s hs =>
    eq_ofStep_of_mem_scenes hs
  have hcloses : ∀ s ∈ o.scenes events, ClosesBy number s ↔ Clicks number .confirm s := by
    intro s hs
    rw [hscene s hs]
    exact closesBy_iff s.before number s.event
  constructor
  · intro s hs
    refine ⟨?_, hcloses s hs, ?_, ?_⟩
    · rw [hscene s hs]
      rcases s.before.asked_cases s.event with ⟨-, hkept⟩ | ⟨caller, hevent, hmay, -, hnew⟩
      · exact .inl hkept
      · exact .inr ⟨caller, hevent, hmay, hnew⟩
    · rw [hscene s hs]
      exact after_of_confirm
    · rw [hscene s hs]
      exact after_of_cancel
  · refine List.Pairwise.iff_of_mem fun {earlier later} hearlier hlater => ?_
    rw [hcloses earlier hearlier, hcloses later hlater]
    refine imp_congr_left ⟨?_, ?_⟩
    · rintro (hcancel | hconfirm)
      · exact ⟨.cancel, hcancel⟩
      · exact ⟨.confirm, hconfirm⟩
    · rintro ⟨choice, hclick⟩
      cases choice with
      | confirm => exact .inr hclick
      | cancel => exact .inl hclick

/-- A shutdown that was cancelled goes through when the requester confirms after all, and one that
was confirmed goes through once more. -/
theorem cancelled_confirmation_closes :
    let o : Office := { owner := some 1, store := ⟨{}, .absent⟩ }
    let ask : Event := .command ⟨1, "owner"⟩ .shutdown
    let cancelled : List Event := [ask, .click 0 1 .cancel, .click 0 1 .confirm]
    let repeated : List Event := [ask, .click 0 1 .confirm, .click 0 1 .confirm]
    ¬ SettledOnce 0 (o.scenes cancelled) ∧ (o.run cancelled).2.closed = 1 ∧
      ¬ SettledOnce 0 (o.scenes repeated) ∧ (o.run repeated).2.closed = 2 := by
  intro o ask cancelled repeated
  refine ⟨fun h => ?_, rfl, fun h => ?_, rfl⟩
  · have hclick := List.rel_of_pairwise_cons h.of_cons (List.mem_singleton_self _)
    exact hclick (.inl ⟨_, rfl, rfl⟩) ⟨⟨_, _, rfl⟩, by decide⟩
  · have hclick := List.rel_of_pairwise_cons h.of_cons (List.mem_singleton_self _)
    exact hclick (.inr ⟨⟨_, _, rfl⟩, by decide⟩) ⟨⟨_, _, rfl⟩, by decide⟩

end Office
end Croupier
