import Croupier.Office
import Croupier.Proofs.Scenes

/-!
# Croupier.Proofs.Authority

Who has a say in the back office. `Office.heeds` says whether an event comes from someone with the
authority for it: a command from the owner or a developer of that moment, a click from the one who
asked for the confirmation that is clicked. An event that is not heeded leaves the office as it is,
so a run can do without it.

* `step_cases`: all that a step can do.
* `after_of_not_heeds`: what is not heeded changes nothing.
* `purge_invisible`: the run without what is not heeded, and who closes the bot.
-/

namespace Croupier
namespace Office

abbrev Scene := Croupier.Scene Office Event Turn

abbrev scenes (o : Office) (events : List Event) : List Scene :=
  Croupier.scenes step o events

/-- Whether the author of an event has, at this moment, the authority for it. -/
def heeds (o : Office) : Event → Bool
  | .command caller _ => o.isAuthorised caller.id
  | .click number user _ =>
    o.questions[number]?.any fun question => user = question.requester.id
  | .ready => true

def heeded (s : Scene) : Bool :=
  s.before.heeds s.event

/-- The requester of the question clicks on it to confirm. -/
def Confirms (number : Nat) (question : Confirmation) (s : Scene) : Prop :=
  s.before.questions[number]? = some question ∧
    s.event = .click number question.requester.id .confirm

/-- The events of a run without those that are not let through when they come. -/
def purge (may : Office → Event → Bool) (o : Office) (events : List Event) : List Event :=
  ((o.scenes events).filter fun s => may s.before s.event).map Croupier.Scene.event

/-! ## What one step can do -/

@[simp]
theorem asked_sayOf (numbers : List Int) (text : String) : (sayOf numbers text).asked = none := by
  unfold sayOf
  split <;> rfl

@[simp]
theorem asked_change (o : Office) (turn : Settings.Turn) (number : Int) (text : String) :
    (o.change turn number text).1.asked = none := by
  simp only [change]
  split <;> simp

/-- Apart from a shutdown, a command changes the settings at most, and only one that not everyone
may give. -/
theorem perform_cases (o : Office) (caller : Caller) (c : Command) :
    c = .shutdown ∨
      (o.perform caller c).1.asked = none ∧
        ∃ store, (o.perform caller c).2 = { o with store := store } ∧
          (c.denial? = none → store = o.store) := by
  cases c with
  | shutdown => exact .inl rfl
  | addDeveloper | removeDeveloper =>
    exact .inr ⟨asked_change _ _ _ _, _, rfl, fun h => by cases h⟩
  | setMaxDice n =>
    refine .inr ?_
    simp only [perform]
    split
    · exact ⟨rfl, o.store, rfl, fun _ => rfl⟩
    · exact ⟨rfl, _, rfl, fun h => by cases h⟩
    · exact ⟨asked_change _ _ _ _, _, rfl, fun h => by cases h⟩
  | gradeSamples =>
    refine .inr ?_
    rw [perform]
    split <;> exact ⟨rfl, o.store, rfl, fun _ => rfl⟩
  | listDevelopers =>
    refine .inr ?_
    simp only [perform]
    split
    · exact ⟨rfl, o.store, rfl, fun _ => rfl⟩
    · exact ⟨asked_sayOf _ _, o.store, rfl, fun _ => rfl⟩
  | misusedMaxDice misuse => cases misuse <;> exact .inr ⟨rfl, o.store, rfl, fun _ => rfl⟩
  | showDice => exact .inr ⟨asked_sayOf _ _, o.store, rfl, fun _ => rfl⟩
  | overview | developerOverview | diceOverview =>
    exact .inr ⟨rfl, o.store, rfl, fun _ => rfl⟩

/-- A command is carried out by those who may give it, or changes nothing. -/
theorem execute_cases (o : Office) (caller : Caller) (c : Command) :
    o.execute caller c = o.perform caller c ∧
        (c.denial? = none ∨ o.isAuthorised caller.id = true) ∨
      ∃ denial, o.execute caller c = (say denial, o) := by
  rw [execute]
  split
  · exact .inl ⟨rfl, .inl ‹_›⟩
  · rename_i denial hdenial
    by_cases h : o.isAuthorised caller.id = true
    · exact .inl ⟨if_pos h, .inr h⟩
    · exact .inr ⟨denial, if_neg h⟩

theorem settle_cases (o : Office) (question : Confirmation) (user : Int)
    (choice : Confirmation.Choice) :
    (o.settle question user choice).1.asked = none ∧
      ((o.settle question user choice).2 = o ∨
        user = question.requester.id ∧ choice = .confirm ∧
          (o.settle question user choice).2 = { o with closed := o.closed + 1 }) := by
  unfold settle
  split
  · exact ⟨rfl, .inl rfl⟩
  · rename_i huser
    cases choice with
    | confirm => exact ⟨rfl, .inr ⟨Decidable.not_not.1 huser, rfl, rfl⟩⟩
    | cancel => exact ⟨rfl, .inl rfl⟩

/-- A step changes nothing, or the settings, or the questions, or the count of closings, and each of
the changes takes someone with the authority for it. -/
theorem step_cases (o : Office) (event : Event) :
    (o.step event).1.asked = none ∧
        ((o.step event).2 = o ∨
          o.heeds event = true ∧ ∃ store, (o.step event).2 = { o with store := store }) ∨
      (∃ caller, event = .command caller .shutdown ∧ o.isAuthorised caller.id = true ∧
        (o.step event).1.asked = some ⟨caller⟩ ∧
        (o.step event).2 = { o with questions := o.questions ++ [⟨caller⟩] }) ∨
      ∃ number question, o.questions[number]? = some question ∧
        event = .click number question.requester.id .confirm ∧ (o.step event).1.asked = none ∧
        (o.step event).2 = { o with closed := o.closed + 1 } := by
  cases event with
  | command caller c =>
    rw [step]
    rcases o.execute_cases caller c with ⟨hexecute, hmay⟩ | ⟨denial, hexecute⟩
    · rw [hexecute]
      rcases o.perform_cases caller c with rfl | ⟨hasked, store, hstore, hopen⟩
      · have hauthorised := hmay.resolve_left (by decide)
        exact .inr (.inl ⟨caller, rfl, hauthorised, rfl, rfl⟩)
      · refine .inl ⟨hasked, ?_⟩
        rcases hmay with hnone | hauthorised
        · rw [hstore, hopen hnone]
          exact .inl rfl
        · exact .inr ⟨hauthorised, store, hstore⟩
    · rw [hexecute]
      exact .inl ⟨rfl, .inl rfl⟩
  | click number user choice =>
    rw [step]
    split
    · exact .inl ⟨rfl, .inl rfl⟩
    · rename_i question hquestion
      obtain ⟨hasked, hsame | ⟨rfl, rfl, hclosed⟩⟩ := o.settle_cases question user choice
      · exact .inl ⟨hasked, .inl hsame⟩
      · exact .inr (.inr ⟨number, question, hquestion, rfl, hasked, hclosed⟩)
  | ready => exact .inl ⟨rfl, .inl rfl⟩

variable {o : Office}

theorem after_of_not_heeds {event : Event} (h : o.heeds event = false) :
    (o.step event).2 = o := by
  rcases o.step_cases event with
    ⟨-, hsame | ⟨hheeds, -⟩⟩ | ⟨caller, rfl, hauthorised, -⟩ | ⟨number, question, hquestion, rfl, -⟩
  · exact hsame
  · rw [hheeds] at h
    cases h
  · rw [heeds, hauthorised] at h
    cases h
  · simp [heeds, hquestion] at h

/-- A question is put by a shutdown of someone with the authority for it, and keeps its number. -/
theorem asked_cases (o : Office) (event : Event) :
    (o.step event).1.asked = none ∧ (o.step event).2.questions = o.questions ∨
      ∃ caller, event = .command caller .shutdown ∧ o.isAuthorised caller.id = true ∧
        (o.step event).1.asked = some ⟨caller⟩ ∧
        (o.step event).2.questions = o.questions ++ [⟨caller⟩] := by
  rcases o.step_cases event with
    ⟨hasked, hsame | ⟨-, store, hstore⟩⟩ | ⟨caller, hevent, hauthorised, hasked, hnew⟩ |
      ⟨number, question, -, -, hasked, hclosed⟩
  · exact .inl ⟨hasked, by rw [hsame]⟩
  · exact .inl ⟨hasked, by rw [hstore]⟩
  · exact .inr ⟨caller, hevent, hauthorised, hasked, by rw [hnew]⟩
  · exact .inl ⟨hasked, by rw [hclosed]⟩

theorem after_of_confirms {number : Nat} {question : Confirmation} {event : Event}
    (h : Confirms number question (.ofStep step o event)) :
    (o.step event).2 = { o with closed := o.closed + 1 } := by
  obtain ⟨hquestion, rfl⟩ := h
  simp only [Croupier.Scene.ofStep] at hquestion
  simp only [step, hquestion, settle, ne_eq, not_true_eq_false, if_false]

/-- The bot is closed by one who asked for it, and by nothing else. -/
theorem closed_cases (o : Office) (event : Event) :
    (o.step event).2.closed = o.closed ∨
      ∃ number question, Confirms number question (.ofStep step o event) := by
  rcases o.step_cases event with
    ⟨-, hsame | ⟨-, store, hstore⟩⟩ | ⟨caller, -, -, -, hnew⟩ |
      ⟨number, question, hquestion, hevent, -⟩
  · exact .inl (by rw [hsame])
  · exact .inl (by rw [hstore])
  · exact .inl (by rw [hnew])
  · exact .inr ⟨number, question, hquestion, hevent⟩

/-! ## Runs -/

theorem run_cons (event : Event) (events : List Event) :
    o.run (event :: events) =
      ((o.step event).1 :: ((o.step event).2.run events).1, ((o.step event).2.run events).2) := rfl

theorem turns_of_run (events : List Event) :
    (o.run events).1 = (o.scenes events).map Croupier.Scene.turn :=
  turns_eq_map_scenes (fun _ => rfl) (fun _ _ _ => rfl) o events

theorem purge_cons (event : Event) (events : List Event) :
    o.purge heeds (event :: events) =
      if o.heeds event then event :: (o.step event).2.purge heeds events
      else o.purge heeds events := by
  have hheeds : heeds (Croupier.Scene.ofStep step o event).before
      (Croupier.Scene.ofStep step o event).event = o.heeds event := rfl
  rw [purge, scenes, Croupier.scenes, List.filter_cons, hheeds]
  split
  · rfl
  · rename_i h
    rw [after_of_not_heeds (eq_false_of_ne_true h)]
    rfl

theorem scenes_purge (events : List Event) :
    o.scenes (o.purge heeds events) = (o.scenes events).filter heeded := by
  induction events generalizing o with
  | nil => rfl
  | cons event events ih =>
    have hheeded : heeded (.ofStep step o event) = o.heeds event := rfl
    rw [purge_cons, scenes, scenes, Croupier.scenes, List.filter_cons, hheeded]
    split
    · rw [Croupier.scenes, ← ih]
    · rename_i h
      rw [after_of_not_heeds (eq_false_of_ne_true h), ← ih]

theorem run_purge (events : List Event) : (o.run (o.purge heeds events)).2 = (o.run events).2 := by
  induction events generalizing o with
  | nil => rfl
  | cons event events ih =>
    rw [purge_cons, run_cons]
    split
    · rw [run_cons, ih]
    · rename_i h
      rw [ih, after_of_not_heeds (eq_false_of_ne_true h)]

/-- The question of this number was put by a shutdown of its requester, who had the authority for it
then. -/
def AskedIn (earlier : List Scene) (number : Nat) (question : Confirmation) : Prop :=
  ∃ front request back, earlier = front ++ request :: back ∧
    request.event = .command question.requester .shutdown ∧
    request.before.isAuthorised question.requester.id = true ∧
    request.before.questions.length = number ∧ request.turn.asked = some question

theorem AskedIn.cons {earlier : List Scene} {number : Nat} {question : Confirmation}
    (h : AskedIn earlier number question) (s : Scene) : AskedIn (s :: earlier) number question := by
  obtain ⟨front, request, back, rfl, hrest⟩ := h
  exact ⟨s :: front, request, back, rfl, hrest⟩

/-- A question that a step of a run finds was there in the beginning, or was put on the way. -/
theorem origin_of_question {events : List Event} {earlier later : List Scene} {s : Scene}
    {number : Nat} {question : Confirmation} (hscenes : o.scenes events = earlier ++ s :: later)
    (hquestion : s.before.questions[number]? = some question) :
    AskedIn earlier number question ∨ o.questions[number]? = some question := by
  induction earlier generalizing o events with
  | nil =>
    cases events with
    | nil => cases hscenes
    | cons event events =>
      cases hscenes
      exact .inr hquestion
  | cons first earlier ih =>
    cases events with
    | nil => cases hscenes
    | cons event events =>
      rw [scenes, Croupier.scenes, List.cons_append, List.cons.injEq] at hscenes
      obtain ⟨rfl, hscenes⟩ := hscenes
      rcases ih hscenes with hasked | hold
      · exact .inl (hasked.cons _)
      rcases o.asked_cases event with ⟨-, hkept⟩ | ⟨caller, rfl, hmay, hasked, hnew⟩
      · rw [hkept] at hold
        exact .inr hold
      · rw [hnew, List.getElem?_append] at hold
        split at hold
        · exact .inr hold
        · -- the number is the next one, and the question the new one
          rename_i hlast
          rw [List.getElem?_singleton] at hold
          split at hold
          · cases hold
            have hnumber : o.questions.length = number := by omega
            exact .inl ⟨[], _, earlier, rfl, rfl, hmay, hnumber, hasked⟩
          · cases hold

/-- Whoever has no authority has no influence: the run without their events has the very same
scenes, and ends in the same office. And the bot is closed by a confirming click on a question, made
by the one who asked it and had the authority to ask, and by nothing else. -/
theorem purge_invisible (o : Office) (events : List Event) :
    o.scenes (o.purge heeds events) = (o.scenes events).filter heeded ∧
      o.run (o.purge heeds events) =
        (((o.scenes events).filter heeded).map Croupier.Scene.turn, (o.run events).2) ∧
      (o.questions = [] → ∀ earlier s later, o.scenes events = earlier ++ s :: later →
        (∀ number question, ¬ Confirms number question s) ∧ s.after.closed = s.before.closed ∨
          ∃ number question, Confirms number question s ∧
            s.after.closed = s.before.closed + 1 ∧ AskedIn earlier number question) := by
  refine ⟨scenes_purge events, ?_, ?_⟩
  · rw [← scenes_purge, ← turns_of_run, ← run_purge events]
  · intro hnew earlier s later hscenes
    have hmem : s ∈ o.scenes events := by simp [hscenes]
    have hs : s = .ofStep step s.before s.event := eq_ofStep_of_mem_scenes hmem
    by_cases hconfirms : ∃ number question, Confirms number question s
    · obtain ⟨number, question, hconfirms⟩ := hconfirms
      refine .inr ⟨number, question, hconfirms, ?_, ?_⟩
      · rw [hs] at hconfirms ⊢
        exact congrArg Office.closed (after_of_confirms hconfirms)
      · refine (origin_of_question hscenes hconfirms.1).resolve_right fun hold => ?_
        rw [hnew] at hold
        cases hold
    · have hclosed := (s.before.closed_cases s.event).resolve_right (hs ▸ hconfirms)
      refine .inl ⟨fun number question h => hconfirms ⟨number, question, h⟩, ?_⟩
      rw [hs]
      exact hclosed

/-- A stranger tries to join and to close the bot. The developer who asked for the latter is
dismissed before the confirming click, which counts all the same. -/
def dismissal : List Event :=
  [.command ⟨9, "eve"⟩ (.addDeveloper 9),
    .command ⟨5, "dev"⟩ .shutdown,
    .click 0 9 .confirm,
    .command ⟨1, "owner"⟩ (.removeDeveloper 5),
    .click 0 5 .confirm]

theorem purge_invisible_dismissal :
    let o : Office := { owner := some 1, store := ⟨{ developers := [5] }, .absent⟩ }
    o.purge heeds dismissal = [dismissal[1], dismissal[3], dismissal[4]] ∧
      ((o.run (o.purge heeds dismissal)).1.map Turn.posts).flatten =
        [.reply "⚠️ 確認要關閉 Bot？（30 秒內）", .reply "已移除開發者：<@5>", .settle "Leaving."] ∧
      (o.run (o.purge heeds dismissal)).2 = (o.run dismissal).2 ∧
      (o.run dismissal).2.closed = 1 ∧
      ∃ number question, AskedIn ((o.scenes dismissal).take 4) number question := by
  intro o
  obtain ⟨-, hrun, hclosing⟩ := purge_invisible o dismissal
  refine ⟨rfl, ?_, ?_, rfl, ?_⟩
  · rw [hrun]
    decide +kernel
  · rw [hrun]
  · have hrises : (o.scenes dismissal)[4].after.closed ≠ (o.scenes dismissal)[4].before.closed := by
      decide
    rcases hclosing rfl ((o.scenes dismissal).take 4) (o.scenes dismissal)[4] [] rfl with
      ⟨-, hsame⟩ | ⟨number, question, -, -, hasked⟩
    · exact absurd hsame hrises
    · exact ⟨number, question, hasked⟩

/-- As `heeds`, but that a click has to come from the requester of this one question, whichever it
is made on. -/
def heedsFor (question : Option Confirmation) (o : Office) : Event → Bool
  | .click _ user _ => question.any fun question => user = question.requester.id
  | event => o.heeds event

/-- A purge that goes by the latest question is seen. Two developers ask to close the bot, and the
first one confirms: the click is dropped if it has to come from the requester of the question that
is the latest one then, and it is dropped, even when the second one asks only after it, if it has to
come from the requester of the question that is the latest one in the end. -/
theorem purge_for_latest_is_seen :
    let o : Office := { owner := some 1, store := ⟨{ developers := [5] }, .absent⟩ }
    let first : Event := .command ⟨1, "boss#1"⟩ .shutdown
    let second : Event := .command ⟨5, "dev#5"⟩ .shutdown
    let confirm : Event := .click 0 1 .confirm
    let late : List Event := [first, second, confirm, .ready]
    let early : List Event := [first, confirm, second]
    let purgedLate := o.purge (fun o => o.heedsFor o.questions.getLast?) late
    let purgedEarly := o.purge (heedsFor (o.run early).2.questions.getLast?) early
    purgedLate = [first, second, .ready] ∧
      (o.run late).2.closed = 1 ∧ (o.run purgedLate).2.closed = 0 ∧
      purgedEarly = [first, second] ∧
      (o.run early).2.closed = 1 ∧ (o.run purgedEarly).2.closed = 0 :=
  ⟨rfl, rfl, rfl, rfl, rfl, rfl⟩

end Office
end Croupier
