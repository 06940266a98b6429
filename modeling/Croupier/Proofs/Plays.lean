import Croupier.Proofs.Drawing
import Croupier.Proofs.Scenes
import Croupier.Table
import Mathlib.Data.List.Forall2

/-!
# Croupier.Proofs.Plays

The two games of the table are played alike: something is drawn, and what was drawn is concluded
in words of the game (`step_event`). A chat that refuses messages comes in last, so that it costs
messages and nothing else.

* `Play.turnOf_refused`: a turn that was refused, from the same turn without the refusal.
* `refusal_costs_messages`: a whole run with refusals against the run without any.
-/

namespace Croupier

open Entropy

namespace Table

inductive Game where
  | roll
  | check
  deriving DecidableEq, Repr

namespace Game

def wording : Game → Wording
  | .roll => diceWording
  | .check => checkWording

def messages : Game → String → List String
  | .roll => diceMessages
  | .check => checkMessages

end Game

/-- A command of a player. -/
structure Play where
  game : Game
  who : String
  channel : String
  args : String
  deriving DecidableEq, Repr

namespace Play

def event (play : Play) (refusal : Option Refusal) : Event :=
  match play.game with
  | .roll => .roll play.who play.channel play.args refusal
  | .check => .check play.who play.channel play.args refusal

/-- What is drawn for a play; the cap is for dice only. -/
def reply (play : Play) (cap : Int) : Drawing (Option String) :=
  match play.game with
  | .roll => diceReply play.who (some play.args) (some cap)
  | .check => checkReply play.who (some play.args)

/-- The records of a line that is no order. -/
def passed (play : Play) (cap : Int) : List Record :=
  match play.game with
  | .roll => (DiceOrder.ofArgs (some cap) (some play.args)).records
  | .check => (CheckOrder.ofArgs (some play.args)).records

/-- The turn of a play that has come to `result`. -/
def turnOf (play : Play) (cap : Int) (refusal : Option Refusal)
    (result : Except Failure (Option String)) : Turn :=
  conclude play.game.wording play.who play.channel play.args refusal (play.passed cap)
    play.game.messages result

end Play

theorem step_event (t : Table) (play : Play) (refusal : Option Refusal) :
    let drawn := play.reply t.store.settings.maxDice t.source
    t.step (play.event refusal) =
      (play.turnOf t.store.settings.maxDice refusal drawn.1, { t with source := drawn.2 }) := by
  obtain ⟨game, who, channel, args⟩ := play
  cases game <;> rfl

/-! ## Refusals -/

namespace Event

def refusal? : Event → Option Refusal
  | .roll _ _ _ refusal => refusal
  | .check _ _ _ refusal => refusal
  | _ => none

/-- The same event before a chat that takes everything. -/
def unrefused : Event → Event
  | .roll who channel args _ => .roll who channel args none
  | .check who channel args _ => .check who channel args none
  | event => event

/-- Only plays are refused. -/
theorem exists_play {event : Event} {r : Refusal} (h : event.refusal? = some r) :
    ∃ play : Play, event = play.event (some r) := by
  cases event with
  | roll who channel args refusal => cases h; exact ⟨⟨.roll, who, channel, args⟩, rfl⟩
  | check who channel args refusal => cases h; exact ⟨⟨.check, who, channel, args⟩, rfl⟩
  | setMaxDice v => cases h
  | ready => cases h

theorem unrefused_eq_self {event : Event} (h : event.refusal? = none) : event.unrefused = event := by
  cases event <;> cases h <;> rfl

end Event

namespace Play

@[simp] theorem refusal?_event (play : Play) (refusal : Option Refusal) :
    (play.event refusal).refusal? = refusal := by
  obtain ⟨game, who, channel, args⟩ := play
  cases game <;> rfl

@[simp] theorem unrefused_event (play : Play) (refusal : Option Refusal) :
    (play.event refusal).unrefused = play.event none := by
  obtain ⟨game, who, channel, args⟩ := play
  cases game <;> rfl

/-- The record of a refusal, if there is a message that it meets. -/
def complaint (play : Play) (r : Refusal) (messages : List String) : List Record :=
  if r.taken < messages.length then
    [trouble play.game.wording.undelivered play.who play.args r.reason]
  else []

theorem turnOf_refused (play : Play) (cap : Int) (r : Refusal)
    (result : Except Failure (Option String)) :
    let whole := play.turnOf cap none result
    play.turnOf cap (some r) result =
      { posts := whole.posts.take r.taken
        records := whole.records ++ play.complaint r whole.posts
        fault := whole.fault } := by
  cases result with
  | error e => cases e <;> simp [turnOf, conclude, complaint]
  | ok reply =>
    cases reply with
    | none => simp [turnOf, conclude, complaint]
    | some reply =>
      by_cases hr : r.taken < (play.game.messages reply).length <;>
        simp [turnOf, conclude, deliver, complaint, hr]

end Play

/-- A scene, and the same scene without a refusal. The tables before and after are the same, with
all that the provider was asked for. -/
structure CostsMessages (cut whole : Scene Table Event Turn) : Prop where
  event_eq : whole.event = cut.event.unrefused
  before_eq : cut.before = whole.before
  after_eq : cut.after = whole.after
  fault_eq : cut.turn.fault = whole.turn.fault
  /-- A refusal that comes after the last message, or none at all, costs nothing. -/
  spared : (∀ r ∈ cut.event.refusal?, whole.turn.posts.length ≤ r.taken) → cut.turn = whole.turn
  /-- Otherwise the first messages get through, and one record is made of it. -/
  refused : ∀ r ∈ cut.event.refusal?, r.taken < whole.turn.posts.length →
    cut.turn.posts = whole.turn.posts.take r.taken ∧
    ∃ play : Play, cut.event = play.event (some r) ∧
      cut.turn.records = whole.turn.records ++
        [trouble play.game.wording.undelivered play.who play.args r.reason]

theorem costsMessages_step (t : Table) (event : Event) :
    CostsMessages (.ofStep step t event) (.ofStep step t event.unrefused) := by
  cases hrefusal : event.refusal? with
  | none =>
    have hsame := Event.unrefused_eq_self hrefusal
    rw [hsame]
    refine ⟨hsame.symm, rfl, rfl, rfl, fun _ => rfl, fun r hr => ?_⟩
    rw [Scene.ofStep, hrefusal] at hr
    cases hr
  | some r =>
    obtain ⟨play, rfl⟩ := Event.exists_play hrefusal
    have hwhole := play.unrefused_event (some r)
    have hcut := play.turnOf_refused t.store.settings.maxDice r
      (play.reply t.store.settings.maxDice t.source).1
    rw [hwhole]
    refine ⟨hwhole.symm, rfl, ?_, ?_, fun hspared => ?_, fun r' hr' hlt => ?_⟩
    · simp only [Scene.ofStep, step_event]
    · simp only [Scene.ofStep, step_event, hcut]
    · have hle := hspared r hrefusal
      simp only [Scene.ofStep, step_event] at hle ⊢
      rw [hcut, List.take_of_length_le hle, Play.complaint, if_neg (Nat.not_lt.2 hle),
        List.append_nil]
    · obtain rfl : r = r' := Option.some.inj (hrefusal.symm.trans hr')
      simp only [Scene.ofStep, step_event] at hlt ⊢
      refine ⟨by rw [hcut], play, rfl, ?_⟩
      rw [hcut, Play.complaint, if_pos hlt]

theorem step_of_spared {t : Table} {play : Play} {refusal : Option Refusal}
    (h : ∀ r ∈ refusal, (t.step (play.event none)).1.posts.length ≤ r.taken) :
    t.step (play.event refusal) = t.step (play.event none) := by
  have hcosts := costsMessages_step t (play.event refusal)
  rw [Play.unrefused_event] at hcosts
  refine Prod.ext (hcosts.spared fun r hr => h r ?_) hcosts.after_eq
  rwa [Scene.ofStep, Play.refusal?_event] at hr

theorem step_unrefused (t : Table) (event : Event) :
    (t.step event.unrefused).2 = (t.step event).2 :=
  (costsMessages_step t event).after_eq.symm

theorem costsMessages_scenes (t : Table) (events : List Event) :
    List.Forall₂ CostsMessages (scenes step t events)
      (scenes step t (events.map Event.unrefused)) := by
  induction events generalizing t with
  | nil => exact .nil
  | cons event events ih =>
    rw [List.map_cons, scenes, scenes, step_unrefused]
    exact .cons (costsMessages_step t event) (ih _)

/-- A run goes through its scenes. -/
theorem run_fst (t : Table) (events : List Event) :
    (t.run events).1 = (scenes step t events).map Scene.turn :=
  turns_eq_map_scenes (fun _ => rfl) (fun _ _ _ => rfl) t events

theorem run_snd_unrefused (t : Table) (events : List Event) :
    (t.run (events.map Event.unrefused)).2 = (t.run events).2 := by
  induction events generalizing t with
  | nil => rfl
  | cons event events ih =>
    change ((t.step event.unrefused).2.run (events.map Event.unrefused)).2 =
      ((t.step event).2.run events).2
    rw [step_unrefused, ih]

/-- Whenever and wherever a chat refuses messages, a run differs from the run without refusals in
nothing but the messages that do not get through and one record for each command that has such. -/
theorem refusal_costs_messages (t : Table) (events : List Event) :
    (t.run events).1 = (scenes step t events).map Scene.turn ∧
      (t.run (events.map Event.unrefused)).1 =
        (scenes step t (events.map Event.unrefused)).map Scene.turn ∧
      (t.run events).2 = (t.run (events.map Event.unrefused)).2 ∧
      List.Forall₂ CostsMessages (scenes step t events)
        (scenes step t (events.map Event.unrefused)) :=
  ⟨run_fst t events, run_fst t _, (run_snd_unrefused t events).symm, costsMessages_scenes t events⟩

end Table
end Croupier
