import Croupier.Proofs.Orders
import Croupier.Proofs.Plays
import Croupier.Proofs.Posts
import Croupier.Proofs.Stops

/-!
# Croupier.Proofs.Endings

A play is all or nothing. It is ignored, or aborted for want of entropy, or broken off by a defect
of the provider, or answered; what is posted is posted in the last case only, after all throws have
been made.

* `Play.reply_of_opens`, `Play.reply_of_not_opens`: what a play draws.
* `Play.Comes`, `Play.Shows`: what brings an ending about, and what is seen of it.
* `all_or_nothing`: a play that is ever over has exactly one ending.
-/

namespace Croupier

open Entropy Drawing

/-! ## Records of lines that are ignored -/

theorem DiceOrder.Taken.level_of_records {taken : Taken} : ∀ r ∈ taken.records, r.level = .debug := by
  cases taken <;> simp [records, passedOver, Record.debug]

theorem CheckOrder.Taken.level_of_records {taken : Taken} :
    ∀ r ∈ taken.records, r.level = .debug := by
  cases taken <;> simp [records, Record.debug]

/-! ## Replies that can be posted -/

namespace Table

theorem Game.messages_ne_nil (game : Game) {reply : String} {c : Char} (hc : c ∈ reply.toList)
    (hne : c ≠ '\n') : game.messages reply ≠ [] := by
  cases game with
  | check => exact Message.split_ne_nil (by decide) hc hne
  | roll => exact diceMessages_ne_nil hc hne

/-! ## What a play draws -/

/-- A word that may begin a line of the game. -/
def Game.Accepts (game : Game) (cap : Int) (word : String) : Prop :=
  match game with
  | .roll => (DiceOrder.accept? (some cap) word).isSome
  | .check => ∃ target, Target.parse (some word) = .ok target

namespace Play

variable (play : Play) (cap : Int)

/-- The first word of the line is there and acceptable. -/
def Opens : Prop :=
  ∃ word ∈ (Text.words play.args).head?, play.game.Accepts cap word

def throws : List Throw :=
  match play.game with
  | .roll =>
    match DiceOrder.ofArgs (some cap) (some play.args) with
    | .order order => order.specs.flatMap (·.throws 1)
    | _ => []
  | .check => DieSpec.d100.throws 0

theorem reply_of_opens {play : Play} {cap : Int} (h : play.Opens cap) :
    ∃ text : List Int → String,
      play.reply cap = map (fun faces => some (text faces)) (throwAll (play.throws cap)) := by
  obtain ⟨game, who, channel, args⟩ := play
  cases game with
  | roll =>
    obtain ⟨order, horder⟩ := (DiceOrder.exists_order_iff (some cap) (some args)).2 h
    refine ⟨fun faces => Reply.diceText who order.label (Reply.deal order.specs faces), ?_⟩
    simp only [reply, throws, diceReply_eq_throwAll, horder]
  | check =>
    obtain ⟨order, horder⟩ := (CheckOrder.exists_order_iff (some args)).2 h
    refine ⟨fun faces => Reply.gradeText who order (DieSpec.d100.outcome faces).total, ?_⟩
    simp only [reply, throws, checkReply_eq_throwAll, horder]

theorem reply_of_not_opens {play : Play} {cap : Int} (h : ¬ play.Opens cap) :
    play.reply cap = give none := by
  obtain ⟨game, who, channel, args⟩ := play
  cases game with
  | roll =>
    refine diceReply_of_no_order (fun order horder => h ?_) who
    exact (DiceOrder.exists_order_iff (some cap) (some args)).1 ⟨order, horder⟩
  | check =>
    refine checkReply_of_no_order (fun order horder => h ?_) who
    exact (CheckOrder.exists_order_iff (some args)).1 ⟨order, horder⟩

theorem level_of_passed : ∀ r ∈ play.passed cap, r.level = .debug := by
  obtain ⟨game, who, channel, args⟩ := play
  cases game with
  | roll => exact DiceOrder.Taken.level_of_records
  | check => exact CheckOrder.Taken.level_of_records

/-- A reply begins with the tag of its game, and so there is something to post. -/
theorem messages_ne_nil {play : Play} {cap : Int} {s t : Source} {reply : String}
    (h : play.reply cap s = (.ok (some reply), t)) : play.game.messages reply ≠ [] := by
  obtain ⟨game, who, channel, args⟩ := play
  cases game with
  | roll =>
    obtain ⟨order, outcomes, horder, hroll, rfl⟩ := exists_outcomes h
    have hmem := Reply.mem_diceText (c := 'D') (by decide) who order.label
      (outcomes_ne_nil horder hroll)
    exact Game.messages_ne_nil .roll hmem (by decide)
  | check =>
    obtain ⟨order, o, g, line, -, -, -, -, rfl⟩ := exists_grade h
    have hmem : 'E' ∈ (Reply.heading "EPD" who order.label).toList :=
      Reply.mem_heading (by decide) who order.label
    refine Game.messages_ne_nil .check (c := 'E') ?_ (by decide)
    rw [String.toList_append]
    exact List.mem_append_left _ hmem

end Play

/-! ## Endings -/

inductive Ending where
  | ignored
  | aborted (e : Outage)
  | brokenOff (how : Breakdown) (message : String)
  | answered
  deriving DecidableEq, Repr

/-- The ending of a play whose throws come to `result`. -/
def Ending.ofThrows? (result : Except Failure (List Int)) : Option Ending :=
  match result with
  | .ok _ => some .answered
  | .error (.unavailable e) => some (.aborted e)
  | .error (.defect how message) => some (.brokenOff how message)
  | .error _ => none

structure Ignored (scene : Scene Table Event Turn) : Prop where
  posts_eq : scene.turn.posts = []
  fault_eq : scene.turn.fault = none
  level_eq : ∀ r ∈ scene.turn.records, r.level = .debug
  /-- Nothing has been asked for, and no byte has been used. -/
  after_eq : scene.after = scene.before

structure Aborted (play : Play) (e : Outage) (scene : Scene Table Event Turn) : Prop where
  posts_eq : scene.turn.posts = []
  fault_eq : scene.turn.fault = none
  records_eq : scene.turn.records =
    [trouble play.game.wording.aborted play.who play.args e.message]

structure BrokenOff (how : Breakdown) (message : String) (scene : Scene Table Event Turn) :
    Prop where
  posts_eq : scene.turn.posts = []
  fault_eq : scene.turn.fault = some (.draw (.defect how message))
  records_eq : scene.turn.records = []
  not_outage : how = .badValue ∨ how = .internal

structure Answered (play : Play) (scene : Scene Table Event Turn) : Prop where
  posts_ne_nil : scene.turn.posts ≠ []
  fault_eq : scene.turn.fault = none
  records_eq : scene.turn.records = [.info (play.game.wording.tag ++ " by " ++ play.who ++
    " in #" ++ play.channel ++ ": " ++ play.args)]
  /-- Even a chat that takes no message comes when all has been thrown. -/
  settled : ∀ refusal, (scene.before.step (play.event refusal)).2 = scene.after

namespace Play

variable (play : Play) (cap : Int)

/-- What brings an ending about: the play is over, and the source `s` has become `u`. -/
def Comes (s u : Source) : Ending → Prop
  | .ignored => ¬ play.Opens cap ∧ u = s
  | .aborted e => play.Opens cap ∧ StopsAt (play.throws cap) s (.unavailable e) u
  | .brokenOff how message =>
    play.Opens cap ∧ StopsAt (play.throws cap) s (.defect how message) u
  | .answered => play.Opens cap ∧ ∃ faces, throwAll (play.throws cap) s = (.ok faces, u)

/-- The play is never over. -/
def Hangs (s : Source) : Prop :=
  play.Opens cap ∧ Endless (play.throws cap) s

def Shows (scene : Scene Table Event Turn) : Ending → Prop
  | .ignored => Ignored scene
  | .aborted e => Aborted play e scene
  | .brokenOff how message => BrokenOff how message scene
  | .answered => Answered play scene

variable {play cap} {s u v : Source}

theorem exists_comes (h : ¬ play.Hangs cap s) : ∃ ending u, play.Comes cap s u ending := by
  by_cases hopens : play.Opens cap
  · rcases throwAll_cases (play.throws cap) s with ⟨faces, u, hok⟩ | ⟨e, u, hstop⟩ | hendless
    · exact ⟨.answered, u, hopens, faces, hok⟩
    · rcases hstop.cases with ⟨e, rfl⟩ | ⟨how, message, -, rfl⟩
      · exact ⟨.aborted e, u, hopens, hstop⟩
      · exact ⟨.brokenOff how message, u, hopens, hstop⟩
    · exact absurd ⟨hopens, hendless⟩ h
  · exact ⟨.ignored, s, hopens, rfl⟩

theorem ofThrows?_of_comes {ending : Ending} (hopens : play.Opens cap)
    (h : play.Comes cap s u ending) :
    Ending.ofThrows? (throwAll (play.throws cap) s).1 = some ending := by
  cases ending with
  | ignored => exact absurd hopens h.1
  | aborted e => rw [throwAll_of_stopsAt h.2]; rfl
  | brokenOff how message => rw [throwAll_of_stopsAt h.2]; rfl
  | answered =>
    obtain ⟨-, faces, hok⟩ := h
    rw [hok]; rfl

theorem Comes.opens_iff {ending : Ending} (h : play.Comes cap s u ending) :
    play.Opens cap ↔ ending ≠ .ignored := by
  cases ending with
  | ignored => exact iff_of_false h.1 (not_not.2 rfl)
  | aborted e => exact iff_of_true h.1 nofun
  | brokenOff how message => exact iff_of_true h.1 nofun
  | answered => exact iff_of_true h.1 nofun

theorem Comes.unique {ending ending' : Ending} (h : play.Comes cap s u ending)
    (h' : play.Comes cap s v ending') : ending = ending' := by
  by_cases hopens : play.Opens cap
  · have heq := ofThrows?_of_comes hopens h
    rw [ofThrows?_of_comes hopens h'] at heq
    exact (Option.some.inj heq).symm
  · have hignored := not_not.1 (hopens ∘ h.opens_iff.2)
    have hignored' := not_not.1 (hopens ∘ h'.opens_iff.2)
    rw [hignored, hignored']

theorem not_comes_of_hangs {ending : Ending} (h : play.Hangs cap s) :
    ¬ play.Comes cap s u ending := by
  intro hcomes
  have heq := ofThrows?_of_comes h.1 hcomes
  obtain ⟨t, ht⟩ := throwAll_of_endless h.2
  rw [ht] at heq
  cases heq

/-- The reply of a play whose throws fail. -/
theorem reply_of_stopsAt {e : Failure} (hopens : play.Opens cap)
    (h : StopsAt (play.throws cap) s e u) : play.reply cap s = (.error e, u) := by
  obtain ⟨text, htext⟩ := reply_of_opens hopens
  rw [htext, map_apply, throwAll_of_stopsAt h]
  rfl

end Play

section Step

variable {t : Table} {play : Play} {u : Source} {ending : Ending}

theorem step_of_reply {result : Except Failure (Option String)}
    (h : play.reply t.store.settings.maxDice t.source = (result, u)) (refusal : Option Refusal) :
    t.step (play.event refusal) =
      (play.turnOf t.store.settings.maxDice refusal result, { t with source := u }) := by
  rw [step_event, h]

theorem scene_of_reply {result : Except Failure (Option String)}
    (h : play.reply t.store.settings.maxDice t.source = (result, u)) :
    Scene.ofStep step t (play.event none) =
      ⟨t, play.event none, play.turnOf t.store.settings.maxDice none result,
        { t with source := u }⟩ := by
  rw [Scene.ofStep, step_of_reply h]

theorem shows_of_comes (h : play.Comes t.store.settings.maxDice t.source u ending) :
    (Scene.ofStep step t (play.event none)).after.source = u ∧
      play.Shows (.ofStep step t (play.event none)) ending := by
  cases ending with
  | ignored =>
    obtain ⟨hopens, rfl⟩ := h
    have hreply : play.reply t.store.settings.maxDice t.source = (.ok none, t.source) := by
      rw [Play.reply_of_not_opens hopens]; rfl
    rw [scene_of_reply hreply]
    exact ⟨rfl, rfl, rfl, play.level_of_passed _, rfl⟩
  | aborted e =>
    rw [scene_of_reply (Play.reply_of_stopsAt h.1 h.2)]
    exact ⟨rfl, rfl, rfl, rfl⟩
  | brokenOff how message =>
    rw [scene_of_reply (Play.reply_of_stopsAt h.1 h.2)]
    refine ⟨rfl, rfl, rfl, rfl, ?_⟩
    rcases h.2.cases with ⟨e, he⟩ | ⟨how', message', hhow, he⟩
    · cases he
    · cases he; exact hhow
  | answered =>
    obtain ⟨hopens, faces, hok⟩ := h
    obtain ⟨text, htext⟩ := Play.reply_of_opens hopens
    have hreply : play.reply t.store.settings.maxDice t.source = (.ok (some (text faces)), u) := by
      rw [htext, map_apply, hok]; rfl
    rw [scene_of_reply hreply]
    refine ⟨rfl, Play.messages_ne_nil hreply, rfl, rfl, fun refusal => ?_⟩
    rw [step_of_reply hreply]

end Step

/-- A play that is ever over has exactly one ending, before any chat that takes what is posted.
Nothing is posted unless everything has been thrown, and the settings stay as they are. Only over a
provider that goes round for ever may a play not be over. -/
theorem all_or_nothing (t : Table) (play : Play) :
    let cap := t.store.settings.maxDice
    let scene : Scene Table Event Turn := .ofStep step t (play.event none)
    (∀ refusal : Option Refusal, (∀ r ∈ refusal, scene.turn.posts.length ≤ r.taken) →
        t.step (play.event refusal) = t.step (play.event none)) ∧
      scene.after.store = t.store ∧
      (∀ ending u, play.Comes cap t.source u ending →
        scene.after.source = u ∧ play.Shows scene ending) ∧
      (¬ play.Hangs cap t.source →
        ∃! ending, play.Comes cap t.source scene.after.source ending ∧ play.Shows scene ending) ∧
      (play.Hangs cap t.source →
        (∀ ending u, ¬ play.Comes cap t.source u ending) ∧ ¬ t.source.supply.provider.Ends) := by
  have hstore : (t.step (play.event none)).2.store = t.store := by rw [step_event]
  refine ⟨fun refusal => step_of_spared, hstore, fun ending u => shows_of_comes, fun hover => ?_, fun hhangs =>
    ⟨fun ending u => Play.not_comes_of_hangs hhangs, hhangs.2.not_ends⟩⟩
  obtain ⟨ending, u, hcomes⟩ := Play.exists_comes hover
  obtain ⟨rfl, hshows⟩ := shows_of_comes hcomes
  exact ⟨ending, ⟨hcomes, hshows⟩, fun ending' h => h.1.unique hcomes⟩

end Table
end Croupier
