import Croupier.Session

/-!
# Croupier.Proofs.Drawing

Everything that is drawn from a source is made of single bytes and fair draws, one after another
(`ByBytes`): uniform numbers, rolls, outcomes and replies, and so every call of a session that is
not a fill (`Session.drawing_of_call`). What is to hold of all of them is proved by induction on
`ByBytes`, once. What every request for a byte keeps, a session of such calls keeps
(`Session.invariant_run`).
-/

namespace Croupier

open Entropy

/-- What is drawn from a source, and the source that is left. -/
abbrev Drawing (α : Type) := Source → Except Failure α × Source

namespace Drawing

variable {α β : Type}

def give (a : α) : Drawing α := fun s => (.ok a, s)

def fail (e : Failure) : Drawing α := fun s => (.error e, s)

def andThen (d : Drawing α) (f : α → Drawing β) : Drawing β := fun s =>
  match d s with
  | (.error e, s) => (.error e, s)
  | (.ok a, s) => f a s

theorem andThen_of_ok {d : Drawing α} {f : α → Drawing β} {s t : Source} {a : α}
    (h : d s = (.ok a, t)) : andThen d f s = f a t := by
  simp only [andThen, h]

theorem andThen_of_error {d : Drawing α} {f : α → Drawing β} {s t : Source} {e : Failure}
    (h : d s = (.error e, t)) : andThen d f s = (.error e, t) := by
  simp only [andThen, h]

theorem ok_of_andThen {d : Drawing α} {f : α → Drawing β} {s t : Source} {b : β}
    (h : andThen d f s = (.ok b, t)) : ∃ a u, d s = (.ok a, u) ∧ f a u = (.ok b, t) := by
  rcases hd : d s with ⟨r, u⟩
  cases r with
  | error e => rw [andThen_of_error hd] at h; cases h
  | ok a => rw [andThen_of_ok hd] at h; exact ⟨a, u, rfl, h⟩

/-- The drawing that carries a drawn value through a function. -/
def map (g : α → β) (d : Drawing α) : Drawing β :=
  d.andThen fun a => give (g a)

theorem map_apply (g : α → β) (d : Drawing α) (s : Source) :
    d.map g s = ((d s).1.map g, (d s).2) := by
  rcases h : d s with ⟨r, t⟩
  cases r with
  | error e => exact andThen_of_error h
  | ok a => exact andThen_of_ok h

theorem ok_of_map {g : α → β} {d : Drawing α} {s t : Source} {b : β}
    (h : d.map g s = (.ok b, t)) : ∃ a, d s = (.ok a, t) ∧ g a = b := by
  obtain ⟨a, u, hd, hgive⟩ := ok_of_andThen h
  cases hgive
  exact ⟨a, hd, rfl⟩

theorem andThen_congr {d : Drawing α} {f g : α → Drawing β}
    (h : ∀ s t a, d s = (.ok a, t) → f a t = g a t) : d.andThen f = d.andThen g := by
  funext s
  rcases hd : d s with ⟨r, t⟩
  cases r with
  | error e => rw [andThen_of_error hd, andThen_of_error hd]
  | ok a => rw [andThen_of_ok hd, andThen_of_ok hd, h s t a hd]

theorem give_andThen (a : α) (f : α → Drawing β) : (give a).andThen f = f a := rfl

theorem andThen_assoc {γ : Type} (d : Drawing α) (f : α → Drawing β) (g : β → Drawing γ) :
    (d.andThen f).andThen g = d.andThen fun a => (f a).andThen g := by
  funext s
  rcases hd : d s with ⟨r, t⟩
  cases r with
  | error e => rw [andThen_of_error hd, andThen_of_error (andThen_of_error hd)]
  | ok a => simp only [andThen, hd]

/-- Drawings that get at their source through bytes and fair draws only. What such a drawing does
next depends on what it has been given, and on nothing else of the source. -/
inductive ByBytes : {α : Type} → Drawing α → Prop
  | give {α : Type} (a : α) : ByBytes (give a)
  | fail {α : Type} (e : Failure) : ByBytes (fail e : Drawing α)
  | byte : ByBytes Source.nextByte
  | draw {sides : Nat} : minSides ≤ sides → sides ≤ maxSides → ByBytes (draw (fairBound sides))
  | andThen {α β : Type} {d : Drawing α} {f : α → Drawing β} :
      ByBytes d → (∀ a, ByBytes (f a)) → ByBytes (andThen d f)

theorem ByBytes.map {g : α → β} {d : Drawing α} (h : ByBytes d) : ByBytes (d.map g) :=
  .andThen h fun a => .give (g a)

end Drawing

open Drawing

/-! ## Numbers and rolls -/

theorem uniform_of_range {sides : Int} (h : (minSides : Int) ≤ sides ∧ sides ≤ maxSides)
    (offset : Int) :
    uniform sides offset =
      map (fun b => offset + (b.toNat : Int) % sides) (draw (fairBound sides.toNat)) := by
  funext s
  rw [map_apply, uniform, if_pos h]
  rcases draw (fairBound sides.toNat) s with ⟨r, t⟩
  cases r <;> rfl

theorem uniform_of_not_range {sides : Int} (h : ¬ ((minSides : Int) ≤ sides ∧ sides ≤ maxSides))
    (offset : Int) : uniform sides offset = fail (.ofUnfit (OutOfRange.sides sides).unfit) := by
  funext s
  rw [uniform, if_neg h]; rfl

theorem byBytes_uniform (sides offset : Int) : ByBytes (uniform sides offset) := by
  by_cases h : (minSides : Int) ≤ sides ∧ sides ≤ maxSides
  · rw [uniform_of_range h]
    exact .map (.draw (by omega) (by omega))
  · rw [uniform_of_not_range h]
    exact .fail _

theorem rollMany_succ (sides offset : Int) (n : Nat) :
    rollMany sides offset (n + 1) =
      andThen (uniform sides offset) fun roll => map (roll :: ·) (rollMany sides offset n) := by
  funext s
  simp only [rollMany, andThen]
  rcases uniform sides offset s with ⟨r, t⟩
  cases r with
  | error e => rfl
  | ok roll =>
    simp only [map_apply]
    rcases rollMany sides offset n t with ⟨r, u⟩
    cases r <;> rfl

theorem byBytes_rollMany (sides offset : Int) (n : Nat) : ByBytes (rollMany sides offset n) := by
  induction n with
  | zero => exact .give []
  | succ n ih =>
    rw [rollMany_succ]
    exact .andThen (byBytes_uniform sides offset) fun _ => .map ih

/-! ## Outcomes -/

namespace DieSpec

/-- The outcome, unless it has a number in it that is too long to be written. -/
def written (spec : DieSpec) (rolls : List Int) : Except Failure Outcome :=
  if spec.isTraceable (spec.outcome rolls) then .ok (spec.outcome rolls) else .error .unwritable

theorem evaluate_eq (spec : DieSpec) (offset : Int) :
    spec.evaluate offset =
      andThen (rollMany spec.sides offset spec.count) fun rolls s => (spec.written rolls, s) := by
  funext s
  simp only [evaluate, andThen]
  rcases rollMany spec.sides offset spec.count s with ⟨r, t⟩
  cases r <;> rfl

theorem byBytes_evaluate (spec : DieSpec) (offset : Int) : ByBytes (spec.evaluate offset) := by
  rw [evaluate_eq]
  refine .andThen (byBytes_rollMany _ _ _) fun rolls => ?_
  cases spec.written rolls with
  | error e => exact .fail e
  | ok o => exact .give o

end DieSpec

/-! ## Replies -/

namespace Reply

theorem rollAll_cons (spec : DieSpec) (specs : List DieSpec) :
    rollAll (spec :: specs) =
      andThen (spec.evaluate 1) fun outcome => map (outcome :: ·) (rollAll specs) := by
  funext s
  simp only [rollAll, andThen]
  rcases spec.evaluate 1 s with ⟨r, t⟩
  cases r with
  | error e => rfl
  | ok outcome =>
    simp only [map_apply]
    rcases rollAll specs t with ⟨r, u⟩
    cases r <;> rfl

theorem byBytes_rollAll (specs : List DieSpec) : ByBytes (rollAll specs) := by
  induction specs with
  | nil => exact .give []
  | cons spec specs ih =>
    rw [rollAll_cons]
    exact .andThen (spec.byBytes_evaluate 1) fun _ => .map ih

theorem toDice_eq (who : String) (order : DiceOrder) :
    toDice who order = map (diceText who order.label) (rollAll order.specs) := by
  funext s
  rw [map_apply, toDice]
  rcases rollAll order.specs s with ⟨r, t⟩
  cases r <;> rfl

theorem byBytes_toDice (who : String) (order : DiceOrder) : ByBytes (toDice who order) := by
  rw [toDice_eq]
  exact .map (byBytes_rollAll _)

/-- The text of a check whose roll is known. -/
def checkText (who : String) (order : CheckOrder) (roll : Int) : Except Failure String :=
  match grade roll order.target with
  | .error e => .error (.ofUnfit e)
  | .ok g =>
    match g.text? with
    | none => .error .unwritable
    | some text => .ok (heading "EPD" who order.label ++ text)

theorem toCheck_eq (who : String) (order : CheckOrder) :
    toCheck who order =
      andThen (DieSpec.d100.evaluate 0) fun o s => (checkText who order o.total, s) := by
  funext s
  simp only [toCheck, andThen]
  rcases DieSpec.d100.evaluate 0 s with ⟨r, t⟩
  cases r with
  | error e => rfl
  | ok o =>
    simp only [checkText]
    cases grade o.total order.target with
    | error e => rfl
    | ok g => cases hw : g.text? <;> simp [hw]

theorem byBytes_toCheck (who : String) (order : CheckOrder) : ByBytes (toCheck who order) := by
  rw [toCheck_eq]
  refine .andThen (DieSpec.d100.byBytes_evaluate 0) fun o => ?_
  cases checkText who order o.total with
  | error e => exact .fail e
  | ok text => exact .give text

end Reply

theorem diceReply_of_order {args : Option String} {cap : Option Int} {order : DiceOrder}
    (h : DiceOrder.ofArgs cap args = .order order) (who : String) :
    diceReply who args cap = map some (Reply.toDice who order) := by
  funext s
  rw [map_apply, diceReply, h]
  rcases hd : Reply.toDice who order s with ⟨r, t⟩
  cases r <;> simp [hd, Except.map]

theorem diceReply_of_no_order {args : Option String} {cap : Option Int}
    (h : ∀ order, DiceOrder.ofArgs cap args ≠ .order order) (who : String) :
    diceReply who args cap = give none := by
  funext s
  rw [diceReply]
  split
  · exact absurd ‹_› (h _)
  · rfl

theorem byBytes_diceReply (who : String) (args : Option String) (cap : Option Int) :
    ByBytes (diceReply who args cap) := by
  by_cases h : ∃ order, DiceOrder.ofArgs cap args = .order order
  · obtain ⟨order, h⟩ := h
    rw [diceReply_of_order h]
    exact .map (Reply.byBytes_toDice who order)
  · rw [diceReply_of_no_order fun order ho => h ⟨order, ho⟩]
    exact .give none

theorem checkReply_of_order {args : Option String} {order : CheckOrder}
    (h : CheckOrder.ofArgs args = .order order) (who : String) :
    checkReply who args = map some (Reply.toCheck who order) := by
  funext s
  rw [map_apply, checkReply, h]
  rcases hd : Reply.toCheck who order s with ⟨r, t⟩
  cases r <;> simp [hd, Except.map]

theorem checkReply_of_no_order {args : Option String}
    (h : ∀ order, CheckOrder.ofArgs args ≠ .order order) (who : String) :
    checkReply who args = give none := by
  funext s
  rw [checkReply]
  split
  · exact absurd ‹_› (h _)
  · rfl

theorem byBytes_checkReply (who : String) (args : Option String) :
    ByBytes (checkReply who args) := by
  by_cases h : ∃ order, CheckOrder.ofArgs args = .order order
  · obtain ⟨order, h⟩ := h
    rw [checkReply_of_order h]
    exact .map (Reply.byBytes_toCheck who order)
  · rw [checkReply_of_no_order fun order ho => h ⟨order, ho⟩]
    exact .give none

/-! ## Calls -/

namespace Session

def Call.isFill : Call → Bool
  | .fill _ => true
  | _ => false

/-- What a call draws; to fill a buffer is not to draw. -/
def Call.drawing? : Call → Option (Drawing Product)
  | .byte => some (map .byte Source.nextByte)
  | .fill _ => none
  | .uniform sides offset => some (map .number (Entropy.uniform sides offset))
  | .evaluate count sides bonus offset =>
    match DieSpec.ofInts count sides bonus with
    | .error e => some (fail (.ofUnfit e))
    | .ok spec => some (map .outcome (spec.evaluate offset))
  | .dice who args cap => some (map .reply (diceReply who args cap))
  | .check who args => some (map .reply (checkReply who args))

theorem drawing_of_call {call : Call} (h : call.isFill = false) :
    ∃ (d : Drawing Product) (records : List Record), call.drawing? = some d ∧ ByBytes d ∧
      ∀ s, call.run s = (⟨(d s).1, records⟩, (d s).2) := by
  cases call with
  | byte =>
    refine ⟨_, [], rfl, .map .byte, fun s => ?_⟩
    rw [map_apply]; rfl
  | fill n => cases h
  | uniform sides offset =>
    refine ⟨_, [], rfl, .map (byBytes_uniform _ _), fun s => ?_⟩
    rw [map_apply]; rfl
  | evaluate count sides bonus offset =>
    simp only [Call.drawing?, Call.run]
    cases DieSpec.ofInts count sides bonus with
    | error e => exact ⟨_, [], rfl, .fail _, fun s => rfl⟩
    | ok spec =>
      refine ⟨_, [], rfl, .map (spec.byBytes_evaluate _), fun s => ?_⟩
      rw [map_apply]; rfl
  | dice who args cap =>
    refine ⟨_, (DiceOrder.ofArgs cap args).records, rfl, .map (byBytes_diceReply _ _ _),
      fun s => ?_⟩
    rw [map_apply]; rfl
  | check who args =>
    refine ⟨_, (CheckOrder.ofArgs args).records, rfl, .map (byBytes_checkReply _ _), fun s => ?_⟩
    rw [map_apply]; rfl

end Session

/-! ## What every request for a byte keeps -/

section Invariant

variable {P : Source → Prop} (hP : ∀ s, P s → P s.nextByte.2)
include hP

theorem invariant_drawWithin (bound fuel : Nat) {s : Source} (h : P s) :
    P (drawWithin bound fuel s).2 := by
  induction fuel generalizing s with
  | zero => exact h
  | succ fuel ih =>
    have hnext := hP s h
    rcases hs : s.nextByte with ⟨r, t⟩
    rw [hs] at hnext
    cases r with
    | error e =>
      rw [drawWithin_succ_of_error hs]
      exact hnext
    | ok b =>
      by_cases hb : b.toNat < bound
      · rw [drawWithin_succ_of_lt hs hb]
        exact hnext
      · rw [drawWithin_succ_of_le hs (Nat.not_lt.1 hb)]
        exact ih hnext

theorem Drawing.ByBytes.invariant {α : Type} {d : Drawing α} (hd : ByBytes d) {s : Source}
    (h : P s) : P (d s).2 := by
  induction hd generalizing s with
  | give a => exact h
  | fail e => exact h
  | byte => exact hP s h
  | draw _ _ => exact invariant_drawWithin hP _ _ h
  | @andThen _ _ d f _ _ ihd ihf =>
    have hleft := ihd h
    rcases hs : d s with ⟨r, t⟩
    rw [hs] at hleft
    cases r with
    | error e =>
      rw [andThen_of_error hs]
      exact hleft
    | ok a =>
      rw [andThen_of_ok hs]
      exact ihf a hleft

theorem Session.invariant_run {calls : List Call} (hcalls : ∀ call ∈ calls, call.isFill = false)
    {s : Source} (h : P s) : P (run s calls).2 := by
  induction calls generalizing s with
  | nil => exact h
  | cons call calls ih =>
    obtain ⟨hcall, hrest⟩ := List.forall_mem_cons.1 hcalls
    obtain ⟨d, records, -, hd, hrun⟩ := drawing_of_call hcall
    have hleft := ih hrest (hd.invariant hP h)
    simp only [run, hrun]
    exact hleft

end Invariant
end Croupier
