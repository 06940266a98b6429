/-!
# Croupier.Proofs.Scenes

A run looked at step by step. A `Scene` is one step with the states before and after it, and
`scenes` are the steps of a run in order, for whatever kind of state, event and turn there is.
-/

namespace Croupier

/-- The state before a step, what happened, what came of it, the state after. -/
structure Scene (σ ε τ : Type) where
  before : σ
  event : ε
  turn : τ
  after : σ

section Scenes

variable {σ ε τ : Type} (step : σ → ε → τ × σ)

namespace Scene

def ofStep (s : σ) (event : ε) : Scene σ ε τ :=
  ⟨s, event, (step s event).1, (step s event).2⟩

end Scene

def scenes (s : σ) : List ε → List (Scene σ ε τ)
  | [] => []
  | event :: events => .ofStep step s event :: scenes (step s event).2 events

variable {step} {s : σ} {events : List ε}

/-- A run that makes the steps in order has the turns of its scenes. -/
theorem turns_eq_map_scenes {run : σ → List ε → List τ × σ} (hnil : ∀ s, (run s []).1 = [])
    (hcons : ∀ s event events,
      (run s (event :: events)).1 = (step s event).1 :: (run (step s event).2 events).1)
    (s : σ) (events : List ε) : (run s events).1 = (scenes step s events).map Scene.turn := by
  induction events generalizing s with
  | nil => exact hnil s
  | cons event events ih =>
    rw [hcons, scenes, List.map_cons, ih]
    rfl

/-- Every scene of a run is a step. -/
theorem eq_ofStep_of_mem_scenes {x : Scene σ ε τ} (h : x ∈ scenes step s events) :
    x = .ofStep step x.before x.event := by
  induction events generalizing s with
  | nil => cases h
  | cons event events ih =>
    rcases List.mem_cons.1 h with rfl | h
    · rfl
    · exact ih h

end Scenes
end Croupier
