import Mathlib.Data.List.Basic

/-!
# Transition systems with a history

A step takes a state to a state and emits events.  A run is a sequence of steps, and its
history is everything they emitted.  Safety of a run is an invariant of the state
together with the history so far.
-/

namespace Ginkgo.Lib

variable {σ ε : Type}

/-- `Star step s history s'`: a run from `s` to `s'` that emitted `history`. -/
inductive Star (step : σ → List ε → σ → Prop) : σ → List ε → σ → Prop
  | refl (s : σ) : Star step s [] s
  | tail {s s' s'' : σ} {history events : List ε} :
      Star step s history s' → step s' events s'' → Star step s (history ++ events) s''

namespace Star

variable {step : σ → List ε → σ → Prop} {s s' s'' : σ} {history hist' events : List ε}

theorem single (h : step s events s') : Star step s events s' := by
  have := Star.tail (Star.refl s) h
  rwa [List.nil_append] at this

theorem trans (h : Star step s history s') (h' : Star step s' hist' s'') :
    Star step s (history ++ hist') s'' := by
  induction h' with
  | refl => rwa [List.append_nil]
  | tail _ hstep ih =>
    rw [← List.append_assoc]
    exact ih.tail hstep

/-- A step that emits nothing extends a run without touching its history. -/
theorem quiet (h : Star step s history s') (hstep : step s' [] s'') : Star step s history s'' := by
  have := h.tail hstep
  rwa [List.append_nil] at this

theorem mono {step' : σ → List ε → σ → Prop}
    (hstep : ∀ a events b, step a events b → step' a events b) (h : Star step s history s') :
    Star step' s history s' := by
  induction h with
  | refl => exact .refl _
  | tail _ hlast ih => exact ih.tail (hstep _ _ _ hlast)

/-- What holds of the empty history and is kept by every step holds of every run. -/
theorem invariant {I : List ε → σ → Prop} (h : Star step s history s') (hinit : I [] s)
    (hstep : ∀ past a events b, I past a → step a events b → I (past ++ events) b) :
    I history s' := by
  induction h with
  | refl => exact hinit
  | tail _ hlast ih => exact hstep _ _ _ _ ih hlast

/-- Where every step emits at most one event, a run with one event has one step that emits it. -/
theorem exists_of_singleton (hone : ∀ a events b, step a events b → events.length ≤ 1) {event : ε}
    (h : Star step s [event] s') :
    ∃ a b, Star step s [] a ∧ step a [event] b ∧ Star step b [] s' := by
  have hall : ∀ {past : List ε} {s' : σ}, Star step s past s' → past = [event] →
      ∃ a b, Star step s [] a ∧ step a [event] b ∧ Star step b [] s' := by
    intro past s' h
    induction h with
    | refl => exact nofun
    | @tail a b past events hstar hstep ih =>
      intro hpast
      cases events with
      | nil =>
        rw [List.append_nil] at hpast
        obtain ⟨c, d, hbef, hev, hafter⟩ := ih hpast
        exact ⟨c, d, hbef, hev, hafter.quiet hstep⟩
      | cons e es =>
        have hlen := congrArg List.length hpast
        have hle := hone _ _ _ hstep
        simp only [List.length_append, List.length_cons, List.length_nil] at hlen hle
        obtain rfl := List.eq_nil_of_length_eq_zero (show past.length = 0 by omega)
        rw [List.nil_append] at hpast
        rw [hpast] at hstep
        exact ⟨a, b, hstar, hstep, .refl b⟩
  exact hall h rfl

end Star

end Ginkgo.Lib
