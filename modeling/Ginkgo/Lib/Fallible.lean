import Mathlib.Control.Monad.Basic

/-!
# Programs that can fail

A fallible operation on shared state keeps what it did before it failed, so it is a
state transformer whose state survives an error.  `wp` is the weakest precondition of
such a program: one postcondition for a returned value and one for a fault.  The
rules below take a program apart from its first action on.

Allocation is one such action.  It is run against a budget, the number of allocations
that still succeed, so that every point of failure is a choice of the budget.
-/

namespace Ginkgo.Lib

variable {ε σ τ α β : Type}

/-- Every way the program can end from `s` meets its postcondition. -/
def wp (x : EStateM ε σ α) (Q : α → σ → Prop) (E : ε → σ → Prop) (s : σ) : Prop :=
  match x s with
  | .ok a s' => Q a s'
  | .error e s' => E e s'

section Rules

variable {x : EStateM ε σ α} {f : α → EStateM ε σ β} {Q : α → σ → Prop}
  {R : β → σ → Prop} {E : ε → σ → Prop} {s : σ} {e : ε}

theorem wp_ok {a : α} {s' : σ} (h : wp x Q E s) (hx : x s = .ok a s') : Q a s' := by
  simpa only [wp, hx] using h

theorem wp_error {s' : σ} (h : wp x Q E s) (hx : x s = .error e s') : E e s' := by
  simpa only [wp, hx] using h

theorem wp_mono {Q' : α → σ → Prop} {E' : ε → σ → Prop} (h : wp x Q E s)
    (hQ : ∀ a s', Q a s' → Q' a s') (hE : ∀ e s', E e s' → E' e s') : wp x Q' E' s := by
  unfold wp at *
  split at h
  · exact hQ _ _ h
  · exact hE _ _ h

theorem wp_pure {a : α} (h : Q a s) : wp (pure a) Q E s := h

theorem wp_bind (h : wp x (fun a s' => wp (f a) R E s') E s) : wp (x >>= f) R E s := by
  change wp (EStateM.bind x f) R E s
  unfold wp EStateM.bind at *
  cases hx : x s with
  | ok a s' => simpa only [hx] using h
  | error e s' => simpa only [hx] using h

theorem wp_seq (h : wp x Q E s) (hf : ∀ a s', Q a s' → wp (f a) R E s') : wp (x >>= f) R E s :=
  wp_bind (wp_mono h hf fun _ _ he => he)

theorem wp_map {g : α → β} (h : wp x (fun a s' => R (g a) s') E s) : wp (g <$> x) R E s := by
  rw [map_eq_pure_bind]
  exact wp_bind h

theorem wp_throw (h : E e s) : wp (throw e) Q E s := h

theorem wp_get {k : σ → EStateM ε σ β} (h : wp (k s) R E s) : wp (get >>= k) R E s := h

theorem wp_set_bind {k : PUnit → EStateM ε σ β} {s' : σ} (h : wp (k ⟨⟩) R E s') :
    wp (set s' >>= k) R E s := h

theorem wp_modify_bind {k : PUnit → EStateM ε σ β} {g : σ → σ} (h : wp (k ⟨⟩) R E (g s)) :
    wp (modify g >>= k) R E s := h

theorem wp_set {Q : PUnit → σ → Prop} {s' : σ} (h : Q ⟨⟩ s') : wp (set s') Q E s := h

theorem wp_modify {Q : PUnit → σ → Prop} {g : σ → σ} (h : Q ⟨⟩ (g s)) : wp (modify g) Q E s := h

theorem wp_ite {p : Prop} [Decidable p] {y : EStateM ε σ α} (hx : p → wp x Q E s)
    (hy : ¬p → wp y Q E s) : wp (if p then x else y) Q E s := by
  by_cases hp : p
  · rw [if_pos hp]
    exact hx hp
  · rw [if_neg hp]
    exact hy hp

/-- The program ends in a state of `P`, with a value or with a fault. -/
abbrev Ends (x : EStateM ε σ α) (P : σ → Prop) : σ → Prop := wp x (fun _ => P) fun _ => P

theorem Ends.mono {P P' : σ → Prop} (h : Ends x P s) (hP : ∀ s', P s' → P' s') : Ends x P' s :=
  wp_mono h (fun _ => hP) fun _ => hP

end Rules

theorem guard_ok {p : Prop} [Decidable p] {x : Except ε α} {a : α} :
    (if p then .error e else x) = .ok a ↔ ¬p ∧ x = .ok a := by
  by_cases hp : p <;> simp [hp]

/-- Run a program and hand its fault to the caller as a value. -/
def attempt (x : EStateM ε σ α) : EStateM ε σ (Except ε α) := fun s =>
  match x s with
  | .ok a s' => .ok (.ok a) s'
  | .error e s' => .ok (.error e) s'

theorem wp_attempt {x : EStateM ε σ α} {Q : Except ε α → σ → Prop} {E : ε → σ → Prop} {s : σ}
    (h : wp x (fun a s' => Q (.ok a) s') (fun e s' => Q (.error e) s') s) :
    wp (attempt x) Q E s := by
  unfold wp attempt at *
  cases hx : x s with
  | ok a s' => simpa only [hx] using h
  | error e s' => simpa only [hx] using h

/-- Run a program on the part of the state that `get` reads and `put` writes back. -/
def zoom (get : σ → τ) (put : τ → σ → σ) (x : EStateM ε τ α) : EStateM ε σ α := fun s =>
  match x (get s) with
  | .ok a t => .ok a (put t s)
  | .error e t => .error e (put t s)

theorem wp_zoom {get : σ → τ} {put : τ → σ → σ} {x : EStateM ε τ α} {Q : α → σ → Prop}
    {E : ε → σ → Prop} {s : σ}
    (h : wp x (fun a t => Q a (put t s)) (fun e t => E e (put t s)) (get s)) :
    wp (zoom get put x) Q E s := by
  unfold wp zoom at *
  cases hx : x (get s) with
  | ok a t => simpa only [hx] using h
  | error e t => simpa only [hx] using h

/-- How many more allocations succeed; `none` when memory does not run out. -/
abbrev Budget := Option Nat

/-- One allocation, reported as `e` when it fails. -/
def alloc (e : ε) : EStateM ε Budget Unit := fun budget =>
  match budget with
  | none => .ok () none
  | some 0 => .error e (some 0)
  | some (k + 1) => .ok () (some k)

/-- Reserve room for `count` elements in an empty vector; none are needed for none. -/
def allocCapacity (e : ε) (count : Nat) : EStateM ε Budget Unit :=
  if count = 0 then pure () else alloc e

section

variable {e : ε} {Q : Unit → Budget → Prop} {E : ε → Budget → Prop} {m : Budget}
  (hQ : ∀ m', Q () m') (hE : ∀ m', E e m')
include hQ hE

theorem wp_alloc : wp (alloc e) Q E m := by
  rcases m with _ | _ | k
  · exact hQ _
  · exact hE _
  · exact hQ _

theorem wp_allocCapacity {count : Nat} : wp (allocCapacity e count) Q E m := by
  exact wp_ite (fun _ => wp_pure (hQ m)) (fun _ => wp_alloc hQ hE)

end

/-- An allocation of a program whose failures are of no interest. -/
theorem wp_allocCapacity_bind {count : Nat} {k : Unit → EStateM ε Budget α}
    {Q : α → Budget → Prop} {m : Budget} (h : ∀ m', wp (k ()) Q (fun _ _ => True) m') :
    wp (allocCapacity e count >>= k) Q (fun _ _ => True) m :=
  wp_bind (wp_allocCapacity h fun _ => trivial)

end Ginkgo.Lib
