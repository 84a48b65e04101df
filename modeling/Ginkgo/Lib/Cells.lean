import Mathlib.Logic.Function.Basic

/-!
# Shared cells

Reference-counted cells are named by the order in which they were allocated; a name
is never reused, so it stands for the identity of the allocation.  `Heap` holds the
cells, and `Sided` is the two-element array that a cell with two ends keeps for
each of its fields.
-/

namespace Ginkgo.Lib

/-- Cells allocated so far.  A cell at or above `next` has not been allocated. -/
structure Heap (α : Type) where
  next : Nat
  cell : Nat → α

namespace Heap

variable {α : Type}

/-- No cell has been allocated; reads see `default`. -/
def empty (default : α) : Heap α := ⟨0, fun _ => default⟩

/-- Allocate the cell named `h.next`. -/
def alloc (h : Heap α) (a : α) : Heap α :=
  ⟨h.next + 1, Function.update h.cell h.next a⟩

def modify (h : Heap α) (i : Nat) (f : α → α) : Heap α :=
  { h with cell := Function.update h.cell i (f (h.cell i)) }

@[simp] theorem next_empty (a : α) : (empty a).next = 0 := rfl

@[simp] theorem next_alloc (h : Heap α) (a : α) : (h.alloc a).next = h.next + 1 := rfl

@[simp] theorem cell_alloc_self (h : Heap α) (a : α) : (h.alloc a).cell h.next = a := by
  simp [alloc]

theorem cell_alloc_of_ne (h : Heap α) (a : α) {i : Nat} (hi : i ≠ h.next) :
    (h.alloc a).cell i = h.cell i := by
  simp [alloc, hi]

@[simp] theorem cell_modify_self (h : Heap α) (i : Nat) (f : α → α) :
    (h.modify i f).cell i = f (h.cell i) := by
  simp [modify]

theorem cell_modify_of_ne (h : Heap α) (f : α → α) {i j : Nat} (hj : j ≠ i) :
    (h.modify i f).cell j = h.cell j := by
  simp [modify, hj]

theorem cell_modify (h : Heap α) (f : α → α) (i j : Nat) :
    (h.modify i f).cell j = if j = i then f (h.cell i) else h.cell j :=
  Function.update_apply ..

theorem cell_modify_congr {β : Type} (field : α → β) {f : α → α} (hf : ∀ a, field (f a) = field a)
    (h : Heap α) (i j : Nat) : field ((h.modify i f).cell j) = field (h.cell j) := by
  rw [cell_modify]
  split
  · rename_i hj
    rw [hf, hj]
  · rfl

theorem cell_alloc_cases (h : Heap α) (a : α) (i : Nat) :
    (h.alloc a).cell i = h.cell i ∨ ¬i < h.next ∧ (h.alloc a).cell i = a := by
  by_cases hi : i = h.next
  · subst hi
    exact .inr ⟨Nat.lt_irrefl _, h.cell_alloc_self a⟩
  · exact .inl (h.cell_alloc_of_ne a hi)

end Heap

/-- One of the two ends of a cell. -/
inductive Side
  | left
  | right
  deriving DecidableEq, Repr

/-- The opposite end, `1 - side`. -/
def Side.peer : Side → Side
  | .left => .right
  | .right => .left

@[simp] theorem Side.peer_peer (side : Side) : side.peer.peer = side := by
  cases side <;> rfl

theorem Side.peer_ne (side : Side) : side.peer ≠ side := by
  cases side <;> simp [Side.peer]

theorem Side.eq_or_eq_peer (side other : Side) : other = side ∨ other = side.peer := by
  cases side <;> cases other <;> simp [Side.peer]

/-- A two-element array indexed by the end it belongs to. -/
structure Sided (α : Type) where
  left : α
  right : α
  deriving DecidableEq, Repr

namespace Sided

variable {α : Type}

def get (x : Sided α) : Side → α
  | .left => x.left
  | .right => x.right

def set (x : Sided α) (side : Side) (a : α) : Sided α :=
  match side with
  | .left => { x with left := a }
  | .right => { x with right := a }

/-- Both elements equal. -/
def both (a : α) : Sided α := ⟨a, a⟩

@[simp] theorem get_both (a : α) (side : Side) : (both a).get side = a := by
  cases side <;> rfl

@[simp] theorem get_set_self (x : Sided α) (side : Side) (a : α) : (x.set side a).get side = a := by
  cases side <;> rfl

@[simp] theorem get_set_peer (x : Sided α) (side : Side) (a : α) :
    (x.set side a).get side.peer = x.get side.peer := by
  cases side <;> rfl

theorem get_set (x : Sided α) (side side' : Side) (a : α) :
    (x.set side a).get side' = if side' = side then a else x.get side' := by
  cases side <;> cases side' <;> rfl

end Sided

end Ginkgo.Lib
