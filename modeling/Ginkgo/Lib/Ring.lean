import Ginkgo.Lib.Vectors
import Mathlib.Data.Nat.ModEq

/-!
# Ring buffers

A queue in a vector of fixed length: the items stand one after the other from the head on,
and go on at the start of the vector when they reach its end.
-/

namespace Ginkgo.Lib

open List

variable {α : Type} {slots : List α} {head len : Nat}

/-- The items of the queue, the oldest first. -/
def ring (slots : List α) (head len : Nat) : List α :=
  (range len).filterMap fun k => slots[(head + k) % slots.length]?

theorem length_ring (slots : List α) (head len : Nat) (hslots : 0 < slots.length) :
    (ring slots head len).length = len := by
  unfold ring
  rw [length_filterMap_eq_countP, countP_eq_length.mpr, length_range]
  intro k _
  rw [getElem?_eq_getElem (Nat.mod_lt _ hslots)]
  rfl

theorem ring_succ (slots : List α) (hhead : head < slots.length) (len : Nat) :
    ring slots head (len + 1) = slots[head] :: ring slots ((head + 1) % slots.length) len := by
  unfold ring
  rw [range_succ_eq_map, filterMap_cons, Nat.add_zero, Nat.mod_eq_of_lt hhead,
    getElem?_eq_getElem hhead, filterMap_map]
  refine congrArg (slots[head] :: ·) (filterMap_congr fun k _ => ?_)
  simp only [Function.comp_apply, Nat.mod_add_mod]
  rw [show head + k.succ = head + 1 + k by omega]

theorem head?_ring (hhead : head < slots.length) :
    (ring slots head len).head? = if len ≠ 0 then slots[head]? else none := by
  cases len with
  | zero => rfl
  | succ len =>
    rw [ring_succ slots hhead, getElem?_eq_getElem hhead]
    rfl

theorem tail_ring (hhead : head < slots.length) :
    ring slots ((head + 1) % slots.length) (len - 1) = (ring slots head len).tail := by
  cases len with
  | zero => rfl
  | succ len => rw [ring_succ slots hhead]; rfl

theorem ring_push (a : α) (hlen : len < slots.length) :
    ring (slots.set ((head + len) % slots.length) a) head (len + 1) =
      ring slots head len ++ [a] := by
  have hslots : 0 < slots.length := by omega
  unfold ring
  rw [range_succ, filterMap_append, length_set]
  congr 1
  · refine filterMap_congr fun k hk => ?_
    have hk := mem_range.mp hk
    rw [getElem?_set_ne]
    intro heq
    have hmod : (head + len) % slots.length = (head + k) % slots.length := heq
    have hdvd := (Nat.modEq_iff_dvd' (show k ≤ len by omega)).mp
      (Nat.ModEq.add_left_cancel' head (show head + k ≡ head + len
        [MOD slots.length] from hmod.symm))
    have hle := Nat.le_of_dvd (by omega) hdvd
    omega
  · simp [getElem?_set_self (Nat.mod_lt _ hslots)]

end Ginkgo.Lib
