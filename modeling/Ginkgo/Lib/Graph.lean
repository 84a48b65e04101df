import Mathlib.Algebra.BigOperators.Group.Finset.Basic
import Mathlib.Order.WellFoundedSet

/-!
# Directed graphs without cycles

Edges are a relation on an arbitrary type of nodes.  The first part says when a graph
stays acyclic as edges come and go and what acyclicity gives: a node that is only kept
by other kept nodes is reachable from a root.  The second part is the invariant of a
depth-first search with a worklist, and the measure that bounds it.
-/

namespace Ginkgo.Lib.Graph

open Relation List

variable {V W : Type} {r r' : V → V → Prop} {v : V}

def Acyclic (r : V → V → Prop) : Prop := ∀ v, ¬TransGen r v v

theorem Acyclic.mono (h : Acyclic r) (hsub : ∀ a b, r' a b → r a b) : Acyclic r' :=
  fun v hv => h v (TransGen.mono hsub _ _ hv)

theorem Acyclic.comap {q : W → W → Prop} (h : Acyclic r) (f : W → V)
    (hf : ∀ a b, q a b → r (f a) (f b)) : Acyclic q :=
  fun w hw => h (f w) (hw.lift f hf)

/-- A walk that may use new edges out of `a` uses none of them, or reaches `a` without
them and later leaves it for the last time by one of them. -/
theorem transGen_insert {a : V} {T : V → Prop} (hsub : ∀ u v, r' u v → r u v ∨ (u = a ∧ T v))
    {x y : V} (h : TransGen r' x y) :
    TransGen r x y ∨ (ReflTransGen r x a ∧ ∃ d, T d ∧ ReflTransGen r d y) := by
  induction h with
  | single hxy =>
    rcases hsub _ _ hxy with hold | ⟨rfl, hd⟩
    · exact .inl (.single hold)
    · exact .inr ⟨.refl, _, hd, .refl⟩
  | tail _ hbc ih =>
    rcases hsub _ _ hbc with hold | ⟨rfl, hd⟩
    · rcases ih with hwalk | ⟨hxa, d, hd, hdb⟩
      · exact .inl (hwalk.tail hold)
      · exact .inr ⟨hxa, d, hd, hdb.tail hold⟩
    · rcases ih with hwalk | ⟨hxa, -⟩
      · exact .inr ⟨hwalk.to_reflTransGen, _, hd, .refl⟩
      · exact .inr ⟨hxa, _, hd, .refl⟩

/-- Edges from `a` to nodes that do not reach `a` close no cycle. -/
theorem Acyclic.insert {a : V} {T : V → Prop} (h : Acyclic r)
    (hsub : ∀ u v, r' u v → r u v ∨ (u = a ∧ T v))
    (hT : ∀ d, T d → ¬ReflTransGen r d a) : Acyclic r' := by
  intro v hv
  rcases transGen_insert hsub hv with hold | ⟨hva, d, hd, hdv⟩
  · exact h v hold
  · exact hT d hd (hdv.trans hva)

/-- If every node of a finite set is a root or has a predecessor in the set, then every
node of the set is reachable from a root. -/
theorem Acyclic.exists_root (h : Acyclic r) {S : Set V} (hS : S.Finite) {root : V → Prop}
    (hpred : ∀ v ∈ S, root v ∨ ∃ u ∈ S, r u v) (hv : v ∈ S) :
    ∃ u ∈ S, root u ∧ ReflTransGen r u v := by
  have : IsStrictOrder V (TransGen r) := { irrefl := h, trans := fun _ _ _ => TransGen.trans }
  have hwf : S.WellFoundedOn (TransGen r) := hS.wellFoundedOn
  refine hwf.induction (P := fun v => ∃ u ∈ S, root u ∧ ReflTransGen r u v) hv ?_
  intro v hv ih
  rcases hpred v hv with hroot | ⟨u, hu, huv⟩
  · exact ⟨v, hv, hroot, .refl⟩
  · obtain ⟨w, hw, hroot, hwu⟩ := ih u hu (.single huv)
    exact ⟨w, hw, hroot, hwu.tail huv⟩

/-! ## Depth-first search -/

variable {succ : V → List V} {target : V} {visited pending : List V}

/-- The relation that a search follows. -/
def Edge (succ : V → List V) (a b : V) : Prop := b ∈ succ a

/-- The target was not visited, and every edge out of a visited node leads to a visited
node or to one that is still pending. -/
structure Explored (succ : V → List V) (target : V) (visited pending : List V) : Prop where
  avoids : target ∉ visited
  frontier : ∀ v ∈ visited, ∀ w ∈ succ v, w ∈ visited ∨ w ∈ pending

theorem explored_nil : Explored succ target [] pending :=
  ⟨not_mem_nil, fun _ hv => absurd hv not_mem_nil⟩

theorem Explored.push (more : List V) (h : Explored succ target visited pending) :
    Explored succ target visited (more ++ pending) where
  avoids := h.avoids
  frontier := fun v hv w hw =>
    (h.frontier v hv w hw).imp_right (mem_append_right more)

theorem Explored.skip (h : Explored succ target visited (v :: pending))
    (hv : v ∈ visited) : Explored succ target visited pending where
  avoids := h.avoids
  frontier := by
    intro u hu w hw
    rcases h.frontier u hu w hw with hmem | hmem
    · exact .inl hmem
    · rcases mem_cons.mp hmem with rfl | hmem
      · exact .inl hv
      · exact .inr hmem

theorem Explored.visit (h : Explored succ target visited (v :: pending)) (hv : v ≠ target) :
    Explored succ target (visited ++ [v]) ((succ v).reverse ++ pending) where
  avoids := by
    rw [mem_append, mem_singleton]
    rintro (hmem | rfl)
    · exact h.avoids hmem
    · exact hv rfl
  frontier := by
    intro u hu w hw
    simp only [mem_append, mem_singleton, mem_reverse] at hu ⊢
    rcases hu with hu | rfl
    · rcases h.frontier u hu w hw with hmem | hmem
      · exact .inl (.inl hmem)
      · rcases mem_cons.mp hmem with rfl | hmem
        · exact .inl (.inr rfl)
        · exact .inr (.inr hmem)
    · exact .inr (.inl hw)

theorem Explored.not_reaches (h : Explored succ target visited [])
    (hv : v ∈ visited) : ¬ReflTransGen (Edge succ) v target := by
  have hclosed w (hreach : ReflTransGen (Edge succ) v w) : w ∈ visited := by
    induction hreach with
    | refl => exact hv
    | tail _ hbc ih => simpa using h.frontier _ ih _ hbc
  exact fun hreach => h.avoids (hclosed target hreach)

/-- Nodes still to be popped: the worklist and the edges out of unvisited nodes. -/
def work [DecidableEq V] (succ : V → List V) (nodes : Finset V) (visited pending : List V) : Nat :=
  pending.length + ∑ v ∈ nodes with v ∉ visited, (succ v).length

/-- Visiting a node pays for the nodes it adds to the worklist. -/
theorem work_visit [DecidableEq V] (succ : V → List V) (nodes : Finset V) (pending : List V)
    (hv : v ∉ visited) (hnodes : v ∉ nodes → succ v = []) :
    work succ nodes (visited ++ [v]) ((succ v).reverse ++ pending) + 1 =
      work succ nodes visited (v :: pending) := by
  have hfilter : nodes.filter (· ∉ visited ++ [v]) = (nodes.filter (· ∉ visited)).erase v := by
    ext u
    simp only [Finset.mem_filter, Finset.mem_erase, mem_append, mem_singleton]
    tauto
  unfold work
  rw [hfilter, length_append, length_reverse, length_cons]
  by_cases hmem : v ∈ nodes
  · have := Finset.add_sum_erase (nodes.filter (· ∉ visited)) (fun v => (succ v).length)
      (Finset.mem_filter.mpr ⟨hmem, hv⟩)
    omega
  · rw [Finset.erase_eq_of_notMem (by simp [hmem]), hnodes hmem]
    simp only [length_nil]
    omega

end Ginkgo.Lib.Graph
