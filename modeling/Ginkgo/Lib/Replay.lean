import Mathlib.Data.List.Induction

/-!
# Replaying writes

A store is a function from keys to values; a list of writes is applied to it in order.
-/

namespace Ginkgo.Lib

variable {K V : Type} [DecidableEq K]

def replay (store : K → V) (writes : List (K × V)) : K → V :=
  writes.foldl (fun store write => Function.update store write.1 write.2) store

theorem replay_append (store : K → V) (writes writes' : List (K × V)) :
    replay store (writes ++ writes') = replay (replay store writes) writes' :=
  List.foldl_append

theorem replay_concat (store : K → V) (writes : List (K × V)) (key : K) (value : V) :
    replay store (writes ++ [(key, value)]) = Function.update (replay store writes) key value := by
  rw [replay_append]
  rfl

theorem replay_of_forall_ne {store : K → V} {writes : List (K × V)} {key : K}
    (h : ∀ write ∈ writes, write.1 ≠ key) : replay store writes key = store key := by
  induction writes generalizing store with
  | nil => rfl
  | cons write writes ih =>
    have hrest : replay (Function.update store write.1 write.2) writes key = _ :=
      ih fun write' hmem => h write' (List.mem_cons_of_mem _ hmem)
    refine hrest.trans (Function.update_of_ne ?_ _ _)
    exact (h write List.mem_cons_self).symm

theorem replay_cases (store : K → V) (writes : List (K × V)) (key : K) :
    (∃ value, (key, value) ∈ writes ∧ replay store writes key = value) ∨
      (∀ write ∈ writes, write.1 ≠ key) ∧ replay store writes key = store key := by
  by_cases h : ∀ write ∈ writes, write.1 ≠ key
  · exact .inr ⟨h, replay_of_forall_ne h⟩
  refine .inl ?_
  induction writes using List.reverseRecOn with
  | nil => exact absurd nofun h
  | append_singleton writes write ih =>
    obtain ⟨key', value⟩ := write
    rw [replay_concat]
    by_cases heq : key' = key
    · subst heq
      exact ⟨value, by simp, Function.update_self _ _ _⟩
    have hlater : ¬∀ write ∈ writes, write.1 ≠ key := by
      intro hne
      refine h fun write hmem => ?_
      rcases List.mem_append.mp hmem with hmem | hmem
      · exact hne write hmem
      · rw [List.mem_singleton.mp hmem]
        exact heq
    obtain ⟨value', hmem, hvalue⟩ := ih hlater
    refine ⟨value', List.mem_append_left _ hmem, ?_⟩
    rw [Function.update_of_ne (Ne.symm heq), hvalue]

/-- Replaying the writes up to a point gives the last value, if none came later. -/
theorem replay_take {store : K → V} {writes : List (K × V)} {key : K} {count : Nat}
    (h : ∀ write ∈ writes.drop count, write.1 ≠ key) :
    replay store (writes.take count) key = replay store writes key := by
  conv_rhs => rw [← List.take_append_drop count writes, replay_append]
  exact (replay_of_forall_ne h).symm

/-- Values written to consecutive keys are found there. -/
theorem replay_range' {store : Nat → V} {start i : Nat} {values : List V} {value : V}
    (h : values[i]? = some value) :
    replay store ((List.range' start values.length).zip values) (start + i) = value := by
  have hlt := (List.getElem?_eq_some_iff.mp h).1
  rcases replay_cases store ((List.range' start values.length).zip values) (start + i) with
    ⟨value', hmem, hvalue⟩ | ⟨hnone, -⟩
  · obtain ⟨j, hj⟩ := List.mem_iff_getElem?.mp hmem
    obtain ⟨hkey, hvalue'⟩ := List.getElem?_zip_eq_some.mp hj
    rw [List.getElem?_range' (List.getElem?_eq_some_iff.mp hvalue').1] at hkey
    obtain rfl : i = j := by simpa using hkey.symm
    exact hvalue.trans (Option.some.inj (hvalue'.symm.trans h))
  · refine absurd rfl (hnone (start + i, value) (List.mem_iff_getElem?.mpr ⟨i, ?_⟩))
    rw [List.getElem?_zip_eq_some, List.getElem?_range' hlt, Nat.one_mul]
    exact ⟨rfl, h⟩

end Ginkgo.Lib
