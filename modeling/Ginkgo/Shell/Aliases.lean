import Ginkgo.Shell.Interpreter
import Mathlib.Data.List.Perm.Subperm
import Mathlib.Order.WellFounded

/-!
# Aliases form no cycle

An alias map is a graph with at most one edge out of a name.  Only the chain from the
name being defined is followed, and that is enough: every other chain either avoids the
new edge or joins the chain that was followed.
-/

namespace Ginkgo.Shell

open Relation List

variable {α : Type} {aliases aliases' : AliasMap} {name target : String}

theorem lookup_cons_ite (key key' : String) (value : α) (map : List (String × α)) :
    ((key, value) :: map).lookup key' = if key' = key then some value else map.lookup key' := by
  by_cases hkey : key' = key
  · simp [hkey]
  · rw [lookup_cons, beq_false_of_ne hkey, if_neg hkey]

theorem lookup_removeKey (key key' : String) (map : List (String × α)) :
    (removeKey key map).lookup key' = if key' = key then none else map.lookup key' := by
  induction map with
  | nil => simp [removeKey]
  | cons entry rest ih =>
    obtain ⟨k, value⟩ := entry
    rw [lookup_cons_ite]
    by_cases hk : k = key
    · rw [removeKey, filter_cons_of_neg (by simpa using hk), ← removeKey, ih]
      split_ifs <;> simp_all
    · rw [removeKey, filter_cons_of_pos (by simpa using hk), ← removeKey, lookup_cons_ite, ih]
      split_ifs <;> simp_all

theorem lookup_insertKey (key key' : String) (value : α) (map : List (String × α)) :
    (insertKey key value map).lookup key' =
      if key' = key then some value else map.lookup key' := by
  rw [insertKey, lookup_cons_ite, ← removeKey, lookup_removeKey]
  split_ifs <;> rfl

/-- Resolution goes on from `name` to `target`. -/
def Follows (aliases : AliasMap) (name target : String) : Prop :=
  (classifyName name).1 = .auto ∧ aliases.lookup name = some target

def HasCycle (aliases : AliasMap) : Prop := ∃ name, TransGen (Follows aliases) name name

def Resolves (aliases : AliasMap) : Prop := ∀ name, (resolveAlias aliases name).isSome

/-- A failed resolution has come back to a name it had seen; the fuel is never short,
as every name seen is another key of the map. -/
theorem resolveFrom_none {fuel : Nat} {seen : List String} {current : String}
    (h : resolveFrom aliases fuel seen current = none) (hnodup : seen.Nodup)
    (hkeys : seen ⊆ aliases.map (·.1)) (hfuel : aliases.length < fuel + seen.length)
    (hseen : ∀ name ∈ seen, TransGen (Follows aliases) name current) : HasCycle aliases := by
  induction fuel generalizing seen current with
  | zero =>
    have hlength := (subperm_of_subset hnodup hkeys).length_le
    rw [length_map] at hlength
    omega
  | succ fuel ih =>
    rw [resolveFrom] at h
    split_ifs at h with hauto hmem
    · exact ⟨current, hseen current hmem⟩
    · cases hlookup : aliases.lookup current with
      | none => simp [hlookup] at h
      | some target =>
        rw [hlookup] at h
        have hstep : Follows aliases current target := ⟨not_not.mp hauto, hlookup⟩
        obtain ⟨before, after, heq, -⟩ := lookup_eq_some_iff.mp hlookup
        refine ih h (nodup_cons.mpr ⟨hmem, hnodup⟩) (cons_subset.mpr ⟨by simp [heq], hkeys⟩)
          (by rw [length_cons]; omega) fun name hname => ?_
        rcases mem_cons.mp hname with rfl | hname
        · exact .single hstep
        · exact (hseen name hname).tail hstep

theorem resolveFrom_acc {fuel : Nat} {seen : List String} {current : String}
    (h : (resolveFrom aliases fuel seen current).isSome) :
    Acc (Function.swap (Follows aliases)) current := by
  induction fuel generalizing seen current with
  | zero => simp [resolveFrom] at h
  | succ fuel ih =>
    refine ⟨_, fun target hstep => ?_⟩
    rw [resolveFrom, if_neg (not_not.mpr hstep.1)] at h
    split_ifs at h with hmem
    · cases h
    · rw [hstep.2] at h
      exact ih h

theorem not_hasCycle (h : ∀ name, Acc (Function.swap (Follows aliases)) name) :
    ¬HasCycle aliases := by
  rintro ⟨name, hcycle⟩
  have hwf := (WellFounded.intro h).transGen
  exact hwf.irrefl.irrefl name (transGen_swap.mpr hcycle)

theorem resolves_iff : Resolves aliases ↔ ¬HasCycle aliases := by
  refine ⟨fun h => not_hasCycle fun name => resolveFrom_acc (h name), fun h name => ?_⟩
  cases hname : resolveAlias aliases name with
  | some => rfl
  | none =>
    exact absurd (resolveFrom_none hname nodup_nil (nil_subset _) (by simp) (by simp)) h

theorem resolves_nil : Resolves [] := by
  intro name
  simp only [resolveAlias, resolveFrom]
  split <;> rfl

theorem resolves_congr (h : ∀ key, aliases'.lookup key = aliases.lookup key) :
    Resolves aliases' ↔ Resolves aliases := by
  rw [resolves_iff, resolves_iff, HasCycle, HasCycle,
    show Follows aliases' = Follows aliases by funext x y; simp only [Follows, h]]

/-- With the chain of the new name ending, every chain ends. -/
theorem Resolves.insertKey (h : Resolves aliases)
    (hname : (resolveAlias (insertKey name target aliases) name).isSome) :
    Resolves (insertKey name target aliases) := by
  have hacc : ∀ x, Acc (Function.swap (Follows (Shell.insertKey name target aliases))) x := by
    intro x
    induction resolveFrom_acc (h x) with
    | intro x _ ih =>
      by_cases hx : x = name
      · rw [hx]
        exact resolveFrom_acc hname
      · refine ⟨_, fun y hy => ih y ⟨hy.1, ?_⟩⟩
        rw [← hy.2, lookup_insertKey, if_neg hx]
  exact resolves_iff.mpr (not_hasCycle hacc)

theorem defineAlias_accepted (h : (defineAlias name target aliases).1 = true) :
    defineAlias name target aliases = (true, insertKey name target aliases) ∧
      (resolveAlias (insertKey name target aliases) name).isSome := by
  by_cases hname : (resolveAlias (insertKey name target aliases) name).isSome
  · exact ⟨if_pos hname, hname⟩
  · rw [defineAlias, if_neg hname] at h
    cases h

theorem lookup_defineAlias_rejected (h : (defineAlias name target aliases).1 = false)
    (key : String) : (defineAlias name target aliases).2.lookup key = aliases.lookup key := by
  have hname : ¬(resolveAlias (insertKey name target aliases) name).isSome := fun hname => by
    rw [defineAlias, if_pos hname] at h
    cases h
  rw [defineAlias, if_neg hname]
  cases hprevious : aliases.lookup name with
  | none => simp +contextual [lookup_removeKey, lookup_insertKey, hprevious]
  | some previous => simp +contextual [lookup_insertKey, hprevious]

theorem defineAlias_rejected_iff (h : Resolves aliases) :
    (defineAlias name target aliases).1 = false ↔ HasCycle (insertKey name target aliases) := by
  rw [← not_not (a := HasCycle _), ← resolves_iff]
  refine ⟨fun hrejected hresolves => ?_, fun hcycle => ?_⟩
  · rw [defineAlias, if_pos (hresolves name)] at hrejected
    cases hrejected
  · by_contra haccepted
    exact hcycle (h.insertKey (defineAlias_accepted (Bool.not_eq_false _ ▸ haccepted)).2)

theorem Resolves.defineAlias (h : Resolves aliases) :
    Resolves (defineAlias name target aliases).2 := by
  cases haccepted : (Shell.defineAlias name target aliases).1 with
  | true =>
    rw [(defineAlias_accepted haccepted).1]
    exact h.insertKey (defineAlias_accepted haccepted).2
  | false => exact (resolves_congr (lookup_defineAlias_rejected haccepted)).mpr h

end Ginkgo.Shell
