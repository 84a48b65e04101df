import Mathlib.Algebra.Order.BigOperators.Group.List
import Mathlib.Algebra.Order.Ring.Int
import Mathlib.Algebra.Order.Ring.Nat

/-!
# Checked and saturating arithmetic on 64-bit words

A word is a natural number at most `wordMax`.  Overflow is either reported or cut off
at the largest word.
-/

namespace Ginkgo.Lib

def wordMax : Nat := 2 ^ 64 - 1

/-- The largest 32-bit word. -/
def u32Max : Nat := 2 ^ 32 - 1

def checkedAdd (a b : Nat) : Option Nat := if a + b ≤ wordMax then some (a + b) else none

def checkedMul (a b : Nat) : Option Nat := if a * b ≤ wordMax then some (a * b) else none

def saturatingAdd (a b : Nat) : Nat := min (a + b) wordMax

theorem saturatingAdd_eq {a b : Nat} (h : a + b ≤ wordMax) : saturatingAdd a b = a + b :=
  Nat.min_eq_left h

/-- A 32-bit count can be increased. -/
theorem saturatingAdd_one {a : Nat} (h : a < u32Max) : saturatingAdd a 1 = a + 1 := by
  refine saturatingAdd_eq ?_
  unfold u32Max at h
  unfold wordMax
  omega

theorem checkedAdd_some {a b c : Nat} (h : checkedAdd a b = some c) :
    c = a + b ∧ a + b ≤ wordMax := by
  unfold checkedAdd at h
  split at h
  · rename_i hle
    cases h
    exact ⟨rfl, hle⟩
  · cases h

/-- The closest signed 64-bit integer. -/
def saturateI64 (a : Int) : Int := max (-2 ^ 63) (min a (2 ^ 63 - 1))

theorem saturateI64_eq {a : Int} (hle : -2 ^ 63 ≤ a) (hlt : a < 2 ^ 63) : saturateI64 a = a := by
  unfold saturateI64
  omega

/-!
## Generation-tagged names

A name packs the index of a slot and the generation of its use into one word: the index,
counted from one, in the lower half and the generation in the upper.
-/

def tagBits : Nat := 32

def tagMask : Nat := u32Max

/-- Unfolding the shift is expensive, and the lemmas below say all there is to it. -/
@[irreducible] def packTag (index generation : Nat) : Nat :=
  (generation <<< tagBits) ||| (index + 1)

/-- The index of a name that has one. -/
def tagIndex (raw : Nat) : Option Nat :=
  if raw &&& tagMask = 0 then none else some ((raw &&& tagMask) - 1)

def tagGeneration (raw : Nat) : Nat := raw >>> tagBits

theorem packTag_ne_zero (index generation : Nat) : packTag index generation ≠ 0 := by
  unfold packTag
  exact fun h => Nat.succ_ne_zero index (Nat.or_eq_zero_iff.mp h).2

theorem and_tagMask (raw : Nat) : raw &&& tagMask = raw % 2 ^ tagBits :=
  Nat.and_two_pow_sub_one_eq_mod raw tagBits

variable {index index' generation generation' : Nat}

theorem succ_lt_of_lt_u32Max (h : index < u32Max) : index + 1 < 2 ^ tagBits := by
  unfold u32Max at h
  unfold tagBits
  omega

section

variable (generation : Nat)

theorem packTag_eq (h : index < u32Max) :
    packTag index generation = generation * 2 ^ tagBits + (index + 1) := by
  unfold packTag
  rw [← Nat.shiftLeft_add_eq_or_of_lt (succ_lt_of_lt_u32Max h), Nat.shiftLeft_eq]

theorem packTag_and_tagMask (h : index < u32Max) :
    packTag index generation &&& tagMask = index + 1 := by
  rw [and_tagMask, packTag_eq generation h, Nat.mul_add_mod_of_lt (succ_lt_of_lt_u32Max h)]

theorem packTag_shiftRight (h : index < u32Max) :
    packTag index generation >>> tagBits = generation := by
  have hlt := succ_lt_of_lt_u32Max h
  rw [Nat.shiftRight_eq_div_pow, packTag_eq generation h, Nat.add_comm,
    Nat.add_mul_div_right _ _ (by omega), Nat.div_eq_of_lt hlt, Nat.zero_add]

theorem tagIndex_packTag (h : index < u32Max) :
    tagIndex (packTag index generation) = some index := by
  unfold tagIndex
  rw [packTag_and_tagMask generation h, if_neg (Nat.succ_ne_zero index), Nat.add_sub_cancel]

theorem tagGeneration_packTag (h : index < u32Max) :
    tagGeneration (packTag index generation) = generation := packTag_shiftRight generation h

end

theorem packTag_unpack {raw : Nat} (h : raw &&& tagMask ≠ 0) :
    packTag ((raw &&& tagMask) - 1) (raw >>> tagBits) = raw := by
  have hlt := Nat.mod_lt raw (Nat.two_pow_pos tagBits)
  have hsplit := Nat.div_add_mod' raw (2 ^ tagBits)
  rw [and_tagMask] at h ⊢
  rw [Nat.shiftRight_eq_div_pow, packTag_eq]
  · omega
  · unfold tagBits at hlt h ⊢
    unfold u32Max
    omega

theorem packTag_of_tagIndex {raw : Nat} (h : tagIndex raw = some index) :
    packTag index (tagGeneration raw) = raw := by
  unfold tagIndex at h
  split at h
  · cases h
  · rename_i hne
    cases h
    exact packTag_unpack hne

theorem packTag_inj (hidx : index < u32Max) (hidx' : index' < u32Max)
    (h : packTag index generation = packTag index' generation') :
    index = index' ∧ generation = generation' := by
  rw [packTag_eq _ hidx, packTag_eq _ hidx'] at h
  unfold u32Max at hidx hidx'
  unfold tagBits at h
  omega

end Ginkgo.Lib
