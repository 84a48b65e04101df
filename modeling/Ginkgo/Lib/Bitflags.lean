import Mathlib.Data.BitVec

/-!
# Fixed-width flag sets

A flag set is a bit vector whose operations are the usual bitwise ones.  The two
queries below are the only way a flag set is inspected; the lemmas say how they
behave under inclusion, so that no caller has to reason about single bits.
-/

namespace Ginkgo.Lib.Bitflags

variable {w : Nat} {a b c : BitVec w}

/-- Every flag of `other` is set in `self`. -/
def contains (self other : BitVec w) : Bool := self &&& other == other

/-- Some flag is set in both. -/
def intersects (self other : BitVec w) : Bool := self &&& other != 0#w

theorem contains_iff {self other : BitVec w} :
    contains self other = true ↔ self &&& other = other := by
  simp [contains]

@[simp] theorem contains_self (self : BitVec w) : contains self self = true := by
  simp [contains]

theorem contains_trans (hab : contains a b = true) (hbc : contains b c = true) :
    contains a c = true := by
  rw [contains_iff] at *
  calc a &&& c = a &&& (b &&& c) := by rw [hbc]
    _ = (a &&& b) &&& c := (BitVec.and_assoc ..).symm
    _ = c := by rw [hab, hbc]

theorem contains_or_left (a b : BitVec w) : contains (a ||| b) a = true := by
  rw [contains_iff]
  ext i hi
  simp only [BitVec.getElem_and, BitVec.getElem_or]
  cases a[i] <;> cases b[i] <;> rfl

theorem contains_or_right (a b : BitVec w) : contains (a ||| b) b = true := by
  rw [BitVec.or_comm]
  exact contains_or_left b a

@[simp] theorem contains_zero (a : BitVec w) : contains a 0#w = true := by
  simp [contains]

theorem contains_or : contains a (b ||| c) = true ↔ contains a b = true ∧ contains a c = true := by
  simp only [contains_iff]
  constructor
  · intro h
    have hbit i (hi : i < w) (hx : (b ||| c).getLsbD i = true) : a.getLsbD i = true := by
      rw [← h, BitVec.getLsbD_and, Bool.and_eq_true] at hx
      exact hx.1
    constructor <;>
    · apply BitVec.eq_of_getLsbD_eq
      intro i hi
      have := hbit i hi
      rw [BitVec.getLsbD_or] at this
      rw [BitVec.getLsbD_and]
      cases hb : b.getLsbD i <;> cases hc : c.getLsbD i <;> simp_all
  · rintro ⟨hb, hc⟩
    rw [BitVec.and_or_distrib_left, hb, hc]

theorem intersects_mono (hab : contains b a = true) (h : intersects a c = true) :
    intersects b c = true := by
  rw [contains_iff] at hab
  simp only [intersects, bne_iff_ne] at h ⊢
  intro hzero
  apply h
  calc a &&& c = (b &&& a) &&& c := by rw [hab]
    _ = a &&& (b &&& c) := by rw [BitVec.and_comm b a, BitVec.and_assoc]
    _ = 0#w := by rw [hzero, BitVec.and_zero]

theorem contains_or_or {d : BitVec w} (hac : contains a c = true) (hbd : contains b d = true) :
    contains (a ||| b) (c ||| d) = true :=
  contains_or.mpr ⟨contains_trans (contains_or_left a b) hac,
    contains_trans (contains_or_right a b) hbd⟩

end Ginkgo.Lib.Bitflags
