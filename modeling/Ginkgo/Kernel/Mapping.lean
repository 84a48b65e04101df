import Ginkgo.Lib.Words

/-!
# Where a mapping goes

A mapping is placed at a fixed address, at a hint that is free, or at the first gap that a search
from a moving cursor finds.  The search wraps around once, and its second half stops at the cursor.
-/

namespace Ginkgo.Kernel.Mapping

open Ginkgo.Lib List

def pageSize : Nat := 4096

def sharedMappingBase : Nat := 0x100000000

def userAddressEnd : Nat := 0x800000000000

inductive SharedMappingError
  | rangeOverflow
  | unalignedFixedAddress (address : Nat)
  | invalidFixedAddress (address : Nat)
  | alreadyMapped (address : Nat)
  | noAddressSpace
  deriving DecidableEq

structure VirtualRange where
  start : Nat
  end_ : Nat
  deriving DecidableEq

def VirtualRange.overlaps (range other : VirtualRange) : Bool :=
  range.start < other.end_ && other.start < range.end_

def alignUp (value alignment : Nat) : Option Nat :=
  (checkedAdd value (alignment - 1)).map fun rounded => rounded - rounded % alignment

def userMappingRange (address length : Nat) : Option VirtualRange :=
  if address < pageSize ∨ address % pageSize ≠ 0 ∨ length = 0 then none
  else
    match checkedAdd address length with
    | none => none
    | some end_ => if end_ ≤ userAddressEnd then some ⟨address, end_⟩ else none

/-- One round of the search for a gap: its result, or the next candidate. -/
def firstFitRound (limit mappedLen : Nat) (occupied : List VirtualRange) (candidate : Nat) :
    Except SharedMappingError (Option Nat) ⊕ Nat :=
  match checkedAdd candidate mappedLen with
  | none => .inl (.error .rangeOverflow)
  | some end_ =>
    if end_ > limit then .inl (.ok none)
    else
      match ((occupied.filter (·.overlaps ⟨candidate, end_⟩)).map (·.end_)).max? with
      | none => .inl (.ok (some candidate))
      | some next =>
        match alignUp next pageSize with
        | none => .inl (.error .rangeOverflow)
        | some candidate => .inr candidate

/-- Nothing is returned when the rounds are used up before the loop ends. -/
def firstFitMapping (limit mappedLen : Nat) (occupied : List VirtualRange) :
    Nat → Nat → Option (Except SharedMappingError (Option Nat))
  | 0, _ => none
  | rounds + 1, candidate =>
    match firstFitRound limit mappedLen occupied candidate with
    | .inl result => some result
    | .inr candidate => firstFitMapping limit mappedLen occupied rounds candidate

/-- The address of a hint that is free. -/
def acceptedHint (requested mappedLen : Nat) (occupied : List VirtualRange) : Option Nat :=
  if requested = 0 then none
  else
    match (alignUp requested pageSize).bind (userMappingRange · mappedLen) with
    | none => none
    | some hint => if occupied.any (·.overlaps hint) then none else some hint.start

/-- Where the search from the cursor begins. -/
def searchStart (cursor automaticLimit : Nat) : Nat :=
  ((alignUp (max cursor sharedMappingBase) pageSize).filter (· < automaticLimit)).getD
    sharedMappingBase

/-- A search has one round for each occupied range, and one more. -/
def selectMappingAddress (requested : Nat) (fixed : Bool) (mappedLen cursor automaticLimit : Nat)
    (occupied : List VirtualRange) : Option (Except SharedMappingError Nat) :=
  if fixed then
    if requested % pageSize ≠ 0 then some (.error (.unalignedFixedAddress requested))
    else
      match userMappingRange requested mappedLen with
      | none => some (.error (.invalidFixedAddress requested))
      | some candidate =>
        if occupied.any (·.overlaps candidate) then some (.error (.alreadyMapped requested))
        else some (.ok requested)
  else
    match acceptedHint requested mappedLen occupied with
    | some hint => some (.ok hint)
    | none =>
      let start := searchStart cursor automaticLimit
      match firstFitMapping automaticLimit mappedLen occupied (occupied.length + 1) start with
      | none => none
      | some (.error error) => some (.error error)
      | some (.ok (some address)) => some (.ok address)
      | some (.ok none) =>
        if start > sharedMappingBase then
          match firstFitMapping start mappedLen occupied (occupied.length + 1)
              sharedMappingBase with
          | none => none
          | some (.error error) => some (.error error)
          | some (.ok (some address)) => some (.ok address)
          | some (.ok none) => some (.error .noAddressSpace)
        else some (.error .noAddressSpace)

/-! ## One search -/

variable {requested len limit candidate address gap : Nat} {occupied : List VirtualRange}

/-- No occupied range meets the gap. -/
def Free (occupied : List VirtualRange) (gap length : Nat) : Prop :=
  ∀ range ∈ occupied, range.overlaps ⟨gap, gap + length⟩ = false

theorem alignUp_some {value aligned : Nat} (h : alignUp value pageSize = some aligned) :
    value ≤ aligned ∧ aligned % pageSize = 0 ∧
      ∀ other, value ≤ other → other % pageSize = 0 → aligned ≤ other := by
  obtain ⟨rounded, hadd, rfl⟩ := Option.map_eq_some_iff.mp h
  obtain ⟨rfl, -⟩ := checkedAdd_some hadd
  unfold pageSize
  exact ⟨by omega, by omega, fun other hle haligned => by omega⟩

/-- Something is too large for the search to stay in 64 bits. -/
def TooLarge (len : Nat) (occupied : List VirtualRange) (candidate : Nat) : Prop :=
  userAddressEnd < candidate ∨ userAddressEnd < len ∨
    ∃ range ∈ occupied, userAddressEnd < range.end_

theorem checkedAdd_none {a b : Nat} (h : checkedAdd a b = none) : wordMax < a + b := by
  unfold checkedAdd at h
  split at h
  · cases h
  · omega

theorem free_of_filter_nil (h : ((occupied.filter
    (·.overlaps ⟨candidate, candidate + len⟩)).map (·.end_)).max? = none) :
    Free occupied candidate len := by
  rw [max?_eq_none_iff, map_eq_nil_iff, filter_eq_nil_iff] at h
  exact fun range hmem => Bool.eq_false_iff.mpr (h range hmem)

/-- What is in the way of a candidate is in the way of all that begin before its end. -/
theorem next_spec {next : Nat} (h : ((occupied.filter
    (·.overlaps ⟨candidate, candidate + len⟩)).map (·.end_)).max? = some next) :
    candidate < next ∧ (∃ range ∈ occupied, candidate < range.end_ ∧ range.end_ = next) ∧
      ∀ gap, candidate ≤ gap → Free occupied gap len → next ≤ gap := by
  obtain ⟨hmem, -⟩ := max?_eq_some_iff.mp h
  obtain ⟨range, hrange, rfl⟩ := mem_map.mp hmem
  obtain ⟨hoccupied, hover⟩ := mem_filter.mp hrange
  simp only [VirtualRange.overlaps, Bool.and_eq_true, decide_eq_true_eq] at hover
  refine ⟨hover.2, ⟨range, hoccupied, hover.2, rfl⟩, fun gap hle hfree => ?_⟩
  have hclear := hfree range hoccupied
  simp only [VirtualRange.overlaps, Bool.and_eq_false_iff, decide_eq_false_iff_not] at hclear
  omega

/-- How many ranges the search can still run into. -/
def ahead (occupied : List VirtualRange) (candidate : Nat) : Nat :=
  occupied.countP (candidate < ·.end_)

theorem ahead_lt {next : Nat}
    (hmem : ∃ range ∈ occupied, candidate < range.end_ ∧ range.end_ ≤ next) :
    ahead occupied next < ahead occupied candidate := by
  obtain ⟨range, hrange, hbefore, hafter⟩ := hmem
  unfold ahead
  induction occupied with
  | nil => cases hrange
  | cons first rest ih =>
    have hmono : rest.countP (next < ·.end_) ≤ rest.countP (candidate < ·.end_) :=
      countP_mono_left fun other _ => by simp only [decide_eq_true_eq]; omega
    rw [countP_cons, countP_cons]
    rcases mem_cons.mp hrange with rfl | hrest
    · simp only [decide_eq_true_eq]
      rw [if_neg (by omega), if_pos hbefore]
      omega
    · have hlt' := ih hrest
      simp only [decide_eq_true_eq]
      split <;> split <;> omega

theorem firstFitRound_inl {result : Except SharedMappingError (Option Nat)}
    (h : firstFitRound limit len occupied candidate = .inl result) :
    (∀ address, result = .ok (some address) → address = candidate ∧
      address + len ≤ limit ∧ Free occupied address len) ∧
      (result = .ok none → limit < candidate + len) ∧
      ∀ error, result = .error error → error = .rangeOverflow ∧
        TooLarge len occupied candidate := by
  unfold firstFitRound at h
  split at h
  · rename_i hadd
    have hlarge := checkedAdd_none hadd
    cases h
    refine ⟨nofun, nofun, fun error heq => ?_⟩
    cases heq
    unfold TooLarge
    simp only [wordMax, userAddressEnd] at hlarge ⊢
    exact ⟨trivial, by omega⟩
  rename_i end_ hadd
  obtain ⟨rfl, -⟩ := checkedAdd_some hadd
  split at h
  · cases h
    exact ⟨nofun, fun _ => by assumption, nofun⟩
  split at h
  · rename_i hlimit _ hnone
    cases h
    refine ⟨fun address heq => ?_, nofun, nofun⟩
    cases heq
    exact ⟨rfl, Nat.le_of_not_lt hlimit, free_of_filter_nil hnone⟩
  · rename_i next hmax
    obtain ⟨-, ⟨range, hmem, -, rfl⟩, -⟩ := next_spec hmax
    split at h
    · rename_i halign
      have hlarge := checkedAdd_none (Option.map_eq_none_iff.mp halign)
      cases h
      refine ⟨nofun, nofun, fun error heq => ?_⟩
      cases heq
      refine ⟨rfl, .inr (.inr ⟨range, hmem, ?_⟩)⟩
      simp only [wordMax, userAddressEnd, pageSize] at hlarge ⊢
      omega
    · cases h

theorem firstFitRound_inr {next : Nat}
    (h : firstFitRound limit len occupied candidate = .inr next) :
    candidate < next ∧ next % pageSize = 0 ∧
      (∃ range ∈ occupied, candidate < range.end_ ∧ range.end_ ≤ next ∧
        ∀ other, range.end_ ≤ other → other % pageSize = 0 → next ≤ other) ∧
      ∀ gap, candidate ≤ gap → gap % pageSize = 0 → Free occupied gap len → next ≤ gap := by
  unfold firstFitRound at h
  split at h
  · cases h
  rename_i end_ hadd
  obtain ⟨rfl, -⟩ := checkedAdd_some hadd
  split at h
  · cases h
  split at h
  · cases h
  · rename_i behind hmax
    obtain ⟨hlt, ⟨range, hmem, hbefore, hrange⟩, hskip⟩ := next_spec hmax
    split at h
    · cases h
    rename_i aligned halign
    cases h
    obtain ⟨hup, haligned, hleast⟩ := alignUp_some halign
    subst hrange
    exact ⟨Nat.lt_of_lt_of_le hlt hup, haligned, ⟨range, hmem, hbefore, hup, hleast⟩,
      fun gap hle hgap hfree => hleast gap (hskip gap hle hfree) hgap⟩

/-- What a search that begins at a page says. -/
structure Searched (limit len : Nat) (occupied : List VirtualRange) (candidate : Nat)
    (result : Except SharedMappingError (Option Nat)) : Prop where
  found : ∀ address, result = .ok (some address) → candidate ≤ address ∧ address % pageSize = 0 ∧
    address + len ≤ limit ∧ Free occupied address len
  missed : result = .ok none → ∀ gap, candidate ≤ gap → gap % pageSize = 0 →
    gap + len ≤ limit → ¬Free occupied gap len
  failed : ∀ error, result = .error error → error = .rangeOverflow ∧ TooLarge len occupied candidate

/-- The loop ends, and passes over no gap. -/
theorem firstFitMapping_spec (limit len : Nat) {rounds : Nat}
    (hrounds : ahead occupied candidate < rounds)
    (haligned : candidate % pageSize = 0) :
    ∃ result, firstFitMapping limit len occupied rounds candidate = some result ∧
      Searched limit len occupied candidate result := by
  induction rounds generalizing candidate with
  | zero => omega
  | succ rounds ih =>
    unfold firstFitMapping
    cases hround : firstFitRound limit len occupied candidate with
    | inl result =>
      obtain ⟨hfound, hnone, hfailed⟩ := firstFitRound_inl hround
      refine ⟨result, rfl, fun address hres => ?_, fun hres gap hle _ hend => ?_, hfailed⟩
      · obtain ⟨rfl, hrest⟩ := hfound address hres
        exact ⟨Nat.le_refl _, haligned, hrest⟩
      · have hpast := hnone hres
        omega
    | inr next =>
      obtain ⟨hlt, haligned', ⟨range, hmem, hbefore, hbehind, hleast⟩, hskip⟩ :=
        firstFitRound_inr hround
      have hfewer := ahead_lt ⟨range, hmem, hbefore, hbehind⟩
      obtain ⟨result, hresult, hsearched⟩ := ih (by omega) haligned'
      refine ⟨result, hresult, fun address hres => ?_, fun hres gap hle hgap hend hfree => ?_,
        fun error hres => ?_⟩
      · obtain ⟨hle, hrest⟩ := hsearched.found address hres
        exact ⟨by omega, hrest⟩
      · exact hsearched.missed hres gap (hskip gap hle hgap hfree) hgap hend hfree
      · refine (hsearched.failed error hres).imp_right fun hlarge => ?_
        rcases hlarge with hnext | hrest
        · refine .inr (.inr ⟨range, hmem, ?_⟩)
          exact Nat.lt_of_not_le fun hle => Nat.not_le.mpr hnext (hleast _ hle rfl)
        · exact .inr hrest

theorem Free.pageStart (haligned : ∀ range ∈ occupied, range.end_ % pageSize = 0)
    (h : Free occupied gap len) : Free occupied (gap - gap % pageSize) len := by
  intro range hmem
  have hclear := h range hmem
  have hend := haligned range hmem
  simp only [VirtualRange.overlaps, Bool.and_eq_false_iff, decide_eq_false_iff_not] at hclear ⊢
  unfold pageSize at hend ⊢
  omega

theorem Searched.none_free (h : Searched limit len occupied candidate (.ok none))
    (hcandidate : candidate % pageSize = 0)
    (haligned : ∀ range ∈ occupied, range.end_ % pageSize = 0) (hle : candidate ≤ gap)
    (hend : gap + len ≤ limit) : ¬Free occupied gap len := by
  intro hfree
  refine h.missed rfl (gap - gap % pageSize) ?_ ?_ (by omega) (hfree.pageStart haligned)
  · unfold pageSize at hcandidate ⊢
    omega
  · unfold pageSize
    omega

/-! ## Placement -/

theorem free_of_any (h : ¬occupied.any (·.overlaps ⟨address, address + len⟩) = true) :
    Free occupied address len := by
  intro range hmem
  rw [Bool.eq_false_iff]
  exact fun hover => h (any_eq_true.mpr ⟨range, hmem, hover⟩)

theorem userMappingRange_some {range : VirtualRange}
    (h : userMappingRange address len = some range) :
    range = ⟨address, address + len⟩ ∧ pageSize ≤ address ∧ address % pageSize = 0 ∧
      address + len ≤ userAddressEnd := by
  unfold userMappingRange at h
  split at h
  · cases h
  rename_i hvalid
  split at h
  · cases h
  rename_i end_ hadd
  obtain ⟨rfl, -⟩ := checkedAdd_some hadd
  split at h
  · cases h
    exact ⟨rfl, by omega, by omega, by assumption⟩
  · cases h

theorem acceptedHint_some (h : acceptedHint requested len occupied = some address) :
    pageSize ≤ address ∧ address % pageSize = 0 ∧ address + len ≤ userAddressEnd ∧
      Free occupied address len := by
  unfold acceptedHint at h
  split at h
  · cases h
  split at h
  · cases h
  · rename_i hint hhint
    obtain ⟨aligned, -, hrange⟩ := Option.bind_eq_some_iff.mp hhint
    obtain ⟨rfl, hlow, haligned, hhigh⟩ := userMappingRange_some hrange
    split at h
    · cases h
    · rename_i hfree
      cases h
      exact ⟨hlow, haligned, hhigh, free_of_any hfree⟩

theorem searchStart_spec (cursor automaticLimit : Nat) :
    sharedMappingBase ≤ searchStart cursor automaticLimit ∧
      searchStart cursor automaticLimit % pageSize = 0 ∧
      (searchStart cursor automaticLimit < automaticLimit ∨
        searchStart cursor automaticLimit = sharedMappingBase) := by
  unfold searchStart
  cases hstart : (alignUp (max cursor sharedMappingBase) pageSize).filter (· < automaticLimit) with
  | none => exact ⟨Nat.le_refl _, rfl, .inr rfl⟩
  | some start =>
    obtain ⟨halign, hlt⟩ := Option.filter_eq_some_iff.mp hstart
    obtain ⟨hle, haligned, -⟩ := alignUp_some halign
    exact ⟨Nat.le_trans (Nat.le_max_right _ _) hle, haligned, .inl (of_decide_eq_true hlt)⟩

/-- A place for a mapping between the base and the limit. -/
def IsGap (occupied : List VirtualRange) (len limit gap : Nat) : Prop :=
  sharedMappingBase ≤ gap ∧ gap + len ≤ limit ∧ Free occupied gap len

/-- The search begins strictly inside the gap. -/
def Straddles (start len gap : Nat) : Prop := gap < start ∧ start < gap + len

/-- Without a place, every gap has the start of the search inside; a place that is found has not. -/
theorem selectMappingAddress_automatic (cursor automaticLimit : Nat)
    (hhint : acceptedHint requested len occupied = none) :
    ∃ result, selectMappingAddress requested false len cursor automaticLimit occupied =
        some result ∧
      (∀ address, result = .ok address → address % pageSize = 0 ∧
        IsGap occupied len automaticLimit address ∧
        ¬Straddles (searchStart cursor automaticLimit) len address) ∧
      ((∀ range ∈ occupied, range.end_ % pageSize = 0) → result = .error .noAddressSpace →
        ∀ gap, IsGap occupied len automaticLimit gap →
          Straddles (searchStart cursor automaticLimit) len gap) ∧
      ∀ error, result = .error error → error = .noAddressSpace ∨
        TooLarge len occupied (searchStart cursor automaticLimit) := by
  obtain ⟨hbase, hpage, hbelow⟩ := searchStart_spec cursor automaticLimit
  unfold selectMappingAddress Straddles
  rw [if_neg Bool.false_ne_true, hhint]
  dsimp only
  generalize searchStart cursor automaticLimit = start at *
  have hrounds : ∀ candidate, ahead occupied candidate < occupied.length + 1 := fun candidate =>
    Nat.lt_succ_of_le countP_le_length
  obtain ⟨first, hfirst, hsearched⟩ := firstFitMapping_spec automaticLimit len (hrounds start) hpage
  obtain ⟨second, hsecond, hsearched'⟩ :=
    firstFitMapping_spec start len (hrounds sharedMappingBase) rfl
  rw [hfirst, hsecond]
  match first, hsearched with
  | .error error, hsearched =>
    obtain ⟨rfl, hlarge⟩ := hsearched.failed error rfl
    exact ⟨_, rfl, nofun, nofun, fun _ _ => .inr hlarge⟩
  | .ok (some address), hsearched =>
    refine ⟨_, rfl, fun address' heq => ?_, nofun, nofun⟩
    cases heq
    obtain ⟨hle, hmod, hend, hfree⟩ := hsearched.found address rfl
    exact ⟨hmod, ⟨by omega, hend, hfree⟩, by omega⟩
  | .ok none, hsearched =>
    -- what the first search missed begins below its start, where the second one ends
    have hlow (haligned : ∀ range ∈ occupied, range.end_ % pageSize = 0) : ∀ gap,
        gap + len ≤ automaticLimit → Free occupied gap len → gap < start := by
      intro gap hend hfree
      by_contra hge
      exact hsearched.none_free hpage haligned (Nat.le_of_not_lt hge) hend hfree
    dsimp only
    split
    · match second, hsearched' with
      | .error error, hsearched' =>
        obtain ⟨rfl, hlarge⟩ := hsearched'.failed error rfl
        refine ⟨_, rfl, nofun, nofun, fun _ _ => .inr (hlarge.imp_left fun hlt => ?_)⟩
        exact Nat.lt_of_lt_of_le hlt hbase
      | .ok (some address), hsearched' =>
        refine ⟨_, rfl, fun address' heq => ?_, nofun, nofun⟩
        cases heq
        obtain ⟨hle, hmod, hend, hfree⟩ := hsearched'.found address rfl
        exact ⟨hmod, ⟨hle, by omega, hfree⟩, by omega⟩
      | .ok none, hsearched' =>
        refine ⟨_, rfl, nofun, fun haligned _ gap hgap => ?_, fun _ heq => .inl ?_⟩
        · obtain ⟨hle, hend, hfree⟩ := hgap
          refine ⟨hlow haligned gap hend hfree, ?_⟩
          by_contra hge
          exact hsearched'.none_free rfl haligned hle (Nat.le_of_not_lt hge) hfree
        · exact (Except.error.inj heq).symm
    · refine ⟨_, rfl, nofun, fun haligned _ gap hgap => ?_, fun _ heq => .inl ?_⟩
      · obtain ⟨hle, hend, hfree⟩ := hgap
        have hlt := hlow haligned gap hend hfree
        omega
      · exact (Except.error.inj heq).symm

/-- A gap in user space and ranges in user space keep the search in 64 bits. -/
theorem IsGap.not_tooLarge (hgap : IsGap occupied len limit gap) (hlimit : limit ≤ userAddressEnd)
    (hoccupied : ∀ range ∈ occupied, range.end_ ≤ userAddressEnd) (cursor : Nat) :
    ¬TooLarge len occupied (searchStart cursor limit) := by
  obtain ⟨-, -, hstart⟩ := searchStart_spec cursor limit
  obtain ⟨hbase, hend, -⟩ := hgap
  rintro (hlarge | hlarge | ⟨range, hmem, hlarge⟩)
  · unfold userAddressEnd sharedMappingBase at *
    omega
  · omega
  · exact Nat.not_lt.mpr (hoccupied range hmem) hlarge

theorem selectMappingAddress_fixed (requested len cursor automaticLimit : Nat)
    (occupied : List VirtualRange) :
    ∃ result, selectMappingAddress requested true len cursor automaticLimit occupied =
        some result ∧ result ≠ .error .noAddressSpace ∧
      ∀ address, result = .ok address → pageSize ≤ address ∧ address % pageSize = 0 ∧
        address + len ≤ userAddressEnd ∧ Free occupied address len := by
  unfold selectMappingAddress
  rw [if_pos rfl]
  split
  · exact ⟨_, rfl, nofun, nofun⟩
  split
  · exact ⟨_, rfl, nofun, nofun⟩
  · rename_i candidate hrange
    obtain ⟨rfl, hlow, hmod, hhigh⟩ := userMappingRange_some hrange
    split
    · exact ⟨_, rfl, nofun, nofun⟩
    · rename_i hfree
      refine ⟨_, rfl, nofun, fun address heq => ?_⟩
      cases heq
      exact ⟨hlow, hmod, hhigh, free_of_any hfree⟩

/-- Every search ends and what it returns is a place.  It misses the gaps there are exactly when all
of them have the start of the search inside. -/
theorem selectMappingAddress_places (requested : Nat) (fixed : Bool)
    (mappedLen cursor automaticLimit : Nat) (occupied : List VirtualRange) :
    ∃ result, selectMappingAddress requested fixed mappedLen cursor automaticLimit occupied =
        some result ∧
      (∀ address, result = .ok address → address % pageSize = 0 ∧ pageSize ≤ address ∧
        (automaticLimit ≤ userAddressEnd → address + mappedLen ≤ userAddressEnd) ∧
        Free occupied address mappedLen ∧
        (fixed = false → acceptedHint requested mappedLen occupied = none →
          sharedMappingBase ≤ address ∧ address + mappedLen ≤ automaticLimit)) ∧
      (result = .error .noAddressSpace →
        fixed = false ∧ acceptedHint requested mappedLen occupied = none) ∧
      (fixed = false → acceptedHint requested mappedLen occupied = none →
        automaticLimit ≤ userAddressEnd →
        (∀ range ∈ occupied, range.end_ % pageSize = 0 ∧ range.end_ ≤ userAddressEnd) →
        ((result = .error .noAddressSpace → ∀ gap, ¬IsGap occupied mappedLen automaticLimit gap) ↔
          ((∃ gap, IsGap occupied mappedLen automaticLimit gap) →
            ∃ gap, IsGap occupied mappedLen automaticLimit gap ∧
              ¬Straddles (searchStart cursor automaticLimit) mappedLen gap))) := by
  cases fixed with
  | true =>
    obtain ⟨result, hresult, hspace, hfound⟩ :=
      selectMappingAddress_fixed requested mappedLen cursor automaticLimit occupied
    refine ⟨result, hresult, fun address heq => ?_, fun heq => absurd heq hspace, nofun⟩
    obtain ⟨hlow, hmod, hhigh, hfree⟩ := hfound address heq
    exact ⟨hmod, hlow, fun _ => hhigh, hfree, nofun⟩
  | false =>
    cases hhint : acceptedHint requested mappedLen occupied with
    | some hint =>
      obtain ⟨hlow, hmod, hhigh, hfree⟩ := acceptedHint_some hhint
      refine ⟨.ok hint, ?_, fun address heq => ?_, nofun, fun _ => nofun⟩
      · unfold selectMappingAddress
        rw [hhint]
        rfl
      · cases heq
        exact ⟨hmod, hlow, fun _ => hhigh, hfree, fun _ => nofun⟩
    | none =>
      obtain ⟨result, hresult, hfound, hmissed, hfailed⟩ :=
        selectMappingAddress_automatic cursor automaticLimit hhint
      refine ⟨result, hresult, fun address heq => ?_, fun _ => ⟨rfl, rfl⟩,
        fun _ _ hlimit hoccupied => ⟨fun hcomplete hgap => ?_, fun hgaps heq gap hgap => ?_⟩⟩
      · obtain ⟨hmod, ⟨hbase, hend, hfree⟩, -⟩ := hfound address heq
        refine ⟨hmod, Nat.le_trans (by decide) hbase, Nat.le_trans hend, hfree, ?_⟩
        exact fun _ _ => ⟨hbase, hend⟩
      · match result, hfound, hfailed with
        | .ok address, hfound, _ =>
          obtain ⟨-, hplace, hinside⟩ := hfound address rfl
          exact ⟨address, hplace, hinside⟩
        | .error error, _, hfailed =>
          obtain ⟨gap, hgap⟩ := hgap
          rcases hfailed error rfl with rfl | hlarge
          · exact absurd hgap (hcomplete rfl gap)
          · exact absurd hlarge
              (hgap.not_tooLarge hlimit (fun range hmem => (hoccupied range hmem).2) cursor)
      · obtain ⟨other, hother, hinside⟩ := hgaps ⟨gap, hgap⟩
        exact hinside (hmissed (fun range hmem => (hoccupied range hmem).1) heq other hother)

/-- From the middle of three pages, the last of them taken, the first is found. -/
example : selectMappingAddress 0 false 0x1000 0x100002000 0x100003000
    [⟨0x100002000, 0x100003000⟩] = some (.ok 0x100000000) := by
  decide

/-- Of four free pages, three are not found from the middle. -/
theorem selectMappingAddress_missesGap :
    selectMappingAddress 0 false 0x3000 0x100002000 0x100004000 [] = some (.error .noAddressSpace) ∧
      Free [] 0x100000000 0x3000 ∧ sharedMappingBase ≤ 0x100000000 ∧
      0x100000000 + 0x3000 ≤ 0x100004000 := by
  exact ⟨rfl, nofun, by decide, by decide⟩

end Ginkgo.Kernel.Mapping
