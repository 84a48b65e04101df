import Ginkgo.Ipc.WellFormed

/-!
# Simulating operations by moves

An operation first looks, reserves and allocates.  All of that shows nothing, and every
error is raised there.  `Reaches` describes this first part and `Fails` an error raised
in it; the rules below take an operation through it action by action.
-/

namespace Ginkgo.Ipc

open Ginkgo.Lib Ginkgo.Sysapi List HandleTable

variable {n : Nat} {kinds : Set Kind} {s0 s s' : System n} {α : Type}
  {Q : α → System n → Prop} {E : Fault → System n → Prop} {e : HandleEntry}

/-- A run of moves of the given kinds that shows nothing. -/
def Reaches (kinds : Set Kind) (s0 s : System n) : Prop :=
  Star (Moves kinds) s0.frame [] s.frame

/-- An ordinary error, reported after nothing was shown. -/
def Fails (kinds : Set Kind) (s0 : System n) (fault : Fault) (s : System n) : Prop :=
  (∃ e, fault = .error e) ∧ Reaches kinds s0 s

/-- A program simulated by moves of the given kinds that show `events`. -/
def Simulated (kinds : Set Kind) (x : IpcM n α) (events : α → System n → List (Event n))
    (s : System n) : Prop :=
  wp x (fun a s' => Star (Moves kinds) s.frame (events a s') s'.frame) (Fails kinds s) s

/-- The kinds of moves of an operation that keeps every reference. -/
def keeping : Set Kind := {.transfer, .service}

theorem transfer_mem : Kind.transfer ∈ keeping := .inl rfl

theorem service_mem : Kind.service ∈ keeping := .inr rfl

namespace SameObjects

section Fields

variable (s : System n)

theorem aside {memory : Budget} {memories : Heap SharedMemoryBacking} {nextMemoryIdentity : Nat}
    {authorities : Heap SchedulingAuthorityState} {powers : Heap SystemPowerInfo}
    {storages : Heap SharedMemoryStorage} : SameObjects s { s with
      memory, memories, nextMemoryIdentity, authorities, powers, storages } :=
  ⟨rfl, rfl, rfl, rfl, rfl, rfl, le_rfl, le_rfl, [], (append_nil _).symm⟩

theorem withNextRef {next : Nat} (h : s.nextRef ≤ next) :
    SameObjects s { s with nextRef := next } :=
  ⟨rfl, rfl, rfl, rfl, rfl, rfl, le_rfl, h, [], (append_nil _).symm⟩

theorem withMemory (m : Budget) : SameObjects s { s with memory := m } := .aside s

theorem refl : SameObjects s s := .aside s

end Fields

theorem trans {s1 s2 s3 : System n} (h : SameObjects s1 s2) (h' : SameObjects s2 s3) :
    SameObjects s1 s3 where
  tables := h'.tables.trans h.tables
  channels := h'.channels.trans h.channels
  windows := h'.windows.trans h.windows
  processes := h'.processes.trans h.processes
  requests := h'.requests.trans h.requests
  observers := h'.observers.trans h.observers
  nextObject := h.nextObject.trans h'.nextObject
  nextRef := h.nextRef.trans h'.nextRef
  notified := by
    obtain ⟨more, hmore⟩ := h.notified
    obtain ⟨more', hmore'⟩ := h'.notified
    exact ⟨more ++ more', by rw [hmore', hmore, append_assoc]⟩

end SameObjects

namespace Reaches

theorem refl (s : System n) : Reaches kinds s s := Star.refl _

variable (h : Reaches kinds s0 s) {t : Fin n}
include h

theorem tail {events : List (Event n)} {F : Frame n}
    (hmove : Moves kinds s.frame events F) : Star (Moves kinds) s0.frame events F :=
  Star.tail h hmove

theorem silent (hkinds : .service ∈ kinds ∨ .wait ∈ kinds)
    (hsame : SameObjects s s') : Reaches kinds s0 s' := by
  rcases hkinds with hkind | hkind
  · exact Star.quiet h (.service hkind (.silent hsame))
  · exact Star.quiet h (.wait hkind (.silent hsame))

theorem grow (hkind : .transfer ∈ kinds) {count : Nat} {slots : List Nat} {table : HandleTable}
    (hrsv : HandleTable.Reserved (s.tables t) count slots table) :
    Reaches kinds s0 (s.withTable t table) := by
  obtain ⟨k, rfl⟩ := hrsv.grown
  exact Star.quiet h (.transfer hkind (.grow t hrsv.fits))

end Reaches

/-! ## Rules for single actions -/

section Rules

variable (h : Reaches kinds s0 s) {handle : Handle}

include h

theorem wp_fail {e : IpcError} : wp (fail e) Q (Fails kinds s0) s := wp_throw ⟨⟨e, rfl⟩, h⟩

theorem wp_liftExcept {x : Except IpcError α} (hQ : ∀ a, x = .ok a → Q a s) :
    wp (liftExcept x) Q (Fails kinds s0) s := by
  cases x with
  | ok a => exact wp_pure (hQ a rfl)
  | error e => exact wp_fail h

theorem wp_liftExcept_bind {x : Except IpcError β} {k : β → IpcM n α}
    (hQ : ∀ b, x = .ok b → wp (k b) Q (Fails kinds s0) s) :
    wp (liftExcept x >>= k) Q (Fails kinds s0) s := wp_bind (wp_liftExcept h hQ)

theorem wp_guard {p : Prop} [Decidable p] {e : IpcError} {rest : Unit → IpcM n α}
    (hQ : ¬p → wp (rest ()) Q (Fails kinds s0) s) :
    wp (if p then fail e >>= rest else rest ()) Q (Fails kinds s0) s :=
  wp_ite (fun _ => wp_bind (wp_fail h)) hQ

theorem wp_entry {Q : HandleEntry → System n → Prop}
    (hQ : ∀ e, (s.tables t).entry handle = .ok e → Q e s) :
    wp (entry t handle) Q (Fails kinds s0) s :=
  wp_get (wp_liftExcept h hQ)

theorem wp_objectWithRights {required : Rights} {k : Object → IpcM n α}
    (hQ : ∀ e, (s.tables t).entry handle = .ok e → wp (k e.object) Q (Fails kinds s0) s) :
    wp (objectWithRights t handle required >>= k) Q (Fails kinds s0) s := by
  refine wp_bind (wp_get (wp_liftExcept h fun object hobj => ?_))
  obtain ⟨e, he, -, rfl⟩ := objectWithRights_ok hobj
  exact hQ e he

section

variable (hkinds : .service ∈ kinds ∨ .wait ∈ kinds)
include hkinds

theorem wp_onMemory {x : EStateM Fault Budget α}
    {P : α → Prop} (hx : wp x (fun a _ => P a) (fun fault _ => ∃ e, fault = .error e) s.memory)
    (hQ : ∀ a s', P a → SameObjects s s' → Reaches kinds s0 s' → Q a s') :
    wp (onMemory x) Q (Fails kinds s0) s := by
  refine wp_zoom (wp_mono hx (fun a m ha => ?_) fun fault m hfault => ?_)
  · exact hQ a _ ha (.aside s) (h.silent hkinds (.aside s))
  · exact ⟨hfault, h.silent hkinds (.aside s)⟩

end

section

variable (hkinds : .service ∈ kinds) {k : Unit → IpcM n α}
  (hQ : ∀ s', SameObjects s s' → Reaches kinds s0 s' → wp (k ()) Q (Fails kinds s0) s')
include hkinds hQ

theorem wp_tryAlloc : wp (tryAlloc >>= k) Q (Fails kinds s0) s :=
  wp_bind (wp_onMemory h (.inl hkinds) (P := fun _ => True)
    (wp_alloc (fun _ => trivial) fun _ => ⟨_, rfl⟩) fun _ s' _ => hQ s')

theorem wp_tryVecWithCapacity (capacity : Nat) :
    wp (tryVecWithCapacity capacity >>= k) Q (Fails kinds s0) s :=
  wp_bind (wp_onMemory h (.inl hkinds) (P := fun _ => True)
    (wp_allocCapacity (fun _ => trivial) fun _ => ⟨_, rfl⟩) fun _ s' _ => hQ s')

end

theorem wp_reserveSlots (hkind : .transfer ∈ kinds) (hkinds : .service ∈ kinds)
    {count : Nat} {Q : List Nat → System n → Prop} (hQ : ∀ slots table s1, SameObjects s s1 →
      HandleTable.Reserved (s.tables t) count slots table →
      Reaches kinds s0 (s1.withTable t table) → Q slots (s1.withTable t table)) :
    wp (reserveSlots t count) Q (Fails kinds s0) s := by
  refine wp_get (wp_bind ?_)
  refine wp_onMemory h (.inl hkinds) (P := fun p => HandleTable.Reserved (s.tables t) count p.1 p.2)
    (HandleTable.wp_reserveSlots (fun _ _ _ hrsv => hrsv) fun e _ => ⟨e, rfl⟩) ?_
  rintro ⟨slots, table⟩ s1 hrsv hsame hrch
  have hrsv' : HandleTable.Reserved (s1.tables t) count slots table := by
    rw [hsame.tables]
    exact hrsv
  apply wp_modify_bind
  exact wp_pure (hQ slots table s1 hsame hrsv (hrch.grow hkind hrsv'))

theorem wp_reserveSlot (hkind : .transfer ∈ kinds) (hkinds : .service ∈ kinds)
    {k : Nat → IpcM n α} (hQ : ∀ slot generation table s1, SameObjects s s1 →
      (∃ m, table = (s.tables t).grow m) → table.VacantAt slot generation →
      Reaches kinds s0 (s1.withTable t table) →
        wp (k slot) Q (Fails kinds s0) (s1.withTable t table)) :
    wp (reserveSlot t >>= k) Q (Fails kinds s0) s := by
  refine wp_bind (wp_bind (wp_reserveSlots h hkind hkinds fun slots table s1 hsame hrsv hrch => ?_))
  obtain ⟨slot, rfl⟩ := length_eq_one_iff.mp hrsv.length
  obtain ⟨generation, hvac⟩ := hrsv.vacant slot (mem_singleton_self slot)
  exact wp_pure (hQ slot generation table s1 hsame hrsv.grown hvac hrch)

end Rules

theorem wp_expect {a : α} {x : Option α} (hx : x = some a) (hQ : Q a s) : wp (expect x) Q E s := by
  subst hx
  exact wp_pure hQ

theorem wp_insertReserved {i generation : Nat} {Q : Handle → System n → Prop}
    (hvac : (s.tables t).VacantAt i generation) (hQ : Q (handleFromParts i generation)
      (s.withTable t ((s.tables t).fill i generation e))) : wp (insertReserved t i e) Q E s := by
  refine wp_get (wp_bind ?_)
  exact wp_expect (insertReserved_vacant hvac) (wp_set_bind (wp_pure hQ))

theorem wp_mintObject {kernel : KernelObject} {rights : Rights} {k : HandleEntry → IpcM n α}
    (hQ : wp (k ⟨⟨s.nextObject, kernel⟩, rights, s.nextRef⟩) Q E
      { s with nextObject := s.nextObject + 1, nextRef := s.nextRef + 1 }) :
    wp (mintObject kernel rights >>= k) Q E s := hQ

theorem Wf.allocated_entry (hwf : Wf s.frame)
    (h : (s.tables t).entry handle = .ok e) : e.object.kernel.Allocated s := by
  have hheld := System.mem_held_of_table (mem_entries_of_entry h)
  apply hwf.allocated e
  simpa [Frame.total, System.frame] using hheld

section

variable {β : Type} {x : IpcM n α} {g : α → β} {shown : β → System n → List (Event n)}
  (h : Simulated kinds x (fun a s' => shown (g a) s') s)
include h

theorem Simulated.map : Simulated kinds (g <$> x) shown s :=
  wp_map h

theorem Simulated.bind_pure : Simulated kinds (x >>= fun a => pure (g a)) shown s :=
  wp_bind h

end

/-- A simulated program may come after anything that showed nothing. -/
theorem Simulated.after {shown : α → System n → List (Event n)}
    (h : Simulated kinds x shown s) (hrch : Reaches kinds s0 s) :
    wp x (fun a s' => Star (Moves kinds) s0.frame (shown a s') s'.frame) (Fails kinds s0) s := by
  apply wp_mono h
  · intro a s' hstar
    exact Star.trans hrch hstar
  · rintro fault s' ⟨herr, hquiet⟩
    exact ⟨herr, Star.trans hrch hquiet⟩

theorem find_eq_some {table : HandleTable} (h : table.entry handle = .ok e) :
    table.find handle = some e := by
  rw [find, h]
  rfl

end Ginkgo.Ipc
