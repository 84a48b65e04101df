import Ginkgo.Ipc.Simulation.Runs

/-!
# Capability confinement

The rights of a reference never exceed those its object was created with, and a reference
that was created without the rights to duplicate or transfer it never leaves its table.
-/

namespace Ginkgo.Ipc

open Ginkgo.Lib Ginkgo.Sysapi List Ipc.System Bitflags HandleTable

variable {n : Nat} {kinds : Set Kind} {F F' : Frame n} {past events : List (Event n)}
  {s : System n} {e : HandleEntry} {t u : Fin n}

/-- Objects that are created without the rights to duplicate or transfer them. -/
def KernelObject.isPinned : KernelObject → Bool
  | .filesystemRoot | .systemPower _ | .schedulingAuthority _ => true
  | _ => false

theorem not_contains_of_subset {allowed rights other : Rights}
    (hsubset : Bitflags.contains allowed rights = true)
    (hother : Bitflags.contains allowed other = false) :
    Bitflags.contains rights other = false := by
  rw [← Bool.not_eq_true] at hother ⊢
  intro h
  exact hother (contains_trans hsubset h)

/-- A pinned object is created without the right `other` to transfer or to duplicate it. -/
theorem KernelObject.CreatedWith.pinned {kernel : KernelObject} {rights other : Rights}
    (h : kernel.CreatedWith rights) (hpinned : kernel.isPinned = true)
    (hother : other = Rights.TRANSFER ∨ other = Rights.DUPLICATE) :
    Bitflags.contains rights other = false := by
  cases kernel with
  | filesystemRoot =>
    apply not_contains_of_subset h
    rcases hother with rfl | rfl <;> decide
  | systemPower | schedulingAuthority =>
    cases h
    rcases hother with rfl | rfl <;> decide
  | _ => cases hpinned

theorem creations_of_isWindow (h : ∀ e ∈ events, e.isWindow = true) : creations events = [] := by
  refine filterMap_eq_nil_iff.mpr fun e he => ?_
  have := h e he
  cases e <;> simp_all [Event.isWindow, Event.creation?]

/-- New objects have names of their own and rights that their constructor allows. -/
def NewObjects (F F' : Frame n) (created : List (Creation n)) : Prop :=
  (∀ c ∈ created, c.object.kernel.CreatedWith c.rights ∧ F.sys.nextObject ≤ c.object.id ∧
    c.object.id < F'.sys.nextObject) ∧ (created.map (·.object.id)).Nodup

theorem Transfer.creations (h : Transfer F events F') : NewObjects F F' (Ipc.creations events) := by
  cases h with
  | @create s t i generation kernel rights hvac hker hcell hrights =>
    change NewObjects _ _ [⟨t, ⟨s.nextObject, kernel⟩, rights⟩]
    refine ⟨?_, ?_⟩
    · simp only [mem_singleton, forall_eq]
      exact ⟨hrights, le_rfl, Nat.lt_succ_self _⟩
    · simp
  | @createChannel s s1 s2 left right leftIndex leftGeneration rightIndex rightGeneration hs1
      hleft hs2 hright =>
      subst hs1 hs2
      change NewObjects _ _
        [⟨left, ⟨s.nextObject, .channel s.channels.next .left⟩, channelDefaultRights⟩,
          ⟨right, ⟨s.nextObject + 1, .channel s.channels.next .right⟩, channelDefaultRights⟩]
      refine ⟨?_, ?_⟩
      · simp only [mem_cons, not_mem_nil, or_false, forall_eq_or_imp, forall_eq]
        simp only [frame, withTable]
        exact ⟨⟨rfl, by omega, by omega⟩, rfl, by omega, by omega⟩
      · simp
  | _ => exact ⟨by simp [Ipc.creations, Event.creation?], by simp [Ipc.creations, Event.creation?]⟩

theorem Moves.creations (h : Moves kinds F events F') : NewObjects F F' (Ipc.creations events) := by
  have hnone (hevs : Ipc.creations events = []) : NewObjects F F' (Ipc.creations events) := by
    simp [NewObjects, hevs]
  cases h with
  | transfer _ h => exact h.creations
  | release _ h =>
    apply hnone
    cases h <;> rfl
  | service _ h => exact hnone (creations_of_isWindow h.isWindow)
  | wait _ h =>
    apply hnone
    rw [h.events_eq_nil]
    rfl

structure Confined (events : List (Event n)) (F : Frame n) : Prop where
  granted : ∀ e ∈ F.total, ∃ c ∈ creations events, c.object = e.object ∧
    Bitflags.contains c.rights e.rights = true
  legal : ∀ c ∈ creations events, c.object.kernel.CreatedWith c.rights
  below : ∀ c ∈ creations events, c.object.id < F.sys.nextObject
  unique : ((creations events).map (·.object.id)).Nodup

theorem Confined.move (hc : Confined past F) (h : Moves kinds F events F') :
    Confined (past ++ events) F' := by
  obtain ⟨hnew, hnodup⟩ := h.creations
  have hgrows := h.grows.nextObject
  refine ⟨fun e he => ?_, ?_, ?_, ?_⟩
  · rw [creations_append]
    rcases h.totalEffect.origin he with ⟨source, hsource, hobj, hrights⟩ | ⟨t, hcreated⟩
    · obtain ⟨c, hc, hobj', hrights'⟩ := hc.granted source hsource
      exact ⟨c, mem_append_left _ hc, hobj'.trans hobj.symm, contains_trans hrights' hrights⟩
    · exact ⟨⟨t, e.object, e.rights⟩, mem_append_right _ (mem_creations.mpr hcreated), rfl,
        contains_self _⟩
  · rw [creations_append]
    intro c hmem
    rcases mem_append.mp hmem with hmem | hmem
    · exact hc.legal c hmem
    · exact (hnew c hmem).1
  · rw [creations_append]
    intro c hmem
    rcases mem_append.mp hmem with hmem | hmem
    · exact (hc.below c hmem).trans_le hgrows
    · exact (hnew c hmem).2.2
  · rw [creations_append, map_append, nodup_append]
    refine ⟨hc.unique, hnodup, ?_⟩
    intro a ha b hb
    obtain ⟨c, hmem, rfl⟩ := mem_map.mp ha
    obtain ⟨c', hmem', rfl⟩ := mem_map.mp hb
    have := hc.below c hmem
    have := (hnew c' hmem').2.1
    omega

theorem Confined.not_pinned (hc : Confined events F) (he : e ∈ F.total) {other : Rights}
    (hother : other = Rights.TRANSFER ∨ other = Rights.DUPLICATE)
    (hright : Bitflags.contains e.rights other = true) : e.object.kernel.isPinned = false := by
  obtain ⟨c, hmem, hobj, hrights⟩ := hc.granted e he
  by_contra hpinned
  rw [Bool.not_eq_false, ← hobj] at hpinned
  have hnone := (hc.legal c hmem).pinned hpinned hother
  rw [contains_trans hrights hright] at hnone
  cases hnone

/-! ## How a reference gets to a place -/

/-- A reference is carried by a queued message. -/
def System.Queued (s : System n) (e : HandleEntry) : Prop :=
  ∃ c side, ∃ m ∈ s.queue c side, e ∈ m.handles

/-- Where the references of each place were before a move. -/
structure Placed (F F' : Frame n) (events : List (Event n)) : Prop where
  tables : ∀ t, ∀ e ∈ (F'.sys.tables t).entries,
    e ∈ (F.sys.tables t).entries ∨ e ∈ F.hand ∨ ∃ rights, Event.created t e.object rights ∈ events
  hand : ∀ e ∈ F'.hand, e ∈ F.hand ∨ F.sys.Queued e ∨ ∃ source ∈ F.total,
    source.object = e.object ∧ ∃ other, (other = Rights.TRANSFER ∨ other = Rights.DUPLICATE) ∧
      Bitflags.contains source.rights other = true
  queues : ∀ e, F'.sys.Queued e → F.sys.Queued e ∨ e ∈ F.hand

theorem SameCustody.placed (h : SameCustody F F') : Placed F F' events where
  tables := by
    intro t e he
    rw [h.tables] at he
    exact .inl he
  hand := by
    intro e he
    rw [h.hand] at he
    exact .inl he
  queues := by
    intro e he
    unfold System.Queued at he ⊢
    rw [h.queue] at he
    exact .inl he

theorem entries_withTable {table : HandleTable} (h : e ∈ ((s.withTable u table).tables t).entries) :
    e ∈ (s.tables t).entries ∨ u = t ∧ e ∈ table.entries := by
  by_cases hut : u = t
  · subst hut
    rw [tables_withTable_self] at h
    exact .inr ⟨rfl, h⟩
  · rw [tables_withTable_of_ne _ _ (Ne.symm hut)] at h
    exact .inl h

theorem entries_of_fill {index generation : Nat} {entry : HandleEntry}
    (hvac : (s.tables u).VacantAt index generation)
    (h : e ∈ ((s.withTable u ((s.tables u).fill index generation entry)).tables t).entries) :
    e ∈ (s.tables t).entries ∨ u = t ∧ e = entry := by
  rcases entries_withTable h with hold | ⟨rfl, hnew⟩
  · exact .inl hold
  · rcases mem_cons.mp ((entries_fill hvac).mem_iff.mp hnew) with hself | hold
    · exact .inr ⟨rfl, hself⟩
    · exact .inl hold

theorem entries_of_vacate {i generation : Nat}
    {entry : HandleEntry} (hslot : (s.tables u).OccupiedAt i generation entry)
    (h : e ∈ ((s.withTable u ((s.tables u).vacate i generation)).tables t).entries) :
    e ∈ (s.tables t).entries := by
  rcases entries_withTable h with hold | ⟨rfl, hnew⟩
  · exact hold
  · exact (entries_vacate hslot).mem_iff.mpr (mem_cons_of_mem _ hnew)

theorem QueueEffect.queued (h : QueueEffect F F' events) (he : F'.sys.Queued e) :
    F.sys.Queued e ∨ ∃ c side payload, events = [.sent c side payload] := by
  obtain ⟨d, side, m, hm, he⟩ := he
  rcases h.mem_queue hm with hm | ⟨hevs, -⟩
  · exact .inl ⟨d, side, m, hm, he⟩
  · exact .inr ⟨d, side, _, hevs⟩

theorem Transfer.placed (h : Transfer F events F') : Placed F F' events := by
  have hqueued := h.queueEffect
  cases h with
  | @grow s hand doomed dirty u count hfits =>
    refine ⟨fun t e he => ?_, fun e he => .inl he, fun e he => .inl he⟩
    rcases entries_withTable he with hold | ⟨rfl, hnew⟩
    · exact .inl hold
    · rw [entries_grow] at hnew
      exact .inl hnew
  | @create s u i generation kernel rights hvac =>
    refine ⟨fun t e he => ?_, fun e he => .inl he, fun e he => .inl he⟩
    rcases entries_of_fill hvac he with he | ⟨rfl, rfl⟩
    · exact .inl he
    · exact .inr (.inr ⟨rights, mem_cons_self⟩)
  | @createChannel s s1 s2 left right leftIndex leftGeneration rightIndex rightGeneration hs1
      hleft hs2 hright =>
      refine ⟨fun t e he => ?_, fun e he => .inl he, fun e he => ?_⟩
      · rcases entries_of_fill hright he with he | ⟨rfl, rfl⟩
        · rw [hs2] at he
          rcases entries_of_fill hleft he with he | ⟨rfl, rfl⟩
          · rw [hs1] at he
            exact .inl he
          · exact .inr (.inr ⟨_, mem_cons_self⟩)
        · refine .inr (.inr ⟨channelDefaultRights, ?_⟩)
          simp
      · rcases hqueued.queued he with he | ⟨_, _, _, hevs⟩
        · exact .inl he
        · cases hevs
  | @take s hand u i generation entry rights hslot hxfer hrights =>
    refine ⟨fun t e he => .inl (entries_of_vacate hslot he), fun e he => ?_, fun e he => .inl he⟩
    rcases mem_append.mp he with he | he
    · exact .inl he
    rw [mem_singleton] at he
    subst he
    exact .inr (.inr ⟨entry, Frame.mem_total (mem_held_of_occupied hslot), rfl, _, .inl rfl, hxfer⟩)
  | @clone s hand u i generation entry rights ref hslot hdup hrights href hfresh =>
    refine ⟨fun t e he => .inl he, fun e he => ?_, fun e he => .inl he⟩
    rcases mem_append.mp he with he | he
    · exact .inl he
    rw [mem_singleton] at he
    subst he
    exact .inr (.inr ⟨entry, Frame.mem_total (mem_held_of_occupied hslot), rfl, _, .inr rfl, hdup⟩)
  | @install s entry hand dirty u i generation hvac =>
    refine ⟨fun t e he => ?_, fun e he => .inl (mem_cons_of_mem _ he), fun e he => .inl he⟩
    rcases entries_of_fill hvac he with he | ⟨rfl, rfl⟩
    · exact .inl he
    · exact .inr (.inl mem_cons_self)
  | @send s c side message hcell hopen hroom hcycle =>
    refine ⟨fun t e he => .inl he, fun e he => (not_mem_nil he).elim, fun e he => ?_⟩
    obtain ⟨d, side', m, hm, he⟩ := he
    rw [s.queue_withQueue c d side side'] at hm
    split at hm
    · rcases mem_append.mp hm with hm | hm
      · exact .inl ⟨c, side, m, hm, he⟩
      · rw [mem_singleton] at hm
        subst hm
        exact .inr he
    · exact .inl ⟨d, side', m, hm, he⟩
  | @receive s c side message q hcell hq =>
    refine ⟨fun t e he => .inl he, fun e he => .inr (.inl ?_), fun e he => ?_⟩
    · refine ⟨c, side, message, ?_, he⟩
      show message ∈ s.queue c side
      rw [hq]
      exact mem_cons_self
    · rcases hqueued.queued he with he | ⟨_, _, _, hevs⟩
      · exact .inl he
      · cases hevs

theorem Release.placed (h : Release F events F') : Placed F F' events := by
  have hqueued := h.queueEffect
  have hqs e (he : F'.sys.Queued e) : F.sys.Queued e ∨ e ∈ F.hand := by
    rcases hqueued.queued he with he | ⟨_, _, _, hsent⟩
    · exact .inl he
    · cases h <;> cases hsent
  cases h with
  | close u hparts hslot =>
    exact ⟨fun t e he => .inl (entries_of_vacate hslot he), fun e he => .inl he, hqs⟩
  | drop | dropChannel => exact ⟨fun t e he => .inl he, fun e he => .inl he, hqs⟩

theorem Moves.placed (h : Moves kinds F events F') : Placed F F' events := by
  cases h with
  | transfer _ h => exact h.placed
  | release _ h => exact h.placed
  | service _ h | wait _ h => exact h.sameCustody.placed

structure AtHome (events : List (Event n)) (F : Frame n) : Prop where
  hand : ∀ e ∈ F.hand, e.object.kernel.isPinned = false
  queues : ∀ e, F.sys.Queued e → e.object.kernel.isPinned = false
  tables : ∀ t, ∀ e ∈ (F.sys.tables t).entries, e.object.kernel.isPinned = true →
    ∃ rights, ⟨t, e.object, rights⟩ ∈ creations events

theorem AtHome.move (hhome : AtHome past F) (hc : Confined past F)
    (h : Moves kinds F events F') : AtHome (past ++ events) F' where
  hand := by
    intro e he
    rcases h.placed.hand e he with he | he | ⟨source, hsource, hobj, other, hother, hright⟩
    · exact hhome.hand e he
    · exact hhome.queues e he
    · rw [← hobj]
      exact hc.not_pinned hsource hother hright
  queues := by
    intro e he
    rcases h.placed.queues e he with he | he
    · exact hhome.queues e he
    · exact hhome.hand e he
  tables := by
    intro t e he hpinned
    rw [creations_append]
    rcases h.placed.tables t e he with he | he | ⟨rights, hcreated⟩
    · obtain ⟨rights, hmem⟩ := hhome.tables t e he hpinned
      exact ⟨rights, mem_append_left _ hmem⟩
    · rw [hhome.hand e he] at hpinned
      cases hpinned
    · exact ⟨rights, mem_append_right _ (mem_creations.mpr hcreated)⟩

theorem confined_of_star (h : Star (Moves kinds) (System.init n).frame events F) :
    Confined events F ∧ AtHome events F := by
  refine h.invariant (I := fun events F => Confined events F ∧ AtHome events F) ⟨?_, ?_⟩ ?_
  · exact ⟨by simp [total_init], by simp [creations], by simp [creations], by simp [creations]⟩
  · exact ⟨by simp [frame], by simp [System.Queued, frame, queue_init],
      by simp [frame, init, entries, new]⟩
  · rintro past F events F' ⟨hc, hhome⟩ hmove
    exact ⟨hc.move hmove, hhome.move hc hmove⟩

/-- A reference installed in a table or carried by a queued message. -/
def System.Names (s : System n) (e : HandleEntry) : Prop :=
  (∃ t, e ∈ (s.tables t).entries) ∨ s.Queued e

theorem Wf.mem_total_of_names (hwf : Wf s.frame) (h : s.Names e) : e ∈ s.frame.total := by
  refine Frame.mem_total ?_
  rcases h with ⟨t, he⟩ | ⟨c, side, m, hm, he⟩
  · exact mem_held_of_table he
  have hcell : c < s.channels.next := by
    by_contra hlt
    have hblank := hwf.blank.channels c (Nat.le_of_not_lt hlt)
    change s.channels.cell c = .unallocated at hblank
    simp only [queue, hblank] at hm
    cases side <;> cases hm
  exact mem_held_of_queue hcell hm he

/-- Every object was created once, and in every state that a run reaches, every reference
to it has at most the rights it was created with.  So no reference to a file has
`EXECUTE` together with `WRITE`, and a pinned object is named only in the table that it
was created in. -/
theorem run_capabilities_confined {trace : List (Record n)} (h : Run trace s) :
    ((creations (shown trace)).map (·.object.id)).Nodup ∧
    (∀ e, s.Names e → ∃ c ∈ creations (shown trace), c.object = e.object ∧
      Bitflags.contains c.rights e.rights = true) ∧
    (∀ e file, s.Names e → e.object.kernel = .file file →
      ¬(Bitflags.contains e.rights Rights.EXECUTE = true ∧
        Bitflags.contains e.rights Rights.WRITE = true)) ∧
    (∀ e, e.object.kernel.isPinned = true → ¬s.Queued e ∧
      ∀ t, e ∈ (s.tables t).entries → ∀ c ∈ creations (shown trace),
        c.object.id = e.object.id → c.table = t) := by
  obtain ⟨hc, hhome⟩ := confined_of_star h.simulated
  have hgranted e he := hc.granted e (h.wf.mem_total_of_names he)
  refine ⟨hc.unique, hgranted, ?_, ?_⟩
  · rintro e file he hkernel ⟨hexecute, hwrite⟩
    obtain ⟨c, hmem, hobject, hrights⟩ := hgranted e he
    have hlegal := hc.legal c hmem
    rw [hobject, hkernel] at hlegal
    exact hlegal ⟨contains_trans hrights hexecute, contains_trans hrights hwrite⟩
  · intro e hpinned
    constructor
    · intro hqueued
      have := hhome.queues e hqueued
      rw [hpinned] at this
      cases this
    · intro t he c hmem hid
      obtain ⟨rights, hhere⟩ := hhome.tables t e he hpinned
      rw [inj_on_of_nodup_map hc.unique hmem hhere hid]

/-- A file is sent away from the table that also has a root. -/
def fileInFlight : List (Call 2) :=
  [⟨.create (.filesystemRootCreate 0), none⟩, ⟨.create (.filesystemFileCreate 0 ⟨1, 7, 1⟩
      (Rights.READ ||| Rights.EXECUTE ||| Rights.TRANSFER)), none⟩,
    ⟨.create (.channelCreateBetween 0 1 zero_ne_one_two), none⟩,
    ⟨.channel (.channelWriteWithDispositions 0 (handleFromParts 2 1) []
      [⟨handleFromParts 1 1, Rights.READ⟩]), none⟩]

theorem run_capabilities_confined_fileInFlight :
    ((System.init 2).execAll fileInFlight).2.Queued ⟨⟨1, .file ⟨1, 7, 1⟩⟩, Rights.READ, 1⟩ ∧
      ∃ c ∈ creations (shown ((System.init 2).execAll fileInFlight).1),
        c.object = ⟨1, .file ⟨1, 7, 1⟩⟩ ∧ Bitflags.contains c.rights Rights.READ = true := by
  have hvalid : (init 2).validAll fileInFlight = true := by decide +kernel
  have hqueued : ((init 2).execAll fileInFlight).2.Queued ⟨⟨1, .file ⟨1, 7, 1⟩⟩, Rights.READ, 1⟩ :=
    ⟨0, .right, ⟨[], 0, [⟨⟨1, .file ⟨1, 7, 1⟩⟩, Rights.READ, 1⟩]⟩, by decide +kernel, by decide⟩
  exact ⟨hqueued, (run_capabilities_confined (run_execAll hvalid)).2.1 _ (.inr hqueued)⟩

end Ginkgo.Ipc
