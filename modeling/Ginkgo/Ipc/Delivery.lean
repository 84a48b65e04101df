import Ginkgo.Ipc.Ownership

/-!
# Delivery of messages

What was read at one side of a channel is a first part of what was written at the other,
and while the side is open the rest is its queue.  Closing the side discards the rest.
References move with the messages: each is in one place at a time, and only closing a
handle ends any.
-/

namespace Ginkgo.Ipc

open Ginkgo.Lib Ginkgo.Sysapi List Ipc.System Multiset

variable {n : Nat} {kinds : Set Kind} {F F' : Frame n} {past events : List (Event n)}
  {s s' : System n} {c : ChannelId} {side : Side} {e : HandleEntry}

/-! ## Messages -/

theorem sentAt_sent {d : ChannelId} {side' : Side} {payload : Payload} :
    sentAt (n := n) c side [.sent d side' payload] =
      if d = c ∧ side' = side then [payload] else [] := by
  by_cases h : d = c ∧ side' = side <;> simp [sentAt, Event.sentAt?, h]

theorem receivedAt_received {d : ChannelId} {side' : Side} {payload : Payload} :
    receivedAt (n := n) c side [.received d side' payload] =
      if d = c ∧ side' = side then [payload] else [] := by
  by_cases h : d = c ∧ side' = side <;> simp [receivedAt, Event.receivedAt?, h]

structure Delivered (events : List (Event n)) (F : Frame n) : Prop where
  /-- While a side is open its queue is what was sent and not yet received. -/
  queued : ∀ c side, F.sys.isOpen c side = true →
    sentAt c side events = receivedAt c side events ++ (F.sys.queue c side).map (·.payload)
  ordered : ∀ c side, receivedAt c side events <+: sentAt c side events
  fresh : ∀ c side, F.sys.channels.next ≤ c →
    sentAt c side events = [] ∧ receivedAt c side events = []

section

variable (h : Delivered past F)
include h

/-- Nothing was sent or received, and an open side was open before with the same queue. -/
theorem Delivered.quiet (htraffic : NoTraffic events)
    (hnext : F.sys.channels.next ≤ F'.sys.channels.next)
    (hopen : ∀ c side, F'.sys.isOpen c side = true → F'.sys.queue c side = F.sys.queue c side ∧
      (F.sys.isOpen c side = true ∨ F.sys.channels.next ≤ c ∧ F.sys.queue c side = [])) :
    Delivered (past ++ events) F' := by
  have hsent c side : sentAt c side (past ++ events) = sentAt c side past := by
    rw [sentAt_append, (htraffic c side).1, append_nil]
  have hreceived c side : receivedAt c side (past ++ events) = receivedAt c side past := by
    rw [receivedAt_append, (htraffic c side).2, append_nil]
  refine ⟨fun c side hside => ?_, fun c side => ?_, fun c side hcell => ?_⟩ <;>
    rw [hsent, hreceived]
  · obtain ⟨hq, hbef⟩ := hopen c side hside
    rw [hq]
    rcases hbef with hbef | ⟨hcell, hempty⟩
    · exact h.queued c side hbef
    · rw [(h.fresh c side hcell).1, (h.fresh c side hcell).2, hempty]
      rfl
  · exact h.ordered c side
  · exact h.fresh c side (hnext.trans hcell)

section

variable {message : KernelMessage} (hcell : c < F.sys.channels.next)
  (hnext : F'.sys.channels.next = F.sys.channels.next) (hopen : F'.sys.isOpen = F.sys.isOpen)
include hcell hnext hopen

theorem Delivered.sent (hq : ∀ d side', F'.sys.queue d side' =
      if d = c ∧ side' = side then F.sys.queue c side ++ [message] else F.sys.queue d side') :
    Delivered (past ++ [.sent c side message.payload]) F' := by
  have hreceived d side' :
      receivedAt d side' (past ++ [.sent c side message.payload]) = receivedAt d side' past := by
    rw [receivedAt_append]
    exact append_nil _
  refine ⟨fun d side' hside => ?_, fun d side' => ?_, fun d side' hd => ?_⟩
  · rw [hopen] at hside
    have hold := h.queued d side' hside
    rw [hreceived, hq, sentAt_append, sentAt_sent, hold]
    by_cases heq : d = c ∧ side' = side
    · obtain ⟨rfl, rfl⟩ := heq
      simp
    · rw [if_neg heq, if_neg fun h => heq ⟨h.1.symm, h.2.symm⟩, append_nil]
  · rw [hreceived, sentAt_append]
    exact (h.ordered d side').trans (prefix_append _ _)
  · rw [hnext] at hd
    have hne : c ≠ d := Nat.ne_of_lt (hcell.trans_le hd)
    rw [hreceived, sentAt_append, sentAt_sent, if_neg fun heq => hne heq.1, append_nil]
    exact h.fresh d side' hd

theorem Delivered.received
    (hclosed : ∀ c side, F.sys.isOpen c side = false → F.sys.queue c side = [])
    {rest : List KernelMessage} (hfront : F.sys.queue c side = message :: rest)
    (hq : ∀ d side', F'.sys.queue d side' =
      if d = c ∧ side' = side then rest else F.sys.queue d side') :
    Delivered (past ++ [.received c side message.payload]) F' := by
  have hside := isOpen_of_mem_queue (m := message) hclosed (by rw [hfront]; exact .head _)
  have hsent d side' :
      sentAt d side' (past ++ [.received c side message.payload]) = sentAt d side' past := by
    rw [sentAt_append]
    exact append_nil _
  have hfirst : sentAt c side past =
      receivedAt c side past ++ [message.payload] ++ rest.map (·.payload) := by
    rw [h.queued c side hside, hfront]
    simp
  refine ⟨fun d side' hd => ?_, fun d side' => ?_, fun d side' hd => ?_⟩
  · rw [hopen] at hd
    rw [hsent, hq, receivedAt_append, receivedAt_received]
    by_cases heq : d = c ∧ side' = side
    · obtain ⟨rfl, rfl⟩ := heq
      rw [if_pos ⟨rfl, rfl⟩, if_pos ⟨rfl, rfl⟩]
      exact hfirst
    · rw [if_neg heq, if_neg fun h => heq ⟨h.1.symm, h.2.symm⟩, append_nil]
      exact h.queued d side' hd
  · rw [hsent, receivedAt_append, receivedAt_received]
    by_cases heq : c = d ∧ side = side'
    · obtain ⟨rfl, rfl⟩ := heq
      rw [if_pos ⟨rfl, rfl⟩, hfirst]
      exact prefix_append _ _
    · rw [if_neg heq, append_nil]
      exact h.ordered d side'
  · rw [hnext] at hd
    have hne : c ≠ d := Nat.ne_of_lt (hcell.trans_le hd)
    rw [hsent, receivedAt_append, receivedAt_received, if_neg fun heq => hne heq.1, append_nil]
    exact h.fresh d side' hd

end

theorem Delivered.move (hwf : Wf F)
    (hclosed : ∀ c side, F.sys.isOpen c side = false → F.sys.queue c side = [])
    (hmove : Moves kinds F events F') : Delivered (past ++ events) F' := by
  cases hmove.queueEffect with
  | same htraffic hnext hq hopen =>
    refine h.quiet htraffic hnext.ge fun c side hside => ?_
    rw [hopen] at hside
    exact ⟨by rw [hq], .inl hside⟩
  | created htraffic hnext hq hopen =>
    refine h.quiet htraffic (by omega) fun c side hside => ?_
    rw [hopen] at hside
    rw [hq]
    by_cases hc : c = F.sys.channels.next
    · have hempty : F.sys.queue c side = [] := by
        simp only [queue, hwf.blank.channels c hc.ge]
        cases side <;> rfl
      rw [if_pos hc]
      exact ⟨hempty.symm, .inr ⟨hc.ge, hempty⟩⟩
    · rw [if_neg hc] at hside ⊢
      exact ⟨rfl, .inl hside⟩
  | sent c side message hevs hcell hside hroom hcycle hnext hq hopen =>
    rw [hevs]
    exact h.sent hcell hnext hopen hq
  | received c side message rest hevs hcell hfront hnext hq hopen =>
    rw [hevs]
    exact h.received hcell hnext hopen hclosed hfront hq
  | closed c side hevs hcell hnext hq hopen =>
    subst hevs
    refine h.quiet (fun _ _ => ⟨rfl, rfl⟩) hnext.ge fun d side' hside => ?_
    rw [hopen] at hside
    rw [hq]
    by_cases heq : d = c ∧ side' = side
    · rw [if_pos heq] at hside
      cases hside
    · rw [if_neg heq] at hside ⊢
      exact ⟨rfl, .inl hside⟩

end

theorem delivered_of_star (h : Star (Moves kinds) (System.init n).frame events F) :
    Delivered events F := by
  have hall := h.invariant (I := fun events F => Delivered events F ∧ Wf F ∧ Owned F)
    ⟨?_, wf_init, owned_init⟩ ?_
  · exact hall.1
  · refine ⟨fun c side hopen => ?_, fun c side => prefix_refl _, fun c side _ => ⟨rfl, rfl⟩⟩
    change (init n).isOpen c side = true at hopen
    rw [isOpen_init] at hopen
    cases hopen
  · rintro past F events F' ⟨hdelivered, hwf, howned⟩ hmove
    exact ⟨hdelivered.move hwf howned.closedEmpty hmove, hwf.move hmove, howned.move hwf hmove⟩

/-! ## References -/

theorem total_frame (s : System n) : s.frame.total = s.held := by
  simp only [Frame.total, frame, coe_nil, add_zero]

/-- Without releases every reference is still somewhere, though perhaps with fewer rights. -/
theorem persists_of_star (h : Star (Moves kinds) F events F') (hkinds : Kind.release ∉ kinds)
    (he : e ∈ F.total) : ∃ e' ∈ F'.total, e'.object = e.object ∧ e'.ref = e.ref := by
  induction h with
  | refl => exact ⟨e, he, rfl, rfl⟩
  | tail _ hmove ih =>
    obtain ⟨e1, he1, hobj1, href1⟩ := ih
    obtain ⟨e2, he2, hobj2, href2⟩ := hmove.totalEffect.persists hkinds he1
    exact ⟨e2, he2, hobj2.trans hobj1, href2.trans href1⟩

/-- What may have become of the references of `s` while handles were closed. -/
structure Closing (s : System n) (events : List (Event n)) (F : Frame n) : Prop where
  slots : ∀ t index generation e, (F.sys.tables t).OccupiedAt index generation e →
    (s.tables t).OccupiedAt index generation e
  queues : ∀ c side, F.sys.queue c side = s.queue c side ∨ F.sys.isOpen c side = false
  closedEmpty : ∀ c side, F.sys.isOpen c side = false → F.sys.queue c side = []
  kept : ∀ e ∈ s.held, e ∈ F.sys.held ∨
    (∃ t handle, .closed t handle ∈ events ∧ (s.tables t).entry handle = .ok e) ∨
    ∃ c side, (∃ m ∈ s.queue c side, e ∈ m.handles) ∧ F.sys.isOpen c side = false

theorem Closing.refl (hclosed : ∀ c side, s.isOpen c side = false → s.queue c side = []) :
    Closing s [] s.frame where
  slots := fun _ _ _ _ hslot => hslot
  queues := fun _ _ => .inl rfl
  closedEmpty := hclosed
  kept := fun _ he => .inl he

theorem occupiedAt_of_vacate {t u : Fin n} {i generation i' generation' : Nat}
    {entry : HandleEntry} (hslot : (s.tables u).OccupiedAt i' generation' entry)
    (h : ((s.withTable u ((s.tables u).vacate i' generation')).tables t).OccupiedAt
      i generation e) : (s.tables t).OccupiedAt i generation e := by
  by_cases hut : u = t
  · subst hut
    rw [tables_withTable_self] at h
    unfold HandleTable.OccupiedAt at h
    by_cases hidx : i = i'
    · subst hidx
      rw [HandleTable.getElem?_vacate_self hslot] at h
      unfold HandleSlot.advanceGeneration at h
      split at h <;> cases h
    · rwa [HandleTable.getElem?_vacate_of_ne hidx] at h
  · rwa [tables_withTable_of_ne _ _ (Ne.symm hut)] at h

theorem Closing.sameCustody (h : Closing s past F) (hsame : SameCustody F F') :
    Closing s (past ++ events) F' where
  slots := by
    rw [hsame.tables]
    exact h.slots
  queues := by
    rw [hsame.queue, hsame.isOpen]
    exact h.queues
  closedEmpty := by
    rw [hsame.queue, hsame.isOpen]
    exact h.closedEmpty
  kept := by
    rw [held_congr hsame.tables hsame.next hsame.queue, hsame.isOpen]
    intro e he
    rcases h.kept e he with hmem | ⟨t, handle, hmem, hent⟩ | hdiscarded
    · exact .inl hmem
    · exact .inr (.inl ⟨t, handle, mem_append_left _ hmem, hent⟩)
    · exact .inr (.inr hdiscarded)

theorem Closing.release (h : Closing s past F) (hmove : Release F events F') :
    Closing s (past ++ events) F' := by
  have hempty := hmove.queueEffect.closed_empty h.closedEmpty
  cases hmove with
  | @close s1 t handle i generation entry hparts hslot =>
    refine ⟨fun u i' generation' e hocc => h.slots u _ _ e (occupiedAt_of_vacate hslot hocc),
      h.queues, hempty, fun e he => ?_⟩
    rcases h.kept e he with hmem | ⟨u, handle', hmem, hent⟩ | hdiscarded
    · have hheld : s1.frame.sys.held = entry ::ₘ _ := s1.held_vacate hslot
      rw [hheld] at hmem
      rcases mem_cons.mp hmem with rfl | hmem
      · refine .inr (.inl ⟨t, handle, mem_append_right _ mem_cons_self, ?_⟩)
        exact HandleTable.entry_ok.mpr ⟨i, generation, hparts, h.slots t _ _ e hslot⟩
      · exact .inl hmem
    · exact .inr (.inl ⟨u, handle', mem_append_left _ hmem, hent⟩)
    · exact .inr (.inr hdiscarded)
  | drop =>
    rw [append_nil]
    exact ⟨h.slots, h.queues, hempty, h.kept⟩
  | @dropChannel s1 entry rest c side hcell hlast hker =>
    rw [append_nil]
    have hstays d side' (hd : s1.isOpen d side' = false) :
        (s1.modifyChannel c (·.close side)).isOpen d side' = false := by
      rw [s1.isOpen_close c d side side', hd, ite_self]
    have hself : (s1.modifyChannel c (·.close side)).isOpen c side = false := by
      rw [s1.isOpen_close c c side side, if_pos ⟨rfl, rfl⟩]
    refine ⟨h.slots, fun d side' => ?_, hempty, fun e he => ?_⟩
    · by_cases heq : d = c ∧ side' = side
      · rw [heq.1, heq.2]
        exact .inr hself
      · rcases h.queues d side' with hq | hclosed
        · refine .inl ?_
          change (s1.modifyChannel c (·.close side)).queue d side' = _
          rw [s1.queue_close c d side side', if_neg heq]
          exact hq
        · exact .inr (hstays d side' hclosed)
    · rcases h.kept e he with hmem | hclosed | ⟨d, side', hmem, hclosed⟩
      · change e ∈ s1.held at hmem
        rw [← s1.held_close side hcell] at hmem
        rcases mem_add.mp hmem with hstill | hqueued
        · exact .inl hstill
        obtain ⟨m, hm, hem⟩ := mem_flatMap.mp (mem_coe.mp hqueued)
        refine .inr (.inr ⟨c, side, ⟨m, ?_, hem⟩, hself⟩)
        rcases h.queues c side with hq | hside
        · rwa [← hq]
        · change m ∈ s1.queue c side at hm
          cases h.closedEmpty c side hside ▸ hm
      · exact .inr (.inl hclosed)
      · exact .inr (.inr ⟨d, side', hmem, hstays d side' hclosed⟩)

theorem closing_of_star (h : Star (Moves dropping) s.frame events F)
    (hclosed : ∀ c side, s.isOpen c side = false → s.queue c side = []) :
    Closing s events F := by
  refine h.invariant (.refl hclosed) ?_
  intro past F events F' ih hmove
  cases hmove with
  | transfer hkind => simp [dropping] at hkind
  | release _ hmove => exact ih.release hmove
  | service _ hmove => exact ih.sameCustody hmove.sameCustody
  | wait hkind => simp [dropping] at hkind

/-- A reference that a call ended was that of the handle it closed, or it was discarded
with the queue of an endpoint that the call closed. -/
def Record.Ended (r : Record n) (e : HandleEntry) : Prop :=
  ∃ t handle, r.op = .handle (.handleClose t handle) ∧ ((r.before.tables t).entry handle = .ok e ∨
      ∃ c side, (∃ m ∈ r.before.queue c side, e ∈ m.handles) ∧
        r.before.isOpen c side = true ∧ r.after.isOpen c side = false)

theorem Op.release_mem_kinds {op : Op n} (h : Kind.release ∈ op.kinds) :
    op.kinds = dropping ∧ ∃ t handle, op = .handle (.handleClose t handle) := by
  unfold Op.kinds at h ⊢
  split at h
  · exact ⟨rfl, _, _, rfl⟩
  · simp [waiting] at h
  · simp [keeping] at h

theorem Record.events_handleClose {r : Record n} {t u : Fin n} {handle handle' : Handle}
    (hop : r.op = .handle (.handleClose t handle)) (h : .closed u handle' ∈ r.events) :
    u = t ∧ handle' = handle := by
  unfold Record.events at h
  split at h
  · cases h
  · rw [hop] at h
    simpa [HandleOp.events] using h

/-- Every reference survives a call, except those that it ended. -/
theorem Step.persists {r : Record n} (hwf : Wf s.frame) (howned : Owned s.frame) (h : Step s [r] s')
    (he : e ∈ r.before.held) :
    (∃ e' ∈ r.after.held, e'.object = e.object ∧ e'.ref = e.ref) ∨ r.Ended e := by
  obtain ⟨hstar, -⟩ := h.simulated hwf
  obtain ⟨last, heq, rfl, rfl⟩ := h.eq_record
  cases heq
  by_cases hrel : Kind.release ∈ r.op.kinds
  · obtain ⟨hkinds, t, handle, hop⟩ := Op.release_mem_kinds hrel
    rw [hkinds] at hstar
    rcases (closing_of_star hstar howned.closedEmpty).kept e he with
      hmem | ⟨u, handle', hmem, hent⟩ | ⟨c, side, ⟨m, hm, hem⟩, hclosed⟩
    · exact .inl ⟨e, hmem, rfl, rfl⟩
    · obtain ⟨rfl, rfl⟩ := Record.events_handleClose hop hmem
      exact .inr ⟨u, handle', hop, .inl hent⟩
    · have hopen := isOpen_of_mem_queue howned.closedEmpty hm
      exact .inr ⟨t, handle, hop, .inr ⟨c, side, ⟨m, hm, hem⟩, hopen, hclosed⟩⟩
  · rw [← total_frame] at he
    obtain ⟨e', he', hsame⟩ := persists_of_star hstar hrel he
    rw [total_frame] at he'
    exact .inl ⟨e', he', hsame⟩

/-- What was read at a side is a first part of what was written for it.  While the side is
open the rest is its queue; a closed side has none.  Every reference is in one place, and
a call ends none but the one it closes and those discarded with a queue.  Cached messages
are empty. -/
theorem run_messages_delivered {trace : List (Record n)} (h : Run trace s) :
    (∀ c side, receivedAt c side (shown trace) <+: sentAt c side (shown trace)) ∧
    (∀ c side, s.isOpen c side = true → sentAt c side (shown trace) =
      receivedAt c side (shown trace) ++ (s.queue c side).map (·.payload)) ∧
    (∀ c side, s.isOpen c side = false → s.queue c side = []) ∧
    (∀ c side, (s.queue c side).length ≤ channelQueueCapacity) ∧
    (s.held.map (·.ref)).Nodup ∧
    (∀ r ∈ trace, ∀ e ∈ r.before.held,
      (∃ e' ∈ r.after.held, e'.object = e.object ∧ e'.ref = e.ref) ∨ r.Ended e) ∧
    (∀ c side, ∀ m ∈ s.freeMessages c side, m.bytes = [] ∧ m.handles = []) := by
  have hdelivered := delivered_of_star h.simulated
  have howned := owned_of_star h.simulated
  refine ⟨hdelivered.ordered, hdelivered.queued, howned.closedEmpty, h.wf.queues, ?_, ?_,
    h.wf.cached⟩
  · have hrefs := h.wf.refs
    rwa [total_frame] at hrefs
  · intro r hr e he
    obtain ⟨past, hpast, hstep⟩ := h.record hr
    exact hstep.persists hpast.wf (owned_of_star hpast.simulated) he

/-- A message is written, and another with a reference; the first is read. -/
def readFirst : List (Call 2) :=
  [⟨.create (.channelCreateBetween 0 1 zero_ne_one_two), none⟩,
    ⟨.create (.randomSourceCreate 0), none⟩,
    ⟨.channel (.channelWrite 0 (handleFromParts 0 1) [1, 2] []), none⟩,
    ⟨.channel (.channelWriteWithHandleOperations 0 (handleFromParts 0 1) [3]
      [⟨handleFromParts 1 1, .duplicate, Rights.READ⟩]), none⟩,
    ⟨.channel (.channelRead 1 (handleFromParts 0 1) 8 8), none⟩]

theorem run_messages_delivered_readFirst :
    receivedAt 0 .right (shown ((System.init 2).execAll readFirst).1) = [⟨[1, 2], []⟩] ∧
      sentAt 0 .right (shown ((System.init 2).execAll readFirst).1) =
        receivedAt 0 .right (shown ((System.init 2).execAll readFirst).1) ++
          (((System.init 2).execAll readFirst).2.queue 0 .right).map (·.payload) := by
  have hvalid : (init 2).validAll readFirst = true := by decide +kernel
  have hopen : ((init 2).execAll readFirst).2.isOpen 0 .right = true := by
    decide +kernel
  exact ⟨by decide +kernel, (run_messages_delivered (run_execAll hvalid)).2.1 0 .right hopen⟩

/-- A message is written and its reader closes before reading it. -/
def readerCloses : List (Call 1) :=
  [⟨.create (.channelCreate 0), none⟩,
    ⟨.channel (.channelWrite 0 (handleFromParts 0 1) [1] []), none⟩,
    ⟨.handle (.handleClose 0 (handleFromParts 1 1)), none⟩]

/-- What was written and not read need not be in the queue: closing discards it. -/
theorem written_not_queued_readerCloses :
    ¬∀ (trace : List (Record 1)) (s : System 1), Run trace s → ∀ c side,
      sentAt c side (shown trace) =
        receivedAt c side (shown trace) ++ (s.queue c side).map (·.payload) := by
  intro hall
  have hvalid : (init 1).validAll readerCloses = true := by decide +kernel
  have hsame := hall _ _ (run_execAll hvalid) 0 .right
  revert hsame
  decide +kernel

end Ginkgo.Ipc
