import Ginkgo.Ipc.Simulation.Handles

/-!
# Writing to and reading from channels
-/

namespace Ginkgo.Ipc

open Ginkgo.Lib Ginkgo.Sysapi List Ipc.System HandleTable

variable {n : Nat} {s0 s s1 : System n} {t : Fin n} {c : ChannelId} {side : Side}
  {E : Fault → System n → Prop} {handle : Handle}

/-- What the dispositions of a write stand for in the table they are validated against. -/
def grants (table : HandleTable) (dispositions : List HandleOperationDisposition) :
    List (Object × Rights) :=
  dispositions.filterMap fun d =>
    (table.find d.handle).map fun entry => (entry.object, d.rights)

theorem withTable_withTable (s : System n) (t : Fin n) (table table' : HandleTable) :
    (s.withTable t table).withTable t table' = s.withTable t table' := by
  simp [withTable]

theorem withTable_self (s : System n) (t : Fin n) : s.withTable t (s.tables t) = s := by
  simp [withTable]

theorem wp_takeAllPrepared {hand : List HandleEntry} {low high : Nat}
    {ds : List HandleOperationDisposition} {ps : List PreparedHandle}
    (hprep : Prepared (s.tables t) low ds ps high)
    (hfresh : ∀ e ∈ Frame.total ⟨s, hand, [], []⟩, e.ref < low) (hnext : high ≤ s.nextRef) :
    wp (takeAllPrepared t ps) (fun entries s' =>
        Star (Moves keeping) ⟨s, hand, [], []⟩ [] ⟨s', hand ++ entries, [], []⟩ ∧
        (∃ table, s' = s.withTable t table) ∧
        entries.map (·.grant) = grants (s.tables t) ds) E s := by
  induction ps generalizing s low ds hand with
  | nil =>
    cases hprep
    apply wp_pure
    rw [append_nil]
    exact ⟨.refl _, ⟨s.tables t, (withTable_self s t).symm⟩, rfl⟩
  | cons p ps ih =>
    cases hprep with
    | @cons _ middle _ d _ ds _ hfirst hdist hle href hrest =>
    unfold takeAllPrepared
    apply wp_bind
    apply wp_takePrepared hfirst
    intro e s1 htook
    have htake := htook.star hfresh href (hrest.low_le_high.trans hnext)
    have hrest1 := htook.prepared hdist hrest
    have hfresh1 := htook.fresh hfresh href hle
    have hgrant := htook.grant
    have hfind := htook.find_other hdist hrest
    obtain ⟨table, rfl⟩ := htook.frame
    apply wp_bind
    refine wp_mono (ih hrest1 hfresh1 hnext) ?_ fun _ _ hfail => hfail
    rintro entries s2 ⟨hstar, ⟨table', rfl⟩, hgrants⟩
    apply wp_pure
    refine ⟨?_, ⟨table', withTable_withTable s t table table'⟩, ?_⟩
    · have hboth := htake.trans hstar
      rwa [append_assoc] at hboth
    have hcongr : grants ((s.withTable t table).tables t) ds = grants (s.tables t) ds := by
      apply filterMap_congr
      intro d' hd'
      rw [hfind d' hd']
    rw [map_cons, hgrants, hcongr]
    simp only [grants, filterMap_cons, hgrant]

theorem wp_preparedObject {d : HandleOperationDisposition} {p : PreparedHandle}
    {Q : Object → System n → Prop} (h : Prepares (s.tables t) d p)
    (hQ : ∀ e, (s.tables t).find d.handle = some e → Q e.object s) :
    wp (preparedObject t p) Q E s := by
  cases h with
  | @move index generation entry hparts hslot =>
    have hent : (s.tables t).slots[index]?.bind (·.entry) = some entry := by
      rw [show (s.tables t).slots[index]? = _ from hslot]
      rfl
    have hfind := find_eq_some (entry_ok.mpr ⟨_, _, hparts, hslot⟩)
    apply wp_get
    apply wp_bind
    apply wp_expect hent
    exact wp_pure (hQ entry hfind)
  | @duplicate index generation entry ref hparts hslot =>
    have hfind := find_eq_some (entry_ok.mpr ⟨_, _, hparts, hslot⟩)
    exact wp_pure (hQ entry hfind)

theorem Blank.outgoing (h : Blank s) (hc : s.channels.next ≤ c) :
    (s.channels.cell c).outgoing = [] := by
  rw [h.channels c hc]
  rfl

/-- The searches of a write that passed: no object it sends reaches the destination. -/
theorem wp_rejectCycles (h : Reaches keeping s0 s) (hblank : Blank s) {low high : Nat}
    {ds : List HandleOperationDisposition} {ps : List PreparedHandle}
    {visited : List ChannelId} {Q : Unit → System n → Prop}
    (hprep : Prepared (s.tables t) low ds ps high)
    (hex : Graph.Explored (fun d => (s.channels.cell d).outgoing) c visited [])
    (hQ : ∀ s', SameObjects s s' → Reaches keeping s0 s' →
      (∀ d ∈ ds, ∀ e, (s.tables t).find d.handle = some e → ∀ st,
        e.channel? = some st → ¬Relation.ReflTransGen s.Carries st c) → Q () s') :
    wp (rejectCycles t c ps visited) Q (Fails keeping s0) s := by
  induction ps generalizing s low ds visited with
  | nil =>
    cases hprep
    exact wp_pure (hQ s (.refl s) h (by simp))
  | cons p ps ih =>
    cases hprep with
    | @cons _ middle _ d _ ds _ hfirst hdist hle href hrest =>
    unfold rejectCycles
    apply wp_bind
    apply wp_preparedObject hfirst
    intro e hfind
    apply wp_get
    apply wp_bind
    apply wp_onMemory h (.inl service_mem) (P := fun r => r.1 = false →
      Graph.Explored (fun d => (s.channels.cell d).outgoing) c r.2 [] ∧
      ∀ st side, e.object.kernel = .channel st side → st ∈ r.2)
    · apply wp_objectReachesChannel (fun _ hc => hblank.outgoing hc) hex
      · intro _ _ hfalse
        cases hfalse
      · intro visited' _ hdone _ hmem _
        exact ⟨hdone, hmem⟩
      · intro err _
        exact ⟨err, rfl⟩
    · rintro ⟨reaches, visited'⟩ s1 hsearch hsame h1
      apply wp_guard h1
      intro hrch
      obtain ⟨hdone, hmem⟩ := hsearch (Bool.eq_false_of_not_eq_true hrch)
      have hrest1 : Prepared (s1.tables t) middle ds ps high := by
        rw [hsame.tables]
        exact hrest
      apply ih h1 (hsame.blank hblank) hrest1
      · rw [hsame.channels]
        exact hdone
      intro s2 hsame2 h2 hothers
      refine hQ s2 (hsame.trans hsame2) h2 ?_
      intro d' hd' e' hfind' st hst
      rcases mem_cons.mp hd' with rfl | hd'
      · rw [hfind] at hfind'
        cases hfind'
        obtain ⟨side, hker⟩ := channel?_eq_some.mp hst
        exact hdone.not_reaches (hmem st side hker)
      · have hcarries : s1.Carries = s.Carries := by
          simp only [System.Carries, hsame.channels]
        rw [← hcarries]
        rw [← hsame.tables] at hfind'
        exact hothers d' hd' e' hfind' st hst

/-! ## Writing -/

/-- The calls on a channel begin with the endpoint that the handle names. -/
theorem wp_channelEndpoint {α : Type} (hwf : Wf s.frame) {required : Rights}
    {k : ChannelId × Side → IpcM n α} {Q : α → System n → Prop}
    (hQ : ∀ e c side, (s.tables t).entry handle = .ok e → e.object.kernel = .channel c side →
      c < s.channels.next → wp (k (c, side)) Q (Fails keeping s) s) :
    wp (do
      let object ← objectWithRights t handle required
      let endpoint ← liftExcept (channelEndpoint object)
      k endpoint) Q (Fails keeping s) s := by
  apply wp_objectWithRights (.refl s)
  intro e hent
  apply wp_liftExcept_bind (.refl s)
  intro endpoint hendpoint
  unfold channelEndpoint at hendpoint
  split at hendpoint
  · rename_i c side hker
    cases hendpoint
    have hcell := hwf.allocated_entry hent
    rw [hker] at hcell
    exact hQ e c side hent hker hcell
  · cases hendpoint

theorem findChannel_eq_some {table : HandleTable} {e : HandleEntry} (h : table.entry handle = .ok e)
    (hker : e.object.kernel = .channel c side) : table.findChannel handle = some (c, side) := by
  rw [findChannel, find_eq_some h]
  simp only [Option.bind_some, hker]

theorem star_send (message : KernelMessage)
    (h : Star (Moves keeping) s0.frame [] ⟨s, message.handles, [], []⟩)
    (hcell : c < s.channels.next) (hopen : s.isOpen c side = true)
    (hroom : (s.queue c side).length < channelQueueCapacity)
    (hcycle : ∀ e ∈ message.handles, ∀ d, e.channel? = some d →
      ¬Relation.ReflTransGen s.Carries d c) :
    Star (Moves keeping) s0.frame [.sent c side message.payload] ((s.modifyChannel c fun st =>
        st.withQueue side (st.queues.get side ++ [message])).notifyChannelWaiters c
          side).frame := by
  have hsend := h.tail (.transfer transfer_mem (.send c side hcell hopen hroom hcycle))
  exact hsend.quiet (.service service_mem .notify)

theorem SameObjects.queue (h : SameObjects s s1) : s1.queue = s.queue := by
  funext d side'
  simp only [System.queue, h.channels]

theorem SameObjects.isOpen (h : SameObjects s s1) : s1.isOpen = s.isOpen := by
  funext d side'
  simp only [System.isOpen, h.channels]

theorem Cached.reused (h : Cached s) :
    ((s.freeMessages c side).getLast?.getD .empty).handles = [] := by
  cases hlast : (s.freeMessages c side).getLast? with
  | none => rfl
  | some message => exact (h c side message (mem_of_getLast? hlast)).2

section

variable (hwf : Wf s.frame) (t : Fin n) (channel : Handle) (bytes : List UInt8)
include hwf

theorem channelWriteBytes_simulated :
    Simulated keeping (channelWriteBytes t channel bytes)
      (fun _ _ => writeEvents (s.tables t) channel bytes []) s := by
  unfold Simulated channelWriteBytes
  apply wp_guard (.refl s)
  intro _
  apply wp_channelEndpoint hwf
  intro e c side hent hker hcell
  apply wp_get
  apply wp_guard (.refl s)
  intro hopen
  apply wp_guard (.refl s)
  intro hfull
  simp only [Bool.not_eq_true', Bool.not_eq_false] at hopen
  have hfree : ∀ m ∈ (s.freeMessages c side.peer).dropLast, m.bytes = [] ∧ m.handles = [] :=
    fun m hm => hwf.cached c side.peer m (mem_of_mem_dropLast hm)
  have hroom : (s.queue c side.peer).length < channelQueueCapacity :=
    Nat.lt_of_le_of_ne (hwf.queues c side.peer) hfull
  have hhandles : ((s.freeMessages c side.peer).getLast?.getD .empty).handles = [] :=
    Cached.reused hwf.cached
  have hevs : writeEvents (n := n) (s.tables t) channel bytes [] =
      [.sent c side.peer ⟨bytes, []⟩] := by
    rw [writeEvents, findChannel_eq_some hent hker]
    rfl
  rw [hevs]
  have h1 : Reaches keeping s (s.modifyChannel c (·.withFreeMessages side.peer
      (s.freeMessages c side.peer).dropLast)) :=
    Star.quiet (Reaches.refl s) (.service service_mem (.cache c side.peer hcell hfree))
  apply wp_set_bind
  have hsend : ∀ s2, SameObjects (s.modifyChannel c (·.withFreeMessages side.peer
      (s.freeMessages c side.peer).dropLast)) s2 → Reaches keeping s s2 → ∀ message,
      message.bytes = bytes → message.handles = [] →
      Star (Moves keeping) s.frame [.sent c side.peer ⟨bytes, []⟩]
        ((s2.modifyChannel c fun st => st.withQueue side.peer
          (st.queues.get side.peer ++ [message])).notifyChannelWaiters c side.peer).frame := by
    intro s2 hsame h2 message hbytes hnone
    have hcell2 : c < s2.channels.next := by
      rw [hsame.channels]
      exact hcell
    have hopen2 : s2.isOpen c side.peer = true := by
      rw [hsame.isOpen]
      exact (s.cell_modifyChannel_congr (·.isOpen.get side.peer) c c
        (f := (·.withFreeMessages _ _)) fun _ => rfl).trans hopen
    have hroom2 : (s2.queue c side.peer).length < channelQueueCapacity := by
      rw [hsame.queue]
      exact (congrArg length (s.cell_modifyChannel_congr (·.queues.get side.peer) c c
        (f := (·.withFreeMessages _ _)) fun _ => rfl)).trans_lt hroom
    have hpayl : message.payload = ⟨bytes, []⟩ := by
      rw [KernelMessage.payload, hbytes, hnone]
      rfl
    rw [← hpayl]
    apply star_send message _ hcell2 hopen2 hroom2
    · rw [hnone]
      simp
    · rw [hnone]
      exact h2
  apply wp_ite
  · intro _
    apply wp_tryAlloc h1 service_mem
    intro s2 hsame h2
    exact wp_modify (hsend s2 hsame h2 _ rfl hhandles)
  · intro _
    exact wp_modify (hsend _ (.refl _) h1 _ rfl hhandles)

theorem channelWriteWithHandleOperationsImpl_simulated (ds : List HandleOperationDisposition) :
    Simulated keeping (channelWriteWithHandleOperationsImpl t channel bytes ds)
      (fun _ _ => writeEvents (s.tables t) channel bytes
        (ds.map fun d => ⟨d.handle, d.rights⟩)) s := by
  unfold Simulated channelWriteWithHandleOperationsImpl
  apply wp_guard (.refl s)
  intro _
  apply wp_channelEndpoint hwf
  intro e c side hent hker hcell
  apply wp_tryVecWithCapacity (.refl s) service_mem
  intro s1 hsame1 h1
  apply wp_bind
  apply wp_prepareHandles h1
  intro ps next hprep _ h2
  apply wp_tryVecWithCapacity h2 service_mem
  intro s3 hsame3 h3
  apply wp_tryVecWithCapacity h3 service_mem
  intro s4 hsame4 h4
  have hspend : SameObjects s1 (s1.spend next) := .withNextRef s1 hprep.low_le_high
  have hsame : SameObjects s s4 := ((hsame1.trans hspend).trans hsame3).trans hsame4
  rw [hsame1.tables, ← hsame.tables] at hprep
  apply wp_get
  apply wp_guard h4
  intro hopen
  apply wp_guard h4
  intro hfull
  simp only [Bool.not_eq_true', Bool.not_eq_false] at hopen
  apply wp_bind
  apply wp_rejectCycles h4 (hsame.blank hwf.blank) hprep Graph.explored_nil
  intro s5 hsame5 h5 hcycles
  have hsame' := hsame.trans hsame5
  have hfresh : ∀ e ∈ Frame.total ⟨s5, [], [], []⟩, e.ref < s1.nextRef := by
    intro e he
    have he' : e ∈ s.frame.total := hsame'.total ▸ he
    exact (hwf.refBelow e he').trans_le hsame1.nextRef
  have hprep5 : Prepared (s5.tables t) s1.nextRef ds ps next := by
    rw [hsame5.tables]
    exact hprep
  have hnext : next ≤ s5.nextRef := (hsame3.nextRef.trans hsame4.nextRef).trans hsame5.nextRef
  apply wp_bind
  refine wp_mono (wp_takeAllPrepared hprep5 hfresh hnext) ?_ fun _ _ hfail => hfail
  rintro entries s6 ⟨hstar, ⟨table, rfl⟩, hgrants⟩
  have hents : ∀ e' ∈ entries, ∀ d, e'.channel? = some d →
    ¬Relation.ReflTransGen s4.Carries d c := by
    intro e' he' d hd
    have hmem : e'.grant ∈ grants (s5.tables t) ds := hgrants ▸ mem_map_of_mem he'
    obtain ⟨disposition, hdisposition, hfind⟩ := mem_filterMap.mp hmem
    obtain ⟨source, hsource, hgrant⟩ := Option.map_eq_some_iff.mp hfind
    have hobj : source.object = e'.object := congrArg Prod.fst hgrant
    rw [hsame5.tables] at hsource
    apply hcycles disposition hdisposition source hsource d
    rw [HandleEntry.channel?, hobj]
    exact hd
  have hevs : writeEvents (n := n) (s.tables t) channel bytes
    (ds.map fun d => ⟨d.handle, d.rights⟩) =
      [.sent c side.peer (KernelMessage.payload ⟨bytes, bytes.length, entries⟩)] := by
    rw [writeEvents, findChannel_eq_some hent hker, KernelMessage.payload, hgrants, hsame'.tables]
    simp only [grants, filterMap_map]
    rfl
  rw [hevs]
  apply wp_modify
  apply star_send ⟨bytes, bytes.length, entries⟩
  · exact Star.trans h5 hstar
  · change c < s5.channels.next
    rw [hsame'.channels]
    exact hcell
  · change s5.isOpen c side.peer = true
    rw [hsame5.isOpen]
    exact hopen
  · change (s5.queue c side.peer).length < channelQueueCapacity
    rw [hsame'.queue]
    refine Nat.lt_of_le_of_ne (hwf.queues c side.peer) ?_
    rw [← hsame.queue]
    exact hfull
  · change ∀ e' ∈ entries, ∀ d, e'.channel? = some d →
      ¬Relation.ReflTransGen (System.Carries s5) d c
    have hcarries : System.Carries s5 = s4.Carries := by
      simp only [System.Carries, hsame5.channels]
    rw [hcarries]
    exact hents

theorem channelWriteWithHandleOperations_simulated (ds : List HandleOperationDisposition) :
    Simulated keeping (channelWriteWithHandleOperations t channel bytes ds)
      (fun _ _ => writeEvents (s.tables t) channel bytes
        (ds.map fun d => ⟨d.handle, d.rights⟩)) s := by
  apply wp_ite
  · intro hnil
    subst hnil
    exact channelWriteBytes_simulated hwf t channel bytes
  · intro _
    exact channelWriteWithHandleOperationsImpl_simulated hwf t channel bytes ds

theorem channelWriteWithDispositions_simulated (ds : List HandleDisposition) :
    Simulated keeping (channelWriteWithDispositions t channel bytes ds)
      (fun _ _ => writeEvents (s.tables t) channel bytes ds) s := by
  unfold Simulated channelWriteWithDispositions
  apply wp_guard (.refl s)
  intro _
  apply wp_ite
  · intro hnil
    subst hnil
    exact channelWriteBytes_simulated hwf t channel bytes
  · intro _
    apply wp_tryVecWithCapacity (.refl s) service_mem
    intro s1 hsame h1
    have hwrite := channelWriteWithHandleOperations_simulated (hwf.star h1) t channel bytes
      (ds.map fun d => ⟨d.handle, .move, d.rights⟩)
    have hevs : writeEvents (n := n) (s1.tables t) channel bytes
        ((ds.map fun d => (⟨d.handle, .move, d.rights⟩ : HandleOperationDisposition)).map
          fun d => ⟨d.handle, d.rights⟩) = writeEvents (s.tables t) channel bytes ds := by
      rw [map_map, hsame.tables]
      congr 1
      exact map_id ds
    have hafter := hwrite.after h1
    simp only [frame, hevs] at hafter
    exact hafter

end

theorem handleRights_ok {table : HandleTable} {rights : Rights}
    (h : table.handleRights handle = .ok rights) : table.keep handle = some ⟨handle, rights⟩ := by
  cases hent : table.entry handle with
  | error e =>
    rw [handleRights, hent] at h
    cases h
  | ok e =>
    rw [handleRights, hent] at h
    cases h
    rw [keep, find_eq_some hent]
    rfl

theorem wp_currentDispositions (h : Reaches keeping s0 s) {handles : List Handle}
    {Q : List HandleDisposition → System n → Prop}
    (hQ : Q (handles.filterMap (s.tables t).keep) s) :
    wp (currentDispositions t handles) Q (Fails keeping s0) s := by
  induction handles generalizing Q with
  | nil => exact wp_pure hQ
  | cons handle rest ih =>
    unfold currentDispositions
    apply wp_get
    apply wp_liftExcept_bind h
    intro rights hrights
    apply wp_bind
    apply ih
    apply wp_pure
    rwa [filterMap_cons_some (handleRights_ok hrights)] at hQ

theorem channelWrite_simulated (hwf : Wf s.frame) (t : Fin n) (channel : Handle)
    (bytes : List UInt8) (handles : List Handle) :
    Simulated keeping (channelWrite t channel bytes handles)
      (fun _ _ => writeEvents (s.tables t) channel bytes
        (handles.filterMap (s.tables t).keep)) s := by
  unfold Simulated channelWrite
  apply wp_guard (.refl s)
  intro _
  apply wp_ite
  · intro hnil
    subst hnil
    exact channelWriteBytes_simulated hwf t channel bytes
  · intro _
    apply wp_tryVecWithCapacity (.refl s) service_mem
    intro s1 hsame h1
    apply wp_bind
    apply wp_currentDispositions h1
    have hwrite := (channelWriteWithDispositions_simulated (hwf.star h1) t channel bytes
      (handles.filterMap (s1.tables t).keep)).after h1
    simp only [frame, hsame.tables] at hwrite ⊢
    exact hwrite

/-- What the reader finds behind the handles it got. -/
def received (table : HandleTable) (handles : List Handle) : List (Object × Rights) :=
  handles.filterMap fun handle => (table.find handle).map (·.grant)

theorem wp_insertAllReserved (dirty : List WaitFacet) {entries : List HandleEntry}
    {slots : List Nat} (hbnd : (s.tables t).Bounded) (hlen : slots.length = entries.length)
    (hopen : Open (s.tables t) slots) :
    wp (insertAllReserved t entries slots) (fun handles s' =>
        Star (Moves keeping) ⟨s, entries, [], dirty⟩ (handles.map (.issued t)) ⟨s', [], [], dirty⟩ ∧
        (∃ table, s' = s.withTable t table) ∧
        received (s'.tables t) handles = entries.map (·.grant) ∧
        ∀ handle e, (s.tables t).entry handle = .ok e → (s'.tables t).entry handle = .ok e)
      E s := by
  induction entries generalizing s slots with
  | nil =>
    cases slots with
    | nil =>
      apply wp_pure
      exact ⟨.refl _, ⟨s.tables t, (withTable_self s t).symm⟩, rfl, fun _ _ h => h⟩
    | cons slot slots => simp at hlen
  | cons entry entries ih =>
    cases slots with
    | nil => simp at hlen
    | cons slot slots =>
      obtain ⟨generation, hvac⟩ := hopen.vacant slot mem_cons_self
      have hinst : Star (Moves keeping) ⟨s, entry :: entries, [], dirty⟩
          [.issued t (handleFromParts slot generation)]
          ⟨s.withTable t ((s.tables t).fill slot generation entry), entries, [], dirty⟩ :=
        .single (.transfer transfer_mem (.install t hvac))
      have htab : (s.withTable t ((s.tables t).fill slot generation entry)).tables t =
          (s.tables t).fill slot generation entry := tables_withTable_self _ _ _
      unfold insertAllReserved
      apply wp_bind
      refine wp_insertReserved hvac ?_
      apply wp_bind
      refine wp_mono (ih ?_ (Nat.succ.inj hlen) ?_) ?_ fun _ _ hfail => hfail
      · rw [htab]
        exact hbnd.step (.fill hvac)
      · rw [htab]
        exact hopen.fill
      · rintro handles s' ⟨hstar, ⟨table, rfl⟩, hreceived, hkept⟩
        rw [htab] at hkept
        have hnew := hkept _ _ (hbnd.entry_fill hvac)
        apply wp_pure
        refine ⟨hinst.trans hstar, ⟨table, withTable_withTable s t _ table⟩, ?_, ?_⟩
        · rw [map_cons, ← hreceived]
          simp only [received, filterMap_cons, find_eq_some hnew, Option.map_some]
        · intro handle e hent
          exact hkept handle e (entry_fill_of_ok hvac hent)

theorem channelRead_simulated (hwf : Wf s.frame) (t : Fin n) (channel : Handle)
    (bytesLen handlesLen : Nat) :
    Simulated keeping (channelRead t channel bytesLen handlesLen)
      (fun r s' => readEvents t s s' channel r.2.1 r.2.2) s := by
  apply wp_channelEndpoint hwf
  intro e c side hent hker hcell
  apply wp_get
  simp only
  cases hq : (s.channels.cell c).queues.get side with
  | nil => exact wp_ite (fun _ => wp_fail (.refl s)) fun _ => wp_fail (.refl s)
  | cons message queue =>
    apply wp_guard (.refl s)
    intro _
    apply wp_bind
    apply wp_reserveSlots (.refl s) transfer_mem service_mem
    intro slots table s1 hsame hrsv h1
    have hfront : (s1.withTable t table).queue c side = message :: queue := by
      rw [queue_withTable, hsame.queue]
      exact hq
    have hcell1 : c < (s1.withTable t table).channels.next := by
      change c < s1.channels.next
      rw [hsame.channels]
      exact hcell
    have hreceive := h1.tail (.transfer transfer_mem (.receive c side hcell1 hfront))
    have htab : ((s1.withTable t table).modifyChannel c (·.withQueue side queue)).tables t =
        table := tables_withTable_self _ _ _
    have hbnd := (hwf.star hreceive).tables t
    have hopen : Open (((s1.withTable t table).modifyChannel c
        (·.withQueue side queue)).tables t) slots := by
      rw [htab]
      exact ⟨hrsv.nodup, hrsv.vacant⟩
    apply wp_modify_bind
    apply wp_bind
    refine wp_mono (wp_insertAllReserved [.channel c side.peer] hbnd hrsv.length hopen) ?_
      fun _ _ hfail => hfail
    rintro handles s2 ⟨hinst, hframe, hreceived, -⟩
    have hstar := hreceive.trans hinst
    have hfinish : ∀ s3, s3.tables = s2.tables → Star (Moves keeping) s.frame
          (.received c side message.payload :: handles.map (.issued t))
          ⟨s3, [], [], [.channel c side.peer]⟩ → Star (Moves keeping) s.frame
          (readEvents t s (s3.notifyChannelWaiters c side.peer) channel message.bytes handles)
          (s3.notifyChannelWaiters c side.peer).frame := by
      intro s3 htabs h3
      have hevs : readEvents t s (s3.notifyChannelWaiters c side.peer) channel
          message.bytes handles = .received c side message.payload :: handles.map (.issued t) := by
        rw [readEvents, findChannel_eq_some hent hker, KernelMessage.payload, ← hreceived, ← htabs]
        simp only [notifyChannelWaiters, tables_notifyFacet]
        rfl
      rw [hevs]
      exact h3.quiet (.service service_mem .notify)
    apply wp_ite
    · intro hnone
      have hcell2 : c < s2.channels.next := by
        obtain ⟨table', rfl⟩ := hframe
        exact hcell1
      have hcached : ∀ m ∈ s2.freeMessages c side ++ [{ message with bytes := [] }],
          m.bytes = [] ∧ m.handles = [] := by
        intro m hm
        rcases mem_append.mp hm with hm | hm
        · exact (hwf.star hstar).cached c side m hm
        · rw [mem_singleton] at hm
          subst hm
          exact ⟨rfl, hnone⟩
      have hcache := hstar.quiet (.service service_mem (.cache c side hcell2 hcached))
      apply wp_modify_bind
      apply wp_modify_bind
      exact wp_pure (hfinish _ rfl hcache)
    · intro _
      apply wp_modify_bind
      exact wp_pure (hfinish _ rfl hstar)

end Ginkgo.Ipc
