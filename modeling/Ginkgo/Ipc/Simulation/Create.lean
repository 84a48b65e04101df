import Ginkgo.Ipc.Simulation

/-!
# Creating objects

Every constructor ends in the creation of one object, of the two ends of a window, or of
the two ends of a channel.
-/

namespace Ginkgo.Ipc

open Ginkgo.Lib Ginkgo.Sysapi Ipc.System HandleTable

variable {n : Nat} {s0 s : System n} {events : List (Event n)} {e : HandleEntry}

theorem creationEvents_eq {t : Fin n} {handle : Handle} (h : (s.tables t).entry handle = .ok e) :
    creationEvents t s handle = [.created t e.object e.rights, .issued t handle] := by
  rw [creationEvents, find_eq_some h]

/-- The state after one object was created in a vacant slot. -/
def System.created (s : System n) (t : Fin n) (index generation : Nat) (kernel : KernelObject)
    (rights : Rights) : System n :=
  { s with nextObject := s.nextObject + 1, nextRef := s.nextRef + 1 }.withTable t
    ((s.tables t).fill index generation ⟨⟨s.nextObject, kernel⟩, rights, s.nextRef⟩)

section Single

variable {t : Fin n} {index generation : Nat} (kernel : KernelObject) (rights : Rights)

theorem entry_created (hbnd : (s.tables t).Bounded)
    (hvac : (s.tables t).VacantAt index generation) :
    ((s.created t index generation kernel rights).tables t).entry
        (handleFromParts index generation) = .ok ⟨⟨s.nextObject, kernel⟩, rights, s.nextRef⟩ := by
  rw [created, tables_withTable_self]
  exact hbnd.entry_fill hvac

variable {kernel rights}

theorem star_created (h : Star (Moves keeping) s0.frame events s.frame)
    (hvac : (s.tables t).VacantAt index generation) (hker : kernel.isChannel = false)
    (hcell : kernel.Allocated s) (hrights : kernel.CreatedWith rights) :
    Star (Moves keeping) s0.frame (events ++ [.created t ⟨s.nextObject, kernel⟩ rights,
        .issued t (handleFromParts index generation)])
      (s.created t index generation kernel rights).frame :=
  h.tail (.transfer transfer_mem (.create t hvac hker hcell hrights))

theorem wp_installObject (hwf : Wf s0.frame) (h : Reaches keeping s0 s)
    (hker : kernel.isChannel = false) (hcell : kernel.Allocated s)
    (hrights : kernel.CreatedWith rights) :
    wp (installObject t kernel rights)
      (fun handle s' => Star (Moves keeping) s0.frame (creationEvents t s' handle) s'.frame)
      (Fails keeping s0) s := by
  apply wp_tryAlloc h service_mem
  intro s1 hsame1 h1
  apply wp_reserveSlot h1 transfer_mem service_mem
  intro slot generation table s2 hsame2 hgrown hvac h2
  have hslot : ((s2.withTable t table).tables t).VacantAt slot generation := by
    rw [tables_withTable_self]
    exact hvac
  have hcell2 : kernel.Allocated (s2.withTable t table) :=
    KernelObject.Allocated.mono (hcell.mono (hsame1.trans hsame2).grows)
      ⟨le_rfl, le_rfl, le_rfl, le_rfl, le_rfl, le_rfl⟩
  refine wp_insertReserved hslot ?_
  have hbnd : ((s2.withTable t table).tables t).Bounded := (hwf.star h2).tables t
  have hstar := star_created h2 hslot hker hcell2 hrights
  rw [List.nil_append, ← creationEvents_eq (entry_created kernel rights hbnd hslot)] at hstar
  exact hstar

end Single

/-! ## Single objects -/

/-- The program creates one object and returns its handle. -/
abbrev Creates (t : Fin n) (x : IpcM n Handle) : System n → Prop :=
  Simulated keeping x fun handle s' => creationEvents t s' handle

section Constructors

variable (hwf : Wf s.frame) (t : Fin n) {rights : Rights}

include hwf

theorem processInstall_simulated {process : ProcessControlId} (hcell : process < s.processes.next) :
    Creates t (processInstall t process) s :=
  wp_installObject hwf (.refl s) rfl hcell rfl

theorem processCreate_simulated :
    Simulated keeping (processCreate t) (fun r s' => creationEvents t s' r.1) s := by
  apply wp_tryAlloc (.refl s) service_mem
  intro s1 hsame h1
  have h2 := Star.quiet h1 (.service service_mem .newProcess)
  apply wp_get
  apply wp_set_bind
  refine wp_seq (wp_installObject hwf h2 rfl (Nat.lt_succ_self _) rfl) fun handle s' hstar => ?_
  exact wp_pure hstar

theorem requestInstall_simulated {request : RequestControlId} (hcell : request < s.requests.next) :
    Creates t (requestInstall t request) s :=
  wp_installObject hwf (.refl s) rfl hcell rfl

theorem systemPowerInstall_simulated {control : PowerControlId} :
    Creates t (systemPowerInstall t control) s :=
  wp_installObject hwf (.refl s) rfl trivial rfl

theorem randomSourceCreate_simulated : Creates t (randomSourceCreate t) s :=
  wp_installObject hwf (.refl s) rfl trivial rfl

theorem schedulingAuthorityCreate_simulated {maximumClass : ThreadSchedulingClass} {active : Bool} :
    Simulated keeping (schedulingAuthorityCreate t maximumClass active)
      (fun r s' => creationEvents t s' r.1) s := by
  unfold Simulated schedulingAuthorityCreate
  apply wp_guard (.refl s)
  intro _
  apply wp_tryAlloc (.refl s) service_mem
  intro s1 hsame h1
  apply wp_get
  apply wp_set_bind
  refine wp_seq (wp_installObject hwf (h1.silent (.inl service_mem) (.aside s1)) rfl trivial rfl)
    fun handle s' hstar => ?_
  exact wp_pure hstar

theorem applicationDataCreate_simulated {appId : List UInt8} :
    Creates t (applicationDataCreate t appId) s := by
  unfold Creates Simulated applicationDataCreate
  apply wp_guard (.refl s)
  intro _
  apply wp_tryVecWithCapacity (.refl s) service_mem
  intro s1 _ h1
  apply wp_tryAlloc h1 service_mem
  intro s2 _ h2
  exact wp_installObject hwf h2 rfl trivial rfl

theorem filesystemRootCreateWithRights_simulated :
    Creates t (filesystemRootCreateWithRights t rights) s := by
  unfold Creates Simulated filesystemRootCreateWithRights
  apply wp_guard (.refl s)
  intro hrights
  simp only [not_or, Bool.not_eq_true', Bool.not_eq_false] at hrights
  exact wp_installObject hwf (.refl s) rfl trivial hrights.2

theorem filesystemDirectoryCreate_simulated {directory : DirectoryHandle} :
    Creates t (filesystemDirectoryCreate t directory rights) s := by
  unfold Creates Simulated filesystemDirectoryCreate
  apply wp_guard (.refl s)
  intro hrights
  simp only [not_or, Bool.not_eq_true', Bool.not_eq_false] at hrights
  exact wp_installObject hwf (.refl s) rfl trivial hrights.2

theorem filesystemFileCreate_simulated {file : FileHandle} :
    Creates t (filesystemFileCreate t file rights) s := by
  unfold Creates Simulated filesystemFileCreate
  apply wp_guard (.refl s)
  intro hrights
  refine wp_installObject hwf (.refl s) rfl trivial ?_
  intro hboth
  simp [hboth.1, hboth.2] at hrights

omit hwf in
theorem wp_sharedMemoryBackingNew {storage : StorageId}
    {Q : SharedMemoryBacking → System n → Prop} (h : Reaches keeping s0 s)
    (hQ : ∀ backing s', Reaches keeping s0 s' → Q backing s') :
    wp (sharedMemoryBackingNew storage) Q (Fails keeping s0) s := by
  apply wp_liftExcept_bind h
  intro pageCount _
  apply wp_tryVecWithCapacity h service_mem
  intro s1 _ h1
  apply wp_liftExcept_bind h1
  intro _ _
  apply wp_get
  cases checkedAdd s1.nextMemoryIdentity 1 with
  | none => exact wp_fail h1
  | some next =>
    apply wp_set_bind
    exact wp_pure (hQ _ _ (h1.silent (.inl service_mem) (.aside s1)))

theorem sharedMemoryCreateWithStorage_simulated {storage : StorageId} :
    Creates t (sharedMemoryCreateWithStorage t storage) s := by
  apply wp_bind
  apply wp_sharedMemoryBackingNew (.refl s)
  intro backing s1 h1
  exact wp_installObject hwf (h1.silent (.inl service_mem) (.aside s1)) rfl trivial rfl

end Constructors

section Pair

variable {t : Fin n} {index generation index' generation' : Nat}
  {kernel kernel' : KernelObject} {rights rights' : Rights}

theorem vacantAt_created (kernel : KernelObject) (rights : Rights) (generation : Nat)
    (hvac : (s.tables t).VacantAt index' generation') (hne : index' ≠ index) :
    ((s.created t index generation kernel rights).tables t).VacantAt index' generation' := by
  rw [created, tables_withTable_self]
  refine ⟨?_, hvac.2⟩
  rw [getElem?_fill_of_ne hne]
  exact hvac.1

theorem star_createdPair (hwf : Wf s0.frame) (h : Reaches keeping s0 s) {s1 s2 : System n}
    (hvac : (s.tables t).VacantAt index generation)
    (hvac' : (s.tables t).VacantAt index' generation') (hne : index' ≠ index)
    (hker : kernel.isChannel = false) (hcell : kernel.Allocated s)
    (hrights : kernel.CreatedWith rights) (hker' : kernel'.isChannel = false)
    (hcell' : kernel'.Allocated s) (hrights' : kernel'.CreatedWith rights')
    (hs1 : s1 = s.created t index generation kernel rights)
    (hs2 : s2 = s1.created t index' generation' kernel' rights') :
    Star (Moves keeping) s0.frame (creationEvents t s2 (handleFromParts index generation) ++
        creationEvents t s2 (handleFromParts index' generation')) s2.frame := by
  have hfirst := star_created h hvac hker hcell hrights
  have hbnd : (s.tables t).Bounded := (hwf.star h).tables t
  have hent := entry_created kernel rights hbnd hvac
  have hslot := vacantAt_created kernel rights generation hvac' hne
  rw [← hs1] at hfirst hent hslot
  have hbnd1 : (s1.tables t).Bounded := (hwf.star hfirst).tables t
  have hcell1 : kernel'.Allocated s1 := by
    subst hs1
    exact hcell'.mono ⟨le_rfl, le_rfl, le_rfl, le_rfl, Nat.le_succ _, Nat.le_succ _⟩
  have hsecond := star_created hfirst hslot hker' hcell1 hrights'
  have hent' := entry_created kernel' rights' hbnd1 hslot
  have hkept : (s2.tables t).entry (handleFromParts index generation) =
      .ok ⟨⟨s.nextObject, kernel⟩, rights, s.nextRef⟩ := by
    rw [hs2, created, tables_withTable_self]
    exact entry_fill_of_ok hslot hent
  rw [← hs2] at hsecond hent'
  rw [creationEvents_eq hkept, creationEvents_eq hent']
  exact hsecond

end Pair

theorem windowCreateWithGenerationAndBufferCount_simulated (hwf : Wf s.frame) (t : Fin n)
    {sharedMemory : Handle} {generation bufferCount : Nat} :
    Simulated keeping
      (windowCreateWithGenerationAndBufferCount t sharedMemory generation bufferCount)
      (fun r s' => creationEvents t s' r.1 ++ creationEvents t s' r.2) s := by
  apply wp_objectWithRights (.refl s)
  intro e _
  apply wp_guard (.refl s)
  intro hcnt
  apply wp_liftExcept_bind (.refl s)
  intro backing _
  apply wp_get
  apply wp_guard (.refl s)
  intro _
  apply wp_tryVecWithCapacity (.refl s) service_mem
  intro s1 hsame1 h1
  apply wp_bind
  apply wp_reserveSlots h1 transfer_mem service_mem
  intro slots table s2 hsame2 hrsv h2
  obtain ⟨a, b, generationA, generationB, rfl, hne, hvacA, hvacB⟩ := hrsv.pair
  apply wp_tryAlloc h2 service_mem
  intro s3 hsame3 h3
  apply wp_tryAlloc h3 service_mem
  intro s4 hsame4 h4
  apply wp_tryAlloc h4 service_mem
  intro s5 hsame5 h5
  have htab : s5.tables t = table := by
    rw [((hsame3.trans hsame4).trans hsame5).tables, tables_withTable_self]
  rw [← htab] at hvacA hvacB
  have hcnt' : 2 ≤ bufferCount := by omega
  have hwindow := Star.quiet h5 (.service service_mem (.newWindow backing
    ((s.memories.cell backing).logicalLen / bufferCount) generation hcnt'))
  apply wp_get
  apply wp_set_bind
  apply wp_bind
  apply wp_bind
  apply wp_mintObject
  apply wp_bind
  refine wp_insertReserved hvacA ?_
  apply wp_mintObject
  apply wp_bind
  refine wp_insertReserved (vacantAt_created _ _ generationA hvacB hne) ?_
  have hclient : (KernelObject.window s5.windows.next .client).CreatedWith windowClientRights := rfl
  have hmanager : (KernelObject.window s5.windows.next .manager).CreatedWith
    windowManagerRights := rfl
  exact star_createdPair hwf hwindow hvacA hvacB hne rfl (Nat.lt_succ_self _) hclient rfl
    (Nat.lt_succ_self _) hmanager rfl rfl

/-! ## The two ends of a channel -/

theorem wp_newChannelAllocations {Q : Unit → System n → Prop} (h : Reaches keeping s0 s)
    (hQ : ∀ s', SameObjects s s' → Reaches keeping s0 s' → Q () s') :
    wp newChannelAllocations Q (Fails keeping s0) s := by
  have hnext : ∀ {k : Unit → IpcM n Unit} {s1 : System n}, SameObjects s s1 →
      Reaches keeping s0 s1 → (∀ s2, SameObjects s s2 → Reaches keeping s0 s2 →
        wp (k ()) Q (Fails keeping s0) s2) → wp (tryAlloc >>= k) Q (Fails keeping s0) s1 :=
    fun hsame h hk => wp_tryAlloc h service_mem fun s2 hsame2 h2 => hk s2 (hsame.trans hsame2) h2
  have hsame : SameObjects s s := .refl s
  iterate 6 refine hnext (by assumption) (by assumption) fun _ _ _ => ?_
  rw [← bind_pure tryAlloc]
  exact hnext (by assumption) (by assumption) hQ

theorem vacantAt_fill_other {left right : Fin n} {leftIndex leftGeneration rightIndex : Nat}
    {rightGeneration : Nat} (hright : (s.tables right).VacantAt rightIndex rightGeneration)
    (hne : left = right → rightIndex ≠ leftIndex) :
    ((s.withTable left ((s.tables left).fill leftIndex leftGeneration e)).tables right).VacantAt
      rightIndex rightGeneration := by
  by_cases hlr : right = left
  · subst hlr
    rw [tables_withTable_self]
    refine ⟨?_, hright.2⟩
    rw [getElem?_fill_of_ne (hne rfl)]
    exact hright.1
  · rw [tables_withTable_of_ne _ _ hlr]
    exact hright

theorem entry_fill_other {t u : Fin n} {index generation : Nat} {e' : HandleEntry} {handle : Handle}
    (hvac : (s.tables u).VacantAt index generation) (hent : (s.tables t).entry handle = .ok e) :
    ((s.withTable u ((s.tables u).fill index generation e')).tables t).entry handle = .ok e := by
  by_cases htu : t = u
  · subst htu
    rw [tables_withTable_self]
    exact entry_fill_of_ok hvac hent
  · rw [tables_withTable_of_ne _ _ htu]
    exact hent

section Channel

variable {left right : Fin n} {leftIndex leftGeneration rightIndex rightGeneration : Nat}

section

variable (hwf : Wf s0.frame) (h : Reaches keeping s0 s)
  (hleft : (s.tables left).VacantAt leftIndex leftGeneration)
  (hright : (s.tables right).VacantAt rightIndex rightGeneration)
  (hne : left = right → rightIndex ≠ leftIndex)
include hwf h hleft hright hne

theorem star_createdChannel {s1 s2 s3 : System n} (hs1 : s1 = { s with
      channels := s.channels.alloc .new
      nextObject := s.nextObject + 2
      nextRef := s.nextRef + 2 })
    (hs2 : s2 = s1.withTable left ((s1.tables left).fill leftIndex leftGeneration
      ⟨⟨s.nextObject, .channel s.channels.next .left⟩, channelDefaultRights, s.nextRef⟩))
    (hs3 : s3 = s2.withTable right ((s2.tables right).fill rightIndex rightGeneration
      ⟨⟨s.nextObject + 1, .channel s.channels.next .right⟩, channelDefaultRights, s.nextRef + 1⟩)) :
    Star (Moves keeping) s0.frame
      (creationEvents left s3 (handleFromParts leftIndex leftGeneration) ++
        creationEvents right s3 (handleFromParts rightIndex rightGeneration)) s3.frame := by
  have hbnd : ∀ t, (s.tables t).Bounded := (hwf.star h).tables
  have htabs : s1.tables = s.tables := by rw [hs1]
  rw [← htabs] at hleft hright hbnd
  have hright2 : (s2.tables right).VacantAt rightIndex rightGeneration := by
    rw [hs2]
    exact vacantAt_fill_other hright hne
  have hbnd2 : (s2.tables right).Bounded := by
    by_cases hlr : right = left
    · subst hlr
      rw [hs2, tables_withTable_self]
      exact (hbnd right).step (.fill hleft)
    · rw [hs2, tables_withTable_of_ne _ _ hlr]
      exact hbnd right
  have hleftEnt : (s3.tables left).entry (handleFromParts leftIndex leftGeneration) =
      .ok ⟨⟨s.nextObject, .channel s.channels.next .left⟩, channelDefaultRights, s.nextRef⟩ := by
    rw [hs3]
    apply entry_fill_other hright2
    rw [hs2, tables_withTable_self]
    exact (hbnd left).entry_fill hleft
  have hrightEnt : (s3.tables right).entry (handleFromParts rightIndex rightGeneration) =
      .ok ⟨⟨s.nextObject + 1, .channel s.channels.next .right⟩, channelDefaultRights,
        s.nextRef + 1⟩ := by
    rw [hs3, tables_withTable_self]
    exact hbnd2.entry_fill hright2
  have hmove := Transfer.createChannel left right hs1 hleft hs2 hright2
  rw [← hs3] at hmove
  rw [creationEvents_eq hleftEnt, creationEvents_eq hrightEnt]
  exact h.tail (.transfer transfer_mem hmove)

theorem wp_installChannel :
    wp (installChannel left leftIndex right rightIndex) (fun r s' => Star (Moves keeping) s0.frame
        (creationEvents left s' r.1 ++ creationEvents right s' r.2) s'.frame)
      (Fails keeping s0) s := by
  apply wp_get
  apply wp_set_bind
  apply wp_mintObject
  apply wp_mintObject
  apply wp_bind
  refine wp_insertReserved hleft ?_
  apply wp_bind
  refine wp_insertReserved (vacantAt_fill_other hright hne) ?_
  exact star_createdChannel hwf h hleft hright hne rfl rfl rfl

end

theorem channelCreate_simulated (hwf : Wf s.frame) (t : Fin n) : Simulated keeping (channelCreate t)
      (fun r s' => creationEvents t s' r.1 ++ creationEvents t s' r.2) s := by
  apply wp_bind
  apply wp_reserveSlots (.refl s) transfer_mem service_mem
  intro slots table s1 hsame1 hrsv h1
  obtain ⟨a, b, generationA, generationB, rfl, hne, hvacA, hvacB⟩ := hrsv.pair
  apply wp_bind
  apply wp_newChannelAllocations h1
  intro s2 hsame2 h2
  have htab : s2.tables t = table := by
    rw [hsame2.tables, tables_withTable_self]
  rw [← htab] at hvacA hvacB
  exact wp_installChannel hwf h2 hvacA hvacB fun _ => hne

theorem channelCreateBetween_simulated (hwf : Wf s.frame) (hdist : left ≠ right) :
    Simulated keeping (channelCreateBetween left right)
      (fun r s' => creationEvents left s' r.1 ++ creationEvents right s' r.2) s := by
  apply wp_reserveSlot (.refl s) transfer_mem service_mem
  intro leftSlot leftGeneration leftTable s1 hsame1 hgrown1 hleft h1
  apply wp_reserveSlot h1 transfer_mem service_mem
  intro rightSlot rightGeneration rightTable s2 hsame2 hgrown2 hright h2
  apply wp_bind
  apply wp_newChannelAllocations h2
  intro s3 hsame3 h3
  have hleft3 : (s3.tables left).VacantAt leftSlot leftGeneration := by
    rw [hsame3.tables, tables_withTable_of_ne _ _ hdist, hsame2.tables, tables_withTable_self]
    exact hleft
  have hright3 : (s3.tables right).VacantAt rightSlot rightGeneration := by
    rw [hsame3.tables, tables_withTable_self]
    exact hright
  exact wp_installChannel hwf h3 hleft3 hright3 fun heq => absurd heq hdist

end Channel

theorem CreateOp.simulated (hwf : Wf s.frame) (op : CreateOp n)
    (hvalid : (Op.create op).valid s = true) :
    Simulated keeping op.run (fun value s' => op.events s' value) s := by
  cases op with
  | processCreate t => exact (processCreate_simulated hwf t).bind_pure
  | processInstall t process =>
    exact (processInstall_simulated hwf t (of_decide_eq_true hvalid)).map
  | requestInstall t request =>
    exact (requestInstall_simulated hwf t (of_decide_eq_true hvalid)).map
  | systemPowerInstall t control => exact (systemPowerInstall_simulated hwf t).map
  | schedulingAuthorityCreate t maximumClass active =>
    exact (schedulingAuthorityCreate_simulated hwf t).bind_pure
  | randomSourceCreate t => exact (randomSourceCreate_simulated hwf t).map
  | applicationDataCreate t appId => exact (applicationDataCreate_simulated hwf t).map
  | filesystemRootCreate t => exact (filesystemRootCreateWithRights_simulated hwf t).map
  | filesystemRootCreateWithRights t rights =>
    exact (filesystemRootCreateWithRights_simulated hwf t).map
  | filesystemDirectoryCreate t directory rights =>
    exact (filesystemDirectoryCreate_simulated hwf t).map
  | filesystemFileCreate t file rights => exact (filesystemFileCreate_simulated hwf t).map
  | sharedMemoryCreateWithStorage t storage =>
    exact (sharedMemoryCreateWithStorage_simulated hwf t).map
  | windowCreate t sharedMemory
  | windowCreateWithGenerationAndBufferCount t sharedMemory generation bufferCount =>
    exact (windowCreateWithGenerationAndBufferCount_simulated hwf t).bind_pure
  | channelCreate t => exact (channelCreate_simulated hwf t).bind_pure
  | channelCreateBetween left right hdist =>
    exact (channelCreateBetween_simulated hwf hdist).bind_pure

end Ginkgo.Ipc
