import Ginkgo.Lib.Words
import Mathlib.Data.List.Sort

/-!
# Tearing down USB devices

A path packs the ports from the root port down to a device into a route string of four bits a
port.  When a port loses its device, everything below goes too, deepest first, until the
controller refuses to give up a slot.
-/

namespace Ginkgo.Kernel.Usb

open List Relation

def maxHubDepth : Nat := 5

def lifecycleEventCapacity : Nat := 128

def failureCapacity : Nat := 128

structure UsbPath where
  rootPort : Nat
  routeString : Nat
  depth : Nat
  deriving DecidableEq

namespace UsbPath

variable {p q r : UsbPath}

def root (rootPort : Nat) : UsbPath := ⟨rootPort, 0, 0⟩

/-- `none` for `UsbError::InvalidPort`. -/
def child (p : UsbPath) (port : Nat) : Option UsbPath :=
  if maxHubDepth ≤ p.depth ∨ port = 0 ∨ 15 < port then none
  else some ⟨p.rootPort, p.routeString ||| port <<< (p.depth * 4), p.depth + 1⟩

def isDescendantOf (p ancestor : UsbPath) : Bool :=
  if p.rootPort ≠ ancestor.rootPort ∨ p.depth < ancestor.depth then false
  else
    let bits := ancestor.depth * 4
    let mask := if bits = 0 then 0 else 1 <<< bits - 1
    p.routeString &&& mask == ancestor.routeString &&& mask

/-- A device at `q` hangs on a hub at `p`. -/
def HubOf (p q : UsbPath) : Prop := ∃ port, p.child port = some q

/-- The path is `p` or extends it. -/
def Below (p q : UsbPath) : Prop := ReflTransGen HubOf p q

def Built (p : UsbPath) : Prop := ∃ rootPort, (root rootPort).Below p

theorem isDescendantOf_iff : p.isDescendantOf q = true ↔ p.rootPort = q.rootPort ∧
    q.depth ≤ p.depth ∧ p.routeString % 2 ^ (q.depth * 4) = q.routeString % 2 ^ (q.depth * 4) := by
  have hmask : (if q.depth * 4 = 0 then 0 else 1 <<< (q.depth * 4) - 1) =
      2 ^ (q.depth * 4) - 1 := by
    split
    · simp [*]
    · rw [Nat.one_shiftLeft]
  simp only [isDescendantOf, hmask, Nat.and_two_pow_sub_one_eq_mod]
  grind

/-- A step down keeps the route string and puts the port above it. -/
theorem HubOf.route (h : p.HubOf q) (hp : p.routeString < 2 ^ (p.depth * 4)) :
    q.rootPort = p.rootPort ∧ q.depth = p.depth + 1 ∧ ∃ port < 16,
      q.routeString = 2 ^ (p.depth * 4) * port + p.routeString := by
  obtain ⟨port, h⟩ := h
  unfold child at h
  split at h
  · cases h
  · cases h
    refine ⟨rfl, rfl, port, by omega, ?_⟩
    rw [Nat.or_comm, ← Nat.shiftLeft_add_eq_or_of_lt hp, Nat.shiftLeft_eq, Nat.mul_comm]

theorem Built.lt (h : p.Built) : p.routeString < 2 ^ (p.depth * 4) := by
  obtain ⟨rootPort, h⟩ := h
  induction h with
  | refl => exact Nat.one_pos
  | @tail hub q _ hstep ih =>
    obtain ⟨-, hdepth, port, hport, hroute⟩ := hstep.route ih
    have hle := Nat.mul_le_mul_left (2 ^ (hub.depth * 4)) (Nat.le_of_lt_succ hport)
    rw [hdepth, hroute, Nat.succ_mul, Nat.pow_add]
    omega

theorem HubOf.isDescendantOf (h : p.HubOf q) (hp : p.Built) (hr : r.depth ≤ p.depth) :
    q.isDescendantOf r = p.isDescendantOf r := by
  obtain ⟨hroot, hdepth, port, -, hroute⟩ := h.route hp.lt
  have hpow : 2 ^ (p.depth * 4) = 2 ^ (r.depth * 4) * 2 ^ ((p.depth - r.depth) * 4) := by
    rw [← Nat.pow_add]
    congr 1
    omega
  rw [Bool.eq_iff_iff, isDescendantOf_iff, isDescendantOf_iff, hroot, hdepth, hroute, hpow,
    Nat.mul_assoc, Nat.mul_add_mod]
  omega

theorem Built.eq_of_depth_le (hp : p.Built) (hq : q.Built) (h : q.isDescendantOf p = true)
    (hdepth : q.depth ≤ p.depth) : p = q := by
  obtain ⟨hroot, hle, hroute⟩ := isDescendantOf_iff.mp h
  have heq := Nat.le_antisymm hle hdepth
  have hlt := hq.lt
  rw [← heq] at hlt
  rw [Nat.mod_eq_of_lt hlt, Nat.mod_eq_of_lt hp.lt] at hroute
  cases p
  cases q
  simp_all

/-- On paths that were built, the comparison of masked route strings decides ancestry. -/
theorem Built.isDescendantOf (hp : p.Built) (hq : q.Built) :
    q.isDescendantOf p = true ↔ p.Below q := by
  constructor
  · intro h
    obtain ⟨rootPort, hq⟩ := hq
    induction hq with
    | refl => exact hp.eq_of_depth_le ⟨rootPort, .refl⟩ h (Nat.zero_le _) ▸ .refl
    | @tail hub q hbelow hstep ih =>
      have hhub : hub.Built := ⟨rootPort, hbelow⟩
      by_cases hle : p.depth ≤ hub.depth
      · rw [hstep.isDescendantOf hhub hle] at h
        exact (ih h).tail hstep
      · have hdepth := (hstep.route hhub.lt).2.1
        exact hp.eq_of_depth_le ⟨rootPort, hbelow.tail hstep⟩ h (by omega) ▸ .refl
  · intro h
    clear hq
    induction h with
    | refl => exact isDescendantOf_iff.mpr ⟨rfl, Nat.le_refl _, rfl⟩
    | tail hbelow hstep ih =>
      rw [hstep.isDescendantOf (hp.imp fun _ => (.trans · hbelow)) (isDescendantOf_iff.mp ih).2.1]
      exact ih

theorem Built.depth_lt (hp : p.Built) (h : TransGen HubOf p q) : p.depth < q.depth := by
  obtain ⟨hub, hbelow, hstep⟩ := TransGen.tail'_iff.mp h
  have hhub : hub.Built := hp.imp fun _ => (.trans · hbelow)
  have hle := (isDescendantOf_iff.mp ((hp.isDescendantOf hhub).mpr hbelow)).2.1
  have hdepth := (hstep.route hhub.lt).2.1
  omega

end UsbPath

def teardownSlotOrder (entries : List (UsbPath × Nat)) (path : UsbPath) : List Nat :=
  (((entries.filter (·.1.isDescendantOf path)).map fun e => (e.1.depth, e.2)).insertionSort
    fun left right => right.1 < left.1 ∨ right.1 = left.1 ∧ right.2 ≤ left.2).map (·.2)

section

variable {α : Type} {p : UsbPath} {xs : List α}

/-- `ordered` is what is at the path or below, each device before its hub. -/
structure LeavesFirst (p : UsbPath) (path : α → UsbPath) (xs ordered rest : List α) : Prop where
  perm : (ordered ++ rest).Perm xs
  below : ∀ x ∈ ordered, p.Below (path x)
  apart : ∀ x ∈ rest, ¬p.Below (path x)
  order : ordered.Pairwise fun x y => ¬TransGen UsbPath.HubOf (path x) (path y)

theorem teardownSlotOrder_spec (key : α → UsbPath × Nat) (hp : p.Built)
    (hbuilt : ∀ x ∈ xs, (key x).1.Built) : ∃ ordered rest,
      LeavesFirst p (fun x => (key x).1) xs ordered rest ∧
        teardownSlotOrder (xs.map key) p = ordered.map fun x => (key x).2 := by
  let later (x y : α) : Prop := (key y).1.depth < (key x).1.depth ∨
    (key y).1.depth = (key x).1.depth ∧ (key y).2 ≤ (key x).2
  have : IsTrans α later := ⟨fun _ _ _ h h' => by grind⟩
  have : Std.Total later := ⟨fun _ _ => by grind⟩
  have hmem x (hx : x ∈ xs) := hp.isDescendantOf (hbuilt x hx)
  refine ⟨(xs.filter fun x => (key x).1.isDescendantOf p).insertionSort later,
    xs.filter fun x => !(key x).1.isDescendantOf p, ⟨?_, fun x hx => ?_, fun x hx => ?_, ?_⟩, ?_⟩
  · exact ((perm_insertionSort later _).append_right _).trans (filter_append_perm _ xs)
  · rw [mem_insertionSort, mem_filter] at hx
    exact (hmem x hx.1).mp hx.2
  · rw [mem_filter] at hx
    rw [← hmem x hx.1]
    simpa using hx.2
  · refine (pairwise_insertionSort later _).imp_of_mem fun {x y} hx _ hlater hbelow => ?_
    rw [mem_insertionSort, mem_filter] at hx
    have hlt := (hbuilt x hx.1).depth_lt hbelow
    grind
  · rw [teardownSlotOrder, filter_map, List.map_map, ← map_insertionSort (r := later), List.map_map]
    · rfl
    · exact fun _ _ _ _ => .rfl

end

structure HidInterfaceState (I : Type) where
  info : I
  active : Bool

structure UsbDevice (I : Type) where
  slotId : Nat
  path : UsbPath
  interfaces : List (HidInterfaceState I)

inductive UsbLifecycleEvent (I : Type)
  | interfaceAdded (info : I)
  | interfaceRemoved (info : I)

/-- The commands of the controller, with a state of its own. -/
structure Xhci (ε γ : Type) where
  disableSlot : Nat → γ → Except ε Unit × γ
  setDcbaaEntry : Nat → Nat → γ → Except ε Unit × γ

structure UsbHost (ε γ I : Type) where
  controller : γ
  devices : List (UsbDevice I)
  failures : List (Nat × ε)
  topologyFailures : List (UsbPath × ε)
  lifecycleEvents : List (UsbLifecycleEvent I)

variable {α ε γ I : Type} {host : UsbHost ε γ I} {p : UsbPath}

def pushBounded (capacity : Nat) (queue : List α) (value : α) : List α :=
  let queue := if queue.length = capacity then queue.tail else queue
  if capacity ≠ 0 then queue ++ [value] else queue

namespace UsbHost

def recordPathFailure (path : UsbPath) (error : ε) (host : UsbHost ε γ I) : UsbHost ε γ I :=
  { host with
    topologyFailures := pushBounded failureCapacity host.topologyFailures (path, error)
    failures := if path.depth = 0 then
      pushBounded failureCapacity host.failures (path.rootPort, error) else host.failures }

/-- The slot is disabled, so the device can be dropped. -/
def removeDevice (device : UsbDevice I) (host : UsbHost ε γ I) : UsbHost ε γ I :=
  { host with
    devices := host.devices.eraseP (·.slotId = device.slotId)
    lifecycleEvents := device.interfaces.foldl (fun events interface =>
      if interface.active then
        pushBounded lifecycleEventCapacity events (.interfaceRemoved interface.info)
      else events) host.lifecycleEvents }

/-- One round for each slot, until one cannot be disabled. -/
def teardownSlots (xhci : Xhci ε γ) : List Nat → UsbHost ε γ I → UsbHost ε γ I
  | [], host => host
  | slot :: slots, host =>
    match host.devices.find? (·.slotId = slot) with
    | none => teardownSlots xhci slots host
    | some device =>
      match xhci.disableSlot slot host.controller with
      | (.error error, controller) =>
        { host with controller }.recordPathFailure device.path error
      | (.ok (), controller) =>
        match xhci.setDcbaaEntry slot 0 controller with
        | (.error error, controller) =>
          teardownSlots xhci slots
            (({ host with controller }.recordPathFailure device.path error).removeDevice device)
        | (.ok (), controller) =>
          teardownSlots xhci slots ({ host with controller }.removeDevice device)

def teardownPath (xhci : Xhci ε γ) (path : UsbPath) (host : UsbHost ε γ I) : UsbHost ε γ I :=
  host.teardownSlots xhci
    (teardownSlotOrder (host.devices.map fun device => (device.path, device.slotId)) path)

/-- The events of a device that is removed. -/
def removals (device : UsbDevice I) : List (UsbLifecycleEvent I) :=
  (device.interfaces.filter (·.active)).map fun interface => .interfaceRemoved interface.info

/-- The second host is the first without some devices, whose removals have been pushed. -/
structure Removes (removed : List (UsbDevice I)) (host host' : UsbHost ε γ I) : Prop where
  perm : (removed ++ host'.devices).Perm host.devices
  events : host'.lifecycleEvents = (removed.flatMap removals).foldl
    (pushBounded lifecycleEventCapacity) host.lifecycleEvents

theorem removes_device {device : UsbDevice I} (hmem : device ∈ host.devices)
    (hnodup : (host.devices.map (·.slotId)).Nodup) :
    host.devices.find? (·.slotId = device.slotId) = some device ∧
      Removes [device] host (host.removeDevice device) := by
  obtain ⟨before, after, hsplit⟩ := append_of_mem hmem
  rw [hsplit, map_append, nodup_append] at hnodup
  have hnone : ∀ other ∈ before, ¬decide (other.slotId = device.slotId) = true :=
    fun other hother heq => hnodup.2.2 _ (mem_map_of_mem hother) _ (mem_map_of_mem (.head _))
      (of_decide_eq_true heq)
  refine ⟨?_, ?_, ?_⟩
  · rw [hsplit, find?_append, find?_eq_none.mpr hnone]
    simp
  · rw [removeDevice, hsplit, eraseP_append_right _ hnone]
    simpa using perm_middle.symm
  · simp [removeDevice, removals, foldl_map, foldl_filter]

/-- What is left of the devices from the first one on whose slot cannot be disabled. -/
def refused (xhci : Xhci ε γ) : List (UsbDevice I) → γ → List (UsbDevice I)
  | [], _ => []
  | device :: devices, controller =>
    match xhci.disableSlot device.slotId controller with
    | (.error _, _) => device :: devices
    | (.ok (), controller) => refused xhci devices (xhci.setDcbaaEntry device.slotId 0 controller).2

theorem refused_eq_nil {xhci : Xhci ε γ}
    (h : ∀ slot controller, (xhci.disableSlot slot controller).1 = .ok ())
    (devices : List (UsbDevice I)) (controller : γ) : refused xhci devices controller = [] := by
  induction devices generalizing controller with
  | nil => rfl
  | cons device devices ih =>
    have hok := h device.slotId controller
    unfold refused
    split
    · simp_all
    · exact ih _

theorem teardownSlots_spec (xhci : Xhci ε γ) {ordered rest : List (UsbDevice I)}
    (hperm : (ordered ++ rest).Perm host.devices) (hnodup : (host.devices.map (·.slotId)).Nodup) :
    ∃ removed, removed ++ refused xhci ordered host.controller = ordered ∧
      Removes removed host (host.teardownSlots xhci (ordered.map (·.slotId))) := by
  induction ordered generalizing host with
  | nil => exact ⟨[], rfl, .refl _, rfl⟩
  | cons device ordered ih =>
    obtain ⟨hfind, hremoved⟩ := removes_device (hperm.subset (.head _)) hnodup
    have hnext {host' : UsbHost ε γ I} {controller : γ} (hstate : host'.controller = controller)
        (hremoved : Removes [device] host host') :
        ∃ removed, removed ++ refused xhci ordered controller = device :: ordered ∧
          Removes removed host (host'.teardownSlots xhci (ordered.map (·.slotId))) := by
      have hnodup' := ((hremoved.perm.map (·.slotId)).nodup_iff.mpr hnodup).of_cons
      obtain ⟨removed, hrest, hlater⟩ :=
        ih ((perm_cons device).mp (hperm.trans hremoved.perm.symm)) hnodup'
      refine ⟨device :: removed, congrArg (device :: ·) (hstate ▸ hrest), ?_, ?_⟩
      · exact (hlater.perm.cons device).trans hremoved.perm
      · rw [hlater.events, hremoved.events, ← foldl_append]
        simp
    rw [map_cons, teardownSlots, hfind, refused]
    dsimp only
    rcases hdisable : xhci.disableSlot device.slotId host.controller with ⟨_ | _, controller⟩
    · exact ⟨[], rfl, .refl _, rfl⟩
    · dsimp only
      rcases hset : xhci.setDcbaaEntry device.slotId 0 controller with ⟨_ | _, controller'⟩
      all_goals
        dsimp only
        refine hnext ?_ ⟨?_, ?_⟩
        · rfl
        · exact hremoved.perm
        · exact hremoved.events

/-- Tearing down a path takes away the devices at the path or below, leaves first, up to the first
whose slot cannot be disabled, and no others, so that no device is left whose hub is gone.  Slots
identify devices, as the controller hands them out. -/
theorem teardown_leavesFirst (hp : p.Built) :
    (∀ entries : List (UsbPath × Nat), (∀ entry ∈ entries, entry.1.Built) → ∃ ordered rest,
      LeavesFirst p (·.1) entries ordered rest ∧ teardownSlotOrder entries p = ordered.map (·.2)) ∧
    ∀ {ε γ I : Type} (xhci : Xhci ε γ) (host : UsbHost ε γ I),
      (∀ device ∈ host.devices, device.path.Built) → (host.devices.map (·.slotId)).Nodup →
      (∃ ordered rest removed, LeavesFirst p (·.path) host.devices ordered rest ∧
        removed ++ refused xhci ordered host.controller = ordered ∧
        Removes removed host (host.teardownPath xhci p) ∧
        ∀ hub ∈ removed, ∀ device ∈ (host.teardownPath xhci p).devices,
          ¬TransGen UsbPath.HubOf hub.path device.path) ∧
      ((∀ slot controller, (xhci.disableSlot slot controller).1 = .ok ()) →
        ∀ device, device ∈ (host.teardownPath xhci p).devices ↔
          device ∈ host.devices ∧ ¬p.Below device.path) := by
  constructor
  · intro entries hbuilt
    have hspec := teardownSlotOrder_spec id hp hbuilt
    rwa [map_id] at hspec
  · intro ε γ I xhci host hbuilt hnodup
    obtain ⟨ordered, rest, hleaves, horder⟩ :=
      teardownSlotOrder_spec (fun device : UsbDevice I => (device.path, device.slotId)) hp hbuilt
    obtain ⟨removed, hsplit, hremoved⟩ := teardownSlots_spec xhci hleaves.perm hnodup
    rw [← horder] at hremoved
    have hremain : (refused xhci ordered host.controller ++ rest).Perm
        (host.teardownPath xhci p).devices := by
      rw [← perm_append_left_iff removed, ← append_assoc, hsplit]
      exact hleaves.perm.trans hremoved.perm.symm
    constructor
    · refine ⟨ordered, rest, removed, hleaves, hsplit, hremoved, ?_⟩
      intro hub hhub device hdevice habove
      rcases mem_append.mp (hremain.mem_iff.mpr hdevice) with hleft | hout
      · have horder := hleaves.order
        rw [← hsplit] at horder
        exact (pairwise_append.mp horder).2.2 hub hhub device hleft habove
      · have hbelow := hleaves.below hub (hsplit ▸ mem_append_left _ hhub)
        exact hleaves.apart device hout (hbelow.trans habove.to_reflTransGen)
    · intro hok device
      rw [refused_eq_nil hok, nil_append] at hremain
      rw [← hremain.mem_iff, ← hleaves.perm.mem_iff, mem_append]
      constructor
      · exact fun hmem => ⟨.inr hmem, hleaves.apart device hmem⟩
      · rintro ⟨hmem | hmem, habove⟩
        · exact absurd (hleaves.below device hmem) habove
        · exact hmem

/-- A hub in slot 1 with a device in slot 3. -/
def hubWithLeaf : UsbHost Unit Unit Unit :=
  ⟨(), [⟨1, .root 1, []⟩, ⟨3, ⟨1, 2, 1⟩, [⟨(), true⟩]⟩], [], [], []⟩

/-- The controller gives up the slot of the leaf and keeps that of the hub. -/
def keepsHub : Xhci Unit Unit :=
  ⟨fun slot s => (if slot = 1 then .error () else .ok (), s), fun _ _ s => (.ok (), s)⟩

theorem teardown_leavesFirst_hub :
    (∃ ordered rest, LeavesFirst (.root 1) (·.1) [(.root 1, 1), (⟨1, 2, 1⟩, 3)] ordered rest ∧
      [3, 1] = ordered.map (·.2)) ∧
    ∃ ordered rest removed, LeavesFirst (.root 1) (·.path) hubWithLeaf.devices ordered rest ∧
      removed ++ refused keepsHub ordered () = ordered ∧
      Removes removed hubWithLeaf (hubWithLeaf.teardownPath keepsHub (.root 1)) ∧
      (hubWithLeaf.teardownPath keepsHub (.root 1)).lifecycleEvents = [.interfaceRemoved ()] := by
  have hroot : (UsbPath.root 1).Built := ⟨1, .refl⟩
  have hleaf : (⟨1, 2, 1⟩ : UsbPath).Built := ⟨1, .single ⟨2, rfl⟩⟩
  obtain ⟨hentries, hhost⟩ := teardown_leavesFirst hroot
  obtain ⟨ordered, rest, removed, hleaves, hsplit, hremoves, -⟩ :=
    (hhost keepsHub hubWithLeaf (by simp [hubWithLeaf, hroot, hleaf]) (by decide)).1
  exact ⟨hentries _ (by simp [hroot, hleaf]), ordered, rest, removed, hleaves, hsplit,
    hremoves, rfl⟩

end UsbHost

end Ginkgo.Kernel.Usb
