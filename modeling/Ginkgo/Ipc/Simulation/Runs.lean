import Ginkgo.Ipc.Simulation.Create
import Ginkgo.Ipc.Simulation.Channels
import Ginkgo.Ipc.Simulation.Drop
import Ginkgo.Ipc.Simulation.Objects
import Ginkgo.Ipc.Simulation.Waits

/-!
# Every run is a run of moves

Each call is simulated by moves that show exactly the events of its record, and it fails
with ordinary errors only: the model's panics, deadlocks and exhausted loops are not
reachable.
-/

namespace Ginkgo.Ipc

open Ginkgo.Lib Ginkgo.Sysapi

variable {n : Nat} {s s' : System n} {r : Record n} {trace : List (Record n)}

/-- The kinds of moves that an operation makes. -/
def Op.kinds : Op n → Set Kind
  | .handle (.handleClose _ _) => dropping
  | .wait _ => waiting
  | _ => keeping

theorem HandleOp.simulated (hwf : Wf s.frame) (op : HandleOp n) :
    Simulated (Op.handle op).kinds op.run (fun value _ => op.events value) s := by
  cases op with
  | handleClose t handle => exact (handleClose_simulated hwf t handle).bind_pure
  | handleDuplicate t handle rights => exact (handleDuplicate_simulated hwf).map
  | handleTransferBatchBetween source dst hdist dispositions =>
    apply Simulated.map
    apply wp_handleTransferBatchBetween hwf hdist
    intro handles s' hstar _
    exact hstar
  | handleMoveBetween source dst hdist handle rights =>
    exact (handleMoveBetween_simulated hwf hdist).map

theorem ChannelOp.simulated (hwf : Wf s.frame) (op : ChannelOp n) :
    Simulated keeping op.run (fun value s' => op.events s s' value) s := by
  cases op with
  | channelWrite t channel bytes handles =>
    exact (channelWrite_simulated hwf t channel bytes handles).bind_pure
  | channelWriteWithDispositions t channel bytes dispositions =>
    exact (channelWriteWithDispositions_simulated hwf t channel bytes dispositions).bind_pure
  | channelWriteWithHandleOperations t channel bytes dispositions =>
    exact (channelWriteWithHandleOperations_simulated hwf t channel bytes dispositions).bind_pure
  | channelRead t channel bytesLen handlesLen =>
    exact (channelRead_simulated hwf t channel bytesLen handlesLen).bind_pure

/-- What a call that returned `value` shows. -/
def Op.events (before after : System n) (op : Op n) (value : Value) : List (Event n) :=
  (Record.mk before op (.ok value) after).events

theorem Op.simulated (hwf : Wf s.frame) (op : Op n) (hvalid : op.valid s = true) :
    Simulated op.kinds op.run (fun value s' => op.events s s' value) s := by
  cases op with
  | create op | control op | wait op => exact op.simulated hwf hvalid
  | handle op | channel op | window op => exact op.simulated hwf
  | query op => exact op.simulated

theorem Op.service_or_wait (op : Op n) : .service ∈ op.kinds ∨ .wait ∈ op.kinds := by
  unfold Op.kinds
  split
  · exact .inl service_mem_dropping
  · exact .inr wait_mem_waiting
  · exact .inl service_mem

theorem Op.valid_memory (op : Op n) (m : Budget) :
    op.valid { s with memory := m } = op.valid s := by
  unfold Op.valid
  split <;> rfl

theorem Step.simulated (hwf : Wf s.frame) (h : Step s [r] s') :
    Star (Moves r.op.kinds) s.frame r.events s'.frame ∧
      ∀ fault, r.outcome = .error fault → ∃ e, fault = .error e := by
  cases h with
  | @call call hvalid =>
  have hmemory := SameObjects.withMemory s call.memory
  have hrch := (Reaches.refl s).silent call.op.service_or_wait hmemory
  have hsimulated := (call.op.simulated (hwf.star hrch)
    ((call.op.valid_memory call.memory).trans hvalid)).after hrch
  unfold System.exec
  cases hrun : call.op.run { s with memory := call.memory } with
  | ok value s1 =>
    have hstar := wp_ok hsimulated hrun
    refine ⟨hstar, ?_⟩
    intro fault hfault
    cases hfault
  | error fault s1 =>
    obtain ⟨herr, hquiet⟩ := wp_error hsimulated hrun
    refine ⟨hquiet, ?_⟩
    intro fault' hfault
    cases hfault
    exact herr

theorem Step.eq_record {records : List (Record n)} (h : Step s records s') :
    ∃ r, records = [r] ∧ r.before = s ∧ r.after = s' := by
  cases h with
  | call => exact ⟨_, rfl, rfl, rfl⟩

theorem Moves.mono {kinds kinds' : Set Kind} {F F' : Frame n} {events : List (Event n)}
    (hkinds : kinds ⊆ kinds') (h : Moves kinds F events F') : Moves kinds' F events F' := by
  cases h with
  | transfer hkind h => exact .transfer (hkinds hkind) h
  | release hkind h => exact .release (hkinds hkind) h
  | service hkind h => exact .service (hkinds hkind) h
  | wait hkind h => exact .wait (hkinds hkind) h

/-- The events of a run. -/
def shown (trace : List (Record n)) : List (Event n) := trace.flatMap (·.events)

theorem steps_simulated {s0 : System n} (hwf : Wf s0.frame) (h : Star Step s0 trace s) :
    Star (Moves Set.univ) s0.frame (shown trace) s.frame := by
  refine h.invariant (I := fun trace s => Star (Moves Set.univ) s0.frame (shown trace) s.frame)
    (.refl _) ?_
  intro past a records b ih hstep
  obtain ⟨r, rfl, -, -⟩ := hstep.eq_record
  have hcall := (hstep.simulated (hwf.star ih)).1.mono (fun _ _ _ => Moves.mono (Set.subset_univ _))
  have hboth := ih.trans hcall
  simpa [shown] using hboth

theorem Run.simulated (h : Run trace s) :
    Star (Moves Set.univ) (System.init n).frame (shown trace) s.frame :=
  steps_simulated wf_init h

theorem Run.wf (h : Run trace s) : Wf s.frame := wf_init.star h.simulated

theorem Run.record (h : Run trace s) (hr : r ∈ trace) :
    ∃ past, Run past r.before ∧ Step r.before [r] r.after := by
  have hall := h.invariant (I := fun trace s => Run trace s ∧ ∀ r ∈ trace,
    ∃ past, Run past r.before ∧ Step r.before [r] r.after) ⟨.refl _, by simp⟩ ?_
  · exact hall.2 r hr
  rintro past a records b ⟨hpast, ih⟩ hstep
  refine ⟨Star.tail hpast hstep, ?_⟩
  obtain ⟨last, rfl, rfl, rfl⟩ := hstep.eq_record
  intro r hr
  rcases List.mem_append.mp hr with hr | hr
  · exact ih r hr
  · rw [List.mem_singleton] at hr
    subst hr
    exact ⟨past, hpast, hstep⟩

/-- A call that fails reports an error of the interface; it neither panics nor locks up. -/
theorem run_never_faults (h : Run trace s) :
    Star (Moves Set.univ) (System.init n).frame (shown trace) s.frame ∧ Wf s.frame ∧
      ∀ r ∈ trace, ∀ fault, r.outcome = .error fault → ∃ e, fault = .error e := by
  refine ⟨h.simulated, h.wf, fun r hr => ?_⟩
  obtain ⟨past, hpast, hstep⟩ := h.record hr
  exact (hstep.simulated hpast.wf).2

/-- A channel cannot carry its own end, and another one finds no memory. -/
def refusedCalls : List (Call 1) :=
  [⟨.create (.channelCreate 0), none⟩,
    ⟨.channel (.channelWrite 0 (handleFromParts 0 1) [] [handleFromParts 1 1]), none⟩,
    ⟨.create (.channelCreate 0), some 0⟩]

theorem run_never_faults_channel :
    Wf ((System.init 1).execAll refusedCalls).2.frame ∧
      ∃ r ∈ ((System.init 1).execAll refusedCalls).1, ∃ fault e,
        r.outcome = .error fault ∧ fault = .error e := by
  obtain ⟨-, hwf, herror⟩ :=
    run_never_faults (run_execAll (show (System.init 1).validAll refusedCalls by decide +kernel))
  let r := ((System.init 1).execAll refusedCalls).1.getLast (by decide +kernel)
  have hr : r ∈ ((System.init 1).execAll refusedCalls).1 := List.getLast_mem _
  have hrefused : r.outcome = .error (.error .outOfMemory) := by decide +kernel
  exact ⟨hwf, r, hr, _, (herror r hr _ hrefused).imp fun _ hfault => ⟨hrefused, hfault⟩⟩

end Ginkgo.Ipc
