import Ginkgo.Ipc.Control

/-!
# Orderly shutdown

The power task takes a power request through the end of the processes and the synchronizing of the
filesystem to the firmware, and undoes a request that was canceled.  What the rest of the kernel
answers during a poll is an argument of it, and what the task asks of it is logged.
-/

namespace Ginkgo.Kernel.Power

open Ginkgo.Ipc Ginkgo.Lib Ginkgo.Sysapi

structure FsJobId where
  index : UInt16
  generation : UInt32

/-- The jobs that the power task has for the filesystem executor. -/
inductive FsJob
  | checkpointAndWait (maxWritebackSteps : Nat)
  | quiesce
  | resume
  | shutdownDrain (maxWritebackSteps : Nat) (shutdownStorage : Bool)
  deriving DecidableEq

inductive FsResult
  | unit
  | durability (complete : Bool)
  | drain (complete : Bool)

/-- What the firmware supports, and which transition it accepts. -/
structure AcpiPower where
  supports : SystemPowerAction → Bool
  accepts : SystemPowerAction → Bool

/-- What the rest of the kernel answers during a poll. -/
structure Answers where
  nowNs : Nat
  acpiPower : Option AcpiPower
  /-- The processes that are left after a forced termination, the desktop aside. -/
  nonDesktopProcesses : Nat
  isSystemDrained : Bool
  /-- `none` when the filesystem executor refuses a job. -/
  enqueued : Option FsJobId

/-- What happened: a request was canceled, or the task asked something of the kernel. -/
inductive Effect
  | canceled
  | beginShutdown (nowNs : Nat)
  | sendCloseAllWindows
  | forceTerminateAll
  | enqueued (job : FsJob)
  | resumeAfterShutdownCancel
  deriving DecidableEq

/-- The words of a task: the sequence and the phase it saw last, one that nothing reads, the step
of the synchronizing, and a one while it waits for a resume job. -/
abbrev TaskState := List Nat

structure KernelContext where
  powerControl : SystemPowerInfo := .default
  launchQuiesced : Bool := false
  powerJob : Option FsJobId := none
  /-- A job that failed has no result. -/
  powerCompletion : Option (Option FsResult) := none
  state : TaskState := List.replicate 8 0
  log : List Effect := []

namespace KernelContext

variable (answers : Answers) (context : KernelContext)

def note (effects : List Effect) : KernelContext := { context with log := context.log ++ effects }

def fail (status : Status) : KernelContext :=
  { context with powerControl := SystemPowerControl.fail context.powerControl status }

/-- The task's words follow the request. -/
def observe : KernelContext :=
  let info := context.powerControl
  let phase := info.state.ctorIdx
  if context.state[0]? ≠ some info.sequence then
    { context with state := (((context.state.set 0 info.sequence).set 1 phase).set 2 0).set 3 0 }
  else if context.state[1]? ≠ some phase then
    { context with state := (context.state.set 0 info.sequence).set 1 phase }
  else context

def processGraceNs : Nat := 1_000_000_000

def pollRequested : KernelContext :=
  let info := context.powerControl
  if answers.nowNs < info.deadlineNs then context
  else if !answers.acpiPower.any (info.action.any ·.supports) then
    { context.fail .io with launchQuiesced := false }
  else
    let context := { context with launchQuiesced := true }
    match SystemPowerControl.beginQuiescing info (saturatingAdd answers.nowNs processGraceNs) with
    | some info =>
      { context.note [.beginShutdown answers.nowNs, .sendCloseAllWindows] with
        powerControl := info }
    | none => context

def pollQuiescing : KernelContext :=
  if answers.nowNs < context.powerControl.deadlineNs then context
  else
    let context := context.note [.forceTerminateAll]
    if answers.nonDesktopProcesses = 0 ∧ answers.isSystemDrained then
      match SystemPowerControl.beginSynchronizing context.powerControl with
      | some info =>
        { context with
          powerControl := info
          state := context.state.set 3 0
          powerCompletion := none }
      | none => context
    else context

/-- The executor takes a job, or the task tries again at its next poll. -/
def enqueue (job : FsJob) : KernelContext :=
  match answers.enqueued with
  | some id => { context.note [.enqueued job] with powerJob := some id }
  | none => context

def shutdownDrainSteps : Nat := 4096

def synchronizingJob : Nat → Option FsJob
  | 0 => some (.checkpointAndWait shutdownDrainSteps)
  | 1 => some .quiesce
  | 2 => some (.shutdownDrain shutdownDrainSteps true)
  | _ => none

def isComplete : Nat → Option FsResult → Bool
  | 0, some (.durability complete) => complete
  | 1, some (.durability _) => true
  | 2, some (.drain complete) => complete
  | _, _ => false

def pollSynchronizing : KernelContext :=
  let info := context.powerControl
  let phase := context.state[3]?.getD 0
  if context.powerJob.isNone ∧ context.powerCompletion.isNone then
    match synchronizingJob phase with
    | some job => context.enqueue answers job
    | none => context
  else
    match context.powerCompletion with
    | none => context
    | some completion =>
      let context := { context with powerCompletion := none }
      if !isComplete phase completion then context.fail .io
      else if phase < 2 then { context with state := context.state.set 3 (phase + 1) }
      else
        match SystemPowerControl.beginCommitting info (saturatingAdd answers.nowNs 500_000_000) with
        | none => context
        | some info =>
          let context := { context with powerControl := info }
          if answers.acpiPower.any (info.action.any ·.accepts) then context else context.fail .io

def pollCanceled : KernelContext :=
  let context := { context with launchQuiesced := false }
  if context.powerJob.isSome then context
  else if context.state[4]? ≠ some 1 then
    let context := { context with powerCompletion := none }
    match answers.enqueued with
    | some id =>
      { context.note [.enqueued .resume] with
        powerJob := some id
        state := context.state.set 4 1 }
    | none => context
  else if context.powerCompletion.isNone then context
  else
    { context.note [.resumeAfterShutdownCancel] with
      powerCompletion := none
      state := context.state.set 4 0 }

def pollCommitting : KernelContext :=
  if answers.nowNs < context.powerControl.deadlineNs then context else context.fail .timedOut

end KernelContext

def powerTask (answers : Answers) (context : KernelContext) : KernelContext :=
  let context := context.observe
  match context.powerControl.state with
  | .idle | .failed => context
  | .requested => context.pollRequested answers
  | .quiescing => context.pollQuiescing answers
  | .synchronizing => context.pollSynchronizing answers
  | .committing => context.pollCommitting answers
  | .canceled => context.pollCanceled answers

/-- The executor is done with a job of the power task. -/
def completePowerJob (result : Option FsResult) (context : KernelContext) : KernelContext :=
  if context.powerJob.isNone then context
  else { context with powerJob := none, powerCompletion := some result }

inductive Op
  | poll (answers : Answers)
  | request (action : SystemPowerAction) (flags : SystemPowerFlags) (deadlineNs : Nat)
  | cancel
  | complete (result : Option FsResult)

def exec (context : KernelContext) : Op → KernelContext
  | .poll answers => powerTask answers context
  | .request action flags deadlineNs =>
    match SystemPowerControl.request context.powerControl action flags deadlineNs with
    | .ok info => { context with powerControl := info }
    | .error _ => context
  | .cancel =>
    match SystemPowerControl.cancel context.powerControl with
    | .ok info => { context.note [.canceled] with powerControl := info }
    | .error _ => context
  | .complete result => completePowerJob result context

def run (ops : List Op) : KernelContext := ops.foldl exec {}

end Ginkgo.Kernel.Power
