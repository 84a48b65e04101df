import Ginkgo.Kernel.Power

/-!
# Canceled requests are resumed from

After a cancellation the task has the filesystem resumed by one job, and then resumes the
requests.  It does so once for each cancellation as long as no new request comes in between, and
then once more for each further poll that finds the canceled state and an executor that takes
the job.
-/

namespace Ginkgo.Kernel.Power

open Ginkgo.Ipc Ginkgo.Lib Ginkgo.Sysapi List KernelContext

def Effect.isResuming : Effect → Bool
  | canceled | enqueued .resume | resumeAfterShutdownCancel => true
  | _ => false

/-- The cancellations and what was done to resume from them. -/
def resumings (log : List Effect) : List Effect := log.filter Effect.isResuming

/-- One job and one resumption. -/
def again : List Effect := [.enqueued .resume, .resumeAfterShutdownCancel]

/-- A cancellation that was resumed from once and then this often again. -/
def resumed (further : Nat) : List Effect :=
  .canceled :: (replicate (further + 1) again).flatten

/-- A poll now resumes. -/
def KernelContext.resumes (context : KernelContext) : Bool :=
  context.powerControl.state = .canceled && context.powerJob.isNone &&
    context.state[4]? = some 1 && context.powerCompletion.isSome

/-- A run, with whether the last cancellation is still to be resumed from, and how often a poll
found it resumed from and had the executor take one more job. -/
structure Resuming where
  context : KernelContext := {}
  pending : Bool := false
  further : Nat := 0

def Resuming.isPending (r : Resuming) : Op → Bool
  | .cancel => r.pending || r.context.powerControl.state = .requested
  | .poll _ => r.pending && !r.context.resumes
  | _ => r.pending

def Resuming.isFurther (r : Resuming) : Op → Bool
  | .poll answers => !r.pending && r.context.powerControl.state = .canceled &&
    r.context.powerJob.isNone && r.context.state[4]? ≠ some 1 && answers.enqueued.isSome
  | _ => false

def Resuming.exec (r : Resuming) (op : Op) : Resuming :=
  ⟨Power.exec r.context op, r.isPending op, r.further + (r.isFurther op).toNat⟩

/-- No request is accepted between a cancellation and the resumption from it, or while the task
waits for a job to resume. -/
def Resuming.orderly (r : Resuming) : Op → Bool
  | .request action flags deadlineNs =>
    !(r.pending || r.context.state[4]? = some 1) ||
      !(SystemPowerControl.request r.context.powerControl action flags deadlineNs).isOk
  | _ => true

/-- How far the task has come with the last cancellation, after those resumed from. -/
inductive Stage (context : KernelContext) : Bool → List Nat → List Effect → Prop
  | settled {counts : List Nat} (hword : context.state[4]? = some 0)
      (hjob : context.powerControl.state ≠ .synchronizing → context.powerJob = none)
      (hresumed : context.powerControl.state = .canceled → counts ≠ []) :
      Stage context false counts []
  | canceled {counts : List Nat} (hword : context.state[4]? = some 0)
      (hstate : context.powerControl.state = .canceled) (hjob : context.powerJob = none) :
      Stage context true counts [.canceled]
  | enqueued {pending : Bool} {counts : List Nat} (hword : context.state[4]? = some 1)
      (hstate : context.powerControl.state = .canceled)
      (hjob : context.powerJob = none → context.powerCompletion.isSome)
      (hresumed : pending = false → counts ≠ []) :
      Stage context pending counts ((if pending then [.canceled] else []) ++ [.enqueued .resume])

structure Inv (context : KernelContext) (pending : Bool) (further : Nat) : Prop where
  single : context.powerJob.isSome → context.powerCompletion = none
  cycles : ∃ counts rest, resumings context.log = (counts.map resumed).flatten ++ rest ∧
    further = counts.sum + (if rest = [.enqueued .resume] then 1 else 0) ∧
    Stage context pending counts rest

theorem resumings_concat {log past rest : List Effect} {effect : Effect}
    (h : resumings log = past ++ rest) (heffect : effect.isResuming) :
    resumings (log ++ [effect]) = past ++ (rest ++ [effect]) := by
  rw [resumings, filter_append, filter_cons_of_pos heffect, ← append_assoc]
  exact congrArg (· ++ [effect]) h

theorem resumed_succ (further : Nat) : resumed (further + 1) = resumed further ++ again := by
  rw [resumed, replicate_succ', flatten_append, flatten_singleton]
  rfl

theorem observe_eq (context : KernelContext) : ∃ words : TaskState,
    words[4]? = context.state[4]? ∧ context.observe = { context with state := words } := by
  simp only [observe]
  split
  · exact ⟨_, by simp, rfl⟩
  · split
    · exact ⟨_, by simp, rfl⟩
    · exact ⟨context.state, rfl, rfl⟩

theorem transition_of_state {info : SystemPowerInfo} {expected : SystemPowerState}
    (h : info.state = expected) (next : SystemPowerState) (deadlineNs : Nat) :
    SystemPowerControl.transition info expected next deadlineNs =
      some { info with state := next, deadlineNs := deadlineNs } :=
  if_neg (not_not.mpr h)

namespace Inv

variable {context context' : KernelContext} {pending : Bool} {further : Nat} {answers : Answers}
  (h : Inv context pending further)
include h

theorem idle {state : SystemPowerState} (hstate : context.powerControl.state = state)
    (hcanceled : state ≠ .canceled) (hsync : state ≠ .synchronizing) :
    context.powerControl.state ≠ .canceled ∧ context.powerJob = none := by
  subst hstate
  obtain ⟨_, _, _, _, hstage⟩ := h.cycles
  cases hstage with
  | settled _ hjob _ => exact ⟨hcanceled, hjob hsync⟩
  | canceled _ hstate _ | enqueued _ hstate _ _ => exact absurd hstate hcanceled

/-- While no request is canceled nothing is resumed from. -/
theorem settle (hstate : context.powerControl.state ≠ .canceled)
    (hstate' : context'.powerControl.state ≠ .canceled)
    (hword : context'.state[4]? = context.state[4]?)
    (hlog : resumings context'.log = resumings context.log)
    (hsingle : context'.powerJob.isSome → context'.powerCompletion = none)
    (hjob : context'.powerControl.state ≠ .synchronizing → context'.powerJob = none) :
    Inv context' pending further := by
  obtain ⟨counts, rest, hcycles, hfurther, hstage⟩ := h.cycles
  refine ⟨hsingle, counts, rest, hlog.trans hcycles, hfurther, ?_⟩
  cases hstage with
  | settled hzero _ _ => exact .settled (hword.trans hzero) hjob fun hc => absurd hc hstate'
  | canceled _ hcanceled _ | enqueued _ hcanceled _ _ => exact absurd hcanceled hstate

theorem words {words : TaskState} (hword : words[4]? = context.state[4]?) :
    Inv { context with state := words } pending further := by
  obtain ⟨counts, rest, hcycles, hfurther, hstage⟩ := h.cycles
  refine ⟨h.single, counts, rest, hcycles, hfurther, ?_⟩
  cases hstage with
  | settled hzero hjob hresumed => exact .settled (hword.trans hzero) hjob hresumed
  | canceled hzero hstate hjob => exact .canceled (hword.trans hzero) hstate hjob
  | enqueued hone hstate hjob hresumed =>
    exact .enqueued (hword.trans hone) hstate hjob hresumed

theorem pollRequested (hstate : context.powerControl.state = .requested) :
    Inv (context.pollRequested answers) pending further := by
  obtain ⟨hcanceled, hjob⟩ := h.idle hstate nofun nofun
  simp only [KernelContext.pollRequested, SystemPowerControl.beginQuiescing,
    transition_of_state hstate]
  split
  · exact h
  · split
    · exact h.settle hcanceled nofun rfl rfl h.single fun _ => hjob
    · refine h.settle hcanceled nofun rfl ?_ h.single fun _ => hjob
      simp [KernelContext.note, resumings, Effect.isResuming]

theorem pollQuiescing (hstate : context.powerControl.state = .quiescing) :
    Inv (context.pollQuiescing answers) pending further := by
  obtain ⟨hcanceled, hjob⟩ := h.idle hstate nofun nofun
  have hlog : resumings (context.note [.forceTerminateAll]).log = resumings context.log := by
    simp [KernelContext.note, resumings, Effect.isResuming]
  simp only [KernelContext.pollQuiescing, SystemPowerControl.beginSynchronizing,
    KernelContext.note, transition_of_state hstate]
  split
  · exact h
  · split
    · exact h.settle hcanceled nofun (by simp) hlog (fun _ => rfl) (absurd rfl)
    · exact h.settle hcanceled hcanceled rfl hlog h.single fun _ => hjob

theorem pollSynchronizing (hstate : context.powerControl.state = .synchronizing) :
    Inv (context.pollSynchronizing answers) pending further := by
  have hcanceled : context.powerControl.state ≠ .canceled := hstate ▸ nofun
  simp only [KernelContext.pollSynchronizing, SystemPowerControl.beginCommitting,
    transition_of_state hstate]
  split
  · rename_i hidle
    split
    · rename_i job hjob
      unfold KernelContext.enqueue
      split
      · refine h.settle hcanceled hcanceled rfl ?_ (fun _ => Option.isNone_iff_eq_none.mp hidle.2)
          (absurd hstate)
        have hother : (Effect.enqueued job).isResuming = false := by
          unfold synchronizingJob at hjob
          split at hjob <;> cases hjob <;> rfl
        simp [KernelContext.note, resumings, hother]
      · exact h
    · exact h
  · split
    · exact h
    · rename_i completion hcompletion
      -- the job that was waited for is done
      have hjob : context.powerJob = none := by
        refine Option.not_isSome_iff_eq_none.mp fun hsome => ?_
        cases hcompletion.symm.trans (h.single hsome)
      split
      · exact h.settle hcanceled nofun rfl rfl (fun _ => rfl) fun _ => hjob
      · split
        · exact h.settle hcanceled hcanceled (by simp) rfl (fun _ => rfl) fun _ => hjob
        · split
          · exact h.settle hcanceled nofun rfl rfl (fun _ => rfl) fun _ => hjob
          · exact h.settle hcanceled nofun rfl rfl (fun _ => rfl) fun _ => hjob

theorem pollCommitting (hstate : context.powerControl.state = .committing) :
    Inv (context.pollCommitting answers) pending further := by
  obtain ⟨hcanceled, hjob⟩ := h.idle hstate nofun nofun
  unfold KernelContext.pollCommitting
  split
  · exact h
  · exact h.settle hcanceled nofun rfl rfl h.single fun _ => hjob

theorem pollCanceled (answers : Answers) (hstate : context.powerControl.state = .canceled) :
    let r := Resuming.exec ⟨context, pending, further⟩ (.poll answers)
    Inv (context.pollCanceled answers) r.pending r.further := by
  obtain ⟨counts, rest, hcycles, hfurther, hstage⟩ := h.cycles
  simp only [KernelContext.pollCanceled, Resuming.exec, Resuming.isPending, Resuming.isFurther,
    resumes, hstate]
  cases hstage with
  | settled hword hjob hresumed =>
    have hjob : context.powerJob = none := hjob (hstate ▸ nofun)
    simp only [hjob, hword]
    cases answers.enqueued with
    | none =>
      exact ⟨nofun, counts, [], hcycles, by simpa using hfurther,
        .settled hword (fun _ => rfl) hresumed⟩
    | some id =>
      -- word 4 went back to 0 at the resumption: the job is enqueued once more
      refine ⟨fun _ => rfl, counts, _, resumings_concat hcycles rfl, by simp [hfurther],
        @Stage.enqueued _ false _ ?_ hstate nofun fun _ => hresumed hstate⟩
      exact getElem?_set_self (lt_length hword)
  | canceled hword _ hjob =>
    simp only [hjob, hword]
    cases answers.enqueued with
    | none =>
      exact ⟨nofun, counts, [.canceled], hcycles, by simpa using hfurther,
        .canceled hword hstate rfl⟩
    | some id =>
      refine ⟨fun _ => rfl, counts, _, resumings_concat hcycles rfl, by simpa using hfurther,
        @Stage.enqueued _ true _ ?_ hstate nofun nofun⟩
      exact getElem?_set_self (lt_length hword)
  | enqueued hword _ hjob hresumed =>
    split
    · rename_i hsome
      simp only [Option.isNone_eq_false_iff.mpr hsome]
      cases pending <;> exact ⟨h.single, counts, _, hcycles, by simpa using hfurther,
        .enqueued hword hstate hjob hresumed⟩
    · rename_i hnone
      have hnone : context.powerJob = none := Option.not_isSome_iff_eq_none.mp hnone
      obtain ⟨result, hresult⟩ := Option.isSome_iff_exists.mp (hjob hnone)
      simp only [hnone, hword, hresult]
      have hlog : resumings (context.log ++ [.resumeAfterShutdownCancel]) = _ :=
        resumings_concat hcycles rfl
      have hword' : (context.state.set 4 0)[4]? = some 0 := getElem?_set_self (lt_length hword)
      cases pending with
      | true =>
        refine ⟨fun _ => rfl, counts ++ [0], [], ?_, by simpa using hfurther, ?_⟩
        · rw [map_append, flatten_append, append_nil]
          exact hlog
        · exact .settled hword' (fun _ => rfl) (by simp)
      | false =>
        -- a job that was enqueued once more belongs to the last cancellation
        obtain ⟨counts, last, rfl⟩ := (eq_nil_or_concat counts).resolve_left (hresumed rfl)
        refine ⟨fun _ => rfl, counts ++ [last + 1], [], ?_, ?_, ?_⟩
        · simp only [map_append, flatten_append, map_cons, map_nil, flatten_cons, flatten_nil,
            append_nil, resumed_succ] at hlog ⊢
          simpa [again, KernelContext.note] using hlog
        · simp at hfurther ⊢
          omega
        · exact .settled hword' (fun _ => rfl) (by simp)

theorem poll :
    let r := Resuming.exec ⟨context, pending, further⟩ (.poll answers)
    Inv r.context r.pending r.further := by
  obtain ⟨words, hword, heq⟩ := observe_eq context
  have h' := h.words hword
  have hkeep (hstate : context.powerControl.state ≠ .canceled)
      (hpoll : Inv (powerTask answers context) pending further) :
      let r := Resuming.exec ⟨context, pending, further⟩ (.poll answers)
      Inv r.context r.pending r.further := by
    simpa [Resuming.exec, exec, Resuming.isPending, Resuming.isFurther, resumes, hstate] using hpoll
  rw [powerTask, heq] at hkeep
  cases hstate : context.powerControl.state with
  | canceled =>
    have hpoll := h'.pollCanceled answers hstate
    simp only [Resuming.exec, Resuming.isPending, Resuming.isFurther, resumes, hword] at hpoll
    simpa only [Resuming.exec, Resuming.isPending, Resuming.isFurther, resumes, exec, powerTask,
      heq, hstate] using hpoll
  | idle | failed => exact hkeep (hstate ▸ nofun) (by simpa only [hstate] using h')
  | requested =>
    exact hkeep (hstate ▸ nofun) (by simpa only [hstate] using h'.pollRequested hstate)
  | quiescing =>
    exact hkeep (hstate ▸ nofun) (by simpa only [hstate] using h'.pollQuiescing hstate)
  | synchronizing =>
    exact hkeep (hstate ▸ nofun) (by simpa only [hstate] using h'.pollSynchronizing hstate)
  | committing =>
    exact hkeep (hstate ▸ nofun) (by simpa only [hstate] using h'.pollCommitting hstate)

theorem request {action : SystemPowerAction} {flags : SystemPowerFlags} {deadlineNs : Nat}
    (horderly : Resuming.orderly ⟨context, pending, further⟩ (.request action flags deadlineNs)) :
    Inv (exec context (.request action flags deadlineNs)) pending further := by
  unfold Resuming.orderly at horderly
  simp only [exec]
  cases hrequest : SystemPowerControl.request context.powerControl action flags deadlineNs with
  | error => exact h
  | ok info =>
    obtain ⟨hnext, hsync⟩ : info.state = .requested ∧
        context.powerControl.state ≠ .synchronizing := by
      unfold SystemPowerControl.request at hrequest
      grind
    obtain ⟨counts, rest, hcycles, hfurther, hstage⟩ := h.cycles
    simp only [hrequest] at horderly
    -- an orderly request is accepted only with nothing left to resume from
    cases hstage with
    | settled hword hjob _ =>
      refine ⟨h.single, counts, [], hcycles, hfurther,
        .settled hword (fun _ => hjob hsync) fun hstate => ?_⟩
      cases hnext.symm.trans hstate
    | canceled => cases horderly
    | enqueued hword => simp [hword, Except.isOk, Except.toBool] at horderly

theorem cancel :
    let r := Resuming.exec ⟨context, pending, further⟩ .cancel
    Inv r.context r.pending r.further := by
  simp only [Resuming.exec, Resuming.isPending, Resuming.isFurther, exec,
    SystemPowerControl.cancel]
  by_cases hstate : context.powerControl.state = .requested
  · obtain ⟨counts, rest, hcycles, hfurther, hstage⟩ := h.cycles
    simp only [hstate]
    cases hstage with
    | settled hword hjob _ =>
      refine ⟨h.single, counts, _, resumings_concat hcycles rfl, hfurther,
        .canceled hword rfl (hjob ?_)⟩
      exact hstate ▸ nofun
    | canceled _ hcanceled _ | enqueued _ hcanceled _ _ => cases hstate.symm.trans hcanceled
  · simpa [hstate] using h

theorem complete (result : Option FsResult) :
    Inv (completePowerJob result context) pending further := by
  unfold completePowerJob
  split
  · exact h
  · obtain ⟨counts, rest, hcycles, hfurther, hstage⟩ := h.cycles
    refine ⟨nofun, counts, rest, hcycles, hfurther, ?_⟩
    cases hstage with
    | settled hword _ hresumed => exact .settled hword (fun _ => rfl) hresumed
    | canceled hword hstate _ => exact .canceled hword hstate rfl
    | enqueued hword hstate _ hresumed => exact .enqueued hword hstate (fun _ => rfl) hresumed

theorem exec {op : Op} (horderly : Resuming.orderly ⟨context, pending, further⟩ op) :
    let r := Resuming.exec ⟨context, pending, further⟩ op
    Inv r.context r.pending r.further := by
  cases op with
  | poll answers => exact h.poll
  | request => exact h.request horderly
  | cancel => exact h.cancel
  | complete result => exact h.complete result

end Inv

/-- Everything is accepted at once. -/
def accepted : Answers :=
  ⟨0, some ⟨fun _ => true, fun _ => true⟩, 0, true, some ⟨0, 0⟩⟩

end Ginkgo.Kernel.Power
