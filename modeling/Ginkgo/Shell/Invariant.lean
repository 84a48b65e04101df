import Ginkgo.Shell.Aliases

/-!
# What every evaluation keeps

One induction over the fuel of `execute` carries all limits: the instruction count, the
number of nested frames against the call depth and the active scripts, and the aliases.
-/

namespace Ginkgo.Shell

open Ginkgo.Lib List

variable {σ α β : Type}

/-- What an event of a trace may say. -/
def Event.Allowed : Event → Prop
  | .executed => True
  | .entered frames scripts => frames ≤ maxCallDepth + 1 + scripts.length
  | .activated scripts => scripts.Nodup
  | .defining aliases => Resolves aliases
  | .aliasCycle _ => False

/-- However the evaluation goes on or ends. -/
structure Bounded (trace : List Event) (completed included : List String)
    (aliases : AliasMap) : Prop where
  executed : trace.count .executed ≤ maxInstructions
  allowed : ∀ event ∈ trace, event.Allowed
  resolves : Resolves aliases
  nodup : completed.Nodup
  included : completed ⊆ included

/-- Where a frame stands. -/
structure Level where
  depth : Nat
  scripts : List String

/-- The frames up to one at this level. -/
def Level.frames (l : Level) : Nat := l.depth + l.scripts.length + 1

/-- After a fault the call depth and the active scripts are those of the level. -/
structure Left (l : Level) (s : State σ) : Prop where
  bounded : Bounded s.trace s.completed s.interpreter.includedPaths s.interpreter.aliases
  callDepth : s.execution.callDepth = l.depth
  activeScripts : s.interpreter.activeScripts = l.scripts

/-- While an evaluation with this much fuel goes on.  No path of `p` has completed: these
are the scripts whose inclusion is under way. -/
structure At (fuel : Nat) (l : Level) (p : List String) (s : State σ) : Prop extends Left l s where
  counted : s.trace.count .executed = s.execution.instructions
  limit : s.execution.instructions ≤ maxInstructions
  fuel : maxInstructions < fuel + s.execution.instructions
  depth_le : l.depth ≤ maxCallDepth
  nodup : l.scripts.Nodup
  pending : ∀ path ∈ p, path ∉ s.completed

/-- The program leads from `p` to `q` at one level and never runs out of fuel. -/
def Safe (fuel : Nat) (l : Level) (p q : List String) (x : Run σ α) : Prop :=
  ∀ s, At fuel l p s → wp x (fun _ => At fuel l q) (fun halt s' => halt ≠ .outOfFuel ∧ Left l s') s

variable {fuel : Nat} {l m : Level} {p q r : List String} {x : Run σ α}
  {f : α → Run σ β} {s : State σ} {event : Event}

namespace Safe

theorem ok (value : α) : Safe fuel l p p (pure value : Run σ α) := fun _ h => wp_pure h

theorem fault (fault : Fault) : Safe fuel l p q (lift (.error fault) : Run σ α) :=
  fun _ h => wp_throw ⟨nofun, h.toLeft⟩

theorem lift (result : Except Fault α) : Safe fuel l p p (lift result : Run σ α) := by
  cases result with
  | ok value => exact ok value
  | error e => exact fault e

theorem bind (hx : Safe fuel l p q x) (hf : ∀ a, Safe fuel l q r (f a)) :
    Safe fuel l p r (x >>= f) :=
  fun s h => wp_seq (hx s h) hf

theorem read {k : State σ → Run σ α} (h : ∀ s, At fuel l p s → Safe fuel l p q (k s)) :
    Safe fuel l p q (get >>= k) :=
  fun s hs => wp_get (h s hs s hs)

theorem update {g : State σ → State σ} (h : ∀ s, At fuel l p s → At fuel l q (g s)) :
    Safe fuel l p q (modify g : Run σ PUnit) :=
  fun s hs => wp_modify (h s hs)

theorem ite {c : Prop} [Decidable c] {y : Run σ α} (hx : c → Safe fuel l p q x)
    (hy : ¬c → Safe fuel l p q y) : Safe fuel l p q (if c then x else y) :=
  fun s h => wp_ite (fun hc => hx hc s h) (fun hc => hy hc s h)

theorem note (hallowed : event.Allowed) (hne : event ≠ .executed) :
    Safe fuel l p p (note event : Run σ Unit) := by
  refine update fun s h => ?_
  have hcount : (event :: s.trace).count .executed = s.trace.count .executed :=
    count_cons_of_ne hne
  exact { h with
    bounded := { h.bounded with
      executed := hcount ▸ h.bounded.executed
      allowed := forall_mem_cons.mpr ⟨hallowed, h.bounded.allowed⟩ }
    counted := hcount.trans h.counted }

theorem within {deeper leave : State σ → State σ} (hbody : Safe fuel m p p x)
    (hin : ∀ s, At fuel l p s → At fuel m p (deeper s))
    (hout : ∀ s, At fuel m p s → At fuel l p (leave s))
    (hfault : ∀ s, Left m s → Left l (leave s)) :
    Safe fuel l p p (within deeper leave x) := by
  intro s h
  refine wp_modify_bind (wp_bind (wp_attempt (wp_mono (hbody _ (hin s h)) ?_ ?_)))
  · exact fun value s' h' => wp_modify_bind (wp_pure (hout s' h'))
  · exact fun halt s' h' => wp_modify_bind (wp_throw ⟨h'.1, hfault s' h'.2⟩)

/-- What `execute` does in the frame above one at level `l`. -/
def Above (fuel : Nat) (l : Level) (execute : Chunk → Map → Run σ Value) : Prop :=
  ∀ m : Level, m.frames = l.frames + 1 → ∀ p ⊆ m.scripts, ∀ body locals,
    Safe fuel m p p (execute body locals)

section Step

variable {chunk : Chunk} {location : Location} {frame : Frame} {host : Host σ}
  {load : Loader} {path : String}
  {execute : Chunk → Map → Run σ Value}

theorem askHost {ask : σ → Except String α × σ} : Safe fuel l p p (askHost chunk location ask) :=
  read fun _ _ => bind (update fun _ h => { h with bounded := h.bounded }) fun _ => lift _

theorem complete {value : Value} (hpath : path ∉ p) :
    Safe fuel l (path :: p) p (complete path value : Run σ Value) := by
  refine bind (update fun s h => ?_) fun _ => ok value
  have hnew := h.pending path mem_cons_self
  exact { h with
    bounded := { h.bounded with
      nodup := nodup_cons.mpr ⟨hnew, h.bounded.nodup⟩
      included := cons_subset_cons path h.bounded.included }
    pending := fun other hother => not_mem_cons_of_ne_of_not_mem
      (ne_of_mem_of_not_mem hother hpath) (h.pending other (mem_cons_of_mem _ hother)) }

theorem script {source : String} (hexecute : Above fuel l execute) (hpath : path ∉ l.scripts)
    (hp : p ⊆ path :: l.scripts) :
    Safe fuel l p p (runScript load execute source path) := by
  have hsub : p ⊆ l.scripts ++ [path] := fun other hother => by simpa [or_comm] using hp hother
  refine within (m := ⟨l.depth, l.scripts ++ [path]⟩)
    (read fun s h => bind (note (h.activeScripts ▸ h.nodup) nofun) fun _ => bind (lift _)
      fun _ => hexecute _ (by simp only [Level.frames, length_append]; rfl) p hsub _ _)
    (fun s h => { h with
      activeScripts := congrArg (· ++ [path]) h.activeScripts
      nodup := nodup_append.mpr ⟨h.nodup, by simp, fun other hother last hlast
        heq => hpath (mem_singleton.mp hlast ▸ heq ▸ hother)⟩ })
    (fun s h => { h with
      activeScripts := (congrArg dropLast h.activeScripts).trans dropLast_concat
      nodup := (nodup_append.mp h.nodup).1 })
    (fun s h => { h with
      activeScripts := (congrArg dropLast h.activeScripts).trans dropLast_concat })

theorem execDefineAlias {name target : String} :
    Safe fuel l p p (execDefineAlias chunk location frame name target : Run σ _) := by
  refine read fun s h => bind (note h.bounded.resolves nofun) fun _ => bind
    (update fun s' h' => { h' with bounded := { h'.bounded with
      resolves := h.bounded.resolves.defineAlias } }) fun _ => ?_
  exact ite (fun _ => ok _) fun _ => fault _

section

variable (hexecute : Above fuel l execute) (hp : p ⊆ l.scripts)
include hexecute hp

theorem callFunction {name : String} {function : UserFunction} {args : List Value} :
    Safe fuel l p p (callFunction chunk location execute name function args) := by
  refine read fun s h => ite (fun _ => fault _) fun _ => ite (fun _ => fault _) fun hd => ?_
  rw [h.callDepth, not_le] at hd
  refine within (hexecute ⟨l.depth + 1, l.scripts⟩ (by simp only [Level.frames]; omega) p hp _ _)
    (fun s h => { h with callDepth := congrArg (· + 1) h.callDepth, depth_le := hd })
    (fun s h => { h with callDepth := congrArg (· - 1) h.callDepth, depth_le := hd.le })
    (fun s h => { h with callDepth := congrArg (· - 1) h.callDepth })

theorem dispatch {name : String} {args : List Value} :
    Safe fuel l p p (dispatch chunk location host execute name args) := by
  refine ite (fun _ => askHost) fun _ => read fun s h => ?_
  split
  · next hnone => exact absurd hnone (Option.isSome_iff_ne_none.mp (h.bounded.resolves _))
  · dsimp only
    split
    · exact callFunction hexecute hp
    · exact askHost

theorem executeScript {operation : String} {once : Bool} :
    Safe fuel l p p (executeScript chunk location load host execute path once operation) := by
  intro s h
  refine wp_get (wp_ite (fun _ => fault _ s h) fun hactive =>
    wp_ite (fun _ => ok _ s h) fun honce => ?_)
  rw [h.activeScripts] at hactive
  cases once with
  | false =>
    exact bind askHost (fun source => ite (fun _ => fault _) fun _ =>
      bind (script hexecute hactive fun _ hmem => .tail _ (hp hmem)) fun _ => ok _) s h
  | true =>
    exact bind askHost (fun source => ite (fun _ => fault _) fun _ =>
      bind (script hexecute hactive (cons_subset_cons path hp)) fun _ =>
        complete fun hmem => hactive (hp hmem)) s
      { h with pending := forall_mem_cons.mpr ⟨fun hdone =>
          honce ⟨rfl, h.bounded.included hdone⟩, h.pending⟩ }

theorem step {locals : Map} (instruction : Instruction) :
    Safe fuel l p p (step chunk location frame load host execute locals instruction) := by
  cases instruction with
  | loadGlobal dst name =>
    refine read fun s h => ?_
    split <;> exact lift _
  | storeGlobal name src =>
    exact bind (lift _) fun value => bind (update fun s h => { h with }) fun _ => ok _
  | defineFunction name parameters body =>
    exact bind (update fun s h => { h with }) fun _ => ok _
  | jump => exact ok _
  | glob => exact bind askHost fun _ => lift _
  | call => exact bind (lift _) fun _ => bind (dispatch hexecute hp) fun _ => lift _
  | defineAlias => exact execDefineAlias
  | includePath | run => exact bind (executeScript hexecute hp) fun _ => lift _
  | _ => exact lift _

end

theorem enter {body : Frame → Run σ Value} (hbody : ∀ frame, Safe fuel l p p (body frame)) :
    Safe fuel l p p (enter l.frames body chunk) := by
  refine read fun s h => bind (note ?_ nofun) fun _ => hbody _
  have hdepth := h.depth_le
  rw [h.activeScripts, Event.Allowed, Level.frames]
  omega

theorem fetch (h : At (fuel + 1) l p s) : wp (fetch chunk location) (fun _ => At fuel l p)
      (fun halt s' => halt ≠ .outOfFuel ∧ Left l s') s := by
  refine wp_modify_bind (wp_get (wp_ite
    (fun _ => ⟨nofun, { h.toLeft with }⟩) fun hlimit => wp_modify ?_))
  have hcount : (Event.executed :: s.trace).count .executed = s.execution.instructions + 1 := by
    rw [count_cons_self, h.counted]
  exact { h with
    bounded := { h.bounded with
      executed := hcount.le.trans (not_lt.mp hlimit)
      allowed := forall_mem_cons.mpr ⟨trivial, h.bounded.allowed⟩ }
    counted := hcount
    limit := not_lt.mp hlimit
    fuel := (Nat.succ_add_eq_add_succ fuel _) ▸ h.fuel }

end Step

theorem execute {load : Loader} {host : Host σ} {chunk : Chunk}
    {locals : Map} {frame : Frame} (hp : p ⊆ l.scripts) :
    Safe fuel l p p (execute load host fuel l.frames chunk locals frame) := by
  induction fuel generalizing l p chunk locals frame with
  | zero =>
    intro s h
    have hfuel := h.fuel
    have hlimit := h.limit
    omega
  | succ fuel ih =>
    intro s h
    rw [Shell.execute]
    split
    · exact wp_pure h
    · refine wp_seq (fetch h) fun _ s h => ?_
      have habove : Above fuel l fun body locals => Shell.enter (l.frames + 1)
          (Shell.execute load host fuel (l.frames + 1) body locals) body := by
        intro m hframes p hp body locals
        rw [← hframes]
        exact enter fun frame => ih hp
      have hmore {x : Run σ Value} (hx : Safe fuel l p p x) (s : State σ) (h : At fuel l p s) :
          wp x (fun _ => At (fuel + 1) l p) (fun halt s => halt ≠ .outOfFuel ∧ Left l s) s :=
        wp_mono (hx s h) (fun _ _ h => { h with fuel := by have := h.fuel; omega }) fun _ _ h => h
      exact hmore (bind (step habove hp _) fun progress => by
        cases progress with
        | returned value => exact ok value
        | next frame => exact ih hp) s h

end Safe

section Eval

variable {load : Loader} {host : Host σ} {world : σ} {source sourceName : String}

theorem Safe.outermost {chunk : Chunk} :
    Safe fuel ⟨0, []⟩ [] [] (Shell.enter 1 (Shell.execute load host fuel 1 chunk []) chunk) :=
  enter fun _ => execute (nil_subset _)

theorem eval_left (h : Left ⟨0, []⟩ s) :
    wp (eval load host source sourceName) (fun _ => Left ⟨0, []⟩)
      (fun halt s' => halt ≠ .outOfFuel ∧ Left ⟨0, []⟩ s') { s with host := world } := by
  unfold eval
  have hstart : At (maxInstructions + 1) ⟨0, []⟩ []
      { s with host := world, trace := [], execution := {} } :=
    { bounded := { h.bounded with executed := Nat.zero_le _, allowed := nofun }
      callDepth := rfl
      activeScripts := h.activeScripts
      counted := rfl
      limit := Nat.zero_le _
      fuel := Nat.lt_add_right 0 (Nat.lt_succ_self maxInstructions)
      depth_le := Nat.zero_le _
      nodup := nodup_nil
      pending := nofun }
  refine wp_mono (wp_ite (fun _ => Safe.fault (q := []) _ _ hstart) fun _ => ?_)
    (fun _ _ h' => h'.toLeft) fun _ _ h' => h'
  exact Safe.bind (Safe.lift _) (fun _ => Safe.outermost) _ hstart

theorem Reachable.left (h : Reachable s) : Left ⟨0, []⟩ s := by
  induction h with
  | new host =>
    exact ⟨⟨Nat.zero_le _, nofun, resolves_nil, nodup_nil, nofun⟩, rfl, rfl⟩
  | eval load host world source sourceName _ returned ih =>
    obtain ⟨value, heval⟩ | ⟨error, heval⟩ := returned
    · exact wp_ok (a := value) (eval_left ih) heval
    · exact (wp_error (eval_left ih) heval).2

end Eval

/-- The script at a path of fewer than 33 letters includes the path one letter longer. -/
def chainHost : Host Unit where
  call _ _ _ _ := (.error "no such command", ())
  includePath path _ := (.ok (if path.length < 33 then path ++ "a" else ""), ())
  glob _ _ := (.ok [], ())

/-- The empty text, or the path of the one inclusion it asks for. -/
def chainLoad (source sourceName : String) : Except Error Chunk :=
  .ok (if source.isEmpty then
    ⟨sourceName, 1, [(⟨1, 1⟩, .constant 0 .unit), (⟨1, 1⟩, .ret 0)]⟩
  else
    ⟨sourceName, 2, [(⟨1, 1⟩, .constant 0 .unit), (⟨1, 1⟩, .includePath 1 source),
      (⟨1, 1⟩, .ret 1)]⟩)

/-- The limits an evaluation keeps.  Only the frames of functions are limited by the
call depth; a frame of a script counts towards the scripts active. -/
def WithinLimits (s : State σ) : Prop :=
  s.trace.count .executed ≤ maxInstructions ∧ (∀ frames scripts, .entered frames scripts ∈ s.trace →
      frames ≤ maxCallDepth + 1 + scripts.length) ∧
    (∀ scripts, .activated scripts ∈ s.trace → scripts.Nodup) ∧
    s.interpreter.activeScripts = [] ∧ s.execution.callDepth = 0 ∧ s.completed.Nodup

theorem Left.withinLimits (h : Left ⟨0, []⟩ s) : WithinLimits s :=
  ⟨h.bounded.executed, fun _ _ hmem => h.bounded.allowed _ hmem,
    fun _ hmem => h.bounded.allowed _ hmem, h.activeScripts, h.callDepth, h.bounded.nodup⟩

theorem eval_withinLimits (h : Reachable s) (load : Loader)
    (host : Host σ) (world : σ) (source sourceName : String) :
    wp (eval load host source sourceName) (fun _ => WithinLimits)
      (fun halt s' => halt ≠ .outOfFuel ∧ WithinLimits s') { s with host := world } :=
  wp_mono (eval_left h.left) (fun _ _ h' => h'.withinLimits) fun _ _ h' => ⟨h'.1, h'.2.withinLimits⟩

theorem eval_withinLimits_new : wp (eval chainLoad chainHost "a" "<input>")
    (fun _ => WithinLimits) (fun halt s' => halt ≠ .outOfFuel ∧ WithinLimits s')
    { State.new () with host := () } :=
  eval_withinLimits (.new ()) chainLoad chainHost () "a" "<input>"

/-- Thirty-three scripts that include each other in a row run in thirty-four frames. -/
theorem eval_nestsScripts : (match eval chainLoad chainHost "a" "<input>" (.new ()) with
    | .ok _ s => s.trace.any fun
      | .entered frames _ => maxCallDepth + 1 < frames
      | _ => false
    | .error _ _ => false) = true := by
  decide +kernel

/-- No name failed to resolve, also where an alias was about to be defined. -/
def AliasesSound (s : State σ) : Prop :=
  (∀ name, .aliasCycle name ∉ s.trace) ∧
    ∀ aliases, .defining aliases ∈ s.trace → Resolves aliases

theorem Left.aliasesSound (h : Left l s) : AliasesSound s :=
  ⟨fun _ hmem => h.bounded.allowed _ hmem, fun _ hmem => h.bounded.allowed _ hmem⟩

/-- A definition is refused exactly if it would close a cycle, and then changes no alias. -/
theorem wp_execDefineAlias (chunk : Chunk) (location : Location) (frame : Frame)
    (name target : String) (h : Resolves s.interpreter.aliases) :
    wp (execDefineAlias chunk location frame name target)
      (fun progress s' => progress = .next frame ∧
        ¬HasCycle (insertKey name target s.interpreter.aliases) ∧
        s'.interpreter.aliases = insertKey name target s.interpreter.aliases)
      (fun halt s' => halt = .fault (runtimeError chunk location
          s!"alias `{name}` creates a cycle") ∧
        HasCycle (insertKey name target s.interpreter.aliases) ∧
        ∀ key, s'.interpreter.aliases.lookup key = s.interpreter.aliases.lookup key) s := by
  -- a refused definition has put the old aliases back, perhaps in another order
  refine wp_get (wp_modify_bind (wp_modify_bind (wp_ite (fun haccepted => ?_) fun hrejected => ?_)))
  · have hnone := mt (defineAlias_rejected_iff h).mpr (ne_false_of_eq_true haccepted)
    exact wp_pure ⟨rfl, hnone, congrArg Prod.snd (defineAlias_accepted haccepted).1⟩
  · have hfalse := Bool.eq_false_iff.mpr hrejected
    exact wp_throw ⟨rfl, (defineAlias_rejected_iff h).mp hfalse,
      lookup_defineAlias_rejected hfalse⟩

/-- Every name resolves after every evaluation and before every definition in one, and the
instruction then decides by the cycle alone. -/
theorem eval_aliasesSound (h : Reachable s) : Resolves s.interpreter.aliases ∧
    (∀ (load : Loader) (host : Host σ) (world : σ) (source sourceName : String),
      wp (eval load host source sourceName)
        (fun _ => AliasesSound) (fun _ => AliasesSound) { s with host := world }) ∧
    ∀ (chunk : Chunk) (location : Location) (frame : Frame) (load : Loader) (host : Host σ)
      (execute : Chunk → Map → Run σ Value) (locals : Map) (name target : String) (s' : State σ),
      Resolves s'.interpreter.aliases →
      wp (step chunk location frame load host execute locals (.defineAlias name target))
        (fun progress after => progress = .next frame ∧
          ¬HasCycle (insertKey name target s'.interpreter.aliases) ∧
          after.interpreter.aliases = insertKey name target s'.interpreter.aliases)
        (fun halt after => halt = .fault (runtimeError chunk location
            s!"alias `{name}` creates a cycle") ∧
          HasCycle (insertKey name target s'.interpreter.aliases) ∧
          ∀ key, after.interpreter.aliases.lookup key = s'.interpreter.aliases.lookup key) s' := by
  refine ⟨h.left.bounded.resolves, fun _ _ _ _ _ => ?_, fun chunk location frame _ _ _ _ => ?_⟩
  · exact wp_mono (eval_left h.left) (fun _ _ h' => h'.aliasesSound) fun _ _ h' => h'.2.aliasesSound
  · exact fun name target s' => wp_execDefineAlias chunk location frame name target

/-- The code of `alias a = b`, `alias b = c`, `alias c = a`. -/
def aliasLoad (_ sourceName : String) : Except Error Chunk :=
  .ok ⟨sourceName, 1, [.constant 0 .unit, .defineAlias "a" "b", .defineAlias "b" "c",
    .defineAlias "c" "a", .ret 0].map (⟨1, 1⟩, ·)⟩

/-- The third definition is refused, and the first two stay. -/
theorem eval_aliasesSound_refused : ∃ error s',
    eval aliasLoad chainHost "" "<input>" (.new ()) = .error (.fault (.error error)) s' ∧
      s'.interpreter.aliases = [("b", "c"), ("a", "b")] ∧ Resolves s'.interpreter.aliases := by
  have hrun : (match eval aliasLoad chainHost "" "<input>" (.new ()) with
      | .error (.fault (.error _)) s' => s'.interpreter.aliases == [("b", "c"), ("a", "b")]
      | _ => false) = true := by
    decide +kernel
  split at hrun
  · rename_i error s' heval
    exact ⟨error, s', heval, eq_of_beq hrun, (eval_aliasesSound
      (.eval aliasLoad chainHost () "" "<input>" (.new ()) (.inr ⟨error, heval⟩))).1⟩
  · cases hrun

end Ginkgo.Shell
