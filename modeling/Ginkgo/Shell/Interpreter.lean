import Ginkgo.Lib.Fallible

/-!
# The shell interpreter

The shell runs register-machine bytecode.  One interpreter lives through many
evaluations and keeps variables, functions, aliases and the paths already included.
The parser and the compiler are any function from source texts to bytecode, and the host
any transformer of its own state.

A loop iteration spends one unit of fuel; `eval` gives more fuel than the instruction
limit lets it use.  `trace`, `completed` and `accesses` are records that no code reads.
-/

namespace Ginkgo.Shell

open Ginkgo.Lib

def maxInstructions : Nat := 100000
def maxCallDepth : Nat := 32
def maxListValues : Nat := 4096
def maxTextBytes : Nat := 64 * 1024

/-! ## Values -/

inductive Value
  | unit
  | boolean (value : Bool)
  | integer (value : Int)
  | string (value : String)
  | list (values : List Value)
  | map (entries : List (String × Value))

abbrev Map := List (String × Value)

def Value.isTruthy : Value → Bool
  | .unit => false
  | .boolean value => value
  | .integer value => value != 0
  | .string value => !value.isEmpty
  | .list values => !values.isEmpty
  | .map entries => !entries.isEmpty

mutual

def Value.equals : Value → Value → Bool
  | .unit, .unit => true
  | .boolean left, .boolean right => left == right
  | .integer left, .integer right => left == right
  | .string left, .string right => left == right
  | .list left, .list right => listEquals left right
  | .map left, .map right => mapEquals left right
  | _, _ => false

def listEquals : List Value → List Value → Bool
  | [], [] => true
  | left :: lefts, right :: rights => left.equals right && listEquals lefts rights
  | _, _ => false

def mapEquals : Map → Map → Bool
  | [], [] => true
  | (key, left) :: lefts, (key', right) :: rights =>
    key == key' && left.equals right && mapEquals lefts rights
  | _, _ => false

end

inductive BinaryOp
  | and | or | equal | notEqual | less | lessEqual | greater | greaterEqual

def compareValues : Value → Value → Except String Ordering
  | .integer left, .integer right => .ok (compare left right)
  | .string left, .string right => .ok (compare left right)
  | _, _ => .error "comparison requires two integers or two strings"

def applyBinary (op : BinaryOp) (left right : Value) : Except String Value :=
  match op with
  | .and => .ok (.boolean (left.isTruthy && right.isTruthy))
  | .or => .ok (.boolean (left.isTruthy || right.isTruthy))
  | .equal => .ok (.boolean (left.equals right))
  | .notEqual => .ok (.boolean !(left.equals right))
  | .less => (compareValues left right).map fun order => .boolean (order == .lt)
  | .lessEqual => (compareValues left right).map fun order => .boolean (order != .gt)
  | .greater => (compareValues left right).map fun order => .boolean (order == .gt)
  | .greaterEqual => (compareValues left right).map fun order => .boolean (order != .lt)

structure Location where
  line : Nat
  column : Nat

structure CallArgument where
  register : Nat
  splice : Bool

mutual

inductive Instruction
  | constant (dst : Nat) (value : Value)
  | move (dst src : Nat)
  | loadGlobal (dst : Nat) (name : String)
  | storeGlobal (name : String) (src : Nat)
  | buildList (dst : Nat) (values : List Nat)
  | unaryNot (dst src : Nat)
  | binary (dst : Nat) (op : BinaryOp) (left right : Nat)
  | jump (target : Nat)
  | jumpIfFalse (condition target : Nat)
  | jumpIfTrue (condition target : Nat)
  | call (dst : Nat) (name : String) (arguments : List CallArgument)
  | glob (dst : Nat) (pattern : String)
  | iterInit (iterator value : Nat)
  | iterNext (iterator dst end' : Nat)
  | defineFunction (name : String) (parameters : List String) (body : Chunk)
  | defineAlias (name target : String)
  | includePath (dst : Nat) (path : String)
  | run (dst : Nat) (path : String)
  | ret (src : Nat)

structure Chunk where
  sourceName : String
  registerCount : Nat
  instructions : List (Location × Instruction)

end

/-! ## The interpreter's state -/

structure Error where
  sourceName : String
  line : Nat
  column : Nat
  message : String

/-- A register or an iterator that does not exist is a panic. -/
inductive Fault
  | error (error : Error)
  | panic

/-- Why a run stops without a value. -/
inductive Halt
  | fault (fault : Fault)
  | outOfFuel

/-- The parser and the compiler, which are not modelled: a source text and its name to bytecode.
What is proved of the interpreter is over every such function. -/
abbrev Loader := String → String → Except Error Chunk

inductive CallMode
  | auto | application | builtin | absolutePath
  deriving DecidableEq

structure Host (σ : Type) where
  call : CallMode → String → List Value → σ → Except String Value × σ
  includePath : String → σ → Except String String × σ
  glob : String → σ → Except String (List String) × σ

structure UserFunction where
  parameters : List String
  body : Chunk

abbrev AliasMap := List (String × String)

structure Interpreter where
  globals : Map := []
  functions : List (String × UserFunction) := []
  aliases : AliasMap := []
  includedPaths : List String := []
  activeScripts : List String := []

structure Execution where
  instructions : Nat := 0
  callDepth : Nat := 0

/-- What a run did, for the statements about it. -/
inductive Event
  /-- An instruction passed the limit and was executed. -/
  | executed
  /-- The frame count with this one, and the scripts active below it. -/
  | entered (frames : Nat) (scripts : List String)
  | activated (scripts : List String)
  /-- An alias is about to be defined over these. -/
  | defining (aliases : AliasMap)
  /-- `dispatch` met a name it could not resolve. -/
  | aliasCycle (name : String)
  deriving DecidableEq

structure State (σ : Type) where
  interpreter : Interpreter
  execution : Execution
  host : σ
  /-- The events of this evaluation, the latest first. -/
  trace : List Event
  /-- The paths whose inclusion completed, over the interpreter's life. -/
  completed : List String

def State.new {σ : Type} (host : σ) : State σ := ⟨{}, {}, host, [], []⟩

abbrev Run (σ : Type) := EStateM Halt (State σ)

variable {σ α : Type}

def lift (result : Except Fault α) : Run σ α :=
  match result with
  | .ok value => pure value
  | .error fault => throw (.fault fault)

def note (event : Event) : Run σ Unit := modify fun s => { s with trace := event :: s.trace }

def runtimeError (chunk : Chunk) (location : Location) (message : String) : Fault :=
  .error ⟨chunk.sourceName, location.line, location.column, message⟩

def askHost (chunk : Chunk) (location : Location) (ask : σ → Except String α × σ) : Run σ α := do
  let s ← get
  modify fun s => { s with host := (ask s.host).2 }
  lift ((ask s.host).1.mapError (runtimeError chunk location))

def raise (chunk : Chunk) (location : Location) (message : String) : Run σ α :=
  lift (.error (runtimeError chunk location message))

/-- Run the body between `deeper` and `leave`, whether it returns or fails. -/
def within (deeper leave : State σ → State σ) (body : Run σ α) : Run σ α := do
  modify deeper
  let result ← attempt body
  modify leave
  match result with
  | .ok value => pure value
  | .error halt => throw halt

def insertKey (key : String) (value : α) (map : List (String × α)) : List (String × α) :=
  (key, value) :: map.filter (·.1 != key)

def removeKey (key : String) (map : List (String × α)) : List (String × α) :=
  map.filter (·.1 != key)

def isExplicitPath (name : String) : Bool :=
  name.toList.head? == some '/' || name.toList.head? == some '\\' ||
    name.toUTF8.data[1]? == some 58 || name.toList.contains '/' || name.toList.contains '\\'

def classifyName (name : String) : CallMode × String :=
  match name.toList with
  | '!' :: rest => (.application, String.ofList rest)
  | '%' :: rest => (.builtin, String.ofList rest)
  | _ => if isExplicitPath name then (.absolutePath, name) else (.auto, name)

/-- The loop of `resolveAlias` after the names of `seen`. -/
def resolveFrom (aliases : AliasMap) : Nat → List String → String → Option String
  | 0, _, _ => none
  | fuel + 1, seen, current =>
    if (classifyName current).1 ≠ .auto then some current
    else if current ∈ seen then none
    else match aliases.lookup current with
      | some target => resolveFrom aliases fuel (current :: seen) target
      | none => some current

def resolveAlias (aliases : AliasMap) (name : String) : Option String :=
  resolveFrom aliases (aliases.length + 2) [] name

/-- Whether the alias was accepted, and the map it leaves. -/
def defineAlias (name target : String) (aliases : AliasMap) : Bool × AliasMap :=
  let extended := insertKey name target aliases
  if (resolveAlias extended name).isSome then (true, extended)
  else (false, match aliases.lookup name with
    | some previous => insertKey name previous extended
    | none => removeKey name extended)

/-! ## Frames -/

structure IteratorState where
  values : List Value
  index : Nat

structure Frame where
  registers : List Value
  iterators : List (Nat × IteratorState)
  pc : Nat

inductive Progress
  | next (frame : Frame)
  | returned (value : Value)

def Frame.read (frame : Frame) (src : Nat) : Except Fault Value :=
  match frame.registers[src]? with
  | some value => .ok value
  | none => .error .panic

def Frame.write (frame : Frame) (dst : Nat) (value : Value) : Except Fault Progress :=
  if dst < frame.registers.length then
    .ok (.next { frame with registers := frame.registers.set dst value })
  else .error .panic

def Frame.jumpIf (frame : Frame) (target : Nat) (taken : Bool) : Progress :=
  .next (if taken then { frame with pc := target } else frame)

section Step

variable (chunk : Chunk) (location : Location) (frame : Frame)

def collectArguments : List CallArgument → List Value → Except Fault (List Value)
  | [], args => .ok args
  | argument :: rest, args => do
    let value ← frame.read argument.register
    let args ← match argument.splice, value with
      | true, .list values => .ok (args ++ values)
      | true, _ => .error (runtimeError chunk location
          "only a list can be spliced into command arguments")
      | false, value => .ok (args ++ [value])
    if args.length > maxListValues then
      .error (runtimeError chunk location "command arguments exceed 4096 values")
    else collectArguments rest args

def iteratorValues : Value → Except Fault (List Value)
  | .list values => .ok values
  | .integer count =>
    if 0 ≤ count ∧ count ≤ maxListValues then
      .ok ((List.range count.toNat).map fun i : Nat => .integer i)
    else .error (runtimeError chunk location "repeat count must be between 0 and 4096")
  | _ => .error (runtimeError chunk location "iteration requires a list or non-negative integer")

def iterNext (iterator dst end' : Nat) : Except Fault Progress :=
  match frame.iterators.lookup iterator with
  | none => .error .panic
  | some state =>
    match state.values[state.index]? with
    | none => .ok (.next { frame with pc := end' })
    | some value =>
      { frame with iterators := (iterator, { state with index := state.index + 1 })
          :: frame.iterators }.write dst value

def globValues (found : List String) : Except Fault Value :=
  if found.length > maxListValues then
    .error (runtimeError chunk location "glob exceeds 4096 matches")
  else if found.any (·.utf8ByteSize > maxTextBytes) then
    .error (runtimeError chunk location "glob match exceeds the 64 KiB limit")
  else .ok (.list (found.map .string))

variable (load : Loader) (host : Host σ) (execute : Chunk → Map → Run σ Value)

def callFunction (name : String) (function : UserFunction) (args : List Value) : Run σ Value := do
  let s ← get
  if function.parameters.length ≠ args.length then
    raise chunk location (s!"function `{name}` expects {function.parameters.length} " ++
      s!"arguments, got {args.length}")
  else if s.execution.callDepth ≥ maxCallDepth then
    raise chunk location "call depth limit exceeded"
  else
    within (fun s => { s with execution.callDepth := s.execution.callDepth + 1 })
      (fun s => { s with execution.callDepth := s.execution.callDepth - 1 })
      -- A later parameter of the same name replaces an earlier one.
      (execute function.body (function.parameters.zip args).reverse)

def dispatch (requestedName : String) (args : List Value) : Run σ Value := do
  let (mode, name) := classifyName requestedName
  if mode ≠ .auto then askHost chunk location (host.call mode name args)
  else
    let s ← get
    match resolveAlias s.interpreter.aliases name with
    | none =>
      note (.aliasCycle name)
      raise chunk location s!"alias cycle while resolving `{name}`"
    | some resolved =>
      let (mode, name) := classifyName resolved
      match mode, s.interpreter.functions.lookup name with
      | .auto, some function => callFunction chunk location execute name function args
      | mode, _ => askHost chunk location (host.call mode name args)

def runScript (source path : String) : Run σ Value :=
  within (fun s => { s with interpreter.activeScripts := s.interpreter.activeScripts ++ [path] })
    (fun s => { s with interpreter.activeScripts := s.interpreter.activeScripts.dropLast })
    (do
      let s ← get
      note (.activated s.interpreter.activeScripts)
      execute (← lift ((load source path).mapError .error)) [])

def complete (path : String) (value : Value) : Run σ Value := do
  modify fun s => { s with
    interpreter.includedPaths := path :: s.interpreter.includedPaths
    completed := path :: s.completed }
  pure value

def executeScript (path : String) (once : Bool) (operation : String) : Run σ Value := do
  let s ← get
  if path ∈ s.interpreter.activeScripts then
    raise chunk location s!"{operation} cycle involving `{path}`"
  else if once ∧ path ∈ s.interpreter.includedPaths then pure .unit
  else
    let source ← askHost chunk location (host.includePath path)
    if source.utf8ByteSize > maxTextBytes then
      raise chunk location s!"{operation} `{path}` exceeds the 64 KiB limit"
    else
      let value ← runScript load execute source path
      if once then complete path value else pure value

def execDefineAlias (name target : String) : Run σ Progress := do
  let s ← get
  note (.defining s.interpreter.aliases)
  let (accepted, aliases) := defineAlias name target s.interpreter.aliases
  modify fun s => { s with interpreter.aliases := aliases }
  if accepted then pure (.next frame)
  else raise chunk location s!"alias `{name}` creates a cycle"

/-- One instruction of `execute`, after the program counter has moved past it. -/
def step (locals : Map) : Instruction → Run σ Progress
  | .constant dst value => lift (frame.write dst value)
  | .move dst src => lift do frame.write dst (← frame.read src)
  | .loadGlobal dst name => do
    let s ← get
    match (locals.lookup name).or (s.interpreter.globals.lookup name) with
    | some value => lift (frame.write dst value)
    | none => raise chunk location s!"unknown variable `${name}`"
  | .storeGlobal name src => do
    let value ← lift (frame.read src)
    modify fun s =>
      { s with interpreter.globals := insertKey name value s.interpreter.globals }
    pure (.next frame)
  | .buildList dst values => lift do
    if values.length > maxListValues then
      .error (runtimeError chunk location "list exceeds 4096 values")
    else frame.write dst (.list (← values.mapM frame.read))
  | .unaryNot dst src => lift do frame.write dst (.boolean !(← frame.read src).isTruthy)
  | .binary dst op left right => lift do
    let value := applyBinary op (← frame.read left) (← frame.read right)
    frame.write dst (← value.mapError (runtimeError chunk location))
  | .jump target => pure (frame.jumpIf target true)
  | .jumpIfFalse condition target => lift do
    .ok (frame.jumpIf target !(← frame.read condition).isTruthy)
  | .jumpIfTrue condition target => lift do
    .ok (frame.jumpIf target (← frame.read condition).isTruthy)
  | .glob dst pattern => do
    let found ← askHost chunk location (host.glob pattern)
    lift do frame.write dst (← globValues chunk location found)
  | .call dst name arguments => do
    let args ← lift (collectArguments chunk location frame arguments [])
    let value ← dispatch chunk location host execute name args
    lift (frame.write dst value)
  | .iterInit iterator value => lift do
    let values ← iteratorValues chunk location (← frame.read value)
    .ok (.next { frame with iterators := (iterator, ⟨values, 0⟩) :: frame.iterators })
  | .iterNext iterator dst end' => lift (iterNext frame iterator dst end')
  | .defineFunction name parameters body => do
    modify fun s => { s with
      interpreter.functions := insertKey name ⟨parameters, body⟩ s.interpreter.functions }
    pure (.next frame)
  | .defineAlias name target => execDefineAlias chunk location frame name target
  | .includePath dst path => do
    let value ← executeScript chunk location load host execute path true "include"
    lift (frame.write dst value)
  | .run dst path => do
    let value ← executeScript chunk location load host execute path false "run"
    lift (frame.write dst value)
  | .ret src => lift do .ok (.returned (← frame.read src))

/-- The instruction limit, checked as an instruction is fetched. -/
def fetch : Run σ Unit := do
  modify fun s => { s with execution.instructions := s.execution.instructions + 1 }
  let s ← get
  if s.execution.instructions > maxInstructions then
    raise chunk location "execution instruction limit exceeded"
  else note .executed

end Step

section Execute

variable (load : Loader) (host : Host σ)

def Frame.new (chunk : Chunk) : Frame := ⟨List.replicate chunk.registerCount .unit, [], 0⟩

/-- Enter a new frame, the `frames`-th, and run `body` in it. -/
def enter (frames : Nat) (body : Frame → Run σ Value) (chunk : Chunk) : Run σ Value := do
  let s ← get
  note (.entered frames s.interpreter.activeScripts)
  body (.new chunk)

/-- The loop of `execute` in the `frames`-th active frame. -/
def execute : Nat → Nat → Chunk → Map → Frame → Run σ Value
  | 0, _, _, _, _ => throw .outOfFuel
  | fuel + 1, frames, chunk, locals, frame =>
    match chunk.instructions[frame.pc]? with
    | none => pure .unit
    | some (location, instruction) => do
      fetch chunk location
      let progress ← step chunk location { frame with pc := frame.pc + 1 } load host
        (fun body locals => enter (frames + 1) (execute fuel (frames + 1) body locals) body)
        locals instruction
      match progress with
      | .returned value => pure value
      | .next frame => execute fuel frames chunk locals frame

@[irreducible]
def eval (source sourceName : String) : Run σ Value := do
  modify fun s => { s with trace := [], execution := {} }
  if source.utf8ByteSize > maxTextBytes then
    lift (.error (.error ⟨sourceName, 1, 1, "source exceeds the 64 KiB limit"⟩))
  else
    let chunk ← lift ((load source sourceName).mapError .error)
    enter 1 (execute load host (maxInstructions + 1) 1 chunk []) chunk

end Execute

/-- Evaluations one after the other, each with its own loader, host and host state. -/
inductive Reachable : State σ → Prop
  | new (host : σ) : Reachable (.new host)
  | eval {s s' : State σ} (load : Loader) (host : Host σ)
      (world : σ) (source sourceName : String) (earlier : Reachable s)
      (returned : (∃ value, eval load host source sourceName { s with host := world } =
          .ok value s') ∨ ∃ error, eval load host source sourceName
        { s with host := world } = .error (.fault (.error error)) s') : Reachable s'

end Ginkgo.Shell
