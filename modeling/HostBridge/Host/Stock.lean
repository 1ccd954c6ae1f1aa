import HostBridge.Host.Script

/-!
# Stock host functions

A set of host functions for trying modules out: they answer with constants or with their arguments,
look at and change the working memory, keep values for one another, fail in every way there is, and
make calls to other modules. What some of them see is recorded in a log that they all share.
-/

set_option autoImplicit false

namespace HostBridge

/-- What a stock function does. -/
inductive StockKind where
  /-- Logs its arguments. -/
  | record
  | const (v : Val)
  /-- Answers with an argument. -/
  | echo (i : Nat)
  /-- Answers with the sum of all arguments, which must be words. -/
  | sum
  /-- Answers with the first argument, which must have the type. -/
  | cast (ty : Ty)
  | fail (text : String)
  | panic (text : String)
  /-- Gives the working memory the length in the first argument; new bytes are `fill`. -/
  | resize (fill : UInt8)
  /-- Adds bytes to the working memory and answers with its new length. -/
  | append (bytes : Bytes)
  /-- Logs the working memory and answers with its length. -/
  | memory
  /-- Answers with what a field of the runtime block starts with in a call without gas. -/
  | env (field : RuntimeField)
  /-- Logs the configuration. -/
  | config
  /-- Answers with the number of live checkpoints. -/
  | depth
  /-- Keeps the first argument under a key. -/
  | stash (key : String)
  /-- Answers with what is kept under a key. -/
  | fetch (key : String)
  /-- Raises the status in the second argument against the handle in the first. -/
  | abort
  /-- Calls another module on a memory of its own and logs how that went. The gas is given or else
  is the first argument. If the call fails, the function fails too or, with `forgiving`, answers
  with 255. -/
  | subcall (forgiving : Bool) (module : Nat) (gas : Option Word) (memory : Bytes)
  deriving DecidableEq, Repr

/-- A stock function under its name. -/
structure StockHost where
  name : String
  kind : StockKind
  deriving DecidableEq, Repr

/-- A line of the log. -/
inductive LogEntry where
  | args (name : String) (args : List Val)
  | memory (name : String) (memory : Bytes)
  | config (name : String) (config : Config)
  | call (name : String) (result : Except BridgeError Outcome) (memory : Bytes)

/-- What stock functions share. -/
structure StockState where
  /-- The log, first line first. -/
  log : List LogEntry
  /-- The values that are kept, the latest first. -/
  stash : List (String × Val)

namespace StockState

/-- Nothing logged and nothing kept. -/
def empty : StockState := ⟨[], []⟩

/-- One more line in the log. -/
def record (s : StockState) (e : LogEntry) : StockState := { s with log := s.log ++ [e] }

/-- A value kept under a key. -/
def keep (s : StockState) (key : String) (v : Val) : StockState :=
  { s with stash := (key, v) :: s.stash }

end StockState

namespace StockHost

/-- The longest working memory that `resize` makes. -/
def maxMemory : Nat := 65536

/-- The answer of a forgiving call that has failed. -/
def failedStatus : Word := 255

/-- A script of stock functions. -/
abbrev StockScript := Script StockHost StockState

/-- An argument that must be there. -/
def argument (args : List Val) (i : Nat) : Except BridgeError Val :=
  match args[i]? with
  | some v => .ok v
  | none => .error (.host (.reported ("no argument " ++ toString i)))

/-- An argument that must be a word. -/
def wordArgument (args : List Val) (i : Nat) : Except BridgeError Word :=
  (argument args i).bind Val.asWord

/-- The sum of values that must be words. -/
def sumWords (args : List Val) : Except BridgeError Word :=
  args.foldlM (fun total v => v.asWord.map (total + ·)) 0

/-- A byte string cut or filled up to a length. -/
def resized (memory : Bytes) (length : Nat) (fill : UInt8) : Bytes :=
  memory.take length ++ List.replicate (length - memory.length) fill

/-- Answers with a number. -/
def answerNumber (n : Nat) : StockScript := .answer (.word (BitVec.ofNat 256 n))

/-- Makes the call of a `subcall`. -/
def subcall (modules : List Module) (hosts : Registry StockHost) (name : String)
    (forgiving : Bool) (module : Nat) (gas : Word) (memory : Bytes) : StockScript :=
  match modules[module]? with
  | none => .fail ("no module " ++ toString module)
  | some target =>
    .environment fun env => .config fun config =>
      .callWith memory ⟨target, gas, env, hosts, config⟩ fun result after =>
        .modifyShared (·.record (.call name result after)) <|
          match result with
          | .ok outcome => answerNumber outcome.status.number
          | .error e => if forgiving then .answer (.word failedStatus) else .done (.error e)

/-- What a stock function does with its arguments, given the modules it can call and the functions
on offer to them. -/
def behaviour (modules : List Module) (hosts : Registry StockHost) (f : StockHost)
    (args : List Val) : StockScript :=
  match f.kind with
  | .record => .modifyShared (·.record (.args f.name args)) .silent
  | .const v => .answer v
  | .echo i => .attempt (argument args i) .answer
  | .sum => .attempt (sumWords args) fun total => .answer (.word total)
  | .cast ty => .attempt ((argument args 0).bind (·.expect ty)) .answer
  | .fail text => .fail text
  | .panic text => .panic text
  | .resize fill =>
    .attempt (wordArgument args 0) fun length =>
      if maxMemory < length.toNat then .fail "resize too large"
      else .memory fun memory =>
        .setMemory (resized memory length.toNat fill) (.answer (.word length))
  | .append bytes =>
    .memory fun memory =>
      .setMemory (memory ++ bytes) (answerNumber (memory ++ bytes).length)
  | .memory =>
    .memory fun memory =>
      .modifyShared (·.record (.memory f.name memory)) (answerNumber memory.length)
  | .env field =>
    .environment fun env =>
      .done (.ok ((contextValue? field 0 env.snapshot).map fun i => .word (.ofImage i)))
  | .config => .config fun config => .modifyShared (·.record (.config f.name config)) .silent
  | .depth => .depth answerNumber
  | .stash key =>
    .attempt (argument args 0) fun v => .modifyShared (·.keep key v) .silent
  | .fetch key => .shared fun s => .done (.ok (s.stash.lookup key))
  | .abort =>
    .attempt ((argument args 0).bind Val.asPtr) fun handle =>
      .attempt ((argument args 1).bind Val.asI32) fun code => .abortTo handle code
  | .subcall forgiving module (some gas) memory =>
    subcall modules hosts f.name forgiving module gas memory
  | .subcall forgiving module none memory =>
    .attempt (wordArgument args 0) fun gas =>
      subcall modules hosts f.name forgiving module gas memory

end StockHost

/-- The platform of stock functions in an address space. -/
def Platform.stock (space : AddressSpace) (modules : List Module) (hosts : Registry StockHost) :
    Platform StockHost StockState :=
  .within space (StockHost.behaviour modules hosts)

end HostBridge
