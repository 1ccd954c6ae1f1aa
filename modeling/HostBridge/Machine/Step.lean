import HostBridge.Machine.State

/-!
# Running

`Machine.step` makes one step, `Machine.run` a bounded number of them. A step is an instruction of
generated code, one action of a host function, or the return to what waits.

A call starts in `Machine.enterCall`. What can be refused before anything happens is refused first
(`CallRequest.prepare`): a module that does not verify or has no entry, an extern that cannot be
bound. Then the call takes its checkpoint, which is where the limit of live calls is felt, and
enters the module. `Outcome.settle` is what the call comes to when it is left with a status.

What generated code does next does not depend on the rest of the machine: `Call.turn` says it of a
call and an activation, and `Machine.take` lets it happen.
-/

set_option autoImplicit false

namespace HostBridge

variable {φ σ : Type}

/-- How a call was left with a status. -/
inductive Exit where
  /-- The entry function returned it. -/
  | returned
  /-- It was raised against the checkpoint of the call. -/
  | aborted
  deriving DecidableEq, Repr

/-- What a call comes to that is left with a status code, given its runtime block and the working
memory. An abort with a failure leaves no gas and no output. Any other way keeps the gas in the
block, and a status `return` the announced return data. -/
def Outcome.settle (block : RuntimeBlock) (memory : Bytes) (exit : Exit) (code : Int32Bits) :
    Except BridgeError Outcome :=
  match Status.ofCode? code with
  | none => .error (.unknownStatus code)
  | some status =>
    if exit = .aborted ∧ !status.isSuccess then .ok ⟨status, 0, []⟩
    else .ok ⟨status, block.gas, if status = .ret then block.returnData memory else []⟩

/-- Refuses a call that cannot start, and connects the module with the host otherwise. -/
def CallRequest.prepare (r : CallRequest φ) : Except BridgeError (FuncId × List Binding) := do
  if r.config.verifyModules then
    match r.module.verify with
    | .ok () => pure ()
    | .error (function, flaw) => throw (.verify function flaw)
  match r.module.entry with
  | none => throw (.exec (.noEntry r.module.name))
  | some entry =>
    let bindings ← r.hosts.bindExterns r.module
    return (entry, bindings)

/-- What generated code does when it has control. -/
inductive Turn (φ σ : Type) where
  /-- It goes on. -/
  | code (c : Call φ σ) (a : Activation)
  /-- The function ends, with a value if it has one, or with an error. -/
  | leave (c : Call φ σ) (answer : Answer)
  /-- It raises a status against a checkpoint. -/
  | abort (c : Call φ σ) (handle : Addr) (code : Int32Bits)
  /-- It calls a host function, as the given extern, and waits for the result. -/
  | host (c : Call φ σ) (a : Activation) (callee : ExternId) (dst : Option ValueId) (function : φ)
    (args : List Val)

namespace Call

/-- The call when one function more has become active, for which the given activations wait. -/
def descend (c : Call φ σ) (waiting : List (Activation × Option ValueId)) : Call φ σ :=
  { c with waiting := waiting, depth := c.depth + 1 }

/-- The call when an active function has ended, and the given activations still wait. -/
def ascend (c : Call φ σ) (waiting : List (Activation × Option ValueId)) : Call φ σ :=
  { c with waiting := waiting, depth := c.depth - 1 }

@[simp] theorem descend_waiting (c : Call φ σ) (waiting : List (Activation × Option ValueId)) :
    (c.descend waiting).waiting = waiting :=
  rfl

@[simp] theorem ascend_waiting (c : Call φ σ) (waiting : List (Activation × Option ValueId)) :
    (c.ascend waiting).waiting = waiting :=
  rfl

/-- A function of the module about to start, if the limit leaves room for one more. -/
def activate (c : Call φ σ) (callee : FuncId) (args : List Val) : Except BridgeError Activation :=
  if c.request.config.maxHelperDepth ≤ c.depth then
    .error (.helperDepthExceeded c.request.config.maxHelperDepth)
  else match c.request.module.functions[callee]? with
    | some f => Activation.start f args
    | none => .error (.exec (.unknownFunction callee))

/-- What host functions called from this call can look at. -/
def site (c : Call φ σ) : Site := ⟨c.request.env, c.request.config⟩

/-- What an extern stands for in this call. -/
inductive Callee (φ : Type) where
  | abort (handle : Addr) (code : Int32Bits)
  | host (function : φ)

/-- The extern with the given number, applied to arguments. -/
def callee (c : Call φ σ) (id : ExternId) (args : List Val) : Except BridgeError (Callee φ) :=
  match c.bindings[id]? with
  | none => .error (.exec (.externNotBound id))
  | some .abort =>
    match args with
    | [handle, code] => do
      let handle ← handle.asPtr
      let code ← code.asI32
      return .abort handle code
    | _ => .error (.exec .abortArguments)
  | some (.host slot) =>
    match c.request.hosts.entries[slot]? with
    | some entry => .ok (.host entry.function)
    | none => .error (.exec (.hostSlotNotBound slot))

/-- Does what an instruction asks for. -/
def obey (c : Call φ σ) (a : Activation) : Effect → Turn φ σ
  | .define dst v => .code c (a.assign dst (some v))
  | .write storage => .code { c with storage := storage } a
  | .goto target =>
    match a.enter target with
    | .ok a => .code c a
    | .error e => .leave c (.error e)
  | .leave v => .leave c (.ok v)
  | .call dst callee args =>
    match c.activate callee args with
    | .ok b => .code (c.descend ((a, dst) :: c.waiting)) b
    | .error e => .leave c (.error e)
  | .callExtern dst callee args =>
    match c.callee callee args with
    | .error e => .leave c (.error e)
    | .ok (.abort handle code) => .abort c handle code
    | .ok (.host function) => .host c a callee dst function args

/-- The next instruction of an activation. -/
def turn (c : Call φ σ) (a : Activation) : Turn φ σ :=
  match a.rest with
  | [] => .leave c (.error (.exec (.openBlock a.block a.function.name)))
  | i :: rest =>
    match i.effect c.storage a with
    | .ok effect => c.obey { a with rest := rest } effect
    | .error e => .leave c (.error e)

end Call

namespace Machine

/-- Hands control over. -/
def goto (m : Machine φ σ) (focus : Focus φ σ) : Machine φ σ := { m with focus := focus }

/-- The checkpoint that would be taken next. -/
def nextCheckpoint (p : Platform φ σ) (m : Machine φ σ) : Checkpoint :=
  ⟨m.nextId, m.live.length, p.handleAt m.nextId⟩

/-- Takes a checkpoint. -/
def pushCheckpoint (m : Machine φ σ) (cp : Checkpoint) : Machine φ σ :=
  { m with live := cp :: m.live, nextId := m.nextId + 1 }

/-- Gives up the innermost checkpoint. -/
def popCheckpoint (m : Machine φ σ) : Machine φ σ := { m with live := m.live.tail }

/-! ## Calls -/

/-- Gives the result of a call to whoever made it. -/
def deliver (m : Machine φ σ) (origin : Origin φ σ) (result : Except BridgeError Outcome) :
    Machine φ σ :=
  match origin with
  | .outside => m.goto (.halted (.call result))
  | .host site next => m.goto (.script site (next result))

/-- The call that a request makes under a checkpoint. -/
def newCall (p : Platform φ σ) (request : CallRequest φ) (bindings : List Binding)
    (cp : Checkpoint) (origin : Origin φ σ) : Call φ σ where
  request := request
  bindings := bindings
  checkpoint := cp
  storage := ⟨p.blockAt cp.depth, .construct request.gas request.env cp.handle, request.env⟩
  waiting := []
  depth := 0
  origin := origin

/-- The arguments of an entry function: no host, and the runtime block. -/
def entryArgs (c : Call φ σ) : List Val := [.ptr 0, .ptr c.storage.base]

/-- Starts a call. -/
def enterCall (p : Platform φ σ) (m : Machine φ σ) (request : CallRequest φ)
    (origin : Origin φ σ) : Machine φ σ :=
  match request.prepare with
  | .error e => m.deliver origin (.error e)
  | .ok (entry, bindings) =>
    if request.config.maxCallDepth ≤ m.live.length then
      m.deliver origin (.error (.callDepthExceeded request.config.maxCallDepth))
    else
      let cp := m.nextCheckpoint p
      let c := newCall p request bindings cp origin
      let m := m.pushCheckpoint cp
      match c.activate entry (entryArgs c) with
      | .ok a => m.goto (.code (c.descend []) a)
      | .error e => m.goto (.leave c (.error e))

/-- Ends a call, with the status code it was left with or with an error. -/
def finishCall (m : Machine φ σ) (c : Call φ σ) (exit : Exit)
    (code : Except BridgeError Int32Bits) : Machine φ σ :=
  m.popCheckpoint.deliver c.origin
    (code.bind (Outcome.settle c.storage.block m.memory exit))

/-- The status code that an entry function must return. -/
def statusOf (answer : Answer) : Except BridgeError Int32Bits :=
  match answer with
  | .error e => .error e
  | .ok none => .error (.exec .noStatus)
  | .ok (some v) => v.asI32

/-- A function has ended: the activation that waits for it goes on, or the call is over. -/
def stepLeave (m : Machine φ σ) (c : Call φ σ) (answer : Answer) : Machine φ σ :=
  match c.waiting with
  | [] => m.finishCall (c.ascend []) .returned (statusOf answer)
  | (a, dst) :: waiting =>
    let c := c.ascend waiting
    match answer with
    | .error e => m.goto (.leave c (.error e))
    | .ok v => m.goto (.code c (a.receive dst v))

/-- Something unwinds through generated code as far as the call's checkpoint. -/
def stepUnwind (m : Machine φ σ) (c : Call φ σ) (x : Payload) : Machine φ σ :=
  match x.codeFor? c.checkpoint with
  | some code => m.finishCall c .aborted (.ok code)
  | none =>
    match c.origin with
    | .outside => m.popCheckpoint.goto (.halted (.panic x))
    | .host site _ => m.popCheckpoint.goto (.unwindScript site x)

/-! ## Generated code -/

/-- Lets generated code have its turn. -/
def take (p : Platform φ σ) (m : Machine φ σ) : Turn φ σ → Machine φ σ
  | .code c a => m.goto (.code c a)
  | .leave c answer => m.goto (.leave c answer)
  | .abort c handle code => m.goto (.unwind c (.raise m.live handle code))
  | .host c a callee dst function args =>
    { m with
      focus := .script c.site (p.behaviour function args)
      control := .hostCall c a callee dst :: m.control }

/-- The next instruction. -/
def stepCode (p : Platform φ σ) (m : Machine φ σ) (c : Call φ σ) (a : Activation) :
    Machine φ σ :=
  m.take p (c.turn a)

/-! ## Host functions -/

/-- A host function has answered generated code, which needs a value if it has a place for one. -/
def resume (m : Machine φ σ) (c : Call φ σ) (a : Activation) (callee : ExternId)
    (dst : Option ValueId) (answer : Answer) : Machine φ σ :=
  match answer, dst with
  | .error e, _ => m.goto (.leave c (.error e))
  | .ok none, some _ => m.goto (.leave c (.error (.host (.noValue callee))))
  | .ok v, dst => m.goto (.code c (a.receive dst v))

/-- A script has ended: what waits for it goes on. -/
def stepDone (m : Machine φ σ) (site : Site) (answer : Answer) : Machine φ σ :=
  match m.control with
  | [] => m.goto (.halted (.script answer))
  | .hostCall c a callee dst :: control =>
    { m with control := control }.resume c a callee dst answer
  | .captured _ next :: control =>
    { m with control := control }.popCheckpoint.goto
      (.script site (next (.ok (.returned answer))))
  | .guarded next :: control =>
    { m with control := control }.goto (.script site (next (.finished answer)))

/-- Something unwinds through a script as far as what waits for it. -/
def stepUnwindScript (m : Machine φ σ) (site : Site) (x : Payload) : Machine φ σ :=
  match m.control with
  | [] => m.goto (.halted (.panic x))
  | .hostCall c _ _ _ :: control => { m with control := control }.goto (.unwind c x)
  | .captured cp next :: control =>
    let m := { m with control := control }.popCheckpoint
    match x.codeFor? cp with
    | some code => m.goto (.script site (next (.ok (.aborted code))))
    | none => m.goto (.unwindScript site x)
  | .guarded next :: control =>
    { m with control := control, held := m.held ++ [x] }.goto
      (.script site (next (.caught m.held.length x.panic?)))

/-- The payload with a ticket. -/
def heldPayload (m : Machine φ σ) (ticket : Nat) : Payload :=
  (m.held[ticket]?).getD (.foreign .nothingHeld)

/-- One action of a script. -/
def stepScript (p : Platform φ σ) (m : Machine φ σ) (site : Site) :
    Script φ σ → Machine φ σ
  | .done answer => m.stepDone site answer
  | .panic text => m.goto (.unwindScript site (.foreign (.text text)))
  | .abortTo handle code => m.goto (.unwindScript site (.raise m.live handle code))
  | .rethrow ticket => m.goto (.unwindScript site (m.heldPayload ticket))
  | .memory next => m.goto (.script site (next m.memory))
  | .setMemory memory next => { m with memory := memory }.goto (.script site next)
  | .environment next => m.goto (.script site (next site.env))
  | .config next => m.goto (.script site (next site.config))
  | .depth next => m.goto (.script site (next m.live.length))
  | .shared next => m.goto (.script site (next m.shared))
  | .setShared state next => { m with shared := state }.goto (.script site next)
  | .capture maxDepth body next =>
    if maxDepth ≤ m.live.length then
      m.goto (.script site (next (.error (.callDepthExceeded maxDepth))))
    else
      let cp := m.nextCheckpoint p
      { m.pushCheckpoint cp with control := .captured cp next :: m.control }.goto
        (.script site (body cp))
  | .guard body next =>
    { m with control := .guarded next :: m.control }.goto (.script site body)
  | .call request next => m.enterCall p request (.host site next)

/-! ## Runs -/

/-- One step. A run that has ended stays as it is. -/
def step (p : Platform φ σ) (m : Machine φ σ) : Machine φ σ :=
  match m.focus with
  | .code c a => m.stepCode p c a
  | .leave c answer => m.stepLeave c answer
  | .unwind c x => m.stepUnwind c x
  | .script site script => m.stepScript p site script
  | .unwindScript site x => m.stepUnwindScript site x
  | .halted _ => m

/-- At most `fuel` steps. -/
def run (p : Platform φ σ) : Nat → Machine φ σ → Machine φ σ
  | 0, m => m
  | fuel + 1, m =>
    match m.focus with
    | .halted _ => m
    | _ => run p fuel (m.step p)

/-- A machine before anything has happened, with the given working memory and host state. Its focus
is an empty script. -/
def idle (memory : Bytes) (shared : σ) : Machine φ σ where
  focus := .halted (.script (.ok none))
  control := []
  live := []
  nextId := 1
  held := []
  memory := memory
  shared := shared

/-- A machine about to make a call from outside. -/
def startCall (p : Platform φ σ) (request : CallRequest φ) (memory : Bytes) (shared : σ) :
    Machine φ σ :=
  (idle memory shared).enterCall p request .outside

/-- A machine about to run a script that nobody has called. -/
def startScript (site : Site) (script : Script φ σ) (memory : Bytes) (shared : σ) :
    Machine φ σ :=
  (idle memory shared).goto (.script site script)

end Machine

end HostBridge
