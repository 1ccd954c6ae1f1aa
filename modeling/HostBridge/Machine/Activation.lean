import HostBridge.Machine.Storage

/-!
# Activations and the effect of instructions

An `Activation` is a function at work: the instructions of its block that are still to come, and
its values as far as they are defined. `Inst.effect` evaluates the operands of an instruction and
says what is to be done; doing it is left to the machine, because calls concern more than one
activation.
-/

set_option autoImplicit false

namespace HostBridge

/-- A function at work. -/
structure Activation where
  function : Func
  /-- The block that is being executed. -/
  block : BlockId
  /-- The instructions of the block that are still to come. -/
  rest : List Inst
  values : List (Option Val)
  deriving DecidableEq, Repr

/-- What an instruction asks for, once its operands are known. -/
inductive Effect where
  /-- A value becomes defined. -/
  | define (dst : ValueId) (v : Val)
  /-- Memory changes. -/
  | write (storage : Storage)
  | goto (target : BlockId)
  | leave (v : Option Val)
  | call (dst : Option ValueId) (callee : FuncId) (args : List Val)
  | callExtern (dst : Option ValueId) (callee : ExternId) (args : List Val)

namespace Activation

/-- The value of an operand, which must have been defined. -/
def read (a : Activation) (v : ValueId) : Except BridgeError Val :=
  match a.values[v]? with
  | some (some x) => .ok x
  | _ => .error (.exec (.usedBeforeDefinition v a.function.name))

/-- The values of a list of operands. -/
def readAll (a : Activation) (vs : List ValueId) : Except BridgeError (List Val) := vs.mapM a.read

/-- The activation with what a call gave for a value. -/
def assign (a : Activation) (dst : ValueId) (v : Option Val) : Activation :=
  { a with values := a.values.set dst v }

/-- The activation with the result of a call, if the call wants one. -/
def receive (a : Activation) (dst : Option ValueId) (v : Option Val) : Activation :=
  match dst with
  | some dst => a.assign dst v
  | none => a

/-- The activation at the start of a block. -/
def enter (a : Activation) (block : BlockId) : Except BridgeError Activation :=
  match a.function.blocks[block]? with
  | some insts => .ok { a with block := block, rest := insts }
  | none => .error (.exec (.missingBlock block a.function.name))

/-- A function about to start: its first values are the arguments. -/
def start (f : Func) (args : List Val) : Except BridgeError Activation :=
  let values := (args.map some ++ List.replicate f.values.length none).take f.values.length
  Activation.enter ⟨f, 0, [], values⟩ 0

end Activation

/-- What an instruction asks for in an activation. -/
def Inst.effect (s : Storage) (a : Activation) : Inst → Except BridgeError Effect
  | const dst value => .ok (.define dst (.word value))
  | constI32 dst value => .ok (.define dst (.i32 value))
  | ptrOffset dst base offset => do
    let base ← (← a.read base).asPtr
    match base.add? offset.toNat with
    | some addr => return .define dst (.ptr addr)
    | none => throw (.exec (.pointerOverflow base))
  | load dst ty addr => do
    let addr ← (← a.read addr).asPtr
    return .define dst (← s.load ty addr)
  | store addr value => do
    let addr ← (← a.read addr).asPtr
    let value ← a.read value
    return .write (← s.store addr value)
  | loadByte dst base index => do
    let base ← (← a.read base).asPtr
    let index ← (← a.read index).asWord
    return .define dst (.word (← s.loadByte base index))
  | binary dst op lhs rhs => do
    let lhs ← (← a.read lhs).asWord
    let rhs ← (← a.read rhs).asWord
    return .define dst (.word (op.apply lhs rhs))
  | call dst callee args => do
    return .call dst callee (← a.readAll args)
  | callExtern dst callee args => do
    return .callExtern dst callee (← a.readAll args)
  | jump target => .ok (.goto target)
  | branch cond thenBlock elseBlock => do
    let cond ← (← a.read cond).asWord
    return .goto (if cond = 0 then elseBlock else thenBlock)
  | ret none => .ok (.leave none)
  | ret (some value) => do
    return .leave (some (← a.read value))
  | unreachable => .error (.exec (.reachedUnreachable a.function.name))

end HostBridge
