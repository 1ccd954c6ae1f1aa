import HostBridge.Code.Basic
import HostBridge.Layout
import HostBridge.Opcode
import HostBridge.Status

/-!
# Writing code

Modules are written by declaring functions and externs and then filling in the functions,
instruction by instruction. `Draft` is a module with the place at which code is written, and the
operations on it form the monad `Emit`. An operation that makes no sense ends in a `Misuse`, and
what has been written before it stays: an operation that consists of several others can be cut
short between two of them.

The second half of the module writes code in terms of the runtime block. Every access to it goes
through the handle that each function receives as a parameter, so generated code never has to
carry addresses about.
-/

set_option autoImplicit false

namespace HostBridge

/-- What a writer of code can do wrong. -/
inductive Misuse where
  | functionTwice (name module : String)
  | entryTwice (module : String)
  | handleParam (helper : String) (param : Nat)
  | externConflict (name : String)
  | noFunctionSelected
  | unknownFunctionIn (id : FuncId) (module : String)
  | unknownFunction (id : FuncId)
  | unknownExtern (id : ExternId)
  | noParam (function : String) (param : Nat)
  | undefinedValue (v : ValueId) (function : String)
  | missingBlock (block : BlockId) (function : String)
  | fieldStoresWord (field : RuntimeField)
  | noField (op : Opcode)
  | notHelper (name : String)
  | handleAfterArguments (name : String)
  deriving DecidableEq, Repr

/-- The wording of a misuse. -/
def Misuse.message : Misuse → String
  | functionTwice name module =>
    "function '" ++ name ++ "' declared twice in module '" ++ module ++ "'"
  | entryTwice module => "module '" ++ module ++ "' already has an entry function"
  | handleParam helper param =>
    "helper '" ++ helper ++ "' must take the runtime handle as ptr parameter " ++ toString param
  | externConflict name => "extern '" ++ name ++ "' redeclared with a different signature"
  | noFunctionSelected => "no function is selected"
  | unknownFunctionIn id module =>
    "unknown function FuncId(" ++ toString id ++ ") in module '" ++ module ++ "'"
  | unknownFunction id => "unknown function FuncId(" ++ toString id ++ ")"
  | unknownExtern id => "unknown extern ExternId(" ++ toString id ++ ")"
  | noParam function param =>
    "function '" ++ function ++ "' has no parameter " ++ toString param
  | undefinedValue v function =>
    "value %" ++ toString v ++ " is not defined in function '" ++ function ++ "'"
  | missingBlock block function =>
    "block" ++ toString block ++ " does not exist in function '" ++ function ++ "'"
  | fieldStoresWord field => "runtime field '" ++ field.name ++ "' stores a word"
  | noField op => "instruction " ++ op.text ++ " has no runtime field"
  | notHelper name => "'" ++ name ++ "' is not a helper function"
  | handleAfterArguments name =>
    "'" ++ name ++ "' takes its runtime handle after the arguments given"

/-! ## Declarations -/

namespace Module

/-- Adds a function, whose name must be new. -/
def addFunction (m : Module) (f : Func) : Except Misuse (FuncId × Module) :=
  match m.findFunction? f.name with
  | some _ => .error (.functionTwice f.name m.name)
  | none => .ok (m.functions.length, { m with functions := m.functions ++ [f] })

/-- Declares the entry function. There can only be one. -/
def declareEntry (m : Module) (name : String) : Except Misuse (FuncId × Module) :=
  match m.entry with
  | some _ => .error (.entryTwice m.name)
  | none => do
    let (id, m) ← m.addFunction (.declare name .entry .entry)
    return (id, { m with entry := some id })

/-- Declares a helper, which receives the runtime handle at the given parameter. -/
def declareHelper (m : Module) (name : String) (signature : Signature) (runtimeParam : Nat) :
    Except Misuse (FuncId × Module) :=
  if signature.params[runtimeParam]? = some .ptr then
    m.addFunction (.declare name signature (.helper runtimeParam))
  else .error (.handleParam name runtimeParam)

/-- Declares an extern. To declare one again is harmless if nothing about it changes. -/
def declareExtern (m : Module) (name : String) (signature : Signature) (noreturn : Bool) :
    Except Misuse (ExternId × Module) :=
  match m.findExtern? name with
  | some id =>
    if m.externs[id]? = some ⟨name, signature, noreturn⟩ then .ok (id, m)
    else .error (.externConflict name)
  | none => .ok (m.externs.length, { m with externs := m.externs ++ [⟨name, signature, noreturn⟩] })

/-- The signature of the primitive that ends a call: the checkpoint and the status. -/
def abortSignature : Signature := ⟨[.ptr, .i32], none⟩

/-- The extern that ends a call at once, declared when it is first asked for. -/
def abortPrimitive (m : Module) : Except Misuse (ExternId × Module) :=
  match m.abort with
  | some id => .ok (id, m)
  | none => do
    let (id, m) ← m.declareExtern abortSymbol abortSignature true
    return (id, { m with abort := some id })

end Module

/-! ## Instructions -/

/-- Where code is written: at the end of a block of a function. -/
structure Cursor where
  func : FuncId
  block : BlockId
  deriving DecidableEq, Repr

/-- A module with the place at which code is written. -/
structure Draft where
  module : Module
  cursor : Cursor
  deriving DecidableEq, Repr

/-- An operation on a draft. A misuse ends it and leaves the draft as it is at that point. -/
abbrev Emit := EStateM Misuse Draft

/-- The start of a function. -/
def Module.cursorAt (m : Module) (id : FuncId) : Except Misuse Cursor :=
  if id < m.functions.length then .ok ⟨id, 0⟩ else .error (.unknownFunctionIn id m.name)

namespace Emit

/-- The function that code is written into. -/
def function : Emit Func := do
  let d ← get
  match d.module.functions[d.cursor.func]? with
  | some f => return f
  | none => throw (.unknownFunction d.cursor.func)

/-- Changes the function that code is written into. -/
def modifyFunction (change : Func → Func) : Emit Unit :=
  modify fun d => { d with module := d.module.modifyFunction d.cursor.func change }

/-- The value of a parameter. -/
def param (i : Nat) : Emit ValueId := do
  let f ← function
  match f.param? i with
  | some v => return v
  | none => throw (.noParam f.name i)

/-- The type of a value. -/
def valueType (v : ValueId) : Emit Ty := do
  let f ← function
  match f.valueType? v with
  | some ty => return ty
  | none => throw (.undefinedValue v f.name)

/-- A new empty block. -/
def createBlock : Emit BlockId := do
  let f ← function
  modifyFunction Func.addBlock
  return f.blocks.length

/-- Goes on at the end of another block. -/
def switchTo (block : BlockId) : Emit Unit := do
  let f ← function
  if block < f.blocks.length then modify fun d => { d with cursor.block := block }
  else throw (.missingBlock block f.name)

/-- Adds an instruction. -/
def push (i : Inst) : Emit Unit := do
  let d ← get
  modifyFunction (·.append d.cursor.block i)

/-- Adds an instruction that defines a new value. -/
def define (ty : Ty) (name : Option String) (inst : ValueId → Inst) : Emit ValueId := do
  let f ← function
  modifyFunction (·.addValue ty name)
  push (inst f.values.length)
  return f.values.length

def constWord (value : Word) : Emit ValueId := define .word none (.const · value)

def constI32 (value : Int32Bits) : Emit ValueId := define .i32 none (.constI32 · value)

def ptrOffset (base : ValueId) (offset : BitVec 32) (name : String) : Emit ValueId :=
  define .ptr (some name) (.ptrOffset · base offset)

def load (ty : Ty) (addr : ValueId) (name : String) : Emit ValueId :=
  define ty (some name) (.load · ty addr)

def store (addr value : ValueId) : Emit Unit := push (.store addr value)

def loadByte (base index : ValueId) : Emit ValueId := define .word none (.loadByte · base index)

def binary (op : BinaryOp) (lhs rhs : ValueId) : Emit ValueId :=
  define .word none (.binary · op lhs rhs)

/-- Adds a call, which defines a value if something is returned. -/
def defineIf (ret : Option Ty) (inst : Option ValueId → Inst) : Emit (Option ValueId) :=
  match ret with
  | some ty => do
    let v ← define ty none (inst <| some ·)
    return some v
  | none => do
    push (inst none)
    return none

/-- Calls a function of the module. -/
def call (callee : FuncId) (args : List ValueId) : Emit (Option ValueId) := do
  let d ← get
  match d.module.functions[callee]? with
  | some g => defineIf g.signature.ret (.call · callee args)
  | none => throw (.unknownFunction callee)

/-- Calls the host. One that never comes back defines nothing. -/
def callExtern (callee : ExternId) (args : List ValueId) : Emit (Option ValueId) := do
  let d ← get
  match d.module.externs[callee]? with
  | some e =>
    defineIf (if e.noreturn then none else e.signature.ret) (.callExtern · callee args)
  | none => throw (.unknownExtern callee)

def jump (target : BlockId) : Emit Unit := push (.jump target)

def branch (cond : ValueId) (thenBlock elseBlock : BlockId) : Emit Unit :=
  push (.branch cond thenBlock elseBlock)

def ret (value : Option ValueId) : Emit Unit := push (.ret value)

def unreachable : Emit Unit := push .unreachable

/-! ## Access to the runtime block -/

/-- The address of the runtime block, as the function received it. -/
def runtimeHandle : Emit ValueId := do
  let f ← function
  param f.role.runtimeParam

/-- The address of a slot. -/
def slotAddress (slot : Slot) : Emit ValueId := do
  let handle ← runtimeHandle
  ptrOffset handle (BitVec.ofNat 32 slot.offset) (slot.name ++ "Ptr")

def fieldAddress (field : RuntimeField) : Emit ValueId := slotAddress (.word field)

/-- Reads a field. -/
def getField (field : RuntimeField) : Emit ValueId := do
  let addr ← fieldAddress field
  load .word addr field.name

/-- Writes a field, which holds a word. -/
def setField (field : RuntimeField) (value : ValueId) : Emit Unit := do
  let ty ← valueType value
  if ty ≠ .word then throw (.fieldStoresWord field)
  let addr ← fieldAddress field
  store addr value

/-- Reads a pointer. -/
def getPointer (slot : PointerSlot) : Emit ValueId := do
  let addr ← slotAddress (.pointer slot)
  load .ptr addr slot.name

def callDataPointer : Emit ValueId := getPointer .callData

def codePointer : Emit ValueId := getPointer .code

def checkpointHandle : Emit ValueId := getPointer .checkpoint

def gas : Emit ValueId := getField .gas

def setGas (value : ValueId) : Emit Unit := setField .gas value

/-- Announces the part of the working memory that the call returns. If only the size is no word,
the offset has been written. -/
def registerReturnData (offset size : ValueId) : Emit Unit := do
  setField .returnDataOffset offset
  setField .returnDataSize size

/-- Reads the field that an opcode asks for. -/
def getByOpcode (op : Opcode) : Emit ValueId :=
  match op.contextField? with
  | some field => getField field
  | none => throw (.noField op)

/-- The extern that ends a call at once. -/
def abortPrimitive : Emit ExternId := do
  let d ← get
  let (id, m) ← MonadExcept.ofExcept d.module.abortPrimitive
  set { d with module := m }
  return id

/-- Ends the call at once with a status. -/
def raiseAbort (status : Status) : Emit Unit := do
  let abort ← abortPrimitive
  let handle ← checkpointHandle
  let code ← constI32 status.code
  let _ ← callExtern abort [handle, code]
  unreachable

/-- Returns a status. -/
def returnStatus (status : Status) : Emit Unit := do
  let code ← constI32 status.code
  ret (some code)

/-- Calls a helper, with the runtime handle put in among the arguments. -/
def callHelper (callee : FuncId) (args : List ValueId) : Emit (Option ValueId) := do
  let d ← get
  match d.module.functions[callee]? with
  | none => throw (.unknownFunction callee)
  | some g =>
    match g.role with
    | .entry => throw (.notHelper g.name)
    | .helper position =>
      if args.length < position then throw (.handleAfterArguments g.name)
      let handle ← runtimeHandle
      call callee (args.take position ++ handle :: args.drop position)

end Emit

/-! ## Edits as data -/

/-- An operation on the function that code is written into. -/
inductive Emission where
  | createBlock
  | switchTo (block : BlockId)
  | constWord (value : Word)
  | constI32 (value : Int32Bits)
  | ptrOffset (base : ValueId) (offset : BitVec 32) (name : String)
  | load (ty : Ty) (addr : ValueId) (name : String)
  | store (addr value : ValueId)
  | loadByte (base index : ValueId)
  | binary (op : BinaryOp) (lhs rhs : ValueId)
  | call (callee : FuncId) (args : List ValueId)
  | callExtern (callee : ExternId) (args : List ValueId)
  | jump (target : BlockId)
  | branch (cond : ValueId) (thenBlock elseBlock : BlockId)
  | ret (value : Option ValueId)
  | unreachable
  | fieldAddress (field : RuntimeField)
  | getField (field : RuntimeField)
  | setField (field : RuntimeField) (value : ValueId)
  | callDataPointer
  | codePointer
  | checkpointHandle
  | gas
  | setGas (value : ValueId)
  | getByOpcode (op : Opcode)
  | registerReturnData (offset size : ValueId)
  | raiseAbort (status : Status)
  | returnStatus (status : Status)
  | callHelper (callee : FuncId) (args : List ValueId)
  deriving DecidableEq, Repr

namespace Emission

/-- Runs an operation that makes a value or a block. -/
def answer (e : Emit Nat) : Emit (Option Nat) := do
  let n ← e
  return some n

/-- Runs an operation that makes nothing. -/
def noAnswer (e : Emit Unit) : Emit (Option Nat) := do
  e
  return none

/-- Carries out an operation. The answer is the number of the value or block it makes, if any. -/
def run : Emission → Emit (Option Nat)
  | createBlock => answer <| Emit.createBlock
  | switchTo block => noAnswer <| Emit.switchTo block
  | constWord value => answer <| Emit.constWord value
  | constI32 value => answer <| Emit.constI32 value
  | ptrOffset base offset name => answer <| Emit.ptrOffset base offset name
  | load ty addr name => answer <| Emit.load ty addr name
  | store addr value => noAnswer <| Emit.store addr value
  | loadByte base index => answer <| Emit.loadByte base index
  | binary op lhs rhs => answer <| Emit.binary op lhs rhs
  | call callee args => Emit.call callee args
  | callExtern callee args => Emit.callExtern callee args
  | jump target => noAnswer <| Emit.jump target
  | branch cond thenBlock elseBlock => noAnswer <| Emit.branch cond thenBlock elseBlock
  | ret value => noAnswer <| Emit.ret value
  | unreachable => noAnswer <| Emit.unreachable
  | fieldAddress field => answer <| Emit.fieldAddress field
  | getField field => answer <| Emit.getField field
  | setField field value => noAnswer <| Emit.setField field value
  | callDataPointer => answer <| Emit.callDataPointer
  | codePointer => answer <| Emit.codePointer
  | checkpointHandle => answer <| Emit.checkpointHandle
  | gas => answer <| Emit.gas
  | setGas value => noAnswer <| Emit.setGas value
  | getByOpcode op => answer <| Emit.getByOpcode op
  | registerReturnData offset size => noAnswer <| Emit.registerReturnData offset size
  | raiseAbort status => noAnswer <| Emit.raiseAbort status
  | returnStatus status => noAnswer <| Emit.returnStatus status
  | callHelper callee args => Emit.callHelper callee args

end Emission

/-- An operation on a module that is being written. -/
inductive Edit where
  | declareEntry (name : String)
  | declareHelper (name : String) (signature : Signature) (runtimeParam : Nat)
  | declareExtern (name : String) (signature : Signature) (noreturn : Bool)
  | abortPrimitive
  | select (func : FuncId)
  | emit (e : Emission)
  deriving DecidableEq, Repr

/-- A module that is being written, with the place at which code is written once a function has
been selected. -/
structure Manuscript where
  module : Module
  cursor : Option Cursor
  deriving DecidableEq, Repr

namespace Manuscript

/-- A new module. -/
def new (name : String) : Manuscript := ⟨.empty name, none⟩

/-- What an operation on a manuscript comes to: its answer or a misuse, and in both cases the
manuscript after it. -/
abbrev Revision (α : Type) := EStateM.Result Misuse Manuscript α

/-- Runs an operation at the place at which code is written. -/
def emit {α : Type} (s : Manuscript) (e : Emit α) : Revision α :=
  match s.cursor with
  | none => .error .noFunctionSelected s
  | some cursor =>
    match e.run ⟨s.module, cursor⟩ with
    | .ok a d => .ok a ⟨d.module, some d.cursor⟩
    | .error misuse d => .error misuse ⟨d.module, some d.cursor⟩

/-- Puts the result of a declaration in place. -/
def declare (s : Manuscript) : Except Misuse (Nat × Module) → Revision (Option Nat)
  | .ok (id, m) => .ok (some id) { s with module := m }
  | .error misuse => .error misuse s

/-- Goes to the start of a function. -/
def select (s : Manuscript) (func : FuncId) : Revision (Option Nat) :=
  match s.module.cursorAt func with
  | .ok cursor => .ok none { s with cursor := some cursor }
  | .error misuse => .error misuse s

/-- Carries out an edit. The answer is the number of what it makes, if anything. -/
def apply (s : Manuscript) : Edit → Revision (Option Nat)
  | .declareEntry name => s.declare (s.module.declareEntry name)
  | .declareHelper name signature runtimeParam =>
    s.declare (s.module.declareHelper name signature runtimeParam)
  | .declareExtern name signature noreturn =>
    s.declare (s.module.declareExtern name signature noreturn)
  | .abortPrimitive => s.declare s.module.abortPrimitive
  | .select func => s.select func
  | .emit e => s.emit e.run

/-- Carries out edits one after the other, none of which may be a misuse. -/
def applyAll (s : Manuscript) : List Edit → Except Misuse Manuscript
  | [] => .ok s
  | e :: rest =>
    match s.apply e with
    | .ok _ s => s.applyAll rest
    | .error misuse _ => .error misuse

end Manuscript

end HostBridge
