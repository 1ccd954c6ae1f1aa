import HostBridge.Code.Basic

/-!
# Verification

`Module.verify` decides whether a module may run: it has an entry, and every function passes
`Module.checkFunction`, which looks at the signature, then at block after block, and inside a block
first at where terminators stand and then at every instruction. The first flaw found is reported,
with the name of the function it is in.
-/

set_option autoImplicit false

namespace HostBridge

/-- What a value is used for, or is the result of. -/
inductive Use where
  | const
  | constI32
  | offsetBase
  | offsetResult
  | loadAddress
  | loadResult
  | storeAddress
  | byteBase
  | byteIndex
  | byteResult
  | binary (op : BinaryOp)
  | argument (callee : String)
  | result (callee : String)
  | condition
  | returned
  deriving DecidableEq, Repr

/-- The wording of a use. -/
def Use.text : Use → String
  | const => "const"
  | constI32 => "const.i32"
  | offsetBase => "ptr.offset base"
  | offsetResult => "ptr.offset result"
  | loadAddress => "load address"
  | loadResult => "load result"
  | storeAddress => "store address"
  | byteBase => "load.byte base"
  | byteIndex => "load.byte index"
  | byteResult => "load.byte result"
  | binary op => op.mnemonic
  | argument callee => "argument to '" ++ callee ++ "'"
  | result callee => "result of '" ++ callee ++ "'"
  | condition => "branch condition"
  | returned => "return value"

/-- Why a module may not run. -/
inductive Flaw where
  | noEntry
  | entrySignature
  | handleNotPointer (param : Nat)
  | emptyBlock (block : BlockId)
  | openBlock (block : BlockId)
  | earlyTerminator (block : BlockId)
  | undefinedValue (v : ValueId)
  | wrongType (use : Use) (expected actual : Ty) (v : ValueId)
  | missingBlock (block : BlockId)
  | wrongArity (callee : String) (passed expected : Nat)
  | returnsNothing (callee : String)
  | unknownFunction (id : FuncId)
  | callsEntry
  | unknownExtern (id : ExternId)
  | noreturnResult (callee : String)
  | wrongReturn
  deriving DecidableEq, Repr

/-- The wording of a flaw. -/
def Flaw.message : Flaw → String
  | noEntry => "module has no entry function"
  | entrySignature => "entry function must be (ptr, ptr) -> i32"
  | handleNotPointer param => "runtime handle parameter " ++ toString param ++ " is not a ptr"
  | emptyBlock block => "block" ++ toString block ++ " is empty"
  | openBlock block => "block" ++ toString block ++ " does not end in a terminator"
  | earlyTerminator block => "block" ++ toString block ++ " has a terminator before its end"
  | undefinedValue v => "undefined value %" ++ toString v
  | wrongType use expected actual v =>
    use.text ++ ": expected " ++ expected.name ++ ", found " ++ actual.name ++ " (%" ++ toString v
      ++ ")"
  | missingBlock block => "branch to missing block" ++ toString block
  | wrongArity callee passed expected =>
    "call to '" ++ callee ++ "' passes " ++ toString passed ++ " arguments, expected "
      ++ toString expected
  | returnsNothing callee => "'" ++ callee ++ "' returns nothing"
  | unknownFunction id => "call to unknown function " ++ toString id
  | callsEntry => "the entry function cannot be called"
  | unknownExtern id => "call to unknown extern " ++ toString id
  | noreturnResult callee => "noreturn extern '" ++ callee ++ "' has a result"
  | wrongReturn => "return does not match the function signature"

namespace Func

/-- The type of a value that must exist. -/
def checkValue (f : Func) (v : ValueId) : Except Flaw Ty :=
  match f.valueType? v with
  | some ty => .ok ty
  | none => .error (.undefinedValue v)

/-- A value must exist and have the type that its use needs. -/
def expect (f : Func) (use : Use) (ty : Ty) (v : ValueId) : Except Flaw Unit := do
  let actual ← f.checkValue v
  if actual = ty then .ok () else .error (.wrongType use ty actual v)

/-- A block that is jumped to must exist. -/
def checkTarget (f : Func) (block : BlockId) : Except Flaw Unit :=
  if block < f.blocks.length then .ok () else .error (.missingBlock block)

/-- Arguments must fit the parameters one by one, and a result needs a callee that returns. -/
def checkCall (f : Func) (callee : String) (signature : Signature) (dst : Option ValueId)
    (args : List ValueId) : Except Flaw Unit := do
  if args.length ≠ signature.params.length then
    throw (.wrongArity callee args.length signature.params.length)
  (args.zip signature.params).forM fun (v, ty) => f.expect (.argument callee) ty v
  match dst, signature.ret with
  | none, _ => .ok ()
  | some dst, some ty => f.expect (.result callee) ty dst
  | some _, none => .error (.returnsNothing callee)

/-- The signature must be the one that the role asks for. -/
def checkSignature (f : Func) : Except Flaw Unit :=
  match f.role with
  | .entry => if f.signature = .entry then .ok () else .error .entrySignature
  | .helper param =>
    if f.signature.params[param]? = some .ptr then .ok () else .error (.handleNotPointer param)

end Func

namespace Module

/-- An instruction must use values, blocks and callees that exist and fit. -/
def checkInst (m : Module) (f : Func) : Inst → Except Flaw Unit
  | .const dst _ => f.expect .const .word dst
  | .constI32 dst _ => f.expect .constI32 .i32 dst
  | .ptrOffset dst base _ => do
    f.expect .offsetBase .ptr base
    f.expect .offsetResult .ptr dst
  | .load dst ty addr => do
    f.expect .loadAddress .ptr addr
    f.expect .loadResult ty dst
  | .store addr value => do
    f.expect .storeAddress .ptr addr
    let _ ← f.checkValue value
  | .loadByte dst base index => do
    f.expect .byteBase .ptr base
    f.expect .byteIndex .word index
    f.expect .byteResult .word dst
  | .binary dst op lhs rhs => do
    f.expect (.binary op) .word lhs
    f.expect (.binary op) .word rhs
    f.expect (.binary op) .word dst
  | .call dst callee args =>
    match m.functions[callee]? with
    | none => .error (.unknownFunction callee)
    | some g =>
      if g.role = .entry then .error .callsEntry else f.checkCall g.name g.signature dst args
  | .callExtern dst callee args =>
    match m.externs[callee]? with
    | none => .error (.unknownExtern callee)
    | some e =>
      if e.noreturn ∧ dst.isSome then .error (.noreturnResult e.name)
      else f.checkCall e.name e.signature dst args
  | .jump target => f.checkTarget target
  | .branch cond thenBlock elseBlock => do
    f.expect .condition .word cond
    f.checkTarget thenBlock
    f.checkTarget elseBlock
  | .ret value =>
    match value, f.signature.ret with
    | none, none => .ok ()
    | some v, some ty => f.expect .returned ty v
    | _, _ => .error .wrongReturn
  | .unreachable => .ok ()

/-- A block must end in its only terminator, and its instructions must check. -/
def checkBlock (m : Module) (f : Func) (block : BlockId) (insts : List Inst) : Except Flaw Unit :=
  match insts.getLast? with
  | none => .error (.emptyBlock block)
  | some last => do
    if !last.isTerminator then throw (.openBlock block)
    if insts.dropLast.any Inst.isTerminator then throw (.earlyTerminator block)
    insts.forM (m.checkInst f)

/-- A function must have the signature of its role, and its blocks must check. -/
def checkFunction (m : Module) (f : Func) : Except Flaw Unit := do
  f.checkSignature
  f.blocks.zipIdx.forM fun (insts, block) => m.checkBlock f block insts

/-- The first flaw of a module, with the name of the function that has it. A missing entry is a
flaw of the module itself. -/
def verify (m : Module) : Except (String × Flaw) Unit :=
  match m.entry with
  | none => .error (m.name, .noEntry)
  | some _ => m.functions.forM fun f => (m.checkFunction f).mapError fun flaw => (f.name, flaw)

end Module

end HostBridge
