import HostBridge.Word

/-!
# Generated code

A `Module` is one unit of generated code: functions, the externs that the host provides, and which
function a call enters. The body of a function is a list of blocks of instructions over typed
values, each given by its number: first the parameters, then the results of instructions.

Two names matter to the bridge. The entry function takes the host and the address of the runtime
block and returns a status. Every helper takes the address of the runtime block too, at a position
of its own (`Role.runtimeParam`).
-/

set_option autoImplicit false

namespace HostBridge

/-- The number of a value in its function. -/
abbrev ValueId := Nat

/-- The number of a block in its function. -/
abbrev BlockId := Nat

/-- The number of a function in its module. -/
abbrev FuncId := Nat

/-- The number of an extern in its module. -/
abbrev ExternId := Nat

/-- The type of a value. -/
inductive Ty where
  | word
  | ptr
  | i32
  deriving DecidableEq, Repr

namespace Ty

/-- All types. -/
def all : List Ty := [word, ptr, i32]

/-- The name of a type. -/
def name : Ty → String
  | word => "word"
  | ptr => "ptr"
  | i32 => "i32"

/-- The type with a name. -/
def ofName? (name : String) : Option Ty := all.find? (·.name = name)

/-- Bytes that a value of the type takes in memory. -/
def size : Ty → Nat
  | word => wordSize
  | ptr => pointerSize
  | i32 => 4

end Ty

/-- The types that a function takes and the one it returns. -/
structure Signature where
  params : List Ty
  ret : Option Ty
  deriving DecidableEq, Repr

/-- The signature of every entry function: host and runtime block to a status. -/
def Signature.entry : Signature := ⟨[.ptr, .ptr], some .i32⟩

/-- The position of the host among the parameters of an entry function. -/
def entryHostParam : Nat := 0

/-- The position of the runtime block among the parameters of an entry function. -/
def entryRuntimeParam : Nat := 1

/-- What a function is for. -/
inductive Role where
  /-- A call enters the module here. -/
  | entry
  /-- Called from generated code, with the runtime block at the given parameter. -/
  | helper (runtimeParam : Nat)
  deriving DecidableEq, Repr

/-- The position of the runtime block among the parameters. -/
def Role.runtimeParam : Role → Nat
  | entry => entryRuntimeParam
  | helper i => i

/-- An operation on two words. -/
inductive BinaryOp where
  | add
  | sub
  | lt
  | gt
  | eq
  deriving DecidableEq, Repr

namespace BinaryOp

/-- All operations. -/
def all : List BinaryOp := [add, sub, lt, gt, eq]

/-- The name of an operation. -/
def mnemonic : BinaryOp → String
  | add => "add"
  | sub => "sub"
  | lt => "lt"
  | gt => "gt"
  | eq => "eq"

/-- The operation with a name. -/
def ofMnemonic? (name : String) : Option BinaryOp := all.find? (·.mnemonic = name)

/-- A truth value as a word. -/
def flag (b : Bool) : Word := if b then 1 else 0

/-- The result of an operation. Sums and differences wrap, comparisons are unsigned. -/
def apply : BinaryOp → Word → Word → Word
  | add, a, b => a + b
  | sub, a, b => a - b
  | lt, a, b => flag (a.toNat < b.toNat)
  | gt, a, b => flag (b.toNat < a.toNat)
  | eq, a, b => flag (a = b)

end BinaryOp

/-- An instruction. -/
inductive Inst where
  | const (dst : ValueId) (value : Word)
  | constI32 (dst : ValueId) (value : Int32Bits)
  | ptrOffset (dst base : ValueId) (offset : BitVec 32)
  | load (dst : ValueId) (ty : Ty) (addr : ValueId)
  | store (addr value : ValueId)
  | loadByte (dst base index : ValueId)
  | binary (dst : ValueId) (op : BinaryOp) (lhs rhs : ValueId)
  | call (dst : Option ValueId) (callee : FuncId) (args : List ValueId)
  | callExtern (dst : Option ValueId) (callee : ExternId) (args : List ValueId)
  | jump (target : BlockId)
  | branch (cond : ValueId) (thenBlock elseBlock : BlockId)
  | ret (value : Option ValueId)
  | unreachable
  deriving DecidableEq, Repr

namespace Inst

/-- Whether an instruction ends its block. -/
def isTerminator : Inst → Bool
  | jump _ | branch _ _ _ | ret _ | unreachable => true
  | _ => false

/-- The value that an instruction defines. -/
def dst? : Inst → Option ValueId
  | const dst _ | constI32 dst _ | ptrOffset dst _ _ | load dst _ _ | loadByte dst _ _
  | binary dst _ _ _ => some dst
  | call dst _ _ | callExtern dst _ _ => dst
  | store _ _ | jump _ | branch _ _ _ | ret _ | unreachable => none

end Inst

/-- A function. -/
structure Func where
  name : String
  signature : Signature
  role : Role
  blocks : List (List Inst)
  /-- The types of the values: first the parameters, then the results of instructions. -/
  values : List Ty
  /-- The names of the values, as far as they were given any. -/
  names : List (Option String)
  deriving DecidableEq, Repr

namespace Func

/-- The name of a parameter of a function with the given role. -/
def paramName (role : Role) (i : Nat) : String :=
  if role = .entry ∧ i = entryHostParam then "host"
  else if i = role.runtimeParam then "rt"
  else "arg" ++ toString i

/-- A function without code: one empty block, and its parameters for values. -/
def declare (name : String) (signature : Signature) (role : Role) : Func where
  name := name
  signature := signature
  role := role
  blocks := [[]]
  values := signature.params
  names := (List.range signature.params.length).map fun i => some (paramName role i)

/-- The value of a parameter. -/
def param? (f : Func) (i : Nat) : Option ValueId :=
  if i < f.signature.params.length then some i else none

/-- All instructions, block after block. -/
def insts (f : Func) : List Inst := f.blocks.flatten

/-- The type of a value. -/
def valueType? (f : Func) (v : ValueId) : Option Ty := f.values[v]?

/-- The name of a value. -/
def valueName? (f : Func) (v : ValueId) : Option String := (f.names[v]?).join

/-- The function with one more value. -/
def addValue (f : Func) (ty : Ty) (name : Option String) : Func :=
  { f with values := f.values ++ [ty], names := f.names ++ [name] }

/-- The function with one more empty block. -/
def addBlock (f : Func) : Func := { f with blocks := f.blocks ++ [[]] }

/-- The function with an instruction added at the end of a block. -/
def append (f : Func) (block : BlockId) (i : Inst) : Func :=
  { f with blocks := f.blocks.modify block (· ++ [i]) }

end Func

/-- A function that the host provides. -/
structure ExternDecl where
  name : String
  signature : Signature
  noreturn : Bool
  deriving DecidableEq, Repr

/-- A unit of generated code. -/
structure Module where
  name : String
  functions : List Func
  externs : List ExternDecl
  entry : Option FuncId
  /-- The extern that ends a call at once, as soon as it has been asked for. -/
  abort : Option ExternId
  deriving DecidableEq, Repr

namespace Module

/-- A module with nothing in it. -/
def empty (name : String) : Module := ⟨name, [], [], none, none⟩

/-- The function with a name. -/
def findFunction? (m : Module) (name : String) : Option FuncId :=
  m.functions.findIdx? (·.name = name)

/-- The extern with a name. -/
def findExtern? (m : Module) (name : String) : Option ExternId :=
  m.externs.findIdx? (·.name = name)

/-- The module with one function changed. -/
def modifyFunction (m : Module) (id : FuncId) (change : Func → Func) : Module :=
  { m with functions := m.functions.modify id change }

end Module

end HostBridge
