import HostBridge.Code.Basic

/-!
# The text of a module

`Module.dump` shows a module for a reader: a line for each extern, then the functions with their
blocks and instructions. A value is shown by `Func.label`, its name if it has one and its number.
-/

set_option autoImplicit false

namespace HostBridge

namespace Func

/-- How a value is shown. -/
def label (f : Func) (v : ValueId) : String :=
  match f.valueName? v with
  | some name => "%" ++ name ++ "." ++ toString v
  | none => "%" ++ toString v

/-- Values separated by commas. -/
def labels (f : Func) (vs : List ValueId) : String := String.intercalate ", " (vs.map f.label)

/-- The definition of a value, if there is one, by what follows. -/
def define (f : Func) (dst : Option ValueId) (body : String) : String :=
  match dst with
  | some v => f.label v ++ " = " ++ body
  | none => body

end Func

/-- The type that a function returns, behind an arrow. -/
def Signature.arrow (s : Signature) : String :=
  match s.ret with
  | some ty => " -> " ++ ty.name
  | none => ""

/-- The line of an extern. -/
def ExternDecl.dump (e : ExternDecl) : String :=
  "extern " ++ e.name ++ "(" ++ String.intercalate ", " (e.signature.params.map Ty.name) ++ ")"
    ++ e.signature.arrow ++ (if e.noreturn then " noreturn" else "") ++ "\n"

namespace Module

/-- The name of a function, or a question mark if there is none. -/
def functionName (m : Module) (id : FuncId) : String :=
  match m.functions[id]? with
  | some f => f.name
  | none => "?"

/-- The name of an extern, or a question mark if there is none. -/
def externName (m : Module) (id : ExternId) : String :=
  match m.externs[id]? with
  | some e => e.name
  | none => "?"

/-- The text of an instruction. -/
def dumpInst (m : Module) (f : Func) : Inst → String
  | .const dst value => f.define (some dst) ("const " ++ value.text)
  | .constI32 dst value => f.define (some dst) ("const.i32 " ++ toString value.toInt)
  | .ptrOffset dst base offset =>
    f.define (some dst) ("ptr.offset " ++ f.label base ++ ", " ++ toString offset.toNat)
  | .load dst ty addr => f.define (some dst) ("load." ++ ty.name ++ " " ++ f.label addr)
  | .store addr value => "store " ++ f.label addr ++ ", " ++ f.label value
  | .loadByte dst base index =>
    f.define (some dst) ("load.byte " ++ f.label base ++ ", " ++ f.label index)
  | .binary dst op lhs rhs =>
    f.define (some dst) (op.mnemonic ++ " " ++ f.label lhs ++ ", " ++ f.label rhs)
  | .call dst callee args =>
    f.define dst ("call " ++ m.functionName callee ++ "(" ++ f.labels args ++ ")")
  | .callExtern dst callee args =>
    f.define dst ("call.extern " ++ m.externName callee ++ "(" ++ f.labels args ++ ")")
  | .jump target => "jump block" ++ toString target
  | .branch cond thenBlock elseBlock =>
    "branch " ++ f.label cond ++ ", block" ++ toString thenBlock ++ ", block"
      ++ toString elseBlock
  | .ret (some value) => "return " ++ f.label value
  | .ret none => "return"
  | .unreachable => "unreachable"

/-- The lines of a block. -/
def dumpBlock (m : Module) (f : Func) (block : BlockId) (insts : List Inst) : String :=
  "block" ++ toString block ++ ":\n"
    ++ String.join (insts.map fun i => "  " ++ m.dumpInst f i ++ "\n")

/-- The first line of a function. -/
def dumpHeader (m : Module) (id : FuncId) (f : Func) : String :=
  "fn " ++ f.name ++ "("
    ++ String.intercalate ", "
      (f.signature.params.zipIdx.map fun (ty, i) => f.label i ++ ": " ++ ty.name)
    ++ ")" ++ f.signature.arrow ++ (if m.entry = some id then " [entry]" else "") ++ "\n"

/-- The lines of a function, after a blank one. -/
def dumpFunction (m : Module) (id : FuncId) (f : Func) : String :=
  "\n" ++ m.dumpHeader id f
    ++ String.join (f.blocks.zipIdx.map fun (insts, block) => m.dumpBlock f block insts)

/-- The text of a module. -/
def dump (m : Module) : String :=
  "module " ++ m.name ++ "\n" ++ String.join (m.externs.map ExternDecl.dump)
    ++ String.join (m.functions.zipIdx.map fun (f, id) => m.dumpFunction id f)

end Module

end HostBridge
