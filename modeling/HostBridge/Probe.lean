import HostBridge.Code.Emit
import HostBridge.Environment.Source
import HostBridge.Json.Value
import HostBridge.Machine.Step

/-!
# The probe

A check that host and generated code agree on the runtime block. `Probe.module` is a module whose
entry reads every context field by its opcode, and the first byte of call data and code where there
is one, and records what it reads under a tag. `Probe.run` runs it and sets what was observed beside
what the host expects.

The environment is asked twice: each query once when the runtime block is filled, and once more when
the report is made.
-/

set_option autoImplicit false

namespace HostBridge

namespace Probe

/-- The host function to which the probe reports. -/
def recordName : String := "probe.record"

/-- The tag of the first byte of the call data. -/
def callDataTag : Int32Bits := 0x100

/-- The tag of the first byte of the code. -/
def codeTag : Int32Bits := 0x101

/-- The tag of the field that an opcode reads. -/
def opcodeTag (op : Opcode) : Int32Bits := BitVec.ofNat 32 op.byte.toNat

/-! ## The module -/

/-- Records the field behind an opcode. -/
def emitField (record : ExternId) (op : Opcode) : Emit Unit := do
  let value ← Emit.getByOpcode op
  let tag ← Emit.constI32 (opcodeTag op)
  let _ ← Emit.callExtern record [tag, value]

/-- Records the first byte of a buffer if its size, in the given field, is not zero. -/
def emitFirstByte (record : ExternId) (sizeField : RuntimeField) (pointer : PointerSlot)
    (tag : Int32Bits) : Emit Unit := do
  let size ← Emit.getField sizeField
  let start ← Emit.constWord 0
  let nonEmpty ← Emit.binary .gt size start
  let read ← Emit.createBlock
  let done ← Emit.createBlock
  Emit.branch nonEmpty read done
  Emit.switchTo read
  let base ← Emit.getPointer pointer
  let byte ← Emit.loadByte base start
  let tag ← Emit.constI32 tag
  let _ ← Emit.callExtern record [tag, byte]
  Emit.jump done
  Emit.switchTo done

/-- The body of the entry function. -/
def emitBody (record : ExternId) : Emit Unit := do
  (Opcode.contextFields.map Prod.fst).forM (emitField record)
  emitFirstByte record .callDataSize .callData callDataTag
  emitFirstByte record .codeSize .code codeTag
  Emit.returnStatus .stop

/-- Writes the module. -/
def build : Except Misuse Module := do
  let (record, m) ← (Module.empty "abi-probe").declareExtern recordName ⟨[.i32, .word], none⟩ false
  let (entry, m) ← m.declareEntry "probe"
  let cursor ← m.cursorAt entry
  match (emitBody record).run ⟨m, cursor⟩ with
  | .ok _ d => return d.module
  | .error misuse _ => throw misuse

/-- The module of the probe. Nothing in `build` is a misuse. -/
def module : Module :=
  match build with
  | .ok m => m
  | .error _ => .empty "abi-probe"

/-! ## The host -/

/-- What the probe has recorded, in order. -/
abbrev Records := List (Int32Bits × Word)

/-- The host function of the probe: it records a tag and a word. -/
def behaviour (_ : Unit) (args : List Val) : Script Unit Records :=
  match args with
  | [tag, value] =>
    .attempt tag.asI32 fun tag => .attempt value.asWord fun value =>
      .modifyShared (· ++ [(tag, value)]) .silent
  | _ => .fail (recordName ++ " expects 2 arguments, got " ++ toString args.length)

/-- The functions on offer to the probe. -/
def hosts : Registry Unit := Registry.empty.register recordName 2 ()

/-! ## The report -/

/-- One comparison of the report. -/
structure Entry where
  probe : String
  expected : Option Word
  observed : Option Word
  deriving DecidableEq, Repr

/-- Whether host and generated code agree. -/
def Entry.matches (e : Entry) : Bool := e.expected = e.observed

/-- What the probe found. -/
structure Report where
  status : Status
  gasLeft : Word
  entries : List Entry
  deriving DecidableEq, Repr

namespace Report

/-- The comparisons on which host and generated code disagree. -/
def mismatches (r : Report) : List Entry := r.entries.filter fun e => !e.matches

/-- Whether host and generated code agree on everything. -/
def isConsistent (r : Report) : Bool := r.mismatches.isEmpty

/-- A word that may be missing, in JSON. -/
def wordToJson (w : Option Word) : Json.Value :=
  match w with
  | some w => .text w.text
  | none => .null

/-- The JSON form. -/
def toJson (r : Report) : Json.Value :=
  .record [("status", .text r.status.text), ("gas_left", .text r.gasLeft.text),
    ("entries", .list (r.entries.map fun e =>
      .record [("probe", .text e.probe), ("expected", wordToJson e.expected),
        ("observed", wordToJson e.observed)]))]

end Report

/-- The first byte of a buffer as a word. -/
def firstByte (bs : Bytes) : Option Word := bs.head?.map fun b => BitVec.ofNat 256 b.toNat

/-- The comparisons of what was recorded with what an environment answers. -/
def compare (gas : Word) (s : Snapshot) (records : Records) : List Entry :=
  (Opcode.contextFields.map fun (op, field) =>
    { probe := op.text ++ " -> " ++ field.name
      expected := (contextValue? field gas s).map Word.ofImage
      observed := records.lookup (opcodeTag op) })
    ++ [⟨"calldata[0]", firstByte s.callData, records.lookup callDataTag⟩,
      ⟨"code[0]", firstByte s.code, records.lookup codeTag⟩]

/-- The platform of the probe in an address space. -/
def platform (space : AddressSpace) : Platform Unit Records := .within space behaviour

/-- Steps that are enough for the probe, whatever its environment. -/
def maxSteps : Nat := 1000

/-- The call that the probe makes. -/
def request (space : AddressSpace) (source : Source) (gas : Word) (config : Config) :
    CallRequest Unit where
  module := module
  gas := gas
  env := .within space (source.snapshotAt 0)
  hosts := hosts
  config := config

/-- Runs the probe on a machine, which may have live checkpoints. -/
def runOn (space : AddressSpace) (source : Source) (gas : Word) (config : Config)
    (m : Machine Unit Records) : Option (Except BridgeError Report) :=
  let p := platform space
  let m := (m.enterCall p (request space source gas config) .outside).run p maxSteps
  match m.ending? with
  | some (.call (.ok outcome)) =>
    some (.ok ⟨outcome.status, outcome.gasLeft, compare gas (source.snapshotAt 1) m.shared⟩)
  | some (.call (.error e)) => some (.error e)
  | _ => none

/-- Runs the probe in an address space. It always ends in a result of its call. -/
def run (space : AddressSpace) (source : Source) (gas : Word) (config : Config) :
    Option (Except BridgeError Report) :=
  runOn space source gas config (.idle [] [])

end Probe

end HostBridge
