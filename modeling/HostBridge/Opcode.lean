import HostBridge.Layout

/-!
# Opcodes

The instruction set that generated code implements, as far as the bridge looks at it: which bytes
are assigned and under which mnemonic, how many immediate bytes follow, and which opcodes read a
field of the runtime block (`contextFields`).
-/

set_option autoImplicit false

namespace HostBridge

/-- An instruction byte, assigned or not. -/
structure Opcode where
  byte : UInt8
  deriving DecidableEq, Repr

namespace Opcode

/-- The opcodes with a mnemonic of their own. -/
def named : List (Nat × String) :=
  [(0x00, "STOP"), (0x01, "ADD"), (0x02, "MUL"), (0x03, "SUB"), (0x04, "DIV"), (0x05, "SDIV"),
    (0x06, "MOD"), (0x07, "SMOD"), (0x08, "ADDMOD"), (0x09, "MULMOD"), (0x0a, "EXP"),
    (0x0b, "SIGNEXTEND"),
    (0x10, "LT"), (0x11, "GT"), (0x12, "SLT"), (0x13, "SGT"), (0x14, "EQ"), (0x15, "ISZERO"),
    (0x16, "AND"), (0x17, "OR"), (0x18, "XOR"), (0x19, "NOT"), (0x1a, "BYTE"),
    (0x20, "SHA3"),
    (0x30, "ADDRESS"), (0x31, "BALANCE"), (0x32, "ORIGIN"), (0x33, "CALLER"), (0x34, "CALLVALUE"),
    (0x35, "CALLDATALOAD"), (0x36, "CALLDATASIZE"), (0x37, "CALLDATACOPY"), (0x38, "CODESIZE"),
    (0x39, "CODECOPY"), (0x3a, "GASPRICE"), (0x3b, "EXTCODESIZE"), (0x3c, "EXTCODECOPY"),
    (0x40, "PREVHASH"), (0x41, "COINBASE"), (0x42, "TIMESTAMP"), (0x43, "NUMBER"),
    (0x44, "DIFFICULTY"), (0x45, "GASLIMIT"),
    (0x50, "POP"), (0x51, "MLOAD"), (0x52, "MSTORE"), (0x53, "MSTORE8"), (0x54, "SLOAD"),
    (0x55, "SSTORE"), (0x56, "JUMP"), (0x57, "JUMPI"), (0x58, "PC"), (0x59, "MSIZE"),
    (0x5a, "GAS"), (0x5b, "JUMPDEST"),
    (0xf0, "CREATE"), (0xf1, "CALL"), (0xf2, "CALLCODE"), (0xf3, "RETURN"), (0xff, "SUICIDE")]

/-- A run of opcodes that share a stem: the first byte, the last byte, the stem, and the number
that the first of them carries. -/
structure Series where
  first : Nat
  last : Nat
  stem : String
  start : Nat

/-- The opcodes that come in numbered series. -/
def series : List Series :=
  [⟨0x60, 0x7f, "PUSH", 1⟩, ⟨0x80, 0x8f, "DUP", 1⟩, ⟨0x90, 0x9f, "SWAP", 1⟩, ⟨0xa0, 0xa4, "LOG", 0⟩]

/-- The mnemonic of an assigned opcode. -/
def mnemonic? (op : Opcode) : Option String :=
  let b := op.byte.toNat
  match named.lookup b with
  | some name => some name
  | none =>
    (series.find? fun s => s.first ≤ b ∧ b ≤ s.last).map
      fun s => s.stem ++ toString (b - s.first + s.start)

/-- Whether the byte stands for an instruction. -/
def isAssigned (op : Opcode) : Bool := op.mnemonic?.isSome

/-- How many immediate bytes follow the opcode. -/
def immediateSize (op : Opcode) : Nat :=
  let b := op.byte.toNat
  if 0x60 ≤ b ∧ b ≤ 0x7f then b - 0x60 + 1 else 0

/-- The mnemonic, or the byte in two hexadecimal digits where there is none. -/
def text (op : Opcode) : String :=
  match op.mnemonic? with
  | some name => name
  | none => "INVALID(" ++ Bytes.hex [op.byte] ++ ")"

/-- The opcodes that query the context of a call, with the field that answers each. -/
def contextFields : List (Opcode × RuntimeField) :=
  [(⟨0x5a⟩, .gas), (⟨0x30⟩, .address), (⟨0x33⟩, .caller), (⟨0x32⟩, .origin), (⟨0x34⟩, .callValue),
    (⟨0x36⟩, .callDataSize), (⟨0x3a⟩, .gasPrice), (⟨0x40⟩, .prevHash), (⟨0x41⟩, .coinbase),
    (⟨0x42⟩, .timestamp), (⟨0x43⟩, .number), (⟨0x44⟩, .difficulty), (⟨0x45⟩, .gasLimit),
    (⟨0x38⟩, .codeSize)]

/-- The field that answers an opcode. -/
def contextField? (op : Opcode) : Option RuntimeField := contextFields.lookup op

end Opcode

end HostBridge
