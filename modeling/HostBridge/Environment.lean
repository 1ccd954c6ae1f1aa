import HostBridge.AddressSpace
import HostBridge.Config
import HostBridge.Layout

/-!
# Environments

What a call can learn of the chain around it. A `Snapshot` fixes the answer to each of eleven
queries and the two buffers, the call data and the code. `contextValue?` is the image that each
field of the runtime block gets from it.

An `Environment` is a snapshot together with the places of its two buffers in memory, and
`Environment.place` tells where an address lies as seen from them.

A snapshot is exchanged as JSON: words as minimal hexadecimal texts, byte strings as hexadecimal
texts of full length. Reading accepts more: words as numbers or in another radix, byte strings as
arrays, and any field left out. An array for a byte string of fixed length may even end in one item
that is no byte.
-/

set_option autoImplicit false

namespace HostBridge

open Json

/-- The answers to the eleven queries. -/
structure Answers where
  address : AccountAddress
  caller : AccountAddress
  origin : AccountAddress
  value : Word
  gasPrice : Word
  previousBlockHash : BlockHash
  coinbase : AccountAddress
  timestamp : Word
  number : Word
  difficulty : Word
  gasLimit : Word
  deriving DecidableEq, Repr

/-- A fixed environment. -/
structure Snapshot extends Answers where
  callData : Bytes
  code : Bytes
  deriving DecidableEq, Repr

namespace Snapshot

/-- The environment in which every answer is zero and both buffers are empty. -/
def zero : Snapshot where
  address := Octets.zero _
  caller := Octets.zero _
  origin := Octets.zero _
  value := 0
  gasPrice := 0
  previousBlockHash := Octets.zero _
  coinbase := Octets.zero _
  timestamp := 0
  number := 0
  difficulty := 0
  gasLimit := 0
  callData := []
  code := []

instance : Inhabited Snapshot := ⟨zero⟩

/-! ## JSON -/

/-- The keys of the JSON form, in order, with the lengths of the byte strings that have a fixed
one. -/
def shape : Shape :=
  [("address", some addressSize), ("caller", some addressSize), ("origin", some addressSize),
    ("value", none), ("gas_price", none), ("previous_block_hash", some wordSize),
    ("coinbase", some addressSize), ("timestamp", none), ("number", none), ("difficulty", none),
    ("gas_limit", none), ("call_data", none), ("code", none)]

/-- The keys of the JSON form, in order. -/
def keys : List String := shape.map Prod.fst

/-- A word in JSON. -/
def wordToJson (w : Word) : Value := .text w.text

/-- A byte string in JSON. -/
def bytesToJson (bs : Bytes) : Value := .text (Bytes.hex bs)

/-- Reads a word: a natural number of 64 bits or the text of a word. -/
def wordOfJson? : Value → Option Word
  | .text s => Word.parse? s
  | v => (v.natural? 8).map (BitVec.ofNat 256)

/-- Reads a byte string: hexadecimal text or an array of numbers below 256. -/
def bytesOfJson? : Value → Option Bytes
  | .text s => Bytes.ofHex? s
  | v => v.octets?

/-- Reads a byte string of exactly `n` bytes: hexadecimal text or an array, which may end in one
item that is no byte. -/
def octetsOfJson? (n : Nat) : Value → Option (Octets n)
  | .text s => (Bytes.ofHex? s).bind (Octets.ofBytes? n)
  | v => (v.fixedOctets? n).bind (Octets.ofBytes? n)

/-- The JSON form. -/
def toJson (s : Snapshot) : Value :=
  .record [("address", bytesToJson s.address.bytes), ("caller", bytesToJson s.caller.bytes),
    ("origin", bytesToJson s.origin.bytes), ("value", wordToJson s.value),
    ("gas_price", wordToJson s.gasPrice),
    ("previous_block_hash", bytesToJson s.previousBlockHash.bytes),
    ("coinbase", bytesToJson s.coinbase.bytes), ("timestamp", wordToJson s.timestamp),
    ("number", wordToJson s.number), ("difficulty", wordToJson s.difficulty),
    ("gas_limit", wordToJson s.gasLimit), ("call_data", bytesToJson s.callData),
    ("code", bytesToJson s.code)]

/-- Reads the JSON form; a field that is missing is zero or empty. -/
def ofJson? (v : Value) : Option Snapshot :=
  match v.fields? keys false with
  | some [address, caller, origin, value, gasPrice, hash, coinbase, timestamp, number, difficulty,
      gasLimit, callData, code] => do
    let address ← orDefault (octetsOfJson? _) zero.address address
    let caller ← orDefault (octetsOfJson? _) zero.caller caller
    let origin ← orDefault (octetsOfJson? _) zero.origin origin
    let value ← orDefault wordOfJson? zero.value value
    let gasPrice ← orDefault wordOfJson? zero.gasPrice gasPrice
    let hash ← orDefault (octetsOfJson? _) zero.previousBlockHash hash
    let coinbase ← orDefault (octetsOfJson? _) zero.coinbase coinbase
    let timestamp ← orDefault wordOfJson? zero.timestamp timestamp
    let number ← orDefault wordOfJson? zero.number number
    let difficulty ← orDefault wordOfJson? zero.difficulty difficulty
    let gasLimit ← orDefault wordOfJson? zero.gasLimit gasLimit
    let callData ← orDefault bytesOfJson? zero.callData callData
    let code ← orDefault bytesOfJson? zero.code code
    return {
      address, caller, origin, value, gasPrice, previousBlockHash := hash, coinbase, timestamp,
      number, difficulty, gasLimit, callData, code }
  | _ => none

/-- Reads a snapshot from its JSON text. -/
def parse (text : String) : Except ConfigFault Snapshot :=
  match (Value.read? shape text).bind ofJson? with
  | some s => .ok s
  | none => .error .malformedEnvironment

end Snapshot

/-- The image that a field of the runtime block starts with, for a call with the given gas. The two
internal fields have none. -/
def contextValue? (field : RuntimeField) (gas : Word) (s : Snapshot) : Option WordImage :=
  match field with
  | .gas => some gas.image
  | .address => some (.ofAddress s.address)
  | .caller => some (.ofAddress s.caller)
  | .origin => some (.ofAddress s.origin)
  | .callValue => some s.value.image
  | .callDataSize => some (.ofSize s.callData.length)
  | .gasPrice => some s.gasPrice.image
  | .prevHash => some (.ofHash s.previousBlockHash)
  | .coinbase => some (.ofAddress s.coinbase)
  | .timestamp => some s.timestamp.image
  | .number => some s.number.image
  | .difficulty => some s.difficulty.image
  | .gasLimit => some s.gasLimit.image
  | .codeSize => some (.ofSize s.code.length)
  | .returnDataOffset => none
  | .returnDataSize => none

/-- A snapshot whose buffers have a place in memory. -/
structure Environment where
  snapshot : Snapshot
  callDataAt : Addr
  codeAt : Addr
  deriving DecidableEq, Repr

/-- Where an address lies. -/
inductive Place where
  /-- Not in the part of the address space that is ever used. -/
  | absolute (a : Addr)
  /-- In the call data or at most `slack` bytes after its end. -/
  | callData (offset : Nat)
  /-- In the code or at most `slack` bytes after its end. -/
  | code (offset : Nat)
  | elsewhere
  deriving DecidableEq, Repr

namespace Environment

/-- Bytes after each buffer that are known to be unmapped. -/
def slack : Nat := 65536

/-- The snapshot with its buffers at their places in an address space. -/
def within (space : AddressSpace) (s : Snapshot) : Environment :=
  ⟨s, space.callDataAt, space.codeAt⟩

instance : Inhabited Environment := ⟨within .usual .zero⟩

/-- The offset of an address in a buffer or in the slack behind it. -/
def offsetIn? (base : Addr) (size : Nat) (a : Addr) : Option Nat :=
  if base.toNat ≤ a.toNat ∧ a.toNat ≤ base.toNat + size + slack then some (a.toNat - base.toNat)
  else none

/-- Where an address lies as seen from the buffers. -/
def place (env : Environment) (a : Addr) : Place :=
  if a.toNat < Bytes.capacity 4 ∨ Bytes.capacity 8 / 2 ≤ a.toNat then .absolute a
  else match offsetIn? env.callDataAt env.snapshot.callData.length a with
    | some offset => .callData offset
    | none => match offsetIn? env.codeAt env.snapshot.code.length a with
      | some offset => .code offset
      | none => .elsewhere

end Environment

end HostBridge
