import HostBridge.Word

/-!
# Address spaces

Where things lie in memory: the buffers of the environment, the runtime block of each call and the
handle of each checkpoint. Each kind of thing has a zone of its own, so that nothing meets anything
else, and inside its zone everything may lie anywhere.

A program cannot know its address space. `AddressSpace.drawn` draws one from a seed: an address that
is a number in a program, or a known distance from another address, leads to nothing in it but by an
unlikely chance. Where addresses are never looked at, `AddressSpace.usual` will do.
-/

set_option autoImplicit false

namespace HostBridge

/-- The places of all things that have an address. -/
structure AddressSpace where
  callDataAt : Addr
  codeAt : Addr
  /-- The runtime block of a call at the given depth. -/
  blockAt : Nat → Addr
  /-- The handle of the checkpoint with the given number. -/
  handleAt : Nat → Addr

namespace AddressSpace

/-! ## Zones -/

/-- What has a zone of its own. -/
inductive Zone where
  | callData
  | code
  | block
  | handle
  deriving DecidableEq, Repr

namespace Zone

/-- The size of a zone. -/
def size : Nat := 0x4000000000

/-- Where a zone starts. All of them lie at the upper end of what a process can address. -/
def start : Zone → Nat
  | callData => 0x7f0000000000
  | code => 0x7f0000000000 + size
  | block => 0x7f0000000000 + 2 * size
  | handle => 0x7f0000000000 + 3 * size

end Zone

/-- The addresses from an offset in a zone on, in equal steps. -/
def sequence (zone : Zone) (offset step : Nat) (i : Nat) : Addr :=
  BitVec.ofNat 64 (zone.start + offset + i * step)

/-! ## Drawing -/

/-- A number that is well mixed from a seed and a position. -/
def mix (seed : UInt64) (position : Nat) : Nat :=
  let x := seed + UInt64.ofNat (position + 1) * 0x9e3779b97f4a7c15
  let x := (x ^^^ (x >>> 30)) * 0xbf58476d1ce4e5b9
  let x := (x ^^^ (x >>> 27)) * 0x94d049bb133111eb
  (x ^^^ (x >>> 31)).toNat

/-- The bytes of a page, at which buffers and blocks start. -/
def pageSize : Nat := 0x1000

/-- The offset of a page in the lower half of a zone. -/
def pageOffset (seed : UInt64) (position : Nat) : Nat :=
  pageSize * (mix seed position % (Zone.size / 2 / pageSize))

/-- An address space that depends on a seed. The blocks of nested calls are at least 64 KiB apart,
and handles at least 32 bytes. -/
def drawn (seed : UInt64) : AddressSpace where
  callDataAt := sequence .callData (pageOffset seed 0) 0 0
  codeAt := sequence .code (pageOffset seed 1) 0 0
  blockAt := sequence .block (pageOffset seed 2) (0x10000 + 16 * (mix seed 3 % 0x1000))
  handleAt := sequence .handle (pageOffset seed 4) (0x20 + 16 * (mix seed 5 % 0x40))

/-- An address space in which everything lies at the start of its zone. -/
def usual : AddressSpace where
  callDataAt := sequence .callData 0 0 0
  codeAt := sequence .code 0 0 0
  blockAt := sequence .block 0 0x10000
  handleAt := sequence .handle 0 0x20

end AddressSpace

end HostBridge
