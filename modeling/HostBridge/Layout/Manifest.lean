import HostBridge.Json.Reader
import HostBridge.Layout

/-!
# Layout manifests

A manifest describes a layout of the runtime block as data, so that the generator of code and its
host can compare theirs. `Manifest.current` is the one of this library; `Manifest.mismatches`
lists the differences of two, header first, then slot by slot as far as both lists go.
-/

set_option autoImplicit false

namespace HostBridge

open Json

/-- One slot of a described layout. -/
structure SlotEntry where
  name : String
  kind : SlotKind
  offset : Nat
  size : Nat
  deriving DecidableEq, Repr

/-- A described layout. -/
structure Manifest where
  abiVersion : Nat
  wordSize : Nat
  pointerSize : Nat
  totalSize : Nat
  slots : List SlotEntry
  deriving DecidableEq, Repr

/-- A difference between two layouts, ours first. -/
inductive Mismatch where
  | abiVersion (ours theirs : Nat)
  | wordSize (ours theirs : Nat)
  | pointerSize (ours theirs : Nat)
  | totalSize (ours theirs : Nat)
  | slotCount (ours theirs : Nat)
  | slot (position : Nat) (ours theirs : SlotEntry)
  deriving DecidableEq, Repr

namespace SlotEntry

/-- The entry for a slot of this layout. -/
def ofSlot (s : Slot) : SlotEntry := ⟨s.name, s.kind, s.offset, s.size⟩

/-- The entry as differences show it. -/
def text (e : SlotEntry) : String :=
  e.name ++ " " ++ e.kind.title ++ " @" ++ toString e.offset ++ "+" ++ toString e.size

/-- The JSON form. -/
def toJson (e : SlotEntry) : Value :=
  .record [("name", .text e.name), ("kind", .text e.kind.name), ("offset", .natural e.offset),
    ("size", .natural e.size)]

/-- Reads the kind of a slot: its name, or an object with the name as its only key and no value. -/
def kindOfJson? : Value → Option SlotKind
  | .text name => kindOfName? name
  | .record [(name, .null)] => kindOfName? name
  | _ => none
where
  /-- The kind with a name. -/
  kindOfName? (name : String) : Option SlotKind :=
    if name = "word" then some .word else if name = "pointer" then some .pointer else none

/-- Reads the JSON form. -/
def ofJson? (v : Value) : Option SlotEntry :=
  match v.fields? ["name", "kind", "offset", "size"] false with
  | some [name, kind, offset, size] => do
    let name ← required (·.text?) name
    let kind ← required kindOfJson? kind
    let offset ← required (·.natural? 8) offset
    let size ← required (·.natural? 8) size
    return ⟨name, kind, offset, size⟩
  | _ => none

end SlotEntry

namespace Mismatch

/-- The wording of a difference. -/
def text : Mismatch → String
  | abiVersion ours theirs => "abi version " ++ unequal ours theirs
  | wordSize ours theirs => "word size " ++ unequal ours theirs
  | pointerSize ours theirs => "pointer size " ++ unequal ours theirs
  | totalSize ours theirs => "total size " ++ unequal ours theirs
  | slotCount ours theirs => "slot count " ++ unequal ours theirs
  | slot position ours theirs =>
    "slot #" ++ toString position ++ ": " ++ ours.text ++ " != " ++ theirs.text
where
  /-- Two numbers that differ. -/
  unequal (ours theirs : Nat) : String := toString ours ++ " != " ++ toString theirs

end Mismatch

namespace Manifest

/-- The manifest of this layout. -/
def current : Manifest :=
  ⟨HostBridge.abiVersion, HostBridge.wordSize, HostBridge.pointerSize, runtimeDataSize,
    Slot.all.map SlotEntry.ofSlot⟩

/-- The difference, if there is one, under the name given to it. -/
def differing {α : Type} [DecidableEq α] (report : α → α → Mismatch) (ours theirs : α) :
    List Mismatch :=
  if ours = theirs then [] else [report ours theirs]

/-- The differing slots at positions that both lists have, counted from `position`. -/
def slotMismatches : Nat → List SlotEntry → List SlotEntry → List Mismatch
  | position, ours :: ourRest, theirs :: theirRest =>
    differing (.slot position) ours theirs ++ slotMismatches (position + 1) ourRest theirRest
  | _, _, _ => []

/-- All differences between two layouts. -/
def mismatches (ours theirs : Manifest) : List Mismatch :=
  differing .abiVersion ours.abiVersion theirs.abiVersion
    ++ differing .wordSize ours.wordSize theirs.wordSize
    ++ differing .pointerSize ours.pointerSize theirs.pointerSize
    ++ differing .totalSize ours.totalSize theirs.totalSize
    ++ differing .slotCount ours.slots.length theirs.slots.length
    ++ slotMismatches 0 ours.slots theirs.slots

/-- The JSON form. -/
def toJson (m : Manifest) : Value :=
  .record [("abi_version", .natural m.abiVersion), ("word_size", .natural m.wordSize),
    ("pointer_size", .natural m.pointerSize), ("total_size", .natural m.totalSize),
    ("slots", .list (m.slots.map SlotEntry.toJson))]

/-- The entries that an array of entries holds. -/
def slotsOfJson? : Value → Option (List SlotEntry)
  | .list items => items.mapM SlotEntry.ofJson?
  | _ => none

/-- Reads the JSON form, in which every field must be there. -/
def ofJson? (v : Value) : Option Manifest :=
  match v.fields? ["abi_version", "word_size", "pointer_size", "total_size", "slots"] false with
  | some [abiVersion, wordSize, pointerSize, totalSize, slots] => do
    let abiVersion ← required (·.natural? 2) abiVersion
    let wordSize ← required (·.natural? 8) wordSize
    let pointerSize ← required (·.natural? 8) pointerSize
    let totalSize ← required (·.natural? 8) totalSize
    let slots ← required slotsOfJson? slots
    return ⟨abiVersion, wordSize, pointerSize, totalSize, slots⟩
  | _ => none

/-- Reads a manifest from its JSON text. -/
def parse? (text : String) : Option Manifest := (Value.parse? text).bind ofJson?

end Manifest

end HostBridge
