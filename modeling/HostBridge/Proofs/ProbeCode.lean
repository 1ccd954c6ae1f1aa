import HostBridge.Probe
import HostBridge.Proofs.Bodies
import HostBridge.Proofs.Calls
import HostBridge.Proofs.Context

/-!
# What the probe consists of

The module of the probe is put together from a few passages: one for each field that an opcode
reads, and for each buffer one that looks at its size and one that reads its first byte. The report
compares what such code records by tag, and the tags are distinct.

* `Probe.module_eq` — the module, passage after passage;
* `Probe.prepare_request` — it verifies and can be bound, so the probe is never refused;
* `Probe.compare_eq` — what the report says about what has been recorded.
-/

set_option autoImplicit false

namespace HostBridge

namespace Probe

/-! ## The code -/

/-- The number of the extern that records: there is no other. -/
def recordExtern : ExternId := 0

/-- Records the field behind an opcode. -/
def fieldPassage (next : ValueId) (op : Opcode) (field : RuntimeField) : Passage :=
  .fetch entryHandle next .word (.word field) ++
    ⟨[.i32], [none], [.constI32 (next + 2) (opcodeTag op),
      .callExtern none recordExtern [next + 2, next + 1]]⟩

/-- Records one field after the other. -/
def contextPassage : ValueId → List (Opcode × RuntimeField) → Passage
  | _, [] => ⟨[], [], []⟩
  | next, (op, field) :: more => fieldPassage next op field ++ contextPassage (next + 3) more

/-- Branches on whether a size is zero. -/
def sizePassage (next : ValueId) (sizeField : RuntimeField) (read done : BlockId) : Passage :=
  .fetch entryHandle next .word (.word sizeField) ++
    ⟨[.word, .word], [none, none], [.const (next + 2) 0,
      .binary (next + 3) .gt (next + 1) (next + 2), .branch (next + 3) read done]⟩

/-- Records the byte behind a pointer at the index that the value `index` holds. -/
def bytePassage (next index : ValueId) (slot : PointerSlot) (tag : Int32Bits) (done : BlockId) :
    Passage :=
  .fetch entryHandle next .ptr (.pointer slot) ++
    ⟨[.word, .i32], [none, none], [.loadByte (next + 2) (next + 1) index,
      .constI32 (next + 3) tag, .callExtern none recordExtern [next + 3, next + 2], .jump done]⟩

/-- The passages of the entry function, block after block. -/
def passages : List Passage :=
  [contextPassage 2 Opcode.contextFields ++ sizePassage 44 .callDataSize 1 2,
    bytePassage 48 46 .callData callDataTag 2,
    sizePassage 52 .codeSize 3 4,
    bytePassage 56 54 .code codeTag 4,
    .giveStatus 60 .stop]

/-- The entry function. -/
def function : Func where
  name := "probe"
  signature := .entry
  role := .entry
  blocks := passages.map Passage.insts
  values := (Func.declare "probe" .entry .entry).values ++ passages.flatMap Passage.values
  names := (Func.declare "probe" .entry .entry).names ++ passages.flatMap Passage.names

/-- **The module of the probe** is the entry function and the extern that records. -/
theorem module_eq :
    module =
      ⟨"abi-probe", [function], [⟨recordName, ⟨[.i32, .word], none⟩, false⟩], some 0, none⟩ := by
  decide +kernel

theorem verify_module : module.verify = .ok () := by
  decide +kernel

/-- Whatever the environment and the configuration, the probe is not refused. -/
theorem prepare_request (space : AddressSpace) (source : Source) (gas : Word) (config : Config) :
    (request space source gas config).prepare = .ok (0, [.host 0]) := by
  have bound : hosts.bindExterns module = .ok [.host 0] := by
    decide +kernel
  refine CallRequest.prepare_eq ?_ ?_ ?_
  · rw [request, verify_module]
  · rw [request, module_eq]
  · rw [request, bound]

/-! ## The records -/

/-- The record of the first byte of a buffer. -/
def byteRecords (tag : Int32Bits) (bs : Bytes) : Records :=
  (firstByte bs).toList.map fun w => (tag, w)

/-- The records of fields. -/
def fieldRecords (fields : Fields) (ops : List (Opcode × RuntimeField)) : Records :=
  ops.map fun (op, field) => (opcodeTag op, fields field)

/-- What a probe records when its call is started in an environment. -/
def recordsOf (gas : Word) (s : Snapshot) : Records :=
  fieldRecords (s.contextWord gas) Opcode.contextFields ++ byteRecords callDataTag s.callData ++
    byteRecords codeTag s.code

theorem lookup_byteRecords (tag : Int32Bits) (bs : Bytes) :
    (byteRecords tag bs).lookup tag = firstByte bs := by
  unfold byteRecords
  cases firstByte bs with
  | none => rfl
  | some w => exact List.lookup_cons_self ..

theorem lookup_byteRecords_of_ne {tag other : Int32Bits} (differs : tag ≠ other) (bs : Bytes) :
    (byteRecords other bs).lookup tag = none := by
  unfold byteRecords
  cases firstByte bs with
  | none => rfl
  | some w =>
    show List.lookup tag [(other, w)] = none
    rw [List.lookup_cons, beq_false_of_ne differs]
    rfl

/-- The tags of the context fields. -/
def contextTags : List Int32Bits := Opcode.contextFields.map fun of => opcodeTag of.1

theorem tags_fieldRecords (fields : Fields) :
    (fieldRecords fields Opcode.contextFields).map Prod.fst = contextTags := by
  rw [fieldRecords, List.map_map]
  rfl

theorem lookup_fieldRecords_of_not_mem {tag : Int32Bits} (other : tag ∉ contextTags)
    (fields : Fields) : (fieldRecords fields Opcode.contextFields).lookup tag = none := by
  rw [List.lookup_eq_none_iff]
  intro record mem
  rw [bne_iff_ne]
  rintro rfl
  rw [← tags_fieldRecords fields] at other
  exact other (List.mem_map_of_mem mem)

section

variable (gas : Word) (s : Snapshot)

theorem lookup_field {op : Opcode} {field : RuntimeField}
    (mem : (op, field) ∈ Opcode.contextFields) :
    (recordsOf gas s).lookup (opcodeTag op) = some (s.contextWord gas field) := by
  have distinct : ((fieldRecords (s.contextWord gas) Opcode.contextFields).map Prod.fst).Nodup := by
    rw [tags_fieldRecords]
    decide
  have there : (opcodeTag op, s.contextWord gas field) ∈
      fieldRecords (s.contextWord gas) Opcode.contextFields :=
    List.mem_map_of_mem (f := fun (op, field) => (opcodeTag op, s.contextWord gas field)) mem
  rw [recordsOf, List.append_assoc, List.lookup_append, lookup_of_distinct distinct there]
  rfl

theorem lookup_callData : (recordsOf gas s).lookup callDataTag = firstByte s.callData := by
  rw [recordsOf, List.lookup_append, List.lookup_append,
    lookup_fieldRecords_of_not_mem (by decide), lookup_byteRecords,
    lookup_byteRecords_of_ne (by decide)]
  simp

theorem lookup_code : (recordsOf gas s).lookup codeTag = firstByte s.code := by
  rw [recordsOf, List.lookup_append, List.lookup_append,
    lookup_fieldRecords_of_not_mem (by decide), lookup_byteRecords,
    lookup_byteRecords_of_ne (by decide)]
  rfl

end

/-! ## The report -/

/-- The comparison of one field, between the environment when the call was started and when the
report is made. -/
def contextEntry (gas : Word) (started reported : Snapshot) (of : Opcode × RuntimeField) : Entry where
  probe := of.1.text ++ " -> " ++ of.2.name
  expected := some (reported.contextWord gas of.2)
  observed := some (started.contextWord gas of.2)

theorem isInternal_of_context {op : Opcode} {field : RuntimeField}
    (mem : (op, field) ∈ Opcode.contextFields) : field.isInternal = false := by
  have all : ∀ of ∈ Opcode.contextFields, of.2.isInternal = false := by decide
  exact all _ mem

/-- **What the report says**, if the buffers are the same. -/
theorem compare_eq (gas : Word) (s t : Snapshot) :
    compare gas t (recordsOf gas s) =
      Opcode.contextFields.map (contextEntry gas s t) ++
        [⟨"calldata[0]", firstByte t.callData, firstByte s.callData⟩,
          ⟨"code[0]", firstByte t.code, firstByte s.code⟩] := by
  rw [compare, lookup_callData, lookup_code]
  refine congrArg (· ++ _) (List.map_congr_left ?_)
  intro ⟨op, field⟩ mem
  simp only [contextEntry, lookup_field gas s mem,
    Snapshot.ofImage_contextValue gas field (isInternal_of_context mem)]

end Probe

end HostBridge
