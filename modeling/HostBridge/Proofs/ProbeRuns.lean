import HostBridge.Proofs.BodyRuns
import HostBridge.Proofs.Buffers
import HostBridge.Proofs.ProbeCode

/-!
# The probe is exact

The code of the probe is run passage after passage. Each `Passes`: it takes a bounded number of
steps, records what it is there to record, and leaves the call as it was, so that the next one
starts in the same situation (`At`).

* `Probe.context_passes` — the fields, by induction on the opcodes;
* `Probe.firstByte_passes` — the first byte of a buffer, if it has one;
* `Probe.call_ends` — what the call of the probe comes to;
* `Probe.report_exact` — the report of the probe is exact.
-/

set_option autoImplicit false

namespace HostBridge

theorem BinaryOp.gt_zero (w : Word) : BinaryOp.gt.apply w 0 = 0 ↔ w = 0 := by
  rw [apply, flag]
  split
  · rename_i positive
    refine ⟨fun h => absurd h (by decide), ?_⟩
    rintro rfl
    simp at positive
  · rename_i zero
    refine ⟨fun _ => BitVec.eq_of_toNat_eq ?_, fun _ => rfl⟩
    simpa using zero

namespace Probe

variable {space : AddressSpace} {c : Call Unit Records} {fields : Fields}

/-! ## Passing -/

/-- The generated code of a call comes from one activation to another in at most `n` steps, with
some records made on the way. -/
def Passes (space : AddressSpace) (c : Call Unit Records) (n : Nat) (a : Activation)
    (records : Records) (b : Activation) : Prop :=
  ∀ m : Machine Unit Records, ∃ k ≤ n, (m.goto (.code c a)).run (platform space) k =
    { m with shared := m.shared ++ records }.goto (.code c b)

namespace Passes

variable {k n : Nat} {a b d : Activation} {records more : Records}

theorem of_goes (goes : c.Goes n a b) : Passes space c n a [] b := by
  intro m
  refine ⟨n, Nat.le_refl _, ?_⟩
  rw [goes.run, List.append_nil]

theorem trans (first : Passes space c k a records b) (second : Passes space c n b more d) :
    Passes space c (k + n) a (records ++ more) d := by
  intro m
  obtain ⟨i, few, runs⟩ := first m
  obtain ⟨j, few', runs'⟩ := second { m with shared := m.shared ++ records }
  refine ⟨i + j, by omega, ?_⟩
  rw [Machine.run_add, runs, runs', List.append_assoc]

theorem mono (h : Passes space c k a records b) (le : k ≤ n) : Passes space c n a records b := by
  intro m
  obtain ⟨i, few, runs⟩ := h m
  exact ⟨i, Nat.le_trans few le, runs⟩

end Passes

/-- The probe is about to execute `code`, and the next value that it defines is `next`. Of the words
it has been given, it still needs those of `vs`. -/
structure At (c : Call Unit Records) (fields : Fields) (a : Activation) {n : Nat}
    (vs : Vector ValueId n) (ws : Vector Word n) (next : ValueId) (code : List Inst) : Prop where
  tracks : Tracks c a vs next ws fields
  function : a.function = Probe.function
  length : a.values.length = Probe.function.values.length
  code : a.rest = code

/-- The extern that the code calls to record is the host function of the probe. -/
def Connected (c : Call Unit Records) : Prop := ∀ args, c.callee recordExtern args = .ok (.host ())

namespace At

variable {a b : Activation} {n : Nat} {vs : Vector ValueId n} {ws : Vector Word n} {next : Nat}
  {code code' : List Inst}

/-- The probe is further on in its block. -/
theorem after (h : At c fields a vs ws next code) (follows : b.Follows a code') {k : Nat}
    {vs' : Vector ValueId k} {ws' : Vector Word k} {next' : ValueId}
    (tracks : Tracks c b vs' next' ws' fields) : At c fields b vs' ws' next' code' :=
  ⟨tracks, follows.function.trans h.function, follows.length.trans h.length, follows.rest⟩

theorem forget (h : At c fields a vs ws next code) : At c fields a #v[] #v[] next code :=
  ⟨h.tracks.forget, h.function, h.length, h.code⟩

theorem keep (h : At c fields a vs ws next code) (i : Fin n) :
    At c fields a #v[vs.get i] #v[ws.get i] next code :=
  ⟨h.tracks.keep i, h.function, h.length, h.code⟩

/-- The word that a value holds. -/
theorem given (h : At c fields a vs ws next code) (i : Fin n) :
    a.read (vs.get i) = .ok (.word (ws.get i)) :=
  Activation.read_ok.2 (h.tracks.words i).2

/-! ### One instruction -/

/-- A value is defined that is no word, or none that is needed later. -/
theorem define {i : Inst} {v : Val} (h : At c fields a vs ws next (i :: code))
    (room : next + 1 ≤ Probe.function.values.length)
    (effect : i.effect c.storage a = .ok (.define next v)) :
    ∃ b, c.Goes 1 a b ∧ At c fields b vs ws (next + 1) code ∧
      b.values[next]? = some (some v) := by
  rw [← h.length] at room
  exact ⟨_, .define h.code effect, h.after Activation.having_follows (h.tracks.having code v),
    Activation.having_self room⟩

/-- A word is defined. -/
theorem word {i : Inst} {w : Word} (h : At c fields a vs ws next (i :: code))
    (room : next + 1 ≤ Probe.function.values.length)
    (effect : i.effect c.storage a = .ok (.define next (.word w))) :
    ∃ b, c.Goes 1 a b ∧ At c fields b (vs.push next) (ws.push w) (next + 1) code := by
  rw [← h.length] at room
  obtain ⟨b, goes, tracks, follows⟩ := h.tracks.define_goes room h.code effect
  exact ⟨b, goes, h.after follows tracks⟩

/-- The probe goes to another block. -/
theorem goto {i : Inst} {target : BlockId} (h : At c fields a vs ws next (i :: code))
    (effect : i.effect c.storage a = .ok (.goto target))
    (there : Probe.function.blocks[target]? = some code') :
    ∃ b, c.Goes 1 a b ∧ At c fields b vs ws next code' := by
  rw [← h.function] at there
  exact ⟨_, .goto h.code effect there, h.tracks.elsewhere .., h.function, h.length, rfl⟩

/-- A record takes four steps: the call, the look at what has been recorded, the change of it, and
the return. -/
theorem record (space : AddressSpace) (connected : Connected c) {tag value : ValueId}
    (h : At c fields a vs ws next (.callExtern none recordExtern [tag, value] :: code))
    {t : Int32Bits} {w : Word} (tagged : a.values[tag]? = some (some (.i32 t)))
    (given : a.values[value]? = some (some (.word w))) :
    ∃ b, Passes space c 4 a [(t, w)] b ∧ At c fields b vs ws next code := by
  refine ⟨{ a with rest := code }, ?_, h.tracks.elsewhere .., h.function, h.length, rfl⟩
  intro m
  have args : a.readAll [tag, value] = .ok [.i32 t, .word w] :=
    Activation.readAll_ok.2 (.cons tagged (.cons given .nil))
  have effect : (Inst.callExtern none recordExtern [tag, value]).effect c.storage a =
      .ok (.callExtern none recordExtern [.i32 t, .word w]) := by
    rw [Inst.effect, args]
    rfl
  have turn : c.turn a =
      .host c { a with rest := code } recordExtern none () [.i32 t, .word w] := by
    simp only [Call.turn, h.code, effect, Call.obey, connected [.i32 t, .word w]]
  have first : (m.goto (.code c a)).step (platform space) =
      { m with
        focus := .script c.site (behaviour () [.i32 t, .word w])
        control := .hostCall c { a with rest := code } recordExtern none :: m.control } := by
    show (m.goto (.code c a)).take _ (c.turn a) = _
    rw [turn]
    rfl
  refine ⟨4, Nat.le_refl _, ?_⟩
  rw [Machine.run_succ, first]
  rfl

/-! ### Slots -/

/-- A field is read. -/
theorem read (h : At c fields a vs ws next code) (field : RuntimeField)
    (room : next + 2 ≤ Probe.function.values.length)
    (split : code = (Passage.fetch entryHandle next .word (.word field)).insts ++ code') :
    ∃ b, c.Goes 2 a b ∧
      At c fields b (vs.push (next + 1)) (ws.push (fields field)) (next + 2) code' := by
  rw [← h.length] at room
  obtain ⟨b, goes, tracks, follows⟩ :=
    Passage.read_goes h.tracks field room (h.code.trans split)
  exact ⟨b, goes, h.after follows tracks⟩

/-- A pointer is read. -/
theorem pointer (h : At c fields a vs ws next code) (slot : PointerSlot)
    (room : next + 2 ≤ Probe.function.values.length)
    (split : code = (Passage.fetch entryHandle next .ptr (.pointer slot)).insts ++ code') :
    ∃ b, c.Goes 2 a b ∧ At c fields b vs ws (next + 2) code' ∧
      b.values[next + 1]? = some (some (.ptr (c.storage.block.pointer slot))) := by
  rw [← h.length] at room
  obtain ⟨rest', goes⟩ := Passage.fetch_goes h.tracks (.pointer slot) (Nat.lt_of_succ_lt room)
    (h.code.trans split)
  refine ⟨_, goes, h.after (Activation.having_follows.trans Activation.having_follows)
    ((h.tracks.having _ _).having _ _), ?_⟩
  apply Activation.having_self
  rw [Activation.length_having]
  exact room

end At

/-! ## Fields -/

section

variable {a : Activation} {next : Nat} {code : List Inst}

theorem field_passes (space : AddressSpace) (connected : Connected c) (op : Opcode)
    (field : RuntimeField) (room : next + 3 ≤ function.values.length)
    (h : At c fields a #v[] #v[] next ((fieldPassage next op field).insts ++ code)) :
    ∃ b, Passes space c 7 a [(opcodeTag op, fields field)] b ∧
      At c fields b #v[] #v[] (next + 3) code := by
  obtain ⟨b, read, afterRead⟩ := h.read field (Nat.le_of_succ_le room) (List.append_assoc ..)
  obtain ⟨d, tag, afterTag, tagged⟩ := afterRead.define room (v := .i32 (opcodeTag op)) rfl
  obtain ⟨e, record, afterRecord⟩ :=
    afterTag.record space connected tagged (afterTag.tracks.words 0).2
  exact ⟨e, ((Passes.of_goes read).trans (.of_goes tag)).trans record, afterRecord.forget⟩

/-- **All fields are recorded**, in the order of their opcodes. -/
theorem context_passes (space : AddressSpace) (connected : Connected c)
    (ops : List (Opcode × RuntimeField)) (room : next + 3 * ops.length ≤ function.values.length)
    (h : At c fields a #v[] #v[] next ((contextPassage next ops).insts ++ code)) :
    ∃ b, Passes space c (7 * ops.length) a (fieldRecords fields ops) b ∧
      At c fields b #v[] #v[] (next + 3 * ops.length) code := by
  induction ops generalizing a next with
  | nil => exact ⟨a, .of_goes (.refl a), h⟩
  | cons first ops ih =>
    obtain ⟨op, field⟩ := first
    rw [List.length_cons] at room ⊢
    have split : a.rest = (fieldPassage next op field).insts ++
        ((contextPassage (next + 3) ops).insts ++ code) :=
      h.code.trans (List.append_assoc ..)
    obtain ⟨b, one, there⟩ := field_passes space connected op field (by omega)
      ⟨h.tracks, h.function, h.length, split⟩
    obtain ⟨d, others, after⟩ := ih (by omega) there
    refine ⟨d, (one.trans others).mono (by omega), ?_⟩
    have length : next + 3 + 3 * ops.length = next + 3 * (ops.length + 1) := by omega
    rwa [length] at after

/-! ## Buffers -/

/-- It takes five steps to look at the size of a buffer and to go on accordingly. -/
theorem size_goes (sizeField : RuntimeField) {read done : BlockId} {reading onward : List Inst}
    (room : next + 4 ≤ function.values.length)
    (readBlock : function.blocks[read]? = some reading)
    (doneBlock : function.blocks[done]? = some onward)
    (h : At c fields a #v[] #v[] next (sizePassage next sizeField read done).insts) :
    ∃ b, c.Goes 5 a b ∧ At c fields b #v[next + 2] #v[0] (next + 4)
      (if fields sizeField = 0 then onward else reading) := by
  obtain ⟨a₁, sized, h₁⟩ := h.read sizeField (by omega) rfl
  obtain ⟨a₂, zero, h₂⟩ := h₁.word (w := 0) (Nat.le_of_succ_le room) rfl
  let flag := BinaryOp.gt.apply (fields sizeField) 0
  have compares : (Inst.binary (next + 3) .gt (next + 1) (next + 2)).effect c.storage a₂ =
      .ok (.define (next + 3) (.word flag)) := by
    have size : a₂.read (next + 1) = .ok (.word (fields sizeField)) := h₂.given 0
    have start : a₂.read (next + 2) = .ok (.word 0) := h₂.given 1
    simp only [Inst.effect, size, start]
    rfl
  obtain ⟨a₃, compared, h₃⟩ := h₂.word room compares
  have branches : (Inst.branch (next + 3) read done).effect c.storage a₃ =
      .ok (.goto (if flag = 0 then done else read)) := by
    have cond : a₃.read (next + 3) = .ok (.word flag) := h₃.given 2
    simp only [Inst.effect, cond]
    rfl
  have empty : flag = 0 ↔ fields sizeField = 0 := BinaryOp.gt_zero _
  have there : function.blocks[if flag = 0 then done else read]? =
      some (if fields sizeField = 0 then onward else reading) := by
    by_cases zero : fields sizeField = 0
    · rw [if_pos (empty.2 zero), if_pos zero, doneBlock]
    · rw [if_neg (mt empty.1 zero), if_neg zero, readBlock]
  obtain ⟨b, branched, h₄⟩ := h₃.goto branches there
  exact ⟨b, ((sized.trans zero).trans compared).trans branched, h₄.keep 1⟩

/-- A buffer as the probe knows it: the field of its size and its pointer. -/
structure Finds (c : Call Unit Records) (fields : Fields) (r : Region) (sizeField : RuntimeField)
    (slot : PointerSlot) : Prop where
  buffer : r ≠ .block
  size : fields sizeField = BitVec.ofNat 256 (c.storage.bytes r).length
  pointer : c.storage.block.pointer slot = c.storage.start r

/-- The first byte of a buffer is recorded, in nine steps. -/
theorem byte_passes (space : AddressSpace) (connected : Connected c)
    (beside : c.storage.env.Beside c.storage.base) {r : Region} {sizeField : RuntimeField}
    {slot : PointerSlot} (finds : Finds c fields r sizeField slot) {x : UInt8}
    (first : (c.storage.bytes r)[0]? = some x) {index : ValueId} {tag : Int32Bits} {done : BlockId}
    {onward : List Inst} (room : next + 4 ≤ function.values.length)
    (doneBlock : function.blocks[done]? = some onward)
    (h : At c fields a #v[index] #v[0] next (bytePassage next index slot tag done).insts) :
    ∃ b, Passes space c 9 a [(tag, BitVec.ofNat 256 x.toNat)] b ∧
      At c fields b #v[] #v[] (next + 4) onward := by
  obtain ⟨a₁, pointed, h₁, pointer⟩ := h.pointer slot (by omega) rfl
  rw [finds.pointer] at pointer
  have loads : (Inst.loadByte (next + 2) (next + 1) index).effect c.storage a₁ =
      .ok (.define (next + 2) (.word (BitVec.ofNat 256 x.toNat))) := by
    have base : a₁.read (next + 1) = .ok (.ptr (c.storage.start r)) := Activation.read_ok.2 pointer
    have zero : a₁.read index = .ok (.word 0) := h₁.given 0
    have byte := Storage.loadByte_buffer beside finds.buffer 0 first
    simp only [Inst.effect, base, zero]
    show (c.storage.loadByte (c.storage.start r) 0 >>= _) = _
    rw [byte]
    rfl
  obtain ⟨a₂, loaded, h₂⟩ := h₁.word (Nat.le_of_succ_le room) loads
  obtain ⟨a₃, tags, h₃, tagged⟩ := h₂.define room (v := .i32 tag) rfl
  obtain ⟨a₄, recorded, h₄⟩ := h₃.record space connected tagged (h₃.tracks.words 1).2
  obtain ⟨b, jumped, h₅⟩ := h₄.goto rfl doneBlock
  have straight := (pointed.trans loaded).trans tags
  exact ⟨b, ((Passes.of_goes straight).trans recorded).trans (.of_goes jumped), h₅.forget⟩

/-- **The first byte of a buffer is recorded if there is one.** -/
theorem firstByte_passes (space : AddressSpace) (connected : Connected c)
    (beside : c.storage.env.Beside c.storage.base) {r : Region} {sizeField : RuntimeField}
    {slot : PointerSlot} (finds : Finds c fields r sizeField slot) (tag : Int32Bits)
    (read done : BlockId) {onward : List Inst} (room : next + 8 ≤ function.values.length)
    (readBlock : function.blocks[read]? =
      some (bytePassage (next + 4) (next + 2) slot tag done).insts)
    (doneBlock : function.blocks[done]? = some onward)
    (h : At c fields a #v[] #v[] next (sizePassage next sizeField read done).insts) :
    ∃ b, Passes space c 14 a (byteRecords tag (c.storage.bytes r)) b ∧
      At c fields b #v[] #v[] (next + 8) onward := by
  obtain ⟨b, looked, there⟩ := size_goes sizeField (by omega) readBlock doneBlock h
  have looks : Passes space c 5 a [] b := .of_goes looked
  have empty := Storage.length_word_eq_zero beside finds.buffer
  rw [← finds.size] at empty
  cases bytes : c.storage.bytes r with
  | nil =>
    rw [if_pos (empty.2 bytes)] at there
    have skipped := there.tracks.forget.skip (Nat.add_le_add_left (by decide : 4 ≤ 8) next)
    exact ⟨b, looks.mono (by omega), skipped, there.function, there.length, there.code⟩
  | cons x rest =>
    have nonempty : fields sizeField ≠ 0 := by
      intro zero
      rw [empty.1 zero] at bytes
      cases bytes
    have first : (c.storage.bytes r)[0]? = some x := by
      rw [bytes]
      rfl
    rw [if_neg nonempty] at there
    obtain ⟨d, recorded, after⟩ :=
      byte_passes space connected beside finds first (by omega) doneBlock there
    exact ⟨d, looks.trans recorded, after⟩

end

/-! ## The call -/

section

variable (space : AddressSpace) (source : Source) (gas : Word) (config : Config)
  (cp : Checkpoint) (origin : Origin Unit Records)

/-- The call that the probe makes, under a checkpoint, with its entry function active. -/
def call : Call Unit Records :=
  let c := Machine.newCall (platform space) (request space source gas config) [.host 0] cp origin
  c.descend []

/-- The entry function before its first instruction. -/
def activation (base : Addr) : Activation :=
  ⟨function, 0, (contextPassage 2 Opcode.contextFields ++ sizePassage 44 .callDataSize 1 2).insts,
    Activation.initial function [.ptr 0, .ptr base]⟩

theorem activate_newCall (enough : 1 ≤ config.maxHelperDepth) :
    let c := Machine.newCall (platform space) (request space source gas config) [.host 0] cp origin
    c.activate 0 (Machine.entryArgs c) = .ok (activation (space.blockAt cp.depth)) := by
  intro c
  have limit : c.request.config = config := rfl
  have fresh : c.depth = 0 := rfl
  have module : c.request.module = Probe.module := by
    simp only [c, Machine.newCall, request]
  unfold Call.activate
  rw [limit, fresh, if_neg (Nat.not_le.2 enough), module, module_eq]
  rfl

/-- What the call of a probe starts with. -/
theorem at_activation
    (fits : (space.blockAt cp.depth).toNat + runtimeDataSize ≤ Bytes.capacity pointerSize) :
    At (call space source gas config cp origin) ((source.snapshotAt 0).contextWord gas)
      (activation (space.blockAt cp.depth)) #v[] #v[] 2
      (contextPassage 2 Opcode.contextFields ++ sizePassage 44 .callDataSize 1 2).insts where
  tracks := {
    fits := fits
    handle := ⟨Nat.lt_succ_self 1, (Activation.initial_eq ..).2 ⟨rfl, by decide⟩⟩
    words := fun i => i.elim0
    fields := (RuntimeBlock.get_construct ..).trans (Fields.initial_eq ..)
    checkpoint := RuntimeBlock.pointer_construct .. }
  function := rfl
  length := Activation.length_initial ..
  code := rfl

theorem finds_callData : Finds (call space source gas config cp origin)
    ((source.snapshotAt 0).contextWord gas) .callData .callDataSize .callData :=
  ⟨by decide, rfl, RuntimeBlock.pointer_construct ..⟩

theorem finds_code : Finds (call space source gas config cp origin)
    ((source.snapshotAt 0).contextWord gas) .code .codeSize .code :=
  ⟨by decide, rfl, RuntimeBlock.pointer_construct ..⟩

/-- The whole code of the probe, up to the status. -/
theorem code_passes
    (beside : (Environment.within space (source.snapshotAt 0)).Beside (space.blockAt cp.depth)) :
    ∃ b, Passes space (call space source gas config cp origin) 126
        (activation (space.blockAt cp.depth)) (recordsOf gas (source.snapshotAt 0)) b ∧
      At (call space source gas config cp origin) ((source.snapshotAt 0).contextWord gas) b #v[] #v[]
        60 (Passage.giveStatus 60 .stop).insts := by
  have connected : Connected (call space source gas config cp origin) := fun _ => rfl
  have starts := at_activation space source gas config cp origin beside.block
  obtain ⟨a, recorded, h₁⟩ :=
    context_passes space connected Opcode.contextFields (by decide) starts
  obtain ⟨b, callData, h₂⟩ := firstByte_passes space connected beside (finds_callData ..)
    callDataTag 1 2 (by decide) rfl rfl h₁
  obtain ⟨d, code, h₃⟩ := firstByte_passes space connected beside (finds_code ..) codeTag 3 4
    (by decide) rfl rfl h₂
  exact ⟨d, (recorded.trans callData).trans code, h₃⟩

/-- A new call of the probe is never refused. -/
theorem enterCall_eq (enough : 1 ≤ config.maxHelperDepth) {m : Machine Unit Records}
    (room : m.live.length < config.maxCallDepth) :
    let cp := m.nextCheckpoint (platform space)
    m.enterCall (platform space) (request space source gas config) origin =
      (m.pushCheckpoint cp).goto
        (.code (call space source gas config cp origin) (activation (space.blockAt cp.depth))) := by
  intro cp
  have limit : (request space source gas config).config = config := rfl
  have activated := activate_newCall space source gas config cp origin enough
  unfold Machine.enterCall
  rw [prepare_request]
  dsimp only
  rw [limit, if_neg (Nat.not_le.2 room), activated]
  rfl

/-- What the call comes to in the end. -/
theorem settle_call (memory : Bytes) :
    Outcome.settle (call space source gas config cp origin).storage.block memory .returned
      Status.stop.code = .ok ⟨.stop, gas, []⟩ := by
  have fields : (call space source gas config cp origin).storage.block.get =
      (source.snapshotAt 0).contextWord gas :=
    (RuntimeBlock.get_construct ..).trans (Fields.initial_eq ..)
  rw [Outcome.settle_code, fields]
  show Except.ok (Outcome.mk .stop (BitVec.ofNat 256 gas.toNat) []) = _
  rw [BitVec.ofNat_toNat, BitVec.setWidth_eq]

/-- **The call of the probe** ends with the status `stop`, all its gas and its records. Nothing else
on the machine has changed then but the number of the next checkpoint. -/
theorem call_ends (enough : 1 ≤ config.maxHelperDepth) {m : Machine Unit Records}
    (room : m.live.length < config.maxCallDepth)
    (beside : (Environment.within space (source.snapshotAt 0)).Beside
      (space.blockAt m.live.length)) :
    ∃ k ≤ maxSteps,
      (m.enterCall (platform space) (request space source gas config) origin).run
          (platform space) k =
        { m with
          nextId := m.nextId + 1
          shared := m.shared ++ recordsOf gas (source.snapshotAt 0) }.deliver origin
            (.ok ⟨.stop, gas, []⟩) := by
  let p := platform space
  let cp := m.nextCheckpoint p
  let c := call space source gas config cp origin
  obtain ⟨a, passes, there⟩ := code_passes space source gas config cp origin beside
  obtain ⟨b, status, after, given⟩ := there.define (v := .i32 Status.stop.code) (by decide) rfl
  obtain ⟨k, few, runs⟩ := (passes.trans (.of_goes status)) (m.pushCheckpoint cp)
  rw [List.append_nil] at runs
  let m' : Machine Unit Records :=
    { m.pushCheckpoint cp with shared := m.shared ++ recordsOf gas (source.snapshotAt 0) }
  have turn : c.turn b = Exit.returned.turn c .stop := by
    have read : b.read 60 = .ok (.i32 Status.stop.code) := Activation.read_ok.2 given
    simp only [Call.turn, after.code, Inst.effect, read]
    rfl
  have leaves : (m'.goto (.code c b)).step p = m'.take p (Exit.returned.turn c .stop) := by
    show (m'.goto (.code c b)).take p (c.turn b) = _
    rw [turn]
    exact Machine.take_goto ..
  have ends : (m'.goto (.code c b)).run p 2 = m'.finishCall c .returned (.ok Status.stop.code) := by
    rw [Machine.run_succ, leaves, Machine.run_succ, Machine.run, Machine.step_take_exit rfl rfl]
  have delivers : m'.finishCall c .returned (.ok Status.stop.code) =
      m'.popCheckpoint.deliver origin (.ok ⟨.stop, gas, []⟩) :=
    congrArg (m'.popCheckpoint.deliver origin) (settle_call ..)
  refine ⟨k + 2, Nat.le_trans (Nat.add_le_add_right few 2) (by decide), ?_⟩
  rw [enterCall_eq space source gas config origin enough room, Machine.run_add, runs]
  exact ends.trans delivers

end

/-! ## The report -/

/-- A report tells exactly which answers of a source have changed between the start of the call and
the report. -/
structure Exact (source : Source) (gas : Word) (r : Report) : Prop where
  status : r.status.text = "stop (0)"
  gasLeft : r.gasLeft = gas
  length : r.entries.length = 16
  entries : r.entries =
    Opcode.contextFields.map (contextEntry gas (source.snapshotAt 0) (source.snapshotAt 1)) ++
      [⟨"calldata[0]", firstByte source.callData, firstByte source.callData⟩,
        ⟨"code[0]", firstByte source.code, firstByte source.code⟩]
  mismatches : r.mismatches =
    (Opcode.contextFields.filter fun of =>
      !(source.answers 0).agreeOn (source.answers 1) of.2).map
        (contextEntry gas (source.snapshotAt 0) (source.snapshotAt 1))
  consistent : r.isConsistent = true ↔ source.answers 0 = source.answers 1

/-- An entry matches if the answer is the same. -/
theorem contextEntry_matches (source : Source) (gas : Word) (of : Opcode × RuntimeField) :
    (contextEntry gas (source.snapshotAt 0) (source.snapshotAt 1) of).matches =
      (source.answers 0).agreeOn (source.answers 1) of.2 := by
  have same := Snapshot.contextWord_eq_iff gas (s := source.snapshotAt 0)
    (t := source.snapshotAt 1) rfl rfl of.2
  rw [Bool.eq_iff_iff, Entry.matches, decide_eq_true_iff, contextEntry, Option.some_inj, eq_comm]
  exact same

/-- The answers are the same if they are for each opcode. -/
theorem answers_eq_iff (a b : Answers) :
    (∀ of ∈ Opcode.contextFields, a.agreeOn b of.2 = true) ↔ a = b := by
  constructor
  · intro agree
    cases a
    cases b
    simp [Opcode.contextFields, Answers.agreeOn] at agree
    simp [agree]
  · rintro rfl of -
    exact Answers.agreeOn_self ..

/-- What has been recorded makes an exact report. -/
theorem exact_compare (source : Source) (gas : Word) :
    Exact source gas
      ⟨.stop, gas, compare gas (source.snapshotAt 1) (recordsOf gas (source.snapshotAt 0))⟩ := by
  let entry := contextEntry gas (source.snapshotAt 0) (source.snapshotAt 1)
  let agree (of : Opcode × RuntimeField) := (source.answers 0).agreeOn (source.answers 1) of.2
  have entries := compare_eq gas (source.snapshotAt 0) (source.snapshotAt 1)
  have mismatches :
      (compare gas (source.snapshotAt 1) (recordsOf gas (source.snapshotAt 0))).filter
        (fun e => !e.matches) = (Opcode.contextFields.filter fun of => !agree of).map entry := by
    have field : ((fun e : Entry => !e.matches) ∘ entry) = fun of => !agree of := by
      funext of
      exact congrArg not (contextEntry_matches source gas of)
    have buffers : [Entry.mk "calldata[0]" (firstByte source.callData) (firstByte source.callData),
        ⟨"code[0]", firstByte source.code, firstByte source.code⟩].filter
          (fun e => !e.matches) = [] := by
      simp [Entry.matches]
    rw [entries, List.filter_append, List.filter_map, field]
    exact (congrArg (_ ++ ·) buffers).trans (List.append_nil _)
  have status : Status.stop.text = "stop (0)" := by decide +kernel
  refine ⟨status, rfl, ?_, entries, mismatches, ?_⟩
  · show List.length (compare ..) = 16
    rw [entries]
    rfl
  · show (List.filter _ _).isEmpty = true ↔ _
    rw [mismatches, List.isEmpty_iff, List.map_eq_nil_iff, List.filter_eq_nil_iff, ← answers_eq_iff]
    simp [agree]

/-- **The probe is exact.** Whatever an environment answers and however its answers change, whatever
its buffers are and wherever they lie beside the runtime block: on a machine with room for one more
call the probe succeeds, and its report is exact. -/
theorem report_exact (space : AddressSpace) (source : Source) (gas : Word) (config : Config)
    {m : Machine Unit Records} (fresh : m.shared = []) (room : m.live.length < config.maxCallDepth)
    (enough : 1 ≤ config.maxHelperDepth)
    (beside : (Environment.within space (source.snapshotAt 0)).Beside
      (space.blockAt m.live.length)) :
    ∃ report, runOn space source gas config m = some (.ok report) ∧ Exact source gas report := by
  refine ⟨_, ?_, exact_compare source gas⟩
  obtain ⟨k, few, ends⟩ := call_ends space source gas config .outside enough room beside
  have whole : (m.enterCall (platform space) (request space source gas config) .outside).run
      (platform space) maxSteps =
        { m with
          nextId := m.nextId + 1
          shared := m.shared ++ recordsOf gas (source.snapshotAt 0) }.deliver .outside
            (.ok ⟨.stop, gas, []⟩) := by
    rw [← Nat.add_sub_cancel' few, Machine.run_add, ends]
    exact Machine.run_of_halted rfl _
  unfold runOn
  dsimp only
  rw [whole, fresh]
  rfl

/-- Two answers change each time, and there are two bytes of call data and no code. -/
def unsteady : Source :=
  .drifting { Snapshot.zero with callData := [7, 8] } [.coinbase, .timestamp]

theorem report_exact_unsteady :
    (Environment.within .usual (unsteady.snapshotAt 0)).Beside (AddressSpace.usual.blockAt 0) ∧
    ∃ report, run .usual unsteady 1000 default = some (.ok report) ∧
      report.mismatches.map Entry.probe = ["COINBASE -> coinbase", "TIMESTAMP -> timestamp"] ∧
      report.entries.drop 14 = [⟨"calldata[0]", some 7, some 7⟩, ⟨"code[0]", none, none⟩] := by
  have beside : (Environment.within .usual (unsteady.snapshotAt 0)).Beside
      (AddressSpace.usual.blockAt 0) :=
    .usual (by decide) (by decide) (by decide)
  obtain ⟨report, runs, exact⟩ := report_exact .usual unsteady 1000 default (m := .idle [] []) rfl
    (by decide) (by decide) beside
  refine ⟨beside, report, runs, ?_, ?_⟩
  · rw [exact.mismatches]
    decide +kernel
  · rw [exact.entries]
    decide +kernel

end Probe

end HostBridge
