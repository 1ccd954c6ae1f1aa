import HostBridge.Proofs.Fallible
import HostBridge.Proofs.Fields
import HostBridge.Proofs.Writing

/-!
# Straight-line bodies

A `Body` is the code of an entry function without branches, in terms of the runtime block: it reads
fields, computes with what it has read, writes fields, and returns or aborts in the end. Each
operand refers to an earlier word, so a body cannot be ill-formed.

A body has two meanings. `Body.outcome` interprets it over `Fields`, which knows neither addresses
nor bytes. `Body.emit` writes it as code of a module. This module says what is written:

* `Body.code` — the values and instructions of a body, from a given value on;
* `Body.emit_run` — they are what `Body.emit` writes;
* `Body.build_eq` — the module that consists of a body.
-/

set_option autoImplicit false

namespace HostBridge

/-! ## Bodies -/

/-- An operation that gives a word, where `n` words have been given before. -/
inductive WordOp (n : Nat) where
  | const (w : Word)
  | get (field : RuntimeField)
  | gas
  | byOpcode (op : Opcode) (context : op.contextField?.isSome)
  | binary (op : BinaryOp) (lhs rhs : Fin n)

/-- An operation that writes to fields. -/
inductive FieldOp (n : Nat) where
  | set (field : RuntimeField) (v : Fin n)
  | setGas (v : Fin n)
  | returnData (offset size : Fin n)

/-- Operations one after the other, and a status in the end. -/
inductive Body : Nat → Type where
  | word {n : Nat} (s : WordOp n) (next : Body (n + 1)) : Body n
  | field {n : Nat} (s : FieldOp n) (next : Body n) : Body n
  | finish {n : Nat} (exit : Exit) (status : Status) : Body n

/-! ### Interpretation -/

/-- The word that an operation gives. -/
def WordOp.eval {n : Nat} (ws : Vector Word n) (m : Fields) : WordOp n → Word
  | const w => w
  | get field => m field
  | gas => m .gas
  | byOpcode op context => m (op.contextField?.get context)
  | binary op lhs rhs => op.apply (ws.get lhs) (ws.get rhs)

/-- The fields after an operation. -/
def FieldOp.eval {n : Nat} (ws : Vector Word n) (m : Fields) : FieldOp n → Fields
  | set field v => Function.update m field (ws.get v)
  | setGas v => Function.update m .gas (ws.get v)
  | returnData offset size =>
    Function.update (Function.update m .returnDataOffset (ws.get offset)) .returnDataSize
      (ws.get size)

/-- What a call comes to that executes a body. -/
def Body.outcome (memory : Bytes) {n : Nat} : Body n → Vector Word n → Fields → Outcome
  | word s next, ws, m => next.outcome memory (ws.push (s.eval ws m)) m
  | field s next, ws, m => next.outcome memory ws (s.eval ws m)
  | finish exit status, _, m => m.outcome memory exit status

/-! ### Emission -/

/-- Writes an operation, given the values of the words before it. -/
def WordOp.emit {n : Nat} (vs : Vector ValueId n) : WordOp n → Emit ValueId
  | const w => Emit.constWord w
  | get field => Emit.getField field
  | gas => Emit.gas
  | byOpcode op _ => Emit.getByOpcode op
  | binary op lhs rhs => Emit.binary op (vs.get lhs) (vs.get rhs)

/-- Writes an operation, given the values of the words before it. -/
def FieldOp.emit {n : Nat} (vs : Vector ValueId n) : FieldOp n → Emit Unit
  | set field v => Emit.setField field (vs.get v)
  | setGas v => Emit.setGas (vs.get v)
  | returnData offset size => Emit.registerReturnData (vs.get offset) (vs.get size)

/-- Writes a body. -/
def Body.emit {n : Nat} : Body n → Vector ValueId n → Emit Unit
  | word s next, vs => do
    let v ← s.emit vs
    next.emit (vs.push v)
  | field s next, vs => do
    s.emit vs
    next.emit vs
  | finish .returned status, _ => Emit.returnStatus status
  | finish .aborted status, _ => Emit.raiseAbort status

/-- The module whose entry function is a body. -/
def Body.build (b : Body 0) (name entry : String) : Except Misuse Module := do
  let (entry, m) ← (Module.empty name).declareEntry entry
  let cursor ← m.cursorAt entry
  match (b.emit #v[]).run ⟨m, cursor⟩ with
  | .ok _ d => return d.module
  | .error misuse _ => throw misuse

/-! ## The code of a body -/

/-- The handle of an entry function. -/
abbrev entryHandle : ValueId := entryRuntimeParam

/-- The code of an operation, from the given value on. -/
def WordOp.code {n : Nat} (next : ValueId) (vs : Vector ValueId n) : WordOp n → Passage
  | const w => ⟨[.word], [none], [.const next w]⟩
  | get field => .fetch entryHandle next .word (.word field)
  | gas => .fetch entryHandle next .word (.word .gas)
  | byOpcode op context => .fetch entryHandle next .word (.word (op.contextField?.get context))
  | binary op lhs rhs => ⟨[.word], [none], [.binary next op (vs.get lhs) (vs.get rhs)]⟩

/-- The value that an operation gives: the last one it defines. -/
def WordOp.result {n : Nat} (next : ValueId) : WordOp n → ValueId
  | const _ | binary _ _ _ => next
  | get _ | gas | byOpcode _ _ => next + 1

/-- The code of an operation, from the given value on. -/
def FieldOp.code {n : Nat} (next : ValueId) (vs : Vector ValueId n) : FieldOp n → Passage
  | set field v => .put entryHandle next field (vs.get v)
  | setGas v => .put entryHandle next .gas (vs.get v)
  | returnData offset size =>
    .put entryHandle next .returnDataOffset (vs.get offset) ++
      .put entryHandle (next + 1) .returnDataSize (vs.get size)

/-- The number of the extern with which a body aborts: there is no other. -/
def abortExtern : ExternId := 0

/-- The code of a body, from the given value on. -/
def Body.code {n : Nat} : Body n → ValueId → Vector ValueId n → Passage
  | word s next, v, vs =>
    s.code v vs ++ next.code (s.result v + 1) (vs.push (s.result v))
  | field s next, v, vs => s.code v vs ++ next.code (v + (s.code v vs).values.length) vs
  | finish .returned status, v, _ => .giveStatus v status
  | finish .aborted status, v, _ => .giveUp entryHandle v abortExtern status

/-- How a body ends. -/
def Body.exit {n : Nat} : Body n → Exit
  | word _ next | field _ next => next.exit
  | finish exit _ => exit

/-- The module with what it takes to leave a call: to abort takes the primitive. -/
def Module.withExit (m : Module) : Exit → Module
  | .returned => m
  | .aborted => { m with
      externs := [⟨abortSymbol, abortSignature, true⟩]
      abort := some abortExtern }

/-- The draft with what it takes to leave a call. -/
def Draft.withExit (d : Draft) (exit : Exit) : Draft := { d with module := d.module.withExit exit }

/-- The code of an operation ends with its result. -/
theorem WordOp.length_code {n : Nat} (next : ValueId) (vs : Vector ValueId n) (s : WordOp n) :
    next + (s.code next vs).values.length = s.result next + 1 := by
  cases s <;> rfl

/-- What relates old items and two new ones relates all. -/
theorem forall₂_push {α β : Type} {n : Nat} {R : α → β → Prop} {xs : Vector α n}
    {ys : Vector β n} (old : ∀ i : Fin n, R (xs.get i) (ys.get i)) {x : α} {y : β} (new : R x y)
    (i : Fin (n + 1)) : R ((xs.push x).get i) ((ys.push y).get i) := by
  have item : ∀ {γ : Type} (zs : Vector γ n) (z : γ),
      (zs.push z).get i = if h : i.val < n then zs.get ⟨i, h⟩ else z :=
    fun _ _ => Vector.getElem_push i.isLt
  rw [item, item]
  split
  · exact old _
  · exact new

/-- What is true of old items and of a new one is true of all. -/
theorem forall_push {α : Type} {n : Nat} {P : α → Prop} {xs : Vector α n}
    (old : ∀ i : Fin n, P (xs.get i)) {x : α} (new : P x) (i : Fin (n + 1)) :
    P ((xs.push x).get i) :=
  @forall₂_push α α n (fun x _ => P x) xs xs old x x new i

/-! ## Emission -/

namespace Func

variable {f : Func} {v : ValueId} {ty : Ty}

theorem valueType?_write (has : f.valueType? v = some ty) (block : BlockId) (p : Passage) :
    (f.write block p).valueType? v = some ty := by
  have bound := (List.getElem?_eq_some_iff.1 has).1
  rw [valueType?_write_of_lt bound, has]

end Func

/-- A draft of a module without externs, in whose entry function the words before have been
written. -/
structure Draft.Ready (d : Draft) (f : Func) {n : Nat} (vs : Vector ValueId n) : Prop where
  function : d.function? = some f
  handle : f.handle? = some entryHandle
  words : ∀ i : Fin n, f.valueType? (vs.get i) = some .word
  externs : d.module.externs = []
  abort : d.module.abort = none

namespace Draft.Ready

variable {d : Draft} {f : Func} {n : Nat} {vs : Vector ValueId n}

/-- What is written leaves a draft ready. -/
theorem write (h : d.Ready f vs) (p : Passage) :
    (d.write p).Ready (f.write d.cursor.block p) vs where
  function := Draft.function?_after h.function p
  handle := h.handle
  words := fun i => Func.valueType?_write (h.words i) _ p
  externs := h.externs
  abort := h.abort

/-- An operation that gives a word. -/
theorem word (h : d.Ready f vs) (s : WordOp n) :
    (d.write (s.code f.next vs)).Ready (f.write d.cursor.block (s.code f.next vs))
      (vs.push (s.result f.next)) where
  function := (h.write _).function
  handle := (h.write _).handle
  words := by
    let g := f.write d.cursor.block (s.code f.next vs)
    have last : g.valueType? (s.result f.next) = some .word := by
      have behind : f.values.length ≤ s.result f.next := by
        cases s <;> simp [WordOp.result, Func.next]
      unfold g Func.valueType?
      rw [Func.write_values, List.getElem?_append_right behind]
      cases s <;> simp [WordOp.result, WordOp.code, Passage.fetch, Passage.address, Func.next]
    exact forall_push (P := fun v => g.valueType? v = some .word) (h.write _).words last
  externs := h.externs
  abort := h.abort

end Draft.Ready

/-- The opcode of a context field reads that field. -/
theorem Emit.getByOpcode_eq {op : Opcode} (context : op.contextField?.isSome) :
    Emit.getByOpcode op = Emit.getField (op.contextField?.get context) := by
  obtain ⟨field, eq⟩ := Option.isSome_iff_exists.1 context
  simp only [Emit.getByOpcode, eq, Option.get_some]

theorem WordOp.emit_run {n : Nat} {vs : Vector ValueId n} {d : Draft} {f : Func}
    (ready : d.Ready f vs) (s : WordOp n) :
    (s.emit vs).run d = .ok (s.result f.next) (d.write (s.code f.next vs)) := by
  have read := fun field => Emit.getField_run ready.function ready.handle field
  cases s with
  | const w => exact Emit.define_run ready.function .word none (.const · w)
  | get field => exact read field
  | gas => exact read .gas
  | byOpcode op context =>
    rw [WordOp.emit, Emit.getByOpcode_eq context]
    exact read _
  | binary op lhs rhs =>
    exact Emit.define_run ready.function .word none (.binary · op (vs.get lhs) (vs.get rhs))

theorem FieldOp.emit_run {n : Nat} {vs : Vector ValueId n} {d : Draft} {f : Func}
    (ready : d.Ready f vs) (s : FieldOp n) :
    (s.emit vs).run d = .ok () (d.write (s.code f.next vs)) := by
  cases s with
  | set field v => exact Emit.setField_run ready.function ready.handle field (ready.words v)
  | setGas v => exact Emit.setField_run ready.function ready.handle .gas (ready.words v)
  | returnData offset size =>
    have after := ready.write (.put entryHandle f.next .returnDataOffset (vs.get offset))
    rw [FieldOp.emit, Emit.registerReturnData,
      Emit.bind_run (Emit.setField_run ready.function ready.handle _ (ready.words offset)),
      Emit.setField_run after.function after.handle _ (after.words size), Draft.write_write,
      Func.write_next]
    rfl

/-- What has been written does not matter to what it takes to leave the call. -/
theorem Draft.withExit_write (d : Draft) (p : Passage) (exit : Exit) :
    (d.write p).withExit exit = (d.withExit exit).write p := by
  cases exit <;> rfl

/-- **What is written for a body.** If the body aborts, then the primitive has been declared. -/
theorem Body.emit_run {n : Nat} (b : Body n) {vs : Vector ValueId n} {d : Draft} {f : Func}
    (ready : d.Ready f vs) :
    (b.emit vs).run d = .ok () ((d.withExit b.exit).write (b.code f.next vs)) := by
  induction b generalizing d f with
  | word s next ih =>
    rw [Body.emit, Emit.bind_run (s.emit_run ready), ih (ready.word s), Func.write_next,
      s.length_code, Draft.withExit_write, Draft.write_write]
    rfl
  | field s next ih =>
    rw [Body.emit, Emit.bind_run (s.emit_run ready), ih (ready.write _), Func.write_next,
      Draft.withExit_write, Draft.write_write]
    rfl
  | finish exit status =>
    cases exit with
    | returned => exact Emit.returnStatus_run ready.function status
    | aborted =>
      have declared : d.module.abortPrimitive = .ok (abortExtern, d.module.withExit .aborted) := by
        simp only [Module.abortPrimitive, ready.abort, Module.declareExtern, Module.findExtern?,
          ready.externs]
        rfl
      exact Emit.raiseAbort_run declared rfl rfl ready.function ready.handle status

/-- The code of a whole body, behind the parameters of the entry function. -/
def Body.entryCode (b : Body 0) : Passage := b.code 2 #v[]

/-- The entry function of a body. -/
def Body.function (b : Body 0) (name : String) : Func :=
  (Func.declare name .entry .entry).write 0 b.entryCode

/-- The module of a body. -/
def Body.module (b : Body 0) (name entry : String) : Module :=
  Module.withExit ⟨name, [b.function entry], [], some 0, none⟩ b.exit

theorem Body.build_eq (b : Body 0) (name entry : String) :
    b.build name entry = .ok (b.module name entry) := by
  let m : Module := ⟨name, [.declare entry .entry .entry], [], some 0, none⟩
  have declared : (Module.empty name).declareEntry entry = .ok (0, m) := rfl
  have selected : m.cursorAt 0 = .ok ⟨0, 0⟩ := rfl
  have ready : Draft.Ready ⟨m, ⟨0, 0⟩⟩ (.declare entry .entry .entry) #v[] :=
    ⟨rfl, rfl, fun i => i.elim0, rfl, rfl⟩
  rw [Body.build, bind_eq_ok]
  refine ⟨_, declared, ?_⟩
  rw [bind_eq_ok]
  refine ⟨_, selected, ?_⟩
  simp only [b.emit_run ready]
  unfold Body.module
  cases b.exit <;> rfl

end HostBridge
