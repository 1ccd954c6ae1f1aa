import HostBridge.Proofs.Bodies
import HostBridge.Proofs.Verified

/-!
# Bodies verify

The code of a body passes verification. Each passage is typed once the values it defines are where
it says (`WordOp.code_plain`, `FieldOp.code_plain`), so by induction on the body its block is typed
and ends in its only terminator (`Body.code_straight`).

* `Body.verify_module` — the module of a body verifies.
-/

set_option autoImplicit false

namespace HostBridge

variable {m : Module} {f : Func}

/-! ## Straight code -/

/-- An instruction that is typed and does not end its block. -/
def Inst.Plain (m : Module) (f : Func) (i : Inst) : Prop := i.Typed m f ∧ i.isTerminator = false

/-- Typed instructions of which the last, and only the last, is a terminator. -/
def Module.Straight (m : Module) (f : Func) (code : List Inst) : Prop :=
  m.BlockTyped f code ∧ ∀ i ∈ code.dropLast, ¬ i.isTerminator

namespace Module.Straight

theorem last {i : Inst} (typed : i.Typed m f) (ends : i.isTerminator) : m.Straight f [i] := by
  refine ⟨⟨List.forall_mem_singleton.2 typed, i, rfl, ends⟩, ?_⟩
  intro j mem
  cases mem

theorem cons {i : Inst} {code : List Inst} (plain : i.Plain m f) (h : m.Straight f code) :
    m.Straight f (i :: code) := by
  obtain ⟨typed, goes⟩ := plain
  obtain ⟨⟨insts, j, last, ends⟩, only⟩ := h
  have nonempty : code ≠ [] := by
    intro empty
    rw [empty] at last
    cases last
  refine ⟨⟨List.forall_mem_cons.2 ⟨typed, insts⟩, j, ?_, ends⟩, ?_⟩
  · rw [List.getLast?_cons_of_ne_nil nonempty, last]
  · rw [List.dropLast_cons_of_ne_nil nonempty]
    refine List.forall_mem_cons.2 ⟨?_, only⟩
    simp [goes]

theorem append {p code : List Inst} (plain : ∀ i ∈ p, i.Plain m f) (h : m.Straight f code) :
    m.Straight f (p ++ code) := by
  induction p with
  | nil => exact h
  | cons i p ih =>
    obtain ⟨first, rest⟩ := List.forall_mem_cons.1 plain
    exact cons first (ih rest)

end Module.Straight

/-! ## Passages -/

/-- A value that a passage defines has the type that the passage says, wherever it stands. -/
theorem Func.valueType?_at {before values : List Ty} (after : List Ty)
    (eq : f.values = before ++ (values ++ after)) {k : Nat} {ty : Ty}
    (there : values[k]? = some ty) : f.valueType? (before.length + k) = some ty := by
  have bound : k < values.length := (List.getElem?_eq_some_iff.1 there).1
  have behind : before.length ≤ before.length + k := by omega
  rw [valueType?, eq, List.getElem?_append_right behind, Nat.add_sub_cancel_left,
    List.getElem?_append_left bound, there]

section

variable (before : List Ty) {handle : ValueId}

theorem Passage.address_plain (slot : Slot) (after : List Ty)
    (eq : f.values = before ++ ((address handle before.length slot).values ++ after))
    (pointer : f.valueType? handle = some .ptr) :
    f.valueType? before.length = some .ptr ∧
      ∀ i ∈ (address handle before.length slot).insts, i.Plain m f := by
  have result : f.valueType? before.length = some .ptr :=
    Func.valueType?_at (k := 0) after eq rfl
  refine ⟨result, ?_⟩
  intro i mem
  rw [List.mem_singleton.1 mem]
  exact ⟨⟨pointer, result⟩, rfl⟩

theorem Passage.fetch_plain (ty : Ty) (slot : Slot) (after : List Ty)
    (eq : f.values = before ++ ((fetch handle before.length ty slot).values ++ after))
    (pointer : f.valueType? handle = some .ptr) :
    f.valueType? (before.length + 1) = some ty ∧
      ∀ i ∈ (fetch handle before.length ty slot).insts, i.Plain m f := by
  have result : f.valueType? (before.length + 1) = some ty := Func.valueType?_at after eq rfl
  obtain ⟨addr, plain⟩ :=
    address_plain (m := m) before slot (ty :: after) eq pointer
  refine ⟨result, List.forall_mem_append.2 ⟨plain, ?_⟩⟩
  intro i mem
  rw [List.mem_singleton.1 mem]
  exact ⟨⟨addr, result⟩, rfl⟩

theorem Passage.put_plain (field : RuntimeField) (value : ValueId) (after : List Ty)
    (eq : f.values = before ++ ((put handle before.length field value).values ++ after))
    (pointer : f.valueType? handle = some .ptr) (word : f.valueType? value = some .word) :
    ∀ i ∈ (put handle before.length field value).insts, i.Plain m f := by
  obtain ⟨addr, plain⟩ := address_plain (m := m) before (.word field) after eq pointer
  refine List.forall_mem_append.2 ⟨plain, ?_⟩
  intro i mem
  rw [List.mem_singleton.1 mem]
  exact ⟨⟨addr, _, word⟩, rfl⟩

end

/-! ## Bodies -/

section

variable (before : List Ty) {n : Nat} {vs : Vector ValueId n}

theorem WordOp.code_plain (s : WordOp n) (after : List Ty)
    (eq : f.values = before ++ ((s.code before.length vs).values ++ after))
    (pointer : f.valueType? entryHandle = some .ptr)
    (words : ∀ i : Fin n, f.valueType? (vs.get i) = some .word) :
    f.valueType? (s.result before.length) = some .word ∧
      ∀ i ∈ (s.code before.length vs).insts, i.Plain m f := by
  cases s with
  | const w =>
    have result : f.valueType? before.length = some .word :=
      Func.valueType?_at (k := 0) after eq rfl
    exact ⟨result, List.forall_mem_singleton.2 ⟨result, rfl⟩⟩
  | get field => exact Passage.fetch_plain before .word (.word field) after eq pointer
  | gas => exact Passage.fetch_plain before .word (.word .gas) after eq pointer
  | byOpcode op context =>
    exact Passage.fetch_plain before .word (.word (op.contextField?.get context)) after eq pointer
  | binary op lhs rhs =>
    have result : f.valueType? before.length = some .word :=
      Func.valueType?_at (k := 0) after eq rfl
    exact ⟨result, List.forall_mem_singleton.2 ⟨⟨words lhs, words rhs, result⟩, rfl⟩⟩

theorem FieldOp.code_plain (s : FieldOp n) (after : List Ty)
    (eq : f.values = before ++ ((s.code before.length vs).values ++ after))
    (pointer : f.valueType? entryHandle = some .ptr)
    (words : ∀ i : Fin n, f.valueType? (vs.get i) = some .word) :
    ∀ i ∈ (s.code before.length vs).insts, i.Plain m f := by
  cases s with
  | set field v => exact Passage.put_plain before field (vs.get v) after eq pointer (words v)
  | setGas v => exact Passage.put_plain before .gas (vs.get v) after eq pointer (words v)
  | returnData offset size =>
    -- what comes before the second write are the values before and the address of the first
    let first := Passage.put entryHandle before.length .returnDataOffset (vs.get offset)
    let second := Passage.put entryHandle (before.length + 1) .returnDataSize (vs.get size)
    have shifted : f.values = (before ++ first.values) ++
        ((Passage.put entryHandle (before.length + 1) .returnDataSize (vs.get size)).values ++
          after) := by
      rw [eq, List.append_assoc]
      rfl
    have length : (before ++ first.values).length = before.length + 1 := by
      rw [List.length_append]
      rfl
    have plain : ∀ i ∈ first.insts, i.Plain m f :=
      Passage.put_plain before .returnDataOffset _ (second.values ++ after) eq pointer
        (words offset)
    have plain' : ∀ i ∈ second.insts, i.Plain m f := by
      unfold second
      rw [← length]
      rw [← length] at shifted
      exact Passage.put_plain (before ++ first.values) .returnDataSize _ after shifted pointer
        (words size)
    exact List.forall_mem_append.2 ⟨plain, plain'⟩

/-- The end of a body that returns. -/
theorem Passage.giveStatus_straight (status : Status)
    (eq : f.values = before ++ (giveStatus before.length status).values)
    (ret : f.signature.ret = some .i32) :
    m.Straight f (giveStatus before.length status).insts := by
  rw [← List.append_nil (giveStatus before.length status).values] at eq
  have code : f.valueType? before.length = some .i32 := Func.valueType?_at (k := 0) [] eq rfl
  exact .cons ⟨code, rfl⟩ (.last ⟨_, ret, code⟩ rfl)

/-- The end of a body that aborts needs the primitive. -/
theorem Passage.giveUp_straight (status : Status)
    (eq : f.values = before ++ (giveUp entryHandle before.length abortExtern status).values)
    (pointer : f.valueType? entryHandle = some .ptr)
    (primitive : m.externs[abortExtern]? = some ⟨abortSymbol, Module.abortSignature, true⟩) :
    m.Straight f (giveUp entryHandle before.length abortExtern status).insts := by
  obtain ⟨checkpoint, plain⟩ := fetch_plain (m := m) before .ptr (.pointer .checkpoint)
    [.i32] eq pointer
  rw [← List.append_nil (giveUp entryHandle before.length abortExtern status).values] at eq
  have code : f.valueType? (before.length + 2) = some .i32 := Func.valueType?_at [] eq rfl
  have fits : f.Matches Module.abortSignature none [before.length + 1, before.length + 2] := by
    refine ⟨.cons checkpoint (.cons code .nil), ?_⟩
    intro d eq
    cases eq
  have call : (Inst.callExtern none abortExtern [before.length + 1, before.length + 2]).Plain m f :=
    ⟨⟨_, primitive, by simp, fits⟩, rfl⟩
  exact .append plain (.cons ⟨code, rfl⟩ (.cons call (.last trivial rfl)))

/-- **The code of a body is typed**, and only its last instruction ends the block. -/
theorem Body.code_straight (b : Body n)
    (eq : f.values = before ++ (b.code before.length vs).values)
    (pointer : f.valueType? entryHandle = some .ptr)
    (words : ∀ i : Fin n, f.valueType? (vs.get i) = some .word)
    (ret : f.signature.ret = some .i32)
    (primitive : b.exit = .aborted →
      m.externs[abortExtern]? = some ⟨abortSymbol, Module.abortSignature, true⟩) :
    m.Straight f (b.code before.length vs).insts := by
  -- the values of each operation join those before the rest of the body
  induction b generalizing before with
  | word s next ih =>
    obtain ⟨result, plain⟩ := s.code_plain (m := m) before _ eq pointer words
    have words' := forall_push (P := fun v => f.valueType? v = some .word) words result
    have shifted : f.values = (before ++ (s.code before.length vs).values) ++
        (next.code (s.result before.length + 1) (vs.push (s.result before.length))).values := by
      rw [eq, List.append_assoc]
      rfl
    have rest := @ih (before ++ (s.code before.length vs).values)
      (vs.push (s.result before.length))
    rw [List.length_append, s.length_code] at rest
    exact .append plain (rest shifted words' primitive)
  | field s next ih =>
    have plain := s.code_plain (m := m) before _ eq pointer words
    have shifted : f.values = (before ++ (s.code before.length vs).values) ++
        (next.code (before.length + (s.code before.length vs).values.length) vs).values := by
      rw [eq, List.append_assoc]
      rfl
    have rest := @ih (before ++ (s.code before.length vs).values) vs
    rw [List.length_append] at rest
    exact .append plain (rest shifted words primitive)
  | finish exit status =>
    cases exit with
    | returned => exact Passage.giveStatus_straight before status eq ret
    | aborted => exact Passage.giveUp_straight before status eq pointer (primitive rfl)

end

section

variable (b : Body 0) (name entry : String)

theorem Body.functions_module : (b.module name entry).functions = [b.function entry] := by
  unfold Body.module
  cases b.exit <;> rfl

theorem Body.entry_module : (b.module name entry).entry = some 0 := by
  unfold Body.module
  cases b.exit <;> rfl

theorem Body.verify_module : (b.module name entry).verify = .ok () := by
  have primitive : b.exit = .aborted → (b.module name entry).externs[abortExtern]? =
      some ⟨abortSymbol, Module.abortSignature, true⟩ := by
    intro aborts
    unfold Body.module
    rw [aborts]
    rfl
  have straight : (b.module name entry).Straight (b.function entry) b.entryCode.insts :=
    b.code_straight [.ptr, .ptr] rfl rfl (fun i => i.elim0) rfl primitive
  rw [Module.verify_ok, b.entry_module, b.functions_module]
  refine ⟨rfl, ?_⟩
  intro f mem
  rw [List.mem_singleton.1 mem, Module.checkFunction_ok]
  exact ⟨rfl, List.forall_mem_singleton.2 straight⟩

end

end HostBridge
