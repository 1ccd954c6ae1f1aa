import HostBridge.Code.Verify
import HostBridge.Proofs.Fallible

/-!
# What verification means

`Module.verify` looks for flaws in a fixed order. That it finds none says of every instruction that
it is typed (`Inst.Typed`), and of every block that it ends in its only terminator.

* `Module.checkInst_ok` — an instruction passes exactly if it is typed;
* `Module.checkBlock_ok`, `Module.checkFunction_ok`, `Module.verify_ok` — the same of blocks,
  functions and modules.
-/

set_option autoImplicit false

namespace HostBridge

namespace Func

variable {f : Func}

/-- Arguments have the types of the parameters, and what takes the result has its type. -/
structure Matches (f : Func) (signature : Signature) (dst : Option ValueId) (args : List ValueId) :
    Prop where
  args : List.Forall₂ (fun v ty => f.valueType? v = some ty) args signature.params
  result : ∀ d, dst = some d → ∃ ty, signature.ret = some ty ∧ f.valueType? d = some ty

theorem expect_ok {use : Use} {ty : Ty} {v : ValueId} :
    f.expect use ty v = .ok () ↔ f.valueType? v = some ty := by
  unfold expect checkValue
  cases f.valueType? v with
  | none => exact ⟨nofun, nofun⟩
  | some actual =>
    rw [Option.some.injEq]
    by_cases same : actual = ty
    · exact ⟨fun _ => same, fun _ => if_pos same⟩
    · refine ⟨fun h => ?_, fun h => absurd h same⟩
      rw [bind_eq_ok] at h
      obtain ⟨_, eq, h⟩ := h
      cases eq
      rw [if_neg same] at h
      cases h

theorem checkValue_ok {v : ValueId} {ty : Ty} :
    f.checkValue v = .ok ty ↔ f.valueType? v = some ty := by
  unfold checkValue
  cases f.valueType? v with
  | none => exact ⟨nofun, nofun⟩
  | some actual => rw [Except.ok.injEq, Option.some.injEq]

theorem checkTarget_ok {block : BlockId} :
    f.checkTarget block = .ok () ↔ block < f.blocks.length := by
  unfold checkTarget
  split
  · rename_i there
    exact ⟨fun _ => there, fun _ => rfl⟩
  · rename_i missing
    exact ⟨nofun, fun there => absurd there missing⟩

theorem matches_iff {signature : Signature} {dst : Option ValueId} {args : List ValueId} :
    f.Matches signature dst args ↔
      List.Forall₂ (fun v ty => f.valueType? v = some ty) args signature.params ∧
        ∀ d, dst = some d → ∃ ty, signature.ret = some ty ∧ f.valueType? d = some ty :=
  ⟨fun h => ⟨h.args, h.result⟩, fun h => ⟨h.1, h.2⟩⟩

theorem checkCall_ok {callee : String} {signature : Signature} {dst : Option ValueId}
    {args : List ValueId} :
    f.checkCall callee signature dst args = .ok () ↔ f.Matches signature dst args := by
  unfold checkCall
  by_cases length : args.length = signature.params.length
  · rw [if_neg (not_not_intro length), seq_eq_ok, forM_eq_ok, matches_iff]
    refine and_congr ?_ ?_
    · rw [List.forall₂_iff_zip]
      refine ⟨fun h => ⟨length, fun mem => expect_ok.1 (h _ mem)⟩, ?_⟩
      rintro h ⟨v, ty⟩ mem
      exact expect_ok.2 (h.2 mem)
    · cases dst with
      | none => simp
      | some d => cases signature.ret <;> simp [expect_ok]
  · rw [if_pos length]
    refine ⟨fun h => ?_, fun h => absurd h.args.length_eq length⟩
    cases h

end Func

/-- An instruction of a function uses values that exist, with the right types, and refers to blocks,
functions and externs that exist. -/
def Inst.Typed (m : Module) (f : Func) : Inst → Prop
  | const dst _ => f.valueType? dst = some .word
  | constI32 dst _ => f.valueType? dst = some .i32
  | ptrOffset dst base _ => f.valueType? base = some .ptr ∧ f.valueType? dst = some .ptr
  | load dst ty addr => f.valueType? addr = some .ptr ∧ f.valueType? dst = some ty
  | store addr value => f.valueType? addr = some .ptr ∧ ∃ ty, f.valueType? value = some ty
  | loadByte dst base index =>
    f.valueType? base = some .ptr ∧ f.valueType? index = some .word ∧
      f.valueType? dst = some .word
  | binary dst _ lhs rhs =>
    f.valueType? lhs = some .word ∧ f.valueType? rhs = some .word ∧ f.valueType? dst = some .word
  | call dst callee args =>
    ∃ g, m.functions[callee]? = some g ∧ g.role ≠ .entry ∧ f.Matches g.signature dst args
  | callExtern dst callee args =>
    ∃ e, m.externs[callee]? = some e ∧ ¬ (e.noreturn ∧ dst.isSome) ∧ f.Matches e.signature dst args
  | jump target => target < f.blocks.length
  | branch cond thenBlock elseBlock =>
    f.valueType? cond = some .word ∧ thenBlock < f.blocks.length ∧ elseBlock < f.blocks.length
  | ret none => f.signature.ret = none
  | ret (some v) => ∃ ty, f.signature.ret = some ty ∧ f.valueType? v = some ty
  | unreachable => True

/-- The values that an instruction names. -/
def Inst.values : Inst → List ValueId
  | const dst _ | constI32 dst _ => [dst]
  | ptrOffset dst base _ => [dst, base]
  | load dst _ addr => [dst, addr]
  | store addr value => [addr, value]
  | loadByte dst base index => [dst, base, index]
  | binary dst _ lhs rhs => [dst, lhs, rhs]
  | call dst _ args | callExtern dst _ args => dst.toList ++ args
  | branch cond _ _ => [cond]
  | ret value => value.toList
  | jump _ | unreachable => []

/-- The blocks to which an instruction can go. -/
def Inst.targets : Inst → List BlockId
  | jump target => [target]
  | branch _ thenBlock elseBlock => [thenBlock, elseBlock]
  | _ => []

theorem Func.lt_of_valueType? {f : Func} {v : ValueId} {ty : Ty} (h : f.valueType? v = some ty) :
    v < f.values.length :=
  (List.getElem?_eq_some_iff.1 h).1

theorem Func.Matches.values_lt {f : Func} {signature : Signature} {dst : Option ValueId}
    {args : List ValueId} (h : f.Matches signature dst args) :
    ∀ v ∈ dst.toList ++ args, v < f.values.length := by
  intro v mem
  rcases List.mem_append.1 mem with result | arg
  · obtain ⟨ty, -, has⟩ := h.result v (Option.mem_toList.1 result)
    exact lt_of_valueType? has
  · obtain ⟨i, there⟩ := List.mem_iff_getElem?.1 arg
    obtain ⟨ty, -, has⟩ := forall₂_getElem? h.args.flip there
    exact lt_of_valueType? has

/-- A typed instruction names only values that there are. -/
theorem Inst.Typed.values_lt {m : Module} {f : Func} {i : Inst} (h : i.Typed m f) :
    ∀ v ∈ i.values, v < f.values.length := by
  cases i with
  | const | constI32 => exact List.forall_mem_singleton.2 (Func.lt_of_valueType? h)
  | ptrOffset | load =>
    exact List.forall_mem_cons.2 ⟨Func.lt_of_valueType? h.2,
      List.forall_mem_singleton.2 (Func.lt_of_valueType? h.1)⟩
  | store addr value =>
    obtain ⟨ptr, ty, has⟩ := h
    exact List.forall_mem_cons.2 ⟨Func.lt_of_valueType? ptr,
      List.forall_mem_singleton.2 (Func.lt_of_valueType? has)⟩
  | loadByte | binary =>
    exact List.forall_mem_cons.2 ⟨Func.lt_of_valueType? h.2.2,
      List.forall_mem_cons.2 ⟨Func.lt_of_valueType? h.1,
        List.forall_mem_singleton.2 (Func.lt_of_valueType? h.2.1)⟩⟩
  | call dst callee args =>
    obtain ⟨g, -, -, fits⟩ := h
    exact fits.values_lt
  | callExtern dst callee args =>
    obtain ⟨e, -, -, fits⟩ := h
    exact fits.values_lt
  | branch => exact List.forall_mem_singleton.2 (Func.lt_of_valueType? h.1)
  | ret value =>
    cases value with
    | none => exact List.forall_mem_nil _
    | some v =>
      obtain ⟨ty, -, has⟩ := h
      exact List.forall_mem_singleton.2 (Func.lt_of_valueType? has)
  | jump | unreachable => exact List.forall_mem_nil _

/-- The instructions of a block are typed, and it ends in a terminator. -/
structure Module.BlockTyped (m : Module) (f : Func) (code : List Inst) : Prop where
  insts : ∀ i ∈ code, i.Typed m f
  last : ∃ i, code.getLast? = some i ∧ i.isTerminator

namespace Module

variable {m : Module} {f : Func}

theorem checkInst_ok {i : Inst} : m.checkInst f i = .ok () ↔ i.Typed m f := by
  cases i with
  | const | constI32 => exact Func.expect_ok
  | ptrOffset | load | loadByte | binary =>
    simp only [checkInst, Inst.Typed, seq_eq_ok, Func.expect_ok]
  | store addr value =>
    simp only [checkInst, Inst.Typed]
    rw [seq_eq_ok, Func.expect_ok, bind_eq_ok]
    simp only [Func.checkValue_ok]
    exact and_congr_right fun _ => exists_congr fun ty => ⟨And.left, fun h => ⟨h, rfl⟩⟩
  | call dst callee args =>
    simp only [checkInst, Inst.Typed]
    cases m.functions[callee]? with
    | none => exact ⟨nofun, nofun⟩
    | some g =>
      by_cases entry : g.role = .entry
      · simp [entry]
      · simp [entry, Func.checkCall_ok]
  | callExtern dst callee args =>
    simp only [checkInst, Inst.Typed]
    cases m.externs[callee]? with
    | none => exact ⟨nofun, nofun⟩
    | some e =>
      by_cases result : e.noreturn ∧ dst.isSome
      · simp [result]
      · simp only [if_neg result, Func.checkCall_ok, Option.some.injEq, exists_eq_left']
        exact ⟨fun h => ⟨result, h⟩, And.right⟩
  | jump => exact Func.checkTarget_ok
  | branch =>
    simp only [checkInst, Inst.Typed, seq_eq_ok, Func.expect_ok, Func.checkTarget_ok]
  | ret value =>
    cases value with
    | none => cases ret : f.signature.ret <;> simp [checkInst, Inst.Typed, ret]
    | some v => cases ret : f.signature.ret <;> simp [checkInst, Inst.Typed, ret, Func.expect_ok]
  | unreachable => exact ⟨fun _ => trivial, fun _ => rfl⟩

/-- A block passes exactly if it ends in its only terminator and its instructions are typed. -/
theorem checkBlock_ok {block : BlockId} {code : List Inst} :
    m.checkBlock f block code = .ok () ↔
      m.BlockTyped f code ∧ ∀ i ∈ code.dropLast, ¬ i.isTerminator := by
  unfold checkBlock
  split
  · rename_i empty
    refine ⟨nofun, ?_⟩
    intro h
    obtain ⟨i, last, -⟩ := h.1.last
    rw [empty] at last
    cases last
  · rename_i i last
    have typed : m.BlockTyped f code ↔ (∀ i ∈ code, i.Typed m f) ∧ i.isTerminator :=
      ⟨fun h => ⟨h.insts, by
        obtain ⟨j, last', ends⟩ := h.last
        rw [last] at last'
        cases last'
        exact ends⟩, fun h => ⟨h.1, i, last, h.2⟩⟩
    rw [typed]
    by_cases ends : i.isTerminator
    · by_cases early : code.dropLast.any Inst.isTerminator
      · obtain ⟨j, mem, terminates⟩ := List.any_eq_true.1 early
        rw [if_neg (by simp [ends]), if_pos early]
        exact ⟨nofun, fun h => absurd terminates (h.2 j mem)⟩
      · rw [if_neg (by simp [ends]), if_neg early, forM_eq_ok]
        simp only [checkInst_ok, ends, and_true]
        refine ⟨fun h => ⟨h, fun j mem terminates => early ?_⟩, And.left⟩
        exact List.any_eq_true.2 ⟨j, mem, terminates⟩
    · rw [if_pos (by simp [ends])]
      exact ⟨nofun, fun h => absurd h.1.2 ends⟩

theorem checkFunction_ok : m.checkFunction f = .ok () ↔
    f.checkSignature = .ok () ∧ ∀ code ∈ f.blocks, m.BlockTyped f code ∧
      ∀ i ∈ code.dropLast, ¬ i.isTerminator := by
  unfold checkFunction
  rw [seq_eq_ok, forM_eq_ok]
  refine and_congr_right fun _ => ⟨fun h code mem => ?_, ?_⟩
  · obtain ⟨block, there⟩ := List.mem_iff_getElem?.1 mem
    have numbered : (code, block) ∈ f.blocks.zipIdx := List.mk_mem_zipIdx_iff_getElem?.2 there
    exact checkBlock_ok.1 (h _ numbered)
  · rintro h ⟨code, block⟩ numbered
    exact checkBlock_ok.2 (h code (List.fst_mem_of_mem_zipIdx numbered))

theorem verify_ok : m.verify = .ok () ↔
    m.entry.isSome ∧ ∀ f ∈ m.functions, m.checkFunction f = .ok () := by
  unfold verify
  cases m.entry with
  | none => exact ⟨nofun, fun h => by cases h.1⟩
  | some id =>
    simp only [forM_eq_ok, Option.isSome_some, true_and]
    refine forall₂_congr ?_
    intro f _
    cases m.checkFunction f with
    | ok => exact ⟨fun _ => rfl, fun _ => rfl⟩
    | error flaw => exact ⟨nofun, nofun⟩

end Module

end HostBridge
