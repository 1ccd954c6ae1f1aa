import HostBridge.Proofs.Consistency
import HostBridge.Proofs.Verified

/-!
# What verification accepts

The rules that a module must obey can be stated without the verifier (`Module.Acceptable`): it has
an entry, blocks end in their only terminator, operands have the types that instructions need
(`Inst.needs`), and jumps, calls and returns fit what they refer to. The verifier looks at more than
that, at the destinations of instructions, at callees and at signatures. In a module that has been
written by edits these further checks cannot fail.

* `Inst.typed_iff` — an instruction of such a module is typed exactly if it obeys the rules;
* `Module.checkInst_error`, `Module.checkFunction_error` — the flaw that is found is a breach of one
  of the rules, by a block or an instruction of the function that is named;
* `Module.verify_accepts` — verification accepts exactly the modules that obey the rules.
-/

set_option autoImplicit false

namespace HostBridge

/-! ## The rules -/

/-- A value of a certain type, needed for some use. -/
structure Need where
  use : Use
  ty : Ty
  value : ValueId

namespace Inst

/-- The values that an instruction reads. -/
def operands : Inst → List ValueId
  | ptrOffset _ base _ => [base]
  | load _ _ addr => [addr]
  | store addr value => [addr, value]
  | loadByte _ base index => [base, index]
  | binary _ _ lhs rhs => [lhs, rhs]
  | call _ _ args | callExtern _ _ args => args
  | branch cond _ _ => [cond]
  | ret value => value.toList
  | const _ _ | constI32 _ _ | jump _ | unreachable => []

/-- The name and the signature of the function or extern that an instruction calls. -/
def callee? (m : Module) : Inst → Option (String × Signature)
  | call _ callee _ => (m.functions[callee]?).map fun g => (g.name, g.signature)
  | callExtern _ callee _ => (m.externs[callee]?).map fun e => (e.name, e.signature)
  | _ => none

/-- The arguments of a call, each with the parameter that it is for. -/
def arguments (args : List ValueId) : Option (String × Signature) → List Need
  | some (name, signature) =>
    (args.zip signature.params).map fun (v, ty) => ⟨.argument name, ty, v⟩
  | none => []

/-- The types that an instruction of a function needs its operands to have. A value of any type can
be stored. -/
def needs (m : Module) (f : Func) : Inst → List Need
  | ptrOffset _ base _ => [⟨.offsetBase, .ptr, base⟩]
  | load _ _ addr => [⟨.loadAddress, .ptr, addr⟩]
  | store addr _ => [⟨.storeAddress, .ptr, addr⟩]
  | loadByte _ base index => [⟨.byteBase, .ptr, base⟩, ⟨.byteIndex, .word, index⟩]
  | binary _ op lhs rhs => [⟨.binary op, .word, lhs⟩, ⟨.binary op, .word, rhs⟩]
  | call dst callee args => arguments args ((call dst callee args).callee? m)
  | callExtern dst callee args => arguments args ((callExtern dst callee args).callee? m)
  | branch cond _ _ => [⟨.condition, .word, cond⟩]
  | ret (some value) => f.signature.ret.toList.map (⟨.returned, ·, value⟩)
  | const _ _ | constI32 _ _ | jump _ | ret none | unreachable => []

/-- What an instruction of a function must obey. -/
structure Acceptable (m : Module) (f : Func) (i : Inst) : Prop where
  operands : ∀ v ∈ i.operands, v < f.values.length
  types : ∀ n ∈ i.needs m f, f.valueType? n.value = some n.ty
  targets : ∀ b ∈ i.targets, b < f.blocks.length
  /-- A call passes as many arguments as its callee has parameters. -/
  arity : ∀ name signature, i.callee? m = some (name, signature) →
    i.operands.length = signature.params.length
  /-- The entry function is not called. -/
  callee : ∀ dst callee args, i = .call dst callee args → m.entry ≠ some callee
  /-- A value is returned exactly if the signature says so. -/
  returns : ∀ value, i = .ret value → (value.isSome ↔ f.signature.ret.isSome)

/-- A block that ends in its only terminator. -/
def Closed (code : List Inst) : Prop :=
  ∃ body last, code = body ++ [last] ∧ last.isTerminator ∧ ∀ i ∈ body, ¬ i.isTerminator

end Inst

/-- What a function must obey. -/
structure Func.Acceptable (m : Module) (f : Func) : Prop where
  blocks : ∀ code ∈ f.blocks, Inst.Closed code
  insts : ∀ i ∈ f.insts, i.Acceptable m f

/-- What a module must obey. -/
structure Module.Acceptable (m : Module) : Prop where
  entry : m.entry.isSome
  functions : ∀ f ∈ m.functions, f.Acceptable m

/-! ## Accepted instructions -/

theorem Func.lt_values_iff {f : Func} {v : ValueId} :
    v < f.values.length ↔ ∃ ty, f.valueType? v = some ty := by
  refine ⟨fun bound => ⟨f.values[v], ?_⟩, fun ⟨ty, has⟩ => lt_of_valueType? has⟩
  simp [valueType?, bound]

namespace Inst

variable {m : Module} {f : Func} {i : Inst}

theorem closed_iff {code : List Inst} :
    Closed code ↔
      (∃ i, code.getLast? = some i ∧ i.isTerminator) ∧ ∀ i ∈ code.dropLast, ¬ i.isTerminator := by
  constructor
  · rintro ⟨body, last, rfl, ends, early⟩
    exact ⟨⟨last, by simp, ends⟩, by simpa using early⟩
  · rintro ⟨⟨last, eq, ends⟩, early⟩
    exact ⟨code.dropLast, last, (List.dropLast_append_getLast? last eq).symm, ends, early⟩

/-- The arguments of a call have the types of the parameters. -/
theorem arguments_iff {args : List ValueId} (name : String) {signature : Signature} :
    List.Forall₂ (fun v ty => f.valueType? v = some ty) args signature.params ↔
      (∀ n ∈ arguments args (some (name, signature)), f.valueType? n.value = some n.ty) ∧
        args.length = signature.params.length := by
  rw [List.forall₂_iff_zip, and_comm]
  simp only [arguments, List.mem_map, Prod.exists, forall_exists_index, and_imp]
  refine and_congr_left fun _ => ⟨?_, ?_⟩
  · rintro h _ v ty mem rfl
    exact h mem
  · intro h v ty mem
    exact h _ v ty mem rfl

/-- The rules, for an instruction that is no call. -/
theorem acceptable_iff_of_no_callee (calls : i.callee? m = none)
    (none : ∀ dst callee args, i ≠ .call dst callee args) :
    i.Acceptable m f ↔ (∀ v ∈ i.operands, v < f.values.length) ∧
      (∀ n ∈ i.needs m f, f.valueType? n.value = some n.ty) ∧
      (∀ b ∈ i.targets, b < f.blocks.length) ∧
      ∀ value, i = .ret value → (value.isSome ↔ f.signature.ret.isSome) := by
  refine ⟨fun h => ⟨h.operands, h.types, h.targets, h.returns⟩, ?_⟩
  rintro ⟨operands, types, targets, returns⟩
  exact ⟨operands, types, targets, by simp [calls], fun _ _ _ eq => absurd eq (none _ _ _), returns⟩

/-- The rules, for an instruction that calls something: its arguments fit. -/
theorem acceptable_iff_of_callee {name : String} {signature : Signature}
    (calls : i.callee? m = some (name, signature)) (targets : i.targets = [])
    (needs : i.needs m f = arguments i.operands (some (name, signature))) :
    i.Acceptable m f ↔
      List.Forall₂ (fun v ty => f.valueType? v = some ty) i.operands signature.params ∧
        ∀ dst callee args, i = .call dst callee args → m.entry ≠ some callee := by
  rw [arguments_iff name, ← needs]
  constructor
  · intro h
    exact ⟨⟨h.types, h.arity _ _ calls⟩, h.callee⟩
  · rintro ⟨⟨types, arity⟩, callee⟩
    have fits := (arguments_iff name).2 ⟨needs ▸ types, arity⟩
    refine ⟨?_, types, by simp [targets], ?_, callee, ?_⟩
    · intro v mem
      obtain ⟨k, there⟩ := List.mem_iff_getElem?.1 mem
      obtain ⟨ty, -, has⟩ := forall₂_getElem? fits.flip there
      exact Func.lt_of_valueType? has
    · intro name' signature' calls'
      obtain ⟨-, rfl⟩ := Prod.mk.inj (Option.some.inj (calls.symm.trans calls'))
      exact arity
    · rintro value rfl
      cases calls

end Inst

namespace Func.Consistent

variable {m : Module} {f : Func}

/-- A destination has the type that its instruction gives. -/
theorem result (h : f.Consistent m) {i : Inst} (mem : i ∈ f.insts) {d : ValueId}
    (dst : i.dst? = some d) {ty : Ty} (only : ∀ ty', i.Gives m (some ty') → ty' = ty) :
    f.valueType? d = some ty := by
  obtain ⟨ty', has, gives⟩ := h.definedAs i mem d dst
  rw [has, only ty' gives]

theorem call_result (h : f.Consistent m) {dst : Option ValueId} {callee : FuncId}
    {args : List ValueId} (mem : .call dst callee args ∈ f.insts) {g : Func}
    (there : m.functions[callee]? = some g) :
    ∀ d, dst = some d → ∃ ty, g.signature.ret = some ty ∧ f.valueType? d = some ty := by
  intro d eq
  obtain ⟨ty, has, g', there', ret⟩ := h.definedAs _ mem d eq
  obtain rfl := Option.some.inj (there.symm.trans there')
  exact ⟨ty, ret, has⟩

/-- Only an extern that comes back has a result. -/
theorem externCall_result (h : f.Consistent m) {dst : Option ValueId} {callee : ExternId}
    {args : List ValueId} (mem : .callExtern dst callee args ∈ f.insts) {e : ExternDecl}
    (there : m.externs[callee]? = some e) :
    ¬ (e.noreturn ∧ dst.isSome) ∧
      ∀ d, dst = some d → ∃ ty, e.signature.ret = some ty ∧ f.valueType? d = some ty := by
  obtain ⟨e', there', returns⟩ := h.externCalls dst callee args mem
  obtain rfl := Option.some.inj (there.symm.trans there')
  refine ⟨fun ⟨never, wanted⟩ => ?_, fun d eq => ?_⟩
  · simp [(returns.1 wanted).2] at never
  · obtain ⟨ty, has, e', there', ret⟩ := h.definedAs _ mem d eq
    obtain rfl := Option.some.inj (there.symm.trans there')
    rw [if_neg (by simp [(returns.1 (by simp [eq])).2])] at ret
    exact ⟨ty, ret, has⟩

end Func.Consistent

namespace Inst

variable {m : Module} {f : Func} {i : Inst}

theorem callee?_call (dst : Option ValueId) {callee : FuncId} (args : List ValueId) {g : Func}
    (there : m.functions[callee]? = some g) :
    (call dst callee args).callee? m = some (g.name, g.signature) := by
  simp [callee?, there]

theorem callee?_callExtern (dst : Option ValueId) {callee : ExternId} (args : List ValueId)
    {e : ExternDecl} (there : m.externs[callee]? = some e) :
    (callExtern dst callee args).callee? m = some (e.name, e.signature) := by
  simp [callee?, there]

/-- **In a consistent function an instruction is typed exactly if it obeys the rules.** -/
theorem typed_iff (consistent : f.Consistent m)
    (entry : ∀ id, m.entry = some id ↔ ∃ g, m.functions[id]? = some g ∧ g.role = .entry)
    (mem : i ∈ f.insts) : i.Typed m f ↔ i.Acceptable m f := by
  cases i with
  | call dst callee args =>
    obtain ⟨g, there, -⟩ := consistent.calls dst callee args mem
    have calls := callee?_call dst args there
    have result := consistent.call_result mem there
    have role : (∀ d c a, call dst callee args = call d c a → m.entry ≠ some c) ↔
        g.role ≠ .entry := by
      simp [entry, there]
    rw [acceptable_iff_of_callee calls rfl (by rw [needs, calls]; rfl), role]
    simp only [Typed, there, Option.some.injEq, exists_eq_left', Func.matches_iff, operands]
    exact ⟨fun h => ⟨h.2.1, h.1⟩, fun h => ⟨h.2, h.1, result⟩⟩
  | callExtern dst callee args =>
    obtain ⟨e, there, -⟩ := consistent.externCalls dst callee args mem
    have calls := callee?_callExtern dst args there
    obtain ⟨comesBack, result⟩ := consistent.externCall_result mem there
    have noCall : ∀ d c a, callExtern dst callee args = call d c a → m.entry ≠ some c := by
      intro d c a same
      cases same
    rw [acceptable_iff_of_callee calls rfl (by rw [needs, calls]; rfl)]
    simp only [Typed, there, Option.some.injEq, exists_eq_left', Func.matches_iff, operands]
    exact ⟨fun h => ⟨h.2.1, noCall⟩, fun h => ⟨comesBack, h.1, result⟩⟩
  | const dst value | constI32 dst value =>
    have has := consistent.result mem rfl fun _ gives => Option.some.inj gives
    rw [acceptable_iff_of_no_callee rfl (by simp)]
    simp [Typed, operands, needs, Inst.targets, has]
  | ptrOffset dst base offset | load dst ty addr =>
    have has := consistent.result mem rfl fun _ gives => Option.some.inj gives
    rw [acceptable_iff_of_no_callee rfl (by simp)]
    simp only [Typed, operands, needs, Inst.targets, Func.lt_values_iff]
    simpa [has] using fun base => ⟨_, base⟩
  | loadByte dst base index | binary dst op base index =>
    have has := consistent.result mem rfl fun _ gives => Option.some.inj gives
    rw [acceptable_iff_of_no_callee rfl (by simp)]
    simp only [Typed, operands, needs, Inst.targets, Func.lt_values_iff]
    simpa [has] using fun base index => ⟨⟨_, base⟩, _, index⟩
  | store addr value =>
    rw [acceptable_iff_of_no_callee rfl (by simp)]
    simp only [Typed, operands, needs, Inst.targets, Func.lt_values_iff]
    simp only [List.forall_mem_cons, List.not_mem_nil, false_implies, implies_true, and_true,
      reduceCtorEq]
    exact ⟨fun h => ⟨⟨⟨_, h.1⟩, h.2⟩, h.1⟩, fun h => ⟨h.2, h.1.2⟩⟩
  | branch cond thenBlock elseBlock =>
    rw [acceptable_iff_of_no_callee rfl (by simp)]
    simp only [Typed, operands, needs, Inst.targets, Func.lt_values_iff]
    simpa using fun cond _ _ => ⟨_, cond⟩
  | ret value =>
    rw [acceptable_iff_of_no_callee rfl (by simp)]
    cases value with
    | none => simp [Typed, operands, needs, Inst.targets]
    | some v =>
      simp only [Typed, operands, needs, Inst.targets, Func.lt_values_iff]
      cases f.signature.ret with
      | none => simp
      | some ty => simpa using fun has => ⟨_, has⟩
  | jump target | unreachable =>
    rw [acceptable_iff_of_no_callee rfl (by simp)]
    simp [Typed, operands, needs, Inst.targets]

end Inst

/-! ## The flaws that are found -/

/-- A function breaks a rule, and this is the flaw that reports it. -/
inductive Func.Breaks (m : Module) (f : Func) : Flaw → Prop
  | emptyBlock (block : BlockId) (code : f.blocks[block]? = some []) :
    Breaks m f (.emptyBlock block)
  | openBlock (block : BlockId) (body : List Inst) (last : Inst)
    (code : f.blocks[block]? = some (body ++ [last])) (goesOn : ¬ last.isTerminator) :
    Breaks m f (.openBlock block)
  | earlyTerminator (block : BlockId) (body : List Inst) (last i : Inst)
    (code : f.blocks[block]? = some (body ++ [last])) (early : i ∈ body)
    (ends : i.isTerminator) : Breaks m f (.earlyTerminator block)
  | undefinedValue (i : Inst) (mem : i ∈ f.insts) (v : ValueId) (reads : v ∈ i.operands)
    (missing : f.values.length ≤ v) : Breaks m f (.undefinedValue v)
  | wrongType (i : Inst) (mem : i ∈ f.insts) (n : Need) (reads : n.value ∈ i.operands)
    (needed : n ∈ i.needs m f) (actual : Ty) (has : f.valueType? n.value = some actual)
    (other : actual ≠ n.ty) : Breaks m f (.wrongType n.use n.ty actual n.value)
  | missingBlock (i : Inst) (mem : i ∈ f.insts) (block : BlockId) (goes : block ∈ i.targets)
    (missing : f.blocks.length ≤ block) : Breaks m f (.missingBlock block)
  | wrongArity (i : Inst) (mem : i ∈ f.insts) (name : String) (signature : Signature)
    (calls : i.callee? m = some (name, signature))
    (other : i.operands.length ≠ signature.params.length) :
    Breaks m f (.wrongArity name i.operands.length signature.params.length)
  | callsEntry (dst : Option ValueId) (callee : FuncId) (args : List ValueId)
    (mem : .call dst callee args ∈ f.insts) (entry : m.entry = some callee) :
    Breaks m f .callsEntry
  | wrongReturn (value : Option ValueId) (mem : .ret value ∈ f.insts)
    (other : ¬ (value.isSome ↔ f.signature.ret.isSome)) : Breaks m f .wrongReturn

/-- A use of a value as the result of an instruction. -/
def Use.IsResult : Use → Prop
  | const | constI32 | offsetResult | loadResult | byteResult | result _ => True
  | _ => False

/-- A flaw that is looked for but never found: a destination of the wrong type, a callee that does
not exist or gives no result, or a signature that does not fit the role. -/
def Flaw.NeverFound : Flaw → Prop
  | entrySignature | handleNotPointer _ | unknownFunction _ | unknownExtern _ | returnsNothing _
  | noreturnResult _ => True
  | wrongType use _ _ _ => use.IsResult
  | _ => False

/-- What an instruction needs is never a result. -/
theorem Inst.needs_operand {m : Module} {f : Func} {i : Inst} {n : Need} (h : n ∈ i.needs m f) :
    ¬ n.use.IsResult := by
  have argument : ∀ args callee, n ∈ arguments args callee → ¬ n.use.IsResult := by
    intro args callee mem
    cases callee with
    | none => cases mem
    | some callee =>
      obtain ⟨-, -, rfl⟩ := List.mem_map.1 mem
      exact not_false
  cases i with
  | call | callExtern => exact argument _ _ h
  | ret value =>
    cases value with
    | none => cases h
    | some v =>
      obtain ⟨ty, -, rfl⟩ := List.mem_map.1 h
      exact not_false
  | binary | loadByte => rcases List.mem_pair.1 h with rfl | rfl <;> exact not_false
  | ptrOffset | load | store | branch =>
    rw [List.mem_singleton.1 h]
    exact not_false
  | const | constI32 | jump | unreachable => cases h

theorem Func.Breaks.not_neverFound {m : Module} {f : Func} {flaw : Flaw} (h : f.Breaks m flaw) :
    ¬ flaw.NeverFound := by
  cases h with
  | wrongType i mem n reads needed actual has other => exact Inst.needs_operand needed
  | _ => exact not_false

namespace Func

variable {m : Module} {f : Func} {i : Inst} {flaw : Flaw}

theorem checkValue_error {v : ValueId} (h : f.checkValue v = .error flaw) :
    f.values.length ≤ v ∧ flaw = .undefinedValue v := by
  unfold checkValue at h
  split at h
  · cases h
  · rename_i none
    cases h
    exact ⟨by simpa [valueType?] using none, rfl⟩

theorem expect_error {use : Use} {ty : Ty} {v : ValueId} (h : f.expect use ty v = .error flaw) :
    f.checkValue v = .error flaw ∨
      ∃ actual, f.valueType? v = some actual ∧ actual ≠ ty ∧ flaw = .wrongType use ty actual v := by
  rcases bind_eq_error.1 h with missing | ⟨actual, has, rest⟩
  · exact .inl missing
  · split at rest
    · cases rest
    · rename_i other
      cases rest
      exact .inr ⟨actual, checkValue_ok.1 has, other, rfl⟩

namespace Breaks

/-- An operand that is missing. -/
theorem of_checkValue (mem : i ∈ f.insts) {v : ValueId} (reads : v ∈ i.operands)
    (h : f.checkValue v = .error flaw) : f.Breaks m flaw := by
  obtain ⟨missing, rfl⟩ := checkValue_error h
  exact .undefinedValue i mem v reads missing

/-- An operand that is not what the instruction needs. -/
theorem of_expect (mem : i ∈ f.insts) {use : Use} {ty : Ty} {v : ValueId} (reads : v ∈ i.operands)
    (needed : ⟨use, ty, v⟩ ∈ i.needs m f) (h : f.expect use ty v = .error flaw) :
    f.Breaks m flaw := by
  rcases expect_error h with missing | ⟨actual, has, other, rfl⟩
  · exact .of_checkValue mem reads missing
  · exact .wrongType i mem ⟨use, ty, v⟩ reads needed actual has other

/-- A block that is missing. -/
theorem of_checkTarget (mem : i ∈ f.insts) {block : BlockId} (goes : block ∈ i.targets)
    (h : f.checkTarget block = .error flaw) : f.Breaks m flaw := by
  unfold checkTarget at h
  split at h
  · cases h
  · rename_i missing
    cases h
    exact .missingBlock i mem block goes (Nat.not_lt.1 missing)

/-- Arguments that do not fit. What takes the result does fit. -/
theorem of_checkCall (mem : i ∈ f.insts) {name : String} {signature : Signature}
    {dst : Option ValueId} (calls : i.callee? m = some (name, signature))
    (needs : i.needs m f = Inst.arguments i.operands (some (name, signature)))
    (result : ∀ d, dst = some d → ∃ ty, signature.ret = some ty ∧ f.valueType? d = some ty)
    (h : f.checkCall name signature dst i.operands = .error flaw) : f.Breaks m flaw := by
  unfold checkCall at h
  by_cases arity : i.operands.length = signature.params.length
  · rw [if_neg (not_not_intro arity)] at h
    rcases bind_eq_error.1 h with arguments | ⟨_, -, rest⟩
    · obtain ⟨⟨v, ty⟩, pair, fails⟩ := forM_eq_error arguments
      refine of_expect mem (List.of_mem_zip pair).1 ?_ fails
      rw [needs]
      exact List.mem_map.2 ⟨(v, ty), pair, rfl⟩
    · cases dst with
      | none => cases rest
      | some d =>
        obtain ⟨ty, ret, has⟩ := result d rfl
        simp only [ret, expect_ok.2 has] at rest
        cases rest
  · rw [if_pos arity] at h
    cases h
    exact .wrongArity i mem name signature calls arity

end Breaks

end Func

namespace Module

variable {m : Module} {f : Func} {i : Inst} {flaw : Flaw}

open Func (Breaks)

/-- The flaw of an instruction is a rule that it breaks. -/
theorem checkInst_error (consistent : f.Consistent m)
    (entry : ∀ id, m.entry = some id ↔ ∃ g, m.functions[id]? = some g ∧ g.role = .entry)
    (mem : i ∈ f.insts) (h : m.checkInst f i = .error flaw) : f.Breaks m flaw := by
  cases i with
  | const dst value | constI32 dst value =>
    have has := consistent.result mem rfl fun _ gives => Option.some.inj gives
    cases h.symm.trans (Func.expect_ok.2 has)
  | ptrOffset dst base offset | load dst ty addr =>
    have has := consistent.result mem rfl fun _ gives => Option.some.inj gives
    rcases bind_eq_error.1 h with first | ⟨_, -, result⟩
    · exact .of_expect mem List.mem_cons_self List.mem_cons_self first
    · cases result.symm.trans (Func.expect_ok.2 has)
  | loadByte dst base index | binary dst op base index =>
    have has := consistent.result mem rfl fun _ gives => Option.some.inj gives
    rcases bind_eq_error.1 h with first | ⟨_, -, rest⟩
    · exact .of_expect mem List.mem_cons_self List.mem_cons_self first
    · rcases bind_eq_error.1 rest with second | ⟨_, -, result⟩
      · exact .of_expect mem (List.mem_cons_of_mem _ List.mem_cons_self)
          (List.mem_cons_of_mem _ List.mem_cons_self) second
      · cases result.symm.trans (Func.expect_ok.2 has)
  | store addr value =>
    rcases bind_eq_error.1 h with first | ⟨_, -, rest⟩
    · exact .of_expect mem List.mem_cons_self List.mem_cons_self first
    · rcases bind_eq_error.1 rest with second | ⟨_, -, none⟩
      · exact .of_checkValue mem (List.mem_cons_of_mem _ List.mem_cons_self) second
      · cases none
  | call dst callee args =>
    obtain ⟨g, there, -⟩ := consistent.calls dst callee args mem
    simp only [checkInst, there] at h
    split at h
    · rename_i role
      cases h
      exact .callsEntry dst callee args mem ((entry callee).2 ⟨g, there, role⟩)
    · have calls := Inst.callee?_call dst args there
      exact .of_checkCall mem calls (by rw [Inst.needs, calls]; rfl)
        (consistent.call_result mem there) h
  | callExtern dst callee args =>
    obtain ⟨e, there, -⟩ := consistent.externCalls dst callee args mem
    obtain ⟨comesBack, result⟩ := consistent.externCall_result mem there
    have calls := Inst.callee?_callExtern dst args there
    simp only [checkInst, there, if_neg comesBack] at h
    exact .of_checkCall mem calls (by rw [Inst.needs, calls]; rfl) result h
  | jump target => exact .of_checkTarget mem List.mem_cons_self h
  | branch cond thenBlock elseBlock =>
    rcases bind_eq_error.1 h with first | ⟨_, -, rest⟩
    · exact .of_expect mem List.mem_cons_self List.mem_cons_self first
    · rcases bind_eq_error.1 rest with second | ⟨_, -, third⟩
      · exact .of_checkTarget mem List.mem_cons_self second
      · exact .of_checkTarget mem (List.mem_cons_of_mem _ List.mem_cons_self) third
  | ret value =>
    cases value with
    | none =>
      cases ret : f.signature.ret with
      | none => simp [checkInst, ret] at h
      | some ty =>
        simp only [checkInst, ret] at h
        cases h
        exact .wrongReturn none mem (by simp [ret])
    | some v =>
      cases ret : f.signature.ret with
      | none =>
        simp only [checkInst, ret] at h
        cases h
        exact .wrongReturn (some v) mem (by simp [ret])
      | some ty =>
        simp only [checkInst, ret] at h
        exact .of_expect mem List.mem_cons_self (by simp [Inst.needs, ret]) h
  | unreachable => cases h

/-- So is the flaw of a block. -/
theorem checkBlock_error (consistent : f.Consistent m)
    (entry : ∀ id, m.entry = some id ↔ ∃ g, m.functions[id]? = some g ∧ g.role = .entry)
    {block : BlockId} {code : List Inst} (there : f.blocks[block]? = some code)
    (h : m.checkBlock f block code = .error flaw) : f.Breaks m flaw := by
  unfold checkBlock at h
  split at h
  · rename_i none
    cases h
    rw [List.getLast?_eq_none_iff] at none
    exact .emptyBlock block (none ▸ there)
  · rename_i last eq
    have parts : code = code.dropLast ++ [last] := (List.dropLast_append_getLast? last eq).symm
    by_cases ends : last.isTerminator
    · by_cases early : code.dropLast.any Inst.isTerminator
      · rw [if_neg (by simp [ends]), if_pos early] at h
        cases h
        obtain ⟨i, mem, terminates⟩ := List.any_eq_true.1 early
        exact .earlyTerminator block _ last i (parts ▸ there) mem terminates
      · rw [if_neg (by simp [ends]), if_neg early] at h
        obtain ⟨i, mem, fails⟩ := forM_eq_error h
        have mem : i ∈ f.insts := List.mem_flatten.2 ⟨code, List.mem_iff_getElem?.2 ⟨_, there⟩, mem⟩
        exact checkInst_error consistent entry mem fails
    · rw [if_pos (by simp [ends])] at h
      cases h
      exact .openBlock block _ last (parts ▸ there) ends

/-- So is the flaw of a function, whose signature has no flaw. -/
theorem checkFunction_error (wf : f.WellFormed) (consistent : f.Consistent m)
    (entry : ∀ id, m.entry = some id ↔ ∃ g, m.functions[id]? = some g ∧ g.role = .entry)
    (h : m.checkFunction f = .error flaw) : f.Breaks m flaw := by
  rcases bind_eq_error.1 h with signature | ⟨_, -, blocks⟩
  · cases signature.symm.trans wf.signature
  · obtain ⟨⟨code, block⟩, numbered, fails⟩ := forM_eq_error blocks
    exact checkBlock_error consistent entry (List.mk_mem_zipIdx_iff_getElem?.1 numbered) fails

/-- The rules for a function are those that verification checks. -/
theorem checkFunction_ok_iff (wf : f.WellFormed) (consistent : f.Consistent m)
    (entry : ∀ id, m.entry = some id ↔ ∃ g, m.functions[id]? = some g ∧ g.role = .entry) :
    m.checkFunction f = .ok () ↔ f.Acceptable m := by
  rw [checkFunction_ok]
  constructor
  · rintro ⟨-, blocks⟩
    refine ⟨fun code mem => ?_, fun i mem => ?_⟩
    · obtain ⟨typed, early⟩ := blocks code mem
      exact Inst.closed_iff.2 ⟨typed.last, early⟩
    · obtain ⟨code, block, inside⟩ := List.mem_flatten.1 mem
      exact (Inst.typed_iff consistent entry mem).1 ((blocks code block).1.insts i inside)
  · intro h
    refine ⟨wf.signature, fun code block => ?_⟩
    obtain ⟨last, early⟩ := Inst.closed_iff.1 (h.blocks code block)
    refine ⟨⟨fun i inside => ?_, last⟩, early⟩
    have mem : i ∈ f.insts := List.mem_flatten.2 ⟨code, block, inside⟩
    exact (Inst.typed_iff consistent entry mem).2 (h.insts i mem)

theorem verify_error {name : String} (h : m.verify = .error (name, flaw)) :
    (m.entry = none ∧ name = m.name ∧ flaw = .noEntry) ∨
      ∃ f ∈ m.functions, f.name = name ∧ m.checkFunction f = .error flaw := by
  unfold verify at h
  split at h
  · rename_i none
    cases h
    exact .inl ⟨none, rfl, rfl⟩
  · obtain ⟨f, mem, fails⟩ := forM_eq_error h
    cases check : m.checkFunction f with
    | ok => simp [check, Except.mapError] at fails
    | error flaw' =>
      rw [check] at fails
      cases fails
      exact .inr ⟨f, mem, rfl, check⟩

/-- **Verification accepts exactly the modules that obey the rules.** So it is after any edits, and
the flaw that is reported otherwise is that there is no entry, or a rule that the function breaks
which is named. Destinations, callees and signatures are never at fault. -/
theorem verify_accepts (name : String) (edits : List Edit) :
    let m := (edits.foldl Manuscript.after (.new name)).module
    (m.verify = .ok () ↔ m.Acceptable) ∧
      ∀ function flaw, m.verify = .error (function, flaw) → ¬ flaw.NeverFound ∧
        ((m.entry = none ∧ function = m.name ∧ flaw = .noEntry) ∨
          ∃ f ∈ m.functions, f.name = function ∧ f.Breaks m flaw) := by
  intro m
  have orderly : m.Orderly := ((Manuscript.Orderly.new name).all edits).module
  have consistent := orderly.consistent
  have wf := orderly.wellFormed.functions
  constructor
  · rw [verify_ok]
    have accepted : ∀ f ∈ m.functions, (m.checkFunction f = .ok () ↔ f.Acceptable m) :=
      fun f mem => checkFunction_ok_iff (wf f mem) (consistent.functions f mem) consistent.entry
    constructor
    · rintro ⟨entry, passes⟩
      exact ⟨entry, fun f mem => (accepted f mem).1 (passes f mem)⟩
    · intro h
      exact ⟨h.entry, fun f mem => (accepted f mem).2 (h.functions f mem)⟩
  · intro function flaw h
    rcases verify_error h with none | ⟨f, mem, named, fails⟩
    · refine ⟨?_, .inl none⟩
      rw [none.2.2]
      exact not_false
    · have breaks :=
        checkFunction_error (wf f mem) (consistent.functions f mem) consistent.entry fails
      exact ⟨breaks.not_neverFound, .inr ⟨f, mem, named, breaks⟩⟩

end Module

end HostBridge
