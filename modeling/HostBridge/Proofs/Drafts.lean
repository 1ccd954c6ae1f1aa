import HostBridge.Code.Verify
import HostBridge.Proofs.Writing

/-!
# Modules under construction

What is true of a module from the beginning on is `Module.WellFormed`: the values of a function
start with its parameters, it has a first block and the signature that its role asks for, the entry
is an entry function, and the abort primitive is what it should be.

* `Module.WellFormed.declareEntry`, … — every declaration keeps a module well-formed;
* `Module.WellFormed.modifyFunction` — so does every change of a function that keeps its role;
* `Emit.Spec` — what an operation on a draft comes to, in whichever way it ends.
-/

set_option autoImplicit false

namespace HostBridge

/-! ## Well-formed modules -/

/-- What is true of a function from its declaration on. -/
structure Func.WellFormed (f : Func) : Prop where
  params : f.signature.params <+: f.values
  blocks : f.blocks ≠ []
  signature : f.checkSignature = .ok ()

/-- What is true of a module from the beginning on. -/
structure Module.WellFormed (m : Module) : Prop where
  functions : ∀ f ∈ m.functions, f.WellFormed
  entry : ∀ id, m.entry = some id → ∃ f, m.functions[id]? = some f ∧ f.role = .entry
  abort : ∀ id, m.abort = some id →
    m.externs[id]? = some ⟨abortSymbol, Module.abortSignature, true⟩

namespace Func

theorem declare_wellFormed {name : String} {signature : Signature} {role : Role}
    (h : (declare name signature role).checkSignature = .ok ()) :
    (declare name signature role).WellFormed where
  params := List.prefix_refl _
  blocks := List.cons_ne_nil _ _
  signature := h

/-- The parameter that receives the runtime block exists. -/
theorem checkSignature_runtimeParam {f : Func} (h : f.checkSignature = .ok ()) :
    f.signature.params[f.role.runtimeParam]? = some .ptr := by
  unfold checkSignature at h
  cases role : f.role with
  | entry =>
    rw [role] at h
    simp only at h
    split at h
    · rename_i same
      rw [same]
      rfl
    · cases h
  | helper i =>
    rw [role] at h
    simp only at h
    split at h
    · rename_i pointer
      exact pointer
    · cases h

namespace WellFormed

variable {f : Func}

/-- A parameter is a value of its type. -/
theorem valueType?_param (h : f.WellFormed) {i : Nat} {ty : Ty}
    (param : f.signature.params[i]? = some ty) : f.valueType? i = some ty := by
  obtain ⟨rest, eq⟩ := h.params
  have bound := (List.getElem?_eq_some_iff.1 param).1
  rw [valueType?, ← eq, List.getElem?_append_left bound, param]

theorem runtimeParam_lt (h : f.WellFormed) :
    f.role.runtimeParam < f.signature.params.length :=
  (List.getElem?_eq_some_iff.1 (checkSignature_runtimeParam h.signature)).1

theorem params_le (h : f.WellFormed) : f.signature.params.length ≤ f.values.length :=
  h.params.length_le

end WellFormed

/-! ### Strokes -/

theorem WellFormed.write {f : Func} (h : f.WellFormed) (block : BlockId) (p : Passage) :
    (f.write block p).WellFormed where
  params := h.params.trans (List.prefix_append ..)
  blocks := fun none => h.blocks (List.length_eq_zero_iff.1 (by
    rw [← List.length_modify (· ++ p.insts) f.blocks block]
    exact List.length_eq_zero_iff.2 none))
  signature := h.signature

theorem WellFormed.addBlock {f : Func} (h : f.WellFormed) : f.addBlock.WellFormed where
  params := h.params
  blocks := List.append_ne_nil_of_right_ne_nil _ (List.cons_ne_nil _ _)
  signature := h.signature

end Func

namespace Module

/-- The entry has the signature of entry functions. -/
theorem WellFormed.entry_signature {m : Module} (h : m.WellFormed) {id : FuncId}
    (declared : m.entry = some id) : ∃ f, m.functions[id]? = some f ∧ f.signature = .entry := by
  obtain ⟨f, there, role⟩ := h.entry id declared
  have passes := (h.functions f (List.mem_of_getElem? there)).signature
  simp only [Func.checkSignature, role] at passes
  split at passes
  · rename_i same
    exact ⟨f, there, same⟩
  · cases passes

/-! ## Declarations -/

theorem addFunction_ok {m m' : Module} {f : Func} {id : FuncId}
    (h : m.addFunction f = .ok (id, m')) :
    id = m.functions.length ∧ m' = { m with functions := m.functions ++ [f] } := by
  unfold addFunction at h
  split at h
  · cases h
  · cases h
    exact ⟨rfl, rfl⟩

theorem declareEntry_ok {m m' : Module} {name : String} {id : FuncId}
    (h : m.declareEntry name = .ok (id, m')) :
    id = m.functions.length ∧ m' = { m with
      functions := m.functions ++ [.declare name .entry .entry]
      entry := some m.functions.length } := by
  unfold declareEntry at h
  split at h
  · cases h
  · cases added : m.addFunction (.declare name .entry .entry) with
    | error misuse =>
      rw [added] at h
      cases h
    | ok r =>
      obtain ⟨first, second⟩ := r
      rw [added] at h
      cases h
      obtain ⟨rfl, rfl⟩ := addFunction_ok added
      exact ⟨rfl, rfl⟩

theorem declareHelper_ok {m m' : Module} {name : String} {signature : Signature} {i : Nat}
    {id : FuncId} (h : m.declareHelper name signature i = .ok (id, m')) :
    signature.params[i]? = some .ptr ∧
      m' = { m with functions := m.functions ++ [.declare name signature (.helper i)] } := by
  unfold declareHelper at h
  split at h
  · rename_i pointer
    exact ⟨pointer, (addFunction_ok h).2⟩
  · cases h

/-- A declared extern is where its number says, and the others stay where they are. -/
theorem declareExtern_ok {m m' : Module} {name : String} {signature : Signature} {noreturn : Bool}
    {id : ExternId} (h : m.declareExtern name signature noreturn = .ok (id, m')) :
    ∃ more, m' = { m with externs := m.externs ++ more } ∧
      m'.externs[id]? = some ⟨name, signature, noreturn⟩ := by
  unfold declareExtern at h
  split at h
  · split at h
    · rename_i same
      cases h
      exact ⟨[], by rw [List.append_nil], same⟩
    · cases h
  · cases h
    exact ⟨_, rfl, List.getElem?_concat_length ..⟩

theorem abortPrimitive_ok {m m' : Module} {id : ExternId} (h : m.abortPrimitive = .ok (id, m')) :
    (m.abort = some id ∧ m' = m) ∨
      ∃ more, m' = { m with externs := m.externs ++ more, abort := some id } ∧
        m'.externs[id]? = some ⟨abortSymbol, abortSignature, true⟩ := by
  unfold abortPrimitive at h
  split at h
  · rename_i known
    cases h
    exact .inl ⟨known, rfl⟩
  · cases declared : m.declareExtern abortSymbol abortSignature true with
    | error misuse =>
      rw [declared] at h
      cases h
    | ok r =>
      rw [declared] at h
      cases h
      obtain ⟨more, eq, there⟩ := declareExtern_ok declared
      exact .inr ⟨more, by rw [eq], there⟩

/-- What is true of all functions stays so if the change of one keeps it. -/
theorem forall_modifyFunction {m : Module} {P : Func → Prop} (h : ∀ f ∈ m.functions, P f)
    (id : FuncId) {change : Func → Func} (kept : ∀ f, P f → P (change f)) :
    ∀ f ∈ (m.modifyFunction id change).functions, P f := by
  intro g mem
  obtain ⟨k, there⟩ := List.mem_iff_getElem?.1 mem
  rw [Module.modifyFunction, List.getElem?_modify] at there
  obtain ⟨f, old, rfl⟩ := Option.map_eq_some_iff.1 there
  have before := h f (List.mem_of_getElem? old)
  split
  · exact kept f before
  · exact before

namespace WellFormed

theorem empty (name : String) : (Module.empty name).WellFormed where
  functions := fun _ h => by cases h
  entry := fun _ h => by cases h
  abort := fun _ h => by cases h

variable {m m' : Module}

/-- A new function is put behind the others. -/
theorem addFunction (h : m.WellFormed) {f : Func} (wf : f.WellFormed) :
    { m with functions := m.functions ++ [f] }.WellFormed where
  functions := fun g mem => by
    rcases List.mem_append.1 mem with old | new
    · exact h.functions g old
    · rw [List.mem_singleton.1 new]
      exact wf
  entry := fun id eq => by
    obtain ⟨g, there, role⟩ := h.entry id eq
    refine ⟨g, ?_, role⟩
    rw [List.getElem?_append_left (List.getElem?_eq_some_iff.1 there).1, there]
  abort := h.abort

theorem declareEntry (h : m.WellFormed) {name : String} {id : FuncId}
    (declared : m.declareEntry name = .ok (id, m')) : m'.WellFormed := by
  obtain ⟨-, rfl⟩ := declareEntry_ok declared
  have fits : (Func.declare name .entry .entry).checkSignature = .ok () := rfl
  have more := h.addFunction (Func.declare_wellFormed fits)
  refine ⟨more.functions, ?_, more.abort⟩
  rintro _ ⟨⟩
  exact ⟨_, List.getElem?_concat_length .., rfl⟩

theorem declareHelper (h : m.WellFormed) {name : String} {signature : Signature} {i : Nat}
    {id : FuncId} (declared : m.declareHelper name signature i = .ok (id, m')) :
    m'.WellFormed := by
  obtain ⟨pointer, rfl⟩ := declareHelper_ok declared
  exact h.addFunction (Func.declare_wellFormed (if_pos pointer))

/-- Externs are only ever added, so the abort primitive stays what it is. -/
theorem moreExterns (h : m.WellFormed) (more : List ExternDecl) :
    { m with externs := m.externs ++ more }.WellFormed where
  functions := h.functions
  entry := h.entry
  abort := fun id eq => by
    have there := h.abort id eq
    rw [List.getElem?_append_left (List.getElem?_eq_some_iff.1 there).1, there]

theorem declareExtern (h : m.WellFormed) {name : String} {signature : Signature}
    {noreturn : Bool} {id : ExternId}
    (declared : m.declareExtern name signature noreturn = .ok (id, m')) : m'.WellFormed := by
  obtain ⟨more, rfl, -⟩ := declareExtern_ok declared
  exact h.moreExterns more

theorem abortPrimitive (h : m.WellFormed) {id : ExternId}
    (declared : m.abortPrimitive = .ok (id, m')) : m'.WellFormed := by
  rcases abortPrimitive_ok declared with ⟨-, rfl⟩ | ⟨more, rfl, there⟩
  · exact h
  · refine ⟨h.functions, h.entry, ?_⟩
    rintro _ ⟨⟩
    exact there

/-- A change of a function that keeps its role and its own well-formedness. -/
theorem modifyFunction (h : m.WellFormed) (id : FuncId) {change : Func → Func}
    (role : ∀ f, (change f).role = f.role) (wf : ∀ f, f.WellFormed → (change f).WellFormed) :
    (m.modifyFunction id change).WellFormed where
  functions := forall_modifyFunction h.functions id wf
  entry := fun k eq => by
    obtain ⟨f, there, entry⟩ := h.entry k eq
    rw [Module.modifyFunction, List.getElem?_modify, there]
    refine ⟨_, rfl, ?_⟩
    split
    · exact (role f).trans entry
    · exact entry
  abort := h.abort

end WellFormed

end Module

/-! ## Operations on a draft -/

namespace Emit

variable {α β : Type}

/-- From a draft that satisfies `I` and `P` an operation leads to one that satisfies `I` again,
also if it ends in a misuse. If it does not, `Q` holds of its result. -/
def Spec (I P : Draft → Prop) (e : Emit α) (Q : α → Draft → Prop) : Prop :=
  ∀ d, I d → P d →
    match e.run d with
    | .ok a d' => I d' ∧ Q a d'
    | .error _ d' => I d'

variable {I P : Draft → Prop} {Q : α → Draft → Prop} {R : β → Draft → Prop}

theorem Spec.bind {e : Emit α} {f : α → Emit β} (first : Spec I P e Q)
    (second : ∀ a, Spec I (Q a) (f a) R) : Spec I P (e >>= f) R := by
  intro d inv pre
  have after := first d inv pre
  rw [EStateM.run_bind]
  cases ran : e.run d with
  | ok a d₁ =>
    rw [ran] at after
    exact second a d₁ after.1 after.2
  | error misuse d₁ =>
    rw [ran] at after
    exact after

/-- What follows need not know how it came about. -/
theorem Spec.seq {e : Emit α} {f : α → Emit β} (first : Spec I P e fun _ _ => True)
    (second : ∀ a, Spec I (fun _ => True) (f a) R) : Spec I P (e >>= f) R :=
  first.bind second

theorem Spec.pure {a : α} (h : ∀ d, P d → Q a d) : Spec I P (pure a) Q :=
  fun d inv pre => ⟨inv, h d pre⟩

theorem Spec.throw {misuse : Misuse} : Spec I P (throw misuse) Q := fun _ inv _ => inv

/-- Nothing follows a misuse. -/
theorem Spec.throw_bind {misuse : Misuse} {f : α → Emit β} :
    Spec I P (MonadExcept.throw misuse >>= f) R :=
  fun _ inv _ => inv

theorem Spec.get : Spec I P get fun d d' => P d' ∧ d' = d :=
  fun _ inv pre => ⟨inv, pre, rfl⟩

theorem Spec.modify {change : Draft → Draft} (h : ∀ d, I d → P d → I (change d)) :
    Spec I P (modify change) fun _ _ => True :=
  fun d inv pre => ⟨h d inv pre, trivial⟩

theorem Spec.weaken {e : Emit α} {P' : Draft → Prop} {Q' : α → Draft → Prop}
    (h : Spec I P e Q) (pre : ∀ d, I d → P' d → P d) (post : ∀ a d, I d → Q a d → Q' a d) :
    Spec I P' e Q' := by
  intro d inv before
  have after := h d inv (pre d inv before)
  cases ran : e.run d with
  | ok a d₁ =>
    rw [ran] at after
    exact ⟨after.1, post a d₁ after.1 after.2⟩
  | error misuse d₁ =>
    rw [ran] at after
    exact after

/-- To look at the function changes nothing. -/
theorem Spec.function : Spec I P function fun f d =>
    P d ∧ d.function? = some f := by
  refine Spec.get.bind ?_
  intro d
  split
  · rename_i f eq
    refine .pure ?_
    rintro _ ⟨pre, rfl⟩
    exact ⟨pre, eq⟩
  · exact .throw

theorem Spec.param {i : Nat} : Spec I P (param i) fun v d =>
    P d ∧ ∃ f, d.function? = some f ∧ f.param? i = some v := by
  refine Spec.function.bind ?_
  intro f
  split
  · rename_i v eq
    exact .pure fun d h => ⟨h.1, f, h.2, eq⟩
  · exact .throw

theorem Spec.valueType {v : ValueId} : Spec I P (valueType v) fun _ => P := by
  refine Spec.function.bind ?_
  intro f
  split
  · exact .pure fun d h => h.1
  · exact .throw

end Emit

end HostBridge
