import HostBridge.Proofs.Consistency
import HostBridge.Proofs.Transcripts

/-!
# The text of a module determines it

The text of a module shows less than the module has. Callees are there by name only, types only of
parameters and results, and what a function is for only in a note behind the entry and in the names
of the parameters. For a module that has been written by edits this is enough. Names stand for one
callee each. Every value behind the parameters is defined by one instruction, whose form or callee
gives its type and whose line gives its name. And parameters keep the names that their function gave
them, so the runtime handle of a helper is where its name is.

What the text does not tell is whether the module has asked for the abort primitive or has declared
an extern like it.

* `Module.Built.introduced` — parameters keep their names;
* `Inst.eq_of_phrase` — an instruction is known from its line;
* `Module.AlikeAt.func_eq` — a function from what the text tells of it;
* `Module.dump_determines` — a module from its text.
-/

set_option autoImplicit false

namespace HostBridge

/-! ## Parameters keep their names -/

namespace Func

/-- The parameters have the names that they get from the role of the function. -/
def Introduced (f : Func) : Prop :=
  ∀ i < f.signature.params.length, f.valueName? i = some (paramName f.role i)

theorem introduced_declare (name : String) (signature : Signature) (role : Role) :
    (declare name signature role).Introduced := by
  intro i bound
  have here : i < signature.params.length := bound
  simp [declare, valueName?, here]

theorem Introduced.write {f : Func} (h : f.Introduced) (block : BlockId) (p : Passage) :
    (f.write block p).Introduced := by
  intro i bound
  have old := (List.getElem?_eq_some_iff.1 (Option.join_eq_some_iff.1 (h i bound))).1
  rw [valueName?, write_names, List.getElem?_append_left old]
  exact h i bound

end Func

namespace Module

/-- The parameters of all functions have their names. -/
def Introduced (m : Module) : Prop := ∀ f ∈ m.functions, f.Introduced

theorem Introduced.addFunction {m : Module} (h : m.Introduced) (name : String)
    (signature : Signature) (role : Role) :
    ∀ f ∈ m.functions ++ [Func.declare name signature role], f.Introduced := by
  intro f mem
  rcases List.mem_append.1 mem with old | new
  · exact h f old
  · rw [List.mem_singleton.1 new]
    exact Func.introduced_declare name signature role

end Module

theorem Draft.introduced_lasting : Draft.Lasting fun d => d.module.Introduced := by
  intro d d' stroke h
  cases stroke with
  | define | push => exact Module.forall_modifyFunction h _ fun _ kept => kept.write _ _
  | addBlock => exact Module.forall_modifyFunction h _ fun _ kept => kept
  | move => exact h
  | primitive asked =>
    rcases Module.abortPrimitive_ok asked with ⟨-, rfl⟩ | ⟨more, rfl, -⟩
    · exact h
    · exact h

/-- **Parameters keep the names that their function gave them.** -/
theorem Module.Built.introduced {m : Module} (built : m.Built) : m.Introduced := by
  obtain ⟨s, written, rfl⟩ := built
  induction written with
  | new name => exact nofun
  | edit e _ _ ih =>
    exact Manuscript.kept_after Draft.introduced_lasting
      (fun _ _ _ _ _ kept => kept.addFunction _ _ _) (fun _ _ _ kept => kept) ih e

/-! ## Instructions -/

namespace Module

/-- Modules whose callees have the same names, each of one callee only, and the same signatures. -/
structure SameCallees (m m' : Module) : Prop where
  names : m.functions.map Func.name = m'.functions.map Func.name
  signatures : m.functions.map Func.signature = m'.functions.map Func.signature
  externs : m.externs = m'.externs
  distinct : (m.functions.map Func.name).Nodup
  distinctExterns : (m.externs.map ExternDecl.name).Nodup

end Module

/-- Distinct names are in one place each. -/
theorem place_unique {α : Type} {view : α → String} {xs ys : List α}
    (distinct : (xs.map view).Nodup) (same : xs.map view = ys.map view) {k l : Nat} {x y : α}
    (hx : xs[k]? = some x) (hy : ys[l]? = some y) (h : view x = view y) : k = l := by
  have first : (xs.map view)[k]? = some (view x) := by simp [hx]
  have second : (xs.map view)[l]? = some (view y) := by simp [same, hy]
  exact (List.getElem?_inj (List.getElem?_eq_some_iff.1 first).1 distinct).1
    (by rw [first, second, h])

namespace Inst

variable {m m' : Module} {f g : Func} {i j : Inst} {a b : Option Ty}

/-- An instruction gives the same in both modules. -/
theorem Gives.unique (same : m.SameCallees m') (h : i.Gives m a) (h' : i.Gives m' b) : a = b := by
  cases i with
  | call dst callee args =>
    obtain ⟨f, there, rfl⟩ := h
    obtain ⟨g, there', rfl⟩ := h'
    have signature := congrArg (·[callee]?) same.signatures
    simpa [there, there'] using congrArg (Option.map Signature.ret) signature
  | callExtern dst callee args =>
    obtain ⟨e, there, rfl⟩ := h
    obtain ⟨e', there', rfl⟩ := h'
    rw [same.externs, there'] at there
    cases there
    rfl
  | _ => exact Eq.trans h (Eq.symm h')

theorem callee_eq (same : m.SameCallees m') {dst dst' : Option ValueId} {k l : FuncId}
    {args args' : List ValueId} (gives : (call dst k args).Gives m a)
    (gives' : (call dst' l args').Gives m' b) (name : m.functionName k = m'.functionName l) :
    k = l := by
  obtain ⟨f, there, -⟩ := gives
  obtain ⟨g, there', -⟩ := gives'
  rw [Module.functionName, Module.functionName, there, there'] at name
  exact place_unique same.distinct same.names there there' name

theorem externCallee_eq (same : m.SameCallees m') {dst dst' : Option ValueId} {k l : ExternId}
    {args args' : List ValueId} (gives : (callExtern dst k args).Gives m a)
    (gives' : (callExtern dst' l args').Gives m' b) (name : m.externName k = m'.externName l) :
    k = l := by
  obtain ⟨e, there, -⟩ := gives
  obtain ⟨e', there', -⟩ := gives'
  rw [Module.externName, Module.externName, there, there'] at name
  exact place_unique same.distinctExterns (by rw [same.externs]) there there' name

theorem dst_eq {v w : Option ValueId} (h : v.map f.label = w.map g.label) : v = w := by
  cases v with
  | none => exact (Option.map_eq_none_iff.1 h.symm).symm
  | some v =>
    obtain ⟨w, rfl, same⟩ := Option.map_eq_some_iff.1 h.symm
    rw [(Func.label_eq same).1]

/-- **An instruction is known from its line.** -/
theorem eq_of_phrase (same : m.SameCallees m') (hf : f.Legible) (hg : g.Legible)
    (gives : i.Gives m a) (gives' : j.Gives m' b) (h : i.phrase m f = j.phrase m' g) : i = j := by
  obtain ⟨labels, form, callee, operands⟩ := phrase_parts hf hg h
  have dst := dst_eq labels
  have label {v w : ValueId} (h : f.label v = g.label w) : v = w := (Func.label_eq h).1
  have block {b c : BlockId} (h : blockName b = blockName c) : b = c :=
    toString_injective (String.append_right_inj _ |>.1 h)
  -- lines of different forms differ, and those of one form differ in the operands
  cases i with
  | const =>
    cases j with
    | const =>
      simp only [operandTexts, List.cons.injEq, and_true] at operands
      cases dst
      rw [Word.text_injective operands]
    | _ => cases form
  | constI32 =>
    cases j with
    | constI32 =>
      simp only [operandTexts, List.cons.injEq, and_true] at operands
      cases dst
      rw [BitVec.eq_of_toInt_eq (toString_int_injective operands)]
    | _ => cases form
  | ptrOffset =>
    cases j with
    | ptrOffset =>
      simp only [operandTexts, List.cons.injEq, and_true] at operands
      cases dst
      rw [label operands.1, BitVec.eq_of_toNat_eq (toString_injective operands.2)]
    | _ => cases form
  | load =>
    cases j with
    | load =>
      simp only [operandTexts, List.cons.injEq, and_true] at operands
      cases dst
      cases form
      rw [label operands]
    | _ => cases form
  | store =>
    cases j with
    | store =>
      simp only [operandTexts, List.cons.injEq, and_true] at operands
      rw [label operands.1, label operands.2]
    | _ => cases form
  | loadByte =>
    cases j with
    | loadByte =>
      simp only [operandTexts, List.cons.injEq, and_true] at operands
      cases dst
      rw [label operands.1, label operands.2]
    | _ => cases form
  | binary =>
    cases j with
    | binary =>
      simp only [operandTexts, List.cons.injEq, and_true] at operands
      cases dst
      cases form
      rw [label operands.1, label operands.2]
    | _ => cases form
  | call =>
    cases j with
    | call =>
      cases dst
      rw [callee_eq same gives gives' (Option.some.inj callee),
        map_eq_map_imp_eq operands fun _ _ _ _ => label]
    | _ => cases form
  | callExtern =>
    cases j with
    | callExtern =>
      cases dst
      rw [externCallee_eq same gives gives' (Option.some.inj callee),
        map_eq_map_imp_eq operands fun _ _ _ _ => label]
    | _ => cases form
  | jump =>
    cases j with
    | jump =>
      simp only [operandTexts, List.cons.injEq, and_true] at operands
      rw [block operands]
    | _ => cases form
  | branch =>
    cases j with
    | branch =>
      simp only [operandTexts, List.cons.injEq, and_true] at operands
      rw [label operands.1, block operands.2.1, block operands.2.2]
    | _ => cases form
  | ret value =>
    cases j with
    | ret value' =>
      have same : value.map f.label = value'.map g.label := by
        cases value <;> cases value' <;> simp_all [operandTexts]
      rw [dst_eq same]
    | _ => cases form
  | unreachable =>
    cases j with
    | unreachable => rfl
    | _ => cases form

end Inst

/-! ## Functions -/

namespace Func

variable {m m' : Module} {f f' : Func} {id : FuncId}

/-- Every value behind the parameters is defined somewhere. -/
theorem Numbered.exists_dst (h : f.Numbered m) (wf : f.WellFormed) {v : Nat}
    (behind : f.signature.params.length ≤ v) (bound : v < f.values.length) :
    ∃ i ∈ f.insts, i.dst? = some v := by
  have params := wf.params_le
  have range : v ∈ List.range' f.signature.params.length
      (f.values.length - f.signature.params.length) := List.mem_range'_1.2 ⟨behind, by omega⟩
  exact List.mem_filterMap.1 (h.destinations.symm.subset range)

/-- As many values are defined as there are. -/
theorem Numbered.count (h : f.Numbered m) (wf : f.WellFormed) :
    (f.insts.filterMap Inst.dst?).length + f.signature.params.length = f.values.length := by
  rw [h.destinations.length_eq, List.length_range']
  exact Nat.sub_add_cancel wf.params_le

/-- Values that have the same types have one table of types. -/
theorem values_eq (count : f.values.length = f'.values.length)
    (types : ∀ v < f.values.length, f.valueType? v = f'.valueType? v) : f.values = f'.values := by
  refine List.ext_getElem count fun v bound bound' => ?_
  have type := types v bound
  rw [valueType?, valueType?, List.getElem?_eq_getElem bound, List.getElem?_eq_getElem bound'] at type
  exact Option.some.inj type

/-- Values that have the same names have one table of names. -/
theorem names_eq (count : f.names.length = f'.names.length)
    (names : ∀ v < f.names.length, f.valueName? v = f'.valueName? v) : f.names = f'.names := by
  refine List.ext_getElem count fun v bound bound' => ?_
  have name := names v bound
  rwa [valueName?, valueName?, List.getElem?_eq_getElem bound, List.getElem?_eq_getElem bound',
    Option.join_some, Option.join_some] at name

/-- A helper's runtime handle is the only parameter with its name. -/
theorem paramName_helper {i j : Nat} (h : paramName (.helper i) i = paramName (.helper j) i) :
    i = j := by
  by_contra other
  have arg : paramName (.helper j) i = "arg" ++ toString i := by
    simp [paramName, Role.runtimeParam, other]
  have rt : paramName (.helper i) i = "rt" := by simp [paramName, Role.runtimeParam]
  rw [arg, rt] at h
  have letters := congrArg (·.toList.head?) h
  simp at letters

end Func

namespace Module

variable {m m' : Module} {f f' : Func} {id : FuncId}

theorem Orderly.entry_iff (h : m.Orderly) (there : m.functions[id]? = some f) :
    m.entry = some id ↔ f.role = .entry := by
  constructor
  · intro entry
    obtain ⟨g, here, role⟩ := h.wellFormed.entry id entry
    rw [there] at here
    cases here
    exact role
  · exact h.onlyEntry id f there

/-- What is used of a module to read its text. -/
structure Readable (m : Module) : Prop where
  orderly : m.Orderly
  introduced : m.Introduced
  legible : m.Legible

/-- A function in its place in a readable module. -/
structure ReadableAt (m : Module) (id : FuncId) (f : Func) : Prop where
  module : m.Readable
  there : m.functions[id]? = some f

namespace ReadableAt

variable (r : m.ReadableAt id f)

include r

theorem wellFormed : f.WellFormed :=
  r.module.orderly.wellFormed.functions f (List.mem_of_getElem? r.there)

theorem numbered : f.Numbered m := r.module.orderly.numbered f (List.mem_of_getElem? r.there)

theorem introduced : f.Introduced := r.module.introduced f (List.mem_of_getElem? r.there)

theorem legible : f.Legible := r.module.legible.values f (List.mem_of_getElem? r.there)

theorem gives {code : List Inst} (block : code ∈ f.blocks) {i : Inst} (mem : i ∈ code) :
    i.Gives m (i.dst?.bind f.valueType?) :=
  r.numbered.gives i (List.mem_flatten.2 ⟨code, block, mem⟩)

end ReadableAt

namespace AlikeAt

variable (alike : AlikeAt m m' id f f') (r : m.ReadableAt id f) (r' : m'.ReadableAt id f')

include alike r r'

theorem blocks_eq (same : m.SameCallees m') : f.blocks = f'.blocks := by
  refine map_eq_map_imp_eq alike.code fun code block code' block' lines => ?_
  exact map_eq_map_imp_eq lines fun i mem j mem' line =>
    Inst.eq_of_phrase same r.legible r'.legible (r.gives block mem) (r'.gives block' mem') line

/-- The values that instructions define have the same names. -/
theorem dst_name_eq (blocks : f.blocks = f'.blocks) {i : Inst} (mem : i ∈ f.insts) {v : ValueId}
    (dst : i.dst? = some v) : f.valueName? v = f'.valueName? v := by
  obtain ⟨code, block, here⟩ := List.mem_flatten.1 mem
  have lines := alike.code
  rw [← blocks, List.map_inj_left] at lines
  have line := List.map_inj_left.1 (lines code block) i here
  have labels := (Inst.phrase_parts r.legible r'.legible line).1
  rw [dst] at labels
  exact (Func.label_eq (Option.some.inj labels)).2

/-- A value is a parameter, or there is the instruction that defines it. -/
theorem value_eq (same : m.SameCallees m') {v : Nat} (bound : v < f.values.length) :
    f.valueType? v = f'.valueType? v ∧ f.valueName? v = f'.valueName? v := by
  rcases Nat.lt_or_ge v f.signature.params.length with param | behind
  · have type : f.signature.params[v]? = some f.signature.params[v] :=
      List.getElem?_eq_getElem param
    have type' : f'.signature.params[v]? = some f.signature.params[v] := by
      rw [← alike.signature, type]
    rw [r.wellFormed.valueType?_param type, r'.wellFormed.valueType?_param type']
    exact ⟨rfl, alike.paramNames v param⟩
  · have blocks := alike.blocks_eq r r' same
    have insts : f.insts = f'.insts := congrArg List.flatten blocks
    obtain ⟨i, mem, dst⟩ := r.numbered.exists_dst r.wellFormed behind bound
    have gives := r.numbered.gives i mem
    have gives' := r'.numbered.gives i (insts ▸ mem)
    rw [dst] at gives gives'
    exact ⟨gives.unique same gives', alike.dst_name_eq r r' blocks mem dst⟩

theorem role_eq : f.role = f'.role := by
  have entry : f.role = .entry ↔ f'.role = .entry := by
    rw [← r.module.orderly.entry_iff r.there, ← r'.module.orderly.entry_iff r'.there, alike.entry]
  cases role : f.role with
  | entry => exact (entry.1 role).symm
  | helper i =>
    cases role' : f'.role with
    | entry =>
      rw [entry.2 role'] at role
      cases role
    | helper j =>
      have handle := r.wellFormed.runtimeParam_lt
      have bound : i < f.signature.params.length := by rwa [role] at handle
      have name := r.introduced i bound
      have name' := r'.introduced i (alike.signature ▸ bound)
      rw [role] at name
      rw [role', ← alike.paramNames i bound, name] at name'
      rw [Func.paramName_helper (Option.some.inj name')]

/-- **A function is known from its text**, if the callees of its module are. -/
theorem func_eq (same : m.SameCallees m') : f = f' := by
  have blocks := alike.blocks_eq r r' same
  have insts : f.insts = f'.insts := congrArg List.flatten blocks
  have count : f.values.length = f'.values.length := by
    rw [← r.numbered.count r.wellFormed, ← r'.numbered.count r'.wellFormed, insts, alike.signature]
  have values : f.values = f'.values :=
    Func.values_eq count fun _ bound => (alike.value_eq r r' same bound).1
  have named := r.numbered.named
  have names : f.names = f'.names := by
    refine Func.names_eq (by rw [← named, ← r'.numbered.named, count]) fun v bound => ?_
    exact (alike.value_eq r r' same (named ▸ bound)).2
  have role := alike.role_eq r r'
  have name := alike.name
  have signature := alike.signature
  cases f
  cases f'
  simp_all

end AlikeAt

/-! ## Modules -/

/-- What the texts of functions tell, they tell of all functions. -/
theorem Alike.map_eq {α : Type} {view : Func → α} (alike : Alike m m')
    (same : ∀ id f f', m.functions[id]? = some f → m'.functions[id]? = some f' →
      AlikeAt m m' id f f' → view f = view f') :
    m.functions.map view = m'.functions.map view := by
  refine List.ext_getElem (by simp [alike.count]) fun id bound bound' => ?_
  rw [List.length_map] at bound bound'
  have there := List.getElem?_eq_getElem bound
  have there' := List.getElem?_eq_getElem bound'
  rw [List.getElem_map, List.getElem_map]
  exact same id _ _ there there' (alike.functions id _ _ there there')

/-- An entry function is there, so the note behind it is. -/
theorem Alike.entry_eq (alike : Alike m m') (wf : m.WellFormed) (wf' : m'.WellFormed) :
    m.entry = m'.entry := by
  ext id
  constructor
  · intro entry
    obtain ⟨f, there, -⟩ := wf.entry id entry
    have bound := (List.getElem?_eq_some_iff.1 there).1
    have there' := List.getElem?_eq_getElem (alike.count ▸ bound)
    exact (alike.functions id f _ there there').entry.1 entry
  · intro entry
    obtain ⟨f', there', -⟩ := wf'.entry id entry
    have bound := (List.getElem?_eq_some_iff.1 there').1
    have there := List.getElem?_eq_getElem (alike.count.symm ▸ bound)
    exact (alike.functions id _ f' there there').entry.2 entry

/-- **The text of a module determines it.** Take two modules that have been written by edits and
whose names are words: they are not empty and have none of the marks in them that the text is
written with, as is the case with letters, digits, underscores and full stops
(`IsWord.of_nameChars`). If their texts are the same, then so are their names, their externs, their
entries, and their functions with all that belongs to these: names, signatures, roles, blocks and
instructions, types and names of values. -/
theorem dump_determines (built : m.Built) (built' : m'.Built) (legible : m.Legible)
    (legible' : m'.Legible) (same : m.dump = m'.dump) :
    m.name = m'.name ∧ m.externs = m'.externs ∧ m.entry = m'.entry ∧
      m.functions = m'.functions := by
  have r : m.Readable := ⟨built.orderly, built.introduced, legible⟩
  have r' : m'.Readable := ⟨built'.orderly, built'.introduced, legible'⟩
  have alike := alike_of_dump legible legible' same
  have callees : m.SameCallees m' :=
    ⟨alike.map_eq fun _ _ _ _ _ alike => alike.name,
      alike.map_eq fun _ _ _ _ _ alike => alike.signature, alike.externs, r.orderly.functionNames,
      r.orderly.externNames⟩
  have functions : m.functions.map (fun f => f) = m'.functions.map fun f => f :=
    alike.map_eq fun id f f' there there' alike => alike.func_eq ⟨r, there⟩ ⟨r', there'⟩ callees
  rw [List.map_id', List.map_id'] at functions
  exact ⟨alike.name, alike.externs,
    alike.entry_eq r.orderly.wellFormed r'.orderly.wellFormed, functions⟩

/-- A helper and an entry function that calls it, written after some other edit. -/
def sketch (first : Edit) : Module :=
  let edits : List Edit :=
    [first, .declareHelper "echo" ⟨[.word, .ptr], some .word⟩ 1, .declareEntry "main", .select 0,
      .emit (.ret (some 0)), .select 1, .emit .gas, .emit (.callHelper 0 [3]), .emit (.setGas 4),
      .emit (.returnStatus .ret)]
  (edits.foldl Manuscript.after (.new "probe.v2")).module

theorem sketch_built (first : Edit) : (sketch first).Built :=
  ⟨_, Manuscript.Written.all _ (fun _ _ _ => trivial) (.new _), rfl⟩

/-- One module has asked for the abort primitive, the other has declared an extern like it. Nothing
else tells them apart, and their texts do not. -/
theorem dump_determines_sketch :
    let m := sketch .abortPrimitive
    let m' := sketch (.declareExtern abortSymbol abortSignature true)
    m.dump = m'.dump ∧ m.abort ≠ m'.abort ∧ m.name = m'.name ∧ m.externs = m'.externs ∧
      m.entry = m'.entry ∧ m.functions = m'.functions := by
  intro m m'
  have legible : m.Legible :=
    ⟨.of_nameChars (by decide) (by decide), by decide +kernel, by decide +kernel, by decide +kernel⟩
  have legible' : m'.Legible :=
    ⟨.of_nameChars (by decide) (by decide), by decide +kernel, by decide +kernel, by decide +kernel⟩
  have same : m.dump = m'.dump := by decide +kernel
  exact ⟨same, by decide +kernel,
    dump_determines (sketch_built _) (sketch_built _) legible legible' same⟩

end Module

end HostBridge
