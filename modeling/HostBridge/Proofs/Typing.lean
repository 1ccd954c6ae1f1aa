import HostBridge.Proofs.Accesses
import HostBridge.Proofs.CallInvariant
import HostBridge.Proofs.Calls
import HostBridge.Proofs.Handles
import HostBridge.Proofs.Verified

/-!
# Verified modules at run time

In a call of a verified module every value has its declared type, whatever the code does and
whatever else runs on the machine. What is read from memory is no exception, because a load gives
its result the type it asks for; what a host function answers is of the declared type by assumption
(`CallRequest.Sound`).

* `Inst.effect_typed` — the effect of a typed instruction;
* `Call.callee_primitive` — what the abort primitive says to its arguments;
* `Call.turn_declared`, `Call.turn_typed` — the turn of a call whose activations are typed;
* `Machine.verified_typed` — in all runs, all calls of verified modules.
-/

set_option autoImplicit false

namespace HostBridge

variable {φ σ : Type}

/-- An error that the machine does not report of a verified module. -/
def BridgeError.IsTypeFault : BridgeError → Prop
  | .exec (.wrongType _ _) | .exec (.missingBlock _ _) | .exec (.openBlock _ _)
  | .exec (.unknownFunction _) | .exec (.externNotBound _) | .exec (.hostSlotNotBound _)
  | .exec .abortArguments | .exec .noStatus | .host (.noValue _) | .unboundExtern _ => True
  | _ => False

/-! ## Activations -/

namespace Activation

/-- There is a place for every value of the function, and what is in it has the right type. -/
structure ValuesTyped (a : Activation) : Prop where
  length : a.values.length = a.function.values.length
  types : ∀ v x, a.values[v]? = some (some x) → a.function.valueType? v = some x.ty

/-- An activation of a function of the module with typed values and typed code. -/
structure Typed (m : Module) (a : Activation) : Prop where
  function : a.function ∈ m.functions
  values : a.ValuesTyped
  code : m.BlockTyped a.function a.rest

theorem receive_function (a : Activation) (dst : Option ValueId) (x : Option Val) :
    (a.receive dst x).function = a.function := by
  cases dst <;> rfl

namespace Typed

variable {m : Module} {a : Activation} {i : Inst} {rest : List Inst}

/-- A value of the right type may be put in its place. -/
theorem assign (h : a.Typed m) {dst : ValueId} {x : Option Val}
    (fits : ∀ y, x = some y → a.function.valueType? dst = some y.ty) :
    (a.assign dst x).Typed m := by
  refine ⟨h.function, ⟨(List.length_set ..).trans h.values.length, fun v y there => ?_⟩, h.code⟩
  by_cases same : v = dst
  · rw [Activation.assign, same, List.getElem?_set_self'] at there
    obtain ⟨_, -, eq⟩ := Option.map_eq_some_iff.1 there
    rw [same]
    exact fits y eq
  · rw [Activation.assign, List.getElem?_set_ne (Ne.symm same)] at there
    exact h.values.types v y there

/-- A result of the right type may be received. -/
theorem receive (h : a.Typed m) {dst : Option ValueId} {x : Option Val}
    (fits : ∀ d, dst = some d → ∀ y, x = some y → a.function.valueType? d = some y.ty) :
    (a.receive dst x).Typed m := by
  cases dst with
  | none => exact h
  | some d => exact h.assign (fits d rfl)

/-- After an instruction that does not end its block there is another. -/
theorem next (h : a.Typed m) (eq : a.rest = i :: rest) (goesOn : i.isTerminator = false) :
    { a with rest := rest }.Typed m := by
  obtain ⟨insts, j, last, ends⟩ := h.code
  rw [eq] at insts last
  refine ⟨h.function, ⟨h.values.length, h.values.types⟩,
    fun k mem => insts k (List.mem_cons_of_mem _ mem), j, ?_, ends⟩
  cases rest with
  | nil =>
    rw [List.getLast?_singleton, Option.some.injEq] at last
    rw [← last, goesOn] at ends
    cases ends
  | cons k rest => exact last

/-- There always is a next instruction, and the values that it names have their places. -/
theorem values_lt (h : a.Typed m) :
    ∃ i rest, a.rest = i :: rest ∧ ∀ v ∈ i.values, v < a.values.length := by
  obtain ⟨insts, j, last, -⟩ := h.code
  cases eq : a.rest with
  | nil =>
    rw [eq] at last
    cases last
  | cons i rest =>
    rw [eq] at insts
    refine ⟨i, rest, rfl, ?_⟩
    intro v mem
    rw [h.values.length]
    exact (insts i List.mem_cons_self).values_lt v mem

theorem enter (h : a.Typed m) (code : ∀ f ∈ m.functions, ∀ insts ∈ f.blocks, m.BlockTyped f insts)
    {block : BlockId} {b : Activation} (entered : { a with rest := rest }.enter block = .ok b) :
    b.Typed m ∧ b.function = a.function := by
  obtain ⟨function, values, there⟩ := enter_ok entered
  refine ⟨⟨function ▸ h.function, ?_, ?_⟩, function⟩
  · obtain ⟨length, types⟩ := h.values
    exact ⟨by rw [function, values, length], by rw [function, values]; exact types⟩
  · rw [function]
    exact code _ h.function _ (List.mem_iff_getElem?.2 ⟨_, there⟩)

/-- A function starts well with arguments for all its parameters. -/
theorem start (wf : m.WellFormed)
    (code : ∀ f ∈ m.functions, ∀ insts ∈ f.blocks, m.BlockTyped f insts) {f : Func}
    (mem : f ∈ m.functions) {args : List Val} (types : args.map Val.ty = f.signature.params)
    (started : Activation.start f args = .ok a) : a.Typed m ∧ a.function = f := by
  obtain ⟨function, values, there⟩ := start_ok started
  refine ⟨⟨function ▸ mem, ⟨?_, fun v x value => ?_⟩, ?_⟩, function⟩
  · rw [values, function, length_initial]
  · rw [values] at value
    obtain ⟨arg, -⟩ := (initial_eq ..).1 value
    rw [function]
    refine (wf.functions f mem).valueType?_param ?_
    rw [← types, List.getElem?_map, arg]
    rfl
  · rw [function]
    exact code f mem _ (List.mem_iff_getElem?.2 ⟨_, there⟩)

end Typed

end Activation

/-! ## Effects -/

/-- A load has a value of the type that it asks for, or it leads nowhere. -/
theorem Storage.load_typed (s : Storage) (ty : Ty) (addr : Addr) :
    match s.load ty addr with
    | .ok x => x.ty = ty
    | .error e => ¬ e.IsTypeFault := by
  unfold load
  cases fetched : s.fetch addr ty.size with
  | ok bytes => exact Val.ty_ofNumber ..
  | error e =>
    obtain rfl := fetch_eq_error fetched
    exact not_false

/-- What takes the result of a call is of the type of the result. -/
def Func.Takes (f : Func) (ret : Option Ty) (dst : Option ValueId) : Prop :=
  ∀ d, dst = some d → ∃ ty, ret = some ty ∧ f.valueType? d = some ty

/-- What may come of a typed instruction. -/
def EffectTyped (m : Module) (a : Activation) (i : Inst) : Except BridgeError Effect → Prop
  | .error e => ¬ e.IsTypeFault
  | .ok (.define dst x) => i.isTerminator = false ∧ a.function.valueType? dst = some x.ty
  | .ok (.write _) => i.isTerminator = false
  | .ok (.goto target) => target < a.function.blocks.length
  | .ok (.leave x) => x.map Val.ty = a.function.signature.ret
  | .ok (.call dst callee xs) => i.isTerminator = false ∧
    ∃ g, m.functions[callee]? = some g ∧ xs.map Val.ty = g.signature.params ∧
      a.function.Takes g.signature.ret dst
  | .ok (.callExtern dst callee xs) => i.isTerminator = false ∧
    ∃ e, m.externs[callee]? = some e ∧ xs.map Val.ty = e.signature.params ∧
      a.function.Takes e.signature.ret dst

section Effect

variable {m : Module} {a : Activation} {i : Inst}

theorem EffectTyped.read {v : ValueId} {ty : Ty} {f : Val → Except BridgeError Effect}
    (typed : a.ValuesTyped) (has : a.function.valueType? v = some ty)
    (h : ∀ x, x.ty = ty → EffectTyped m a i (f x)) : EffectTyped m a i (a.read v >>= f) := by
  cases read : a.read v with
  | error e =>
    rw [Activation.read_error read]
    exact not_false
  | ok x =>
    have type := typed.types v x (Activation.read_ok.1 read)
    exact h x (Option.some.inj (type.symm.trans has))

theorem EffectTyped.readPtr {v : ValueId} {f : Addr → Except BridgeError Effect}
    (typed : a.ValuesTyped) (has : a.function.valueType? v = some .ptr)
    (h : ∀ addr, EffectTyped m a i (f addr)) :
    EffectTyped m a i (a.read v >>= fun x => x.asPtr >>= f) := by
  refine .read typed has ?_
  intro x type
  cases x with
  | ptr addr => exact h addr
  | word | i32 => cases type

theorem EffectTyped.readWord {v : ValueId} {f : Word → Except BridgeError Effect}
    (typed : a.ValuesTyped) (has : a.function.valueType? v = some .word)
    (h : ∀ w, EffectTyped m a i (f w)) :
    EffectTyped m a i (a.read v >>= fun x => x.asWord >>= f) := by
  refine .read typed has ?_
  intro x type
  cases x with
  | word w => exact h w
  | ptr | i32 => cases type

/-- Arguments have the types of the parameters. -/
theorem EffectTyped.readAll {vs : List ValueId} {params : List Ty}
    {f : List Val → Except BridgeError Effect} (typed : a.ValuesTyped)
    (has : List.Forall₂ (fun v ty => a.function.valueType? v = some ty) vs params)
    (h : ∀ xs, xs.map Val.ty = params → EffectTyped m a i (f xs)) :
    EffectTyped m a i (a.readAll vs >>= f) := by
  cases read : a.readAll vs with
  | error e =>
    obtain ⟨v, -, rfl⟩ := Activation.readAll_error read
    exact not_false
  | ok xs =>
    apply h xs
    have values := Activation.readAll_ok.1 read
    clear h read
    induction has generalizing xs with
    | nil =>
      cases values
      rfl
    | cons first _ ih =>
      obtain _ | ⟨value, rest⟩ := values
      rw [List.map_cons, ih _ rest]
      exact congrArg (· :: _) (Option.some.inj ((typed.types _ _ value).symm.trans first))

/-- A typed instruction finds operands of the types it needs, and what it defines is of the type
that is declared. -/
theorem Inst.effect_typed (typed : a.ValuesTyped) (h : i.Typed m a.function) (s : Storage) :
    EffectTyped m a i (i.effect s a) := by
  cases i with
  | const dst value | constI32 dst value => exact ⟨rfl, h⟩
  | ptrOffset dst base offset =>
    refine .readPtr typed h.1 ?_
    intro addr
    split
    · exact ⟨rfl, h.2⟩
    · exact not_false
  | load dst ty addr =>
    refine .readPtr typed h.1 ?_
    intro addr
    have loaded := s.load_typed ty addr
    cases load : s.load ty addr with
    | error e =>
      rw [load] at loaded
      exact loaded
    | ok x =>
      rw [load] at loaded
      exact ⟨rfl, loaded ▸ h.2⟩
  | store addr value =>
    obtain ⟨ptr, ty, has⟩ := h
    refine .readPtr typed ptr fun addr => .read typed has ?_
    intro x _
    cases stored : s.store addr x with
    | error e =>
      obtain rfl := Storage.store_eq_error stored
      exact not_false
    | ok s' => rfl
  | loadByte dst base index =>
    refine .readPtr typed h.1 fun base => .readWord typed h.2.1 ?_
    intro index
    cases loaded : s.loadByte base index with
    | error e =>
      obtain ⟨addr, rfl⟩ := Storage.loadByte_eq_error loaded
      exact not_false
    | ok w => exact ⟨rfl, h.2.2⟩
  | binary dst op lhs rhs =>
    exact .readWord typed h.1 fun _ => .readWord typed h.2.1 fun _ => ⟨rfl, h.2.2⟩
  | call dst callee args =>
    obtain ⟨g, there, -, args, result⟩ := h
    exact .readAll typed args fun xs types => ⟨rfl, g, there, types, result⟩
  | callExtern dst callee args =>
    obtain ⟨e, there, -, args, result⟩ := h
    exact .readAll typed args fun xs types => ⟨rfl, e, there, types, result⟩
  | jump target => exact h
  | branch cond thenBlock elseBlock =>
    refine .readWord typed h.1 ?_
    intro w
    show (if w = 0 then elseBlock else thenBlock) < _
    split
    · exact h.2.2
    · exact h.2.1
  | ret value =>
    cases value with
    | none => exact h.symm
    | some v =>
      obtain ⟨ty, ret, has⟩ := h
      refine .read typed has ?_
      intro x type
      show some x.ty = _
      rw [type, ret]
  | unreachable => exact not_false

end Effect

/-! ## Requests -/

/-- A host function that answers gives a value of the type that the extern declares, whenever it is
called with arguments of the declared types. -/
def Platform.Provides (p : Platform φ σ) (e : ExternDecl) (function : φ) : Prop :=
  ∀ args, args.map Val.ty = e.signature.params →
    (p.behaviour function args).Answers fun answer =>
      ∀ v ty, answer = .ok v → e.signature.ret = some ty → ∃ x, v = some x ∧ x.ty = ty

/-- A verified module, on a host that keeps to the declarations of its externs. -/
structure CallRequest.Sound (p : Platform φ σ) (r : CallRequest φ) : Prop where
  built : r.module.Built
  verified : r.module.verify = .ok ()
  abort : ∀ e ∈ r.module.externs, e.name = abortSymbol → e.signature.params = [.ptr, .i32]
  provides : ∀ e ∈ r.module.externs, ∀ slot entry, r.hosts.bind e = .ok (.host slot) →
    r.hosts.entries[slot]? = some entry → p.Provides e entry.function

/-- The same, however the module declares the abort primitive. -/
structure CallRequest.Declared (p : Platform φ σ) (r : CallRequest φ) : Prop where
  built : r.module.Built
  verified : r.module.verify = .ok ()
  provides : ∀ e ∈ r.module.externs, ∀ slot entry, r.hosts.bind e = .ok (.host slot) →
    r.hosts.entries[slot]? = some entry → p.Provides e entry.function

namespace CallRequest

variable {p : Platform φ σ} {r : CallRequest φ}

theorem Sound.declared (h : r.Sound p) : r.Declared p := ⟨h.built, h.verified, h.provides⟩

theorem Declared.code (h : r.Declared p) :
    ∀ f ∈ r.module.functions, ∀ insts ∈ f.blocks, r.module.BlockTyped f insts := by
  intro f mem insts block
  have passes := (Module.verify_ok.1 h.verified).2 f mem
  exact ((Module.checkFunction_ok.1 passes).2 insts block).1

end CallRequest

/-- What is wrong with arguments of the given types for the abort primitive, which takes the handle
of a checkpoint and a status. -/
def abortFault? : List Ty → Option ExecFault
  | [.ptr, .i32] => none
  | [.ptr, ty] => some (.wrongType .i32 ty)
  | [ty, _] => some (.wrongType .ptr ty)
  | _ => some .abortArguments

/-- A fault of the arguments that the abort primitive takes by its declaration in the module. -/
def Module.Refuses (m : Module) (e : BridgeError) : Prop :=
  ∃ ext ∈ m.externs, ext.name = abortSymbol ∧
    ∃ fault, abortFault? ext.signature.params = some fault ∧ e = .exec fault

/-- Nothing is wrong with the arguments if the primitive is declared as it should be. -/
theorem CallRequest.Sound.not_refuses {p : Platform φ σ} {r : CallRequest φ} (h : r.Sound p)
    {e : BridgeError} : ¬ r.module.Refuses e := by
  rintro ⟨ext, mem, name, fault, wrong, -⟩
  rw [h.abort ext mem name] at wrong
  cases wrong

/-! ## Calls -/

/-- What waits for a function to return takes what it returns, and so on outwards. The entry
function, which nothing waits for, returns a status. -/
def Expects (m : Module) : Option Ty → List (Activation × Option ValueId) → Prop
  | ret, [] => ret = some .i32
  | ret, (a, dst) :: waiting =>
    a.Typed m ∧ a.function.Takes ret dst ∧ Expects m a.function.signature.ret waiting

namespace Call

variable {p : Platform φ σ} {c : Call φ σ} {a : Activation}

/-- The call has been prepared. -/
def Prepared (c : Call φ σ) : Prop := ∃ entry, c.request.prepare = .ok (entry, c.bindings)

/-- A host function is called as its registration and the declaration of the extern say. -/
def CallsHost (c : Call φ σ) (callee : ExternId) (function : φ) (args : List Val) : Prop :=
  ∃ e slot entry, c.request.module.externs[callee]? = some e ∧
    c.request.hosts.bind e = .ok (.host slot) ∧ c.request.hosts.entries[slot]? = some entry ∧
    entry.function = function ∧ args.length = entry.arity ∧ args.map Val.ty = e.signature.params

/-- What waits for an extern takes what it returns. -/
def Awaits (c : Call φ σ) (a : Activation) (callee : ExternId) (dst : Option ValueId) : Prop :=
  ∃ e, c.request.module.externs[callee]? = some e ∧ a.function.Takes e.signature.ret dst

/-- What the turn of a typed call comes to, if no faults of typing are reported but some. -/
def TurnTyped (m : Module) (Some : BridgeError → Prop) : Turn φ σ → Prop
  | .code c a => a.Typed m ∧ Expects m a.function.signature.ret c.waiting
  | .leave c answer => (∃ ret, Expects m ret c.waiting ∧ ∀ x, answer = .ok x → x.map Val.ty = ret) ∧
    ∀ e, answer = .error e → e.IsTypeFault → Some e
  | .abort c _ _ => ∃ ret, Expects m ret c.waiting
  | .host c a callee dst function args =>
    a.Typed m ∧ Expects m a.function.signature.ret c.waiting ∧ c.Awaits a callee dst ∧
      c.CallsHost callee function args

theorem TurnTyped.mono {m : Module} {Some Others : BridgeError → Prop} {t : Turn φ σ}
    (weaker : ∀ e, Some e → Others e) (h : TurnTyped m Some t) : TurnTyped m Others t := by
  cases t with
  | leave c answer => exact ⟨h.1, fun e same fault => weaker e (h.2 e same fault)⟩
  | code | abort | host => exact h

/-- A function that is called with arguments for its parameters starts, unless there are too many
active already. -/
theorem activate_typed (declared : c.request.Declared p) {callee : FuncId} {f : Func}
    {args : List Val} (there : c.request.module.functions[callee]? = some f)
    (types : args.map Val.ty = f.signature.params) :
    (∀ b, c.activate callee args = .ok b → b.Typed c.request.module ∧ b.function = f) ∧
    (∀ e, c.activate callee args = .error e → ¬ e.IsTypeFault) := by
  have mem : f ∈ c.request.module.functions := List.mem_iff_getElem?.2 ⟨_, there⟩
  constructor
  · intro b activated
    obtain ⟨g, there', started⟩ := activate_ok activated
    obtain rfl := Option.some.inj (there.symm.trans there')
    exact Activation.Typed.start declared.built.wellFormed declared.code mem types started
  · intro e failed
    rcases activate_error failed with ⟨-, rfl⟩ | ⟨missing, -⟩ | ⟨g, there', missing, -⟩
    · exact not_false
    · rw [there] at missing
      cases missing
    · obtain rfl := Option.some.inj (there.symm.trans there')
      have none : f.blocks = [] :=
        List.length_eq_zero_iff.1 (Nat.le_zero.1 (List.getElem?_eq_none_iff.1 missing))
      exact absurd none (declared.built.wellFormed.functions f mem).blocks

/-- The abort primitive looks at the types of its arguments, and raises a status or refuses them. -/
theorem callee_primitive {callee : ExternId} (bound : c.bindings[callee]? = some .abort)
    (args : List Val) :
    match abortFault? (args.map Val.ty) with
    | none => ∃ handle code, args = [.ptr handle, .i32 code] ∧
      c.callee callee args = .ok (.abort handle code)
    | some fault => c.callee callee args = .error (.exec fault) := by
  unfold Call.callee
  rw [bound]
  obtain _ | ⟨handle, _ | ⟨code, _ | ⟨more, rest⟩⟩⟩ := args
  · rfl
  · cases handle <;> rfl
  · cases handle <;> cases code <;> first | rfl | exact ⟨_, _, rfl, rfl⟩
  · cases handle <;> cases code <;> rfl

/-- An extern that is called with arguments for its parameters is there to be called. Only the abort
primitive may refuse them. -/
theorem callee_typed (prepared : c.Prepared) {callee : ExternId} {e : ExternDecl}
    {args : List Val} (there : c.request.module.externs[callee]? = some e)
    (types : args.map Val.ty = e.signature.params) :
    match c.callee callee args with
    | .ok (.abort _ _) => True
    | .ok (.host function) => c.CallsHost callee function args
    | .error misstep => c.request.module.Refuses misstep := by
  obtain ⟨entry, prepared⟩ := prepared
  obtain ⟨-, -, bindings⟩ := CallRequest.prepare_ok prepared
  obtain ⟨b, bound, bind⟩ := forall₂_getElem? bindings.flip there
  cases b with
  | abort =>
    have primitive := callee_primitive bound args
    cases wrong : abortFault? (args.map Val.ty) with
    | none =>
      rw [wrong] at primitive
      obtain ⟨handle, code, -, raises⟩ := primitive
      rw [raises]
      trivial
    | some fault =>
      rw [wrong] at primitive
      rw [primitive]
      exact ⟨e, List.mem_iff_getElem?.2 ⟨_, there⟩, Registry.bind_abort bind, fault,
        types ▸ wrong, rfl⟩
  | host slot =>
    obtain ⟨-, -, entry, registered, arity⟩ := Registry.bind_host bind
    unfold Call.callee
    simp only [bound, registered]
    refine ⟨e, slot, entry, there, bind, registered, rfl, ?_, types⟩
    rw [arity, ← types, List.length_map]

/-- Everything stays typed when the effect of an instruction is carried out. -/
theorem obey_typed (declared : c.request.Declared p) (prepared : c.Prepared)
    (ha : a.Typed c.request.module)
    (hc : Expects c.request.module a.function.signature.ret c.waiting) {i : Inst}
    {rest : List Inst} (eq : a.rest = i :: rest) {e : Effect}
    (effect : EffectTyped c.request.module a i (.ok e)) :
    TurnTyped c.request.module c.request.module.Refuses (c.obey { a with rest := rest } e) := by
  cases e with
  | define dst x =>
    have next := ha.next eq effect.1
    refine ⟨next.assign fun y same => ?_, hc⟩
    cases same
    exact effect.2
  | write s => exact ⟨ha.next eq effect, hc⟩
  | goto target =>
    simp only [obey]
    split
    · rename_i b entered
      obtain ⟨next, same⟩ := ha.enter declared.code entered
      exact ⟨next, same ▸ hc⟩
    · rename_i misstep failed
      have missing := List.getElem?_eq_none_iff.1 (Activation.enter_error failed).1
      exact absurd effect (Nat.not_lt.2 missing)
  | leave x =>
    refine ⟨⟨_, hc, fun y same => ?_⟩, fun misstep none => by cases none⟩
    cases same
    exact effect
  | call dst callee xs =>
    obtain ⟨goesOn, g, there, types, takes⟩ := effect
    obtain ⟨starts, fails⟩ := activate_typed declared there types
    simp only [obey]
    split
    · rename_i b activated
      obtain ⟨started, same⟩ := starts b activated
      exact ⟨started, ha.next eq goesOn, same ▸ takes, hc⟩
    · rename_i misstep failed
      refine ⟨⟨_, hc, fun x none => by cases none⟩, ?_⟩
      intro misstep' same fault
      cases same
      exact absurd fault (fails misstep failed)
  | callExtern dst callee xs =>
    obtain ⟨goesOn, e, there, types, takes⟩ := effect
    have called := callee_typed prepared there types
    simp only [obey]
    split
    · rename_i misstep failed
      rw [failed] at called
      refine ⟨⟨_, hc, fun x none => by cases none⟩, ?_⟩
      intro misstep' same _
      cases same
      exact called
    · exact ⟨_, hc⟩
    · rename_i function found
      rw [found] at called
      exact ⟨ha.next eq goesOn, hc, ⟨e, there, takes⟩, called⟩

/-- Everything stays typed when generated code has its turn, and the only fault of typing is that
the abort primitive refuses its arguments. -/
theorem turn_declared (declared : c.request.Declared p) (prepared : c.Prepared)
    (ha : a.Typed c.request.module)
    (hc : Expects c.request.module a.function.signature.ret c.waiting) :
    TurnTyped c.request.module c.request.module.Refuses (c.turn a) := by
  unfold turn
  obtain ⟨j, last, -⟩ := ha.code.last
  split
  · rename_i empty
    rw [empty] at last
    cases last
  · rename_i i rest eq
    have typed : i.Typed c.request.module a.function :=
      ha.code.insts i (eq ▸ List.mem_cons_self)
    have effect := Inst.effect_typed ha.values typed c.storage
    split
    · rename_i e done
      rw [done] at effect
      exact obey_typed declared prepared ha hc eq effect
    · rename_i e failed
      rw [failed] at effect
      refine ⟨⟨_, hc, fun x none => by cases none⟩, ?_⟩
      intro e' same fault
      cases same
      exact absurd fault effect

/-- The same, and no fault of typing at all. -/
theorem turn_typed (sound : c.request.Sound p) (prepared : c.Prepared)
    (ha : a.Typed c.request.module)
    (hc : Expects c.request.module a.function.signature.ret c.waiting) :
    TurnTyped c.request.module (fun _ => False) (c.turn a) :=
  (turn_declared sound.declared prepared ha hc).mono fun _ => sound.not_refuses

end Call

/-! ## Runs -/

/-- A call whose activations are typed, if its request is one of those that are looked at. -/
def typingOf (Looked : CallRequest φ → Prop) : CallInvariant φ σ where
  code c a := Looked c.request →
    c.Prepared ∧ a.Typed c.request.module ∧
      Expects c.request.module a.function.signature.ret c.waiting
  leave c answer := Looked c.request →
    c.Prepared ∧ ∃ ret, Expects c.request.module ret c.waiting ∧
      ∀ x, answer = .ok x → x.map Val.ty = ret
  unwind c := Looked c.request → ∃ ret, Expects c.request.module ret c.waiting
  awaits c a callee dst := Looked c.request →
    c.Prepared ∧ a.Typed c.request.module ∧
      Expects c.request.module a.function.signature.ret c.waiting ∧ c.Awaits a callee dst
  accepts c callee answer := Looked c.request →
    ∀ e v ty, c.request.module.externs[callee]? = some e → answer = .ok v →
      e.signature.ret = some ty → ∃ x, v = some x ∧ x.ty = ty

/-- A call whose activations are typed. -/
def typing (p : Platform φ σ) : CallInvariant φ σ := typingOf fun r => r.Sound p

variable {p : Platform φ σ}

/-- The entry function is called with the arguments for its parameters. -/
theorem typing_start {request : CallRequest φ} (requested : request.Declared p) {entry : FuncId}
    {bindings : List Binding} (cp : Checkpoint) (origin : Origin φ σ)
    (prepared : request.prepare = .ok (entry, bindings)) :
    let c := Machine.newCall p request bindings cp origin
    (∀ a, c.activate entry (Machine.entryArgs c) = .ok a →
      a.Typed request.module ∧ a.function.signature.ret = some .i32) ∧
    (∀ e, c.activate entry (Machine.entryArgs c) = .error e → ¬ e.IsTypeFault) := by
  intro c
  obtain ⟨-, declared, -⟩ := CallRequest.prepare_ok prepared
  obtain ⟨f, there, signature⟩ := requested.built.wellFormed.entry_signature declared
  have types : (Machine.entryArgs c).map Val.ty = f.signature.params := by
    rw [signature]
    rfl
  obtain ⟨starts, fails⟩ :=
    Call.activate_typed (show c.request.Declared p from requested) there types
  refine ⟨fun a activated => ?_, fails⟩
  obtain ⟨typed, same⟩ := starts a activated
  exact ⟨typed, by rw [same, signature]; rfl⟩

theorem typingOf_stable {Looked : CallRequest φ → Prop} (only : ∀ r, Looked r → r.Declared p) :
    (typingOf Looked).Stable p where
  start := fun request entry bindings cp origin prepared => by
    refine ⟨fun a activated looked => ?_, fun e looked => ⟨⟨entry, prepared⟩, _, rfl, nofun⟩⟩
    exact ⟨⟨entry, prepared⟩, (typing_start (only _ looked) cp origin prepared).1 a activated⟩
  turn := fun c a code => by
    have request := c.turn_request a
    have bindings := c.turn_bindings a
    have prepared : Looked c.request → (c.turn a).call.Prepared := fun looked => by
      rw [Call.Prepared, request, bindings]
      exact (code looked).1
    have typed : Looked c.request →
        Call.TurnTyped c.request.module c.request.module.Refuses (c.turn a) := fun looked =>
      Call.turn_declared (only _ looked) (code looked).1 (code looked).2.1 (code looked).2.2
    cases turn : c.turn a <;> rw [turn] at request bindings prepared typed <;>
      rw [← request] at prepared typed
    case code => exact fun looked => ⟨prepared looked, typed looked⟩
    case leave => exact fun looked => ⟨prepared looked, (typed looked).1⟩
    case abort => exact fun looked => typed looked
    case host c' a' callee dst function args =>
      refine ⟨fun looked => ⟨prepared looked, (typed looked).1, (typed looked).2.1,
        (typed looked).2.2.1⟩, ?_⟩
      by_cases looked : Looked c'.request
      · obtain ⟨e, slot, entry, there, bind, registered, rfl, -, types⟩ := (typed looked).2.2.2
        have mem : e ∈ c'.request.module.externs := List.mem_iff_getElem?.2 ⟨_, there⟩
        have provides := (only _ looked).provides e mem slot entry bind registered
        refine (provides args types).mono ?_
        intro answer gives _ e' v ty there' given returns
        obtain rfl := Option.some.inj (there.symm.trans there')
        exact gives v ty given returns
      · exact Script.answers_of_forall (fun _ looked' => absurd looked' looked) _
  back := fun c v a dst waiting leave eq looked => by
    obtain ⟨prepared, ret, expects, types⟩ := leave looked
    rw [eq] at expects
    obtain ⟨typed, takes, expects⟩ := expects
    rw [← a.receive_function dst v] at expects
    refine ⟨prepared, typed.receive fun d wanted y given => ?_, expects⟩
    obtain ⟨ty, returns, has⟩ := takes d wanted
    have same : some y.ty = some ty := by
      rw [← returns, ← types v rfl, given]
      rfl
    rw [has, same]
  fail := fun c e a dst waiting leave eq looked => by
    obtain ⟨prepared, ret, expects, types⟩ := leave looked
    rw [eq] at expects
    exact ⟨prepared, _, expects.2.2, nofun⟩
  resume := fun c a callee dst v awaits accepts _ looked => by
    obtain ⟨prepared, typed, expects, e, there, takes⟩ := awaits looked
    rw [← a.receive_function dst v] at expects
    refine ⟨prepared, typed.receive fun d wanted y given => ?_, expects⟩
    obtain ⟨ty, returns, has⟩ := takes d wanted
    obtain ⟨x, answer, type⟩ := accepts looked e v ty there rfl returns
    cases answer.symm.trans given
    rw [has, type]
  resumeFail := fun c a callee dst e awaits looked =>
    ⟨(awaits looked).1, _, (awaits looked).2.2.1, nofun⟩
  unwind := fun c a callee dst awaits looked => ⟨_, (awaits looked).2.2.1⟩

theorem typing_stable : (typing p).Stable p := typingOf_stable fun _ => CallRequest.Sound.declared

/-- Everywhere on a stack of waiting activations the values are typed. -/
theorem Expects.valuesTyped {m : Module} {waiting : List (Activation × Option ValueId)} :
    ∀ {ret : Option Ty}, Expects m ret waiting → ∀ a ∈ waiting.map Prod.fst, a.ValuesTyped := by
  induction waiting with
  | nil => exact fun _ a mem => by cases mem
  | cons w waiting ih =>
    intro ret h a mem
    rcases List.mem_cons.1 mem with rfl | mem
    · exact h.1.values
    · exact ih h.2.2 a mem

/-- What nothing waits for is a status. -/
theorem Expects.status {m : Module} {ret : Option Ty} (h : Expects m ret []) {x : Option Val}
    (returns : x.map Val.ty = ret) : ∃ code, Machine.statusOf (.ok x) = .ok code := by
  obtain ⟨v, rfl, type⟩ := Option.map_eq_some_iff.1 (returns.trans h)
  cases v with
  | i32 code => exact ⟨code, rfl⟩
  | word | ptr => cases type

namespace Machine

/-- A call that starts in vain reports no fault of typing. -/
theorem enterCall_declared {m : Machine φ σ} {request : CallRequest φ} {origin : Origin φ σ}
    {c : Call φ σ} {e : BridgeError}
    (h : (m.enterCall p request origin).focus = .leave c (.error e))
    (declared : c.request.Declared p) : ¬ e.IsTypeFault := by
  obtain ⟨entry, bindings, e', prepared, rfl, failed, same⟩ := enterCall_leave h
  cases same
  exact (typing_start declared _ origin prepared).2 _ failed

theorem enterCall_typed {m : Machine φ σ} {request : CallRequest φ} {origin : Origin φ σ}
    {c : Call φ σ} {e : BridgeError}
    (h : (m.enterCall p request origin).focus = .leave c (.error e)) (sound : c.request.Sound p) :
    ¬ e.IsTypeFault :=
  enterCall_declared h sound.declared

/-- The faults that appear in a step come from a host function, or they were there before, or the
abort primitive refuses its arguments. -/
theorem step_declared {Looked : CallRequest φ → Prop} (only : ∀ r, Looked r → r.Declared p)
    {m : Machine φ σ} (holds : (typingOf Looked).Holds m) {c : Call φ σ} {e : BridgeError}
    (h : (m.step p).focus = .leave c (.error e)) (looked : Looked c.request)
    (fault : e.IsTypeFault) :
    (∃ c', m.focus = .leave c' (.error e)) ∨
      (∃ site, m.focus = .script site (.done (.error e))) ∨
      ∃ c' a, m.focus = .code c' a ∧ c'.turn a = .leave c (.error e) ∧
        c.request.module.Refuses e := by
  obtain ⟨focused, controlled⟩ := holds
  cases step_source h with
  | turn c₀ a focus leaves =>
    have request := c₀.turn_request a
    rw [leaves] at request
    rw [focus] at focused
    obtain ⟨prepared, typed, expects⟩ := focused.1 (request ▸ looked)
    have after := Call.turn_declared (only _ (request ▸ looked)) prepared typed expects
    rw [leaves] at after
    exact .inr (.inr ⟨c₀, a, focus, leaves, request ▸ after.2 e rfl fault⟩)
  | passed c₀ a dst waiting focus waits call => exact .inl ⟨c₀, focus⟩
  | answered site a callee dst rest focus control => exact .inr (.inl ⟨site, focus⟩)
  | silent site a callee dst rest focus control missing =>
    -- where there is a place for a value, the extern declares one, and the host keeps to it
    rw [control] at controlled
    rw [focus, control] at focused
    obtain ⟨-, -, -, ext, there, takes⟩ := controlled.1 looked
    obtain ⟨ty, returns, -⟩ := takes dst rfl
    obtain ⟨x, none, -⟩ := focused looked ext _ ty there rfl returns
    cases none
  | start request entry bindings origin prepared call fails =>
    subst call
    exact absurd fault ((typing_start (only _ looked) _ origin prepared).2 _ fails)

/-- The same where the abort primitive has nothing to refuse. -/
theorem step_typed {m : Machine φ σ} (holds : (typing p).Holds m) {c : Call φ σ} {e : BridgeError}
    (h : (m.step p).focus = .leave c (.error e)) (sound : c.request.Sound p)
    (fault : e.IsTypeFault) :
    (∃ c', m.focus = .leave c' (.error e)) ∨ ∃ site, m.focus = .script site (.done (.error e)) := by
  have sources := step_declared (fun _ => CallRequest.Sound.declared) holds h sound fault
  rcases sources with before | host | ⟨-, -, -, -, refuses⟩
  · exact .inl before
  · exact .inr host
  · exact absurd refuses sound.not_refuses

/-- **Verification is sound.** In all calls of verified modules, on hosts that keep to what the
modules declare, every value that is defined has its declared type. The next instruction names only
values that there are; host functions are called with as many arguments as they are registered for,
of the declared types; the entry function returns a status; and no fault of typing is reported but
by a host function. -/
theorem verified_typed {m : Machine φ σ} (reach : Reachable p m) :
    (∀ w ∈ m.work, w.1.request.Sound p → ∀ a ∈ w.2, a.ValuesTyped) ∧
    (∀ c a, m.focus = .code c a → c.request.Sound p →
      (∃ i rest, a.rest = i :: rest ∧ ∀ v ∈ i.values, v < a.values.length) ∧
      ∀ c' a' callee dst function args, c.turn a = .host c' a' callee dst function args →
        c'.CallsHost callee function args) ∧
    (∀ c x, m.focus = .leave c (.ok x) → c.waiting = [] → c.request.Sound p →
      ∃ code, statusOf (.ok x) = .ok code) ∧
    (∀ c e, (m.step p).focus = .leave c (.error e) → c.request.Sound p → e.IsTypeFault →
      (∃ c', m.focus = .leave c' (.error e)) ∨ ∃ site, m.focus = .script site (.done (.error e))) ∧
    (∀ request c e, (m.enterCall p request .outside).focus = .leave c (.error e) →
      c.request.Sound p → ¬ e.IsTypeFault) := by
  have holds := CallInvariant.holds typing_stable reach
  refine ⟨?_, ?_, ?_, fun c e => step_typed holds, fun request c e => enterCall_typed⟩
  · refine holds.work (fun c activations => c.request.Sound p → ∀ a ∈ activations, a.ValuesTyped)
      ?_ ?_ ?_ ?_
    · intro c a code sound
      obtain ⟨-, typed, expects⟩ := code sound
      exact List.forall_mem_cons.2 ⟨typed.values, expects.valuesTyped⟩
    · intro c answer leave sound
      obtain ⟨-, ret, expects, -⟩ := leave sound
      exact expects.valuesTyped
    · intro c unwind sound
      obtain ⟨ret, expects⟩ := unwind sound
      exact expects.valuesTyped
    · intro c a callee dst awaits sound
      obtain ⟨-, typed, expects, -⟩ := awaits sound
      exact List.forall_mem_cons.2 ⟨typed.values, expects.valuesTyped⟩
  · intro c a focus sound
    have code := holds.focus
    rw [focus] at code
    obtain ⟨prepared, typed, expects⟩ := code.1 sound
    have turn := Call.turn_typed sound prepared typed expects
    refine ⟨typed.values_lt, ?_⟩
    intro c' a' callee dst function args eq
    rw [eq] at turn
    exact turn.2.2.2
  · intro c x focus last sound
    have leave := holds.focus
    rw [focus] at leave
    obtain ⟨-, ret, expects, types⟩ := leave.1 sound
    rw [last] at expects
    exact expects.status (types x rfl)

/-- Asks the host for a word and keeps it as gas. -/
def echoes : Module :=
  let edits : List Edit :=
    [.declareExtern "echo" ⟨[.word], some .word⟩ false, .declareEntry "main", .select 0,
      .emit (.constWord 5), .emit (.callExtern 0 [2]), .emit (.setGas 3),
      .emit (.returnStatus .stop)]
  (edits.foldl Manuscript.after (.new "echoes")).module

/-- A host all of whose functions answer with their first argument. -/
def echo : Platform Unit Unit := .within .usual fun _ args => .done (.ok args.head?)

theorem echoes_sound {r : CallRequest Unit} (h : r.module = echoes) : r.Sound echo := by
  refine ⟨?_, ?_, ?_, ?_⟩
  · rw [h]
    exact ⟨_, Manuscript.Written.all _ (fun _ _ _ => trivial) (.new _), rfl⟩
  · rw [h]
    decide +kernel
  · rw [h]
    decide +kernel
  · rw [h]
    intro e mem slot entry _ _ args types v ty given returns
    obtain rfl : e = ⟨"echo", ⟨[.word], some .word⟩, false⟩ := by
      have only : echoes.externs = [⟨"echo", ⟨[.word], some .word⟩, false⟩] := by decide +kernel
      rw [only] at mem
      exact List.mem_singleton.1 mem
    obtain ⟨x, _, rfl, type, -⟩ := List.map_eq_cons_iff.1 types
    cases given
    cases returns
    exact ⟨x, rfl, type⟩

/-- While the host function runs, all values of the entry function are typed. -/
theorem verified_typed_echoes :
    let r : CallRequest Unit := ⟨echoes, 100, default, Registry.empty.register "echo" 1 (), default⟩
    let m := (startCall echo r [] ()).run echo 2
    Reachable echo m ∧ ∃ c a, m.work = [(c, [a])] ∧ c.request.Sound echo ∧ a.ValuesTyped ∧
      a.values[2]? = some (some (.word 5)) := by
  intro r m
  have reach : Reachable echo m := (Reachable.startCall ..).run 2
  have shape : m.work.map (fun w => (w.1.request.module, w.2.map fun a => a.values[2]?)) =
      [(echoes, [some (some (.word 5))])] := by
    decide +kernel
  obtain ⟨⟨c, activations⟩, work, eq⟩ := List.map_eq_singleton_iff.1 shape
  obtain ⟨module, values⟩ := Prod.mk.inj eq
  obtain ⟨a, rfl, value⟩ := List.map_eq_singleton_iff.1 values
  have sound : c.request.Sound echo := echoes_sound module
  have mem : (c, [a]) ∈ m.work := by
    rw [work]
    exact List.mem_singleton_self _
  have typed := (verified_typed reach).1 (c, [a]) mem sound
  exact ⟨reach, c, a, work, sound, typed a (List.mem_singleton_self _), value⟩

end Machine

end HostBridge
