import HostBridge.Proofs.Consistency
import HostBridge.Proofs.HostResults

/-!
# The abort primitive and its declaration

The abort primitive is known by its name alone. It takes the handle of a checkpoint and a status, but
a module may declare an extern of that name with any signature; verification holds calls to the
declaration, and the registry connects the extern without looking at it, whereas it compares the
arity of every other extern with that of the host function. So the first to see a wrong declaration is
the primitive itself, when it is called.

* `Call.primitive_turn` — what a call of the primitive comes to, by its declaration;
* `Module.Built.not_refuses` — a module that has asked for the primitive declares it well;
* `Machine.primitive_refuses` — in all runs, the primitive refuses its arguments exactly if it is
  declared wrongly;
* `Machine.primitive_refuses_hasty` — a module that declares it without arguments is accepted by
  verification and registry, and its call ends with a fault of the primitive's arguments.
-/

set_option autoImplicit false

namespace HostBridge

variable {φ σ : Type} {p : Platform φ σ}

theorem abortFault?_eq_none {params : List Ty} :
    abortFault? params = none ↔ params = [.ptr, .i32] := by
  constructor
  · intro fine
    unfold abortFault? at fine
    split at fine
    · rfl
    all_goals cases fine
  · rintro rfl
    rfl

/-! ## Modules that ask for the primitive -/

/-- The only extern with the name of the primitive is the one that a module gets when it asks for the
primitive. -/
theorem Module.Built.not_refuses {m : Module} (built : m.Built) (asked : m.abort ≠ none)
    {e : BridgeError} : ¬ m.Refuses e := by
  rintro ⟨ext, mem, name, fault, wrong, -⟩
  obtain ⟨id, eq⟩ := Option.ne_none_iff_exists'.1 asked
  have there := built.wellFormed.abort id eq
  have same : ext = ⟨abortSymbol, abortSignature, true⟩ :=
    List.inj_on_of_nodup_map built.orderly.externNames mem (List.mem_of_getElem? there) name
  rw [same] at wrong
  cases wrong

/-! ## Turns -/

namespace Call

variable {c : Call φ σ} {a : Activation}

/-- A call of the primitive raises a status if it is declared as it should be, and otherwise the
arguments are refused. -/
theorem primitive_turn (prepared : c.Prepared) (ha : a.Typed c.request.module)
    {dst : Option ValueId} {callee : ExternId} {args : List ValueId} {rest : List Inst}
    (eq : a.rest = .callExtern dst callee args :: rest) {ext : ExternDecl}
    (there : c.request.module.externs[callee]? = some ext) (name : ext.name = abortSymbol)
    {xs : List Val} (operands : a.readAll args = .ok xs) :
    match abortFault? ext.signature.params with
    | none => ∃ handle code, xs = [.ptr handle, .i32 code] ∧ c.turn a = .abort c handle code
    | some fault => c.turn a = .leave c (.error (.exec fault)) := by
  have effect : (Inst.callExtern dst callee args).effect c.storage a =
      .ok (.callExtern dst callee xs) := by
    rw [Inst.effect, operands]
    rfl
  have typed := Inst.effect_typed ha.values (ha.code.insts _ (eq ▸ List.mem_cons_self)) c.storage
  rw [effect] at typed
  obtain ⟨-, ext', there', types, -⟩ := typed
  obtain rfl := Option.some.inj (there'.symm.trans there)
  obtain ⟨entry, prepared⟩ := prepared
  obtain ⟨-, -, bindings⟩ := CallRequest.prepare_ok prepared
  obtain ⟨b, bound, bind⟩ := forall₂_getElem? bindings.flip there
  rw [Registry.bind, if_pos name] at bind
  cases bind
  have primitive := callee_primitive bound xs
  have turn : c.turn a = c.obey { a with rest := rest } (.callExtern dst callee xs) := by
    simp only [Call.turn, eq, effect]
  rw [types] at primitive
  cases wrong : abortFault? ext'.signature.params with
  | none =>
    rw [wrong] at primitive
    obtain ⟨handle, code, shape, raises⟩ := primitive
    refine ⟨handle, code, shape, ?_⟩
    rw [turn, obey, raises]
  | some fault =>
    rw [wrong] at primitive
    show c.turn a = _
    rw [turn, obey, primitive]

end Call

/-! ## Runs -/

namespace Machine

/-- **The abort primitive refuses its arguments exactly if it is declared wrongly.** In all runs, on
hosts that keep to what verified modules declare, take a call of the extern with the name of the
primitive whose operands are defined. If it is declared with a pointer and a 32-bit integer, then a
status is raised. Otherwise the whole call ends with the fault that belongs to the declared types.
Any fault of typing in such a call comes about in this way, unless a host function reports it, and
then the module has not asked for the primitive. -/
theorem primitive_refuses {m : Machine φ σ} (reach : Reachable p m) :
    (∀ c a dst callee args rest ext xs, m.focus = .code c a → c.request.Declared p →
      a.rest = .callExtern dst callee args :: rest →
      c.request.module.externs[callee]? = some ext → ext.name = abortSymbol →
      a.readAll args = .ok xs →
      (ext.signature.params = [.ptr, .i32] → ∃ handle code, xs = [.ptr handle, .i32 code] ∧
        m.step p = m.goto (.unwind c (.raise m.live handle code))) ∧
      (∀ fault, abortFault? ext.signature.params = some fault →
        m.step p = m.goto (.leave c (.error (.exec fault))) ∧
        m.run p (c.waiting.length + 2) =
          m.popCheckpoint.deliver c.origin (.error (.exec fault)))) ∧
    (∀ c e, (m.step p).focus = .leave c (.error e) → c.request.Declared p → e.IsTypeFault →
      (∃ c', m.focus = .leave c' (.error e)) ∨ (∃ site, m.focus = .script site (.done (.error e))) ∨
      c.request.module.abort = none ∧ ∃ ext ∈ c.request.module.externs, ext.name = abortSymbol ∧
        ∃ fault, abortFault? ext.signature.params = some fault ∧ e = .exec fault) ∧
    (∀ request c e, (m.enterCall p request .outside).focus = .leave c (.error e) →
      c.request.Declared p → ¬ e.IsTypeFault) := by
  have holds : (typingOf fun r => r.Declared p).Holds m :=
    CallInvariant.holds (typingOf_stable fun _ declared => declared) reach
  refine ⟨?_, ?_, fun request c e => enterCall_declared⟩
  · intro c a dst callee args rest ext xs focus declared eq there name operands
    have code := holds.focus
    rw [focus] at code
    obtain ⟨prepared, typed, -⟩ := code.1 declared
    have turn := Call.primitive_turn prepared typed eq there name operands
    have step : m.step p = m.take p (c.turn a) := by
      simp only [Machine.step, focus, stepCode]
    constructor
    · intro fine
      rw [abortFault?_eq_none.2 fine] at turn
      obtain ⟨handle, code, shape, raises⟩ := turn
      refine ⟨handle, code, shape, ?_⟩
      rw [step, raises, take]
    · intro fault wrong
      rw [wrong] at turn
      have leaves : m.step p = m.goto (.leave c (.error (.exec fault))) := by
        rw [step, show c.turn a = _ from turn, take]
      refine ⟨leaves, ?_⟩
      rw [run_succ, leaves, run_error rfl]
      rfl
  · intro c e leaves declared fault
    have sources := step_declared (fun _ declared => declared) holds leaves declared fault
    rcases sources with before | host | ⟨-, -, -, -, refuses⟩
    · exact .inl before
    · exact .inr (.inl host)
    · refine .inr (.inr ⟨?_, refuses⟩)
      by_contra asked
      exact declared.built.not_refuses asked refuses

/-- Declares the abort primitive with a signature, and calls it with values of the entry function: `0`
and `1` are pointers, `2` is a status. -/
def declaring (signature : Signature) (args : List ValueId) : Module :=
  let edits : List Edit :=
    [.declareExtern abortSymbol signature true, .declareEntry "main", .select 0,
      .emit (.constI32 2), .emit (.callExtern 0 args), .emit .unreachable]
  (edits.foldl Manuscript.after (.new "hasty")).module

/-- The call of such a module from outside, with no host functions at all. -/
def declaringRequest (signature : Signature) (args : List ValueId) : CallRequest Unit :=
  ⟨declaring signature args, 100, default, .empty, default⟩

theorem declaringRequest_declared {signature : Signature} {args : List ValueId}
    (verified : (declaring signature args).verify = .ok ()) (answer : Answer) :
    (declaringRequest signature args).Declared (stubborn answer) where
  built := ⟨_, Manuscript.Written.all _ (fun _ _ _ => trivial) (.new _), rfl⟩
  verified := verified
  provides := fun e _ slot entry _ there => by cases there

/-- The signature has handle and status the wrong way round, and so are the arguments. The status
stands where the handle should be, and the call ends with a fault of its type. -/
theorem primitive_refuses_turned :
    let r := declaringRequest ⟨[.i32, .ptr], none⟩ [2, 0]
    let p := stubborn (.ok none)
    let m := (startCall p r [] ()).run p 1
    r.Declared p ∧ Reachable p m ∧ ∃ c a, m.focus = .code c a ∧ c.request = r ∧
      a.readAll [2, 0] = .ok [.i32 2, .ptr 0] ∧
      m.step p = m.goto (.leave c (.error (.exec (.wrongType .ptr .i32)))) ∧
      m.run p 2 = m.popCheckpoint.goto
        (.halted (.call (.error (.exec (.wrongType .ptr .i32))))) := by
  intro r p m
  have declared : r.Declared p := declaringRequest_declared (by decide +kernel) _
  have reach : Reachable p m := (Reachable.startCall ..).run 1
  obtain ⟨c, a, focus, request, instruction, operands, outermost, origin⟩ :
      ∃ c a, m.focus = .code c a ∧ c.request = r ∧
        a.rest = [.callExtern none 0 [2, 0], .unreachable] ∧
        a.readAll [2, 0] = .ok [.i32 2, .ptr 0] ∧ c.waiting = [] ∧ c.origin = .outside :=
    ⟨_, _, rfl, rfl, rfl, rfl, rfl, rfl⟩
  have there : c.request.module.externs[0]? =
      some ⟨abortSymbol, ⟨[.i32, .ptr], none⟩, true⟩ := by
    rw [request]
    decide +kernel
  obtain ⟨step, result⟩ := ((primitive_refuses reach).1 c a none 0 [2, 0] [.unreachable] _ _ focus
    (request ▸ declared) instruction there rfl operands).2 (.wrongType .ptr .i32) rfl
  refine ⟨declared, reach, c, a, focus, request, operands, step, ?_⟩
  rwa [outermost, origin] at result

/-- The signature has no parameters. Verification and registry accept the module, and the call ends
with a fault of the primitive's arguments. -/
theorem primitive_refuses_hasty :
    let r := declaringRequest ⟨[], none⟩ []
    let p := stubborn (.ok none)
    r.Declared p ∧ r.hosts.bindExterns r.module = .ok [.abort] ∧
      ((startCall p r [] ()).run p 3).focus =
        .halted (.call (.error (.exec .abortArguments))) := by
  intro r p
  have declared : r.Declared p := declaringRequest_declared (by decide +kernel) _
  refine ⟨declared, by decide +kernel, ?_⟩
  exact result?_eq_some.1 (by decide +kernel)

end Machine

end HostBridge
