import HostBridge.Proofs.Blame
import HostBridge.Proofs.HostResults
import HostBridge.Proofs.Paths

/-!
# Dominating definitions are enough

Generated code that uses a value before it has been defined is stopped with an error, and
verification does not look for it. It need not happen, though: if a function defines before it uses
on all its paths, then in every activation of it, at every moment, the values that have been defined
on the path so far have their places filled, whatever was computed, however often a loop was gone
through, and whichever functions were called in between. Places are filled and never emptied: a
function that is called for a value returns one, and a host function that does not give one ends the
call with another error.

* `Inst.effect_defined` — the only values that an instruction misses are its operands;
* `Call.turn_ready` — a turn of a call whose activations have what their paths have defined;
* `Machine.defined_before_use` — in all runs, no call of such a module reports that a value was used
  before its definition, unless a host function that it has called answers with this error.
-/

set_option autoImplicit false

namespace HostBridge

variable {φ σ : Type} {p : Platform φ σ}

/-- The error of generated code that uses a value which is not defined. -/
def BridgeError.IsUndefinedUse : BridgeError → Prop
  | .exec (.usedBeforeDefinition _ _) => True
  | _ => False

/-- A verified module whose functions define before they use. -/
structure Module.Dominated (m : Module) : Prop where
  built : m.Built
  verified : m.verify = .ok ()
  defines : ∀ f ∈ m.functions, f.DefinesBeforeUse

theorem Module.Dominated.typed {m : Module} (h : m.Dominated) {f : Func} (mem : f ∈ m.functions)
    {i : Inst} (there : i ∈ f.insts) : i.Typed m f := by
  obtain ⟨code, block, mem'⟩ := List.mem_flatten.1 there
  have passes := (Module.verify_ok.1 h.verified).2 f mem
  exact ((Module.checkFunction_ok.1 passes).2 code block).1.insts i mem'

/-! ## Effects -/

/-- A value of an activation is defined. -/
def Activation.Has (a : Activation) (v : ValueId) : Prop := ∃ x, a.values[v]? = some (some x)

/-- What may come of an instruction, as far as definitions are concerned. -/
def EffectDefined (a : Activation) (i : Inst) : Except BridgeError Effect → Prop
  | .error e => e.IsUndefinedUse → ∃ v ∈ i.operands, ¬ a.Has v
  | .ok (.define dst _) => i.dst? = some dst
  | .ok (.write _) => i.dst? = none ∧ i.isTerminator = false
  | .ok (.goto target) => target ∈ i.targets
  | .ok (.leave x) => ∃ v, i = .ret v ∧ (v.isSome → x.isSome)
  | .ok (.call dst callee xs) => ∃ args, i = .call dst callee args ∧ xs.length = args.length
  | .ok (.callExtern dst callee _) => ∃ args, i = .callExtern dst callee args

section Effect

variable {a : Activation} {i : Inst}

theorem EffectDefined.read {v : ValueId} {f : Val → Except BridgeError Effect}
    (operand : v ∈ i.operands) (h : ∀ x, EffectDefined a i (f x)) :
    EffectDefined a i (a.read v >>= f) := by
  cases read : a.read v with
  | error e =>
    rintro -
    refine ⟨v, operand, ?_⟩
    rintro ⟨x, there⟩
    rw [Activation.read_ok.2 there] at read
    cases read
  | ok x => exact h x

theorem EffectDefined.readPtr {v : ValueId} {f : Addr → Except BridgeError Effect}
    (operand : v ∈ i.operands) (h : ∀ addr, EffectDefined a i (f addr)) :
    EffectDefined a i (a.read v >>= fun x => x.asPtr >>= f) := by
  refine .read operand ?_
  intro x
  cases x with
  | ptr addr => exact h addr
  | word | i32 => exact False.elim

theorem EffectDefined.readWord {v : ValueId} {f : Word → Except BridgeError Effect}
    (operand : v ∈ i.operands) (h : ∀ w, EffectDefined a i (f w)) :
    EffectDefined a i (a.read v >>= fun x => x.asWord >>= f) := by
  refine .read operand ?_
  intro x
  cases x with
  | word w => exact h w
  | ptr | i32 => exact False.elim

/-- Of arguments that are read there are as many as operands. -/
theorem EffectDefined.readAll {vs : List ValueId} {f : List Val → Except BridgeError Effect}
    (operands : i.operands = vs) (h : ∀ xs, xs.length = vs.length → EffectDefined a i (f xs)) :
    EffectDefined a i (a.readAll vs >>= f) := by
  cases read : a.readAll vs with
  | error e =>
    rintro -
    obtain ⟨v, mem, fails⟩ := mapM_eq_error read
    refine ⟨v, operands ▸ mem, ?_⟩
    rintro ⟨x, there⟩
    rw [Activation.read_ok.2 there] at fails
    cases fails
  | ok xs => exact h xs (Activation.readAll_ok.1 read).length_eq.symm

/-- The only values that an instruction misses are its operands, and the only one that it defines is
its own. -/
theorem Inst.effect_defined (s : Storage) (a : Activation) (i : Inst) :
    EffectDefined a i (i.effect s a) := by
  cases i with
  | const dst value | constI32 dst value => exact rfl
  | ptrOffset dst base offset =>
    refine .readPtr List.mem_cons_self ?_
    intro addr
    split
    · exact rfl
    · exact False.elim
  | load dst ty addr =>
    refine .readPtr List.mem_cons_self ?_
    intro addr
    cases loaded : s.load ty addr with
    | error e =>
      obtain rfl := Storage.load_eq_error loaded
      exact False.elim
    | ok x => exact rfl
  | store addr value =>
    refine .readPtr List.mem_cons_self fun addr =>
      .read (List.mem_cons_of_mem _ List.mem_cons_self) ?_
    intro x
    cases stored : s.store addr x with
    | error e =>
      obtain rfl := Storage.store_eq_error stored
      exact False.elim
    | ok s' => exact ⟨rfl, rfl⟩
  | loadByte dst base index =>
    refine .readPtr List.mem_cons_self fun base =>
      .readWord (List.mem_cons_of_mem _ List.mem_cons_self) ?_
    intro index
    cases loaded : s.loadByte base index with
    | error e =>
      obtain ⟨addr, rfl⟩ := Storage.loadByte_eq_error loaded
      exact False.elim
    | ok w => exact rfl
  | binary dst op lhs rhs =>
    exact .readWord List.mem_cons_self fun _ =>
      .readWord (List.mem_cons_of_mem _ List.mem_cons_self) fun _ => rfl
  | call dst callee args => exact .readAll rfl fun xs length => ⟨args, rfl, length⟩
  | callExtern dst callee args => exact .readAll rfl fun xs _ => ⟨args, rfl⟩
  | jump target => exact List.mem_cons_self
  | branch cond thenBlock elseBlock =>
    refine .readWord List.mem_cons_self ?_
    intro w
    show (if w = 0 then elseBlock else thenBlock) ∈ [thenBlock, elseBlock]
    split <;> simp
  | ret value =>
    cases value with
    | none => exact ⟨none, rfl, id⟩
    | some v => exact .read List.mem_cons_self fun x => ⟨some v, rfl, fun _ => rfl⟩
  | unreachable => exact False.elim

end Effect

/-! ## Activations -/

namespace Activation

/-- An activation that has its parameters and all that has been defined on some path to the place
where it is, but for the value that is due from a call. -/
structure Ready (m : Module) (a : Activation) (due : Option ValueId) : Prop extends a.Stands m where
  params : ∀ v < a.function.signature.params.length, a.Has v
  place : ∀ v, due = some v → v < a.values.length
  passed : ∃ passed, a.function.Path passed a.rest ∧
    ∀ v, Func.Defined passed v → a.Has v ∨ due = some v

variable {m : Module} {a : Activation} {i : Inst} {rest : List Inst}

/-- Giving a value to another place takes none away. -/
theorem Has.receive {v : ValueId} (h : a.Has v) {dst : Option ValueId} {x : Option Val}
    (given : dst.isSome → x.isSome) : (a.receive dst x).Has v := by
  obtain ⟨y, there⟩ := h
  cases dst with
  | none => exact ⟨y, there⟩
  | some d =>
    obtain ⟨z, rfl⟩ := Option.isSome_iff_exists.1 (given rfl)
    by_cases same : d = v
    · refine ⟨z, ?_⟩
      rw [Activation.receive, assign, same, List.getElem?_set_self', there]
      rfl
    · refine ⟨y, ?_⟩
      rw [Activation.receive, assign, List.getElem?_set_ne same, there]

namespace Ready

/-- If nothing is due, then all that has been defined is there. -/
theorem defined (h : a.Ready m none) :
    ∃ passed, a.function.Path passed a.rest ∧ ∀ v, Func.Defined passed v → a.Has v := by
  obtain ⟨passed, path, defined⟩ := h.passed
  refine ⟨passed, path, ?_⟩
  intro v before
  rcases defined v before with there | none
  · exact there
  · cases none

/-- The operands of the next instruction are there. -/
theorem operands (h : a.Ready m none) (dominated : m.Dominated) (here : a.rest = i :: rest) :
    ∀ v ∈ i.operands, a.Has v := by
  intro v operand
  rcases Nat.lt_or_ge v a.function.signature.params.length with parameter | other
  · exact h.params v parameter
  · obtain ⟨passed, path, defined⟩ := h.defined
    rw [here] at path
    exact defined v (dominated.defines a.function h.function passed i rest path v operand other)

/-- After an instruction that does not end its block its own value is due. -/
theorem next (h : a.Ready m none) (dominated : m.Dominated) (here : a.rest = i :: rest)
    (goesOn : i.isTerminator = false) : { a with rest := rest }.Ready m i.dst? := by
  obtain ⟨passed, path, defined⟩ := h.defined
  rw [here] at path
  refine ⟨h.toStands.next here rfl, h.params, ?_, i :: passed, path.next goesOn, ?_⟩
  · intro v defines
    have typed := dominated.typed h.function (h.mem_insts here)
    rw [h.places]
    exact typed.values_lt v (Inst.dst?_mem_values defines)
  · rintro v ⟨j, mem, defines⟩
    rcases List.mem_cons.1 mem with rfl | before
    · exact .inr defines
    · exact .inl (defined v ⟨j, before, defines⟩)

/-- The value that is due comes. -/
theorem receive {due : Option ValueId} (h : a.Ready m due) {x : Option Val}
    (given : due.isSome → x.isSome) : (a.receive due x).Ready m none := by
  have same := a.receive_function due x
  refine ⟨h.toStands.receive due x, ?_, nofun, ?_⟩
  · rw [same]
    exact fun v parameter => (h.params v parameter).receive given
  · obtain ⟨passed, path, defined⟩ := h.passed
    refine ⟨passed, ?_, fun v before => .inl ?_⟩
    · rw [same]
      cases due <;> exact path
    · rcases defined v before with there | rfl
      · exact there.receive given
      · obtain ⟨y, rfl⟩ := Option.isSome_iff_exists.1 (given rfl)
        exact ⟨y, List.getElem?_set_self (h.place v rfl)⟩

theorem goto (h : a.Ready m none) (here : a.rest = i :: rest) {target : BlockId}
    (aims : target ∈ i.targets) {code : List Inst}
    (there : a.function.blocks[target]? = some code) :
    { a with block := target, rest := code }.Ready m none := by
  obtain ⟨passed, path, defined⟩ := h.defined
  rw [here] at path
  refine ⟨h.toStands.goto there, h.params, nofun, i :: passed, path.goto aims there, ?_⟩
  rintro v ⟨j, mem, defines⟩
  rcases List.mem_cons.1 mem with rfl | before
  · -- jumps and branches define nothing
    cases j <;> cases defines <;> cases aims
  · exact .inl (defined v ⟨j, before, defines⟩)

/-- A function starts with arguments for all its parameters. -/
theorem start (built : m.Built) {f : Func} (mem : f ∈ m.functions) {args : List Val}
    (length : args.length = f.signature.params.length) (started : Activation.start f args = .ok a) :
    a.Ready m none ∧ a.function = f := by
  have stands := Stands.start mem started
  obtain ⟨rfl, values, first⟩ := start_ok started
  refine ⟨⟨stands, ?_, nofun, [], .start first, ?_⟩, rfl⟩
  · intro v parameter
    have fits := (built.wellFormed.functions _ mem).params_le
    obtain ⟨x, arg⟩ : ∃ x, args[v]? = some x :=
      ⟨_, List.getElem?_eq_getElem (length ▸ parameter)⟩
    refine ⟨x, ?_⟩
    rw [values, initial_eq]
    exact ⟨arg, Nat.lt_of_lt_of_le parameter fits⟩
  · rintro v ⟨j, mem, -⟩
    cases mem

end Ready

end Activation

/-! ## Calls -/

/-- What waits for a function to return lacks nothing but what the function returns, and so on
outwards. -/
def Pending (m : Module) : Option Ty → List (Activation × Option ValueId) → Prop
  | _, [] => True
  | ret, (a, dst) :: waiting =>
    a.Ready m dst ∧ (dst.isSome → ret.isSome) ∧ Pending m a.function.signature.ret waiting

namespace Call

variable {c : Call φ σ} {a : Activation}

/-- What the turn of a call comes to whose activations are ready. -/
def TurnReady (m : Module) : Turn φ σ → Prop
  | .code c a => a.Ready m none ∧ Pending m a.function.signature.ret c.waiting
  | .leave c answer =>
    (∃ ret, Pending m ret c.waiting ∧ ∀ x, answer = .ok x → ret.isSome → x.isSome) ∧
      ∀ e, answer = .error e → ¬ e.IsUndefinedUse
  | .abort _ _ _ => True
  | .host c a _ dst _ _ => a.Ready m dst ∧ Pending m a.function.signature.ret c.waiting

/-- Whatever is wrong with a function that does not start, it is not its values. -/
theorem activate_defined {callee : FuncId} {args : List Val} {e : BridgeError}
    (failed : c.activate callee args = .error e) : ¬ e.IsUndefinedUse := by
  rcases activate_error failed with ⟨-, rfl⟩ | ⟨-, rfl⟩ | ⟨f, -, -, rfl⟩ <;> exact not_false

theorem activate_ready (built : c.request.module.Built) {callee : FuncId} {f : Func}
    {args : List Val} (there : c.request.module.functions[callee]? = some f)
    (length : args.length = f.signature.params.length) {b : Activation}
    (activated : c.activate callee args = .ok b) :
    b.Ready c.request.module none ∧ b.function = f := by
  obtain ⟨g, there', started⟩ := activate_ok activated
  obtain rfl := Option.some.inj (there.symm.trans there')
  exact Activation.Ready.start built (List.mem_of_getElem? there) length started

/-- So it is with externs. -/
theorem callee_defined {id : ExternId} {args : List Val} {e : BridgeError}
    (failed : c.callee id args = .error e) : ¬ e.IsUndefinedUse := by
  rcases callee_error failed with ⟨-, rfl⟩ | ⟨-, ⟨_, _, rfl⟩ | rfl⟩ | ⟨slot, -, -, rfl⟩ <;>
    exact not_false

/-- Everything stays ready when the effect of an instruction is carried out. -/
theorem obey_ready (dominated : c.request.module.Dominated) (ready : a.Ready c.request.module none)
    (pending : Pending c.request.module a.function.signature.ret c.waiting) {i : Inst}
    {rest : List Inst} (here : a.rest = i :: rest) {e : Effect}
    (effect : EffectDefined a i (.ok e)) :
    TurnReady c.request.module (c.obey { a with rest := rest } e) := by
  have typed := dominated.typed ready.function (ready.mem_insts here)
  cases e with
  | define dst x =>
    have next := ready.next dominated here (Inst.goesOn_of_dst? effect)
    rw [show i.dst? = some dst from effect] at next
    exact ⟨next.receive fun _ => rfl, pending⟩
  | write s =>
    obtain ⟨none, goesOn⟩ := effect
    have next := ready.next dominated here goesOn
    rw [none] at next
    exact ⟨next, pending⟩
  | goto target =>
    simp only [obey, Activation.enter]
    cases there : a.function.blocks[target]? with
    | none =>
      refine ⟨⟨_, pending, fun x none => by cases none⟩, fun e same => ?_⟩
      cases same
      exact not_false
    | some code => exact ⟨ready.goto here effect there, pending⟩
  | leave x =>
    refine ⟨⟨_, pending, fun y same returns => ?_⟩, fun misstep none => by cases none⟩
    cases same
    obtain ⟨value, rfl, given⟩ := effect
    cases value with
    | none =>
      rw [show a.function.signature.ret = none from typed] at returns
      cases returns
    | some v => exact given rfl
  | call dst callee xs =>
    obtain ⟨args, rfl, length⟩ := effect
    obtain ⟨g, there, -, fits⟩ := typed
    simp only [obey]
    split
    · rename_i b activated
      obtain ⟨started, rfl⟩ := activate_ready dominated.built there
        (length.trans fits.args.length_eq) activated
      refine ⟨started, ready.next dominated here rfl, fun wanted => ?_, pending⟩
      obtain ⟨d, rfl⟩ := Option.isSome_iff_exists.1 wanted
      obtain ⟨ty, returns, -⟩ := fits.result d rfl
      rw [returns]
      rfl
    · rename_i misstep failed
      refine ⟨⟨_, pending, fun x none => by cases none⟩, fun e same => ?_⟩
      cases same
      exact activate_defined failed
  | callExtern dst callee xs =>
    obtain ⟨args, rfl⟩ := effect
    simp only [obey]
    split
    · rename_i misstep failed
      refine ⟨⟨_, pending, fun x none => by cases none⟩, fun e same => ?_⟩
      cases same
      exact callee_defined failed
    · trivial
    · exact ⟨ready.next dominated here rfl, pending⟩

/-- Everything stays ready when generated code has its turn, and it does not use a value that is not
defined. -/
theorem turn_ready (dominated : c.request.module.Dominated) (ready : a.Ready c.request.module none)
    (pending : Pending c.request.module a.function.signature.ret c.waiting) :
    TurnReady c.request.module (c.turn a) := by
  unfold turn
  split
  · refine ⟨⟨_, pending, fun x none => by cases none⟩, fun e same => ?_⟩
    cases same
    exact not_false
  · rename_i i rest here
    have effect := Inst.effect_defined c.storage a i
    split
    · rename_i e done
      rw [done] at effect
      exact obey_ready dominated ready pending here effect
    · rename_i e failed
      rw [failed] at effect
      refine ⟨⟨_, pending, fun x none => by cases none⟩, fun e' same undefined => ?_⟩
      cases same
      obtain ⟨v, operand, missing⟩ := effect undefined
      exact missing (ready.operands dominated here v operand)

end Call

/-! ## Runs -/

/-- A call whose activations are ready, if definitions dominate uses in its module. -/
def readiness (φ σ : Type) : CallInvariant φ σ where
  code c a := c.request.module.Dominated → a.Ready c.request.module none ∧
    Pending c.request.module a.function.signature.ret c.waiting
  leave c answer := c.request.module.Dominated →
    ∃ ret, Pending c.request.module ret c.waiting ∧ ∀ x, answer = .ok x → ret.isSome → x.isSome
  unwind _ := True
  awaits c a _ dst := c.request.module.Dominated → a.Ready c.request.module dst ∧
    Pending c.request.module a.function.signature.ret c.waiting
  accepts _ _ _ := True

/-- The entry function has its two parameters. -/
theorem readiness_start {request : CallRequest φ} (built : request.module.Built) {entry : FuncId}
    {bindings : List Binding} (cp : Checkpoint) (origin : Origin φ σ)
    (prepared : request.prepare = .ok (entry, bindings)) {a : Activation}
    (activated : (Machine.newCall p request bindings cp origin).activate entry
      (Machine.entryArgs (Machine.newCall p request bindings cp origin)) = .ok a) :
    a.Ready request.module none := by
  obtain ⟨-, declared, -⟩ := CallRequest.prepare_ok prepared
  obtain ⟨f, there, signature⟩ := built.wellFormed.entry_signature declared
  have length : ∀ c : Call φ σ, (Machine.entryArgs c).length = f.signature.params.length := by
    intro c
    rw [signature]
    rfl
  exact (Call.activate_ready built there (length _) activated).1

theorem readiness_stable : (readiness φ σ).Stable p where
  start := fun request entry bindings cp origin prepared =>
    ⟨fun a activated dominated =>
      ⟨readiness_start dominated.built cp origin prepared activated, trivial⟩,
      fun e _ => ⟨none, trivial, nofun⟩⟩
  turn := fun c a code => by
    have request := c.turn_request a
    have after : c.request.module.Dominated → Call.TurnReady c.request.module (c.turn a) :=
      fun dominated => Call.turn_ready dominated (code dominated).1 (code dominated).2
    cases turn : c.turn a <;> rw [turn] at request after <;> rw [← request] at after
    case code => exact after
    case leave => exact fun dominated => (after dominated).1
    case abort => trivial
    case host => exact ⟨after, Script.answers_of_forall (fun _ => trivial) _⟩
  back := fun c v a dst waiting leave eq dominated => by
    obtain ⟨ret, pending, returns⟩ := leave dominated
    rw [eq] at pending
    obtain ⟨ready, wanted, pending⟩ := pending
    rw [← a.receive_function dst v] at pending
    exact ⟨ready.receive fun due => returns v rfl (wanted due), pending⟩
  fail := fun c e a dst waiting leave eq dominated => by
    obtain ⟨ret, pending, -⟩ := leave dominated
    rw [eq] at pending
    exact ⟨_, pending.2.2, nofun⟩
  resume := fun c a callee dst v awaits _ given dominated => by
    obtain ⟨ready, pending⟩ := awaits dominated
    rw [← a.receive_function dst v] at pending
    exact ⟨ready.receive given, pending⟩
  resumeFail := fun c a callee dst e awaits dominated => ⟨_, (awaits dominated).2, nofun⟩
  unwind := fun _ _ _ _ _ => trivial

/-- The machine itself does not say that a value is not defined. -/
theorem BridgeError.IsUndefinedUse.inside {e : BridgeError} (h : e.IsUndefinedUse) :
    ¬ e.AroundCode := by
  unfold IsUndefinedUse at h
  split at h
  · exact not_false
  · exact h.elim

namespace Machine

/-- Generated code that has control does not say that a value is not defined. -/
theorem turn_defined {m : Machine φ σ} (holds : (readiness φ σ).Holds m) {c c' : Call φ σ}
    {a : Activation} (focus : m.focus = .code c a) (dominated : c.request.module.Dominated)
    {e : BridgeError} (undefined : e.IsUndefinedUse) : c.turn a ≠ .leave c' (.error e) := by
  intro leaves
  have code := holds.focus
  rw [focus] at code
  obtain ⟨ready, pending⟩ := code.1 dominated
  have after := Call.turn_ready dominated ready pending
  rw [leaves] at after
  exact after.2 e rfl undefined

/-- Nor does the code of a call of such a module. -/
theorem neverReports {request : CallRequest φ} (dominated : request.module.Dominated)
    {e : BridgeError} (undefined : e.IsUndefinedUse) : request.NeverReports p e where
  starts := fun _ _ _ _ _ _ failed => Call.activate_defined failed undefined
  turns := fun _ _ _ _ reach focus same =>
    turn_defined (CallInvariant.holds readiness_stable reach) focus (same ▸ dominated) undefined

/-- **Dominating definitions are enough.** Take a call of a verified module all of whose functions
define before they use, on any machine, whoever makes it, and whatever host functions are on offer.
It is not refused for a value that is not defined. None of its instructions reports one. If one of
its functions is left with such an error, then a host function that this call has called has just
answered with it; and so it has if the error is the result of a run from outside. -/
theorem defined_before_use {m : Machine φ σ} (reach : Reachable p m) {request : CallRequest φ}
    {origin : Origin φ σ} (calls : m.MakesCall request origin)
    (dominated : request.module.Dominated) {e : BridgeError} (undefined : e.IsUndefinedUse) :
    let start := m.enterCall p request origin
    let cp := m.nextCheckpoint p
    request.prepare ≠ .error e ∧
    (∀ n c c' a, (start.run p n).focus = .code c a → c.Serves request origin cp →
      c.turn a ≠ .leave c' (.error e)) ∧
    (∀ n c, (start.run p n).focus = .leave c (.error e) → c.Serves request origin cp →
      ∃ k < n, (start.run p k).HostFails request origin cp e) ∧
    (origin = .outside → ∀ n, (start.run p n).result? = some (.error e) →
      ∃ k < n, (start.run p k).HostFails request origin cp e) := by
  intro start cp
  obtain ⟨refused, turns, leaves, -, outside⟩ :=
    (neverReports dominated undefined).blames undefined.inside reach calls
  exact ⟨refused, turns, leaves, outside⟩

/-- Takes one from the gas until nothing is left, and tells the host each time. The one is defined
before the loop. -/
def countdown : Module :=
  let edits : List Edit :=
    [.declareExtern "host.tick" ⟨[], none⟩ false, .declareEntry "main", .select 0,
      .emit .createBlock, .emit .createBlock, .emit (.constWord 1), .emit (.jump 1),
      .emit (.switchTo 1), .emit (.callExtern 0 []), .emit .gas, .emit (.binary .sub 4 2),
      .emit (.setGas 5), .emit (.branch 5 1 2), .emit (.switchTo 2), .emit (.setGas 2),
      .emit (.returnStatus .stop)]
  (edits.foldl Manuscript.after (.new "countdown")).module

theorem countdown_dominated : countdown.Dominated where
  built := ⟨_, Manuscript.Written.all _ (fun _ _ _ => trivial) (.new _), rfl⟩
  verified := by decide +kernel
  defines := by
    -- what is defined in the first block is known in the loop and behind it
    have flows : ∀ f ∈ countdown.functions, f.Flows [[], [2], [2]] := by decide +kernel
    exact fun f mem => (flows f mem).definesBeforeUse

/-- A host whose functions answer with nothing twice, and with an error from then on. -/
def impatient (e : BridgeError) : Platform Unit Nat :=
  .within .usual fun _ _ => .shared fun told =>
    if told < 2 then .setShared (told + 1) (.done (.ok none)) else .done (.error e)

/-- The loop has been gone through twice when the host says that a value is not defined. This is the
result, and nobody but the host has said it. -/
theorem defined_before_use_countdown :
    let e : BridgeError := .exec (.usedBeforeDefinition 7 "elsewhere")
    let p := impatient e
    let r : CallRequest Unit :=
      ⟨countdown, 9, default, Registry.empty.register "host.tick" 0 (), default⟩
    let m : Machine Unit Nat := idle [] 0
    let start := m.enterCall p r .outside
    Reachable p m ∧ m.MakesCall r .outside ∧ r.module.Dominated ∧ e.IsUndefinedUse ∧
      (start.run p 27).result? = some (.error e) ∧
      ∃ k < 27, (start.run p k).HostFails r .outside (m.nextCheckpoint p) e := by
  intro e p r m start
  have reach : Reachable p m := .idle [] 0
  have calls : m.MakesCall r .outside := .outside (idle_rests [] 0)
  have result : (start.run p 27).result? = some (.error e) := by decide +kernel
  obtain ⟨-, -, -, outside⟩ :=
    defined_before_use reach calls countdown_dominated (e := e) trivial
  exact ⟨reach, calls, countdown_dominated, trivial, result, outside rfl 27 result⟩

end Machine

end HostBridge
