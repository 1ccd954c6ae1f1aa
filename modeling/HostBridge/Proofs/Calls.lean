import HostBridge.Proofs.Fallible
import HostBridge.Proofs.Reach

/-!
# How calls start and what code reads

What follows from the success of the operations that a call is made of: a request that is prepared
has an entry and a binding for each extern (`CallRequest.prepare_ok`), operands that are read have
been defined (`Activation.read_ok`), and a function that starts has its arguments for its first
values (`Activation.start_ok`). `Machine.step_source` goes the other way: it says where an error
comes from with which a function is left.
-/

set_option autoImplicit false

namespace HostBridge

/-! ## Operands -/

namespace Activation

variable {a : Activation} {v : ValueId}

theorem read_ok {x : Val} : a.read v = .ok x ↔ a.values[v]? = some (some x) := by
  unfold read
  split
  · rename_i y eq
    rw [eq, Except.ok.injEq, Option.some.injEq, Option.some.injEq]
  · rename_i other
    exact ⟨nofun, fun h => (other x h).elim⟩

/-- An operand can be missing, and nothing else can be wrong with it. -/
theorem read_error {e : BridgeError} (h : a.read v = .error e) :
    e = .exec (.usedBeforeDefinition v a.function.name) := by
  unfold read at h
  split at h
  · cases h
  · cases h
    rfl

theorem readAll_ok {vs : List ValueId} {xs : List Val} :
    a.readAll vs = .ok xs ↔ List.Forall₂ (fun v x => a.values[v]? = some (some x)) vs xs := by
  simp only [readAll, mapM_eq_ok, read_ok]

theorem readAll_error {vs : List ValueId} {e : BridgeError} (h : a.readAll vs = .error e) :
    ∃ v ∈ vs, e = .exec (.usedBeforeDefinition v a.function.name) := by
  obtain ⟨v, mem, fails⟩ := mapM_eq_error h
  exact ⟨v, mem, read_error fails⟩

/-! ## Blocks and functions -/

theorem enter_ok {block : BlockId} {b : Activation} (h : a.enter block = .ok b) :
    b.function = a.function ∧ b.values = a.values ∧ a.function.blocks[block]? = some b.rest := by
  unfold enter at h
  split at h
  · rename_i insts eq
    cases h
    exact ⟨rfl, rfl, eq⟩
  · cases h

theorem enter_error {block : BlockId} {e : BridgeError} (h : a.enter block = .error e) :
    a.function.blocks[block]? = none ∧ e = .exec (.missingBlock block a.function.name) := by
  unfold enter at h
  split at h
  · cases h
  · rename_i missing
    cases h
    exact ⟨missing, rfl⟩

/-- The values with which a function starts. -/
def initial (f : Func) (args : List Val) : List (Option Val) :=
  (args.map some ++ List.replicate f.values.length none).take f.values.length

theorem length_initial (f : Func) (args : List Val) :
    (initial f args).length = f.values.length := by
  rw [initial, List.length_take, List.length_append, List.length_replicate]
  omega

/-- A parameter that is a value has the argument for its value, and nothing else has a value. -/
theorem initial_eq (f : Func) (args : List Val) (v : ValueId) (x : Val) :
    (initial f args)[v]? = some (some x) ↔ args[v]? = some x ∧ v < f.values.length := by
  rw [initial, List.getElem?_take]
  by_cases bound : v < f.values.length
  · rw [if_pos bound]
    by_cases arg : v < args.length
    · rw [List.getElem?_append_left (by rw [List.length_map]; exact arg), List.getElem?_map,
        List.getElem?_eq_getElem arg]
      simp [bound]
    · rw [List.getElem?_append_right (by rw [List.length_map]; exact Nat.not_lt.1 arg),
        List.getElem?_eq_none (Nat.not_lt.1 arg)]
      simp [List.getElem?_replicate]
  · rw [if_neg bound]
    simp [bound]

theorem start_ok {f : Func} {args : List Val} (h : start f args = .ok a) :
    a.function = f ∧ a.values = initial f args ∧ f.blocks[0]? = some a.rest :=
  enter_ok h

end Activation

/-! ## Preparation -/

variable {φ σ : Type}

/-- A request is prepared in three stages. -/
theorem CallRequest.prepare_stages (r : CallRequest φ) : r.prepare = (do
    if r.config.verifyModules then
      r.module.verify.mapError fun (function, flaw) => BridgeError.verify function flaw
    let entry ← match r.module.entry with
      | none => .error (.exec (.noEntry r.module.name))
      | some entry => .ok entry
    let bindings ← r.hosts.bindExterns r.module
    return (entry, bindings)) := by
  unfold CallRequest.prepare
  cases r.config.verifyModules <;> cases r.module.verify <;> cases r.module.entry <;> rfl

theorem CallRequest.prepare_eq_ok {r : CallRequest φ} {entry : FuncId} {bindings : List Binding} :
    r.prepare = .ok (entry, bindings) ↔
      (r.config.verifyModules = true → r.module.verify = .ok ()) ∧ r.module.entry = some entry ∧
        r.hosts.bindExterns r.module = .ok bindings := by
  rw [prepare_stages]
  cases r.config.verifyModules <;> cases r.module.verify <;> cases r.module.entry <;>
    cases r.hosts.bindExterns r.module <;>
    simp [Except.mapError, bind, Except.bind, pure, Except.pure]

/-- What a request is refused for: its module does not verify, it has no entry, or its externs
cannot be bound. -/
theorem CallRequest.prepare_eq_error {r : CallRequest φ} {e : BridgeError} :
    r.prepare = .error e ↔
      (r.config.verifyModules = true ∧
        ∃ found, r.module.verify = .error found ∧ e = .verify found.1 found.2) ∨
      (r.config.verifyModules = true → r.module.verify = .ok ()) ∧
        (r.module.entry = none ∧ e = .exec (.noEntry r.module.name) ∨
          r.module.entry ≠ none ∧ r.hosts.bindExterns r.module = .error e) := by
  rw [prepare_stages]
  cases r.config.verifyModules <;> cases r.module.verify <;> cases r.module.entry <;>
    cases r.hosts.bindExterns r.module <;>
    simp [Except.mapError, bind, Except.bind, pure, Except.pure, eq_comm]

theorem CallRequest.prepare_ok {r : CallRequest φ} {entry : FuncId} {bindings : List Binding}
    (h : r.prepare = .ok (entry, bindings)) :
    (r.config.verifyModules = true → r.module.verify = .ok ()) ∧ r.module.entry = some entry ∧
      List.Forall₂ (fun e b => r.hosts.bind e = .ok b) r.module.externs bindings := by
  obtain ⟨verified, there, bound⟩ := prepare_eq_ok.1 h
  exact ⟨verified, there, mapM_eq_ok.1 bound⟩

theorem CallRequest.prepare_eq {r : CallRequest φ} {entry : FuncId} {bindings : List Binding}
    (verified : r.module.verify = .ok ()) (there : r.module.entry = some entry)
    (bound : r.hosts.bindExterns r.module = .ok bindings) : r.prepare = .ok (entry, bindings) :=
  prepare_eq_ok.2 ⟨fun _ => verified, there, bound⟩

namespace Call

variable {c : Call φ σ}

/-! ## Callees -/

theorem activate_ok {callee : FuncId} {args : List Val} {a : Activation}
    (h : c.activate callee args = .ok a) :
    ∃ f, c.request.module.functions[callee]? = some f ∧ Activation.start f args = .ok a := by
  unfold activate at h
  split at h
  · cases h
  · split at h
    · rename_i f there
      exact ⟨f, there, h⟩
    · cases h

theorem activate_error {callee : FuncId} {args : List Val} {e : BridgeError}
    (h : c.activate callee args = .error e) :
    (c.request.config.maxHelperDepth ≤ c.depth ∧
        e = .helperDepthExceeded c.request.config.maxHelperDepth) ∨
      (c.request.module.functions[callee]? = none ∧ e = .exec (.unknownFunction callee)) ∨
      ∃ f, c.request.module.functions[callee]? = some f ∧ f.blocks[0]? = none ∧
        e = .exec (.missingBlock 0 f.name) := by
  unfold activate at h
  split at h
  · rename_i full
    cases h
    exact .inl ⟨full, rfl⟩
  · split at h
    · rename_i f there
      obtain ⟨missing, eq⟩ := Activation.enter_error h
      exact .inr (.inr ⟨f, there, missing, eq⟩)
    · rename_i missing
      cases h
      exact .inr (.inl ⟨missing, rfl⟩)

/-- What an extern stands for: the primitive, applied to a handle and a status, or the function in
the slot to which it is bound. -/
theorem callee_ok {id : ExternId} {args : List Val} {x : Callee φ} (h : c.callee id args = .ok x) :
    (∃ handle code, c.bindings[id]? = some .abort ∧ args = [.ptr handle, .i32 code] ∧
        x = .abort handle code) ∨
      ∃ slot entry, c.bindings[id]? = some (.host slot) ∧
        c.request.hosts.entries[slot]? = some entry ∧ x = .host entry.function := by
  unfold callee at h
  split at h
  · cases h
  · rename_i bound
    split at h
    · rename_i y z
      cases y <;> cases z <;> cases h
      exact .inl ⟨_, _, bound, rfl, rfl⟩
    · cases h
  · rename_i slot bound
    split at h <;> cases h
    rename_i entry there
    exact .inr ⟨slot, entry, bound, there, rfl⟩

/-- Why an extern stands for nothing. -/
theorem callee_error {id : ExternId} {args : List Val} {e : BridgeError}
    (h : c.callee id args = .error e) :
    (c.bindings[id]? = none ∧ e = .exec (.externNotBound id)) ∨
      (c.bindings[id]? = some .abort ∧
        ((∃ expected found, e = .exec (.wrongType expected found)) ∨ e = .exec .abortArguments)) ∨
      ∃ slot, c.bindings[id]? = some (.host slot) ∧ c.request.hosts.entries[slot]? = none ∧
        e = .exec (.hostSlotNotBound slot) := by
  unfold callee at h
  split at h
  · rename_i unbound
    cases h
    exact .inl ⟨unbound, rfl⟩
  · rename_i bound
    refine .inr (.inl ⟨bound, ?_⟩)
    split at h
    · rename_i y z
      cases y <;> cases z <;> cases h <;> exact .inl ⟨_, _, rfl⟩
    · cases h
      exact .inr rfl
  · rename_i slot bound
    split at h
    · cases h
    · rename_i missing
      cases h
      exact .inr (.inr ⟨slot, bound, missing, rfl⟩)

/-- Only the abort primitive aborts, and it takes a handle and a status. -/
theorem callee_abort {id : ExternId} {args : List Val} {handle : Addr} {code : Int32Bits}
    (h : c.callee id args = .ok (.abort handle code)) :
    c.bindings[id]? = some .abort ∧ args = [.ptr handle, .i32 code] := by
  rcases callee_ok h with ⟨_, _, bound, args, eq⟩ | ⟨_, _, -, -, eq⟩ <;> cases eq
  exact ⟨bound, args⟩

end Call

/-- The slot of a name holds an entry of that name. -/
theorem Registry.entry_of_slot? {r : Registry φ} {name : String} {slot : Nat}
    (h : r.slot? name = some slot) :
    ∃ entry, r.entries[slot]? = some entry ∧ entry.name = name := by
  obtain ⟨bound, named, -⟩ := List.findIdx?_eq_some_iff_getElem.1 h
  exact ⟨_, List.getElem?_eq_getElem bound, of_decide_eq_true named⟩

/-- What an extern is connected with: the primitive if it has the primitive's name, and otherwise
the function of its name, which takes as many arguments as the extern declares. -/
theorem Registry.bind_eq_ok {r : Registry φ} {x : ExternDecl} {b : Binding} :
    r.bind x = .ok b ↔ (x.name = abortSymbol ∧ b = .abort) ∨
      x.name ≠ abortSymbol ∧ ∃ slot entry, r.slot? x.name = some slot ∧
        r.entries[slot]? = some entry ∧ entry.arity = x.signature.params.length ∧
          b = .host slot := by
  unfold bind
  by_cases abort : x.name = abortSymbol
  · simp [abort, eq_comm]
  · cases found : r.slot? x.name with
    | none => simp [abort]
    | some slot =>
      obtain ⟨entry, there, -⟩ := entry_of_slot? found
      by_cases fits : entry.arity = x.signature.params.length <;>
        simp [abort, there, fits, eq_comm]

/-- Why an extern cannot be connected: there is no function of its name, or it takes another number
of arguments. -/
theorem Registry.bind_eq_error {r : Registry φ} {x : ExternDecl} {e : BridgeError} :
    r.bind x = .error e ↔ x.name ≠ abortSymbol ∧
      (r.slot? x.name = none ∧ e = .unboundExtern x.name ∨
        ∃ slot entry, r.slot? x.name = some slot ∧ r.entries[slot]? = some entry ∧
          entry.arity ≠ x.signature.params.length ∧
            e = .host (.wrongArity x.name entry.arity x.signature.params.length)) := by
  unfold bind
  by_cases abort : x.name = abortSymbol
  · simp [abort]
  · cases found : r.slot? x.name with
    | none => simp [abort, eq_comm]
    | some slot =>
      obtain ⟨entry, there, -⟩ := entry_of_slot? found
      by_cases fits : entry.arity = x.signature.params.length <;>
        simp [abort, there, fits, eq_comm]

/-- A binding is to the primitive if the name of the extern is the primitive's. -/
theorem Registry.bind_abort {r : Registry φ} {e : ExternDecl} (h : r.bind e = .ok .abort) :
    e.name = abortSymbol := by
  rcases bind_eq_ok.1 h with ⟨same, -⟩ | ⟨-, _, _, -, -, -, host⟩
  · exact same
  · cases host

/-- Any other binding is to a function that takes as many arguments as the extern declares. -/
theorem Registry.bind_host {r : Registry φ} {e : ExternDecl} {slot : Nat}
    (h : r.bind e = .ok (.host slot)) :
    e.name ≠ abortSymbol ∧ r.slot? e.name = some slot ∧
      ∃ entry, r.entries[slot]? = some entry ∧ entry.arity = e.signature.params.length := by
  rcases bind_eq_ok.1 h with ⟨-, host⟩ | ⟨other, s, entry, found, there, arity, host⟩
  · cases host
  · cases host
    exact ⟨other, found, entry, there, arity⟩

/-! ## Errors that leave functions -/

namespace Machine

variable {p : Platform φ σ}

theorem deliver_focus (m : Machine φ σ) (origin : Origin φ σ) (r : Except BridgeError Outcome)
    (c : Call φ σ) (answer : Answer) : (m.deliver origin r).focus ≠ .leave c answer := by
  cases origin <;> exact nofun

/-- A call that is left as soon as it has started could not activate its entry function. -/
theorem enterCall_leave {m : Machine φ σ} {request : CallRequest φ} {origin : Origin φ σ}
    {c : Call φ σ} {answer : Answer}
    (h : (m.enterCall p request origin).focus = .leave c answer) :
    ∃ entry bindings e, request.prepare = .ok (entry, bindings) ∧
      c = newCall p request bindings (m.nextCheckpoint p) origin ∧
      c.activate entry (entryArgs c) = .error e ∧ answer = .error e := by
  unfold enterCall at h
  split at h
  · exact absurd h (deliver_focus _ _ _ _ _)
  · rename_i entry bindings prepared
    split at h
    · exact absurd h (deliver_focus _ _ _ _ _)
    · simp only at h
      split at h
      · cases h
      · rename_i e failed
        cases h
        exact ⟨entry, bindings, e, prepared, rfl, failed, rfl⟩

/-- Where an error comes from with which a function of generated code is left after a step. -/
inductive ErrorSource (p : Platform φ σ) (m : Machine φ σ) (c : Call φ σ) (e : BridgeError) : Prop
  /-- Its own instruction. -/
  | turn (c' : Call φ σ) (a : Activation) (focus : m.focus = .code c' a)
    (leaves : c'.turn a = .leave c (.error e))
  /-- A function that it has called. -/
  | passed (c' : Call φ σ) (a : Activation) (dst : Option ValueId)
    (waiting : List (Activation × Option ValueId)) (focus : m.focus = .leave c' (.error e))
    (waits : c'.waiting = (a, dst) :: waiting) (call : c = c'.ascend waiting)
  /-- A host function that it has called. -/
  | answered (site : Site) (a : Activation) (callee : ExternId) (dst : Option ValueId)
    (rest : List (Frame φ σ)) (focus : m.focus = .script site (.done (.error e)))
    (control : m.control = .hostCall c a callee dst :: rest)
  /-- A host function that has given it no value, where it has a place for one. -/
  | silent (site : Site) (a : Activation) (callee : ExternId) (dst : ValueId)
    (rest : List (Frame φ σ)) (focus : m.focus = .script site (.done (.ok none)))
    (control : m.control = .hostCall c a callee (some dst) :: rest)
    (missing : e = .host (.noValue callee))
  /-- The start of a call that could not activate its entry function. -/
  | start (request : CallRequest φ) (entry : FuncId) (bindings : List Binding)
    (origin : Origin φ σ) (prepared : request.prepare = .ok (entry, bindings))
    (call : c = newCall p request bindings (m.nextCheckpoint p) origin)
    (fails : c.activate entry (entryArgs c) = .error e)

theorem stepDone_source {m : Machine φ σ} {site : Site} {answer : Answer} {c : Call φ σ}
    {e : BridgeError} (focus : m.focus = .script site (.done answer))
    (h : (m.stepDone site answer).focus = .leave c (.error e)) : ErrorSource p m c e := by
  unfold stepDone at h
  split at h <;> rename_i control
  · cases h
  · unfold resume at h
    split at h <;> cases h
    · exact .answered site _ _ _ _ focus control
    · exact .silent site _ _ _ _ focus control rfl
  · cases h
  · cases h

/-- There are no other sources. -/
theorem step_source {m : Machine φ σ} {c : Call φ σ} {e : BridgeError}
    (h : (m.step p).focus = .leave c (.error e)) : ErrorSource p m c e := by
  unfold step at h
  cases focus : m.focus with
  | code c' a =>
    simp only [focus, stepCode] at h
    cases leaves : c'.turn a <;> rw [leaves] at h <;> cases h
    exact .turn c' a focus leaves
  | leave c' answer =>
    simp only [focus, stepLeave] at h
    split at h
    · exact absurd h (deliver_focus _ _ _ _ _)
    · rename_i waits
      split at h <;> cases h
      exact .passed c' _ _ _ focus waits rfl
  | unwind c' x =>
    simp only [focus, stepUnwind] at h
    split at h
    · exact absurd h (deliver_focus _ _ _ _ _)
    · split at h <;> cases h
  | script site s =>
    simp only [focus] at h
    cases s with
    | done answer => exact stepDone_source focus h
    | call request next =>
      obtain ⟨entry, bindings, e', prepared, call, fails, same⟩ := enterCall_leave h
      cases same
      exact .start request entry bindings _ prepared call fails
    | capture maxDepth body next =>
      simp only [stepScript] at h
      split at h <;> cases h
    | _ => cases h
  | unwindScript site x =>
    simp only [focus, stepUnwindScript] at h
    split at h
    · cases h
    · cases h
    · split at h <;> cases h
    · cases h
  | halted ending =>
    simp only [focus] at h
    cases h

end Machine

end HostBridge
