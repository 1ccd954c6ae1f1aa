import HostBridge.Proofs.Blame
import HostBridge.Proofs.HostResults

/-!
# Calls that descend

If every function has a rank and calls only functions of smaller rank, then the functions that are
active at once have ranks that get smaller and smaller towards the innermost one, in whatever order
and however often functions are called and left. So there are never more of them than the rank of
the entry function allows, and a limit that exceeds this rank is not felt.

* `Call.turn_refuses` — only the call of a function at the limit reports the limit;
* `Descent.call`, `descending_stable` — the activations of a call keep descending;
* `Machine.ranks_suffice` — in all runs, no call of such a module reports that its limit has been
  exceeded, unless a host function that it has called answers with this error.
-/

set_option autoImplicit false

namespace HostBridge

variable {φ σ : Type} {p : Platform φ σ}

/-! ## Who reports the limit -/

/-- A fault of generated code, or of its access to memory. -/
def BridgeError.IsFault : BridgeError → Prop
  | .exec _ | .invalidAccess _ _ _ => True
  | _ => False

/-- A computation that fails with faults only. -/
def Faults {α : Type} (x : Except BridgeError α) : Prop := ∀ e, x = .error e → e.IsFault

namespace Faults

variable {α β : Type}

theorem ok (a : α) : Faults (.ok a : Except BridgeError α) := nofun

theorem bind {x : Except BridgeError α} {f : α → Except BridgeError β} (first : Faults x)
    (then_ : ∀ a, Faults (f a)) : Faults (x >>= f) := by
  intro e failed
  rcases bind_eq_error.1 failed with here | ⟨a, -, later⟩
  · exact first e here
  · exact then_ a e later

theorem asPtr (x : Val) : Faults x.asPtr := by
  cases x <;> rintro e ⟨⟩ <;> trivial

theorem asWord (x : Val) : Faults x.asWord := by
  cases x <;> rintro e ⟨⟩ <;> trivial

theorem read (a : Activation) (v : ValueId) : Faults (a.read v) := by
  intro e failed
  rw [Activation.read_error failed]
  trivial

theorem readAll (a : Activation) (vs : List ValueId) : Faults (a.readAll vs) := by
  intro e failed
  obtain ⟨v, -, rfl⟩ := Activation.readAll_error failed
  trivial

end Faults

theorem Inst.effect_faults (s : Storage) (a : Activation) (i : Inst) : Faults (i.effect s a) := by
  cases i with
  | const | constI32 | jump => exact .ok _
  | ptrOffset dst base offset =>
    refine .bind (.read a base) fun x => .bind (.asPtr x) fun addr => ?_
    split
    · exact .ok _
    · rintro e ⟨⟩
      trivial
  | load dst ty addr =>
    refine .bind (.read a addr) fun x => .bind (.asPtr x) fun addr => .bind ?_ fun _ => .ok _
    intro e failed
    rw [Storage.load_eq_error failed]
    trivial
  | store addr value =>
    refine .bind (.read a addr) fun x => .bind (.asPtr x) fun addr => .bind (.read a value) fun y =>
      .bind ?_ fun _ => .ok _
    intro e failed
    rw [Storage.store_eq_error failed]
    trivial
  | loadByte dst base index =>
    refine .bind (.read a base) fun x => .bind (.asPtr x) fun base => .bind (.read a index) fun y =>
      .bind (.asWord y) fun index => .bind ?_ fun _ => .ok _
    intro e failed
    obtain ⟨addr, rfl⟩ := Storage.loadByte_eq_error failed
    trivial
  | binary dst op lhs rhs =>
    exact .bind (.read a lhs) fun x => .bind (.asWord x) fun _ => .bind (.read a rhs) fun y =>
      .bind (.asWord y) fun _ => .ok _
  | call dst callee args | callExtern dst callee args =>
    exact .bind (.readAll a args) fun _ => .ok _
  | branch cond thenBlock elseBlock =>
    exact .bind (.read a cond) fun x => .bind (.asWord x) fun _ => .ok _
  | ret value =>
    cases value with
    | none => exact .ok _
    | some v => exact .bind (.read a v) fun _ => .ok _
  | unreachable =>
    rintro e ⟨⟩
    trivial

namespace Call

variable {c : Call φ σ} {a : Activation}

theorem callee_faults (c : Call φ σ) (id : ExternId) (args : List Val) :
    Faults (c.callee id args) := by
  intro e failed
  rcases callee_error failed with ⟨-, rfl⟩ | ⟨-, ⟨_, _, rfl⟩ | rfl⟩ | ⟨slot, -, -, rfl⟩ <;> trivial

/-- A function is refused for the limit only where the limit is reached. -/
theorem activate_refuses {limit : Nat} {callee : FuncId} {args : List Val}
    (h : c.activate callee args = .error (.helperDepthExceeded limit)) :
    c.request.config.maxHelperDepth ≤ c.depth := by
  rcases activate_error h with ⟨full, -⟩ | ⟨-, other⟩ | ⟨f, -, -, other⟩
  · exact full
  · cases other
  · cases other

/-- Generated code reports that the limit of active functions is exceeded only when it calls a
function and the limit is reached. -/
theorem turn_refuses {c' : Call φ σ} {limit : Nat}
    (h : c.turn a = .leave c' (.error (.helperDepthExceeded limit))) :
    ∃ dst callee args rest, a.rest = .call dst callee args :: rest ∧
      c.request.config.maxHelperDepth ≤ c.depth := by
  unfold turn at h
  split at h
  · cases h
  · rename_i i rest here
    cases done : i.effect c.storage a with
    | error e =>
      simp only [done] at h
      cases h
      exact (Inst.effect_faults _ _ _ _ done).elim
    | ok effect =>
      simp only [done] at h
      have by_ := Inst.effect_by done
      cases effect with
      | define | write | leave => cases h
      | goto target =>
        simp only [obey] at h
        split at h
        · cases h
        · rename_i e failed
          cases h
          cases (Activation.enter_error failed).2
      | callExtern dst callee xs =>
        simp only [obey] at h
        split at h
        · rename_i e failed
          cases h
          exact (callee_faults _ _ _ _ failed).elim
        · cases h
        · cases h
      | call dst callee xs =>
        obtain ⟨args, rfl⟩ := by_
        simp only [obey] at h
        split at h
        · cases h
        · rename_i e failed
          cases h
          exact ⟨dst, callee, args, rest, here, activate_refuses failed⟩

end Call

/-! ## Ranks -/

/-- Every call of a function goes to one of smaller rank. -/
def Module.Descends (m : Module) (rank : FuncId → Nat) : Prop :=
  ∀ id f, m.functions[id]? = some f → ∀ dst callee args, .call dst callee args ∈ f.insts →
    rank callee < rank id

/-- The activations of a call stand in the code of its module, and the rank of each leaves room for
those outside it. -/
def Descent (m : Module) (rank : FuncId → Nat) (top : Nat) : List Activation → Prop
  | [] => True
  | a :: outer => a.Stands m ∧
      (∃ id, m.functions[id]? = some a.function ∧ rank id + outer.length ≤ top) ∧
      Descent m rank top outer

namespace Descent

variable {m : Module} {rank : FuncId → Nat} {top : Nat} {a : Activation} {outer : List Activation}

/-- The innermost function goes on somewhere else in its code. -/
theorem goOn (h : Descent m rank top (a :: outer)) {b : Activation} (stands : b.Stands m)
    (same : b.function = a.function) : Descent m rank top (b :: outer) :=
  ⟨stands, same ▸ h.2.1, h.2.2⟩

/-- A function that calls another has room for it. -/
theorem room (h : Descent m rank top (a :: outer)) (descends : m.Descends rank)
    {dst : Option ValueId} {callee : FuncId} {args : List ValueId} {rest : List Inst}
    (here : a.rest = .call dst callee args :: rest) : rank callee + (outer.length + 1) ≤ top := by
  obtain ⟨stands, ⟨id, there, bound⟩, -⟩ := h
  have smaller := descends id a.function there dst callee args (stands.mem_insts here)
  omega

/-- The function that is called has a smaller rank. -/
theorem call (h : Descent m rank top (a :: outer)) (descends : m.Descends rank)
    {dst : Option ValueId} {callee : FuncId} {args : List ValueId} {rest : List Inst}
    (here : a.rest = .call dst callee args :: rest) {f : Func}
    (there : m.functions[callee]? = some f) {xs : List Val} {b : Activation}
    (starts : Activation.start f xs = .ok b) :
    Descent m rank top (b :: { a with rest := rest } :: outer) := by
  refine ⟨.start (List.mem_of_getElem? there) starts, ⟨callee, ?_, h.room descends here⟩, ?_⟩
  · rw [(Activation.start_ok starts).1, there]
  · exact h.goOn (h.1.next here rfl) rfl

end Descent

/-- The activations of the calls that a request makes descend. -/
def descending (r : CallRequest φ) (rank : FuncId → Nat) (top : Nat) : CallInvariant φ σ where
  code c a := c.request = r → Descent r.module rank top (a :: c.waiting.map Prod.fst)
  leave c _ := c.request = r → Descent r.module rank top (c.waiting.map Prod.fst)
  unwind _ := True
  awaits c a _ _ := c.request = r → Descent r.module rank top (a :: c.waiting.map Prod.fst)
  accepts _ _ _ := True

theorem descending_stable {r : CallRequest φ} {rank : FuncId → Nat} {top : Nat}
    (descends : r.module.Descends rank) (entry : ∀ id, r.module.entry = some id → rank id ≤ top) :
    (descending r rank top : CallInvariant φ σ).Stable p where
  start := fun request id bindings cp origin prepared => by
    refine ⟨fun a activated same => ?_, fun e _ => trivial⟩
    obtain ⟨f, there, starts⟩ := Call.activate_ok activated
    obtain rfl : request = r := same
    obtain ⟨-, declared, -⟩ := CallRequest.prepare_ok prepared
    refine ⟨.start (List.mem_of_getElem? there) starts, ⟨id, ?_, entry id declared⟩, trivial⟩
    rw [(Activation.start_ok starts).1]
    exact there
  turn := fun c a code => by
    have advance := c.turn_advance a
    generalize c.turn a = t at advance
    cases advance with
    | next i rest here storage values places =>
      exact fun same => (code same).goOn ((code same).1.next here places) rfl
    | goto i rest here target aims insts there =>
      exact fun same => (code same).goOn ((code same).1.goto there) rfl
    | call dst callee args rest here room f there xs b starts =>
      exact fun same => (code same).call descends here (same ▸ there) starts
    | leave answer => exact fun same => (code same).2.2
    | abort handle status => trivial
    | host dst callee args rest here offer offered xs =>
      exact ⟨fun same => (code same).goOn ((code same).1.next here rfl) rfl,
        Script.answers_of_forall (fun _ => trivial) _⟩
  back := fun c v a dst waiting leave eq same => by
    have before := leave same
    rw [eq] at before
    exact before.goOn (before.1.receive dst v) (a.receive_function dst v)
  fail := fun c e a dst waiting leave eq same => by
    have before := leave same
    rw [eq] at before
    exact before.2.2
  resume := fun c a callee dst v awaits _ _ same =>
    (awaits same).goOn ((awaits same).1.receive dst v) (a.receive_function dst v)
  resumeFail := fun c a callee dst e awaits same => (awaits same).2.2
  unwind := fun _ _ _ _ _ => trivial

namespace Machine

/-- If the ranks fit under the limit, then the code of the call does not report the limit. -/
theorem neverRefuses {r : CallRequest φ} {rank : FuncId → Nat}
    (descends : r.module.Descends rank)
    (fits : ∀ id, r.module.entry = some id → rank id < r.config.maxHelperDepth) (limit : Nat) :
    r.NeverReports p (.helperDepthExceeded limit) where
  starts := fun c entry bindings prepared same fresh refused => by
    obtain ⟨-, declared, -⟩ := CallRequest.prepare_ok prepared
    have full := Call.activate_refuses refused
    rw [same, fresh] at full
    have := fits entry declared
    omega
  turns := fun m c c' a reach focus same refused => by
    have top : ∀ id, r.module.entry = some id → rank id ≤ r.config.maxHelperDepth - 1 :=
      fun id declared => Nat.le_sub_one_of_lt (fits id declared)
    have code := (CallInvariant.holds (descending_stable (p := p) descends top) reach).focus
    rw [focus] at code
    obtain ⟨dst, callee, args, rest, here, full⟩ := Call.turn_refuses refused
    have room := (code.1 same).room descends here
    rw [same, reach.depth.1 c a focus] at full
    rw [List.length_map] at room
    omega

/-- **Ranks suffice.** Take a call of a module whose functions have ranks, such that every call in a
function goes to one of smaller rank, with a limit of active functions that exceeds the rank of the
entry function; on any machine, whoever makes it, and whatever host functions are on offer. It is
not refused for the limit, and none of its instructions reports that the limit has been exceeded. If
one of its functions is left with this error, or the call comes to it, or it is the result of a run
from outside, then a host function that this call has called has answered with it. -/
theorem ranks_suffice {m : Machine φ σ} (reach : Reachable p m) {request : CallRequest φ}
    {origin : Origin φ σ} (calls : m.MakesCall request origin) {rank : FuncId → Nat}
    (descends : request.module.Descends rank)
    (fits : ∀ id, request.module.entry = some id → rank id < request.config.maxHelperDepth)
    (limit : Nat) :
    let start := m.enterCall p request origin
    let cp := m.nextCheckpoint p
    let e := BridgeError.helperDepthExceeded limit
    request.prepare ≠ .error e ∧
    (∀ n c c' a, (start.run p n).focus = .code c a → c.Serves request origin cp →
      c.turn a ≠ .leave c' (.error e)) ∧
    (∀ n c, (start.run p n).focus = .leave c (.error e) → c.Serves request origin cp →
      ∃ k < n, (start.run p k).HostFails request origin cp e) ∧
    (∀ n, (start.run p n).ComesTo request origin cp (.error e) →
      ∃ k < n, (start.run p k).HostFails request origin cp e) ∧
    (origin = .outside → ∀ n, (start.run p n).result? = some (.error e) →
      ∃ k < n, (start.run p k).HostFails request origin cp e) :=
  (neverRefuses descends fits limit).blames not_false reach calls

/-- A helper that takes one from the gas, called in a loop until nothing is left. Then the host is
told. -/
def rounds : Module :=
  let edits : List Edit :=
    [.declareExtern "host.tell" ⟨[], none⟩ false, .declareHelper "round" ⟨[.ptr], none⟩ 0,
      .declareEntry "main", .select 0, .emit .gas, .emit (.constWord 1), .emit (.binary .sub 2 3),
      .emit (.setGas 4), .emit (.ret none), .select 1, .emit .createBlock, .emit .createBlock,
      .emit (.jump 1), .emit (.switchTo 1), .emit (.callHelper 0 []), .emit .gas,
      .emit (.branch 3 1 2), .emit (.switchTo 2), .emit (.callExtern 0 []),
      .emit (.returnStatus .stop)]
  (edits.foldl Manuscript.after (.new "rounds")).module

/-- The functions are their own ranks: the entry function has the number 1, the helper 0. -/
theorem rounds_descends : rounds.Descends id := by
  have smaller : ∀ x ∈ rounds.functions.zipIdx, ∀ i ∈ x.1.insts,
      (match i with
        | .call _ callee _ => decide (callee < x.2)
        | _ => true) = true := by decide +kernel
  intro id f there dst callee args mem
  have call := smaller (f, id) (List.mem_zipIdx_iff_getElem?.2 there) _ mem
  exact of_decide_eq_true call

/-- With room for two functions the helper is called nine times. Then the host says that some limit
has been exceeded. This is the result, and nobody but the host has said it. -/
theorem ranks_suffice_rounds :
    let e : BridgeError := .helperDepthExceeded 5
    let p := stubborn (.error e)
    let r : CallRequest Unit :=
      ⟨rounds, 9, default, Registry.empty.register "host.tell" 0 (),
        { Config.default with maxHelperDepth := 2 }⟩
    let m : Machine Unit Unit := idle [] ()
    let start := m.enterCall p r .outside
    Reachable p m ∧ m.MakesCall r .outside ∧ r.module.Descends id ∧
      (∀ id, r.module.entry = some id → id < r.config.maxHelperDepth) ∧
      (start.run p 112).result? = some (.error e) ∧
      ∃ k < 112, (start.run p k).HostFails r .outside (m.nextCheckpoint p) e := by
  intro e p r m start
  have reach : Reachable p m := .idle [] ()
  have calls : m.MakesCall r .outside := .outside (idle_rests [] ())
  have fits : ∀ id, r.module.entry = some id → id < r.config.maxHelperDepth := by
    intro id declared
    obtain rfl : 1 = id := Option.some.inj declared
    decide
  have result : (start.run p 112).result? = some (.error e) := by decide +kernel
  obtain ⟨-, -, -, -, outside⟩ := ranks_suffice reach calls rounds_descends fits 5
  exact ⟨reach, calls, rounds_descends, fits, result, outside rfl 112 result⟩

end Machine

end HostBridge
