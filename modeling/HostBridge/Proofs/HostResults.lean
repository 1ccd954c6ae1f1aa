import HostBridge.Proofs.Positions
import HostBridge.Proofs.Typing

/-!
# What host functions give to generated code

When a host function has answered, the activation that called it takes the value. In a verified
module the extern declares a value if there is a place for one, and the place is of the declared
type; that the host function has answered with a value is looked at, and its type is not. So a host
function that answers with nothing ends the call with an error of the host, and one that answers
with a value of another type has it used as if it were of the declared one.

* `Machine.host_result` — what becomes of every answer;
* `Machine.host_result_mistyped` — a 32-bit integer that is taken for a word and kept as gas.
-/

set_option autoImplicit false

namespace HostBridge

variable {φ σ : Type} {p : Platform φ σ}

namespace Machine

/-- From the end of a host function on, the call ends with an error. What waits is left, one after
the other, and none of its instructions is executed any more. -/
structure FailsCall (p : Platform φ σ) (m : Machine φ σ) (c : Call φ σ) (rest : List (Frame φ σ))
    (e : BridgeError) : Prop where
  leaves : ∀ k ≤ c.waiting.length, (m.run p (k + 1)).focus =
    .leave { c with waiting := c.waiting.drop k, depth := c.depth - k } (.error e)
  result : m.run p (c.waiting.length + 2) =
    { m with control := rest }.popCheckpoint.deliver c.origin (.error e)

/-- What waits for a host function. -/
theorem Reachable.awaits {m : Machine φ σ} (reach : Reachable p m) {c : Call φ σ} {a : Activation}
    {callee : ExternId} {dst : Option ValueId} {rest : List (Frame φ σ)}
    (control : m.control = .hostCall c a callee dst :: rest) :
    c.Placed ∧ a.Stands c.request.module ∧
      ∃ args, .callExtern dst callee args ∈ a.function.insts := by
  have holds := (CallInvariant.holds (placing_stable (p := p)) reach).control
  rw [control] at holds
  exact holds.1

/-- In a verified module what takes the value of an extern is of the type that the extern declares,
and has its place. -/
theorem Reachable.declared {m : Machine φ σ} (reach : Reachable p m) {c : Call φ σ} {a : Activation}
    {callee : ExternId} {d : ValueId} {rest : List (Frame φ σ)}
    (control : m.control = .hostCall c a callee (some d) :: rest)
    (verified : c.request.module.verify = .ok ()) :
    d < a.values.length ∧ ∃ e ty, c.request.module.externs[callee]? = some e ∧
      e.signature.ret = some ty ∧ a.function.valueType? d = some ty := by
  obtain ⟨-, stands, args, mem⟩ := reach.awaits control
  obtain ⟨code, there, mem⟩ := List.mem_flatten.1 mem
  have passes := (Module.verify_ok.1 verified).2 a.function stands.function
  have typed := ((Module.checkFunction_ok.1 passes).2 code there).1.insts _ mem
  obtain ⟨e, ext, -, fits⟩ := typed
  obtain ⟨ty, returns, has⟩ := fits.result d rfl
  exact ⟨stands.places ▸ Func.lt_of_valueType? has, e, ty, ext, returns, has⟩

/-- A call that takes an error from a host function is over. -/
theorem failsCall {m : Machine φ σ} {c : Call φ σ} {rest : List (Frame φ σ)} {e : BridgeError}
    (step : m.step p = { m with control := rest }.goto (.leave c (.error e))) :
    FailsCall p m c rest e where
  leaves := fun k le => by
    rw [run_succ, step, run_leave_error rfl k le]
    rfl
  result := by
    rw [run_succ, step, run_error rfl]
    cases origin : c.origin <;> simp only [popCheckpoint, goto, deliver]

/-- **What becomes of the answer of a host function** for whose value a call of a verified module
has a place, whatever the host functions are. There is a declared type, which the place has too. An
error is the result of the call, and so is, if there is no value, an error of the host. Any value is
put in its place, and generated code goes on. -/
theorem host_result {m : Machine φ σ} (reach : Reachable p m) {site : Site} {answer : Answer}
    (focus : m.focus = .script site (.done answer)) {c : Call φ σ} {a : Activation}
    {callee : ExternId} {d : ValueId} {rest : List (Frame φ σ)}
    (control : m.control = .hostCall c a callee (some d) :: rest)
    (verified : c.request.module.verify = .ok ()) :
    (∃ e ty, c.request.module.externs[callee]? = some e ∧ e.signature.ret = some ty ∧
      a.function.valueType? d = some ty) ∧
    (∀ e, answer = .error e → FailsCall p m c rest e) ∧
    (answer = .ok none → FailsCall p m c rest (.host (.noValue callee))) ∧
    (∀ v, answer = .ok (some v) → (a.assign d (some v)).values[d]? = some (some v) ∧
      m.step p = { m with control := rest, focus := .code c (a.assign d (some v)) }) := by
  obtain ⟨place, declared⟩ := reach.declared control verified
  have step : m.step p = { m with control := rest }.resume c a callee (some d) answer := by
    simp only [Machine.step, focus, stepScript, stepDone, control]
  refine ⟨declared, ?_, ?_, ?_⟩
  · rintro e rfl
    exact failsCall step
  · rintro rfl
    exact failsCall step
  · rintro v rfl
    refine ⟨?_, step⟩
    simp [Activation.assign, place]

/-- Asks the host for a word and keeps it as gas. -/
def metered : Module :=
  let edits : List Edit :=
    [.declareExtern "host.meter" ⟨[], some .word⟩ false, .declareEntry "main", .select 0,
      .emit (.callExtern 0 []), .emit (.setGas 2), .emit (.returnStatus .stop)]
  (edits.foldl Manuscript.after (.new "metered")).module

/-- A host all of whose functions answer with the same. -/
def stubborn (answer : Answer) : Platform Unit Unit := .within .usual fun _ _ => .done answer

/-- The call of `metered` from outside, with all the gas there can be. -/
def meteredRequest : CallRequest Unit :=
  ⟨metered, -1, default, Registry.empty.register "host.meter" 0 (), default⟩

/-- The host function has answered with nothing, and the call ends with an error of the host. -/
theorem host_result_silent :
    let p := stubborn (.ok none)
    let m := (startCall p meteredRequest [] ()).run p 1
    Reachable p m ∧ metered.verify = .ok () ∧ ∃ c a, m.control = [.hostCall c a 0 (some 2)] ∧
      c.request.module = metered ∧ FailsCall p m c [] (.host (.noValue 0)) := by
  intro p m
  have reach : Reachable p m := (Reachable.startCall ..).run 1
  have verified : metered.verify = .ok () := by decide +kernel
  obtain ⟨site, focus⟩ : ∃ site, m.focus = .script site (.done (.ok none)) := ⟨_, rfl⟩
  obtain ⟨c, a, control, module⟩ :
      ∃ c a, m.control = [.hostCall c a 0 (some 2)] ∧ c.request.module = metered :=
    ⟨_, _, rfl, rfl⟩
  have answered := host_result reach focus control (module ▸ verified)
  exact ⟨reach, verified, c, a, control, module, answered.2.2.1 rfl⟩

/-- The extern declares a word and the host function answers with a 32-bit integer. The integer
becomes the value of the word, the last four bytes of the gas are overwritten with it, and the call
ends well. -/
theorem host_result_mistyped :
    let p := stubborn (.ok (some (.i32 7)))
    let m := startCall p meteredRequest [] ()
    metered.verify = .ok () ∧
      (∃ c a, (m.run p 2).focus = .code c a ∧ c.request.module = metered ∧
        a.function.valueType? 2 = some .word ∧ a.values[2]? = some (some (.i32 7))) ∧
      (m.run p 7).focus = .halted (.call (.ok ⟨.stop, -0xfffffff9, []⟩)) := by
  intro p m
  have verified : metered.verify = .ok () := by decide +kernel
  refine ⟨verified, ⟨_, _, rfl, rfl, by decide +kernel, by decide +kernel⟩, ?_⟩
  exact result?_eq_some.1 (by decide +kernel)

end Machine

end HostBridge
