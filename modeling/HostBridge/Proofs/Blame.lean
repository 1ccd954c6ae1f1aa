import HostBridge.Proofs.Outside

/-!
# Where the error of a call comes from

A call can be refused; its own code can report an error; a host function that it has called can
answer with one; and the value with which its code is left can turn out to be no status. What leaves
a function in a single step is the business of `Machine.step_source`. Here an error is followed
through a whole run. If it is none of those that the machine itself reports around the code
(`BridgeError.AroundCode`), and the code of the call never reports it of its own accord
(`CallRequest.NeverReports`), then only the host functions are left.

* `CallRequest.prepare_around`, `Machine.statusOf_around` — what the machine itself reports;
* `Machine.step_result` — how a run from outside gets its result;
* `CallRequest.NeverReports.run_blames` — what leaves a function has been answered by a host
  function;
* `CallRequest.NeverReports.blames` — and so has what the call comes to.
-/

set_option autoImplicit false

namespace HostBridge

variable {φ σ : Type} {p : Platform φ σ}

/-! ## What the machine itself reports -/

/-- The errors that the machine reports around generated code: when it refuses a call, when it takes
over what a host function has answered, and when it settles a call. -/
def BridgeError.AroundCode : BridgeError → Prop
  | .verify _ _ | .unboundExtern _ | .callDepthExceeded _ | .unknownStatus _ => True
  | .host (.wrongArity _ _ _) | .host (.noValue _) => True
  | .exec (.noEntry _) | .exec .noStatus | .exec (.wrongType _ _) => True
  | _ => False

theorem CallRequest.prepare_around {r : CallRequest φ} {e : BridgeError}
    (refused : r.prepare = .error e) : e.AroundCode := by
  rcases prepare_eq_error.1 refused with ⟨-, found, -, rfl⟩ | ⟨-, ⟨-, rfl⟩ | ⟨-, unbound⟩⟩
  · trivial
  · trivial
  · obtain ⟨x, -, fails⟩ := mapM_eq_error unbound
    obtain ⟨-, ⟨-, rfl⟩ | ⟨slot, entry, -, -, -, rfl⟩⟩ := Registry.bind_eq_error.1 fails <;> trivial

theorem Outcome.settle_around {block : RuntimeBlock} {memory : Bytes} {exit : Exit}
    {code : Int32Bits} {e : BridgeError} (failed : settle block memory exit code = .error e) :
    e.AroundCode := by
  unfold settle at failed
  split at failed
  · cases failed
    trivial
  · split at failed <;> cases failed

namespace Machine

/-- What a call comes to is an error of the machine itself, or the one that its entry function is
left with. -/
theorem statusOf_around {block : RuntimeBlock} {memory : Bytes} {exit : Exit} {answer : Answer}
    {e : BridgeError}
    (failed : (statusOf answer).bind (Outcome.settle block memory exit) = .error e) :
    e.AroundCode ∨ answer = .error e := by
  rcases bind_eq_error.1 failed with missing | ⟨code, -, unsettled⟩
  · obtain e' | _ | v := answer
    · cases missing
      exact .inr rfl
    · cases missing
      exact .inl trivial
    · cases v <;> cases missing <;> exact .inl trivial
  · exact .inl (Outcome.settle_around unsettled)

variable {request : CallRequest φ} {origin : Origin φ σ} {cp : Checkpoint}

/-- A call that is over as soon as it has been made was made from outside, and has been refused. -/
theorem enterCall_halted {m : Machine φ σ} {ending : Ending}
    (h : (m.enterCall p request origin).focus = .halted ending) :
    origin = .outside ∧ ∃ e, ending = .call (.error e) ∧ e.AroundCode := by
  unfold enterCall at h
  split at h
  · rename_i e refused
    cases origin <;> cases h
    exact ⟨rfl, e, rfl, CallRequest.prepare_around refused⟩
  · split at h
    · cases origin <;> cases h
      exact ⟨rfl, _, rfl, trivial⟩
    · simp only at h
      split at h <;> cases h

/-! ## Results -/

/-- In the next step the call under a checkpoint comes to a result: its entry function is left, or a
status has been raised against its checkpoint. -/
inductive ComesTo (m : Machine φ σ) (request : CallRequest φ) (origin : Origin φ σ)
    (cp : Checkpoint) (r : Except BridgeError Outcome) : Prop
  | left (c : Call φ σ) (answer : Answer) (serves : c.Serves request origin cp)
    (focus : m.focus = .leave c answer) (last : c.waiting = [])
    (result : (statusOf answer).bind (Outcome.settle c.storage.block m.memory .returned) = r)
  | aborted (c : Call φ σ) (x : Payload) (code : Int32Bits) (serves : c.Serves request origin cp)
    (focus : m.focus = .unwind c x) (own : x.codeFor? c.checkpoint = some code)
    (result : Outcome.settle c.storage.block m.memory .aborted code = r)

theorem deliver_halted {m : Machine φ σ} {r r' : Except BridgeError Outcome}
    (h : (m.deliver origin r).focus = .halted (.call r')) : origin = .outside ∧ r = r' := by
  cases origin <;> cases h
  exact ⟨rfl, rfl⟩

/-- A run has its result already, or the call from outside comes to it. -/
theorem step_result {m : Machine φ σ} {r : Except BridgeError Outcome}
    (h : (m.step p).focus = .halted (.call r)) :
    m.focus = .halted (.call r) ∨ ∃ c, m.focus.call? = some c ∧ c.origin = .outside ∧
      m.ComesTo c.request .outside c.checkpoint r := by
  unfold step at h
  cases focus : m.focus with
  | code c a =>
    simp only [focus, stepCode] at h
    cases turn : c.turn a <;> rw [turn] at h <;> cases h
  | leave c answer =>
    simp only [focus, stepLeave] at h
    split at h
    · rename_i last
      obtain ⟨outside, result⟩ := deliver_halted h
      exact .inr ⟨c, rfl, outside, .left c answer ⟨rfl, outside, rfl⟩ focus last result⟩
    · split at h <;> cases h
  | unwind c x =>
    simp only [focus, stepUnwind] at h
    split at h
    · rename_i code own
      obtain ⟨outside, result⟩ := deliver_halted h
      exact .inr ⟨c, rfl, outside, .aborted c x code ⟨rfl, outside, rfl⟩ focus own result⟩
    · split at h <;> cases h
  | script site s =>
    simp only [focus] at h
    cases s with
    | done answer =>
      simp only [stepScript, stepDone] at h
      split at h
      · cases h
      · unfold resume at h
        split at h <;> cases h
      · cases h
      · cases h
    | call request next => cases (enterCall_halted h).1
    | capture maxDepth body next =>
      simp only [stepScript] at h
      split at h <;> cases h
    | _ => cases h
  | unwindScript site x =>
    simp only [focus, stepUnwindScript] at h
    split at h
    · cases h
    · cases h
    · split at h <;> cases h
    · cases h
  | halted ending =>
    simp only [focus] at h
    exact .inl h

end Machine

/-! ## Blame -/

namespace Machine

/-- A host function that the call under a checkpoint has called is about to answer with an error. -/
def HostFails (m : Machine φ σ) (request : CallRequest φ) (origin : Origin φ σ) (cp : Checkpoint)
    (e : BridgeError) : Prop :=
  ∃ site c a callee dst rest, m.focus = .script site (.done (.error e)) ∧
    m.control = .hostCall c a callee dst :: rest ∧ c.Serves request origin cp

end Machine

/-- The code of the calls that a request makes does not report an error of its own accord. -/
structure CallRequest.NeverReports (p : Platform φ σ) (r : CallRequest φ) (e : BridgeError) :
    Prop where
  /-- The entry function starts without it. -/
  starts : ∀ (c : Call φ σ) (entry : FuncId) (bindings : List Binding),
    r.prepare = .ok (entry, bindings) → c.request = r → c.depth = 0 →
      c.activate entry (Machine.entryArgs c) ≠ .error e
  /-- No instruction ends in it. -/
  turns : ∀ (m : Machine φ σ) (c c' : Call φ σ) (a : Activation), m.Reachable p →
    m.focus = .code c a → c.request = r → c.turn a ≠ .leave c' (.error e)

namespace CallRequest.NeverReports

open Machine

variable {request : CallRequest φ} {origin : Origin φ σ} {cp : Checkpoint} {e : BridgeError}
  {m : Machine φ σ}

/-- In a step the error is passed on, or a host function has answered with it. -/
theorem step_blames (never : request.NeverReports p e) (inside : ¬ e.AroundCode)
    (reach : m.Reachable p) {c : Call φ σ} (h : (m.step p).focus = .leave c (.error e))
    (serves : c.Serves request origin cp) :
    (∃ c' : Call φ σ, c'.Serves request origin cp ∧ m.focus = .leave c' (.error e)) ∨
      m.HostFails request origin cp e := by
  cases step_source h with
  | turn c' a focus leaves =>
    have same := c'.turn_request a
    rw [leaves] at same
    exact absurd leaves (never.turns m c' c a reach focus (same.symm.trans serves.request))
  | passed c' a dst waiting focus waits call =>
    subst call
    exact .inl ⟨c', ⟨serves.request, serves.origin, serves.checkpoint⟩, focus⟩
  | answered site a callee dst rest focus control =>
    exact .inr ⟨site, c, a, callee, dst, rest, focus, control, serves⟩
  | silent site a callee dst rest focus control missing =>
    subst missing
    exact absurd trivial inside
  | start request' entry bindings origin' prepared call fails =>
    have same : request' = request := by rw [← serves.request, call]; rfl
    have fresh : c.depth = 0 := by rw [call]; rfl
    exact absurd fails (never.starts c entry bindings (same ▸ prepared) serves.request fresh)

/-- **In a run the error with which a function of the call is left has been answered by a host
function.** -/
theorem run_blames (never : request.NeverReports p e) (inside : ¬ e.AroundCode)
    (reach : m.Reachable p) (begins : ∀ c : Call φ σ, m.focus ≠ .leave c (.error e)) {n : Nat}
    {c : Call φ σ} (h : (m.run p n).focus = .leave c (.error e))
    (serves : c.Serves request origin cp) : ∃ k < n, (m.run p k).HostFails request origin cp e := by
  induction n generalizing c with
  | zero => exact absurd h (begins c)
  | succ n ih =>
    rw [← step_run] at h
    rcases never.step_blames inside (reach.run n) h serves with ⟨c', serves', before⟩ | host
    · obtain ⟨k, lt, fails⟩ := ih before serves'
      exact ⟨k, Nat.lt_succ_of_lt lt, fails⟩
    · exact ⟨n, Nat.lt_succ_self n, host⟩

/-- And so has the error to which the call comes. -/
theorem comesTo_blames (never : request.NeverReports p e) (inside : ¬ e.AroundCode)
    (reach : m.Reachable p) (begins : ∀ c : Call φ σ, m.focus ≠ .leave c (.error e)) {n : Nat}
    (h : (m.run p n).ComesTo request origin cp (.error e)) :
    ∃ k < n, (m.run p k).HostFails request origin cp e := by
  cases h with
  | left c answer serves focus last result =>
    rcases statusOf_around result with around | rfl
    · exact absurd around inside
    · exact never.run_blames inside reach begins focus serves
  | aborted c x code serves focus own result =>
    exact absurd (Outcome.settle_around result) inside

/-- The result of a run from outside is the error only if a host function has answered it to the
call from outside. -/
theorem result_blames (never : request.NeverReports p e) (inside : ¬ e.AroundCode)
    (reach : m.Reachable p) (begins : ∀ c : Call φ σ, m.focus ≠ .leave c (.error e))
    (only : OnlyOutside request cp m) (works : m.focus ≠ .halted (.call (.error e))) {n : Nat}
    (h : (m.run p n).result? = some (.error e)) :
    ∃ k < n, (m.run p k).HostFails request .outside cp e := by
  induction n with
  | zero => exact absurd (result?_eq_some.1 h) works
  | succ n ih =>
    rw [result?_eq_some, ← step_run] at h
    rcases step_result h with before | ⟨c, focus, outside, comes⟩
    · obtain ⟨k, lt, fails⟩ := ih (result?_eq_some.2 before)
      exact ⟨k, Nat.lt_succ_of_lt lt, fails⟩
    · have serves := (only.run n).focus c focus outside
      rw [serves.request, serves.checkpoint] at comes
      obtain ⟨k, lt, fails⟩ := never.comesTo_blames inside reach begins comes
      exact ⟨k, Nat.lt_succ_of_lt lt, fails⟩

/-- **Only host functions are to blame.** Take a call on any machine, whoever makes it, whose code
never reports an error that is none of the machine's own. Then the call is not refused with it, no
instruction of the call reports it, and before a function of the call is left with it, or the call
comes to it, or a run from outside ends in it, a host function that the call has called has answered
with it. -/
theorem blames (never : request.NeverReports p e) (inside : ¬ e.AroundCode) (reach : m.Reachable p)
    (calls : m.MakesCall request origin) :
    let start := m.enterCall p request origin
    let cp := m.nextCheckpoint p
    request.prepare ≠ .error e ∧
    (∀ n c c' a, (start.run p n).focus = .code c a → c.Serves request origin cp →
      c.turn a ≠ .leave c' (.error e)) ∧
    (∀ n c, (start.run p n).focus = .leave c (.error e) → c.Serves request origin cp →
      ∃ k < n, (start.run p k).HostFails request origin cp e) ∧
    (∀ n, (start.run p n).ComesTo request origin cp (.error e) →
      ∃ k < n, (start.run p k).HostFails request origin cp e) ∧
    (origin = .outside → ∀ n, (start.run p n).result? = some (.error e) →
      ∃ k < n, (start.run p k).HostFails request origin cp e) := by
  intro start cp
  have reached : Reachable p start := calls.reachable reach
  have begins : ∀ c : Call φ σ, start.focus ≠ .leave c (.error e) := by
    intro c leaves
    obtain ⟨entry, bindings, e', prepared, rfl, failed, same⟩ := enterCall_leave leaves
    cases same
    exact never.starts _ entry bindings prepared rfl rfl failed
  refine ⟨fun refused => inside (prepare_around refused), ?_, ?_, ?_, ?_⟩
  · exact fun n c c' a focus serves => never.turns _ c c' a (reached.run n) focus serves.request
  · exact fun n c leaves serves => never.run_blames inside reached begins leaves serves
  · exact fun n comes => never.comesTo_blames inside reached begins comes
  · rintro rfl n result
    have works : start.focus ≠ .halted (.call (.error e)) := by
      intro ended
      obtain ⟨-, e', same, around⟩ := enterCall_halted ended
      cases same
      exact inside around
    obtain ⟨rests⟩ := calls
    exact never.result_blames inside reached begins (rests.onlyOutside request) works result

end CallRequest.NeverReports

end HostBridge
