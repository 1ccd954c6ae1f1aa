import HostBridge.Proofs.Fields
import HostBridge.Proofs.Unwinding

/-!
# The outcome of a call

A call is left with a status code in two ways: its entry function returns it, or it is raised
against the checkpoint of the call. The law says what the call comes to then, in terms of exact
numbers: which codes mean something, what gas is left, and which bytes are returned.

* `OutcomeLaw` — the law, for the runtime block and the working memory at the end;
* `Outcome.settle_law` — what the bridge makes of a status code obeys it;
* `Machine.outcome_law` — every call whose code is left with a status gives this result to whoever
  made it, from whatever depth of helpers and host functions the status comes.
-/

set_option autoImplicit false

namespace HostBridge

/-! ## Status codes -/

namespace Status

/-- The codes that mean something. -/
def codes : List Int := [0, 1, 2, 101, 102, 103, 104, 105]

theorem toInt_code (s : Status) : s.code.toInt = s.number := by
  cases s <;> rfl

theorem mem_codes_iff {c : Int32Bits} : c.toInt ∈ codes ↔ ∃ s : Status, s.code = c := by
  constructor
  · intro mem
    have listed : ∃ s : Status, (s.number : Int) = c.toInt := by
      simp only [codes, List.mem_cons, List.not_mem_nil, or_false] at mem
      rcases mem with h | h | h | h | h | h | h | h
      · exact ⟨.stop, h.symm⟩
      · exact ⟨.ret, h.symm⟩
      · exact ⟨.suicide, h.symm⟩
      · exact ⟨.badJumpDestination, h.symm⟩
      · exact ⟨.outOfGas, h.symm⟩
      · exact ⟨.stackTooSmall, h.symm⟩
      · exact ⟨.badInstruction, h.symm⟩
      · exact ⟨.stackOverflow, h.symm⟩
    obtain ⟨s, number⟩ := listed
    exact ⟨s, BitVec.eq_of_toInt_eq (s.toInt_code.trans number)⟩
  · rintro ⟨s, rfl⟩
    rw [s.toInt_code]
    cases s <;> decide

theorem code_of_ofCode? {c : Int32Bits} {s : Status} (h : ofCode? c = some s) : s.code = c := by
  simpa using List.find?_some h

theorem ofCode?_eq_none_iff {c : Int32Bits} : ofCode? c = none ↔ c.toInt ∉ codes := by
  rw [mem_codes_iff]
  constructor
  · rintro unknown ⟨s, rfl⟩
    rw [ofCode?_code] at unknown
    cases unknown
  · intro none
    cases known : ofCode? c with
    | none => rfl
    | some s => exact absurd ⟨s, code_of_ofCode? known⟩ none

end Status

/-! ## The law -/

/-- What a call comes to that is left with a status code, given its runtime block and the working
memory at that moment. Offset and size of the return data are numbers of 256 bits and their sum is
exact. -/
structure OutcomeLaw (block : RuntimeBlock) (memory : Bytes) (exit : Exit) (code : Int32Bits)
    (result : Except BridgeError Outcome) : Prop where
  unknown : result = .error (.unknownStatus code) ↔ code.toInt ∉ Status.codes
  known : code.toInt ∈ Status.codes → ∃ o, result = .ok o ∧ o.status.number = code.toInt
  /-- An abort with a failure, which has a code of 100 or more, leaves nothing. -/
  failed : ∀ o, result = .ok o → exit = .aborted ∧ 100 ≤ code.toInt →
    o.gasLeft = 0 ∧ o.output = []
  gas : ∀ o, result = .ok o → ¬ (exit = .aborted ∧ 100 ≤ code.toInt) →
    o.gasLeft = block.get .gas
  output : ∀ o, result = .ok o → ¬ (exit = .aborted ∧ 100 ≤ code.toInt) →
    let offset := (block.get .returnDataOffset).toNat
    let size := (block.get .returnDataSize).toNat
    if o.status = .ret ∧ offset + size ≤ memory.length then
      o.output = (memory.drop offset).take size ∧ o.output.length = size
    else o.output = []

namespace Fields

variable (fields : Fields) {memory : Bytes} {exit : Exit} {status : Status}

/-- The range is checked as if numbers had no bounds: what does not fit into 64 bits lies outside of
every memory. -/
theorem returnData_exact (fits : memory.length < Bytes.capacity pointerSize) :
    fields.returnData memory =
      if (fields .returnDataOffset).toNat + (fields .returnDataSize).toNat ≤ memory.length then
        Bytes.slice memory (fields .returnDataOffset).toNat (fields .returnDataSize).toNat
      else [] := by
  unfold returnData
  dsimp only
  by_cases inside :
      (fields .returnDataOffset).toNat + (fields .returnDataSize).toNat ≤ memory.length
  · rw [if_pos inside, if_pos ⟨Nat.lt_of_le_of_lt inside fits, inside⟩]
  · rw [if_neg inside, if_neg fun both => inside both.2]

theorem outcome_status (memory : Bytes) (exit : Exit) (status : Status) :
    (fields.outcome memory exit status).status = status := by
  unfold outcome
  split <;> rfl

theorem outcome_failed (fails : exit = .aborted ∧ 100 ≤ status.number) :
    fields.outcome memory exit status = ⟨status, 0, []⟩ := by
  rw [outcome, if_pos fails]

theorem outcome_kept (goes : ¬ (exit = .aborted ∧ 100 ≤ status.number)) :
    fields.outcome memory exit status =
      ⟨status, fields .gas, if status = .ret then fields.returnData memory else []⟩ := by
  rw [outcome, if_neg goes]

end Fields

/-- **What the bridge makes of a status code obeys the law.** A memory has fewer than 2^64 bytes. -/
theorem Outcome.settle_law (block : RuntimeBlock) {memory : Bytes}
    (fits : memory.length < Bytes.capacity pointerSize) (exit : Exit) (code : Int32Bits) :
    OutcomeLaw block memory exit code (settle block memory exit code) := by
  by_cases known : code.toInt ∈ Status.codes
  · obtain ⟨status, rfl⟩ := Status.mem_codes_iff.1 known
    rw [settle_code]
    have same := Fields.outcome_status block.get memory exit status
    have number : (100 : Int) ≤ status.code.toInt ↔ 100 ≤ status.number := by
      rw [Status.toInt_code]
      omega
    refine ⟨⟨nofun, fun other => absurd known other⟩, fun _ => ⟨_, rfl, ?_⟩, ?_, ?_, ?_⟩
    · rw [same, Status.toInt_code]
    · rintro o ⟨⟩ fails
      rw [number] at fails
      rw [Fields.outcome_failed block.get fails]
      exact ⟨rfl, rfl⟩
    · rintro o ⟨⟩ goes
      rw [number] at goes
      rw [Fields.outcome_kept block.get goes]
    · rintro o ⟨⟩ goes
      rw [number] at goes
      rw [Fields.outcome_kept block.get goes]
      dsimp only
      rw [Fields.returnData_exact _ fits]
      by_cases ret : status = .ret
      · by_cases inside : (block.get .returnDataOffset).toNat +
            (block.get .returnDataSize).toNat ≤ memory.length
        · rw [if_pos ⟨ret, inside⟩, if_pos ret, if_pos inside]
          exact ⟨rfl, Bytes.length_slice inside⟩
        · rw [if_neg fun both => inside both.2, if_pos ret, if_neg inside]
      · rw [if_neg fun both => ret both.1, if_neg ret]
  · have none := Status.ofCode?_eq_none_iff.2 known
    have result : settle block memory exit code = .error (.unknownStatus code) := by
      rw [settle, none]
    rw [result]
    exact ⟨⟨fun _ => known, fun _ => rfl⟩, fun mem => absurd mem known, nofun, nofun, nofun⟩

/-- A success is the same whether it is raised or returned. -/
theorem Outcome.settle_success (block : RuntimeBlock) (memory : Bytes) {status : Status}
    (success : status.number < 100) :
    settle block memory .aborted status.code = settle block memory .returned status.code := by
  have raised : ¬ (Exit.aborted = .aborted ∧ 100 ≤ status.number) := fun fails =>
    Nat.not_le.2 success fails.2
  have returned : ¬ (Exit.returned = .aborted ∧ 100 ≤ status.number) := fun fails => nomatch fails.1
  rw [settle_code, settle_code, Fields.outcome_kept _ raised, Fields.outcome_kept _ returned]

/-! ## Calls -/

/-- Generated code that raises a status has changed nothing in its call. -/
theorem Call.turn_abort {φ σ : Type} {c c' : Call φ σ} {a : Activation} {handle : Addr}
    {code : Int32Bits} (h : c.turn a = .abort c' handle code) : c' = c := by
  unfold turn at h
  split at h
  · cases h
  · split at h
    · rename_i effect _
      cases effect with
      | define dst v => cases h
      | write storage => cases h
      | goto target =>
        simp only [obey] at h
        split at h <;> cases h
      | leave v => cases h
      | call dst callee args =>
        simp only [obey] at h
        split at h <;> cases h
      | callExtern dst callee args =>
        simp only [obey] at h
        split at h
        · cases h
        · cases h
          rfl
        · cases h
    · cases h

namespace Machine

variable {φ σ : Type} {p : Platform φ σ}

/-- Control leaves the generated code of a call with a status code. -/
inductive Exits (m : Machine φ σ) (c : Call φ σ) : Exit → Int32Bits → Prop
  /-- The entry function has returned it. -/
  | returned (code : Int32Bits) (focus : m.focus = .leave c (.ok (some (.i32 code))))
    (last : c.waiting = []) : Exits m c .returned code
  /-- A signal has arrived that was raised against the checkpoint of the call. -/
  | aborted (code : Int32Bits) (focus : m.focus = .unwind c (.signal c.checkpoint.handle code)) :
    Exits m c .aborted code

theorem Exits.active {m : Machine φ σ} {c : Call φ σ} {exit : Exit} {code : Int32Bits}
    (h : m.Exits c exit code) : m.focus.call? = some c := by
  cases h with
  | returned code focus last => rw [focus, Focus.call?]
  | aborted code focus => rw [focus, Focus.call?]

theorem Exits.step {m : Machine φ σ} {c : Call φ σ} {exit : Exit} {code : Int32Bits}
    (h : m.Exits c exit code) : m.step p = m.finishCall c exit (.ok code) := by
  cases h with
  | returned code focus last =>
    simp only [Machine.step, focus, stepLeave, last]
    rfl
  | aborted code focus =>
    simp only [Machine.step, focus, stepUnwind, Payload.codeFor?_signal]

/-- The generated code that has control under the checkpoint of a call is that of the call. -/
theorem Serving.only {m : Machine φ σ} (balanced : Balanced m) {request : CallRequest φ}
    {origin : Origin φ σ} {cp : Checkpoint} {rest : List (Frame φ σ)}
    (h : Serving request origin cp rest m) {c : Call φ σ} (active : m.focus.call? = some c)
    (own : c.checkpoint = cp) : c.Serves request origin cp := by
  cases h with
  | active c' serves focus control =>
    rw [active] at focus
    obtain rfl := Option.some.inj focus
    exact serves
  | waits c' serves a callee dst inner control =>
    -- otherwise the checkpoint would be live twice
    have twice : m.running = cp :: m.control.flatMap Frame.checkpoints := by
      rw [Machine.running]
      cases focus : m.focus <;> rw [focus] at active <;> cases active <;> rw [← own] <;> rfl
    have ids := balanced.ids
    rw [balanced.live_eq, twice] at ids
    have waiting : cp ∈ m.control.flatMap Frame.checkpoints := by
      refine List.mem_flatMap.2 ⟨.hostCall c' a callee dst, ?_, ?_⟩
      · rw [control]
        exact List.mem_append_right _ List.mem_cons_self
      · exact List.mem_singleton.2 serves.checkpoint.symm
    exact absurd (List.rel_of_pairwise_cons ids waiting) (Nat.lt_irrefl _)

/-- An activation that raises a status leaves its whole call, however deep it is. -/
theorem exits_of_code {m : Machine φ σ} (balanced : Balanced m) {c c' : Call φ σ} {a : Activation}
    {code : Int32Bits} (focus : m.focus = .code c a)
    (turn : c.turn a = .abort c' c.checkpoint.handle code) :
    (m.step p).Exits c .aborted code ∧ (m.step p).memory = m.memory := by
  obtain rfl := Call.turn_abort turn
  have live : m.live = c'.checkpoint :: m.control.flatMap Frame.checkpoints := by
    rw [balanced.live_eq, running, focus]
    rfl
  have next : m.step p = m.goto (.unwind c' (.signal c'.checkpoint.handle code)) := by
    simp only [Machine.step, focus, stepCode, turn, take, live, Payload.raise, if_true]
  rw [next]
  exact ⟨.aborted code rfl, rfl⟩

/-- So does a host function that it has called. -/
theorem exits_of_host {m : Machine φ σ} (balanced : Balanced m) {site : Site} {c : Call φ σ}
    {a : Activation} {callee : ExternId} {dst : Option ValueId} {rest : List (Frame φ σ)}
    {code : Int32Bits} (focus : m.focus = .script site (.abortTo c.checkpoint.handle code))
    (control : m.control = .hostCall c a callee dst :: rest) :
    (m.run p 2).Exits c .aborted code ∧ (m.run p 2).memory = m.memory := by
  have live : m.live = c.checkpoint :: rest.flatMap Frame.checkpoints := by
    rw [balanced.live_eq, running, focus, control]
    rfl
  have first : m.step p = m.goto (.unwindScript site (.signal c.checkpoint.handle code)) := by
    simp only [Machine.step, focus, stepScript, live, Payload.raise, if_true]
  have second : m.run p 2 =
      { m with control := rest }.goto (.unwind c (.signal c.checkpoint.handle code)) := by
    rw [run_succ, run_succ, run, first]
    simp only [Machine.step, goto, stepUnwindScript, control]
  rw [second]
  exact ⟨.aborted code rfl, rfl⟩

/-- How the call under a checkpoint goes on when its generated code is left with a status, or when a
status is raised against it. -/
structure LeavesLawfully (p : Platform φ σ) (m : Machine φ σ) (cp : Checkpoint)
    (origin : Origin φ σ) : Prop where
  /-- The result obeys the law, for the block and the memory of this moment. -/
  result : ∀ c exit code, m.Exits c exit code → c.checkpoint = cp →
    m.memory.length < Bytes.capacity pointerSize →
    ∃ result, OutcomeLaw c.storage.block m.memory exit code result ∧
      m.step p = m.popCheckpoint.deliver origin result
  /-- A status raised in any of its activations arrives. -/
  abortedByCode : ∀ c a c' code, m.focus = .code c a → c.checkpoint = cp →
    c.turn a = .abort c' cp.handle code →
    (m.step p).Exits c .aborted code ∧ (m.step p).memory = m.memory
  /-- So does a status raised by a host function that it has called. -/
  abortedByHost : ∀ site c a callee dst rest code,
    m.focus = .script site (.abortTo cp.handle code) → c.checkpoint = cp →
    m.control = .hostCall c a callee dst :: rest →
    (m.run p 2).Exits c .aborted code ∧ (m.run p 2).memory = m.memory

theorem Serving.leavesLawfully {m : Machine φ σ} (balanced : Balanced m)
    {request : CallRequest φ} {origin : Origin φ σ} {cp : Checkpoint} {rest : List (Frame φ σ)}
    (h : Serving request origin cp rest m) : LeavesLawfully p m cp origin where
  result := fun c exit code exits own fits => by
    have serves := h.only balanced exits.active own
    refine ⟨_, Outcome.settle_law c.storage.block fits exit code, ?_⟩
    rw [exits.step, finishCall, serves.origin]
    rfl
  abortedByCode := fun c a c' code focus own turn => by
    rw [← own] at turn
    exact exits_of_code balanced focus turn
  abortedByHost := fun site c a callee dst rest code focus own control => by
    rw [← own] at focus
    exact exits_of_host balanced focus control

/-- A success is the same whether it is raised or returned. -/
theorem step_success {m : Machine φ σ} {c : Call φ σ} {status : Status}
    (success : status.number < 100) (last : c.waiting = []) :
    (m.goto (.unwind c (.signal c.checkpoint.handle status.code))).step p =
      (m.goto (.leave c (.ok (some (.i32 status.code))))).step p := by
  have returned : (m.goto (.leave c (.ok (some (.i32 status.code))))).step p =
      m.finishCall c .returned (.ok status.code) := by
    rw [← finishCall_goto (.leave c (.ok (some (.i32 status.code))))]
    exact Exits.step (.returned status.code rfl last)
  rw [step_own_signal, returned]
  unfold finishCall
  simp only [Except.bind, Outcome.settle_success _ _ success]

/-- **The outcome law.** As long as a call is at work, however it is left with a status code: the
result that whoever made it is given obeys the law. A success is the same whether it is raised or
returned. -/
theorem outcome_law {m : Machine φ σ} (reach : Reachable p m) (host : m.focus.checkpoints = [])
    {request : CallRequest φ} {ready : FuncId × List Binding}
    (prepared : request.prepare = .ok ready) (room : m.live.length < request.config.maxCallDepth)
    (origin : Origin φ σ) :
    (∀ n, (∀ k ≤ n, m.nextCheckpoint p ∈ ((m.enterCall p request origin).run p k).running) →
      LeavesLawfully p ((m.enterCall p request origin).run p n) (m.nextCheckpoint p) origin) ∧
    ∀ (m : Machine φ σ) (c : Call φ σ) (status : Status), status.number < 100 →
      c.waiting = [] →
      (m.goto (.unwind c (.signal c.checkpoint.handle status.code))).step p =
        (m.goto (.leave c (.ok (some (.i32 status.code))))).step p := by
  refine ⟨?_, fun m c status success last => step_success success last⟩
  intro n works
  have balanced : Balanced ((m.enterCall p request origin).run p n) :=
    (reach.balanced.shift (enterCall_shift host request origin)).run p n
  have serving := (enterCall_callRun reach.balanced host prepared room origin).during n works
  exact serving.leavesLawfully balanced

/-- An entry function that calls the host and expects nothing back. -/
def quitter : Module :=
  let main : Func := ⟨"main", .entry, .entry, [[.callExtern none 0 [], .unreachable]],
    [.ptr, .ptr], [some "host", some "rt"]⟩
  ⟨"quitter", [main], [⟨"host.quit", ⟨[], none⟩, false⟩], some 0, none⟩

/-- A host function that raises `return` against the first checkpoint. -/
def quit : Platform Unit Unit :=
  .within .usual fun _ _ => .setMemory [7] (.abortTo (AddressSpace.usual.handleAt 1) 1)

/-- The call of `quitter` from outside. -/
def quitterRequest : CallRequest Unit :=
  ⟨quitter, 21000, default, ⟨[⟨"host.quit", 0, ()⟩]⟩, default⟩

/-- The host function quits: the gas is kept and nothing is returned, since nothing was announced. -/
theorem outcome_law_quitter :
    let m : Machine Unit Unit := idle [] ()
    let start := m.enterCall quit quitterRequest .outside
    Reachable quit m ∧ quitterRequest.prepare = .ok (0, [.host 0]) ∧
      m.live.length < quitterRequest.config.maxCallDepth ∧
      ∃ c result, (start.run quit 4).Exits c .aborted 1 ∧
        OutcomeLaw c.storage.block [7] .aborted 1 result ∧
        start.run quit 5 = (start.run quit 4).popCheckpoint.deliver .outside result := by
  have reach : Reachable quit (idle [] () : Machine Unit Unit) := .idle [] ()
  have prepared : quitterRequest.prepare = .ok (0, [.host 0]) := rfl
  have room : (idle [] () : Machine Unit Unit).live.length < quitterRequest.config.maxCallDepth := by
    decide
  have works : ∀ k ≤ 4, (idle [] () : Machine Unit Unit).nextCheckpoint quit ∈
      (((idle [] ()).enterCall quit quitterRequest .outside).run quit k).running := by
    decide +kernel
  have exits : (((idle [] ()).enterCall quit quitterRequest .outside).run quit 4).Exits _
      .aborted 1 := .aborted 1 rfl
  obtain ⟨result, law, step⟩ :=
    ((outcome_law reach rfl prepared room .outside).1 4 works).result _ _ _ exits rfl (by decide)
  exact ⟨reach, prepared, room, _, result, exits, law, step⟩

end Machine

end HostBridge
