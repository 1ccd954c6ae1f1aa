import HostBridge.Drill
import HostBridge.Host.Stock
import HostBridge.Proofs.Signals

/-!
# Aborts are delivered to their own checkpoint

What a capture takes, what it lets pass, and where the signals come from that it takes
(`Machine.Delivers`). A program that holds on to what it has caught is simpler: in it a signal meets
no capture but the one it was raised in, so that an abort which nobody catches goes on at the depth
where it was raised.

* `Script.NeverRethrows` — what a script catches it never throws again, except at once;
* `Machine.Steady` — what every step of such a program keeps;
* `Machine.aborts_delivered` — the laws of delivery, in every reachable state.
-/

set_option autoImplicit false

namespace HostBridge

variable {φ σ : Type} {p : Platform φ σ}

/-! ## Programs that never rethrow -/

namespace Script

/-- The script throws a payload that has been caught, and before that at most puts memory back. -/
def Relays (ticket : Nat) : Script φ σ → Prop
  | .rethrow t => t = ticket
  | .setMemory _ next => next.Relays ticket
  | _ => False

/-- The script throws nothing again that it has caught. A guard may relay what it catches at once,
as if it had not caught it. -/
def NeverRethrows : Script φ σ → Prop
  | .done _ | .panic _ | .abortTo _ _ => True
  | .rethrow _ => False
  | .memory next => ∀ memory, (next memory).NeverRethrows
  | .setMemory _ next | .setShared _ next => next.NeverRethrows
  | .environment next => ∀ env, (next env).NeverRethrows
  | .config next => ∀ config, (next config).NeverRethrows
  | .depth next => ∀ n, (next n).NeverRethrows
  | .shared next => ∀ state, (next state).NeverRethrows
  | .capture _ body next =>
    (∀ cp, (body cp).NeverRethrows) ∧ ∀ result, (next result).NeverRethrows
  | .guard body next =>
    body.NeverRethrows ∧ (∀ answer, (next (.finished answer)).NeverRethrows) ∧
      ∀ ticket panic, (next (.caught ticket panic)).NeverRethrows ∨
        (next (.caught ticket panic)).Relays ticket
  | .call _ next => ∀ result, (next result).NeverRethrows

/-- A call with a memory of its own only relays. -/
theorem callWith_neverRethrows {own : Bytes} {request : CallRequest φ}
    {next : Except BridgeError Outcome → Bytes → Script φ σ}
    (h : ∀ result after, (next result after).NeverRethrows) :
    (callWith own request next).NeverRethrows := by
  intro saved
  refine ⟨?_, fun _ => trivial, fun ticket _ => .inr rfl⟩
  intro result after
  exact h result after

end Script

/-- The drill throws nothing again. -/
def Drill.NeverRethrows {α : Type} : Drill α → Prop
  | .finish | .ret _ | .abort _ _ | .abortRaw _ _ | .panic _ => True
  | .depth next => next.NeverRethrows
  | .capture _ body next | .guard body next => body.NeverRethrows ∧ next.NeverRethrows
  | .rethrow _ => False

theorem Drill.script_neverRethrows {α : Type} (d : Drill α) (scope : List Checkpoint)
    (h : d.NeverRethrows) : (d.script scope).NeverRethrows := by
  induction d generalizing scope with
  | finish | ret v => exact fun _ => trivial
  | depth next ih => exact fun n state => ih scope h
  | capture maxDepth body next ihBody ihNext =>
    refine ⟨fun cp state => ihBody (cp :: scope) h.1, ?_⟩
    intro result
    match result with
    | .error e => exact fun state => ihNext scope h.2
    | .ok (.aborted code) => exact fun state => ihNext scope h.2
    | .ok (.returned answer) => exact fun state state' => ihNext scope h.2
  | abort index code | abortRaw handle code | panic text => trivial
  | guard body next ihBody ihNext =>
    exact ⟨ihBody scope h.1, fun answer state state' => ihNext scope h.2,
      fun ticket panic => .inl fun state state' => ihNext scope h.2⟩
  | rethrow next => exact h.elim

/-- Two captures with a guard between them, of which the inner one is aborted. -/
def Drill.innerAbort : Drill Unit :=
  .capture 8 (.guard (.capture 8 (.abort (-1) 103) .finish) (.depth .finish)) .finish

theorem StockHost.subcall_neverRethrows (modules : List Module) (hosts : Registry StockHost)
    (name : String) (forgiving : Bool) (module : Nat) (gas : Word) (memory : Bytes) :
    (subcall modules hosts name forgiving module gas memory).NeverRethrows := by
  unfold subcall
  split
  · trivial
  · intro env config
    refine Script.callWith_neverRethrows fun result after state => ?_
    cases result with
    | ok outcome => trivial
    | error e => cases forgiving <;> trivial

/-- What follows a call throws nothing again. -/
def Origin.NeverRethrows : Origin φ σ → Prop
  | .outside => True
  | .host _ next => ∀ result, (next result).NeverRethrows

/-- What goes on with a frame throws nothing again. -/
def Frame.NeverRethrows : Frame φ σ → Prop
  | .hostCall c _ _ _ => c.origin.NeverRethrows
  | .captured _ next => ∀ result, (next result).NeverRethrows
  | .guarded next =>
    (∀ answer, (next (.finished answer)).NeverRethrows) ∧
      ∀ ticket panic, (next (.caught ticket panic)).NeverRethrows ∨
        (next (.caught ticket panic)).Relays ticket

/-- No host function throws again what it has caught. -/
def Platform.NeverRethrows (p : Platform φ σ) : Prop :=
  ∀ function args, (p.behaviour function args).NeverRethrows

theorem Script.attempt_neverRethrows {α : Type} (result : Except BridgeError α)
    {next : α → Script φ σ} (h : ∀ x, (next x).NeverRethrows) :
    (attempt result next).NeverRethrows := by
  cases result with
  | ok x => exact h x
  | error e => trivial

/-- The stock functions hold on to nothing they catch. -/
theorem Platform.stock_neverRethrows (space : AddressSpace) (modules : List Module)
    (hosts : Registry StockHost) : (Platform.stock space modules hosts).NeverRethrows := by
  intro f args
  show (StockHost.behaviour modules hosts f args).NeverRethrows
  unfold StockHost.behaviour
  cases f.kind with
  | record => exact fun _ => trivial
  | memory | config => exact fun _ _ => trivial
  | const v | fail text | panic text => trivial
  | append bytes | env field | depth | fetch key => exact fun _ => trivial
  | echo i | sum | cast ty => exact Script.attempt_neverRethrows _ fun _ => trivial
  | stash key => exact Script.attempt_neverRethrows _ fun _ _ => trivial
  | abort =>
    exact Script.attempt_neverRethrows _ fun _ => Script.attempt_neverRethrows _ fun _ => trivial
  | resize fill =>
    refine Script.attempt_neverRethrows _ fun length => ?_
    split
    · trivial
    · exact fun _ => trivial
  | subcall forgiving module gas memory =>
    cases gas with
    | some gas => exact StockHost.subcall_neverRethrows ..
    | none =>
      exact Script.attempt_neverRethrows _ fun gas => StockHost.subcall_neverRethrows ..

/-- No two of the first checkpoints have the same handle in the usual address space. -/
theorem AddressSpace.usual_handleAt_injOn :
    Set.InjOn AddressSpace.usual.handleAt {n | n < 0x100000000} := by
  intro a ha b hb eq
  have bounds : a < 0x100000000 ∧ b < 0x100000000 := ⟨ha, hb⟩
  have places := congrArg BitVec.toNat eq
  simp only [AddressSpace.usual, AddressSpace.sequence, AddressSpace.Zone.start,
    AddressSpace.Zone.size, BitVec.toNat_ofNat] at places
  omega

namespace Machine

/-- A state in a run of a program that never rethrows: a script or a call, on a machine that may
have done anything before. -/
inductive NeverRethrows (p : Platform φ σ) : Machine φ σ → Prop
  | script {m : Machine φ σ} (site : Site) (s : Script φ σ) :
    Reachable p m → m.Rests → s.NeverRethrows → NeverRethrows p (m.goto (.script site s))
  | call {m : Machine φ σ} (request : CallRequest φ) :
    Reachable p m → m.Rests → NeverRethrows p (m.enterCall p request .outside)
  | step {m : Machine φ σ} : NeverRethrows p m → NeverRethrows p (m.step p)

theorem NeverRethrows.reachable {m : Machine φ σ} (h : NeverRethrows p m) : Reachable p m := by
  induction h with
  | script site s reach rests => exact .script site s reach rests
  | call request reach rests => exact .call request reach rests
  | step _ ih => exact .step ih

theorem NeverRethrows.run {m : Machine φ σ} (h : NeverRethrows p m) (n : Nat) :
    NeverRethrows p (m.run p n) := by
  induction n with
  | zero => exact h
  | succ n ih =>
    rw [← step_run]
    exact .step ih

/-! ## The invariant of such programs -/

/-- If a payload is a signal, it was raised under the checkpoints that are live now, against the
innermost of them. -/
def Current (p : Platform φ σ) (m : Machine φ σ) (x : Payload) : Prop :=
  ∀ handle code, x = .signal handle code →
    (∃ cp old, m.live = cp :: old ∧ cp.handle = handle) ∧
      ∃ m₀, Later p m₀ m ∧ m₀.Raises handle code ∧ m₀.live = m.live

/-- What every step of a program keeps that never rethrows. -/
structure Steady (p : Platform φ σ) (m : Machine φ σ) : Prop where
  focus : match m.focus with
    | .code c _ | .leave c _ => c.origin.NeverRethrows
    | .unwind c x => c.origin.NeverRethrows ∧ Current p m x
    | .script _ s =>
      s.NeverRethrows ∨ ∃ ticket, s.Relays ticket ∧ Current p m (m.heldPayload ticket)
    | .unwindScript _ x => Current p m x
    | .halted _ => True
  frames : ∀ f ∈ m.control, f.NeverRethrows

theorem Current.foreign (m : Machine φ σ) (panic : Panic) : Current p m (.foreign panic) := by
  intro handle code eq
  cases eq

/-- As long as the live checkpoints stay the same, a signal stays current. -/
theorem Current.move {m m' : Machine φ σ} {x : Payload} (h : Current p m x) (move : Move p m m')
    (live : m'.live = m.live) : Current p m' x := by
  intro handle code eq
  obtain ⟨innermost, m₀, later, raises, live₀⟩ := h handle code eq
  rw [live]
  exact ⟨innermost, m₀, later.tail move, raises, live₀⟩

/-- A status that is raised is current at once. -/
theorem Current.raise {m m' : Machine φ σ} (move : Move p m m') (live : m'.live = m.live)
    {handle : Addr} {code : Int32Bits} (raises : m.Raises handle code) :
    Current p m' (.raise m.live handle code) := by
  intro handle' code' eq
  obtain ⟨rfl, rfl, innermost⟩ := Payload.raise_eq_signal eq
  rw [live]
  exact ⟨innermost, m, .single move, raises, rfl⟩

/-- A current payload that the innermost checkpoint does not take is no signal. -/
theorem Current.other {m : Machine φ σ} {x : Payload} (h : Current p m x) {cp : Checkpoint}
    {old : List Checkpoint} (live : m.live = cp :: old) (other : ∀ code, x ≠ .signal cp.handle code)
    (m' : Machine φ σ) : Current p m' x := by
  cases x with
  | foreign panic => exact .foreign m' panic
  | signal handle code =>
    obtain ⟨⟨cp', old', live', same⟩, -⟩ := h handle code rfl
    rw [live] at live'
    have own : cp = cp' := (List.cons.inj live').1
    rw [← same, ← own] at other
    exact absurd rfl (other code)

theorem Steady.deliver {m : Machine φ σ} {origin : Origin φ σ} (calm : origin.NeverRethrows)
    (r : Except BridgeError Outcome) (frames : ∀ f ∈ m.control, f.NeverRethrows) :
    Steady p (m.deliver origin r) := by
  cases origin with
  | outside => exact ⟨trivial, frames⟩
  | host site next => exact ⟨.inl (calm r), frames⟩

theorem Steady.enterCall {m : Machine φ σ} {origin : Origin φ σ} (calm : origin.NeverRethrows)
    (request : CallRequest φ) (frames : ∀ f ∈ m.control, f.NeverRethrows) :
    Steady p (m.enterCall p request origin) := by
  unfold Machine.enterCall
  split
  · exact .deliver calm _ frames
  · split
    · exact .deliver calm _ frames
    · simp only
      split <;> exact ⟨calm, frames⟩

theorem Steady.stepDone {m : Machine φ σ} (frames : ∀ f ∈ m.control, f.NeverRethrows) (site : Site)
    (answer : Answer) : Steady p (m.stepDone site answer) := by
  unfold Machine.stepDone
  cases control : m.control with
  | nil => exact ⟨trivial, frames⟩
  | cons frame rest =>
    rw [control] at frames
    obtain ⟨calm, below⟩ := List.forall_mem_cons.1 frames
    cases frame with
    | hostCall c a callee dst =>
      simp only [resume]
      split <;> exact ⟨calm, below⟩
    | captured cp next => exact ⟨.inl (calm _), below⟩
    | guarded next => exact ⟨.inl (calm.1 answer), below⟩

/-- One action of a script that throws nothing again. -/
theorem Steady.stepScript {m : Machine φ σ} {site : Site} {s : Script φ σ}
    (focus : m.focus = .script site s) (calm : s.NeverRethrows)
    (frames : ∀ f ∈ m.control, f.NeverRethrows) : Steady p (m.stepScript p site s) := by
  have move : Move p m (m.stepScript p site s) := by
    have stepped := Move.step (p := p) m
    rwa [step, focus] at stepped
  cases s with
  | done answer => exact .stepDone frames site answer
  | panic text => exact ⟨.foreign _ _, frames⟩
  | abortTo handle code => exact ⟨.raise move rfl (.script site focus), frames⟩
  | rethrow ticket => exact calm.elim
  | memory next => exact ⟨.inl (calm _), frames⟩
  | setMemory memory next => exact ⟨.inl calm, frames⟩
  | environment next => exact ⟨.inl (calm _), frames⟩
  | config next => exact ⟨.inl (calm _), frames⟩
  | depth next => exact ⟨.inl (calm _), frames⟩
  | shared next => exact ⟨.inl (calm _), frames⟩
  | setShared state next => exact ⟨.inl calm, frames⟩
  | capture maxDepth body next =>
    simp only [Machine.stepScript]
    split
    · exact ⟨.inl (calm.2 _), frames⟩
    · exact ⟨.inl (calm.1 _), List.forall_mem_cons.2 ⟨calm.2, frames⟩⟩
  | guard body next => exact ⟨.inl calm.1, List.forall_mem_cons.2 ⟨calm.2, frames⟩⟩
  | call request next =>
    have result : (Origin.host site next).NeverRethrows := calm
    exact .enterCall result request frames

/-- What unwinds is met by nothing that holds it back for later. -/
theorem Steady.stepUnwindScript {m : Machine φ σ} (reach : Reachable p m) {site : Site}
    {x : Payload} (focus : m.focus = .unwindScript site x) (current : Current p m x)
    (frames : ∀ f ∈ m.control, f.NeverRethrows) : Steady p (m.step p) := by
  have move : Move p m (m.step p) := .step m
  cases step_flight (p := p) (.script site focus) with
  | caught site' next rest _ control after =>
    rw [control] at frames
    obtain ⟨calm, below⟩ := List.forall_mem_cons.1 frames
    rw [after] at move ⊢
    refine ⟨?_, below⟩
    rcases calm.2 m.held.length x.panic? with never | relays
    · exact .inl never
    · have held : (m.held ++ [x])[m.held.length]? = some x := List.getElem?_concat_length ..
      refine .inr ⟨_, relays, ?_⟩
      rw [heldPayload, held]
      exact current.move move rfl
  | left site' c a callee dst rest _ control after =>
    rw [control] at frames
    obtain ⟨calm, below⟩ := List.forall_mem_cons.1 frames
    rw [after] at move ⊢
    exact ⟨⟨calm, current.move move rfl⟩, below⟩
  | capture cp next rest control ends =>
    obtain ⟨old, live⟩ := (Reaches.capture site next rest focus control).live reach.balanced
    rw [control] at frames
    obtain ⟨calm, below⟩ := List.forall_mem_cons.1 frames
    cases ends with
    | returned site' answer _ after =>
      rw [after]
      exact ⟨.inl (calm _), below⟩
    | aborted site' code _ after =>
      rw [after]
      exact ⟨.inl (calm _), below⟩
    | passed site' y focus' other after =>
      rw [focus] at focus'
      cases focus'
      rw [after]
      exact ⟨current.other live other _, below⟩
  | call c focus' ends =>
    rw [focus] at focus'
    cases focus'
  | nothingWaits control after =>
    rw [after]
    exact ⟨trivial, frames⟩

theorem Steady.stepUnwind {m : Machine φ σ} (reach : Reachable p m) {c : Call φ σ} {x : Payload}
    (focus : m.focus = .unwind c x) (calm : c.origin.NeverRethrows) (current : Current p m x)
    (frames : ∀ f ∈ m.control, f.NeverRethrows) : Steady p (m.step p) := by
  obtain ⟨old, live⟩ := (Reaches.call c focus rfl).live reach.balanced
  cases step_unwind (p := p) focus with
  | left answer focus' last after =>
    rw [after]
    exact .deliver calm _ frames
  | aborted code focus' after =>
    rw [after]
    exact .deliver calm _ frames
  | passedOut y focus' other origin after =>
    rw [after]
    exact ⟨trivial, frames⟩
  | passed y site next focus' other origin after =>
    rw [focus] at focus'
    cases focus'
    rw [after]
    exact ⟨current.other live other _, frames⟩

/-- A turn of generated code raises nothing but what is current. -/
theorem Steady.stepCode (calls : p.NeverRethrows) {m : Machine φ σ} {c : Call φ σ} {a : Activation}
    (focus : m.focus = .code c a) (calm : c.origin.NeverRethrows)
    (frames : ∀ f ∈ m.control, f.NeverRethrows) : Steady p (m.step p) := by
  have move : Move p m (m.step p) := .step m
  have origin := c.turn_origin a
  have eq : m.step p = m.take p (c.turn a) := by simp only [step, focus, Machine.stepCode]
  rw [← origin] at calm
  rw [eq] at move ⊢
  cases turn : c.turn a with
  | code c' b =>
    rw [turn] at calm
    exact ⟨calm, frames⟩
  | leave c' answer =>
    rw [turn] at calm
    exact ⟨calm, frames⟩
  | abort c' handle code =>
    rw [turn] at calm move
    exact ⟨⟨calm, .raise move rfl (.code c a c' focus turn)⟩, frames⟩
  | host c' b callee dst function args =>
    rw [turn] at calm
    exact ⟨.inl (calls function args), List.forall_mem_cons.2 ⟨calm, frames⟩⟩

/-- **Every step keeps a program steady** that never rethrows. -/
theorem Steady.step (calls : p.NeverRethrows) {m : Machine φ σ} (reach : Reachable p m)
    (h : Steady p m) : Steady p (m.step p) := by
  have calm := h.focus
  cases focus : m.focus with
  | code c a =>
    rw [focus] at calm
    exact .stepCode calls focus calm h.frames
  | leave c answer =>
    rw [focus] at calm
    rw [Machine.step, focus]
    simp only [stepLeave]
    split
    · exact .deliver calm _ h.frames
    · split <;> exact ⟨calm, h.frames⟩
  | unwind c x =>
    rw [focus] at calm
    exact .stepUnwind reach focus calm.1 calm.2 h.frames
  | unwindScript site x =>
    rw [focus] at calm
    exact .stepUnwindScript reach focus calm h.frames
  | halted e =>
    rw [step_of_halted focus]
    exact h
  | script site s =>
    rw [focus] at calm
    have move : Move p m (m.step p) := .step m
    rcases calm with never | ⟨ticket, relays, current⟩
    · rw [Machine.step, focus]
      exact .stepScript focus never h.frames
    · rw [Machine.step, focus] at move ⊢
      cases s with
      | rethrow t =>
        obtain rfl : t = ticket := relays
        exact ⟨current.move move rfl, h.frames⟩
      | setMemory memory next => exact ⟨.inr ⟨ticket, relays, current.move move rfl⟩, h.frames⟩
      | _ => exact relays.elim

theorem NeverRethrows.steady (calls : p.NeverRethrows) {m : Machine φ σ} (h : NeverRethrows p m) :
    Steady p m := by
  induction h with
  | @script m site s reach rests calm =>
    have none : ∀ f ∈ m.control, f.NeverRethrows := by
      rw [rests.control]
      exact List.forall_mem_nil _
    exact ⟨.inl calm, none⟩
  | @call m request reach rests =>
    have none : ∀ f ∈ m.control, f.NeverRethrows := by
      rw [rests.control]
      exact List.forall_mem_nil _
    have outside : (Origin.outside : Origin φ σ).NeverRethrows := trivial
    exact .enterCall outside request none
  | step before ih => exact ih.step calls before.reachable

/-- What unwinds in a program that never rethrows is current. -/
theorem NeverRethrows.current (calls : p.NeverRethrows) {m : Machine φ σ} (h : NeverRethrows p m)
    {x : Payload} (throws : m.Throws x) : Current p m x := by
  have steady := (h.steady calls).focus
  cases throws with
  | script site focus =>
    rw [focus] at steady
    exact steady
  | code c focus =>
    rw [focus] at steady
    exact steady.2

/-! ## The laws of delivery -/

/-- How aborts are delivered, as far as a state and what can come after it go. -/
structure Delivers (p : Platform φ σ) (m : Machine φ σ) : Prop where
  /-- A status that is raised is a signal only against the innermost live checkpoint. -/
  raised : ∀ handle code, m.Raises handle code →
    (m.step p).live = m.live ∧ (m.step p).Throws
      (if m.live.head?.map Checkpoint.handle = some handle then .signal handle code
        else .foreign (.wrongCheckpoint code handle))
  /-- A capture runs until something leaves its body, and this decides how it ends. -/
  captures : ∀ site maxDepth body next,
    m.focus = .script site (.capture maxDepth body next) → m.live.length < maxDepth →
      CaptureRun p (m.step p) (m.nextCheckpoint p) next m.control
  /-- So does a call, which holds a checkpoint too. -/
  calls : m.focus.checkpoints = [] → ∀ request origin ready, request.prepare = .ok ready →
    m.live.length < request.config.maxCallDepth →
      CallRun p (m.enterCall p request origin) request origin (m.nextCheckpoint p) m.control
  /-- What unwinds is caught, goes on as it is, or completes the capture it is a signal to. -/
  flight : ∀ x, m.Throws x → Flight m x (m.step p)
  /-- An abort resumes at the depth where it was raised, unless a guard there catches it. -/
  resumes : ∀ cp old code, m.live = cp :: old → m.Raises cp.handle code →
    cp.depth = old.length ∧ ∃ n ≤ 3, Resumption cp code m (m.run p n)
  /-- What is held is never altered, and thrown again as it is. -/
  held : (∀ m', Later p m m' → m.held <+: m'.held) ∧
    ∀ site ticket x, m.focus = .script site (.rethrow ticket) → m.held[ticket]? = some x →
      (m.step p).Throws x
  /-- A signal was raised, and against the checkpoint that was then the innermost live one. -/
  signals : ∀ handle code, m.Throws (.signal handle code) ∨ .signal handle code ∈ m.held →
    WasRaised p m handle code
  /-- A signal that completes a capture was raised inside it, with the same checkpoints live. -/
  own : Set.InjOn p.handleAt {n | n < m.nextId} → ∀ cp code,
    m.Reaches cp (.signal cp.handle code) → cp.depth = m.live.tail.length ∧
      ∃ m₀, Later p m₀ m ∧ m₀.Raises cp.handle code ∧ m₀.live = m.live
  /-- In a program that never rethrows, a signal reaches no capture but its own. -/
  neverPassed : p.NeverRethrows → NeverRethrows p m → ∀ cp handle code,
    m.Reaches cp (.signal handle code) → handle = cp.handle ∧ cp.depth = m.live.tail.length ∧
      ∃ m₀, Later p m₀ m ∧ m₀.Raises handle code ∧ m₀.live = m.live

/-- The depth of the checkpoint that is reached is what is left when it is given up. -/
theorem Reaches.depth {m : Machine φ σ} (balanced : Balanced m) {cp : Checkpoint} {x : Payload}
    (h : m.Reaches cp x) : cp.depth = m.live.tail.length := by
  obtain ⟨old, live⟩ := h.live balanced
  rw [live, List.tail_cons]
  exact balanced.depth [] cp old live

theorem Reaches.same {m : Machine φ σ} (balanced : Balanced m) {cp : Checkpoint} {handle : Addr}
    {code : Int32Bits} (h : m.Reaches cp (.signal handle code))
    (current : Current p m (.signal handle code)) : handle = cp.handle := by
  obtain ⟨old, live⟩ := h.live balanced
  obtain ⟨⟨cp', old', live', own⟩, -⟩ := current handle code rfl
  rw [live] at live'
  rw [(List.cons.inj live').1, own]

/-- **Aborts are delivered to their own checkpoint only.** -/
theorem aborts_delivered {m : Machine φ σ} (reach : Reachable p m) : Delivers p m where
  raised := fun handle code raises => by
    obtain ⟨throws, live⟩ := step_raises (p := p) raises
    rw [Payload.raise_eq] at throws
    exact ⟨live, throws⟩
  captures := fun site maxDepth body next focus room => by
    refine captureRun ?_
    simp only [step, focus, stepScript, if_neg (Nat.not_le.2 room)]
    rfl
  calls := fun host request origin ready prepared room =>
    enterCall_callRun reach.balanced host prepared room origin
  flight := fun x throws => step_flight throws
  resumes := fun cp old code live raises =>
    ⟨reach.balanced.depth [] cp old live, raise_resumes reach.balanced live raises⟩
  held := by
    refine ⟨fun m' later => later.held, ?_⟩
    intro site ticket x focus there
    have next : m.step p = m.goto (.unwindScript site x) := by
      simp only [step, focus, stepScript, heldPayload, there, Option.getD_some]
    rw [next]
    exact .script site rfl
  signals := reach.raised
  own := fun distinct cp code reaches =>
    ⟨reaches.depth reach.balanced, reaches.raised_here reach distinct⟩
  neverPassed := fun calls program cp handle code reaches => by
    have current := program.current calls reaches.throws
    obtain ⟨-, m₀, later, raises, live⟩ := current handle code rfl
    exact ⟨reaches.same reach.balanced current, reaches.depth reach.balanced, m₀, later, raises,
      live⟩

/-- The abort gets as far as the inner capture, and was raised there. -/
theorem aborts_delivered_inner :
    let p : Platform Empty (Journal Unit) := Drill.platform .usual
    let m := Drill.innerAbort.start.run p 8
    let inner : Checkpoint := ⟨2, 1, p.handleAt 2⟩
    Reachable p m ∧ m.Reaches inner (.signal inner.handle 103) ∧
      Set.InjOn p.handleAt {n | n < m.nextId} ∧ p.NeverRethrows ∧ NeverRethrows p m ∧
      inner.depth = m.live.tail.length ∧
      ∃ m₀, Later p m₀ m ∧ m₀.Raises inner.handle 103 ∧ m₀.live = m.live := by
  have calm : (Drill.innerAbort.script []).NeverRethrows :=
    Drill.innerAbort.script_neverRethrows [] ⟨⟨⟨trivial, trivial⟩, trivial⟩, trivial⟩
  have program : NeverRethrows (Drill.platform .usual)
      (Drill.innerAbort.start.run (Drill.platform .usual) 8) :=
    (NeverRethrows.script _ _ (.idle _ _) (idle_rests _ _) calm).run 8
  have reaches : (Drill.innerAbort.start.run (Drill.platform .usual) 8).Reaches
      ⟨2, 1, AddressSpace.usual.handleAt 2⟩ (.signal (AddressSpace.usual.handleAt 2) 103) :=
    .capture _ _ _ rfl rfl
  have distinct : Set.InjOn AddressSpace.usual.handleAt {n | n < 3} :=
    AddressSpace.usual_handleAt_injOn.mono fun n (bound : n < 3) => Nat.lt_trans bound (by decide)
  have calls : (Drill.platform .usual : Platform Empty (Journal Unit)).NeverRethrows :=
    fun f _ => f.elim
  have delivers := aborts_delivered program.reachable
  exact ⟨program.reachable, reaches, distinct, calls, program,
    (delivers.neverPassed calls program _ _ 103 reaches).2⟩

end Machine

end HostBridge
