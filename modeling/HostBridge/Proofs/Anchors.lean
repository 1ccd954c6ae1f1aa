import HostBridge.Proofs.Pointers

/-!
# Pointers at run time

A value that is read from the slot of a pointer holds what the host has put there when the call
began, in every activation of the call and wherever it is used. Nothing that the code may do to the
runtime block reaches the pointers, and the value has no other definition that could have replaced
it.

* `Inst.effect_anchored` — the effect of an instruction where all values are as the text says;
* `Call.turn_anchored` — the turn of a call in which they are;
* `Machine.Reachable.anchored` — they are in all runs.
-/

set_option autoImplicit false

namespace HostBridge

variable {φ σ : Type}

/-! ## Buffers -/

/-- A buffer of an environment. -/
inductive Buffer where
  | callData
  | code

namespace Buffer

/-- Where an environment has a buffer. -/
def start (env : Environment) : Buffer → Addr
  | callData => env.callDataAt
  | code => env.codeAt

/-- What is in a buffer. -/
def bytes (env : Environment) : Buffer → Bytes
  | callData => env.snapshot.callData
  | code => env.snapshot.code

/-- The region of memory that a buffer is. -/
def region : Buffer → Region
  | callData => .callData
  | code => .code

/-- The slot that holds the address of a buffer. -/
def slot : Buffer → PointerSlot
  | callData => .callData
  | code => .code

/-- The operation that asks for the pointer to a buffer. -/
def emission : Buffer → Emission
  | callData => .callDataPointer
  | code => .codePointer

end Buffer

/-- The block of a new call has the pointers to its buffers. -/
theorem RuntimeBlock.buffer_construct (b : Buffer) {gas : Word} (env : Environment)
    (checkpoint : Addr) : (construct gas env checkpoint).pointer b.slot = b.start env := by
  cases b <;> exact pointer_construct ..

/-! ## What values hold -/

/-- What the code of a call finds in memory: the runtime block at its place, with its pointers. -/
structure Anchor where
  module : Module
  base : Addr
  pointer : PointerSlot → Addr

/-- The anchor of a call. -/
def Call.anchor (c : Call φ σ) : Anchor :=
  ⟨c.request.module, c.storage.base, c.storage.block.pointer⟩

/-- A value is what the text of its function says: the address of a slot, or a pointer. -/
structure Anchor.Suits (g : Anchor) (f : Func) (v : ValueId) (x : Val) : Prop where
  address : ∀ slot, f.Addresses v slot →
    x = .ptr (BitVec.ofNat 64 (g.base.toNat + slot.place.toNat))
  pointer : ∀ slot, f.Reads v slot → x = .ptr (g.pointer slot)

/-- Whether an instruction computes an address or reads memory. -/
def Inst.usesMemory : Inst → Bool
  | ptrOffset _ _ _ | load _ _ _ => true
  | _ => false

/-- The text says nothing of values that other instructions define. -/
theorem Anchor.suits_of_other {g : Anchor} {m : Module} {f : Func} (numbered : f.Numbered m)
    {i : Inst} (here : i ∈ f.insts) (other : i.usesMemory = false) {v : ValueId}
    (dst : i.dst? = some v) (x : Val) : g.Suits f v x where
  address slot addresses := by
    rw [numbered.single here addresses dst rfl] at other
    cases other
  pointer slot reads := by
    obtain ⟨addr, -, load⟩ := reads
    rw [numbered.single here load dst rfl] at other
    cases other

/-! ## Activations -/

/-- An activation has its handle, and all values that it has are what the text says. -/
structure Activation.Anchored (g : Anchor) (a : Activation) : Prop where
  stands : a.Stands g.module
  handle : a.values[a.function.role.runtimeParam]? = some (some (.ptr g.base))
  known : ∀ v x, a.values[v]? = some (some x) → g.Suits a.function v x

/-- An activation that waits for the result of a call is anchored now and will be then. -/
def Anchor.Waits (g : Anchor) (w : Activation × Option ValueId) : Prop :=
  w.1.Anchored g ∧ ∀ x, (w.1.receive w.2 x).Anchored g

namespace Activation.Anchored

variable {g : Anchor} {a : Activation} {i : Inst} {rest : List Inst}

theorem numbered (h : a.Anchored g) (orderly : g.module.Orderly) : a.function.Numbered g.module :=
  orderly.numbered _ h.stands.function

/-- The activation after an instruction that leaves its values alone. -/
theorem next (h : a.Anchored g) (here : a.rest = i :: rest) : { a with rest := rest }.Anchored g :=
  ⟨h.stands.next here rfl, h.handle, h.known⟩

/-- The activation after an instruction, with a result if the instruction has one. -/
theorem receive (h : a.Anchored g) (orderly : g.module.Orderly) (here : a.rest = i :: rest)
    (x : Option Val) (fits : ∀ v y, i.dst? = some v → x = some y → g.Suits a.function v y) :
    ({ a with rest := rest }.receive i.dst? x).Anchored g := by
  cases dst : i.dst? with
  | none => exact h.next here
  | some v =>
    have wf := orderly.wellFormed.functions _ h.stands.function
    have behind := ((h.numbered orderly).dst_bounds wf (h.stands.mem_insts here) dst).1
    have other : v ≠ a.function.role.runtimeParam :=
      Nat.ne_of_gt (Nat.lt_of_lt_of_le wf.runtimeParam_lt behind)
    refine ⟨(h.stands.next here rfl).receive (some v) x, ?_, ?_⟩
    · exact (List.getElem?_set_ne other).trans h.handle
    · intro w y there
      change (a.values.set v x)[w]? = some (some y) at there
      by_cases same : v = w
      · subst same
        rw [List.getElem?_set_self'] at there
        obtain ⟨_, -, eq⟩ := Option.map_eq_some_iff.1 there
        exact fits v y dst eq
      · rw [List.getElem?_set_ne same] at there
        exact h.known w y there

/-- The activation while it waits for the result of an instruction that uses no memory. -/
theorem waits (h : a.Anchored g) (orderly : g.module.Orderly) (here : a.rest = i :: rest)
    (other : i.usesMemory = false) : g.Waits ({ a with rest := rest }, i.dst?) :=
  ⟨h.next here, fun x => h.receive orderly here x fun _ y dst _ =>
    Anchor.suits_of_other (h.numbered orderly) (h.stands.mem_insts here) other dst y⟩

/-- A function that is given the address of the runtime block, and no more arguments than it has
parameters, knows nothing else. -/
theorem start (orderly : g.module.Orderly) {f : Func} {args : List Val}
    (mem : f ∈ g.module.functions) (arg : args[f.role.runtimeParam]? = some (.ptr g.base))
    (few : args.length ≤ f.signature.params.length) (started : Activation.start f args = .ok a) :
    a.Anchored g := by
  obtain ⟨function, values, -⟩ := start_ok started
  have wf := orderly.wellFormed.functions f mem
  have bound := Nat.lt_of_lt_of_le wf.runtimeParam_lt wf.params_le
  refine ⟨.start mem started, ?_, ?_⟩
  · rw [function, values]
    exact (initial_eq ..).2 ⟨arg, bound⟩
  · intro v x there
    rw [values, initial_eq] at there
    have param : v < f.signature.params.length :=
      Nat.lt_of_lt_of_le (List.getElem?_eq_some_iff.1 there.1).1 few
    have undefined {i : Inst} (mem' : i ∈ f.insts) (dst : i.dst? = some v) : False :=
      Nat.not_lt.2 ((orderly.numbered f mem).dst_bounds wf mem' dst).1 param
    rw [function]
    refine ⟨fun slot addresses => (undefined addresses rfl).elim, fun slot reads => ?_⟩
    obtain ⟨_, -, load⟩ := reads
    exact (undefined load rfl).elim

end Activation.Anchored

/-! ## Effects -/

/-- The storage of a call: its block fits into the address space and has its pointers. -/
structure Storage.Anchored (g : Anchor) (s : Storage) : Prop where
  base : s.base = g.base
  fits : s.Fits
  pointer : ∀ slot, s.block.pointer slot = g.pointer slot

/-- What may come of an instruction. -/
def EffectAnchored (g : Anchor) (s : Storage) (a : Activation) (i : Inst) : Effect → Prop
  | .define dst x => i.dst? = some dst ∧ g.Suits a.function dst x
  | .write s' => i.dst? = none ∧ s'.env = s.env ∧ s'.Anchored g
  | .call dst callee xs => ∃ vs, i = .call dst callee vs ∧ a.readAll vs = .ok xs
  | .callExtern dst callee _ => ∃ vs, i = .callExtern dst callee vs
  | .goto _ | .leave _ => True

/-- What an instruction defines is what the text says of it, and it leaves the pointers in the block
as they are. -/
theorem Inst.effect_anchored {g : Anchor} {s : Storage} {a : Activation} {i : Inst} {e : Effect}
    (orderly : g.module.Orderly) (keeps : g.module.KeepsPointers) (h : a.Anchored g)
    (anchored : s.Anchored g) (here : i ∈ a.function.insts) (done : i.effect s a = .ok e) :
    EffectAnchored g s a i e := by
  have numbered := h.numbered orderly
  have other (plain : i.usesMemory = false) {dst : ValueId} (defines : i.dst? = some dst)
      (x : Val) : EffectAnchored g s a i (.define dst x) :=
    ⟨defines, Anchor.suits_of_other numbered here plain defines x⟩
  cases i with
  | const dst value | constI32 dst value =>
    cases done
    exact other rfl rfl _
  | ptrOffset dst base offset =>
    simp only [effect, bind_eq_ok] at done
    obtain ⟨x, read, addr, pointer, done⟩ := done
    split at done <;> cases done
    rename_i reached
    refine ⟨rfl, fun slot addresses => ?_, fun slot reads => ?_⟩
    · cases numbered.single here addresses rfl rfl
      rw [Activation.read_ok, h.handle] at read
      cases read
      cases pointer
      exact congrArg Val.ptr (Addr.eq_of_add? reached)
    · obtain ⟨_, -, loads⟩ := reads
      cases numbered.single here loads rfl rfl
  | load dst ty addr =>
    simp only [effect, bind_eq_ok] at done
    obtain ⟨x, read, place, pointer, y, loaded, done⟩ := done
    cases done
    refine ⟨rfl, fun slot addresses => ?_, fun slot reads => ?_⟩
    · cases numbered.single here addresses rfl rfl
    · obtain ⟨_, addresses, loads⟩ := reads
      cases numbered.single here loads rfl rfl
      rw [(h.known _ x (Activation.read_ok.1 read)).address _ addresses] at pointer
      cases pointer
      rw [← anchored.base] at loaded
      have content := Storage.load_slot anchored.fits (.pointer slot)
      rw [Storage.slotAt, Slot.ty, loaded] at content
      cases content
      rw [Storage.content, anchored.pointer]
  | store addr value =>
    simp only [effect, bind_eq_ok] at done
    obtain ⟨x, read, place, pointer, y, -, s', stored, done⟩ := done
    cases done
    obtain ⟨field, addresses⟩ := keeps.stores _ h.stands.function addr value here
    rw [(h.known _ x (Activation.read_ok.1 read)).address _ addresses] at pointer
    cases pointer
    rw [← anchored.base] at stored
    obtain ⟨block, same, pointers⟩ := Storage.store_pointers anchored.fits field y
    rw [Storage.slotAt, stored] at same
    cases same
    exact ⟨rfl, rfl, anchored.base, anchored.fits, fun slot =>
      (pointers slot).trans (anchored.pointer slot)⟩
  | loadByte dst base index =>
    simp only [effect, bind_eq_ok] at done
    obtain ⟨-, -, -, -, -, -, -, -, w, -, done⟩ := done
    cases done
    exact other rfl rfl _
  | binary dst op lhs rhs =>
    simp only [effect, bind_eq_ok] at done
    obtain ⟨-, -, x, -, -, -, y, -, done⟩ := done
    cases done
    exact other rfl rfl _
  | call dst callee args =>
    simp only [effect, bind_eq_ok] at done
    obtain ⟨xs, read, done⟩ := done
    cases done
    exact ⟨args, rfl, read⟩
  | callExtern dst callee args =>
    simp only [effect, bind_eq_ok] at done
    obtain ⟨xs, -, done⟩ := done
    cases done
    exact ⟨args, rfl⟩
  | jump target =>
    cases done
    trivial
  | branch cond thenBlock elseBlock =>
    simp only [effect, bind_eq_ok] at done
    obtain ⟨-, -, w, -, done⟩ := done
    cases done
    trivial
  | ret value =>
    cases value with
    | none =>
      cases done
      trivial
    | some v =>
      simp only [effect, bind_eq_ok] at done
      obtain ⟨x, -, done⟩ := done
      cases done
      trivial
  | unreachable => cases done

/-! ## Calls -/

/-- A call in whose block the pointers are what the host has put there, and in which all activations
that wait are anchored. -/
structure Call.Anchored (c : Call φ σ) : Prop where
  fits : c.storage.Fits
  buffers : ∀ b : Buffer, c.storage.block.pointer b.slot = b.start c.storage.env
  waiting : ∀ w ∈ c.waiting, c.anchor.Waits w

/-- What the turn of an anchored call comes to. -/
def TurnAnchored : Turn φ σ → Prop
  | .code c a => c.Anchored ∧ a.Anchored c.anchor
  | .leave c _ => c.Anchored
  | .abort c _ _ => c.Anchored
  | .host c a _ dst _ _ => c.Anchored ∧ c.anchor.Waits (a, dst)

namespace Call

variable {c : Call φ σ} {a : Activation}

/-- A write that leaves the pointers alone leaves everything in its place. -/
theorem Anchored.write (h : c.Anchored) {s : Storage} (env : s.env = c.storage.env)
    (anchored : s.Anchored c.anchor) :
    { c with storage := s }.anchor = c.anchor ∧ { c with storage := s }.Anchored := by
  have pointers : s.block.pointer = c.storage.block.pointer := funext anchored.pointer
  have same : { c with storage := s }.anchor = c.anchor := by
    simp only [anchor, pointers, anchored.base]
  refine ⟨same, anchored.fits, fun b => ?_, ?_⟩
  · rw [pointers, env]
    exact h.buffers b
  · rw [same]
    exact h.waiting

/-- The function that is called gets its handle from its caller. -/
theorem Anchored.activate (orderly : c.anchor.module.Orderly)
    (keeps : c.anchor.module.KeepsPointers) (ha : a.Anchored c.anchor) {dst : Option ValueId}
    {callee : FuncId} {vs : List ValueId}
    (here : .call dst callee vs ∈ a.function.insts) {xs : List Val} (read : a.readAll vs = .ok xs)
    {b : Activation} (activated : c.activate callee xs = .ok b) :
    b.Anchored c.anchor := by
  obtain ⟨f, there, started⟩ := activate_ok activated
  obtain ⟨g, there', arg, few⟩ := keeps.calls _ ha.stands.function dst callee vs here
  obtain rfl := Option.some.inj (there.symm.trans there')
  have values := Activation.readAll_ok.1 read
  obtain ⟨x, given, value⟩ := forall₂_getElem? values.flip arg
  have same : x = .ptr c.anchor.base := by
    rw [ha.handle] at value
    exact (Option.some.inj (Option.some.inj value)).symm
  exact .start orderly (List.mem_iff_getElem?.2 ⟨_, there⟩) (same ▸ given)
    (values.length_eq ▸ few) started

theorem obey_anchored (orderly : c.anchor.module.Orderly) (keeps : c.anchor.module.KeepsPointers)
    (hc : c.Anchored) (ha : a.Anchored c.anchor) {i : Inst} {rest : List Inst}
    (here : a.rest = i :: rest) {e : Effect} (effect : EffectAnchored c.anchor c.storage a i e) :
    TurnAnchored (c.obey { a with rest := rest } e) := by
  have mem := ha.stands.mem_insts here
  cases e with
  | define dst x =>
    obtain ⟨defines, suits⟩ := effect
    have after := ha.receive orderly here (some x) fun v y dst' eq => by
      cases eq
      cases defines.symm.trans dst'
      exact suits
    rw [defines] at after
    exact ⟨hc, after⟩
  | write s =>
    obtain ⟨-, env, anchored⟩ := effect
    obtain ⟨same, after⟩ := hc.write env anchored
    exact ⟨after, same ▸ ha.next here⟩
  | goto target =>
    simp only [obey, Activation.enter]
    split
    · rename_i b entered
      split at entered <;> cases entered
      rename_i code there
      exact ⟨hc, ha.stands.goto there, ha.handle, ha.known⟩
    · exact hc
  | leave v => exact hc
  | call dst callee xs =>
    obtain ⟨vs, rfl, read⟩ := effect
    simp only [obey]
    split
    · rename_i b activated
      have waiting := List.forall_mem_cons.2 ⟨ha.waits orderly here rfl, hc.waiting⟩
      exact ⟨⟨hc.fits, hc.buffers, waiting⟩,
        Anchored.activate orderly keeps ha mem read activated⟩
    · exact hc
  | callExtern dst callee xs =>
    obtain ⟨vs, rfl⟩ := effect
    simp only [obey]
    split
    · exact hc
    · exact hc
    · exact ⟨hc, ha.waits orderly here rfl⟩

/-- A turn of generated code leaves the pointers as they are, and all values as the text says. -/
theorem turn_anchored (orderly : c.anchor.module.Orderly) (keeps : c.anchor.module.KeepsPointers)
    (hc : c.Anchored) (ha : a.Anchored c.anchor) : TurnAnchored (c.turn a) := by
  have anchored : c.storage.Anchored c.anchor := ⟨rfl, hc.fits, fun _ => rfl⟩
  unfold turn
  split
  · exact hc
  · rename_i i rest here
    split
    · rename_i e done
      exact obey_anchored orderly keeps hc ha here
        (Inst.effect_anchored orderly keeps ha anchored (ha.stands.mem_insts here) done)
    · exact hc

end Call

/-! ## Runs -/

variable {p : Platform φ σ}

/-- What the code of a module has to be for its pointers to be right. -/
def Module.Anchorable (m : Module) : Prop := m.Orderly ∧ m.KeepsPointers

/-- In a call of a module that keeps its pointers, they are right. -/
def anchoring (φ σ : Type) : CallInvariant φ σ where
  code c a := c.request.module.Anchorable → c.Anchored ∧ a.Anchored c.anchor
  leave c _ := c.request.module.Anchorable → c.Anchored
  unwind c := c.request.module.Anchorable → c.Anchored
  awaits c a _ dst := c.request.module.Anchorable → c.Anchored ∧ c.anchor.Waits (a, dst)
  accepts _ _ _ := True

/-- A call starts with the pointers of its environment, and with the address of its block as second
argument of the entry function. -/
theorem anchoring_start (fits : p.BlocksFit) (request : CallRequest φ) {entry : FuncId}
    {bindings : List Binding} (cp : Checkpoint) (origin : Origin φ σ)
    (prepared : request.prepare = .ok (entry, bindings)) (able : request.module.Anchorable) :
    let c := Machine.newCall p request bindings cp origin
    c.Anchored ∧ ∀ a, c.activate entry (Machine.entryArgs c) = .ok a → a.Anchored c.anchor := by
  intro c
  refine ⟨⟨fits _, fun b => RuntimeBlock.buffer_construct b .., fun _ mem => by cases mem⟩, ?_⟩
  intro a activated
  obtain ⟨f, there, started⟩ := Call.activate_ok activated
  obtain ⟨-, declared, -⟩ := CallRequest.prepare_ok prepared
  obtain ⟨g, there', role⟩ := able.1.wellFormed.entry entry declared
  obtain ⟨g', there'', signature⟩ := able.1.wellFormed.entry_signature declared
  obtain rfl := Option.some.inj (there.symm.trans there')
  obtain rfl := Option.some.inj (there.symm.trans there'')
  exact .start able.1 (List.mem_iff_getElem?.2 ⟨_, there⟩) (by rw [role]; rfl)
    (by rw [signature]; exact Nat.le_refl _) started

theorem anchoring_stable (fits : p.BlocksFit) : (anchoring φ σ).Stable p where
  start := fun request entry bindings cp origin prepared =>
    ⟨fun a activated able =>
      have ⟨call, activation⟩ := anchoring_start fits request cp origin prepared able
      ⟨⟨call.fits, call.buffers, call.waiting⟩, activation a activated⟩,
    fun _ able => (anchoring_start fits request cp origin prepared able).1⟩
  turn := fun c a code => by
    have request := c.turn_request a
    have anchored : c.request.module.Anchorable → TurnAnchored (c.turn a) := fun able =>
      Call.turn_anchored able.1 able.2 (code able).1 (code able).2
    cases turn : c.turn a <;> rw [turn] at request anchored <;> rw [← request] at anchored
    case code => exact anchored
    case leave => exact anchored
    case abort => exact anchored
    case host => exact ⟨anchored, Script.answers_of_forall (fun _ => trivial) _⟩
  back := fun c v a dst waiting leave eq able => by
    have ⟨fits, buffers, waits⟩ := leave able
    rw [eq] at waits
    exact ⟨⟨fits, buffers, fun w mem => waits w (List.mem_cons_of_mem _ mem)⟩,
      (waits _ List.mem_cons_self).2 v⟩
  fail := fun c e a dst waiting leave eq able => by
    have ⟨fits, buffers, waits⟩ := leave able
    rw [eq] at waits
    exact ⟨fits, buffers, fun w mem => waits w (List.mem_cons_of_mem _ mem)⟩
  resume := fun c a callee dst v awaits _ _ able => ⟨(awaits able).1, (awaits able).2.2 v⟩
  resumeFail := fun c a callee dst e awaits able => (awaits able).1
  unwind := fun c a callee dst awaits able => (awaits able).1

/-- **Whatever runs on the machine, the pointers are right** in every activation of a module that
keeps them. -/
theorem Machine.Reachable.anchored (fits : p.BlocksFit) {m : Machine φ σ} (reach : Reachable p m)
    {c : Call φ σ} {a : Activation} (focus : m.focus = .code c a)
    (orderly : c.request.module.Orderly) (keeps : c.request.module.KeepsPointers) :
    c.Anchored ∧ a.Anchored c.anchor := by
  have holds := (CallInvariant.holds (anchoring_stable fits) reach).focus
  rw [focus] at holds
  exact holds.1 ⟨orderly, keeps⟩

end HostBridge
