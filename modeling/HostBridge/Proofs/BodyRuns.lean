import HostBridge.Proofs.BodyChecks
import HostBridge.Proofs.Calls
import HostBridge.Proofs.Slots
import HostBridge.Proofs.Unwinding

/-!
# Bodies run

The code of a body does what its interpretation says. While it runs, an activation `Tracks` the
interpretation: its values hold the words given so far, and the runtime block holds the fields. Each
operation keeps that up (`WordOp.leads`, `FieldOp.leads`), so by induction on the body a call leaves
its code with the outcome of the interpretation (`Body.leads`).

* `Machine.body_refines` — emission, verification and execution of all bodies.
-/

set_option autoImplicit false

namespace HostBridge

variable {φ σ : Type}

/-! ## Turns one after the other -/

/-- What a turn comes to does not depend on what had control. -/
theorem Machine.take_goto (p : Platform φ σ) (m : Machine φ σ) (focus : Focus φ σ)
    (t : Turn φ σ) : (m.goto focus).take p t = m.take p t := by
  cases t <;> rfl

namespace Activation

/-- The activation after an instruction that has defined a value. -/
def having (a : Activation) (rest : List Inst) (v : ValueId) (x : Val) : Activation :=
  { a with rest := rest }.assign v (some x)

variable {a : Activation} {rest : List Inst} {v : ValueId} {x : Val}

@[simp] theorem length_having : (a.having rest v x).values.length = a.values.length := by
  simp [having, assign]

theorem having_self (room : v < a.values.length) :
    (a.having rest v x).values[v]? = some (some x) := by
  simp [having, assign, room]

theorem having_of_ne {w : ValueId} (other : w ≠ v) :
    (a.having rest v x).values[w]? = a.values[w]? := by
  simp [having, assign, Ne.symm other]

theorem read_having (room : v < a.values.length) : (a.having rest v x).read v = .ok x :=
  read_ok.2 (having_self room)

/-- The same function further on in its block, where `rest` is still to come. -/
structure Follows (b a : Activation) (rest : List Inst) : Prop where
  function : b.function = a.function
  length : b.values.length = a.values.length
  rest : b.rest = rest

theorem having_follows : (a.having rest v x).Follows a rest := ⟨rfl, length_having, rfl⟩

theorem Follows.trans {b d : Activation} {rest' : List Inst} (h : d.Follows b rest')
    (before : b.Follows a rest) : d.Follows a rest' :=
  ⟨h.function.trans before.function, h.length.trans before.length, h.rest⟩

end Activation

/-- Generated code goes on by itself for `n` turns, which change nothing about its call. -/
inductive Call.Goes (c : Call φ σ) : Nat → Activation → Activation → Prop
  | refl (a : Activation) : Goes c 0 a a
  | more {n : Nat} {a b d : Activation} : c.turn a = .code c b → Goes c n b d → Goes c (n + 1) a d

namespace Call.Goes

variable {c : Call φ σ} {k n : Nat} {a b d : Activation}

theorem trans (first : c.Goes k a b) (second : c.Goes n b d) : c.Goes (k + n) a d := by
  induction first with
  | refl a =>
    rw [Nat.zero_add]
    exact second
  | more turn _ ih =>
    rw [Nat.succ_add]
    exact .more turn (ih second)

/-- An instruction that defines a value. -/
theorem define {i : Inst} {rest : List Inst} {dst : ValueId} {v : Val} (next : a.rest = i :: rest)
    (effect : i.effect c.storage a = .ok (.define dst v)) : c.Goes 1 a (a.having rest dst v) := by
  refine .more ?_ (.refl _)
  simp only [Call.turn, next, effect, Call.obey, Activation.having]

/-- An instruction that goes to another block. -/
theorem goto {i : Inst} {rest insts : List Inst} {target : BlockId} (next : a.rest = i :: rest)
    (effect : i.effect c.storage a = .ok (.goto target))
    (there : a.function.blocks[target]? = some insts) :
    c.Goes 1 a { a with block := target, rest := insts } := by
  refine .more ?_ (.refl _)
  simp only [Call.turn, next, effect, Call.obey, Activation.enter, there]

/-- The machine makes as many steps. -/
theorem run (h : c.Goes n a b) (p : Platform φ σ) (m : Machine φ σ) :
    (m.goto (.code c a)).run p n = m.goto (.code c b) := by
  induction h with
  | refl a => rw [Machine.run]
  | @more n a b d turn _ ih =>
    have first : (m.goto (.code c a)).step p = m.goto (.code c b) := by
      show (m.goto (.code c a)).take p (c.turn a) = _
      rw [turn]
      rfl
    rw [Machine.run_succ, first, ih]

end Call.Goes

/-- Generated code goes on by itself until it comes to a turn that satisfies `T`. -/
inductive Call.Leads (T : Turn φ σ → Prop) : Call φ σ → Activation → Prop
  | last {c : Call φ σ} {a : Activation} : T (c.turn a) → Leads T c a
  | more {c c' : Call φ σ} {a a' : Activation} :
    c.turn a = .code c' a' → Leads T c' a' → Leads T c a

namespace Call.Leads

variable {T : Turn φ σ → Prop} {c : Call φ σ} {a : Activation}

/-- The machine makes as many steps as it takes. -/
theorem run (p : Platform φ σ) (h : Leads T c a) :
    ∃ n t, T t ∧ ∀ m : Machine φ σ, (m.goto (.code c a)).run p n = m.take p t := by
  induction h with
  | last reached =>
    refine ⟨1, _, reached, ?_⟩
    intro m
    rw [Machine.run_succ, Machine.run]
    exact Machine.take_goto ..
  | @more c c' a a' turn _ ih =>
    obtain ⟨n, t, reached, runs⟩ := ih
    refine ⟨n + 1, t, reached, ?_⟩
    intro m
    have first : (m.goto (.code c a)).step p = m.goto (.code c' a') := by
      show (m.goto (.code c a)).take p (c.turn a) = _
      rw [turn]
      rfl
    rw [Machine.run_succ, first, runs]

variable {i : Inst} {rest : List Inst}

theorem of_goes {n : Nat} {b : Activation} (goes : c.Goes n a b) (h : Leads T c b) :
    Leads T c a := by
  induction goes with
  | refl a => exact h
  | more turn _ ih => exact .more turn (ih h)

/-- An instruction that defines a value. -/
theorem define {dst : ValueId} {v : Val} (next : a.rest = i :: rest)
    (effect : i.effect c.storage a = .ok (.define dst v)) (h : Leads T c (a.having rest dst v)) :
    Leads T c a :=
  of_goes (.define next effect) h

/-- An instruction that writes to memory. -/
theorem write {storage : Storage} (next : a.rest = i :: rest)
    (effect : i.effect c.storage a = .ok (.write storage))
    (h : Leads T { c with storage := storage } { a with rest := rest }) : Leads T c a := by
  refine .more ?_ h
  simp only [Call.turn, next, effect, Call.obey]

end Call.Leads

/-! ## The state of an interpretation -/

/-- The words given so far and the fields, as a call has them before it defines the value `next`. -/
structure Tracks (c : Call φ σ) (a : Activation) {n : Nat} (vs : Vector ValueId n)
    (next : ValueId) (ws : Vector Word n) (m : Fields) : Prop where
  fits : c.storage.Fits
  handle : entryHandle < next ∧ a.values[entryHandle]? = some (some (.ptr c.storage.base))
  words : ∀ i : Fin n, vs.get i < next ∧ a.values[vs.get i]? = some (some (.word (ws.get i)))
  fields : c.storage.block.get = m
  checkpoint : c.storage.block.pointer .checkpoint = c.checkpoint.handle

namespace Tracks

variable {c : Call φ σ} {a : Activation} {n : Nat} {vs : Vector ValueId n} {next : ValueId}
  {ws : Vector Word n} {m : Fields}

/-- The words may be forgotten. -/
theorem forget (h : Tracks c a vs next ws m) : Tracks c a #v[] next #v[] m :=
  ⟨h.fits, h.handle, fun i => i.elim0, h.fields, h.checkpoint⟩

/-- All words but one may be forgotten. -/
theorem keep (h : Tracks c a vs next ws m) (i : Fin n) :
    Tracks c a #v[vs.get i] next #v[ws.get i] m := by
  refine ⟨h.fits, h.handle, ?_, h.fields, h.checkpoint⟩
  intro j
  rw [Fin.fin_one_eq_zero j]
  exact h.words i

/-- Values may be left out. -/
theorem skip (h : Tracks c a vs next ws m) {later : ValueId} (le : next ≤ later) :
    Tracks c a vs later ws m where
  fits := h.fits
  handle := ⟨Nat.lt_of_lt_of_le h.handle.1 le, h.handle.2⟩
  words := fun i => ⟨Nat.lt_of_lt_of_le (h.words i).1 le, (h.words i).2⟩
  fields := h.fields
  checkpoint := h.checkpoint

/-- What has been defined does not depend on what is still to come. -/
theorem elsewhere (h : Tracks c a vs next ws m) (block : BlockId) (rest : List Inst) :
    Tracks c { a with block := block, rest := rest } vs next ws m :=
  ⟨h.fits, h.handle, h.words, h.fields, h.checkpoint⟩

/-- A new value disturbs nothing. -/
theorem having (h : Tracks c a vs next ws m) (rest : List Inst) (x : Val) :
    Tracks c (a.having rest next x) vs (next + 1) ws m where
  fits := h.fits
  handle := by
    obtain ⟨old, there⟩ := h.handle
    refine ⟨Nat.lt_succ_of_lt old, ?_⟩
    rw [Activation.having_of_ne (Nat.ne_of_lt old), there]
  words := by
    intro i
    obtain ⟨old, there⟩ := h.words i
    refine ⟨Nat.lt_succ_of_lt old, ?_⟩
    rw [Activation.having_of_ne (Nat.ne_of_lt old), there]
  fields := h.fields
  checkpoint := h.checkpoint

/-- A value that holds a word counts as given. -/
theorem push (h : Tracks c a vs next ws m) {v : ValueId} {w : Word} (old : v < next)
    (there : a.values[v]? = some (some (.word w))) : Tracks c a (vs.push v) next (ws.push w) m where
  fits := h.fits
  handle := h.handle
  words := forall₂_push (R := fun v w => v < next ∧ a.values[v]? = some (some (.word w))) h.words
    ⟨old, there⟩
  fields := h.fields
  checkpoint := h.checkpoint

/-- A field that is written in the block is written in the fields. -/
theorem put (h : Tracks c a vs next ws m) (field : RuntimeField) (w : Word) :
    Tracks { c with storage := { c.storage with block := c.storage.block.set field w } } a vs next
      ws (Function.update m field w) where
  fits := h.fits
  handle := h.handle
  words := h.words
  fields := by
    rw [← h.fields]
    exact RuntimeBlock.get_set field w
  checkpoint := by
    rw [← h.checkpoint]
    exact RuntimeBlock.pointer_set ..

end Tracks

/-! ## Passages -/

section

variable {T : Turn φ σ → Prop} {c : Call φ σ} {a : Activation} {n : Nat} {vs : Vector ValueId n}
  {next : ValueId} {ws : Vector Word n} {m : Fields} {code : List Inst}

/-- The address of a slot is defined. -/
theorem Passage.address_goes (h : Tracks c a vs next ws m) (slot : Slot) (code : List Inst)
    (rest : a.rest = (address entryHandle next slot).insts ++ code) :
    c.Goes 1 a (a.having code next (.ptr (c.storage.slotAt slot))) := by
  have handle : a.read entryHandle = .ok (.ptr c.storage.base) := Activation.read_ok.2 h.handle.2
  exact .define rest (Inst.effect_place h.fits handle next slot)

/-- The slot is read. -/
theorem Passage.fetch_goes (h : Tracks c a vs next ws m) (slot : Slot)
    (room : next < a.values.length)
    (rest : a.rest = (fetch entryHandle next slot.ty slot).insts ++ code) :
    ∃ rest', c.Goes 2 a ((a.having rest' next (.ptr (c.storage.slotAt slot))).having
      code (next + 1) (c.storage.content slot)) := by
  let rest' := .load (next + 1) slot.ty next :: code
  let b := a.having rest' next (.ptr (c.storage.slotAt slot))
  have addr : b.read next = .ok (.ptr (c.storage.slotAt slot)) := Activation.read_having room
  have effect : (Inst.load (next + 1) slot.ty next).effect c.storage b =
      .ok (.define (next + 1) (c.storage.content slot)) := by
    simp only [Inst.effect, addr]
    show (c.storage.load slot.ty (c.storage.slotAt slot) >>= _) = _
    rw [Storage.load_slot h.fits]
    rfl
  exact ⟨rest', (address_goes h slot rest' rest).trans (.define rfl effect)⟩

theorem Passage.fetch_leads (h : Tracks c a vs next ws m) (slot : Slot)
    (room : next < a.values.length)
    (rest : a.rest = (fetch entryHandle next slot.ty slot).insts ++ code)
    (onward : ∀ rest', Call.Leads T c ((a.having rest' next (.ptr (c.storage.slotAt slot))).having
      code (next + 1) (c.storage.content slot))) :
    Call.Leads T c a := by
  obtain ⟨rest', goes⟩ := fetch_goes h slot room rest
  exact .of_goes goes (onward rest')

/-- The field is written. -/
theorem Passage.put_leads (h : Tracks c a vs next ws m) (field : RuntimeField) (v : Fin n)
    (room : next < a.values.length)
    (rest : a.rest = (put entryHandle next field (vs.get v)).insts ++ code)
    (onward : ∀ storage a', Tracks { c with storage := storage } a' vs (next + 1) ws
        (Function.update m field (ws.get v)) →
      a'.rest = code → a'.values.length = a.values.length →
      Call.Leads T { c with storage := storage } a') : Call.Leads T c a := by
  obtain ⟨old, word⟩ := h.words v
  let pointer := Val.ptr (c.storage.slotAt (.word field))
  let rest' := Inst.store next (vs.get v) :: code
  let b := a.having rest' next pointer
  have addr : b.read next = .ok pointer := Activation.read_having room
  have value : b.read (vs.get v) = .ok (.word (ws.get v)) := by
    rw [Activation.read_ok, Activation.having_of_ne (Nat.ne_of_lt old), word]
  have effect : (Inst.store next (vs.get v)).effect c.storage b = .ok (.write
      { c.storage with block := c.storage.block.set field (ws.get v) }) := by
    simp only [Inst.effect, addr, value]
    show (c.storage.store (c.storage.slotAt (.word field)) (.word (ws.get v)) >>= _) = _
    rw [Storage.store_word h.fits]
    rfl
  have tracks := (h.having code pointer).put field (ws.get v)
  refine .of_goes (address_goes h (.word field) rest' rest) (.write rfl effect ?_)
  exact onward _ _ tracks rfl (Activation.length_having ..)

/-! ## Operations -/

/-- What is read from a field is what the interpretation has there. -/
theorem Passage.read_goes (h : Tracks c a vs next ws m) (field : RuntimeField)
    (room : next + 2 ≤ a.values.length)
    (rest : a.rest = (fetch entryHandle next .word (.word field)).insts ++ code) :
    ∃ b, c.Goes 2 a b ∧ Tracks c b (vs.push (next + 1)) (next + 2) (ws.push (m field)) m ∧
      b.Follows a code := by
  obtain ⟨rest', goes⟩ := fetch_goes h (.word field) (Nat.lt_of_succ_lt room) rest
  have content : c.storage.content (.word field) = .word (m field) := by
    rw [Storage.content, h.fields]
  rw [content] at goes
  refine ⟨_, goes, ?_, Activation.having_follows.trans Activation.having_follows⟩
  apply ((h.having _ _).having code _).push (Nat.lt_succ_self _)
  apply Activation.having_self
  rw [Activation.length_having]
  exact room

theorem Passage.read_leads (h : Tracks c a vs next ws m) (field : RuntimeField)
    (room : next + 2 ≤ a.values.length)
    (rest : a.rest = (fetch entryHandle next .word (.word field)).insts ++ code)
    (onward : ∀ a', Tracks c a' (vs.push (next + 1)) (next + 2) (ws.push (m field)) m →
      a'.rest = code → a'.values.length = a.values.length → Call.Leads T c a') :
    Call.Leads T c a := by
  obtain ⟨b, goes, tracks, follows⟩ := read_goes h field room rest
  exact .of_goes goes (onward b tracks follows.rest follows.length)

/-- An instruction that defines a word. -/
theorem Tracks.define_goes (h : Tracks c a vs next ws m) {w : Word} {i : Inst}
    (room : next + 1 ≤ a.values.length) (rest : a.rest = i :: code)
    (effect : i.effect c.storage a = .ok (.define next (.word w))) :
    ∃ b, c.Goes 1 a b ∧ Tracks c b (vs.push next) (next + 1) (ws.push w) m ∧ b.Follows a code := by
  have there : (a.having code next (.word w)).values[next]? = some (some (.word w)) :=
    Activation.having_self room
  have tracks := (h.having code (.word w)).push (Nat.lt_succ_self next) there
  exact ⟨_, .define rest effect, tracks, Activation.having_follows⟩

theorem Tracks.define_leads (h : Tracks c a vs next ws m) {w : Word} {i : Inst}
    (room : next + 1 ≤ a.values.length) (rest : a.rest = i :: code)
    (effect : i.effect c.storage a = .ok (.define next (.word w)))
    (onward : ∀ a', Tracks c a' (vs.push next) (next + 1) (ws.push w) m → a'.rest = code →
      a'.values.length = a.values.length → Call.Leads T c a') : Call.Leads T c a := by
  obtain ⟨b, goes, tracks, follows⟩ := h.define_goes room rest effect
  exact .of_goes goes (onward b tracks follows.rest follows.length)

theorem WordOp.leads (s : WordOp n) (h : Tracks c a vs next ws m)
    (room : next + (s.code next vs).values.length ≤ a.values.length)
    (rest : a.rest = (s.code next vs).insts ++ code)
    (onward : ∀ a', Tracks c a' (vs.push (s.result next)) (s.result next + 1)
        (ws.push (s.eval ws m)) m →
      a'.rest = code → a'.values.length = a.values.length → Call.Leads T c a') :
    Call.Leads T c a := by
  cases s with
  | const w => exact h.define_leads room rest rfl onward
  | get field => exact Passage.read_leads h field room rest onward
  | gas => exact Passage.read_leads h .gas room rest onward
  | byOpcode op context => exact Passage.read_leads h _ room rest onward
  | binary op lhs rhs =>
    have left := Activation.read_ok.2 (h.words lhs).2
    have right := Activation.read_ok.2 (h.words rhs).2
    refine h.define_leads room rest ?_ onward
    simp only [Inst.effect, left, right]
    rfl

theorem FieldOp.leads (s : FieldOp n) (h : Tracks c a vs next ws m)
    (room : next + (s.code next vs).values.length ≤ a.values.length)
    (rest : a.rest = (s.code next vs).insts ++ code)
    (onward : ∀ storage a', Tracks { c with storage := storage } a' vs
        (next + (s.code next vs).values.length) ws (s.eval ws m) →
      a'.rest = code → a'.values.length = a.values.length →
      Call.Leads T { c with storage := storage } a') : Call.Leads T c a := by
  cases s with
  | set field v => exact Passage.put_leads h field v room rest onward
  | setGas v => exact Passage.put_leads h .gas v room rest onward
  | returnData offset size =>
    have more : next + 2 ≤ a.values.length := room
    have split := rest.trans (List.append_assoc ..)
    apply Passage.put_leads h .returnDataOffset offset (Nat.lt_of_succ_lt more) split
    intro storage b tracks rest length
    rw [← length] at more
    apply Passage.put_leads tracks .returnDataSize size more rest
    intro storage' b' tracks' rest' length'
    exact onward storage' b' tracks' rest' (length'.trans length)

/-! ## Bodies -/

/-- The turn with which generated code leaves its call. -/
def Exit.turn (c : Call φ σ) (status : Status) : Exit → Turn φ σ
  | returned => .leave c (.ok (some (.i32 status.code)))
  | aborted => .abort c c.checkpoint.handle status.code

theorem Passage.giveStatus_leads (status : Status) (room : next + 1 ≤ a.values.length)
    (rest : a.rest = (giveStatus next status).insts)
    (leaves : T (Exit.returned.turn c status)) : Call.Leads T c a := by
  let b := a.having [.ret (some next)] next (.i32 status.code)
  have code : b.read next = .ok (.i32 status.code) := Activation.read_having room
  have coming : b.rest = [.ret (some next)] := rfl
  have turn : c.turn b = Exit.returned.turn c status := by
    simp only [Call.turn, coming, Inst.effect, code]
    rfl
  refine .define rest rfl (.last ?_)
  rw [turn]
  exact leaves

/-- To abort, a call raises the status against its own checkpoint. -/
theorem Passage.giveUp_leads (h : Tracks c a vs next ws m) (status : Status)
    (room : next + 3 ≤ a.values.length)
    (rest : a.rest = (giveUp entryHandle next abortExtern status).insts)
    (bound : c.bindings[abortExtern]? = some .abort) (leaves : T (Exit.aborted.turn c status)) :
    Call.Leads T c a := by
  have enough : next + 1 < a.values.length := Nat.lt_of_succ_lt room
  apply fetch_leads h (.pointer .checkpoint) (Nat.lt_of_succ_lt enough) rest
  intro rest'
  rw [Storage.content, h.checkpoint]
  refine .define rfl rfl (.last ?_)
  -- `b` has read the handle of the checkpoint, `d` has the status as well and is about to call
  let b := (a.having rest' next (.ptr (c.storage.slotAt (.pointer .checkpoint)))).having
    [.constI32 (next + 2) status.code, .callExtern none abortExtern [next + 1, next + 2],
      .unreachable] (next + 1) (.ptr c.checkpoint.handle)
  let d := b.having [.callExtern none abortExtern [next + 1, next + 2], .unreachable] (next + 2)
    (.i32 status.code)
  have handle : d.values[next + 1]? = some (some (.ptr c.checkpoint.handle)) := by
    rw [Activation.having_of_ne (Nat.ne_of_lt (Nat.lt_succ_self _))]
    apply Activation.having_self
    rw [Activation.length_having]
    exact enough
  have code : d.values[next + 2]? = some (some (.i32 status.code)) := by
    apply Activation.having_self
    simp only [b, Activation.length_having]
    exact room
  have args : d.readAll [next + 1, next + 2] =
      .ok [.ptr c.checkpoint.handle, .i32 status.code] :=
    Activation.readAll_ok.2 (.cons handle (.cons code .nil))
  have coming : d.rest = [.callExtern none abortExtern [next + 1, next + 2], .unreachable] := rfl
  have effect : (Inst.callExtern none abortExtern [next + 1, next + 2]).effect c.storage d =
      .ok (.callExtern none abortExtern [.ptr c.checkpoint.handle, .i32 status.code]) := by
    rw [Inst.effect, args]
    rfl
  have turn : c.turn d = Exit.aborted.turn c status := by
    simp only [Call.turn, coming, effect, Call.obey, Call.callee, bound]
    rfl
  show T (c.turn d)
  rw [turn]
  exact leaves

/-- **A call leaves the code of a body with the outcome of the interpretation.** -/
theorem Body.leads (b : Body n) (h : Tracks c a vs next ws m) (memory : Bytes)
    (room : next + (b.code next vs).values.length ≤ a.values.length)
    (rest : a.rest = (b.code next vs).insts)
    (bound : b.exit = .aborted → c.bindings[abortExtern]? = some .abort)
    (leaves : ∀ storage status,
      Outcome.settle storage.block memory b.exit status.code = .ok (b.outcome memory ws m) →
      T (b.exit.turn { c with storage := storage } status)) : Call.Leads T c a := by
  -- the call and its activation change with every operation, what is tracked goes along with them
  induction b generalizing c a next m with
  | word s after ih =>
    have whole : next + (s.code next vs).values.length +
        (after.code (s.result next + 1) (vs.push (s.result next))).values.length ≤
          a.values.length := by
      rw [Nat.add_assoc, ← List.length_append]
      exact room
    refine s.leads h (Nat.le_of_add_right_le whole) rest ?_
    intro b tracks rest' length
    rw [s.length_code, ← length] at whole
    exact ih tracks whole rest' bound leaves
  | field s after ih =>
    have whole : next + (s.code next vs).values.length +
        (after.code (next + (s.code next vs).values.length) vs).values.length ≤
          a.values.length := by
      rw [Nat.add_assoc, ← List.length_append]
      exact room
    refine s.leads h (Nat.le_of_add_right_le whole) rest ?_
    intro storage b tracks rest' length
    rw [← length] at whole
    exact ih tracks whole rest' bound leaves
  | finish exit status =>
    have settles : Outcome.settle c.storage.block memory exit status.code =
        .ok (m.outcome memory exit status) := by
      rw [Outcome.settle_code, h.fields]
    cases exit with
    | returned =>
      exact Passage.giveStatus_leads status room rest (leaves _ status settles)
    | aborted => exact Passage.giveUp_leads h status room rest (bound rfl) (leaves _ status settles)

/-- How a body runs, seen from the machine. -/
theorem Body.run (b : Body n) (h : Tracks c a vs next ws m) (memory : Bytes)
    (room : next + (b.code next vs).values.length ≤ a.values.length)
    (rest : a.rest = (b.code next vs).insts)
    (bound : b.exit = .aborted → c.bindings[abortExtern]? = some .abort) (p : Platform φ σ) :
    ∃ steps storage status,
      Outcome.settle storage.block memory b.exit status.code = .ok (b.outcome memory ws m) ∧
      ∀ machine : Machine φ σ, (machine.goto (.code c a)).run p steps =
        machine.take p (b.exit.turn { c with storage := storage } status) := by
  let T : Turn φ σ → Prop := fun t => ∃ storage status,
    t = b.exit.turn { c with storage := storage } status ∧
      Outcome.settle storage.block memory b.exit status.code = .ok (b.outcome memory ws m)
  have leads : Call.Leads T c a := b.leads h memory room rest bound
    fun storage status settles => ⟨storage, status, rfl, settles⟩
  obtain ⟨steps, t, ⟨storage, status, rfl, settles⟩, runs⟩ := leads.run p
  exact ⟨steps, storage, status, settles, runs⟩

end

/-! ## Calls -/

section

variable (b : Body 0) (name entry : String)

/-- Whatever the host offers, the externs of a body can be bound. -/
theorem Body.bindExterns_module (hosts : Registry φ) :
    ∃ bindings, hosts.bindExterns (b.module name entry) = .ok bindings ∧
      (b.exit = .aborted → bindings[abortExtern]? = some .abort) := by
  unfold Body.module
  cases b.exit with
  | returned => exact ⟨[], rfl, nofun⟩
  | aborted => exact ⟨[.abort], rfl, fun _ => rfl⟩

/-- A request for a body is never refused. -/
theorem Body.prepare_module {request : CallRequest φ}
    (module : request.module = b.module name entry) :
    ∃ bindings, request.prepare = .ok (0, bindings) ∧
      (b.exit = .aborted → bindings[abortExtern]? = some .abort) := by
  obtain ⟨bindings, connected, bound⟩ := b.bindExterns_module name entry request.hosts
  rw [← module] at connected
  refine ⟨bindings, CallRequest.prepare_eq ?_ ?_ connected, bound⟩
  · rw [module, b.verify_module]
  · rw [module, b.entry_module]

/-- The entry function of a body before its first instruction. -/
def Body.activation (args : List Val) : Activation :=
  ⟨b.function entry, 0, b.entryCode.insts, Activation.initial (b.function entry) args⟩

theorem Body.length_activation (args : List Val) :
    (b.activation entry args).values.length = 2 + b.entryCode.values.length := by
  rw [activation, Activation.length_initial, Body.function, Func.write_values, List.length_append]
  rfl

theorem Body.activate_module {c : Call φ σ} (module : c.request.module = b.module name entry)
    (room : c.depth < c.request.config.maxHelperDepth) (args : List Val) :
    c.activate 0 args = .ok (b.activation entry args) := by
  unfold Call.activate
  rw [if_neg (Nat.not_le.2 room), module, b.functions_module]
  rfl

/-- A new call has the initial fields in its block, and no words yet. -/
theorem Body.tracks_activation {p : Platform φ σ} (fits : p.BlocksFit) (request : CallRequest φ)
    (bindings : List Binding) (cp : Checkpoint) (origin : Origin φ σ) :
    let c := Machine.newCall p request bindings cp origin
    Tracks (c.descend []) (b.activation entry (Machine.entryArgs c)) #v[] 2 #v[]
      (.initial request.gas request.env.snapshot) := by
  intro c
  have handle : entryHandle < (b.function entry).values.length := by
    rw [Body.function, Func.write_values, List.length_append]
    exact Nat.lt_add_right _ (Nat.lt_succ_self 1)
  exact {
    fits := fits _
    handle := ⟨Nat.lt_succ_self 1, (Activation.initial_eq ..).2 ⟨rfl, handle⟩⟩
    words := fun i => i.elim0
    fields := RuntimeBlock.get_construct ..
    checkpoint := RuntimeBlock.pointer_construct .. }

end

namespace Machine

variable {p : Platform φ σ} {m : Machine φ σ}

/-- A call that leaves its code with a status is over, if its checkpoint is the innermost. -/
theorem step_take_exit {c : Call φ σ} {live : List Checkpoint}
    (innermost : m.live = c.checkpoint :: live) (alone : c.waiting = []) (exit : Exit)
    (status : Status) :
    (m.take p (exit.turn c status)).step p = m.finishCall c exit (.ok status.code) := by
  cases exit with
  | returned =>
    show (m.goto _).stepLeave c (.ok (some (.i32 status.code))) = _
    rw [stepLeave_last alone]
    exact finishCall_goto ..
  | aborted =>
    have raised : Payload.raise m.live c.checkpoint.handle status.code =
        .signal c.checkpoint.handle status.code := by
      rw [innermost, Payload.raise, if_pos rfl]
    show (m.goto _).stepUnwind c (.raise m.live c.checkpoint.handle status.code) = _
    simp only [raised, stepUnwind, Payload.codeFor?, if_true]
    exact finishCall_goto ..

/-- **Emission and execution agree with the interpretation.** Every body can be written, what is
written verifies, and a call of it ends with the outcome that the body has over the fields. Nothing
else on the machine has changed then but the number of the next checkpoint. -/
theorem body_refines (b : Body 0) (name entry : String) :
    ∃ module, b.build name entry = .ok module ∧ module.verify = .ok () ∧
      ∀ {φ σ : Type} (p : Platform φ σ) (m : Machine φ σ) (request : CallRequest φ)
        (origin : Origin φ σ),
        p.BlocksFit → request.module = module → m.live.length < request.config.maxCallDepth →
        1 ≤ request.config.maxHelperDepth →
        ∃ n, (m.enterCall p request origin).run p n =
          { m with nextId := m.nextId + 1 }.deliver origin
            (.ok (b.outcome m.memory #v[] (.initial request.gas request.env.snapshot))) := by
  refine ⟨b.module name entry, b.build_eq name entry, b.verify_module name entry, ?_⟩
  intro φ σ p m request origin fits module room enough
  obtain ⟨bindings, prepared, bound⟩ := b.prepare_module name entry module
  let cp := m.nextCheckpoint p
  let c := newCall p request bindings cp origin
  let a := b.activation entry (entryArgs c)
  have entered :
      m.enterCall p request origin = (m.pushCheckpoint cp).goto (.code (c.descend []) a) := by
    have activated : c.activate 0 (entryArgs c) = .ok a :=
      b.activate_module name entry module (show c.depth < _ from enough) _
    unfold enterCall
    rw [prepared]
    dsimp only
    rw [if_neg (Nat.not_le.2 room), activated]
  have tracks := b.tracks_activation entry fits request bindings cp origin
  obtain ⟨steps, storage, status, settles, runs⟩ := b.run tracks m.memory
    (Nat.le_of_eq (b.length_activation entry _).symm) rfl bound p
  refine ⟨steps + 1, ?_⟩
  rw [entered, ← step_run, runs, step_take_exit rfl rfl, finishCall]
  show Machine.deliver _ origin (Outcome.settle storage.block m.memory b.exit status.code) = _
  rw [settles]
  rfl

/-- Pays five units of gas and returns the second and the third byte of the memory. -/
def toll : Body 0 :=
  .word .gas <| .word (.const 5) <| .word (.binary .sub 0 1) <| .field (.setGas 2) <|
  .word (.const 1) <| .word (.const 2) <| .field (.returnData 3 4) <| .finish .returned .ret

theorem body_refines_toll :
    let p : Platform Empty Unit := .within .usual fun f _ => f.elim
    p.BlocksFit ∧ ∃ module, toll.build "toll" "main" = .ok module ∧ module.verify = .ok () ∧
      let m := startCall p ⟨module, 100, default, .empty, default⟩ [10, 20, 30, 40] ()
      ∃ n, (m.run p n).ending? = some (.call (.ok ⟨.ret, 95, [20, 30]⟩)) := by
  intro p
  have fits : p.BlocksFit := .usual _
  have room : 0 < (default : Config).maxCallDepth := by decide
  have enough : 1 ≤ (default : Config).maxHelperDepth := by decide
  obtain ⟨module, built, verified, refines⟩ := body_refines toll "toll" "main"
  refine ⟨fits, module, built, verified, ?_⟩
  obtain ⟨n, runs⟩ := refines p (idle [10, 20, 30, 40] ()) ⟨module, 100, default, .empty, default⟩
    .outside fits rfl room enough
  have outcome : toll.outcome [10, 20, 30, 40] #v[]
      (.initial 100 (default : Environment).snapshot) = ⟨.ret, 95, [20, 30]⟩ := by decide +kernel
  refine ⟨n, ?_⟩
  show ending? (((idle [10, 20, 30, 40] ()).enterCall p _ .outside).run p n) = _
  rw [runs]
  exact congrArg (fun o => some (Ending.call (.ok o))) outcome

end Machine

end HostBridge
