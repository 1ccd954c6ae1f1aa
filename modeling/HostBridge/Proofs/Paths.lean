import HostBridge.Proofs.Acceptance

/-!
# Paths through a function

Verification looks at every instruction by itself, and not at what must have happened before it.
What can have happened is a matter of paths: from the first block on, from one instruction to the
next and from a jump or a branch to one of its targets, over blocks and around loops as often as one
likes (`Func.Path`). A function defines before it uses if on every path to an instruction each
operand that is no parameter has been defined (`Func.DefinesBeforeUse`).

* `Func.Flows.definesBeforeUse` — there are infinitely many paths around a loop, but to look once at
  each block is enough if one knows which values are defined wherever it is entered.
-/

set_option autoImplicit false

namespace HostBridge

/-- An instruction that defines a value does not end its block. -/
theorem Inst.goesOn_of_dst? {i : Inst} {v : ValueId} (defines : i.dst? = some v) :
    i.isTerminator = false := by
  cases i <;> first | rfl | cases defines

/-- What an instruction defines is one of the values that it names. -/
theorem Inst.dst?_mem_values {i : Inst} {v : ValueId} (defines : i.dst? = some v) :
    v ∈ i.values := by
  cases i <;> simp_all [dst?, values]

namespace Func

/-- The instructions that are passed on a path, the latest first, and what is left of the block to
which it leads. -/
inductive Path (f : Func) : List Inst → List Inst → Prop
  | start {code : List Inst} (first : f.blocks[0]? = some code) : Path f [] code
  | next {passed : List Inst} {i : Inst} {rest : List Inst} (path : Path f passed (i :: rest))
    (goesOn : i.isTerminator = false) : Path f (i :: passed) rest
  | goto {passed : List Inst} {i : Inst} {rest : List Inst} (path : Path f passed (i :: rest))
    {target : BlockId} (aims : target ∈ i.targets) {code : List Inst}
    (there : f.blocks[target]? = some code) : Path f (i :: passed) code

/-- A value has been defined on the way. -/
def Defined (passed : List Inst) (v : ValueId) : Prop := ∃ i ∈ passed, i.dst? = some v

/-- On every path to an instruction the operands have been defined, other than parameters. -/
def DefinesBeforeUse (f : Func) : Prop :=
  ∀ passed i rest, f.Path passed (i :: rest) →
    ∀ v ∈ i.operands, f.signature.params.length ≤ v → Defined passed v

variable {f : Func} {passed rest : List Inst} {i : Inst}

/-! ## Once through each block -/

/-- Whether code uses no values but parameters and those that are known, and goes to no block that
expects others. What it defines is known from then on. -/
def flows (f : Func) (expected : List (List ValueId)) : List ValueId → List Inst → Bool
  | _, [] => true
  | known, i :: rest =>
    i.operands.all (fun v => v < f.signature.params.length ∨ v ∈ known) &&
      i.targets.all (fun target => (expected.getD target []).all (· ∈ known)) &&
      f.flows expected (i.dst?.toList ++ known) rest

/-- Each block is in order if the values are known that it expects, and the first expects none. -/
def Flows (f : Func) (expected : List (List ValueId)) : Prop :=
  expected.getD 0 [] = [] ∧
    ∀ block ∈ f.blocks.zipIdx, f.flows expected (expected.getD block.2 []) block.1 = true

instance (f : Func) (expected : List (List ValueId)) : Decidable (f.Flows expected) :=
  inferInstanceAs (Decidable (_ ∧ _))

variable {expected : List (List ValueId)}

theorem Flows.block (h : f.Flows expected) {block : BlockId} {code : List Inst}
    (there : f.blocks[block]? = some code) :
    f.flows expected (expected.getD block []) code = true :=
  h.2 (code, block) (List.mk_mem_zipIdx_iff_getElem?.2 there)

theorem flows_cons {known : List ValueId} :
    f.flows expected known (i :: rest) = true ↔
      (∀ v ∈ i.operands, v < f.signature.params.length ∨ v ∈ known) ∧
      (∀ target ∈ i.targets, ∀ v ∈ expected.getD target [], v ∈ known) ∧
      f.flows expected (i.dst?.toList ++ known) rest = true := by
  simp [flows, and_assoc]

/-- Wherever a path leads, what is known there has been defined on it, and is enough for the rest of
the block. -/
theorem Path.known (h : f.Flows expected) (path : f.Path passed rest) :
    ∃ known, f.flows expected known rest = true ∧ ∀ v ∈ known, Defined passed v := by
  induction path with
  | start first =>
    refine ⟨[], ?_, List.forall_mem_nil _⟩
    have fine := h.block first
    rwa [h.1] at fine
  | @next passed i rest path goesOn ih =>
    obtain ⟨known, fine, defined⟩ := ih
    refine ⟨i.dst?.toList ++ known, (flows_cons.1 fine).2.2, ?_⟩
    intro v mem
    rcases List.mem_append.1 mem with new | old
    · exact ⟨i, List.mem_cons_self, Option.mem_toList.1 new⟩
    · obtain ⟨j, before, defines⟩ := defined v old
      exact ⟨j, List.mem_cons_of_mem _ before, defines⟩
  | @goto passed i rest path target aims code there ih =>
    obtain ⟨known, fine, defined⟩ := ih
    refine ⟨expected.getD target [], h.block there, ?_⟩
    intro v mem
    obtain ⟨j, before, defines⟩ := defined v ((flows_cons.1 fine).2.1 target aims v mem)
    exact ⟨j, List.mem_cons_of_mem _ before, defines⟩

/-- **To look once at each block is enough.** -/
theorem Flows.definesBeforeUse (h : f.Flows expected) : f.DefinesBeforeUse := by
  intro passed i rest path v operand other
  obtain ⟨known, fine, defined⟩ := path.known h
  rcases (flows_cons.1 fine).1 v operand with parameter | mem
  · exact absurd parameter (Nat.not_lt.2 other)
  · exact defined v mem

end Func

end HostBridge
