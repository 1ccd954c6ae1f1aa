import HostBridge.Code.Dump
import HostBridge.Proofs.Phrases
import Mathlib.Data.List.Nodup

/-!
# The text of a module, line by line

The text of a module is a title, a line for each extern, and for each function an empty line, a
headline and the lines of its blocks: the name of the block and then the instructions. Every line is
a phrase, and what stands in it can be told from it as long as no name has a mark in it
(`Module.Legible`). The destination of an instruction begins with a percent sign, brackets are where
there is a callee, and the number of a value is what comes after the last full stop of its label.

* `Inst.phrase`, `Module.transcript` — the lines; `Module.toList_dump` says that the text is theirs;
* `Func.label_eq`, `Inst.phrase_parts`, `declaration_parts` — what a label and a line tell;
* `Module.alike_of_dump` — what the text of a module tells.
-/

set_option autoImplicit false

namespace HostBridge

open Phrase (single listed bracketed items_single map_single_injective)

/-! ## Instructions -/

namespace Inst

/-- What is done by an instruction, without its operands. -/
inductive Form where
  | const
  | constI32
  | ptrOffset
  | load (ty : Ty)
  | store
  | loadByte
  | binary (op : BinaryOp)
  | call
  | callExtern
  | jump
  | branch
  | ret
  | unreachable
  deriving DecidableEq

namespace Form

/-- All forms. -/
def all : List Form :=
  [const, constI32, ptrOffset, store, loadByte, call, callExtern, jump, branch, ret, unreachable] ++
    Ty.all.map load ++ BinaryOp.all.map binary

/-- How a form is called. -/
def mnemonic : Form → String
  | const => "const"
  | constI32 => "const.i32"
  | ptrOffset => "ptr.offset"
  | load ty => "load." ++ ty.name
  | store => "store"
  | loadByte => "load.byte"
  | binary op => op.mnemonic
  | call => "call"
  | callExtern => "call.extern"
  | jump => "jump"
  | branch => "branch"
  | ret => "return"
  | unreachable => "unreachable"

theorem mem_all (k : Form) : k ∈ all := by
  cases k with
  | load ty => cases ty <;> decide
  | binary op => cases op <;> decide
  | _ => decide

/-- No two forms are called the same. -/
theorem mnemonic_injective {k l : Form} (h : k.mnemonic = l.mnemonic) : k = l :=
  List.inj_on_of_nodup_map (by decide : (all.map mnemonic).Nodup) k.mem_all l.mem_all h

theorem isWord_mnemonic (k : Form) : IsWord k.mnemonic :=
  (by decide : ∀ k ∈ all, IsWord k.mnemonic) k k.mem_all

end Form

/-- The form of an instruction. -/
def form : Inst → Form
  | const _ _ => .const
  | constI32 _ _ => .constI32
  | ptrOffset _ _ _ => .ptrOffset
  | load _ ty _ => .load ty
  | store _ _ => .store
  | loadByte _ _ _ => .loadByte
  | binary _ op _ _ => .binary op
  | call _ _ _ => .call
  | callExtern _ _ _ => .callExtern
  | jump _ => .jump
  | branch _ _ _ => .branch
  | ret _ => .ret
  | unreachable => .unreachable

/-- The name of the callee of a call. -/
def calleeName? (m : Module) : Inst → Option String
  | call _ callee _ => some (m.functionName callee)
  | callExtern _ callee _ => some (m.externName callee)
  | _ => none

/-- How a block is called. -/
def blockName (block : BlockId) : String := "block" ++ toString block

theorem isWord_blockName (block : BlockId) : IsWord (blockName block) :=
  IsWord.append (by decide) (plain_digits block)

/-- How the operands of an instruction are written. -/
def operandTexts (f : Func) : Inst → List String
  | const _ value => [value.text]
  | constI32 _ value => [toString value.toInt]
  | ptrOffset _ base offset => [f.label base, toString offset.toNat]
  | load _ _ addr => [f.label addr]
  | store addr value => [f.label addr, f.label value]
  | loadByte _ base index => [f.label base, f.label index]
  | binary _ _ lhs rhs => [f.label lhs, f.label rhs]
  | call _ _ args | callExtern _ _ args => args.map f.label
  | jump target => [blockName target]
  | branch cond thenBlock elseBlock => [f.label cond, blockName thenBlock, blockName elseBlock]
  | ret value => (value.map f.label).toList
  | unreachable => []

/-- The value that an instruction defines, in front of the instruction. -/
def defined (dst : Option String) : List MarkedWord :=
  match dst with
  | some label => [⟨' ', label⟩, ⟨' ', "="⟩]
  | none => []

/-- The operands behind the form of an instruction, in brackets if there is a callee. -/
def applied (callee : Option String) (operands : List String) : List MarkedWord :=
  match callee with
  | some name => ⟨' ', name⟩ :: bracketed (operands.map single)
  | none => listed ' ' (operands.map single)

/-- What stands behind the form of an instruction. -/
def ending (m : Module) (f : Func) (i : Inst) : List MarkedWord :=
  applied (i.calleeName? m) (i.operandTexts f)

/-- The line of an instruction. -/
def phrase (m : Module) (f : Func) (i : Inst) : Phrase :=
  ⟨"", ⟨' ', ""⟩ :: (defined (i.dst?.map f.label) ++ ⟨' ', i.form.mnemonic⟩ :: i.ending m f)⟩

/-! ### The line of an instruction is its text -/

theorem spelled_defined (f : Func) (dst : Option ValueId) (body : String) :
    spelled (defined (dst.map f.label)) ++ ' ' :: body.toList =
      ' ' :: (f.define dst body).toList := by
  cases dst with
  | none => rfl
  | some v => simp [defined, Func.define]

theorem spelled_operands (word : String) (words : List String) :
    spelled (applied none (word :: words)) = ' ' :: (", ".intercalate (word :: words)).toList := by
  rw [applied, List.map_cons, Phrase.spelled_listed, ← List.map_cons, Phrase.map_text_single,
    String.toList_intercalate]
  rfl

theorem spelled_arguments (name : String) (words : List String) :
    spelled (applied (some name) words) =
      (" " ++ name ++ "(" ++ ", ".intercalate words ++ ")").toList := by
  rw [applied, spelled_cons, Phrase.spelled_bracketed, Phrase.map_text_single]
  simp [String.toList_intercalate]

theorem dumpInst_eq (m : Module) (f : Func) (i : Inst) :
    m.dumpInst f i =
      f.define i.dst? (i.form.mnemonic ++ String.ofList (spelled (i.ending m f))) := by
  cases i with
  | call dst | callExtern dst =>
    refine congrArg (f.define dst) (String.toList_injective ?_)
    simp [ending, calleeName?, operandTexts, spelled_arguments, form, Form.mnemonic, Func.labels]
  | ret value =>
    cases value with
    | none => rfl
    | some v =>
      apply String.toList_injective
      simp [Module.dumpInst, Func.define, dst?, form, Form.mnemonic, ending, calleeName?,
        operandTexts, spelled_operands]
  | unreachable => rfl
  | _ =>
    apply String.toList_injective
    simp [Module.dumpInst, Func.define, dst?, form, Form.mnemonic, ending, calleeName?,
      operandTexts, spelled_operands, blockName]

theorem text_phrase (m : Module) (f : Func) (i : Inst) :
    (i.phrase m f).text = ("  " ++ m.dumpInst f i).toList := by
  have line := spelled_defined f i.dst?
    (i.form.mnemonic ++ String.ofList (spelled (i.ending m f)))
  rw [← dumpInst_eq] at line
  simpa [phrase, Phrase.text] using line

end Inst

namespace Func

variable {f g : Func} {v w : ValueId}

/-- The names of all values are words. -/
def Legible (f : Func) : Prop := ∀ x ∈ f.names, ∀ name ∈ x, IsWord name

instance : Decidable f.Legible := inferInstanceAs (Decidable (∀ x ∈ f.names, _))

theorem Legible.isWord_label (h : f.Legible) (v : ValueId) : IsWord (f.label v) := by
  have percent : IsWord "%" := by decide
  have stop : Plain "." := by decide
  unfold label
  split
  · rename_i name eq
    have word := h _ (List.mem_of_getElem? (Option.join_eq_some_iff.1 eq)) name rfl
    exact ((percent.append word.plain).append stop).append (plain_digits v)
  · exact percent.append (plain_digits v)

/-- The characters of a label, from the last. The number comes to its end at a full stop or at the
percent sign. -/
theorem reverse_label (f : Func) (v : ValueId) :
    (f.label v).toList.reverse = (Nat.toDigits 10 v).reverse ++
      ((f.valueName? v).elim [] fun name => '.' :: name.toList.reverse) ++ ['%'] := by
  unfold label
  cases f.valueName? v <;> simp [Nat.toList_repr]

/-- **A label tells the number of a value and its name.** -/
theorem label_eq (h : f.label v = g.label w) : v = w ∧ f.valueName? v = g.valueName? w := by
  have digits (n : Nat) : ∀ c ∈ (Nat.toDigits 10 n).reverse, ¬ c.isDigit = false := fun c mem => by
    rw [Nat.isDigit_of_mem_toDigits (by omega) (by omega) (List.mem_reverse.1 mem)]
    decide
  have ends (name : Option String) : ∀ c ∈
      (((name.elim [] fun name => '.' :: name.toList.reverse) ++ ['%'] : List Char)).head?,
      c.isDigit = false := by
    cases name <;> (rintro _ ⟨⟩; decide)
  have letters := congrArg (·.toList.reverse) h
  simp only [reverse_label, List.append_assoc] at letters
  obtain ⟨number, name⟩ := append_eq_append_at (·.isDigit = false) (digits v) (digits w)
    (ends _) (ends _) letters
  refine ⟨toDigits_injective (List.reverse_inj.1 number), ?_⟩
  cases first : f.valueName? v <;> cases second : g.valueName? w <;>
    simp_all [String.toList_inj]

/-- Labels begin with a percent sign, and no instruction does. -/
theorem label_ne_mnemonic (f : Func) (v : ValueId) (k : Inst.Form) : f.label v ≠ k.mnemonic := by
  intro same
  have first : (f.label v).toList.head? = some '%' := by
    unfold label
    split <;> simp
  have other : ∀ k ∈ Inst.Form.all, k.mnemonic.toList.head? ≠ some '%' := by decide
  exact other k k.mem_all (same ▸ first)

end Func

namespace Inst

/-! ### What the line of an instruction tells -/

theorem applied_eq {c d : Option String} {xs ys : List String} (hx : ∀ x ∈ xs, IsWord x)
    (hy : ∀ y ∈ ys, IsWord y) (h : applied c xs = applied d ys) : c = d ∧ xs = ys := by
  -- brackets are only where there is a callee
  have bracket (name : String) (words : List String) :
      ⟨')', ""⟩ ∈ applied (some name) words :=
    .tail _ (List.mem_append_right _ (List.mem_singleton.2 rfl))
  have noBracket {words : List String} (h : ∀ s ∈ words, IsWord s) :
      ⟨')', ""⟩ ∉ applied none words :=
    fun mem => Phrase.listed_open (items_single h) (by decide) _ mem rfl
  cases c with
  | none =>
    cases d with
    | none =>
      exact ⟨rfl, map_single_injective
        (Phrase.listed_injective (by decide) (items_single hx) (items_single hy) h)⟩
    | some name => exact absurd (h ▸ bracket name ys) (noBracket hx)
  | some name =>
    cases d with
    | none => exact absurd (h ▸ bracket name xs) (noBracket hy)
    | some name' =>
      obtain ⟨first, rest⟩ := List.cons.inj h
      have list := (Phrase.bracketed_eq (items_single hx) (items_single hy) (r := []) (s := [])
        (by rw [List.append_nil, List.append_nil]; exact rest)).1
      exact ⟨congrArg (some ·.word) first, map_single_injective list⟩

variable {m m' : Module} {f g : Func} {i j : Inst}

theorem isWord_operandTexts (h : f.Legible) (i : Inst) : ∀ s ∈ i.operandTexts f, IsWord s := by
  have label := h.isWord_label
  cases i with
  | const dst value => simpa [operandTexts] using value.isWord_text
  | constI32 dst value => simpa [operandTexts] using isWord_toString_int value.toInt
  | ptrOffset dst base offset =>
    simpa [operandTexts] using ⟨label base, isWord_toString offset.toNat⟩
  | load | store | loadByte | binary | call | callExtern | jump | branch | unreachable =>
    simp [operandTexts, label, isWord_blockName]
  | ret value => cases value <;> simp [operandTexts, label]

/-- **The line of an instruction tells its parts.** -/
theorem phrase_parts (hf : f.Legible) (hg : g.Legible) (h : i.phrase m f = j.phrase m' g) :
    i.dst?.map f.label = j.dst?.map g.label ∧ i.form = j.form ∧ i.calleeName? m = j.calleeName? m' ∧
      i.operandTexts f = j.operandTexts g := by
  have rest := (List.cons.inj (Phrase.mk.inj h).2).2
  have parts : i.dst?.map f.label = j.dst?.map g.label ∧ i.form.mnemonic = j.form.mnemonic ∧
      i.ending m f = j.ending m' g := by
    cases first : i.dst? <;> cases second : j.dst? <;>
      simp_all [defined, f.label_ne_mnemonic, (g.label_ne_mnemonic _ _).symm]
  obtain ⟨dst, form, rest⟩ := parts
  obtain ⟨callee, operands⟩ := applied_eq (isWord_operandTexts hf i) (isWord_operandTexts hg j) rest
  exact ⟨dst, Form.mnemonic_injective form, callee, operands⟩

end Inst

/-! ## Declarations -/

/-- A declaration: a keyword, a name, parameters, the type that is returned, and a note. -/
def declaration (keyword name : String) (params : List Phrase) (ret : Option Ty)
    (note : Option String) : Phrase :=
  ⟨keyword, ⟨' ', name⟩ :: (bracketed params ++
    ((ret.elim [] fun ty => [⟨' ', "->"⟩, ⟨' ', ty.name⟩]) ++ note.elim [] fun s => [⟨' ', s⟩]))⟩

theorem Ty.name_injective {a b : Ty} (h : a.name = b.name) : a = b :=
  List.inj_on_of_nodup_map (by decide : (Ty.all.map Ty.name).Nodup) (by cases a <;> decide)
    (by cases b <;> decide) h

theorem Ty.isWord_name (ty : Ty) : IsWord ty.name := by
  cases ty <;> decide

/-- **A declaration tells its parts.** -/
theorem declaration_parts {keyword name name' : String} {ps qs : List Phrase} {ret ret' : Option Ty}
    {note note' : Option String} (hp : ∀ p ∈ ps, p.IsItem) (hq : ∀ q ∈ qs, q.IsItem)
    (h : declaration keyword name ps ret note = declaration keyword name' qs ret' note') :
    name = name' ∧ ps = qs ∧ ret = ret' ∧ note = note' := by
  obtain ⟨first, rest⟩ := List.cons.inj (Phrase.mk.inj h).2
  obtain ⟨params, ends⟩ := Phrase.bracketed_eq hp hq rest
  refine ⟨congrArg (·.word) first, params, ?_⟩
  cases ret <;> cases ret' <;> cases note <;> cases note' <;> simp_all
  all_goals exact Ty.name_injective (by simp_all)

theorem text_declaration (keyword name : String) (params : List Phrase) (s : Signature)
    (note : Option String) :
    (declaration keyword name params s.ret note).text =
      (keyword ++ " " ++ name ++ "(").toList ++ [',', ' '].intercalate (params.map Phrase.text) ++
        (")" ++ s.arrow).toList ++ (note.elim [] fun s => ' ' :: s.toList) := by
  cases ret : s.ret <;> cases note <;>
    simp [declaration, Phrase.text, Phrase.spelled_bracketed, Signature.arrow, ret]

namespace ExternDecl

/-- The line of an extern. -/
def phrase (e : ExternDecl) : Phrase :=
  declaration "extern" e.name (e.signature.params.map fun ty => single ty.name) e.signature.ret
    (if e.noreturn then some "noreturn" else none)

theorem items_params (e : ExternDecl) :
    ∀ p ∈ e.signature.params.map fun ty => single ty.name, p.IsItem := by
  intro p mem
  obtain ⟨ty, -, rfl⟩ := List.mem_map.1 mem
  exact items_single (List.forall_mem_singleton.2 ty.isWord_name) _ List.mem_cons_self

/-- **An extern is known from its line.** -/
theorem phrase_injective {e e' : ExternDecl} (h : e.phrase = e'.phrase) : e = e' := by
  obtain ⟨name, params, ret, note⟩ := declaration_parts e.items_params e'.items_params h
  have types : e.signature.params = e'.signature.params := map_eq_map_imp_eq params
    fun _ _ _ _ same => Ty.name_injective (congrArg Phrase.first same)
  obtain ⟨_, ⟨_, _⟩, noreturn⟩ := e
  obtain ⟨_, ⟨_, _⟩, noreturn'⟩ := e'
  cases noreturn <;> cases noreturn' <;> simp_all

theorem text_phrase (e : ExternDecl) : e.phrase.text ++ ['\n'] = e.dump.toList := by
  simp only [phrase, text_declaration, dump, List.map_map]
  cases e.noreturn <;> simp [String.toList_intercalate, Function.comp_def]

end ExternDecl

/-! ## Functions -/

namespace Func

variable {f g : Func}

/-- A parameter with its type. -/
def paramPhrase (f : Func) (p : Ty × Nat) : Phrase := ⟨f.label p.2, [⟨':', ""⟩, ⟨' ', p.1.name⟩]⟩

/-- The parameters with their types. -/
def paramPhrases (f : Func) : List Phrase := f.signature.params.zipIdx.map f.paramPhrase

theorem Legible.items_params (h : f.Legible) : ∀ p ∈ f.paramPhrases, p.IsItem := by
  intro p mem
  obtain ⟨⟨ty, i⟩, -, rfl⟩ := List.mem_map.1 mem
  have label := h.isWord_label i
  refine ⟨label.filled, ⟨label.plain, ?_⟩, by simp [paramPhrase]⟩
  rintro w (_ | ⟨_, _ | ⟨_, ⟨⟩⟩⟩)
  · exact ⟨by decide, by decide, nofun⟩
  · exact MarkedWord.regular_blank ty.isWord_name.plain

/-- The parameters tell their types and their names. -/
theorem paramPhrases_parts (h : f.paramPhrases = g.paramPhrases) :
    f.signature.params = g.signature.params ∧
      ∀ i < f.signature.params.length, f.valueName? i = g.valueName? i := by
  have types : f.signature.params.zipIdx = g.signature.params.zipIdx :=
    map_eq_map_imp_eq h fun x _ y _ same => by
      obtain ⟨label, rest⟩ := Phrase.mk.inj same
      exact Prod.ext (Ty.name_injective (by simpa using rest)) (label_eq label).1
  have params := congrArg (List.map Prod.fst) types
  rw [List.zipIdx_map_fst, List.zipIdx_map_fst] at params
  refine ⟨params, fun i bound => ?_⟩
  rw [paramPhrases, paramPhrases, ← types, List.map_inj_left] at h
  have same := h (f.signature.params[i], i) (List.mk_mem_zipIdx_iff_getElem?.2 (by simp))
  exact (label_eq (congrArg Phrase.first same)).2

/-- The lines of the code: for each block its name and then its instructions. -/
def codeLines (m : Module) (f : Func) : List (Phrase × List Phrase) :=
  f.blocks.zipIdx.map fun (insts, block) =>
    (⟨Inst.blockName block, [⟨':', ""⟩]⟩, insts.map (·.phrase m f))

theorem codeLines_snd (m : Module) (f : Func) :
    (f.codeLines m).map Prod.snd = f.blocks.map (·.map (·.phrase m f)) := by
  have insts := List.zipIdx_map_fst 0 f.blocks
  conv_rhs => rw [← insts]
  rw [codeLines, List.map_map, List.map_map]
  rfl

end Func

namespace Module

variable {m m' : Module}

/-- The first line of a function. -/
def headline (m : Module) (id : FuncId) (f : Func) : Phrase :=
  declaration "fn" f.name f.paramPhrases f.signature.ret
    (if m.entry = some id then some "[entry]" else none)

/-- The lines of the functions, each with an empty line before it. -/
def functionLines (m : Module) : List (Phrase × List Phrase) :=
  m.functions.zipIdx.map fun (f, id) => (single "", m.headline id f :: chunks (f.codeLines m))

/-- The lines of a module. -/
def transcript (m : Module) : List Phrase :=
  ⟨"module", [⟨' ', m.name⟩]⟩ :: (m.externs.map ExternDecl.phrase ++ chunks m.functionLines)

/-! ### The lines are the text -/

theorem toList_dumpHeader (m : Module) (id : FuncId) (f : Func) :
    (m.dumpHeader id f).toList = (m.headline id f).text ++ ['\n'] := by
  have params : f.paramPhrases.map Phrase.text =
      (f.signature.params.zipIdx.map fun p => f.label p.2 ++ ": " ++ p.1.name).map
        String.toList := by
    simp [Func.paramPhrases, Func.paramPhrase, Phrase.text]
  simp only [headline, text_declaration, dumpHeader, params]
  by_cases entry : m.entry = some id <;> simp [entry, String.toList_intercalate]

theorem toList_dumpBlock (m : Module) (f : Func) (block : BlockId) (insts : List Inst) :
    (m.dumpBlock f block insts).toList = Phrase.lines
      (⟨Inst.blockName block, [⟨':', ""⟩]⟩ :: insts.map (·.phrase m f)) := by
  have name : Phrase.text ⟨Inst.blockName block, [⟨':', ""⟩]⟩ =
      ("block" ++ toString block ++ ":").toList := by
    simp [Phrase.text, Inst.blockName]
  simp [dumpBlock, Phrase.lines, name, Inst.text_phrase, String.toList_join, List.flatMap_map]

theorem lines_chunks (as : List (Phrase × List Phrase)) :
    Phrase.lines (chunks as) = as.flatMap fun a => Phrase.lines (a.1 :: a.2) :=
  List.flatMap_assoc ..

theorem toList_dumpFunction (m : Module) (id : FuncId) (f : Func) :
    (m.dumpFunction id f).toList =
      Phrase.lines (single "" :: m.headline id f :: chunks (f.codeLines m)) := by
  have code : Phrase.lines (chunks (f.codeLines m)) =
      f.blocks.zipIdx.flatMap fun (insts, block) => (m.dumpBlock f block insts).toList := by
    rw [lines_chunks, Func.codeLines, List.flatMap_map]
    simp only [toList_dumpBlock]
  rw [dumpFunction]
  simp [toList_dumpHeader, String.toList_join, List.flatMap_map, Phrase.lines_cons, code]

/-- **The text of a module is that of its lines.** -/
theorem toList_dump (m : Module) : m.dump.toList = Phrase.lines m.transcript := by
  have externs : Phrase.lines (m.externs.map ExternDecl.phrase) =
      m.externs.flatMap fun e => e.dump.toList := by
    simp only [Phrase.lines, List.flatMap_map, ExternDecl.text_phrase]
  have functions : Phrase.lines (chunks m.functionLines) =
      m.functions.zipIdx.flatMap fun (f, id) => (m.dumpFunction id f).toList := by
    rw [lines_chunks, functionLines, List.flatMap_map]
    simp only [toList_dumpFunction]
  simp only [dump, transcript, Phrase.lines_cons, Phrase.lines_append, externs, functions]
  simp [String.toList_join, List.flatMap_map, Phrase.text]

/-! ### No word has a mark in it -/

/-- The names in a module are words: its own name and those of functions, externs and values. -/
structure Legible (m : Module) : Prop where
  name : IsWord m.name
  functions : ∀ f ∈ m.functions, IsWord f.name
  externs : ∀ e ∈ m.externs, IsWord e.name
  values : ∀ f ∈ m.functions, f.Legible

namespace Legible

theorem plain_functionName (h : m.Legible) (id : FuncId) : Plain (m.functionName id) := by
  unfold functionName
  split
  · rename_i f there
    exact (h.functions f (List.mem_of_getElem? there)).plain
  · decide

theorem plain_externName (h : m.Legible) (id : ExternId) : Plain (m.externName id) := by
  unfold externName
  split
  · rename_i e there
    exact (h.externs e (List.mem_of_getElem? there)).plain
  · decide

theorem plain_callee (h : m.Legible) {i : Inst} {name : String} (eq : i.calleeName? m = some name) :
    Plain name := by
  cases i with
  | call dst callee args =>
    cases eq
    exact h.plain_functionName callee
  | callExtern dst callee args =>
    cases eq
    exact h.plain_externName callee
  | _ => cases eq

end Legible

end Module

theorem regular_declaration {keyword name : String} {ps : List Phrase} {ret : Option Ty}
    {note : Option String} (hk : Plain keyword) (hn : Plain name) (hp : ∀ p ∈ ps, p.IsItem)
    (ha : ∀ s, note = some s → Plain s) : (declaration keyword name ps ret note).Regular := by
  refine ⟨hk, ?_⟩
  simp only [declaration, List.forall_mem_cons, List.forall_mem_append]
  refine ⟨MarkedWord.regular_blank hn, Phrase.regular_bracketed hp, ?_, ?_⟩
  · cases ret with
    | none => exact nofun
    | some ty =>
      have arrow : Plain "->" := by decide
      have type := ty.isWord_name.plain
      simp [MarkedWord.regular_blank, arrow, type]
  · cases note with
    | none => exact nofun
    | some s => simp [MarkedWord.regular_blank, ha s rfl]

theorem ExternDecl.regular_phrase {e : ExternDecl} (h : IsWord e.name) : e.phrase.Regular := by
  refine regular_declaration (by decide) h.plain e.items_params ?_
  cases e.noreturn <;> simp [Plain, marks]

theorem Inst.regular_phrase {m : Module} {f : Func} (hm : m.Legible) (hf : f.Legible) (i : Inst) :
    (i.phrase m f).Regular := by
  refine ⟨nofun, ?_⟩
  simp only [phrase, ending, List.forall_mem_cons, List.forall_mem_append]
  refine ⟨MarkedWord.regular_blank nofun, ?_,
    MarkedWord.regular_blank i.form.isWord_mnemonic.plain, ?_⟩
  · cases i.dst? with
    | none => exact nofun
    | some v =>
      have label := (hf.isWord_label v).plain
      have sign : Plain "=" := by decide
      simp [defined, MarkedWord.regular_blank, label, sign]
  · have items := items_single (isWord_operandTexts hf i)
    cases callee : i.calleeName? m with
    | none => exact Phrase.regular_listed items (by decide) (by decide)
    | some name =>
      exact List.forall_mem_cons.2 ⟨MarkedWord.regular_blank (hm.plain_callee callee),
        Phrase.regular_bracketed items⟩

namespace Module

variable {m m' : Module} {f f' : Func} {id : FuncId}

theorem regular_headline (name : IsWord f.name) (hf : f.Legible) : (m.headline id f).Regular := by
  refine regular_declaration (by decide) name.plain hf.items_params ?_
  split <;> simp [Plain, marks]

theorem regular_codeLines (hm : m.Legible) (hf : f.Legible) :
    ∀ p ∈ chunks (f.codeLines m), p.Regular := by
  refine forall_mem_chunks.2 fun a mem => ?_
  obtain ⟨⟨insts, block⟩, -, rfl⟩ := List.mem_map.1 mem
  refine List.forall_mem_cons.2 ⟨⟨(Inst.isWord_blockName block).plain, ?_⟩, ?_⟩
  · simp only [List.forall_mem_singleton]
    exact ⟨by decide, by decide, nofun⟩
  · intro p mem
    obtain ⟨i, -, rfl⟩ := List.mem_map.1 mem
    exact i.regular_phrase hm hf

/-- All lines of a legible module are regular. -/
theorem Legible.regular_transcript (h : m.Legible) : ∀ p ∈ m.transcript, p.Regular := by
  simp only [transcript, List.forall_mem_cons, List.forall_mem_append]
  refine ⟨⟨(by decide : Plain "module"), ?_⟩, ?_, ?_⟩
  · simp [MarkedWord.regular_blank, h.name.plain]
  · intro p mem
    obtain ⟨e, there, rfl⟩ := List.mem_map.1 mem
    exact ExternDecl.regular_phrase (h.externs e there)
  · refine forall_mem_chunks.2 fun a mem => ?_
    obtain ⟨⟨f, id⟩, there, rfl⟩ := List.mem_map.1 mem
    have here : f ∈ m.functions := List.fst_mem_of_mem_zipIdx there
    exact List.forall_mem_cons.2 ⟨⟨nofun, nofun⟩, List.forall_mem_cons.2
      ⟨regular_headline (h.functions f here) (h.values f here),
        regular_codeLines h (h.values f here)⟩⟩

/-! ### What the text of a module tells -/

/-- The names of blocks are where blocks begin. -/
theorem chunked_codeLines (m : Module) (f : Func) :
    Chunked (fun p : Phrase => p.first ≠ "") (f.codeLines m) := by
  intro a mem
  obtain ⟨⟨insts, block⟩, -, rfl⟩ := List.mem_map.1 mem
  refine ⟨(Inst.isWord_blockName block).filled, fun p mem => ?_⟩
  obtain ⟨i, -, rfl⟩ := List.mem_map.1 mem
  exact fun filled => filled rfl

/-- Empty lines are where functions begin. -/
theorem chunked_functionLines (m : Module) : Chunked (· = single "") m.functionLines := by
  have longer (s : String) (w : MarkedWord) (ws : List MarkedWord) :
      (⟨s, w :: ws⟩ : Phrase) ≠ single "" :=
    fun same => List.cons_ne_nil _ _ (congrArg Phrase.more same)
  intro a mem
  obtain ⟨⟨f, id⟩, -, rfl⟩ := List.mem_map.1 mem
  refine ⟨rfl, List.forall_mem_cons.2 ⟨longer _ _ _, forall_mem_chunks.2 fun a mem => ?_⟩⟩
  obtain ⟨⟨insts, block⟩, -, rfl⟩ := List.mem_map.1 mem
  refine List.forall_mem_cons.2 ⟨longer _ _ _, fun p mem => ?_⟩
  obtain ⟨i, -, rfl⟩ := List.mem_map.1 mem
  exact longer _ _ _

theorem first_externs (m : Module) : ∀ p ∈ m.externs.map ExternDecl.phrase, p.first = "extern" := by
  intro p mem
  obtain ⟨e, -, rfl⟩ := List.mem_map.1 mem
  rfl

theorem first_functionLines (m : Module) :
    ∀ p ∈ (chunks m.functionLines).head?, p.first ≠ "extern" := by
  intro p mem
  rw [head?_chunks m.chunked_functionLines p mem]
  decide

/-- Two functions with the same text: what it tells of them agrees. -/
structure AlikeAt (m m' : Module) (id : FuncId) (f f' : Func) : Prop where
  name : f.name = f'.name
  signature : f.signature = f'.signature
  paramNames : ∀ i < f.signature.params.length, f.valueName? i = f'.valueName? i
  entry : m.entry = some id ↔ m'.entry = some id
  code : f.blocks.map (·.map (·.phrase m f)) = f'.blocks.map (·.map (·.phrase m' f'))

/-- Two modules with the same text: what it tells of them agrees. -/
structure Alike (m m' : Module) : Prop where
  name : m.name = m'.name
  externs : m.externs = m'.externs
  count : m.functions.length = m'.functions.length
  functions : ∀ id f f', m.functions[id]? = some f → m'.functions[id]? = some f' →
    AlikeAt m m' id f f'

theorem alikeAt_of_lines (hf : f.Legible) (hf' : f'.Legible)
    (head : m.headline id f = m'.headline id f') (code : f.codeLines m = f'.codeLines m') :
    AlikeAt m m' id f f' := by
  obtain ⟨name, params, ret, note⟩ := declaration_parts hf.items_params hf'.items_params head
  obtain ⟨types, names⟩ := Func.paramPhrases_parts params
  refine ⟨name, ?_, names, ?_, ?_⟩
  · cases first : f.signature
    cases second : f'.signature
    simp_all
  · by_cases first : m.entry = some id <;> by_cases second : m'.entry = some id <;> simp_all
  · rw [← Func.codeLines_snd, ← Func.codeLines_snd, code]

/-- **The text of a module tells its declarations and the lines of its code.** -/
theorem alike_of_dump (h : m.Legible) (h' : m'.Legible) (same : m.dump = m'.dump) :
    Alike m m' := by
  have lines := congrArg String.toList same
  rw [toList_dump, toList_dump] at lines
  obtain ⟨title, rest⟩ := List.cons.inj
    (Phrase.lines_injective h.regular_transcript h'.regular_transcript lines)
  obtain ⟨externs, functions⟩ := append_eq_append_at (·.first ≠ "extern")
    (fun p mem other => other (m.first_externs p mem))
    (fun p mem other => other (m'.first_externs p mem))
    m.first_functionLines m'.first_functionLines rest
  have functions := chunks_eq m.chunked_functionLines m'.chunked_functionLines functions
  refine ⟨by simpa using title, ?_, ?_, ?_⟩
  · exact map_eq_map_imp_eq externs fun _ _ _ _ same => ExternDecl.phrase_injective same
  · simpa [functionLines] using congrArg List.length functions
  · intro id f f' there there'
    have here := congrArg (·[id]?) functions
    simp only [functionLines, List.getElem?_map, List.getElem?_zipIdx, there, there',
      Option.map_some, Option.some.injEq, Prod.mk.injEq, List.cons.injEq, Nat.zero_add] at here
    obtain ⟨-, head, code⟩ := here
    exact alikeAt_of_lines (h.values f (List.mem_of_getElem? there))
      (h'.values f' (List.mem_of_getElem? there')) head
      (chunks_eq (chunked_codeLines m f) (chunked_codeLines m' f') code)

end Module

end HostBridge
