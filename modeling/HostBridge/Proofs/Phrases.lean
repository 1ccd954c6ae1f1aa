import HostBridge.Proofs.Numerals

/-!
# Texts that can be taken apart

A text for a reader is written in words, with marks between them: blanks, commas, colons, brackets
and ends of lines. No word has a mark in it. So a text tells by itself what its lines are, a line
tells its words, and a list in a line its items. A `Phrase` is a line that has been taken apart in
this way; `Phrase.text` puts it together.

Every step is the same. Where a row of elements is cut before each element of one kind, and no
element of that kind is elsewhere, the row can be cut in one way only: characters before marks,
words before commas, lines before empty lines.

* `append_eq_append_at`, `chunks_eq` — rows of elements that are cut;
* `Phrase.text_injective`, `Phrase.lines_injective` — a phrase from its text, lines from the text of
  all of them;
* `Phrase.listed_injective`, `Phrase.bracketed_eq` — the items from a list with commas.
-/

set_option autoImplicit false

namespace HostBridge

/-! ## Rows of elements -/

section Rows

variable {α β : Type}

/-- Where elements of one kind end and one of the other kind comes, a row can be taken apart in one
way only. -/
theorem append_eq_append_at (stop : α → Prop) {v w r s : List α} (hv : ∀ c ∈ v, ¬ stop c)
    (hw : ∀ c ∈ w, ¬ stop c) (hr : ∀ c ∈ r.head?, stop c) (hs : ∀ c ∈ s.head?, stop c)
    (h : v ++ r = w ++ s) : v = w ∧ r = s := by
  induction v generalizing w with
  | nil =>
    cases w with
    | nil => exact ⟨rfl, h⟩
    | cons d w =>
      have first : d ∈ r.head? := by rw [show r = d :: w ++ s from h]; rfl
      exact absurd (hr d first) (hw d List.mem_cons_self)
  | cons c v ih =>
    cases w with
    | nil =>
      have first : c ∈ s.head? := by rw [← show c :: v ++ r = s from h]; rfl
      exact absurd (hs c first) (hv c List.mem_cons_self)
    | cons d w =>
      obtain ⟨same, rest⟩ := List.cons.inj h
      obtain ⟨more, behind⟩ :=
        ih (fun e mem => hv e (.tail _ mem)) (fun e mem => hw e (.tail _ mem)) rest
      exact ⟨by rw [same, more], behind⟩

/-- Rows one behind the other, each given by its first element and the others. -/
def chunks (as : List (α × List α)) : List α := as.flatMap fun a => a.1 :: a.2

theorem forall_mem_chunks {P : α → Prop} {as : List (α × List α)} :
    (∀ c ∈ chunks as, P c) ↔ ∀ a ∈ as, ∀ c ∈ a.1 :: a.2, P c :=
  List.forall_mem_flatMap

/-- Each row begins with an element of a kind that comes nowhere else. -/
def Chunked (stop : α → Prop) (as : List (α × List α)) : Prop :=
  ∀ a ∈ as, stop a.1 ∧ ∀ c ∈ a.2, ¬ stop c

theorem head?_chunks {stop : α → Prop} {as : List (α × List α)} (h : Chunked stop as) :
    ∀ c ∈ (chunks as).head?, stop c := by
  cases as with
  | nil => exact nofun
  | cons a as =>
    rintro _ ⟨⟩
    exact (h a List.mem_cons_self).1

/-- **Such rows can be told apart.** -/
theorem chunks_eq {stop : α → Prop} {as bs : List (α × List α)} (ha : Chunked stop as)
    (hb : Chunked stop bs) (h : chunks as = chunks bs) : as = bs := by
  induction as generalizing bs with
  | nil =>
    cases bs with
    | nil => rfl
    | cons b bs => cases h
  | cons a as ih =>
    cases bs with
    | nil => cases h
    | cons b bs =>
      have ha' : Chunked stop as := fun c mem => ha c (.tail _ mem)
      have hb' : Chunked stop bs := fun c mem => hb c (.tail _ mem)
      obtain ⟨first, rest⟩ := List.cons.inj h
      obtain ⟨row, behind⟩ := append_eq_append_at stop (ha a List.mem_cons_self).2
        (hb b List.mem_cons_self).2 (head?_chunks ha') (head?_chunks hb') rest
      rw [ih ha' hb' behind, Prod.ext first row]

/-- Lists with the same views, if the views tell the elements apart. -/
theorem map_eq_map_imp_eq {f g : α → β} {xs ys : List α} (h : xs.map f = ys.map g)
    (apart : ∀ x ∈ xs, ∀ y ∈ ys, f x = g y → x = y) : xs = ys := by
  induction xs generalizing ys with
  | nil => exact (List.map_eq_nil_iff.1 h.symm).symm
  | cons x xs ih =>
    cases ys with
    | nil => cases h
    | cons y ys =>
      obtain ⟨first, rest⟩ := List.cons.inj h
      rw [apart x List.mem_cons_self y List.mem_cons_self first,
        ih rest fun x hx y hy => apart x (.tail _ hx) y (.tail _ hy)]

end Rows

/-! ## Words -/

/-- What separates words. -/
def marks : List Char := [' ', '\n', ',', ':', '(', ')']

/-- A text without marks. -/
def Plain (s : String) : Prop := ∀ c ∈ s.toList, c ∉ marks

/-- A text without marks that is not empty. -/
structure IsWord (s : String) : Prop where
  filled : s ≠ ""
  plain : Plain s

instance (s : String) : Decidable (Plain s) := List.decidableBAll _ _

instance (s : String) : Decidable (IsWord s) :=
  decidable_of_iff (s ≠ "" ∧ Plain s) ⟨fun h => ⟨h.1, h.2⟩, fun h => ⟨h.filled, h.plain⟩⟩

theorem Plain.append {s t : String} (hs : Plain s) (ht : Plain t) : Plain (s ++ t) := by
  intro c mem
  rw [String.toList_append] at mem
  exact (List.mem_append.1 mem).elim (hs c) (ht c)

theorem IsWord.append {s t : String} (hs : IsWord s) (ht : Plain t) : IsWord (s ++ t) where
  filled := fun none => hs.filled (String.append_eq_empty_iff.1 none).1
  plain := hs.plain.append ht

/-- Characters of a kind that no mark is of. -/
theorem plain_of_kind (kind : Char → Bool) (other : marks.any kind = false) {s : String}
    (h : ∀ c ∈ s.toList, kind c = true) : Plain s := by
  intro c mem mark
  exact List.any_eq_false.1 other c mark (h c mem)

/-- Letters, digits, underscores and full stops. -/
def isNameChar (c : Char) : Bool := c.isAlphanum || c = '_' || c = '.'

theorem IsWord.of_nameChars {s : String} (filled : s ≠ "")
    (letters : s.toList.all isNameChar = true) : IsWord s :=
  ⟨filled, plain_of_kind isNameChar (by decide) (List.all_eq_true.1 letters)⟩

/-! ### Numbers -/

theorem toDigits_injective {m n : Nat} (h : Nat.toDigits 10 m = Nat.toDigits 10 n) : m = n := by
  rw [← Json.decimal_toDigits m, h, Json.decimal_toDigits]

theorem toString_injective {m n : Nat} (h : toString m = toString n) : m = n := by
  have digits := congrArg String.toList h
  rw [Nat.toString_eq_repr, Nat.toString_eq_repr, Nat.toList_repr, Nat.toList_repr] at digits
  exact toDigits_injective digits

/-- The text of an integer starts with a digit exactly if it is not negative. -/
theorem toString_int_injective {m n : Int} (h : toString m = toString n) : m = n := by
  have unsigned (n : Nat) (cs : List Char) : (toString n).toList ≠ '-' :: cs := by
    intro same
    rw [Nat.toString_eq_repr, Nat.toList_repr] at same
    have digit : '-'.isDigit = true :=
      Nat.isDigit_of_mem_toDigits (by omega) (by omega) (same ▸ List.mem_cons_self)
    cases digit
  have signed (n : Nat) : (toString (Int.negSucc n)).toList = '-' :: (toString (n + 1)).toList :=
    String.toList_append
  have letters := congrArg String.toList h
  cases m with
  | ofNat m =>
    cases n with
    | ofNat n => exact congrArg Int.ofNat (toString_injective h)
    | negSucc n => exact absurd (letters.trans (signed n)) (unsigned m _)
  | negSucc m =>
    cases n with
    | ofNat n => exact absurd (letters.symm.trans (signed m)) (unsigned n _)
    | negSucc n =>
      rw [signed, signed] at letters
      have next := toString_injective (String.toList_injective (List.cons.inj letters).2)
      rw [Nat.succ.inj next]

theorem plain_digits (n : Nat) : Plain (toString n) := by
  refine plain_of_kind Char.isDigit (by decide) fun c mem => ?_
  rw [Nat.toString_eq_repr, Nat.toList_repr] at mem
  exact Nat.isDigit_of_mem_toDigits (by omega) (by omega) mem

theorem isWord_toString (n : Nat) : IsWord (toString n) where
  filled := fun none => by
    have digits := congrArg String.toList none
    rw [Nat.toString_eq_repr, Nat.toList_repr] at digits
    exact Nat.toDigits_ne_nil digits
  plain := plain_digits n

theorem isWord_toString_int (n : Int) : IsWord (toString n) := by
  cases n with
  | ofNat n => exact isWord_toString n
  | negSucc n => exact IsWord.append (s := "-") (by decide) (plain_digits _)

theorem Word.text_injective {v w : Word} (h : v.text = w.text) : v = w := by
  have same := congrArg Word.parse? h
  rw [Word.parse?_text, Word.parse?_text] at same
  exact Option.some.inj same

/-- A hexadecimal numeral consists of digits. -/
theorem digit_of_mem_toDigits (n : Nat) :
    ∀ c ∈ Nat.toDigits 16 n, ∃ d < 16, c = Nat.digitChar d := by
  induction n using Nat.strongRecOn with
  | ind n ih =>
    rw [Nat.toDigits_eq_if (by omega)]
    by_cases last : n < 16
    · rw [if_pos last]
      intro c mem
      exact ⟨n, last, List.mem_singleton.1 mem⟩
    · rw [if_neg last]
      intro c mem
      rcases List.mem_append.1 mem with before | digit
      · exact ih (n / 16) (by omega) c before
      · exact ⟨n % 16, by omega, List.mem_singleton.1 digit⟩

theorem Word.isWord_text (w : Word) : IsWord w.text where
  filled := fun none => by
    have letters := congrArg String.toList none
    rw [text, String.toList_ofList] at letters
    cases letters
  plain := by
    have digits : ∀ d < 16, Nat.digitChar d ∉ marks := by decide
    intro c mem
    rw [text, String.toList_ofList] at mem
    rcases List.mem_cons.1 mem with rfl | mem
    · decide
    rcases List.mem_cons.1 mem with rfl | mem
    · decide
    · obtain ⟨d, small, rfl⟩ := digit_of_mem_toDigits _ c mem
      exact digits d small

/-! ## Phrases -/

/-- A word, which may be empty, and the mark before it. -/
structure MarkedWord where
  mark : Char
  word : String
  deriving DecidableEq

namespace MarkedWord

/-- The mark is one and does not end the line, and there are no marks in the word. -/
structure Regular (w : MarkedWord) : Prop where
  mark : w.mark ∈ marks
  inLine : w.mark ≠ '\n'
  plain : Plain w.word

theorem regular_blank {s : String} (h : Plain s) : Regular ⟨' ', s⟩ :=
  ⟨(by decide : ' ' ∈ marks), (by decide : ' ' ≠ '\n'), h⟩

/-- The mark and the characters of the word. -/
def chars (w : MarkedWord) : Char × List Char := (w.mark, w.word.toList)

theorem chars_injective {v w : MarkedWord} (h : v.chars = w.chars) : v = w := by
  obtain ⟨mark, word⟩ := Prod.mk.inj h
  cases v
  cases w
  exact (MarkedWord.mk.injEq ..).symm ▸ ⟨mark, String.toList_injective word⟩

end MarkedWord

/-- The characters of words with marks. -/
def spelled (ws : List MarkedWord) : List Char := chunks (ws.map MarkedWord.chars)

@[simp] theorem spelled_nil : spelled [] = [] := rfl

@[simp] theorem spelled_cons (w : MarkedWord) (ws : List MarkedWord) :
    spelled (w :: ws) = w.mark :: (w.word.toList ++ spelled ws) :=
  rfl

@[simp] theorem spelled_append (vs ws : List MarkedWord) :
    spelled (vs ++ ws) = spelled vs ++ spelled ws := by
  simp [spelled, chunks]

/-- Words with a mark between each two of them. -/
structure Phrase where
  first : String
  more : List MarkedWord
  deriving DecidableEq

namespace Phrase

/-- A single word. -/
def single (s : String) : Phrase := ⟨s, []⟩

/-- The characters of a phrase. -/
def text (p : Phrase) : List Char := p.first.toList ++ spelled p.more

@[simp] theorem text_single (s : String) : (single s).text = s.toList := List.append_nil _

/-- The characters of several lines. -/
def lines (ps : List Phrase) : List Char := ps.flatMap fun p => p.text ++ ['\n']

@[simp] theorem lines_cons (p : Phrase) (ps : List Phrase) :
    lines (p :: ps) = p.text ++ '\n' :: lines ps := by
  simp [lines]

@[simp] theorem lines_append (ps qs : List Phrase) : lines (ps ++ qs) = lines ps ++ lines qs :=
  List.flatMap_append

/-- The words and marks of a phrase are what they should be in a line. -/
structure Regular (p : Phrase) : Prop where
  first : Plain p.first
  more : ∀ w ∈ p.more, w.Regular

variable {p q : Phrase} {ps qs : List Phrase}

theorem Regular.chunked (h : p.Regular) : Chunked (· ∈ marks) (p.more.map MarkedWord.chars) := by
  intro a mem
  obtain ⟨w, there, rfl⟩ := List.mem_map.1 mem
  exact ⟨(h.more w there).mark, (h.more w there).plain⟩

/-- **A phrase is known from its text.** -/
theorem text_injective (hp : p.Regular) (hq : q.Regular) (h : p.text = q.text) : p = q := by
  obtain ⟨first, rest⟩ := append_eq_append_at (· ∈ marks) hp.first hq.first
    (head?_chunks hp.chunked) (head?_chunks hq.chunked) h
  have more : p.more = q.more := map_eq_map_imp_eq (chunks_eq hp.chunked hq.chunked rest)
    fun _ _ _ _ same => MarkedWord.chars_injective same
  cases p
  cases q
  exact (Phrase.mk.injEq ..).symm ▸ ⟨String.toList_injective first, more⟩

/-- No line ends before its end. -/
theorem Regular.no_newline (h : p.Regular) : ∀ c ∈ p.text, c ≠ '\n' := by
  rintro c mem rfl
  have newline : '\n' ∈ marks := by decide
  rcases List.mem_append.1 mem with first | more
  · exact h.first _ first newline
  · obtain ⟨a, there, mem⟩ := List.mem_flatMap.1 more
    obtain ⟨w, mine, rfl⟩ := List.mem_map.1 there
    have regular := h.more w mine
    rcases List.mem_cons.1 mem with mark | word
    · exact regular.inLine mark.symm
    · exact regular.plain _ word newline

/-- **Lines are known from the text of all of them.** -/
theorem lines_injective (hp : ∀ p ∈ ps, p.Regular) (hq : ∀ q ∈ qs, q.Regular)
    (h : lines ps = lines qs) : ps = qs := by
  induction ps generalizing qs with
  | nil =>
    cases qs with
    | nil => rfl
    | cons q qs => simp [lines] at h
  | cons p ps ih =>
    cases qs with
    | nil => simp [lines] at h
    | cons q qs =>
      have regular := hp p List.mem_cons_self
      have regular' := hq q List.mem_cons_self
      simp only [lines, List.flatMap_cons, List.append_assoc] at h
      obtain ⟨text, rest⟩ := append_eq_append_at (· = '\n') regular.no_newline regular'.no_newline
        (by rintro _ ⟨⟩; rfl) (by rintro _ ⟨⟩; rfl) h
      have later := ih (fun p mem => hp p (.tail _ mem)) (fun q mem => hq q (.tail _ mem))
        (List.cons.inj rest).2
      rw [text_injective regular regular' text, later]

/-! ### Lists -/

/-- The words of a phrase behind a mark. -/
def behind (mark : Char) (p : Phrase) : List MarkedWord := ⟨mark, p.first⟩ :: p.more

/-- What separates an item from the one before it. -/
def comma : MarkedWord := ⟨',', ""⟩

/-- The further items of a list, each with the comma before it. -/
def items (ps : List Phrase) : List (MarkedWord × List MarkedWord) :=
  ps.map fun p => (comma, p.behind ' ')

/-- Phrases behind a mark and separated by commas. -/
def listed (mark : Char) : List Phrase → List MarkedWord
  | [] => []
  | p :: ps => p.behind mark ++ chunks (items ps)

/-- Phrases behind an opening bracket and separated by commas. -/
def opened : List Phrase → List MarkedWord
  | [] => [⟨'(', ""⟩]
  | p :: ps => listed '(' (p :: ps)

/-- Phrases in brackets, separated by commas. -/
def bracketed (ps : List Phrase) : List MarkedWord := opened ps ++ [⟨')', ""⟩]

/-- A phrase that can be an item of a list. -/
structure IsItem (p : Phrase) : Prop where
  filled : p.first ≠ ""
  regular : p.Regular
  marks : ∀ w ∈ p.more, w.mark ≠ ',' ∧ w.mark ≠ ')'

theorem behind_injective {mark : Char} (h : p.behind mark = q.behind mark) : p = q := by
  cases p
  cases q
  simpa [behind] using h

/-! #### Words as items -/

theorem items_single {words : List String} (h : ∀ s ∈ words, IsWord s) :
    ∀ p ∈ words.map single, p.IsItem := by
  intro p mem
  obtain ⟨s, there, rfl⟩ := List.mem_map.1 mem
  exact ⟨(h s there).filled, ⟨(h s there).plain, nofun⟩, nofun⟩

theorem map_single_injective {xs ys : List String} (h : xs.map single = ys.map single) : xs = ys :=
  map_eq_map_imp_eq h fun _ _ _ _ same => congrArg Phrase.first same

theorem map_text_single (words : List String) :
    (words.map single).map text = words.map String.toList := by
  simp

/-! #### What is in a list -/

/-- Every word of a list is in an item or in a comma. -/
theorem mem_listed {mark : Char} {w : MarkedWord} (mem : w ∈ listed mark ps) :
    (∃ p ∈ ps, w ∈ p.behind mark ∨ w ∈ p.behind ' ') ∨ w = comma := by
  cases ps with
  | nil => cases mem
  | cons p ps =>
    rcases List.mem_append.1 mem with first | later
    · exact .inl ⟨p, List.mem_cons_self, .inl first⟩
    · obtain ⟨a, there, mem⟩ := List.mem_flatMap.1 later
      obtain ⟨q, mine, rfl⟩ := List.mem_map.1 there
      rcases List.mem_cons.1 mem with comma | word
      · exact .inr comma
      · exact .inl ⟨q, .tail _ mine, .inr word⟩

theorem IsItem.mark_behind (h : p.IsItem) {mark : Char} {w : MarkedWord} (mem : w ∈ p.behind mark) :
    w.mark = mark ∨ w.mark ≠ ',' ∧ w.mark ≠ ')' := by
  rcases List.mem_cons.1 mem with rfl | more
  · exact .inl rfl
  · exact .inr (h.marks w more)

theorem IsItem.regular_behind (h : p.IsItem) {mark : Char} (known : mark ∈ HostBridge.marks)
    (inLine : mark ≠ '\n') {w : MarkedWord} (mem : w ∈ p.behind mark) : w.Regular := by
  rcases List.mem_cons.1 mem with rfl | more
  · exact ⟨known, inLine, h.regular.first⟩
  · exact h.regular.more w more

theorem regular_listed (h : ∀ p ∈ ps, p.IsItem) {mark : Char} (known : mark ∈ HostBridge.marks)
    (inLine : mark ≠ '\n') : ∀ w ∈ listed mark ps, w.Regular := by
  intro w mem
  rcases mem_listed mem with ⟨p, there, first | later⟩ | rfl
  · exact (h p there).regular_behind known inLine first
  · exact (h p there).regular_behind (by decide) (by decide) later
  · exact ⟨by decide, by decide, nofun⟩

/-- No closing bracket is in a list. -/
theorem listed_open (h : ∀ p ∈ ps, p.IsItem) {mark : Char} (other : mark ≠ ')') :
    ∀ w ∈ listed mark ps, w.mark ≠ ')' := by
  rintro w mem same
  rcases mem_listed mem with ⟨p, there, first | later⟩ | rfl
  · exact ((h p there).mark_behind first).elim (fun eq => other (eq ▸ same)) (·.2 same)
  · exact ((h p there).mark_behind later).elim (fun eq => absurd (eq ▸ same) (by decide)) (·.2 same)
  · exact absurd same (by decide)

/-! #### The items of a list -/

theorem chunked_items (h : ∀ p ∈ ps, p.IsItem) :
    Chunked (fun w : MarkedWord => w.mark = ',') (items ps) := by
  intro a mem
  obtain ⟨p, there, rfl⟩ := List.mem_map.1 mem
  refine ⟨rfl, fun w mem (same : w.mark = ',') => ?_⟩
  exact ((h p there).mark_behind mem).elim (fun eq => absurd (eq ▸ same) (by decide)) (·.1 same)

/-- **The items are known from their list.** -/
theorem listed_injective {mark : Char} (other : mark ≠ ',') (hp : ∀ p ∈ ps, p.IsItem)
    (hq : ∀ q ∈ qs, q.IsItem) (h : listed mark ps = listed mark qs) : ps = qs := by
  have first {p : Phrase} (item : p.IsItem) : ∀ w ∈ p.behind mark, ¬ w.mark = ',' :=
    fun w mem same => (item.mark_behind mem).elim (fun eq => other (eq ▸ same)) (·.1 same)
  cases ps with
  | nil =>
    cases qs with
    | nil => rfl
    | cons q qs => cases h
  | cons p ps =>
    cases qs with
    | nil => cases h
    | cons q qs =>
      have later := chunked_items fun p mem => hp p (.tail _ mem)
      have later' := chunked_items fun q mem => hq q (.tail _ mem)
      obtain ⟨head, rest⟩ := append_eq_append_at (·.mark = ',') (first (hp p List.mem_cons_self))
        (first (hq q List.mem_cons_self)) (head?_chunks later) (head?_chunks later') h
      have tail : ps = qs := map_eq_map_imp_eq (chunks_eq later later' rest)
        fun _ _ _ _ same => behind_injective (Prod.mk.inj same).2
      rw [behind_injective head, tail]

theorem opened_injective (hp : ∀ p ∈ ps, p.IsItem) (hq : ∀ q ∈ qs, q.IsItem)
    (h : opened ps = opened qs) : ps = qs := by
  cases ps with
  | nil =>
    cases qs with
    | nil => rfl
    | cons q qs =>
      have first := (MarkedWord.mk.inj (List.cons.inj h).1).2
      exact absurd first.symm (hq q List.mem_cons_self).filled
  | cons p ps =>
    cases qs with
    | nil =>
      have first := (MarkedWord.mk.inj (List.cons.inj h).1).2
      exact absurd first (hp p List.mem_cons_self).filled
    | cons q qs => exact listed_injective (by decide) hp hq h

theorem opened_open (h : ∀ p ∈ ps, p.IsItem) : ∀ w ∈ opened ps, w.mark ≠ ')' := by
  cases ps with
  | nil =>
    intro w mem
    rw [List.mem_singleton.1 mem]
    decide
  | cons p ps => exact listed_open h (by decide)

/-- **The items are known from a list in brackets**, and so is what follows it. -/
theorem bracketed_eq (hp : ∀ p ∈ ps, p.IsItem) (hq : ∀ q ∈ qs, q.IsItem) {r s : List MarkedWord}
    (h : bracketed ps ++ r = bracketed qs ++ s) : ps = qs ∧ r = s := by
  rw [bracketed, bracketed, List.append_assoc, List.append_assoc] at h
  obtain ⟨list, rest⟩ := append_eq_append_at (·.mark = ')') (opened_open hp) (opened_open hq)
    (by rintro _ ⟨⟩; rfl) (by rintro _ ⟨⟩; rfl) h
  exact ⟨opened_injective hp hq list, (List.cons.inj rest).2⟩

theorem regular_bracketed (h : ∀ p ∈ ps, p.IsItem) : ∀ w ∈ bracketed ps, w.Regular := by
  intro w mem
  rcases List.mem_append.1 mem with list | close
  · cases ps with
    | nil =>
      rw [List.mem_singleton.1 list]
      exact ⟨by decide, by decide, nofun⟩
    | cons p ps => exact regular_listed h (by decide) (by decide) w list
  · rw [List.mem_singleton.1 close]
    exact ⟨by decide, by decide, nofun⟩

/-! #### The characters of a list -/

theorem spelled_behind (mark : Char) (p : Phrase) : spelled (p.behind mark) = mark :: p.text := rfl

theorem spelled_listed (mark : Char) (p : Phrase) (ps : List Phrase) :
    spelled (listed mark (p :: ps)) = mark :: [',', ' '].intercalate ((p :: ps).map text) := by
  induction ps generalizing mark p with
  | nil => simp [listed, items, chunks, spelled_behind]
  | cons q ps ih =>
    have next : listed mark (p :: q :: ps) = p.behind mark ++ comma :: listed ' ' (q :: ps) := rfl
    simp only [next, spelled_append, spelled_cons, ih, spelled_behind, List.map_cons,
      List.intercalate_cons_cons]
    simp [comma]

theorem spelled_bracketed (ps : List Phrase) :
    spelled (bracketed ps) = '(' :: ([',', ' '].intercalate (ps.map text) ++ [')']) := by
  cases ps with
  | nil => rfl
  | cons p ps => rw [bracketed, spelled_append, opened, spelled_listed]; rfl

end Phrase

end HostBridge
