import HostBridge.Json.Reader
import HostBridge.Json.Writer
import HostBridge.Proofs.Numerals

/-!
# Rendered values are read back

The two machines of the reader are taken one after the other. What is written for a value is cut
into the tokens of that value, whatever stands behind it, as long as that does not lengthen its last
word; and the tokens of a value build that value, whatever is still open around it. The reader runs
both machines at once, and this makes no difference where no list must hold a fixed number of bytes.

* `Lexer.tokens?_write` — what is written is cut into its tokens;
* `Builder.run_tokens` — the tokens of a value build it;
* `Reader.value?_eq` — the reader is the one machine after the other;
* `Value.parse?_render` and `Value.read?_render` — a rendered value is read back.
-/

set_option autoImplicit false

namespace HostBridge.Json

/-! ## Tokens of a value -/

namespace Value

mutual

/-- The tokens that spell a value. -/
def tokens : Value → List Token
  | null => [.null]
  | bool b => [.bool b]
  | natural n => [.natural n]
  | text s => [.text s]
  | other => [.otherNumber]
  | list [] => [.openList, .closeList]
  | list (item :: items) => .openList :: (item.tokens ++ itemTokens items ++ [.closeList])
  | record [] => [.openRecord, .closeRecord]
  | record ((key, v) :: fields) =>
    .openRecord :: .text key :: .colon :: (v.tokens ++ fieldTokens fields ++ [.closeRecord])

/-- The tokens of the items after the first. -/
def itemTokens : List Value → List Token
  | [] => []
  | item :: items => .comma :: (item.tokens ++ itemTokens items)

/-- The tokens of the fields after the first. -/
def fieldTokens : List (String × Value) → List Token
  | [] => []
  | (key, v) :: fields => .comma :: .text key :: .colon :: (v.tokens ++ fieldTokens fields)

end

end Value

/-! ## Strings -/

/-- The piece that an escaped character becomes: itself, or a number if only its number can be
written. -/
def piece (c : Char) : Piece :=
  if c.toNat < 0x20 ∧ c ∉ ['\x08', '\x0c', '\n', '\r', '\t'] then .unit c.toNat else .char c

theorem joinPieces_unit {n : Nat} (small : n < 0xD800) (pieces : List Piece) :
    joinPieces (.unit n :: pieces) = (joinPieces pieces).map (Char.ofNat n :: ·) := by
  cases pieces with
  | nil => simp [joinPieces, small]
  | cons p pieces => cases p <;> simp [joinPieces, small]

theorem joinPieces_piece (c : Char) (pieces : List Piece) :
    joinPieces (piece c :: pieces) = (joinPieces pieces).map (c :: ·) := by
  unfold piece
  split
  case isTrue control => rw [joinPieces_unit (by omega), Char.ofNat_toNat]
  case isFalse => rw [joinPieces]

theorem joinPieces_map_piece (cs : List Char) : joinPieces (cs.map piece) = some cs := by
  induction cs with
  | nil => rfl
  | cons c cs ih => rw [List.map_cons, joinPieces_piece, ih, Option.map_some]

theorem textToken_map_piece (s : String) : textToken (s.toList.map piece) = .text s := by
  rw [textToken, joinPieces_map_piece]
  dsimp only
  rw [String.ofList_toList]

/-! ## Cutting a text into tokens -/

namespace Lexer

/-- All the tokens that the rest of a text completes. -/
def tokens? : Lexer → List Char → Option (List Token)
  | l, [] => l.finish
  | l, c :: cs => (l.step c).bind fun (ts, after) => (after.tokens? cs).map (ts ++ ·)

/-- A character that completes no token. -/
theorem tokens?_quiet {l after : Lexer} {c : Char} (step : l.step c = some ([], after))
    (cs : List Char) : l.tokens? (c :: cs) = after.tokens? cs := by
  simp [tokens?, step]

/-- A character that completes one token. -/
theorem tokens?_single {l after : Lexer} {c : Char} {t : Token}
    (step : l.step c = some ([t], after)) (cs : List Char) :
    l.tokens? (c :: cs) = (after.tokens? cs).map (t :: ·) := by
  rw [tokens?, step, Option.bind_some]
  rfl

/-- The characters with an escape of their own. -/
def named : List Char := ['"', '\\', '\x08', '\x0c', '\n', '\r', '\t']

theorem tokens?_escape_named (rev : List Piece) {c : Char} (listed : c ∈ named) (rest : List Char) :
    (text rev).tokens? (escapeChar c ++ rest) = (text (piece c :: rev)).tokens? rest := by
  have letter {d e : Char} (escaped : escapeChar c = ['\\', d]) (back : unescape? d = some e)
      (single : d ≠ 'u') (same : piece c = .char e) :
      (text rev).tokens? (escapeChar c ++ rest) = (text (piece c :: rev)).tokens? rest := by
    have last : (escape rev).step d = some ([], text (.char e :: rev)) := by
      rw [step, if_neg single, back, Option.map_some]
    rw [escaped, same]
    exact (tokens?_quiet rfl _).trans (tokens?_quiet last rest)
  simp only [named, List.mem_cons, List.not_mem_nil, or_false] at listed
  obtain rfl | rfl | rfl | rfl | rfl | rfl | rfl := listed <;>
    exact letter rfl rfl (by decide) rfl

theorem step_unit {c : Char} {d : Nat} (digit : Bytes.hexValue? c = some d) (rev : List Piece)
    (left value : Nat) :
    (unit rev (left + 1) value).step c = some ([], unit rev left (16 * value + d)) ∧
    (unit rev 0 value).step c = some ([], text (.unit (16 * value + d) :: rev)) := by
  simp [step, digit]

theorem tokens?_escape_control (rev : List Piece) {c : Char} (unlisted : c ∉ named)
    (control : c.toNat < 0x20) (rest : List Char) :
    (text rev).tokens? (escapeChar c ++ rest) = (text (piece c :: rev)).tokens? rest := by
  have high := @Bytes.hexValue?_hexDigit (c.toNat / 16) (by omega)
  have low := @Bytes.hexValue?_hexDigit (c.toNat % 16) (by omega)
  have zero : Bytes.hexValue? '0' = some 0 := rfl
  have escaped : escapeChar c = ['\\', 'u', '0', '0', Bytes.hexDigit (c.toNat / 16),
      Bytes.hexDigit (c.toNat % 16)] := by
    simp only [named, List.mem_cons, List.not_mem_nil, or_false, not_or] at unlisted
    simp [escapeChar, unlisted, control]
  have unit : piece c = .unit c.toNat := by
    refine if_pos ⟨control, fun other => unlisted ?_⟩
    exact List.mem_cons_of_mem _ (List.mem_cons_of_mem _ other)
  have total : 16 * (c.toNat / 16) + c.toNat % 16 = c.toNat := Nat.div_add_mod ..
  calc (text rev).tokens? (escapeChar c ++ rest)
    _ = (Lexer.unit rev 3 0).tokens? ('0' :: '0' :: Bytes.hexDigit (c.toNat / 16)
          :: Bytes.hexDigit (c.toNat % 16) :: rest) := by
      rw [escaped]
      exact (tokens?_quiet rfl _).trans (tokens?_quiet rfl _)
    _ = (Lexer.unit rev 0 (c.toNat / 16)).tokens? (Bytes.hexDigit (c.toNat % 16) :: rest) := by
      rw [tokens?_quiet (step_unit zero rev 2 0).1, tokens?_quiet (step_unit zero rev 1 _).1,
        tokens?_quiet (step_unit high rev 0 _).1]
      simp
    _ = (text (piece c :: rev)).tokens? rest := by
      rw [tokens?_quiet (step_unit low rev 0 _).2, total, unit]

/-- An escaped character is taken in as its piece. -/
theorem tokens?_escapeChar (rev : List Piece) (c : Char) (rest : List Char) :
    (text rev).tokens? (escapeChar c ++ rest) = (text (piece c :: rev)).tokens? rest := by
  by_cases listed : c ∈ named
  · exact tokens?_escape_named rev listed rest
  by_cases control : c.toNat < 0x20
  · exact tokens?_escape_control rev listed control rest
  have plain : piece c = .char c := if_neg fun both => control both.1
  simp only [named, List.mem_cons, List.not_mem_nil, or_false, not_or] at listed
  have escaped : escapeChar c = [c] := by simp [escapeChar, listed, control]
  rw [escaped, plain]
  apply tokens?_quiet
  simp [step, listed, control]

theorem tokens?_text (rev : List Piece) (cs rest : List Char) :
    (text rev).tokens? (cs.flatMap escapeChar ++ '"' :: rest) =
      (between.tokens? rest).map (textToken (rev.reverse ++ cs.map piece) :: ·) := by
  induction cs generalizing rev with
  | nil =>
    rw [List.flatMap_nil, List.nil_append, List.map_nil, List.append_nil]
    exact tokens?_single rfl rest
  | cons c cs ih =>
    rw [List.flatMap_cons, List.append_assoc, tokens?_escapeChar, ih, List.reverse_cons,
      List.append_assoc, List.map_cons, List.singleton_append]

/-- A quoted string is one token. -/
theorem tokens?_quote (s : String) (rest : List Char) :
    between.tokens? (quote s ++ rest) = (between.tokens? rest).map (.text s :: ·) := by
  rw [quote, List.cons_append, List.append_assoc, List.singleton_append]
  exact (tokens?_quiet rfl _).trans (by
    rw [tokens?_text, List.reverse_nil, List.nil_append, textToken_map_piece])

/-! ### Words -/

theorem start_of_isWordChar {c : Char} (letter : isWordChar c = true) :
    start c = some ([], word [c]) := by
  have other {d : Char} (apart : isWordChar d = false) : c ≠ d := by
    rintro rfl
    rw [apart] at letter
    cases letter
  have blank : isBlank c = false := by
    simp [isBlank, other (d := ' ') rfl, other (d := '\n') rfl, other (d := '\t') rfl,
      other (d := '\r') rfl]
  have mark : punctuation? c = none := by
    simp [punctuation?, other (d := '[') rfl, other (d := ']') rfl, other (d := '\x7b') rfl,
      other (d := '\x7d') rfl, other (d := ',') rfl, other (d := ':') rfl]
  simp [start, blank, mark, letter, other (d := '"') rfl]

/-- A text before which a word ends. -/
def Ends (rest : List Char) : Prop := ∀ c ∈ rest.head?, isWordChar c = false

theorem tokens?_within_word {t : Token} {rest : List Char} (ends : Ends rest) (rev cs : List Char)
    (letters : cs.all isWordChar = true) (spelt : word? (rev.reverse ++ cs) = some t) :
    (word rev).tokens? (cs ++ rest) = (between.tokens? rest).map (t :: ·) := by
  induction cs generalizing rev with
  | nil =>
    rw [List.append_nil] at spelt
    cases rest with
    | nil => simp [tokens?, finish, spelt]
    | cons c rest =>
      have apart : isWordChar c = false := ends c rfl
      cases next : start c with
      | none => simp [tokens?, step, spelt, apart, next]
      | some found => simp [tokens?, step, spelt, apart, next, Function.comp_def]
  | cons c cs ih =>
    rw [List.all_cons, Bool.and_eq_true] at letters
    rw [List.cons_append, tokens?_quiet (by rw [step, if_pos letters.1])]
    apply ih (c :: rev) letters.2
    rwa [List.reverse_cons, List.append_assoc, List.singleton_append]

/-- A word is one token, if the text after it does not go on with it. -/
theorem tokens?_word {t : Token} {rest : List Char} (ends : Ends rest) (c : Char) (cs : List Char)
    (letters : (c :: cs).all isWordChar = true) (spelt : word? (c :: cs) = some t) :
    between.tokens? (c :: cs ++ rest) = (between.tokens? rest).map (t :: ·) := by
  rw [List.all_cons, Bool.and_eq_true] at letters
  have first : between.step c = some ([], word [c]) := start_of_isWordChar letters.1
  rw [List.cons_append, tokens?_quiet first]
  exact tokens?_within_word ends [c] cs letters.2 spelt

/-! ### Layout -/

theorem Ends.cons {c : Char} (apart : isWordChar c = false) (rest : List Char) :
    Ends (c :: rest) := by
  rintro d same
  rwa [← Option.some.inj same]

theorem Ends.lineBreak (style : Style) (depth : Nat) {rest : List Char} (ends : Ends rest) :
    Ends (style.lineBreak depth ++ rest) := by
  cases style with
  | compact => exact ends
  | indented => exact .cons rfl _

theorem tokens?_lineBreak (style : Style) (depth : Nat) (rest : List Char) :
    between.tokens? (style.lineBreak depth ++ rest) = between.tokens? rest := by
  have blanks (n : Nat) : between.tokens? (List.replicate n ' ' ++ rest) = between.tokens? rest := by
    induction n with
    | zero => rfl
    | succ n ih =>
      rw [List.replicate_succ, List.cons_append]
      exact (tokens?_quiet rfl _).trans ih
  cases style with
  | compact => rfl
  | indented => exact (tokens?_quiet rfl _).trans (blanks _)

theorem tokens?_keySeparator (style : Style) (rest : List Char) :
    between.tokens? (style.keySeparator ++ rest) = (between.tokens? rest).map (.colon :: ·) := by
  cases style with
  | compact => exact tokens?_single rfl rest
  | indented =>
    have blank : between.tokens? (' ' :: rest) = between.tokens? rest := tokens?_quiet rfl rest
    rw [← blank]
    exact tokens?_single rfl (' ' :: rest)

/-! ### Values -/

/-- The digits of a natural number are one token. -/
theorem tokens?_toDigits (n : Nat) {rest : List Char} (ends : Ends rest) :
    between.tokens? (Nat.toDigits 10 n ++ rest) =
      (between.tokens? rest).map (.natural n :: ·) := by
  have letters : (Nat.toDigits 10 n).all isWordChar = true := by
    rw [List.all_eq_true]
    intro c digit
    have numeric : c.isDigit = true := Nat.isDigit_of_mem_toDigits (by omega) (by omega) digit
    simp [isWordChar, Char.isAlphanum, numeric]
  have spelt := word?_toDigits n
  cases digits : Nat.toDigits 10 n with
  | nil => exact absurd digits Nat.toDigits_ne_nil
  | cons c cs =>
    rw [digits] at letters spelt
    exact tokens?_word ends c cs letters spelt

theorem tokens?_mark {c : Char} {t : Token} (step : between.step c = some ([t], between))
    (rest : List Char) : between.tokens? (c :: rest) = (between.tokens? rest).map (t :: ·) :=
  tokens?_single step rest

open Value

theorem Ends.items (style : Style) (depth : Nat) (items : List Value) {rest : List Char}
    (ends : Ends rest) : Ends (writeItems style depth items ++ rest) := by
  cases items with
  | nil => exact ends
  | cons item items => exact .cons rfl _

theorem Ends.fields (style : Style) (depth : Nat) (fields : List (String × Value))
    {rest : List Char} (ends : Ends rest) : Ends (writeFields style depth fields ++ rest) := by
  cases fields with
  | nil => exact ends
  | cons field fields => exact .cons rfl _

mutual

/-- **What is written for a value is cut into its tokens.** -/
theorem tokens?_write (style : Style) (depth : Nat) (v : Value) {rest : List Char}
    (ends : Ends rest) :
    between.tokens? (v.write style depth ++ rest) = (between.tokens? rest).map (v.tokens ++ ·) := by
  match v with
  | .null => exact tokens?_word ends _ _ rfl rfl
  | .bool true => exact tokens?_word ends _ _ rfl rfl
  | .bool false => exact tokens?_word ends _ _ rfl rfl
  | .other => exact tokens?_word ends _ _ rfl rfl
  | .natural n => exact tokens?_toDigits n ends
  | .text s => exact tokens?_quote s rest
  | .list [] =>
    rw [write, List.cons_append, List.singleton_append, tokens?_mark rfl, tokens?_mark rfl]
    simp [tokens, Function.comp_def]
  | .list (item :: items) =>
    have close : Ends (style.lineBreak depth ++ ']' :: rest) := .lineBreak style depth (.cons rfl _)
    have first := tokens?_write style (depth + 1) item (Ends.items style (depth + 1) items close)
    have others := tokens?_writeItems style (depth + 1) items close
    rw [write, List.cons_append, tokens?_mark rfl]
    simp only [List.append_assoc, List.singleton_append]
    rw [tokens?_lineBreak, first, others, tokens?_lineBreak, tokens?_mark rfl]
    simp [tokens, Function.comp_def]
  | .record [] =>
    rw [write, List.cons_append, List.singleton_append, tokens?_mark rfl, tokens?_mark rfl]
    simp [tokens, Function.comp_def]
  | .record ((key, v) :: fields) =>
    have close : Ends (style.lineBreak depth ++ '\x7d' :: rest) :=
      .lineBreak style depth (.cons rfl _)
    have first := tokens?_write style (depth + 1) v (Ends.fields style (depth + 1) fields close)
    have others := tokens?_writeFields style (depth + 1) fields close
    rw [write, List.cons_append, tokens?_mark rfl]
    simp only [List.append_assoc, List.singleton_append]
    rw [tokens?_lineBreak, tokens?_quote, tokens?_keySeparator, first, others, tokens?_lineBreak,
      tokens?_mark rfl]
    simp [tokens, Function.comp_def]

theorem tokens?_writeItems (style : Style) (depth : Nat) (items : List Value) {rest : List Char}
    (ends : Ends rest) :
    between.tokens? (writeItems style depth items ++ rest) =
      (between.tokens? rest).map (itemTokens items ++ ·) := by
  match items with
  | [] => simp [writeItems, itemTokens]
  | item :: items =>
    have first := tokens?_write style depth item (Ends.items style depth items ends)
    have others := tokens?_writeItems style depth items ends
    rw [writeItems, List.cons_append, tokens?_mark rfl, List.append_assoc, List.append_assoc,
      tokens?_lineBreak, first, others]
    simp [itemTokens, Function.comp_def]

theorem tokens?_writeFields (style : Style) (depth : Nat) (fields : List (String × Value))
    {rest : List Char} (ends : Ends rest) :
    between.tokens? (writeFields style depth fields ++ rest) =
      (between.tokens? rest).map (fieldTokens fields ++ ·) := by
  match fields with
  | [] => simp [writeFields, fieldTokens]
  | (key, v) :: fields =>
    have first := tokens?_write style depth v (Ends.fields style depth fields ends)
    have others := tokens?_writeFields style depth fields ends
    rw [writeFields, List.cons_append, tokens?_mark rfl, List.append_assoc, List.append_assoc,
      List.append_assoc, List.append_assoc, tokens?_lineBreak, tokens?_quote, tokens?_keySeparator,
      first, others]
    simp [fieldTokens, Function.comp_def]

end

end Lexer

/-! ## Building a value from its tokens -/

namespace Builder

open Value

theorem run_nil (b : Builder) : b.run [] = some b := rfl

theorem run_cons (b : Builder) (t : Token) (ts : List Token) :
    b.run (t :: ts) = (b.step t).bind fun b => b.run ts := rfl

theorem run_append (b : Builder) (ts us : List Token) :
    b.run (ts ++ us) = (b.run ts).bind fun b => b.run us := by
  rw [run, List.foldlM_append]
  rfl

/-- A field as it is kept in an open record. -/
def keptField (field : String × Value) : Option String × Value := (some field.1, field.2)

theorem closeRecord_reverse (fields : List (String × Value)) :
    closeRecord (fields.map keptField).reverse = .record fields := by
  have all : (fields.map keptField).mapM (fun field => field.1.map (·, field.2)) = some fields := by
    induction fields with
    | nil => rfl
    | cons field fields ih => simp [keptField, ih]
  rw [closeRecord, List.reverse_reverse]
  split
  · rename_i found kept
    rw [Option.some.inj (kept.symm.trans all)]
  · rename_i broken
    cases broken.symm.trans all

/-- Where a list may end at once, a value starts as it does everywhere. -/
theorem run_firstItem (v : Value) (openParts : List Unclosed) (ts : List Token) :
    run ⟨openParts, .firstItem⟩ (v.tokens ++ ts) = run ⟨openParts, .value⟩ (v.tokens ++ ts) := by
  cases v with
  | list items => cases items <;> simp [tokens, run_cons, step]
  | record fields => cases fields <;> simp [tokens, run_cons, step]
  | _ => simp [tokens, run_cons, step]

mutual

/-- **The tokens of a value build it**, whatever is open around it. -/
theorem run_tokens (v : Value) (openParts : List Unclosed) (ts : List Token) :
    run ⟨openParts, .value⟩ (v.tokens ++ ts) = run ⟨openParts, .after v⟩ ts := by
  match v with
  | .null | .bool _ | .natural _ | .text _ | .other => rfl
  | .list [] => rfl
  | .list (item :: items) =>
    have first := run_tokens item (.list [] :: openParts) (itemTokens items ++ .closeList :: ts)
    have others := run_itemTokens items [] item openParts ts
    rw [tokens, List.cons_append, run_cons]
    simp only [List.append_assoc, List.singleton_append]
    exact ((run_firstItem item _ _).trans first).trans others
  | .record [] => rfl
  | .record ((key, v) :: fields) =>
    have first := run_tokens v (.field [] (some key) :: openParts)
      (fieldTokens fields ++ .closeRecord :: ts)
    have others := run_fieldTokens fields [] key v openParts ts
    rw [tokens, List.cons_append, List.cons_append, List.cons_append, run_cons]
    simp only [List.append_assoc, List.singleton_append]
    exact first.trans others

theorem run_itemTokens (items before : List Value) (v : Value) (openParts : List Unclosed)
    (ts : List Token) :
    run ⟨.list before.reverse :: openParts, .after v⟩ (itemTokens items ++ .closeList :: ts) =
      run ⟨openParts, .after (.list (before ++ v :: items))⟩ ts := by
  match items with
  | [] => simp [itemTokens, run_cons, step, continueAfter]
  | item :: items =>
    have first := run_tokens item (.list (v :: before.reverse) :: openParts)
      (itemTokens items ++ .closeList :: ts)
    have others := run_itemTokens items (before ++ [v]) item openParts ts
    rw [List.reverse_append, List.append_assoc] at others
    rw [itemTokens, List.cons_append, List.append_assoc, run_cons]
    exact first.trans others

theorem run_fieldTokens (fields before : List (String × Value)) (key : String) (v : Value)
    (openParts : List Unclosed) (ts : List Token) :
    run ⟨.field (before.map keptField).reverse (some key) :: openParts, .after v⟩
        (fieldTokens fields ++ .closeRecord :: ts) =
      run ⟨openParts, .after (.record (before ++ (key, v) :: fields))⟩ ts := by
  match fields with
  | [] =>
    have closed := closeRecord_reverse (before ++ [(key, v)])
    rw [List.map_append, List.reverse_append] at closed
    rw [fieldTokens, List.nil_append, run_cons, ← closed]
    rfl
  | (next, w) :: fields =>
    have first := run_tokens w
      (.field ((some key, v) :: (before.map keptField).reverse) (some next) :: openParts)
      (fieldTokens fields ++ .closeRecord :: ts)
    have others := run_fieldTokens fields (before ++ [(key, v)]) next w openParts ts
    rw [List.map_append, List.reverse_append, List.append_assoc] at others
    rw [fieldTokens, List.cons_append, List.cons_append, List.cons_append, List.append_assoc,
      run_cons]
    exact first.trans others

end

/-! ### Builders without an open list -/

/-- No list is open. -/
def Listless (b : Builder) : Prop := ∀ rev, .list rev ∉ b.openParts

theorem listless_startValue {openParts : List Unclosed} {c : Builder} {t : Token}
    (listless : Listless ⟨openParts, .value⟩) (other : t ≠ .openList)
    (next : startValue openParts t = some c) : c.Listless := by
  intro rev
  have outer := listless rev
  cases t with
  | openList => exact absurd rfl other
  | openRecord | null | bool | natural | text | brokenText | otherNumber =>
    cases next
    simpa using outer
  | _ => cases next

theorem listless_continueAfter {v : Value} {openParts : List Unclosed} {c : Builder} {t : Token}
    (listless : Listless ⟨openParts, .after v⟩) (next : continueAfter v openParts t = some c) :
    c.Listless := by
  intro rev
  have outer := listless rev
  unfold continueAfter at next
  split at next
  case h_1 | h_2 => exact absurd (List.mem_cons_self ..) (listless _)
  case h_5 => cases next
  all_goals
    cases next
    simp_all

/-- A list is only opened by its token. -/
theorem Listless.step {b c : Builder} {t : Token} (listless : b.Listless) (other : t ≠ .openList)
    (next : b.step t = some c) : c.Listless := by
  unfold Builder.step at next
  split at next
  case h_1 => exact listless_startValue listless other next
  case h_3 => exact listless_startValue listless other next
  case h_10 => exact listless_continueAfter listless next
  case h_11 => cases next
  all_goals
    intro rev
    have outer := listless rev
    cases next
    simp_all

theorem Listless.run {b c : Builder} {ts : List Token} (listless : b.Listless)
    (others : .openList ∉ ts) (ran : b.run ts = some c) : c.Listless := by
  induction ts generalizing b with
  | nil =>
    cases ran
    exact listless
  | cons t ts ih =>
    rw [run_cons, Option.bind_eq_some_iff] at ran
    obtain ⟨next, first, rest⟩ := ran
    rw [List.mem_cons, not_or] at others
    exact ih (listless.step (Ne.symm others.1) first) others.2 rest

theorem Listless.expectsSurplus {b : Builder} (listless : b.Listless) (shape : Shape) :
    b.expectsSurplus shape = false := by
  unfold Builder.expectsSurplus
  split
  · exact absurd (List.mem_cons_self ..) (listless _)
  · rfl

theorem expectsSurplus_nil (b : Builder) : b.expectsSurplus [] = false := by
  have none (parts : List Unclosed) : fixedLength? [] parts = none := by
    unfold fixedLength?
    split <;> rfl
  unfold expectsSurplus
  split
  · rw [none]
  · rfl

end Builder

/-! ## Reading a text -/

namespace Reader

/-- Along these tokens no list is filled up that must hold a fixed number of bytes. -/
def Calm (shape : Shape) (b : Builder) (ts : List Token) : Prop :=
  ∀ us, us <+: ts → ∀ c, b.run us = some c → c.expectsSurplus shape = false

theorem Calm.nil (b : Builder) (ts : List Token) : Calm [] b ts :=
  fun _ _ c _ => c.expectsSurplus_nil

theorem Calm.listless {b : Builder} {ts : List Token} (listless : b.Listless)
    (others : .openList ∉ ts) (shape : Shape) : Calm shape b ts :=
  fun _ before _ ran =>
    (listless.run (fun listed => others (before.subset listed)) ran).expectsSurplus shape

theorem Calm.append {shape : Shape} {b c : Builder} {us vs : List Token}
    (calm : Calm shape b (us ++ vs)) (ran : b.run us = some c) : Calm shape c vs := by
  intro ws before d further
  apply calm (us ++ ws) (List.prefix_append_right_inj us |>.2 before) d
  rw [Builder.run_append, ran, Option.bind_some, further]

/-- **The reader is the one machine after the other**, where nothing is passed over. -/
theorem value?_eq {shape : Shape} {lexer : Lexer} {b c : Builder} {cs : List Char}
    {ts : List Token} (cut : lexer.tokens? cs = some ts) (built : b.run ts = some c)
    (calm : Calm shape b ts) :
    (cs.foldlM (step shape) (reading lexer b)).bind finish = c.value? := by
  induction cs generalizing lexer b ts with
  | nil =>
    have last : lexer.finish = some ts := cut
    show finish (reading lexer b) = c.value?
    simp [finish, last, built]
  | cons char cs ih =>
    rw [Lexer.tokens?, Option.bind_eq_some_iff] at cut
    obtain ⟨⟨us, after⟩, first, rest⟩ := cut
    obtain ⟨vs, later, rfl⟩ := Option.map_eq_some_iff.1 rest
    rw [Builder.run_append, Option.bind_eq_some_iff] at built
    obtain ⟨next, ran, further⟩ := built
    have still : next.expectsSurplus shape = false := calm us (List.prefix_append ..) next ran
    have moved : step shape (reading lexer b) char = some (reading after next) := by
      simp [step, first, ran, still]
    rw [List.foldlM_cons, moved]
    exact ih later further (calm.append ran)

end Reader

namespace Value

theorem read?_of_calm {shape : Shape} (style : Style) (v : Value)
    (calm : Reader.Calm shape .initial v.tokens) : read? shape (v.render style) = some v := by
  have ends : Lexer.Ends [] := fun _ nothing => by cases nothing
  have cut := Lexer.tokens?_write style 0 v ends
  have built := Builder.run_tokens v [] []
  rw [List.append_nil] at cut built
  have spelt : Lexer.between.tokens? (v.write style 0) = some v.tokens := by
    rw [cut]
    exact congrArg some (List.append_nil _)
  have read := Reader.value?_eq spelt (built.trans (Builder.run_nil _)) calm
  rw [read?, render, String.toList_ofList]
  exact read

/-- **A rendered value is read back.** -/
theorem parse?_render (style : Style) (v : Value) : parse? (v.render style) = some v :=
  read?_of_calm style v (Reader.Calm.nil _ _)

/-- A rendered value without lists is read back whatever structure is expected. -/
theorem read?_render (style : Style) {v : Value} (listless : .openList ∉ v.tokens)
    (shape : Shape) : read? shape (v.render style) = some v :=
  read?_of_calm style v (Reader.Calm.listless (fun _ => List.not_mem_nil) listless shape)

end Value

end HostBridge.Json
