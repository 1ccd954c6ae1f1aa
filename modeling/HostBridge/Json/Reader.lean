import HostBridge.Json.Surplus

/-!
# Reading JSON

Values are built from tokens by a machine with a stack of the lists and records that are still
open. `Builder.step` takes one token. Nesting is not limited. A record with a key that is no text,
because its escapes leave half a surrogate pair behind, is the value `other`.

`Reader` reads a text character by character and knows the `Shape` of the structure it expects, as
far as that matters: where a list must hold a fixed number of bytes, what comes after the last of
them is passed over as `Surplus` says and stands in the list as one more item, the value `other`.
`Value.read?` reads a whole text, which must be one value with nothing but blanks around it, and
`Value.parse?` does so without any such list.
-/

set_option autoImplicit false

namespace HostBridge.Json

/-- A list or a record that is still open, with what it holds so far in reverse. -/
inductive Unclosed where
  | list (rev : List Value)
  /-- A record between two fields. A key is missing where it is no text. -/
  | record (rev : List (Option String × Value))
  /-- A record in which the value of a field is being read. -/
  | field (rev : List (Option String × Value)) (key : Option String)

/-- What may come next. -/
inductive Expected where
  /-- A value. -/
  | value
  /-- A value or the end of the list just opened. -/
  | firstItem
  /-- A key or the end of the record just opened. -/
  | firstKey
  /-- A key. -/
  | key
  /-- The colon after a key. -/
  | colon (key : Option String)
  /-- What may follow a complete value. -/
  | after (v : Value)

/-- A text read in part: what is open, innermost first, and what may come next. -/
structure Builder where
  openParts : List Unclosed
  expected : Expected

namespace Builder

/-- Nothing read yet. -/
def initial : Builder := ⟨[], .value⟩

/-- A token where a value has to start. -/
def startValue (openParts : List Unclosed) : Token → Option Builder
  | .null => some ⟨openParts, .after .null⟩
  | .bool b => some ⟨openParts, .after (.bool b)⟩
  | .natural n => some ⟨openParts, .after (.natural n)⟩
  | .text s => some ⟨openParts, .after (.text s)⟩
  | .brokenText | .otherNumber => some ⟨openParts, .after .other⟩
  | .openList => some ⟨.list [] :: openParts, .firstItem⟩
  | .openRecord => some ⟨.record [] :: openParts, .firstKey⟩
  | _ => none

/-- The record with the given fields, last first. -/
def closeRecord (rev : List (Option String × Value)) : Value :=
  match rev.reverse.mapM fun (key, v) => key.map (·, v) with
  | some fields => .record fields
  | none => .other

/-- A token after a complete value. -/
def continueAfter (v : Value) : List Unclosed → Token → Option Builder
  | .list rev :: rest, .comma => some ⟨.list (v :: rev) :: rest, .value⟩
  | .list rev :: rest, .closeList => some ⟨rest, .after (.list (v :: rev).reverse)⟩
  | .field rev key :: rest, .comma => some ⟨.record ((key, v) :: rev) :: rest, .key⟩
  | .field rev key :: rest, .closeRecord =>
    some ⟨rest, .after (closeRecord ((key, v) :: rev))⟩
  | _, _ => none

/-- One token more, or `none` where it cannot stand. -/
def step : Builder → Token → Option Builder
  | ⟨openParts, .value⟩, t => startValue openParts t
  | ⟨.list _ :: rest, .firstItem⟩, .closeList => some ⟨rest, .after (.list [])⟩
  | ⟨openParts, .firstItem⟩, t => startValue openParts t
  | ⟨.record _ :: rest, .firstKey⟩, .closeRecord => some ⟨rest, .after (.record [])⟩
  | ⟨openParts, .firstKey⟩, .text s => some ⟨openParts, .colon (some s)⟩
  | ⟨openParts, .firstKey⟩, .brokenText => some ⟨openParts, .colon none⟩
  | ⟨openParts, .key⟩, .text s => some ⟨openParts, .colon (some s)⟩
  | ⟨openParts, .key⟩, .brokenText => some ⟨openParts, .colon none⟩
  | ⟨.record rev :: rest, .colon key⟩, .colon => some ⟨.field rev key :: rest, .value⟩
  | ⟨openParts, .after v⟩, t => continueAfter v openParts t
  | _, _ => none

/-- The value that the tokens so far make up. -/
def value? : Builder → Option Value
  | ⟨[], .after v⟩ => some v
  | _ => none

/-- The state after a list of tokens. -/
def run (b : Builder) (ts : List Token) : Option Builder := ts.foldlM step b

end Builder

/-! ## Texts -/

/-- The fields of a structure in order, each with the number of bytes of its value if that is
fixed. -/
abbrev Shape := List (String × Option Nat)

namespace Builder

/-- The number of bytes that the innermost list must hold, if it is the value of a field of the
structure, by name or by position. -/
def fixedLength? (shape : Shape) : List Unclosed → Option Nat
  | [.list _, .field _ (some key)] => (shape.lookup key).join
  | [.list _, .list rev] => shape[rev.length]?.bind Prod.snd
  | _ => none

/-- Whether one more item is announced in a list that holds all its bytes. -/
def expectsSurplus (shape : Shape) : Builder → Bool
  | ⟨.list rev :: rest, .value⟩ =>
    match fixedLength? shape (.list rev :: rest) with
    | some n => rev.length = n
    | none => false
  | _ => false

end Builder

/-- How far a text has been read. -/
inductive Reader where
  /-- Up to here it is cut into tokens. -/
  | reading (lexer : Lexer) (builder : Builder)
  /-- An item is being passed over. -/
  | passing (surplus : Surplus) (builder : Builder)

namespace Reader

/-- Nothing read yet. -/
def initial : Reader := reading .between .initial

/-- One character more, or `none` where it cannot stand. -/
def step (shape : Shape) : Reader → Char → Option Reader
  | reading lexer builder, c => do
    let (ts, lexer) ← lexer.step c
    let builder ← builder.run ts
    return if builder.expectsSurplus shape then passing .start builder else reading lexer builder
  | passing surplus builder, c => do
    let surplus ← surplus.step c
    if surplus = .closed then
      let builder ← builder.run [.otherNumber, .closeList]
      return reading .between builder
    else return passing surplus builder

/-- The value that the text makes up. -/
def finish : Reader → Option Value
  | reading lexer builder => do
    let ts ← lexer.finish
    let builder ← builder.run ts
    builder.value?
  | passing _ _ => none

end Reader

/-- The value that a text denotes, where a structure of a given shape is expected. -/
def Value.read? (shape : Shape) (text : String) : Option Value :=
  (text.toList.foldlM (Reader.step shape) .initial).bind Reader.finish

/-- The value that a text denotes. -/
def Value.parse? (text : String) : Option Value := Value.read? [] text

end HostBridge.Json
