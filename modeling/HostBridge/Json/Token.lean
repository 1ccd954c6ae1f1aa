import HostBridge.Bytes
import HostBridge.Json.Value

/-!
# JSON tokens

A text is cut into tokens by a machine that reads one character at a time. `Lexer.step` gives the
tokens that a character completes and the state after it, `Lexer.finish` those that the end of the
text completes.

Strings are collected as pieces, a character or a `\u` escape with its number, and `joinPieces`
puts surrogate pairs together. A string in which that fails is still a token, `brokenText`.
-/

set_option autoImplicit false

namespace HostBridge.Json

/-- A lexical unit of a JSON text. -/
inductive Token where
  | openList
  | closeList
  | openRecord
  | closeRecord
  | comma
  | colon
  | null
  | bool (b : Bool)
  | natural (n : Nat)
  | text (s : String)
  /-- A string with half a surrogate pair. -/
  | brokenText
  /-- A number that is not natural or not in plain digits. -/
  | otherNumber
  deriving DecidableEq, Repr

/-- The characters that may stand between tokens. -/
def isBlank (c : Char) : Bool := c = ' ' || c = '\n' || c = '\t' || c = '\r'

/-- The token that a single character is. -/
def punctuation? (c : Char) : Option Token :=
  if c = '[' then some .openList
  else if c = ']' then some .closeList
  else if c = '{' then some .openRecord
  else if c = '}' then some .closeRecord
  else if c = ',' then some .comma
  else if c = ':' then some .colon
  else none

/-! ## Numbers and names -/

/-- The characters of numbers and of the three names. -/
def isWordChar (c : Char) : Bool := c.isAlphanum || c = '+' || c = '-' || c = '.'

/-- The text after its leading decimal digits, if there is at least one. -/
def dropDigits? (cs : List Char) : Option (List Char) :=
  if (cs.takeWhile Char.isDigit).isEmpty then none else some (cs.dropWhile Char.isDigit)

/-- The number written in decimal digits. -/
def decimal (digits : List Char) : Nat :=
  digits.foldl (fun sofar c => 10 * sofar + (c.toNat - '0'.toNat)) 0

/-- The text after the integer part of a number: zero, or digits that do not start with zero. -/
def dropInteger? : List Char → Option (List Char)
  | '0' :: rest => some rest
  | cs => dropDigits? cs

/-- The text after an optional fraction. -/
def dropFraction? : List Char → Option (List Char)
  | '.' :: rest => dropDigits? rest
  | rest => some rest

/-- The text after an optional exponent. -/
def dropExponent? : List Char → Option (List Char)
  | [] => some []
  | e :: rest =>
    if e = 'e' ∨ e = 'E' then
      match rest with
      | '+' :: digits => dropDigits? digits
      | '-' :: digits => dropDigits? digits
      | digits => dropDigits? digits
    else some (e :: rest)

/-- Whether a word is a JSON number without its sign. -/
def isUnsignedNumber (cs : List Char) : Bool :=
  match (dropInteger? cs).bind fun cs => (dropFraction? cs).bind dropExponent? with
  | some [] => true
  | _ => false

/-- Whether a word is a natural number in plain digits. -/
def isNatural (cs : List Char) : Bool := cs.all Char.isDigit && isUnsignedNumber cs

/-- The token that a word is. -/
def word? (cs : List Char) : Option Token :=
  if cs = ['n', 'u', 'l', 'l'] then some .null
  else if cs = ['t', 'r', 'u', 'e'] then some (.bool true)
  else if cs = ['f', 'a', 'l', 's', 'e'] then some (.bool false)
  else if isNatural cs then some (.natural (decimal cs))
  else match cs with
    | '-' :: digits => if isUnsignedNumber digits then some .otherNumber else none
    | _ => if isUnsignedNumber cs then some .otherNumber else none

/-! ## Strings -/

/-- A part of a string: a character, or the number of a `\u` escape. -/
inductive Piece where
  | char (c : Char)
  | unit (n : Nat)
  deriving DecidableEq, Repr

/-- The characters of a string. An escape below or above the surrogates is a character; a high
surrogate must be followed at once by an escape for a low one. -/
def joinPieces : List Piece → Option (List Char)
  | [] => some []
  | .char c :: rest => (joinPieces rest).map (c :: ·)
  | .unit high :: .unit low :: rest =>
    if high < 0xD800 ∨ 0xDFFF < high then
      (joinPieces (.unit low :: rest)).map (Char.ofNat high :: ·)
    else if high ≤ 0xDBFF ∧ 0xDC00 ≤ low ∧ low ≤ 0xDFFF then
      (joinPieces rest).map
        (Char.ofNat (0x10000 + (high - 0xD800) * 0x400 + (low - 0xDC00)) :: ·)
    else none
  | .unit n :: rest =>
    if n < 0xD800 ∨ 0xDFFF < n then (joinPieces rest).map (Char.ofNat n :: ·) else none

/-- The token that a closed string is. -/
def textToken (pieces : List Piece) : Token :=
  match joinPieces pieces with
  | some cs => .text (String.ofList cs)
  | none => .brokenText

/-- The character that a one-letter escape stands for. -/
def unescape? (c : Char) : Option Char :=
  if c = '"' ∨ c = '\\' ∨ c = '/' then some c
  else if c = 'b' then some '\x08'
  else if c = 'f' then some '\x0c'
  else if c = 'n' then some '\n'
  else if c = 'r' then some '\r'
  else if c = 't' then some '\t'
  else none

/-! ## The machine -/

/-- Where the machine stands. What it has collected is kept in reverse. -/
inductive Lexer where
  /-- Between tokens. -/
  | between
  /-- In a number or a name. -/
  | word (rev : List Char)
  /-- In a string. -/
  | text (rev : List Piece)
  /-- In a string, after a backslash. -/
  | escape (rev : List Piece)
  /-- In a `\u` escape that still needs `left + 1` digits. -/
  | unit (rev : List Piece) (left value : Nat)
  deriving DecidableEq, Repr

namespace Lexer

/-- A character between tokens. -/
def start (c : Char) : Option (List Token × Lexer) :=
  if isBlank c then some ([], between)
  else if c = '"' then some ([], text [])
  else match punctuation? c with
    | some t => some ([t], between)
    | none => if isWordChar c then some ([], word [c]) else none

/-- The tokens that a character completes and the state after it, or `none` where no JSON text can
go on with it. -/
def step : Lexer → Char → Option (List Token × Lexer)
  | between, c => start c
  | word rev, c =>
    if isWordChar c then some ([], word (c :: rev))
    else do
      let t ← word? rev.reverse
      let (ts, after) ← start c
      return (t :: ts, after)
  | text rev, c =>
    if c = '"' then some ([textToken rev.reverse], between)
    else if c = '\\' then some ([], escape rev)
    else if c.toNat < 0x20 then none
    else some ([], text (.char c :: rev))
  | escape rev, c =>
    if c = 'u' then some ([], unit rev 3 0)
    else (unescape? c).map fun d => ([], text (.char d :: rev))
  | unit rev left value, c =>
    (Bytes.hexValue? c).map fun d =>
      match left with
      | 0 => ([], text (.unit (16 * value + d) :: rev))
      | left + 1 => ([], unit rev left (16 * value + d))

/-- The tokens that the end of the text completes. -/
def finish : Lexer → Option (List Token)
  | between => some []
  | word rev => (word? rev.reverse).map ([·])
  | _ => none

end Lexer

end HostBridge.Json
