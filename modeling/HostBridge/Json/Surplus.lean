import HostBridge.Json.Token

/-!
# The item after the last

A list of a fixed number of bytes is read by taking that many bytes and then looking whether there
is one more. If there is, the list is too long. If the attempt to read it fails, whatever it has
taken of the text is passed over, and the list must end there; so after its bytes such a list may
hold a comma and then nothing, or one thing that is no byte.

`Surplus.step` follows the attempt character by character. It takes a number with its fraction and
exponent, a name or a string as long as they are well formed, and nothing of a list or a record.
Some malformed things are found out only after the offending byte has been taken, others before:
`spend` and `pass` are the two cases.
-/

set_option autoImplicit false

namespace HostBridge.Json

/-- How far the attempt to read one more byte has come. In numbers, `zero` tells whether all digits
before the exponent are zeros. -/
inductive Surplus where
  /-- Nothing has been taken after the comma. -/
  | start
  /-- After a minus sign. -/
  | minus
  /-- In the digits before the point. A value above 255 counts as 256. -/
  | whole (negative : Bool) (value : Nat)
  /-- After the point. -/
  | point (zero : Bool)
  /-- In the digits after the point. -/
  | fraction (zero : Bool)
  /-- After the letter that announces an exponent. -/
  | exponentMark (zero : Bool)
  /-- After the sign of an exponent. -/
  | exponentSign (zero negative : Bool)
  /-- In the digits of an exponent. -/
  | exponent (zero negative : Bool) (value : Nat)
  /-- In the digits of an exponent that has grown too large to matter. -/
  | exponentRest
  /-- In one of the three names. -/
  | name (rest : List Char)
  /-- In a string. -/
  | text
  /-- In a string, after a backslash. -/
  | escape
  /-- In a `\u` escape with a number of bytes left, the second of a pair if `low`. The value is
  missing once something was no digit. -/
  | unit (low : Bool) (left : Nat) (value : Option Nat)
  /-- After the first escape of a pair. -/
  | pair
  /-- After the first escape of a pair and a backslash. -/
  | pairEscape
  /-- The attempt has failed. -/
  | failed
  /-- The list has ended. -/
  | closed
  deriving DecidableEq, Repr

namespace Surplus

/-- The attempt has failed before this character, which belongs to what follows. -/
def pass (c : Char) : Option Surplus :=
  if isBlank c then some failed else if c = ']' then some closed else none

/-- The attempt fails at the first byte of this character and has taken it. What is left of a
character of several bytes cannot be read. -/
def spend (c : Char) : Option Surplus := if c.utf8Size = 1 then some failed else none

/-- The value of a decimal digit. -/
def digit? (c : Char) : Option Nat := if c.isDigit then some (c.toNat - '0'.toNat) else none

/-- The rest of the name that starts with a letter. -/
def nameRest? (c : Char) : Option (List Char) :=
  if c = 'n' then some ['u', 'l', 'l']
  else if c = 't' then some ['r', 'u', 'e']
  else if c = 'f' then some ['a', 'l', 's', 'e']
  else none

/-- The first character of the item. -/
def first (c : Char) : Option Surplus :=
  if isBlank c then some start
  else if c = ']' then some closed
  else if c = '-' then some minus
  else if c = '"' then some text
  else match nameRest? c with
    | some rest => some (name rest)
    | none => (digit? c).map (whole false)

/-- The letters that announce an exponent. -/
def isExponentMark (c : Char) : Bool := c = 'e' || c = 'E'

/-- The character after the digits of a number without exponent. -/
def afterDigits (zero : Bool) (c : Char) : Option Surplus :=
  if isExponentMark c then some (exponentMark zero) else pass c

/-- The first character that may be a digit of an exponent. -/
def firstOfExponent (zero negative : Bool) (c : Char) : Option Surplus :=
  match digit? c with
  | some d => some (exponent zero negative d)
  | none => spend c

/-- The largest exponent that is read digit by digit. -/
def maxExponent : Nat := Bytes.capacity 4 / 2 - 1

/-- One more digit of an exponent. Too large an exponent is an error at once if the number would be
too large as well. -/
def growExponent (zero negative : Bool) (value : Nat) : Surplus :=
  if value ≤ maxExponent then exponent zero negative value
  else if zero || negative then exponentRest
  else failed

/-- After a whole `\u` escape. A number that is no character is an error, unless it is the first of
a pair, which needs a second. -/
def afterUnit (low : Bool) : Option Nat → Surplus
  | none => failed
  | some n =>
    if low then if 0xDC00 ≤ n ∧ n ≤ 0xDFFF then text else failed
    else if n < 0xD800 ∨ 0xDFFF < n then text
    else if n ≤ 0xDBFF then pair
    else failed

/-- One character more, or `none` where the text cannot go on with it. A byte that is read after all
makes the list too long. -/
def step : Surplus → Char → Option Surplus
  | start, c => first c
  | minus, c =>
    match digit? c with
    | some d => some (whole true d)
    | none => spend c
  | whole negative value, c =>
    match digit? c with
    | some d => if value = 0 then none else some (whole negative (min 256 (10 * value + d)))
    | none =>
      if c = '.' then some (point (value = 0))
      else if !negative && value < 256 && !isExponentMark c then none
      else afterDigits (value = 0) c
  | point zero, c =>
    match digit? c with
    | some d => some (fraction (zero && d = 0))
    | none => pass c
  | fraction zero, c =>
    match digit? c with
    | some d => some (fraction (zero && d = 0))
    | none => afterDigits zero c
  | exponentMark zero, c =>
    if c = '+' then some (exponentSign zero false)
    else if c = '-' then some (exponentSign zero true)
    else firstOfExponent zero false c
  | exponentSign zero negative, c => firstOfExponent zero negative c
  | exponent zero negative value, c =>
    match digit? c with
    | some d => some (growExponent zero negative (10 * value + d))
    | none => pass c
  | exponentRest, c => if c.isDigit then some exponentRest else pass c
  | name [], c => pass c
  | name (expected :: rest), c => if c = expected then some (name rest) else spend c
  | text, c =>
    if c = '"' ∨ c.toNat < 0x20 then some failed
    else if c = '\\' then some escape
    else some text
  | escape, c =>
    if c = 'u' then some (unit false 4 (some 0))
    else if (unescape? c).isSome then some text
    else spend c
  | unit low left value, c =>
    let value := value.bind fun v => (Bytes.hexValue? c).map (16 * v + ·)
    if left < c.utf8Size then none
    else if c.utf8Size < left then some (unit low (left - c.utf8Size) value)
    else some (afterUnit low value)
  | pair, c => if c = '\\' then some pairEscape else spend c
  | pairEscape, c => if c = 'u' then some (unit true 4 (some 0)) else spend c
  | failed, c => pass c
  | closed, _ => none

end Surplus

end HostBridge.Json
