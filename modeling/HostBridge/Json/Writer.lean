import HostBridge.Bytes
import HostBridge.Json.Value

/-!
# Writing JSON

A value is written on one line without blanks (`Style.compact`) or with every item on a line of its
own, indented by two blanks per level (`Style.indented`). Strings escape what JSON demands and
nothing else.
-/

set_option autoImplicit false

namespace HostBridge.Json

/-- How a value is laid out. -/
inductive Style where
  | compact
  | indented
  deriving DecidableEq, Repr

/-- A character inside a string. -/
def escapeChar (c : Char) : List Char :=
  if c = '"' then ['\\', '"']
  else if c = '\\' then ['\\', '\\']
  else if c = '\x08' then ['\\', 'b']
  else if c = '\x0c' then ['\\', 'f']
  else if c = '\n' then ['\\', 'n']
  else if c = '\r' then ['\\', 'r']
  else if c = '\t' then ['\\', 't']
  else if c.toNat < 0x20 then
    ['\\', 'u', '0', '0', Bytes.hexDigit (c.toNat / 16), Bytes.hexDigit (c.toNat % 16)]
  else [c]

/-- A quoted string. -/
def quote (s : String) : List Char := '"' :: (s.toList.flatMap escapeChar ++ ['"'])

namespace Style

/-- What stands before an item at the given depth. -/
def lineBreak (style : Style) (depth : Nat) : List Char :=
  match style with
  | compact => []
  | indented => '\n' :: List.replicate (2 * depth) ' '

/-- What stands between a key and its value. -/
def keySeparator : Style → List Char
  | compact => [':']
  | indented => [':', ' ']

end Style

namespace Value

mutual

/-- The text of a value at the given depth. A value that no format uses is written as a number
that no format uses. -/
def write (style : Style) (depth : Nat) : Value → List Char
  | null => ['n', 'u', 'l', 'l']
  | bool true => ['t', 'r', 'u', 'e']
  | bool false => ['f', 'a', 'l', 's', 'e']
  | natural n => Nat.toDigits 10 n
  | text s => quote s
  | other => ['-', '0']
  | list [] => ['[', ']']
  | list (item :: items) =>
    '[' :: (style.lineBreak (depth + 1) ++ write style (depth + 1) item
      ++ writeItems style (depth + 1) items ++ style.lineBreak depth ++ [']'])
  | record [] => ['{', '}']
  | record ((key, v) :: fields) =>
    '{' :: (style.lineBreak (depth + 1) ++ quote key ++ style.keySeparator
      ++ write style (depth + 1) v ++ writeFields style (depth + 1) fields
      ++ style.lineBreak depth ++ ['}'])

/-- The items of a list after the first, each behind its comma. -/
def writeItems (style : Style) (depth : Nat) : List Value → List Char
  | [] => []
  | item :: items =>
    ',' :: (style.lineBreak depth ++ write style depth item ++ writeItems style depth items)

/-- The fields of a record after the first, each behind its comma. -/
def writeFields (style : Style) (depth : Nat) : List (String × Value) → List Char
  | [] => []
  | (key, v) :: fields =>
    ',' :: (style.lineBreak depth ++ quote key ++ style.keySeparator ++ write style depth v
      ++ writeFields style depth fields)

end

/-- The text of a value. -/
def render (style : Style) (v : Value) : String := String.ofList (v.write style 0)

end Value

end HostBridge.Json
