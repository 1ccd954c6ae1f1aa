import HostBridge.Bytes

/-!
# JSON values

The values that the bridge reads and writes. The only numbers it uses are natural, so every other
number, and a string whose escapes leave half a surrogate pair behind, is the value `other`: it may
stand where a value is ignored and nowhere else.

`Value.fields?` is the reading of a structure with known fields, from an object or from the array
of the fields in order.
-/

set_option autoImplicit false

namespace HostBridge.Json

/-- A JSON value. -/
inductive Value where
  | null
  | bool (b : Bool)
  | natural (n : Nat)
  | text (s : String)
  | list (items : List Value)
  | record (fields : List (String × Value))
  | other
  deriving Repr, Inhabited

namespace Value

/-- The natural number of at most `size` bytes that a value is. -/
def natural? (size : Nat) : Value → Option Nat
  | natural n => if n < Bytes.capacity size then some n else none
  | _ => none

/-- The Boolean that a value is. -/
def bool? : Value → Option Bool
  | bool b => some b
  | _ => none

/-- The text that a value is. -/
def text? : Value → Option String
  | text s => some s
  | _ => none

/-- The byte string that an array of numbers below 256 is. -/
def octets? : Value → Option (List UInt8)
  | list items => items.mapM fun item => (item.natural? 1).map UInt8.ofNat
  | _ => none

/-- The byte string of `n` bytes that an array is. After the bytes it may hold one more item, if
that is no byte. -/
def fixedOctets? (n : Nat) : Value → Option (List UInt8)
  | list items =>
    match items.drop n with
    | [] => (list items).octets?
    | [surplus] => if (surplus.natural? 1).isSome then none else (list (items.take n)).octets?
    | _ => none
  | _ => none

/-- The values of the known fields `names`, in that order, `none` for one that is missing.

An object gives them by name. A known name may not occur twice; an unknown one is an error if the
structure is `closed` and else is passed over. An array gives the fields in order and may be
short, but not too long. -/
def fields? (names : List String) (closed : Bool) : Value → Option (List (Option Value))
  | record fields =>
    let keys := fields.map Prod.fst
    if closed && keys.any (!names.contains ·) then none
    else if names.any (1 < keys.count ·) then none
    else some (names.map fun name => fields.lookup name)
  | list items =>
    if items.length ≤ names.length then
      some (items.map some ++ List.replicate (names.length - items.length) none)
    else none
  | _ => none

end Value

/-- Decodes a field that may be missing. -/
def orDefault {α : Type} (decode : Value → Option α) (default : α) : Option Value → Option α
  | some v => decode v
  | none => some default

/-- Decodes a field that must be there. -/
def required {α : Type} (decode : Value → Option α) : Option Value → Option α
  | some v => decode v
  | none => none

end HostBridge.Json
