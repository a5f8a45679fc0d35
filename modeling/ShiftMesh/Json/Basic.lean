/-!
# ShiftMesh.Json.Basic — JSON values

* `Number`: a whole number of at most 64 bits, or a double.  The accessors are partial:
  `Number.toInt?` wants a signed 64-bit value, `Number.toNat?` an unsigned one, and `Number.toFloat`
  rounds a whole number to the nearest double.
* `Value`: the six kinds of values.  Objects keep their fields in ascending order of the keys, each
  key once: `Fields.set` puts a field at its place and replaces a field of the same key.
-/

namespace ShiftMesh.Json

/-- A JSON number. -/
inductive Number where
  /-- A whole number from `-2^63` up to `2^64 - 1`. -/
  | whole (n : Int)
  /-- A binary double. -/
  | double (x : Float)
  deriving Repr, BEq, DecidableEq, Inhabited

namespace Number

/-- The number as a signed 64-bit value. -/
def toInt? : Number → Option Int
  | whole n => if -Nat.pow 2 63 ≤ n ∧ n < Nat.pow 2 63 then some n else none
  | double _ => none

/-- The number as an unsigned 64-bit value. -/
def toNat? : Number → Option Nat
  | whole n => if 0 ≤ n ∧ n < Nat.pow 2 64 then some n.toNat else none
  | double _ => none

/-- The nearest double. -/
def toFloat : Number → Float
  | whole n => Float.ofInt n
  | double x => x

end Number

/-- A JSON value. -/
inductive Value where
  | null
  | bool (b : Bool)
  | number (n : Number)
  | string (s : String)
  | array (items : List Value)
  | object (fields : List (String × Value))
  deriving Repr, Inhabited

/-- The fields of an object, in ascending order of the keys. -/
abbrev Fields := List (String × Value)

namespace Fields

/-- The value of a key. -/
def get? : Fields → String → Option Value
  | [], _ => none
  | (k, v) :: rest, key => if k = key then some v else get? rest key

/-- Sets the value of a key. -/
def set : Fields → String → Value → Fields
  | [], key, value => [(key, value)]
  | (k, v) :: rest, key, value =>
    if key = k then (key, value) :: rest
    else if key < k then (key, value) :: (k, v) :: rest
    else (k, v) :: set rest key value

/-- Removes a key. -/
def erase (fields : Fields) (key : String) : Fields :=
  fields.filter fun f => f.1 ≠ key

/-- The fields of a list of pairs; the last of two pairs with one key wins. -/
def ofList (pairs : List (String × Value)) : Fields :=
  pairs.foldl (fun fields p => set fields p.1 p.2) []

end Fields

namespace Value

/-- The text of a string. -/
def text? : Value → Option String
  | string s => some s
  | _ => none

/-- The items of an array. -/
def items? : Value → Option (List Value)
  | array items => some items
  | _ => none

/-- The fields of an object. -/
def fields? : Value → Option Fields
  | object fields => some fields
  | _ => none

/-- The number. -/
def number? : Value → Option Number
  | number n => some n
  | _ => none

/-- The nearest double of a number. -/
def float? (v : Value) : Option Float := v.number?.map Number.toFloat

/-- A whole number as an unsigned 64-bit value. -/
def nat? (v : Value) : Option Nat := v.number?.bind Number.toNat?

end Value

end ShiftMesh.Json
