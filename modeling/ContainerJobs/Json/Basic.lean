import ContainerJobs.Double.Basic
import ContainerJobs.Text.Decimal

/-!
# JSON values

A 64-bit integer is kept as an integer, any other number in double precision.
Objects are lists of members; free-form objects are kept in key order (`Assoc`),
records in the order of their fields.
-/

namespace ContainerJobs

/-- A JSON number. -/
inductive Number where
  /-- A signed or unsigned 64-bit integer. -/
  | integer (n : Int)
  /-- Any other number, in double precision. -/
  | real (x : Double)
deriving DecidableEq, Repr

/-- A JSON value. -/
inductive Json where
  /-- The literal `null`. -/
  | null
  /-- A truth value. -/
  | bool (b : Bool)
  /-- A number. -/
  | number (n : Number)
  /-- A string. -/
  | string (s : String)
  /-- An array. -/
  | array (items : List Json)
  /-- An object, as its members in order. -/
  | object (members : List (String × Json))

namespace Json

instance : Inhabited Json := ⟨.null⟩

/-- An integer as a value. -/
def int (n : Int) : Json := .number (.integer n)

/-- A natural number as a value. -/
def nat (n : Nat) : Json := .int n

/-- A string, or `null` for none. -/
def optString (s : Option String) : Json := s.elim .null .string

/-- The member of an object with this key. Anything else has no members. -/
def get? (key : String) : Json → Option Json
  | object members => members.lookup key
  | _ => none

/-- The string, if the value is one. -/
def string? : Json → Option String
  | string s => some s
  | _ => none

/-- The truth value, if the value is one. -/
def bool? : Json → Option Bool
  | bool b => some b
  | _ => none

/-- The integer, if the value is one that fits 64 bits with a sign. -/
def signed? : Json → Option Int
  | number (.integer n) => if Text.isSigned n then some n else none
  | _ => none

/-- The items, if the value is an array. -/
def items? : Json → Option (List Json)
  | array items => some items
  | _ => none

/-- The members, if the value is an object. -/
def members? : Json → Option (List (String × Json))
  | object members => some members
  | _ => none

/-- The value is the literal `null`. -/
def isNull : Json → Bool
  | null => true
  | _ => false

end Json

end ContainerJobs
