import ContainerJobs.Json.Numeral
import ContainerJobs.Assoc

/-!
# What a JSON text says

A `Node` is a JSON text after its grammar has been checked and before it is
taken for a value: members stand in text order with their repetitions, and a
string or numeral that follows the grammar but stands for nothing (half a
surrogate pair, a number out of range) is kept as `none`. A record may skip such
a part together with the unknown member that holds it; a free-form value may not
(`Node.value?`).
-/

namespace ContainerJobs

/-- The content of a JSON text. -/
inductive Node where
  /-- The literal `null`. -/
  | null
  /-- A truth value. -/
  | bool (b : Bool)
  /-- A number. -/
  | number (n : Option Number)
  /-- A string. -/
  | string (s : Option String)
  /-- An array. -/
  | array (items : List Node)
  /-- An object, with its members as they are written. -/
  | object (members : List (Option String × Node))

namespace Node

instance : Inhabited Node := ⟨.null⟩

mutual

/-- The free-form value of a node whose arrays and objects are nested at most
    `depth` deep. Objects are put in key order, and of repeated members the last
    one counts. -/
def value? (depth : Nat) : Node → Option Json
  | null => some .null
  | bool b => some (.bool b)
  | number n => n.map .number
  | string s => s.map .string
  | array items =>
    match depth with
    | 0 => none
    | depth + 1 => (items? depth items).map .array
  | object members =>
    match depth with
    | 0 => none
    | depth + 1 => (members? depth members).map fun l => .object (Assoc.ofPairs l)

/-- The free-form values of the items of an array. -/
def items? (depth : Nat) : List Node → Option (List Json)
  | [] => some []
  | v :: r => do
    let v ← value? depth v
    let r ← items? depth r
    return v :: r

/-- The free-form members of an object. -/
def members? (depth : Nat) : List (Option String × Node) → Option (List (String × Json))
  | [] => some []
  | (k, v) :: r => do
    let k ← k
    let v ← value? depth v
    let r ← members? depth r
    return (k, v) :: r

end

mutual

/-- The node of a value. -/
def ofJson : Json → Node
  | .null => null
  | .bool b => bool b
  | .number n => number (some n)
  | .string s => string (some s)
  | .array items => array (ofItems items)
  | .object members => object (ofMembers members)

/-- The nodes of the items of an array. -/
def ofItems : List Json → List Node
  | [] => []
  | v :: r => ofJson v :: ofItems r

/-- The nodes of the members of an object. -/
def ofMembers : List (String × Json) → List (Option String × Node)
  | [] => []
  | (k, v) :: r => (some k, ofJson v) :: ofMembers r

end

end Node

end ContainerJobs
