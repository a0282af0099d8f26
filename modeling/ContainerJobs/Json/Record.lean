import ContainerJobs.Json.Parser
import ContainerJobs.Text.Utf8

/-!
# Reading records from JSON

A record is read from an object or from an array. In an object unknown members
are skipped, a known member may stand once only, and a missing optional member
counts as absent. In an array the fields stand in their order; the array is
complete, except that fields with a default may be cut off at its end. A
`Reader` gets the nesting that is still allowed below the place it reads.
-/

namespace ContainerJobs

/-- Reads a node below which arrays and objects may be nested `depth` deep. -/
abbrev Reader (α : Type) := (depth : Nat) → Node → Option α

/-- A field of a record. -/
structure FieldName where
  /-- The key of the field. -/
  key : String
  /-- An array may end before this field. -/
  hasDefault : Bool := false

namespace Reader

variable {α β : Type}

/-- A string. -/
def string : Reader String
  | _, .string s => s
  | _, _ => none

/-- An unsigned 64-bit integer. -/
def unsigned : Reader Nat
  | _, .number (some (.integer n)) => if 0 ≤ n then some n.toNat else none
  | _, _ => none

/-- Any value. -/
def value : Reader Json :=
  fun depth n => n.value? depth

/-- A free-form object. -/
def object : Reader (List (String × Json)) :=
  fun depth n => (n.value? depth).bind Json.members?

/-- Nothing for `null`, otherwise what `r` reads. -/
def nullable (r : Reader α) : Reader (Option α)
  | _, .null => some none
  | depth, n => (r depth n).map some

/-- An array of what `r` reads. -/
def list (r : Reader α) : Reader (List α)
  | depth + 1, .array items => items.mapM (r depth)
  | _, _ => none

/-- An object whose keys are read by `key?` and whose values by `r`. -/
def keyed (key? : String → Option β) (r : Reader α) : Reader (List (β × α))
  | depth + 1, .object members =>
    members.mapM fun (k, v) => do
      let k ← k.bind key?
      let v ← r depth v
      return (k, v)
  | _, _ => none

/-- One of some names: the name itself, or an object with the name as its only
    key and `null` under it. -/
def name (of? : String → Option α) : Reader α
  | _, .string (some s) => of? s
  | _ + 1, .object [(some s, .null)] => of? s
  | _, _ => none

/-- The values of the known members among `members`, in the order of `fields`. -/
def ofMembers? (fields : List FieldName) (members : List (Option String × Node)) :
    Option (List (Option Node)) :=
  if members.any (·.1.isNone) then none
  else fields.mapM fun f =>
    match members.filter (·.1 == some f.key) with
    | [] => some none
    | [(_, v)] => some (some v)
    | _ => none

/-- The values of an array for the fields in their order. -/
def ofItems? : List FieldName → List Node → Option (List (Option Node))
  | [], [] => some []
  | [], _ :: _ => none
  | f :: fs, [] => if f.hasDefault then (ofItems? fs []).map (none :: ·) else none
  | _ :: fs, v :: r => (ofItems? fs r).map (some v :: ·)

/-- What stands for each field of a record, and how deep the fields may nest. -/
def fields (l : List FieldName) : Reader (Nat × List (Option Node))
  | depth + 1, .object members => (ofMembers? l members).map (depth, ·)
  | depth + 1, .array items => (ofItems? l items).map (depth, ·)
  | _, _ => none

/-- A field that must be there. -/
def required (r : Reader α) (depth : Nat) (v : Option Node) : Option α :=
  v.bind (r depth)

/-- A field that may be missing or `null`. -/
def optional (r : Reader α) (depth : Nat) (v : Option Node) : Option (Option α) :=
  match v with
  | none => some none
  | some n => r.nullable depth n

/-- A field that has a value when it is missing. -/
def withDefault (r : Reader α) (absent : α) (depth : Nat) (v : Option Node) : Option α :=
  match v with
  | none => some absent
  | some n => r depth n

/-- What a JSON text is read as. -/
def ofText? (r : Reader α) (s : String) : Option α := do
  let n ← Json.parse s.toList
  r Json.maxDepth n

/-- What bytes are read as, which hold a JSON text. What is not UTF-8 may only
    stand in parts that are skipped. -/
def ofBytes? (r : Reader α) (l : List UInt8) : Option α := do
  let n ← Json.parseChars (Text.chars l)
  r Json.maxDepth n

/-- What a JSON value is read as. -/
def ofJson? (r : Reader α) (v : Json) : Option α :=
  r Json.maxDepth (.ofJson v)

end Reader

end ContainerJobs
