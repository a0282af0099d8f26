import ContainerJobs.Json.Scanner

/-!
# Parsing JSON

The tree of a JSON text, built token by token on an explicit stack of the arrays
and objects that are open. There is no limit to the nesting here; who takes a
value out of the tree sets one. Nothing may follow the value but blanks.
-/

namespace ContainerJobs.Json

/-- An array or object that is open. -/
inductive Frame where
  /-- An array, with the items so far, last first. -/
  | array (items : List Node)
  /-- An object that waits for the value of `key`, with the members so far,
      last first. -/
  | object (members : List (Option String × Node)) (key : Option String)

/-- What the tokens so far amount to, and so what may follow. -/
inductive Progress where
  /-- A value must follow. -/
  | value (stack : List Frame)
  /-- An array has just been opened: a value or its end must follow. -/
  | firstItem (stack : List Frame)
  /-- An object has just been opened: a key or its end must follow. -/
  | firstKey (stack : List Frame)
  /-- A key must follow. -/
  | key (members : List (Option String × Node)) (stack : List Frame)
  /-- A colon must follow. -/
  | colon (members : List (Option String × Node)) (key : Option String) (stack : List Frame)
  /-- A value is complete: its container goes on or ends, or the text ends. -/
  | complete (node : Node) (stack : List Frame)

namespace Progress

/-- The progress after a token where a value must follow. -/
def begin? (stack : List Frame) : Token → Option Progress
  | .beginArray => some (firstItem stack)
  | .beginObject => some (firstKey stack)
  | .string s => some (complete (.string s) stack)
  | .scalar n => some (complete n stack)
  | _ => none

/-- The progress after one more token. -/
def step : Progress → Token → Option Progress
  | value stack, t => begin? stack t
  | firstItem stack, .endArray => some (complete (.array []) stack)
  | firstItem stack, t => begin? (.array [] :: stack) t
  | firstKey stack, .endObject => some (complete (.object []) stack)
  | firstKey stack, .string k => some (colon [] k stack)
  | key members stack, .string k => some (colon members k stack)
  | colon members k stack, .colon => some (value (.object members k :: stack))
  | complete n (.array items :: stack), .comma => some (value (.array (n :: items) :: stack))
  | complete n (.array items :: stack), .endArray =>
    some (complete (.array (n :: items).reverse) stack)
  | complete n (.object members k :: stack), .comma => some (key ((k, n) :: members) stack)
  | complete n (.object members k :: stack), .endObject =>
    some (complete (.object ((k, n) :: members).reverse) stack)
  | _, _ => none

/-- The progress after some more tokens. -/
def run (p : Progress) (l : List Token) : Option Progress :=
  l.foldlM step p

/-- The whole tree, if it is complete. -/
def tree? : Progress → Option Node
  | complete n [] => some n
  | _ => none

end Progress

/-- The tree of a JSON text that comes from bytes. -/
def parseChars (l : List (Option Char)) : Option Node := do
  let l ← tokens l
  let p ← (Progress.value []).run l
  p.tree?

/-- The tree of a JSON text. -/
def parse (l : List Char) : Option Node :=
  parseChars (l.map some)

/-- How deep the arrays and objects of a text may be nested. -/
def maxDepth : Nat := 127

/-- The free-form value of a JSON text. -/
def ofText? (s : String) : Option Json := do
  let n ← parse s.toList
  n.value? maxDepth

end ContainerJobs.Json
