import ContainerJobs.Json.Numeral

/-!
# Writing JSON

Two layouts: compact, with no blank between the parts, and pretty, with one
member or item a line and two spaces for each level. Strings escape the quote,
the backslash and the control characters below U+0020, nothing else.
-/

namespace ContainerJobs.Json

/-- The escape of a character in a string, or the character itself. -/
def escapeChar (c : Char) : List Char :=
  if c = '"' then ['\\', '"']
  else if c = '\\' then ['\\', '\\']
  else if c = '\n' then ['\\', 'n']
  else if c = '\r' then ['\\', 'r']
  else if c = '\t' then ['\\', 't']
  else if c.toNat = 8 then ['\\', 'b']
  else if c.toNat = 12 then ['\\', 'f']
  else if c.toNat < 0x20 then
    ['\\', 'u', '0', '0', Nat.digitChar (c.toNat / 16), Nat.digitChar (c.toNat % 16)]
  else [c]

/-- A string in quotes. -/
def quoted (s : String) : List Char :=
  '"' :: (s.toList.flatMap escapeChar ++ ['"'])

/-- The text of a truth value. -/
def boolText (b : Bool) : List Char :=
  if b then ['t', 'r', 'u', 'e'] else ['f', 'a', 'l', 's', 'e']

mutual

/-- The compact text of a value. -/
def compact : Json → List Char
  | null => ['n', 'u', 'l', 'l']
  | bool b => boolText b
  | number n => n.text
  | string s => quoted s
  | array items => '[' :: (compactItems items ++ [']'])
  | object members => '{' :: (compactMembers members ++ ['}'])

/-- The items with commas between them. -/
def compactItems : List Json → List Char
  | [] => []
  | [v] => compact v
  | v :: w :: r => compact v ++ ',' :: compactItems (w :: r)

/-- The members with commas between them. -/
def compactMembers : List (String × Json) → List Char
  | [] => []
  | [(k, v)] => quoted k ++ ':' :: compact v
  | (k, v) :: m :: r => quoted k ++ ':' :: compact v ++ ',' :: compactMembers (m :: r)

end

/-- A new line at a level of nesting. -/
def newLine (level : Nat) : List Char :=
  '\n' :: List.replicate (2 * level) ' '

mutual

/-- The pretty text of a value at a level of nesting. -/
def prettyAt (level : Nat) : Json → List Char
  | null => ['n', 'u', 'l', 'l']
  | bool b => boolText b
  | number n => n.text
  | string s => quoted s
  | array [] => ['[', ']']
  | array (v :: r) =>
    '[' :: (newLine (level + 1) ++ prettyItems (level + 1) (v :: r) ++ newLine level ++ [']'])
  | object [] => ['{', '}']
  | object (m :: r) =>
    '{' :: (newLine (level + 1) ++ prettyMembers (level + 1) (m :: r) ++ newLine level ++ ['}'])

/-- The items, one a line. -/
def prettyItems (level : Nat) : List Json → List Char
  | [] => []
  | [v] => prettyAt level v
  | v :: w :: r => prettyAt level v ++ ',' :: newLine level ++ prettyItems level (w :: r)

/-- The members, one a line. -/
def prettyMembers (level : Nat) : List (String × Json) → List Char
  | [] => []
  | [(k, v)] => quoted k ++ ':' :: ' ' :: prettyAt level v
  | (k, v) :: m :: r =>
    quoted k ++ ':' :: ' ' :: prettyAt level v ++ ',' :: newLine level ++
      prettyMembers level (m :: r)

end

/-- The compact text of a value as a string. -/
def render (v : Json) : String := String.ofList v.compact

/-- The pretty text of a value as a string. -/
def pretty (v : Json) : String := String.ofList (v.prettyAt 0)

end ContainerJobs.Json
