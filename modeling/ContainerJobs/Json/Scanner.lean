import ContainerJobs.Json.Node

/-!
# The tokens of a JSON text

One pass over the characters. A `Mode` says what the characters read last
belong to, and `Mode.step` takes one character further; words and numerals end
at the first character that cannot go on with them. The text may come from
bytes: then `none` stands where they are not UTF-8, which only a string may hold,
and such a string says nothing.
-/

namespace ContainerJobs.Json

/-- The tokens of JSON. Scalars carry the node they stand for. -/
inductive Token where
  /-- A left bracket. -/
  | beginArray
  /-- A right bracket. -/
  | endArray
  /-- A left brace. -/
  | beginObject
  /-- A right brace. -/
  | endObject
  /-- A colon. -/
  | colon
  /-- A comma. -/
  | comma
  /-- A string. -/
  | string (s : Option String)
  /-- Any other scalar. -/
  | scalar (n : Node)

/-- Where in an escape of a string the last character stood. -/
inductive Escape where
  /-- In no escape. -/
  | outside
  /-- At the backslash. -/
  | backslash
  /-- Among the four hexadecimal digits: how many are read, and their value. -/
  | digits (count value : Nat)

/-- A string that has been opened. -/
structure OpenString where
  /-- The characters so far, last first; `none` once there is no such string. -/
  text : Option (List Char) := some []
  /-- The first half of a surrogate pair that waits for the second. -/
  half : Option Nat := none
  /-- The escape that is open. -/
  escape : Escape := .outside

namespace OpenString

/-- The string with one more character. It is lost if half a pair was open. -/
def push (s : OpenString) (c : Char) : OpenString :=
  { text := if s.half.isSome then none else s.text.map (c :: ·) }

/-- The string with bytes that are no character. It is lost. -/
def pushForeign (_ : OpenString) : OpenString :=
  { text := none }

/-- The string with one more UTF-16 unit, given by an escape. -/
def pushUnit (s : OpenString) (n : Nat) : OpenString :=
  let high := 0xD800 ≤ n && n < 0xDC00
  let low := 0xDC00 ≤ n && n < 0xE000
  match s.half with
  | some h =>
    if low then
      { text := s.text.map (Char.ofNat (0x10000 + (h - 0xD800) * 0x400 + (n - 0xDC00)) :: ·) }
    else { text := none }
  | none =>
    if high then { text := s.text, half := some n }
    else if low then { text := none }
    else { text := s.text.map (Char.ofNat n :: ·) }

/-- What the string says when it is closed. -/
def close (s : OpenString) : Option String :=
  if s.half.isSome then none else s.text.map fun l => String.ofList l.reverse

end OpenString

/-- The character of a one-letter escape. -/
def simpleEscape? (c : Char) : Option Char :=
  match c with
  | '"' => some '"'
  | '\\' => some '\\'
  | '/' => some '/'
  | 'b' => some '\x08'
  | 'f' => some '\x0c'
  | 'n' => some '\n'
  | 'r' => some '\r'
  | 't' => some '\t'
  | _ => none

/-- The value of a hexadecimal digit of either case. -/
def hexValue? (c : Char) : Option Nat :=
  if c.isDigit then some (c.toNat - 48)
  else if 'a' ≤ c && c ≤ 'f' then some (c.toNat - 87)
  else if 'A' ≤ c && c ≤ 'F' then some (c.toNat - 55)
  else none

/-- What the last character of a JSON text belongs to. -/
inductive Mode where
  /-- To a token that is complete, or to the blanks between tokens. -/
  | between
  /-- To a literal name; its letters, last first. -/
  | word (letters : List Char)
  /-- To a numeral; its characters, last first. -/
  | numeral (chars : List Char)
  /-- To a string. -/
  | string (s : OpenString)

namespace Mode

/-- The literal names. -/
def literal? (l : List Char) : Option Node :=
  if l = ['n', 'u', 'l', 'l'] then some .null
  else if l = boolName true then some (.bool true)
  else if l = boolName false then some (.bool false)
  else none
where
  /-- The name of a truth value. -/
  boolName : Bool → List Char
    | true => ['t', 'r', 'u', 'e']
    | false => ['f', 'a', 'l', 's', 'e']

/-- A character of numerals. -/
def isNumeral (c : Char) : Bool :=
  c.isDigit || c == '-' || c == '+' || c == '.' || c == 'e' || c == 'E'

/-- The tokens and the mode after a character between tokens. -/
def first (c : Char) : Option (List Token × Mode) :=
  match c with
  | ' ' | '\t' | '\n' | '\r' => some ([], between)
  | '[' => some ([.beginArray], between)
  | ']' => some ([.endArray], between)
  | '{' => some ([.beginObject], between)
  | '}' => some ([.endObject], between)
  | ':' => some ([.colon], between)
  | ',' => some ([.comma], between)
  | '"' => some ([], string {})
  | c =>
    if c.isDigit || c == '-' then some ([], numeral [c])
    else if c.isAlpha then some ([], word [c])
    else none

/-- The tokens that end with the text. An open string does not end. -/
def finish : Mode → Option (List Token)
  | between => some []
  | word l => (literal? l.reverse).map fun n => [.scalar n]
  | numeral l => (Numeral.ofText? l.reverse).map fun n => [.scalar (.number n.number?)]
  | string _ => none

/-- The string after one more character, or the end of the string. -/
def stringStep (s : OpenString) (c : Char) : Option (List Token × Mode) :=
  match s.escape with
  | .outside =>
    if c = '"' then some ([.string s.close], between)
    else if c = '\\' then some ([], string { s with escape := .backslash })
    else if c.toNat < 0x20 then none
    else some ([], string (s.push c))
  | .backslash =>
    if c = 'u' then some ([], string { s with escape := .digits 0 0 })
    else (simpleEscape? c).map fun d => ([], string (s.push d))
  | .digits count value =>
    (hexValue? c).map fun v =>
      let value := value * 16 + v
      if count < 3 then ([], string { s with escape := .digits (count + 1) value })
      else ([], string (s.pushUnit value))

/-- The tokens that are complete after one more character, and the new mode. -/
def stepChar (m : Mode) (c : Char) : Option (List Token × Mode) :=
  match m with
  | between => first c
  | string s => stringStep s c
  | word l => if c.isAlpha then some ([], word (c :: l)) else ended m c
  | numeral l => if isNumeral c then some ([], numeral (c :: l)) else ended m c
where
  /-- The open token ends before `c`. -/
  ended (m : Mode) (c : Char) : Option (List Token × Mode) := do
    let done ← m.finish
    let (new, m) ← first c
    return (done ++ new, m)

/-- The mode after bytes that are no character. -/
def stepForeign : Mode → Option Mode
  | string s =>
    match s.escape with
    | .outside => some (string s.pushForeign)
    | _ => none
  | _ => none

/-- The tokens that are complete after one more part of the text, and the new
    mode. -/
def step (m : Mode) : Option Char → Option (List Token × Mode)
  | some c => m.stepChar c
  | none => m.stepForeign.map ([], ·)

end Mode

/-- The tokens of a text read in a mode. -/
def tokensFrom (m : Mode) : List (Option Char) → Option (List Token)
  | [] => m.finish
  | c :: r => do
    let (done, m) ← m.step c
    let rest ← tokensFrom m r
    return done ++ rest

/-- The tokens of a JSON text. -/
def tokens (l : List (Option Char)) : Option (List Token) :=
  tokensFrom .between l

end ContainerJobs.Json
