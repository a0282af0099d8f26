/-!
# UTF-8

Bytes of a text, and text from bytes. Strict reading refuses any byte sequence
that is not UTF-8. Lossy reading never fails: each maximal start of a character
that is not completed becomes one replacement character, U+FFFD.
-/

namespace ContainerJobs.Text

/-- The UTF-8 bytes of a string. -/
def bytes (s : String) : List UInt8 :=
  s.toUTF8.data.toList

/-- The string whose UTF-8 bytes are given, if there is one. -/
def ofBytes? (l : List UInt8) : Option String :=
  String.fromUTF8? ⟨l.toArray⟩

/-- A string is read back from its bytes. -/
@[simp] theorem ofBytes?_bytes (s : String) : ofBytes? (bytes s) = some s := by
  simp [ofBytes?, bytes, String.fromUTF8?, String.toUTF8, s.isValidUTF8, String.fromUTF8]

/-- How a multi-byte character goes on after its first byte. -/
structure Continuation where
  /-- The bits of the character read so far. -/
  value : Nat
  /-- The number of bytes still to come. -/
  missing : Nat
  /-- The least next byte. -/
  low : UInt8 := 0x80
  /-- The greatest next byte. -/
  high : UInt8 := 0xBF

/-- The continuation that the first byte of a multi-byte character asks for.
    The bounds on the second byte exclude overlong forms, surrogates and values
    above U+10FFFF. -/
def Continuation.ofLead? (b : UInt8) : Option Continuation :=
  let n := b.toNat
  if b < 0xC2 then none
  else if b < 0xE0 then some { value := n - 0xC0, missing := 1 }
  else if b == 0xE0 then some { value := 0, missing := 2, low := 0xA0 }
  else if b == 0xED then some { value := 0xD, missing := 2, high := 0x9F }
  else if b < 0xF0 then some { value := n - 0xE0, missing := 2 }
  else if b == 0xF0 then some { value := 0, missing := 3, low := 0x90 }
  else if b == 0xF4 then some { value := 4, missing := 3, high := 0x8F }
  else if b < 0xF4 then some { value := n - 0xF0, missing := 3 }
  else none

/-- The characters of some bytes, where `open?` is the character that has begun.
    Each maximal start of a character that is not completed is no character. -/
def charsFrom : (open? : Option Continuation) → List UInt8 → List (Option Char)
  | none, [] => []
  | some _, [] => [none]
  | some k, b :: r =>
    if k.low ≤ b && b ≤ k.high then
      let value := k.value * 64 + (b.toNat - 0x80)
      if k.missing ≤ 1 then some (Char.ofNat value) :: charsFrom none r
      else charsFrom (some { value, missing := k.missing - 1 }) r
    else none :: start b r
  | none, b :: r => start b r
where
  /-- Goes on with `b` as the first byte of a character. -/
  start (b : UInt8) (r : List UInt8) : List (Option Char) :=
    if b < 0x80 then some (Char.ofNat b.toNat) :: charsFrom none r
    else
      match Continuation.ofLead? b with
      | some k => charsFrom (some k) r
      | none => none :: charsFrom none r

/-- The characters of some bytes: those of a string, if the bytes are UTF-8, and
    otherwise what can be made out. -/
def chars (l : List UInt8) : List (Option Char) :=
  match ofBytes? l with
  | some s => s.toList.map some
  | none => charsFrom none l

/-- The characters of a string are read back from its bytes. -/
theorem chars_bytes (s : String) : chars (bytes s) = s.toList.map some := by
  simp [chars]

/-- The replacement character. -/
def replacement : Char := '\uFFFD'

/-- The text of some bytes, with U+FFFD for what is not UTF-8. -/
def lossy (l : List UInt8) : String :=
  String.ofList ((chars l).map fun c => c.getD replacement)

end ContainerJobs.Text
