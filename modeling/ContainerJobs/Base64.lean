import ContainerJobs.Text.Decimal

/-!
# Base64

The standard alphabet with canonical padding: four symbols stand for three
bytes, `=` fills up the last group, and the bits that the padding leaves unused
are zero. So each byte string has exactly one encoding. A text that is none is
refused with the place of the first fault.
-/

namespace ContainerJobs.Base64

/-- Why a text is not the encoding of any byte string. -/
inductive Fault where
  /-- A byte at this offset has no place there. -/
  | symbol (byte : UInt8) (offset : Nat)
  /-- The text ends after this many symbols, too early for a byte. -/
  | length (symbols : Nat)
  /-- The last symbol, at this offset, has bits that stand for nothing. -/
  | lastSymbol (byte : UInt8) (offset : Nat)
  /-- The last group is not filled up to four. -/
  | padding
deriving DecidableEq, Repr

/-- The text of a fault. -/
def Fault.message : Fault → String
  | .symbol byte offset => s!"Invalid symbol {byte.toNat}, offset {offset}."
  | .length n => s!"Invalid input length: {n}"
  | .lastSymbol byte offset => s!"Invalid last symbol {byte.toNat}, offset {offset}."
  | .padding => "Invalid padding"

/-- The padding byte, an equals sign. -/
def pad : UInt8 := 61

/-- The symbol of a value below 64. -/
def symbol (n : Nat) : Char :=
  if n < 26 then Char.ofNat (65 + n)
  else if n < 52 then Char.ofNat (71 + n)
  else if n < 62 then Char.ofNat (n - 4)
  else if n = 62 then '+' else '/'

/-- The value of a symbol, given as a byte. -/
def value? (b : UInt8) : Option Nat :=
  let n := b.toNat
  if 65 ≤ n && n ≤ 90 then some (n - 65)
  else if 97 ≤ n && n ≤ 122 then some (n - 71)
  else if 48 ≤ n && n ≤ 57 then some (n + 4)
  else if n == 43 then some 62
  else if n == 47 then some 63
  else none

/-- The encoding of a byte string. -/
def encode : List UInt8 → List Char
  | [] => []
  | [a] => [symbol (a.toNat / 4), symbol (a.toNat % 4 * 16), '=', '=']
  | [a, b] =>
    [symbol (a.toNat / 4), symbol (a.toNat % 4 * 16 + b.toNat / 16), symbol (b.toNat % 16 * 4), '=']
  | a :: b :: c :: r =>
    symbol (a.toNat / 4) :: symbol (a.toNat % 4 * 16 + b.toNat / 16) ::
      symbol (b.toNat % 16 * 4 + c.toNat / 64) :: symbol (c.toNat % 64) :: encode r

/-- The value of the symbol at an offset. -/
def valueAt (b : UInt8) (offset : Nat) : Except Fault Nat :=
  match value? b with
  | some v => .ok v
  | none => .error (.symbol b offset)

/-- The symbols of the last group with their values, and the number of padding
    bytes after them. `base` is the offset of the group and `i` the position in
    it; padding is admitted from the third position on. -/
def lastGroup (base : Nat) : (i : Nat) → List UInt8 → Except Fault (List (UInt8 × Nat) × Nat)
  | _, [] => .ok ([], 0)
  | i, b :: r =>
    if b == pad then
      if i < 2 then .error (.symbol pad (base + i))
      else if r.all (· == pad) then .ok ([], r.length + 1)
      else .error (.symbol pad (base + i))
    else do
      let v ← valueAt b (base + i)
      let (vs, pads) ← lastGroup base (i + 1) r
      return ((b, v) :: vs, pads)

/-- The bytes of the last group, which starts at the offset `base`. -/
def decodeLast (base : Nat) (group : List UInt8) : Except Fault (List UInt8) := do
  let (symbols, pads) ← lastGroup base 0 group
  if symbols.length < 2 then
    throw (.length (base + symbols.length))
  if symbols.length + pads ≠ 4 then
    throw .padding
  match symbols with
  | [(_, v), (b, w)] =>
    if w % 16 ≠ 0 then throw (.lastSymbol b (base + 1))
    return [UInt8.ofNat (v * 4 + w / 16)]
  | [(_, v), (_, w), (b, x)] =>
    if x % 4 ≠ 0 then throw (.lastSymbol b (base + 2))
    return [UInt8.ofNat (v * 4 + w / 16), UInt8.ofNat (w % 16 * 16 + x / 4)]
  | [(_, v), (_, w), (_, x), (_, y)] =>
    return [UInt8.ofNat (v * 4 + w / 16), UInt8.ofNat (w % 16 * 16 + x / 4),
      UInt8.ofNat (x % 4 * 64 + y)]
  | _ => throw .padding

/-- The bytes of the groups from the offset `base` on. -/
def decodeFrom (base : Nat) : List UInt8 → Except Fault (List UInt8)
  | a :: b :: c :: d :: e :: r => do
    let v ← valueAt a base
    let w ← valueAt b (base + 1)
    let x ← valueAt c (base + 2)
    let y ← valueAt d (base + 3)
    let rest ← decodeFrom (base + 4) (e :: r)
    return UInt8.ofNat (v * 4 + w / 16) :: UInt8.ofNat (w % 16 * 16 + x / 4) ::
      UInt8.ofNat (x % 4 * 64 + y) :: rest
  | group => decodeLast base group

/-- The byte string of an encoding. A foreign byte that stands alone in the last
    group is reported before any fault in front of it. -/
def decode (l : List UInt8) : Except Fault (List UInt8) := do
  match l.getLast? with
  | none => return []
  | some b =>
    if l.length % 4 = 1 && b != pad && (value? b).isNone then
      throw (.symbol b (l.length - 1))
    decodeFrom 0 l

end ContainerJobs.Base64
