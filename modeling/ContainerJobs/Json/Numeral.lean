import ContainerJobs.Double.Shortest
import ContainerJobs.Json.Basic
import ContainerJobs.Text.Blank

/-!
# JSON numerals

The grammar of JSON numbers, the number that a numeral stands for, and the text
of a number. A numeral of digits alone stands for an integer as long as it fits
a signed or unsigned 64-bit word. All other numerals stand for numbers of double
precision; beyond their range a numeral stands for nothing. A number is written
with as few digits as it takes to tell it from all others.
-/

namespace ContainerJobs

/-- The parts of a numeral. -/
structure Numeral where
  /-- A minus sign stands in front. -/
  negative : Bool
  /-- The digits before the point. -/
  whole : List Char
  /-- The digits after the point, if there is one. -/
  fraction : Option (List Char)
  /-- The power of ten, if one is given. -/
  exponent : Option Int

namespace Numeral

/-- One or more digits, and what follows them. -/
def digits? (l : List Char) : Option (List Char × List Char) :=
  match l.span Char.isDigit with
  | ([], _) => none
  | (ds, r) => some (ds, r)

/-- The digits before the point: a zero alone, or digits that start with none. -/
def whole? (l : List Char) : Option (List Char × List Char) := do
  let (ds, r) ← digits? l
  if ds.length > 1 && ds.head? == some '0' then none else some (ds, r)

/-- The fraction part, if the text starts with a point. -/
def fraction? : List Char → Option (Option (List Char) × List Char)
  | '.' :: r => do
    let (ds, r) ← digits? r
    return (some ds, r)
  | r => some (none, r)

/-- The exponent part, if the text starts with its mark. -/
def exponent? : List Char → Option (Option Int × List Char)
  | c :: r =>
    if c = 'e' || c = 'E' then do
      let (negative, r) := match r with
        | '-' :: r => (true, r)
        | '+' :: r => (false, r)
        | r => (false, r)
      let (ds, r) ← digits? r
      let n := Nat.ofDigitChars 10 ds 0
      return (some (if negative then -(n : Int) else n), r)
    else some (none, c :: r)
  | [] => some (none, [])

/-- The parts of a text that is exactly one numeral. -/
def ofText? (l : List Char) : Option Numeral := do
  let (negative, l) := match l with
    | '-' :: r => (true, r)
    | r => (false, r)
  let (whole, l) ← whole? l
  let (fraction, l) ← fraction? l
  let (exponent, l) ← exponent? l
  if l.isEmpty then some { negative, whole, fraction, exponent } else none

/-- Takes up digits into a number as long as it fits 64 bits: the number, and how
    many digits are left. -/
def takeUp (n : Nat) : List Char → Nat × Nat
  | [] => (n, 0)
  | c :: r =>
    let m := n * 10 + (c.toNat - 48)
    if m ≤ Text.maxUnsigned then takeUp m r else (n, r.length + 1)

/-- The numeral in double precision. Of its digits only those count that fit 64
    bits. The other digits before the point count as zeros, and those behind it
    not at all. -/
def real? (n : Numeral) : Option Double :=
  let fraction := n.fraction.getD []
  let (c, zeros) := takeUp 0 n.whole
  let (c, left) := takeUp c fraction
  Double.scaled? n.negative c (n.exponent.getD 0 + zeros - (fraction.length - left : Nat))

/-- The number that a numeral stands for. -/
def number? (n : Numeral) : Option Number :=
  let whole := Nat.ofDigitChars 10 n.whole 0
  let plain := n.fraction.isNone && n.exponent.isNone
  if plain && !n.negative && whole ≤ Text.maxUnsigned then
    some (.integer whole)
  else if plain && n.negative && whole ≠ 0 && whole ≤ Text.maxSigned + 1 then
    some (.integer (-(whole : Int)))
  else n.real?.map .real

end Numeral

/-- The text of a number. -/
def Number.text : Number → List Char
  | .integer n => Text.ofInt n
  | .real x => x.shortest.text

end ContainerJobs
