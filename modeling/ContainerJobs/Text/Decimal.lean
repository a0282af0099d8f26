/-!
# Decimal numerals

Reading and writing whole numbers. A numeral is one or more ASCII digits, with
an optional sign in front; a value out of the given range is refused, so what
is read always fits the machine word it is meant for.
-/

namespace ContainerJobs.Text

/-- The digits of `n`, most significant first. -/
def digits (n : Nat) : List Char :=
  Nat.toDigits 10 n

/-- The digits of `n`, with zeros in front up to `width` characters. -/
def padded (width n : Nat) : List Char :=
  let ds := digits n
  List.replicate (width - ds.length) '0' ++ ds

/-- The value of one or more ASCII digits. -/
def ofDigits? (l : List Char) : Option Nat :=
  if l.isEmpty || !l.all Char.isDigit then none else some (Nat.ofDigitChars 10 l 0)

/-- The greatest unsigned 64-bit number. -/
def maxUnsigned : Nat := 18446744073709551615

/-- The greatest signed 64-bit number. -/
def maxSigned : Nat := 9223372036854775807

/-- An unsigned 64-bit number; a plus sign may stand in front. -/
def unsigned? (l : List Char) : Option Nat := do
  let n ← ofDigits? (match l with | '+' :: r => r | _ => l)
  if n ≤ maxUnsigned then some n else none

/-- The integer lies in the range of signed 64-bit numbers. -/
def isSigned (n : Int) : Bool :=
  -(maxSigned + 1 : Nat) ≤ n && n ≤ maxSigned

/-- A signed 64-bit number; either sign may stand in front. -/
def signed? (l : List Char) : Option Int := do
  let n ← match l with
    | '-' :: r => (ofDigits? r).map fun n => -(n : Int)
    | '+' :: r => (ofDigits? r).map fun n => (n : Int)
    | _ => (ofDigits? l).map fun n => (n : Int)
  if isSigned n then some n else none

/-- The text of an integer: digits, after a minus sign if it is negative. -/
def ofInt (n : Int) : List Char :=
  if n < 0 then '-' :: digits n.natAbs else digits n.natAbs

end ContainerJobs.Text
