import ContainerJobs.Double.Basic
import ContainerJobs.Text.Blank
import ContainerJobs.Text.Decimal

/-!
# Shortest decimals

The decimal fraction that a number of double precision is written as: of all
fractions that round to the number, one with the fewest digits, and of those the
one that lies nearest. The fractions that round to a number lie between the
middles to its two neighbours, and a middle itself rounds to the number if its
last bit is even. Middles are whole numbers of quarter units.
-/

namespace ContainerJobs

/-- A decimal fraction. -/
structure Decimal where
  /-- A minus sign stands in front. -/
  negative : Bool
  /-- The significant digits as a number. -/
  coefficient : Nat
  /-- The power of ten that the coefficient is multiplied by. -/
  exponent : Int
deriving DecidableEq, Repr

namespace Decimal

/-- The fraction in lowest form: factors of ten move into the exponent. -/
def reduce (d : Decimal) : Decimal :=
  let ds := Text.digits d.coefficient
  let kept := Text.dropEndWhile (· == '0') ds
  { d with
    coefficient := Nat.ofDigitChars 10 kept 0
    exponent := if kept.isEmpty then 0 else d.exponent + (ds.length - kept.length : Nat) }

/-- The text of a decimal fraction. It always holds a point or an exponent, and
    is positional from 10⁻⁵ to below 10¹⁶. -/
def text (d : Decimal) : List Char :=
  let ds := Text.digits d.coefficient
  let sign := if d.negative then ['-'] else []
  let point := ds.length + d.exponent
  let body :=
    if 0 ≤ d.exponent && point ≤ 16 then ds ++ List.replicate d.exponent.toNat '0' ++ ['.', '0']
    else if 0 < point && point ≤ 16 then ds.take point.toNat ++ '.' :: ds.drop point.toNat
    else if -5 < point && point ≤ 0 then
      '0' :: '.' :: (List.replicate (-point).toNat '0' ++ ds)
    else
      let fraction := if ds.length = 1 then [] else '.' :: ds.drop 1
      let mark := if 0 < point then ['e', '+'] else ['e']
      ds.take 1 ++ fraction ++ mark ++ Text.ofInt (point - 1)
  sign ++ body

end Decimal

namespace Double

/-- The magnitude lies just above a change of spacing: the neighbour below is
    half as far away as the one above. -/
def isNarrowBelow (x : Double) : Bool :=
  let s := spacing x.units
  1 < s && x.units / s == twoTo 52

/-- The middle to the neighbour below, in quarter units. -/
def low (x : Double) : Nat :=
  let s := spacing x.units
  4 * x.units - if x.isNarrowBelow then s else 2 * s

/-- The middle to the neighbour above, in quarter units. -/
def high (x : Double) : Nat :=
  4 * x.units + 2 * spacing x.units

/-- The middles round to the number, as its last bit is even. -/
def isEven (x : Double) : Bool :=
  x.units / spacing x.units % 2 == 0

/-- The fraction `coefficient * 10 ^ exponent` rounds to the number. -/
def isReadFrom (x : Double) (coefficient : Nat) (exponent : Int) : Bool :=
  let num := coefficient * (4 * one) * Nat.pow 10 exponent.toNat
  let den := Nat.pow 10 (-exponent).toNat
  if x.isEven then x.low * den ≤ num && num ≤ x.high * den
  else x.low * den < num && num < x.high * den

/-- The place of the first digit: the magnitude lies below this power of ten and
    not below the one before. -/
def place (x : Double) : Int :=
  if one ≤ x.units then (Text.digits (x.units / one)).length
  else 1 - ((Text.digits (one / x.units)).length : Int)

/-- The fraction of `length` digits that rounds to the number, the nearer one if
    there are two, and of two equally near ones the even one. -/
def ofLength? (x : Double) (length : Nat) : Option Decimal :=
  let exponent := x.place - length
  let num := x.units * Nat.pow 10 (-exponent).toNat
  let den := one * Nat.pow 10 exponent.toNat
  let below := num / den
  let above := below + 1
  let choice? :=
    match x.isReadFrom below exponent, x.isReadFrom above exponent with
    | true, true => some (nearest num den)
    | true, false => some below
    | false, true => some above
    | false, false => none
  choice?.map fun c => { negative := x.negative, coefficient := c, exponent }

/-- The number as a decimal fraction, with as many digits as that takes. -/
def exact (x : Double) : Decimal where
  negative := x.negative
  coefficient := x.units * Nat.pow 5 1074
  exponent := -1074

/-- The number as a decimal fraction with the fewest digits. Seventeen are always
    enough. -/
def shortest (x : Double) : Decimal :=
  if x.units = 0 then { negative := x.negative, coefficient := 0, exponent := 0 }
  else
    let lengths := (List.range 17).map (· + 1)
    ((lengths.findSome? x.ofLength?).getD x.exact).reduce

end Double

end ContainerJobs
