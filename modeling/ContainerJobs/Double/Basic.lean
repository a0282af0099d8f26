/-!
# Double precision

The finite numbers of double precision: a sign, and a magnitude that is a whole
number of units of 2⁻¹⁰⁷⁴, the least magnitude there is. A magnitude has at most
53 significant bits, so magnitudes lie the further apart the greater they are
(`spacing`). Every operation is exact arithmetic on fractions followed by one
rounding to the nearest magnitude, with ties to the even one (`round?`). There is
no infinity: what would round to it is no number.
-/

namespace ContainerJobs

namespace Double

/-- A power of two. -/
def twoTo (exponent : Nat) : Nat := Nat.pow 2 exponent

/-- The number one, in units. -/
def one : Nat := twoTo 1074

/-- The least magnitude that is too great, in units. -/
def limit : Nat := twoTo 2098

/-- How far apart magnitudes lie around one of so many units. -/
def spacing (units : Nat) : Nat := twoTo (units.log2 - 52)

end Double

/-- A finite number of double precision. -/
structure Double where
  /-- A minus sign stands in front. -/
  negative : Bool
  /-- The magnitude in units. -/
  units : Nat
  /-- The magnitude is one of those that there are. -/
  isSpaced : units % Double.spacing units = 0
  /-- The magnitude is finite. -/
  isFinite : units < Double.limit
deriving DecidableEq, Repr

namespace Double

/-- The whole number nearest to a fraction, the even one of two. -/
def nearest (num den : Nat) : Nat :=
  let q := num / den
  let r := num % den
  if 2 * r < den then q
  else if den < 2 * r then q + 1
  else q + q % 2

/-- The number with a magnitude, if there is one. -/
def ofUnits? (negative : Bool) (units : Nat) : Option Double :=
  if h : units % spacing units = 0 ∧ units < limit then
    some { negative, units, isSpaced := h.1, isFinite := h.2 }
  else none

/-- The number nearest to a fraction of units. -/
def round? (negative : Bool) (num den : Nat) : Option Double :=
  let s := spacing (num / den)
  ofUnits? negative (nearest num (den * s) * s)

/-- The number nearest to a whole number. -/
def ofNat? (negative : Bool) (n : Nat) : Option Double :=
  round? negative (n * one) 1

/-- The product. -/
def mul? (x y : Double) : Option Double :=
  round? (x.negative != y.negative) (x.units * y.units) one

/-- The quotient. -/
def div? (x y : Double) : Option Double :=
  round? (x.negative != y.negative) (x.units * one) y.units

/-- The number nearest to a power of ten. -/
def tenTo? (exponent : Nat) : Option Double :=
  ofNat? false (Nat.pow 10 exponent)

/-- The greatest power of ten that is finite. -/
def maxPower : Nat := 308

/-- The number divided by a power of ten. -/
def divTenTo? (x : Double) (exponent : Nat) : Option Double :=
  (tenTo? exponent).bind x.div?

/-- The number divided by the greatest finite power of ten so many times, or until
    nothing is left of it. -/
def vanish? (x : Double) : (times : Nat) → Option Double
  | 0 => some x
  | times + 1 =>
    if x.units = 0 then some x
    else
      match x.divTenTo? maxPower with
      | some y => y.vanish? times
      | none => none

/-- The number divided by a power of ten, which is split where it is greater than
    the greatest finite one. -/
def shrink? (x : Double) (exponent : Nat) : Option Double :=
  let times := (exponent - 1) / maxPower
  (x.vanish? times).bind fun y =>
    if y.units = 0 then some y else y.divTenTo? (exponent - times * maxPower)

/-- The number multiplied with a power of ten. -/
def grow? (x : Double) (exponent : Nat) : Option Double :=
  if exponent ≤ maxPower then
    (tenTo? exponent).bind x.mul?
  else if x.units = 0 then some x
  else none

/-- The whole number `coefficient` times a power of ten. The coefficient is
    rounded first and then the product or quotient, so that the outcome is not
    always the number nearest to the exact one. -/
def scaled? (negative : Bool) (coefficient : Nat) (exponent : Int) : Option Double := do
  let x ← ofNat? negative coefficient
  if 0 ≤ exponent then x.grow? exponent.toNat else x.shrink? (-exponent).toNat

end Double

end ContainerJobs
