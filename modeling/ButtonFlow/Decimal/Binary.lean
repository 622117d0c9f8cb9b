/-!
# Binary fractions

A float of 64 bits, if it is finite, is a whole number times a power of two. This module reads
that pair off the bits and gives the value as a quotient of natural numbers, so that printing
needs no arithmetic on floats.
-/

namespace ButtonFlow
namespace Decimal

/-- A sign and a magnitude `mantissa * 2 ^ power`. -/
structure Binary where
  negative : Bool
  mantissa : Nat
  power : Int
  /-- Whether the next smaller magnitude is only half as far away as the next larger one. -/
  closerBelow : Bool

namespace Binary

/-- The parts of a float, or `none` if it is infinite or no number. -/
def ofFloat? (x : Float) : Option Binary :=
  let bits : Nat := x.toBits.toNat
  let hidden := Nat.pow 2 52
  let fraction := bits % hidden
  let exponent := bits / hidden % 2048
  let negative := bits / Nat.pow 2 63 = 1
  if exponent = 2047 then none
  else if exponent = 0 then
    some ⟨negative, fraction, -1074, false⟩
  else
    some ⟨negative, hidden + fraction, (exponent : Int) - 1075,
      fraction = 0 && 1 < exponent⟩

/-- The magnitude of one unit of the mantissa is `unit / denominator`. -/
def unit (b : Binary) : Nat := Nat.pow 2 b.power.toNat

/-- The magnitude is `numerator / denominator`. -/
def numerator (b : Binary) : Nat := b.mantissa * b.unit

def denominator (b : Binary) : Nat := Nat.pow 2 (-b.power).toNat

end Binary

end Decimal
end ButtonFlow
