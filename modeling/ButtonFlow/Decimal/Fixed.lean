import ButtonFlow.Decimal.Binary

/-!
# A fixed number of places

The exact value of a float is rounded to the wanted number of places; a value half way between
two neighbours goes to the even one.
-/

namespace ButtonFlow
namespace Decimal

/-- The whole number nearest to `num / den`; a tie goes to the even one. -/
def roundedQuotient (num den : Nat) : Nat :=
  let lower := num / den
  let gap := 2 * (num % den)
  if gap < den || (gap = den && lower % 2 = 0) then lower else lower + 1

def Binary.fixed (places : Nat) (b : Binary) : String :=
  let scaled := roundedQuotient (b.numerator * Nat.pow 10 places) b.denominator
  let digits := Nat.toDigits 10 scaled
  let padded := List.replicate (places + 1 - digits.length) '0' ++ digits
  let whole := padded.length - places
  let text := if places = 0 then padded else padded.take whole ++ '.' :: padded.drop whole
  String.ofList (if b.negative then '-' :: text else text)

end Decimal
end ButtonFlow
