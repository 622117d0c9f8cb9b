import ButtonFlow.Decimal.Binary

/-!
# The shortest decimal that reads back

Among the decimals that lie so near to a float that they are read as that float, the one with
the fewest digits is chosen, and of several with equally many digits the nearest. For each
number of digits only the two neighbours of the value on that decimal grid can be it: if any
point of a grid is near enough, so is one of the two.
-/

namespace ButtonFlow
namespace Decimal

structure Scaled where
  digits : Nat
  exponent : Int

def digitCount (n : Nat) : Nat := (Nat.toDigits 10 n).length

/-- The `k` with `10 ^ (k - 1) ≤ num / den < 10 ^ k`, for positive `num` and `den`. -/
def magnitude (num den : Nat) : Int :=
  if den ≤ num then digitCount (num / den)
  else 1 - digitCount ((den + num - 1) / num - 1)

def Scaled.strip : Nat → Scaled → Scaled
  | 0, d => d
  | fuel + 1, d =>
      if d.digits % 10 = 0 then strip fuel ⟨d.digits / 10, d.exponent + 1⟩ else d

namespace Binary

/-- Whether the decimal `candidate * step`, where `num / den` is the value in steps and `unit`
one unit of the mantissa over the same denominator, is read as this float: it lies at most half
a unit away, where exactly half counts only for an even mantissa. -/
def admits (b : Binary) (num den unit candidate : Nat) : Bool :=
  let below := 4 * num - (if b.closerBelow then unit else 2 * unit)
  let above := 4 * num + 2 * unit
  let here := 4 * candidate * den
  if b.mantissa % 2 = 0 then below ≤ here && here ≤ above
  else below < here && here < above

/-- The neighbour of the value on the grid with `count` digits that is read as this float, if
there is one. Of two the nearer is taken, and the even one at the same distance. -/
def onGrid? (b : Binary) (count : Nat) : Option Scaled :=
  let step := magnitude b.numerator b.denominator - count
  let up := Nat.pow 10 (-step).toNat
  let num := b.numerator * up
  let unit := b.unit * up
  let den := b.denominator * Nat.pow 10 step.toNat
  let lower := num / den
  let gap := num % den
  match b.admits num den unit lower, b.admits num den unit (lower + 1) with
  | false, false => none
  | true, false => some ⟨lower, step⟩
  | false, true => some ⟨lower + 1, step⟩
  | true, true =>
      if 2 * gap < den || (2 * gap = den && lower % 2 = 0) then some ⟨lower, step⟩
      else some ⟨lower + 1, step⟩

def shortestFrom (b : Binary) : Nat → Nat → Scaled
  | 0, _ => ⟨b.numerator / b.denominator, 0⟩
  | fuel + 1, count =>
      match b.onGrid? count with
      | some d => d
      | none => b.shortestFrom fuel (count + 1)

/-- The shortest decimal that reads back; seventeen digits are always enough. -/
def shortest (b : Binary) : Scaled :=
  if b.mantissa = 0 then ⟨0, 0⟩ else (b.shortestFrom 17 1).strip 400

end Binary

/-- How decimals are written: positional notation is used while the exponent of the first digit
lies between the two bounds. -/
structure Style where
  lowest : Int
  highest : Int

/-- The text of `digits * 10 ^ exponent`. Positional text always has a point with a digit on
both sides; other text has one digit before the point and an exponent with its sign. -/
def Style.write (rule : Style) (d : Scaled) : String :=
  let ds := Nat.toDigits 10 d.digits
  let first : Int := d.exponent + ds.length - 1
  if rule.lowest ≤ first ∧ first ≤ rule.highest then
    if 0 ≤ d.exponent then
      String.ofList (ds ++ List.replicate d.exponent.toNat '0') ++ ".0"
    else if 0 ≤ first then
      String.ofList (ds.take (first.toNat + 1)) ++ "." ++ String.ofList (ds.drop (first.toNat + 1))
    else
      "0." ++ String.ofList (List.replicate (-first - 1).toNat '0' ++ ds)
  else
    let fraction := if ds.length ≤ 1 then "" else "." ++ String.ofList (ds.drop 1)
    let mark := if first < 0 then "e-" else "e+"
    String.ofList (ds.take 1) ++ fraction ++ mark ++ toString first.natAbs

end Decimal
end ButtonFlow
