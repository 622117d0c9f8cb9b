import ButtonFlow.Decimal.Shortest
import ButtonFlow.Decimal.Whole

/-!
# Numbers

A JSON number is kept as an integer when it is one between `-2 ^ 63` and `2 ^ 64 - 1`, and as a
float otherwise. The two are never equal, and each has one way of being written.
-/

namespace ButtonFlow
namespace Json

inductive Number where
  | integer (i : Int)
  | float (x : Float)

namespace Number

/-- The integers that stay integers. -/
def inRange (i : Int) : Bool := -(signedBound : Int) ≤ i && i < wordBound

/-- Integers are equal to integers only, and floats to floats only. -/
def same : Number → Number → Bool
  | .integer i, .integer j => i = j
  | .float x, .float y => x == y
  | _, _ => false

def nonzero : Number → Bool
  | .integer i => i != 0
  | .float x => x != 0

/-- Floats are written in positional notation from `1e-5` to below `1e16`. -/
def style : Decimal.Style := ⟨-5, 15⟩

def integerText (i : Int) : String :=
  String.ofList (if i < 0 then '-' :: Nat.toDigits 10 i.natAbs else Nat.toDigits 10 i.natAbs)

/-- The text of a number. A float that is no number has none, and `null` stands for it. -/
def text : Number → String
  | .integer i => integerText i
  | .float x =>
      match Decimal.Binary.ofFloat? x with
      | none => "null"
      | some b => (if b.negative then "-" else "") ++ style.write b.shortest

end Number

end Json
end ButtonFlow
