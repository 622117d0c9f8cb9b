/-!
# Whole numbers

A whole number is read from decimal digits, before which a sign may stand. The digits are taken
from the left, so that the first thing that is wrong decides what is reported: a character that
is no digit, or a number that has grown too large.
-/

namespace ButtonFlow

/-- The bound of positions and of large counts. -/
def wordBound : Nat := Nat.pow 2 64

def signedBound : Nat := Nat.pow 2 63

def countBound : Nat := Nat.pow 2 32

namespace Decimal

inductive WholeError where
  | empty
  | invalidDigit
  | tooLarge
  | tooSmall
  deriving DecidableEq

def WholeError.message : WholeError → String
  | .empty => "cannot parse integer from empty string"
  | .invalidDigit => "invalid digit found in string"
  | .tooLarge => "number too large to fit in target type"
  | .tooSmall => "number too small to fit in target type"

/-- Appends digits to the number `n`, which must stay below `bound`; otherwise the error is
`overflow`. -/
def appendDigits (bound : Nat) (overflow : WholeError) (n : Nat) :
    List Char → Except WholeError Nat
  | [] => .ok n
  | c :: cs =>
      if c.isDigit then
        let n := 10 * n + (c.toNat - '0'.toNat)
        if n < bound then appendDigits bound overflow n cs else .error overflow
      else .error .invalidDigit

def readNatural (bound : Nat) (text : String) : Except WholeError Nat :=
  match text.toList with
  | [] => .error .empty
  | '+' :: c :: cs => appendDigits bound .tooLarge 0 (c :: cs)
  | cs => appendDigits bound .tooLarge 0 cs

/-- Reads a number from `-bound` on and below `bound`, with a sign if wanted. -/
def readInteger (bound : Nat) (text : String) : Except WholeError Int :=
  match text.toList with
  | '-' :: c :: cs => (appendDigits (bound + 1) .tooSmall 0 (c :: cs)).map (fun n => -(n : Int))
  | _ => (readNatural bound text).map Int.ofNat

end Decimal
end ButtonFlow
