import ButtonFlow.Json.Failure

/-!
# Numerals

A numeral is a number as it is spelled: an optional minus sign, whole digits without a leading
zero, perhaps a fraction, perhaps an exponent. `Numeral.scan` cuts one off the front of a text,
and `Numeral.read` gives its value.

A whole number in range is read exactly. Every other numeral is read as a float from a
significand and a power of ten. The significand takes digits for as long as it stays below `2 ^
64`; whole digits beyond that count as powers of ten, and digits of the fraction beyond that
are dropped. The powers of ten are then multiplied in, or divided out, in float arithmetic, at
most `308` at a time.
-/

namespace ButtonFlow
namespace Json

/-- A spelled number. Digits are kept as characters. -/
structure Numeral where
  negative : Bool
  whole : List Char
  fraction : Option (List Char)
  /-- Whether the exponent is negative, and its digits. -/
  exponent : Option (Bool × List Char)

namespace Numeral

/-! ## Reading the value -/

def digitValue (c : Char) : Nat := c.toNat - '0'.toNat

/-- Appends digits to a significand for as long as it stays below `2 ^ 64`, and gives back the
digits that are left over. -/
def absorb (significand : Nat) : List Char → Nat × List Char
  | [] => (significand, [])
  | c :: cs =>
      if significand * 10 + digitValue c < wordBound then
        absorb (significand * 10 + digitValue c) cs
      else (significand, c :: cs)

def powerOfTen (k : Nat) : Float := Float.ofScientific 1 false k

/-- Divides by `10 ^ 308` until at most `308` powers of ten are left to divide by. The first
argument bounds the number of divisions. -/
def lower : Nat → Float → Nat → Float
  | 0, x, k => x / powerOfTen k
  | fuel + 1, x, k =>
      if k ≤ 308 then x / powerOfTen k
      else if x == 0 then x
      else lower fuel (x / powerOfTen 308) (k - 308)

def scale (significand : Nat) (power : Int) : Option Float :=
  let x := Float.ofNat significand
  if power < 0 then some (lower (power.natAbs / 308 + 1) x power.natAbs)
  else if power ≤ 308 then
    let scaled := x * powerOfTen power.toNat
    if scaled.isInf then none else some scaled
  else if significand = 0 then some x
  else none

def readFloat (n : Numeral) : Except Failure Number :=
  let (significand, dropped) := absorb 0 n.whole
  let digits := n.fraction.getD []
  let (significand, unread) := absorb significand digits
  let shift : Int := dropped.length - (digits.length - unread.length : Nat)
  let exponent : Int :=
    match n.exponent with
    | none => 0
    | some (negative, ds) =>
      if negative then -Nat.ofDigitChars 10 ds 0 else Nat.ofDigitChars 10 ds 0
  match scale significand (shift + exponent) with
  | none => .error .malformed
  | some x => .ok (.float (if n.negative then -x else x))

/-- The value of a numeral. Minus zero is a float, because no integer is it. -/
def read (n : Numeral) : Except Failure Number :=
  match n.fraction, n.exponent with
  | none, none =>
      let magnitude : Int := Nat.ofDigitChars 10 n.whole 0
      if n.negative then
        if magnitude = 0 || !Number.inRange (-magnitude) then n.readFloat
        else .ok (.integer (-magnitude))
      else if Number.inRange magnitude then .ok (.integer magnitude)
      else n.readFloat
  | _, _ => n.readFloat

/-! ## Cutting a numeral off a text -/

def digits (cs : List Char) : List Char × List Char :=
  (cs.takeWhile Char.isDigit, cs.dropWhile Char.isDigit)

/-- Where a digit is wanted and none stands: the text has ended, or it is malformed. -/
def lackingDigit : List Char → Failure
  | [] => .cutShort
  | _ :: _ => .malformed

def scanWhole : List Char → Except Failure (List Char × List Char)
  | [] => .error .cutShort
  | c :: cs =>
      if c = '0' then
        if (digits cs).1.isEmpty then .ok (['0'], cs) else .error .malformed
      else if c.isDigit then .ok (c :: (digits cs).1, (digits cs).2)
      else .error .malformed

def scanFraction : List Char → Except Failure (Option (List Char) × List Char)
  | '.' :: cs =>
      if (digits cs).1.isEmpty then .error (lackingDigit cs)
      else .ok (some (digits cs).1, (digits cs).2)
  | cs => .ok (none, cs)

def scanSign : List Char → Bool × List Char
  | '+' :: cs => (false, cs)
  | '-' :: cs => (true, cs)
  | cs => (false, cs)

def scanExponent : List Char → Except Failure (Option (Bool × List Char) × List Char)
  | c :: cs =>
      if c = 'e' || c = 'E' then
        let (negative, rest) := scanSign cs
        if (digits rest).1.isEmpty then .error (lackingDigit rest)
        else .ok (some (negative, (digits rest).1), (digits rest).2)
      else .ok (none, c :: cs)
  | [] => .ok (none, [])

/-- Cuts a numeral off the front of a text that begins with a minus sign or a digit. -/
def scan (cs : List Char) : Except Failure (Numeral × List Char) :=
  let (negative, cs) :=
    match cs with
    | '-' :: rest => (true, rest)
    | _ => (false, cs)
  match scanWhole cs with
  | .error f => .error f
  | .ok (whole, cs) =>
      match scanFraction cs with
      | .error f => .error f
      | .ok (fraction, cs) =>
          match scanExponent cs with
          | .error f => .error f
          | .ok (exponent, cs) => .ok (⟨negative, whole, fraction, exponent⟩, cs)

end Numeral

end Json
end ButtonFlow
