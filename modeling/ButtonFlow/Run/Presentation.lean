import ButtonFlow.Json.Record
import ButtonFlow.Decimal.Fixed
import ButtonFlow.Decimal.Whole

/-!
# Presentation of the button

How the button looks and whether it still reacts. The presentation goes from step to step and from
click to click.

The size has no bound of its own here. A count that does not fit into 32 bits would overflow, and
what happens then is left out; only the saved form is bounded.
-/

namespace ButtonFlow

structure Presentation where
  sizeSteps : Nat
  color : Option String
  disabled : Bool
  deriving DecidableEq

namespace Presentation

def initial : Presentation := ⟨0, none, false⟩

/-- The size relative to a fresh button: each step adds a fifth. -/
def scale (p : Presentation) : Float :=
  1.0 + 0.2 * Float.ofNat p.sizeSteps

def scaleText (p : Presentation) : String :=
  match Decimal.Binary.ofFloat? p.scale with
  | some b => b.fixed 1
  | none => ""

def colorText (p : Presentation) : String :=
  p.color.getD "default"

def fields :=
  Json.Fields.field (.required "size_steps" (.natural "u32" countBound)) <|
  .field (.optional "color" .string) <|
  .field (.required "disabled" .bool) .done

def format : Json.Format Presentation :=
  (fields.format "struct Presentation").convert
    (fun (sizeSteps, color, disabled, ()) => ⟨sizeSteps, color, disabled⟩)
    (fun p => (p.sizeSteps, p.color, p.disabled, ()))

end Presentation

/-- A color as it is written for a button: six hexadecimal digits for 24 bits. -/
def colorCode (rgb : Nat) : String :=
  let digits := Nat.toDigits 16 rgb
  String.ofList ('#' :: List.replicate (6 - digits.length) '0' ++ digits)

end ButtonFlow
