import ButtonFlow.Json.Number
import ButtonFlow.Text.Debug

/-!
# Why a JSON text is not read

A text can fail to be read in three ways: it ends too early, it is no JSON text, or it is one
but does not fit what the reader wants. Only the last kind of failure has a message of its own.
The causes are kept apart from their wording, which `Misfit.message` gives.
-/

namespace ButtonFlow
namespace Json

inductive Found where
  | null
  | boolean (b : Bool)
  | number (n : Number)
  | string (s : String)
  | sequence
  | map
  | unitVariant

def Found.describe : Found → String
  | .null => "null"
  | .boolean b => "boolean " ++ Text.ticked (if b then "true" else "false")
  | .number (.integer i) => "integer " ++ Text.ticked (Number.text (.integer i))
  | .number (.float x) => "floating point " ++ Text.ticked (Number.text (.float x))
  | .string s => "string " ++ Text.debug s
  | .sequence => "sequence"
  | .map => "map"
  | .unitVariant => "unit variant"

/-- How a well-formed text misses the wanted shape. -/
inductive Misfit where
  | wrongKind (found : Found) (wanted : String)
  | wrongValue (found : Found) (wanted : String)
  | wrongLength (items : Nat) (wanted : String)
  | missingField (name : String)
  | duplicateField (name : String)
  | unknownVariant (name : String) (known : List String)

/-- Names in a row: `a`, `a` or `b`, one of `a`, `b`, `c`. -/
def alternatives : List String → String
  | [] => "there are no variants"
  | [a] => "expected " ++ Text.ticked a
  | [a, b] => "expected " ++ Text.ticked a ++ " or " ++ Text.ticked b
  | names => "expected one of " ++ String.intercalate ", " (names.map Text.ticked)

def Misfit.message : Misfit → String
  | .wrongKind found wanted => "invalid type: " ++ found.describe ++ ", expected " ++ wanted
  | .wrongValue found wanted => "invalid value: " ++ found.describe ++ ", expected " ++ wanted
  | .wrongLength items wanted => "invalid length " ++ toString items ++ ", expected " ++ wanted
  | .missingField name => "missing field " ++ Text.ticked name
  | .duplicateField name => "duplicate field " ++ Text.ticked name
  | .unknownVariant name known =>
      "unknown variant " ++ Text.ticked name ++ ", " ++ alternatives known

inductive Failure where
  | cutShort
  /-- The text is no JSON text, or holds something that no value has. -/
  | malformed
  | misfit (m : Misfit)

end Json
end ButtonFlow
