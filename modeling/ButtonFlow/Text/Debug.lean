import ButtonFlow.Text.CharacterRanges

/-!
# Text inside messages

Messages quote text in two ways: a name stands between backticks as it is, and a value stands
between double quotes with everything escaped that would not show on its own.
-/

namespace ButtonFlow
namespace Text

def ticked (s : String) : String :=
  "`" ++ s ++ "`"

def hexadecimal (n : Nat) : String :=
  String.ofList (Nat.toDigits 16 n)

def shown (c : Char) : String :=
  if c = '"' then "\\\""
  else if c = '\\' then "\\\\"
  else if c = '\t' then "\\t"
  else if c = '\r' then "\\r"
  else if c = '\n' then "\\n"
  else if c = '\x00' then "\\0"
  else if graphemeExtenders.holds c.toNat || unprintable.holds c.toNat then
    "\\u\x7b" ++ hexadecimal c.toNat ++ "\x7d"
  else c.toString

def debug (s : String) : String :=
  "\"" ++ String.join (s.toList.map shown) ++ "\""

end Text
end ButtonFlow
