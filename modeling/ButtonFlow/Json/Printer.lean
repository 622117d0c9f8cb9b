import ButtonFlow.Json.Value

/-!
# Writing values

The compact form has no blanks at all. The spread form puts every item and entry on a line of
its own, two spaces further in than the bracket that holds it, and one space behind the colon
of an entry; an empty array or object stays a pair of brackets.
-/

namespace ButtonFlow
namespace Json
namespace Value

def boolText (b : Bool) : List Char :=
  if b then ['t', 'r', 'u', 'e'] else ['f', 'a', 'l', 's', 'e']

mutual

def compact : Value → List Char
  | .null => ['n', 'u', 'l', 'l']
  | .bool b => boolText b
  | .number n => n.text.toList
  | .string s => Quoted.write s
  | .array items => '[' :: compactItems items ++ [']']
  | .object entries => '{' :: compactEntries entries ++ ['}']
termination_by structural v => v

def compactItems : List Value → List Char
  | [] => []
  | [item] => compact item
  | item :: next :: items => compact item ++ ',' :: compactItems (next :: items)
termination_by structural vs => vs

def compactEntries : List (String × Value) → List Char
  | [] => []
  | [(key, value)] => Quoted.write key ++ ':' :: compact value
  | (key, value) :: next :: entries =>
      Quoted.write key ++ ':' :: compact value ++ ',' :: compactEntries (next :: entries)
termination_by structural vs => vs

end

def newLine (indent : Nat) : List Char :=
  '\n' :: List.replicate (2 * indent) ' '

mutual

/-- The spread form of a value that stands `indent` levels in. -/
def spread (indent : Nat) : Value → List Char
  | .null => ['n', 'u', 'l', 'l']
  | .bool b => boolText b
  | .number n => n.text.toList
  | .string s => Quoted.write s
  | .array [] => ['[', ']']
  | .array (item :: items) =>
      '[' :: newLine (indent + 1) ++ spread (indent + 1) item
        ++ spreadItems (indent + 1) items ++ newLine indent ++ [']']
  | .object [] => ['{', '}']
  | .object ((key, value) :: entries) =>
      '{' :: newLine (indent + 1) ++ Quoted.write key ++ [':', ' '] ++ spread (indent + 1) value
        ++ spreadEntries (indent + 1) entries ++ newLine indent ++ ['}']
termination_by structural v => v

def spreadItems (indent : Nat) : List Value → List Char
  | [] => []
  | item :: items => ',' :: newLine indent ++ spread indent item ++ spreadItems indent items
termination_by structural vs => vs

def spreadEntries (indent : Nat) : List (String × Value) → List Char
  | [] => []
  | (key, value) :: entries =>
      ',' :: newLine indent ++ Quoted.write key ++ [':', ' '] ++ spread indent value
        ++ spreadEntries indent entries
termination_by structural vs => vs

end

def text (v : Value) : String :=
  String.ofList v.compact

def spreadText (v : Value) : String :=
  String.ofList (v.spread 0)

end Value

end Json
end ButtonFlow
