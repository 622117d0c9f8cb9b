import ButtonFlow.Dict
import ButtonFlow.Json.Tree

/-!
# Values

A JSON value as such, when no particular shape is wanted. The entries of an object that was
read are in ascending order of their keys, each key once; the entries of an object that is
about to be written may be in any order.

An array or object may only be opened while there is room for it. The room is the number of
arrays and objects that may still be opened inside each other.
-/

namespace ButtonFlow
namespace Json

inductive Value where
  | null
  | bool (b : Bool)
  | number (n : Number)
  | string (s : String)
  | array (items : List Value)
  | object (entries : List (String × Value))

namespace Value

mutual

def same : Value → Value → Bool
  | .null, .null => true
  | .bool a, .bool b => a == b
  | .number a, .number b => a.same b
  | .string a, .string b => a == b
  | .array as, .array bs => sameItems as bs
  | .object as, .object bs => sameEntries as bs
  | _, _ => false
termination_by structural v => v

def sameItems : List Value → List Value → Bool
  | [], [] => true
  | a :: as, b :: bs => same a b && sameItems as bs
  | _, _ => false
termination_by structural vs => vs

def sameEntries : List (String × Value) → List (String × Value) → Bool
  | [], [] => true
  | (k, a) :: as, (l, b) :: bs => k == l && same a b && sameEntries as bs
  | _, _ => false
termination_by structural vs => vs

end

mutual

/-- How many arrays and objects are open at once in the middle of a value. -/
def depth : Value → Nat
  | .array items => depthOfItems items + 1
  | .object entries => depthOfEntries entries + 1
  | _ => 0
termination_by structural v => v

def depthOfItems : List Value → Nat
  | [] => 0
  | item :: items => max (depth item) (depthOfItems items)
termination_by structural vs => vs

def depthOfEntries : List (String × Value) → Nat
  | [] => 0
  | (_, value) :: entries => max (depth value) (depthOfEntries entries)
termination_by structural vs => vs

end

mutual

def read (room : Nat) : Tree → Except Failure Value
  | .missing f => .error f
  | .damaged reading _ => .error reading
  | .null => .ok .null
  | .bool b => .ok (.bool b)
  | .numeral n => n.read.map .number
  | .quoted q => q.read.map .string
  | .array items ending =>
      match room with
      | 0 => .error .malformed
      | room + 1 => do
          let values ← readItems room items
          Tree.closed ending
          return .array values
  | .object entries ending =>
      match room with
      | 0 => .error .malformed
      | room + 1 => do
          let pairs ← readEntries room entries
          Tree.closed ending
          return .object (Dict.ofList pairs)
termination_by structural t => t

def readItems (room : Nat) : List Tree → Except Failure (List Value)
  | [] => .ok []
  | item :: items => do
      let value ← read room item
      let values ← readItems room items
      return value :: values
termination_by structural ts => ts

def readEntries (room : Nat) : List (Tree × Tree) → Except Failure (List (String × Value))
  | [] => .ok []
  | (key, value) :: entries => do
      let key ← key.key
      let value ← read room value
      let pairs ← readEntries room entries
      return (key, value) :: pairs
termination_by structural ts => ts

end

def readDict (wanted : String) (room : Nat) (t : Tree) : Except Failure (Dict Value) :=
  match t with
  | .object entries ending =>
      match room with
      | 0 => .error .malformed
      | room + 1 => do
          let pairs ← readEntries room entries
          Tree.closed ending
          return Dict.ofList pairs
  | other => .error (other.unfit wanted)

end Value

end Json
end ButtonFlow
