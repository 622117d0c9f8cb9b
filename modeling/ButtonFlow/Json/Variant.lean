import ButtonFlow.Json.Record

/-!
# Variants

A value of one of several named variants. A variant without content is written as its name; a
variant with content is written as an object with one entry, whose key is the name. A variant
without content may be read from such an object too, if `null` stands in it.

An object whose first key is no text is malformed, whatever else is wrong with that key.
-/

namespace ButtonFlow
namespace Json
namespace Variant

variable {α : Type}

def select (known : List (String × α)) (name : String) : Except Failure α :=
  match known.find? fun variant => variant.1 == name with
  | some (_, a) => .ok a
  | none => .error (.misfit (.unknownVariant name (known.map (·.1))))

def readName (known : List (String × α)) (t : Tree) : Except Failure α :=
  match t with
  | .quoted q => do select known (← q.read)
  | other => .error (other.unfit "variant identifier")

/-- Reads a variant: `bare` gives its value if the name stands alone, and `filled` reads the
content from an object with one entry. -/
def read {β : Type} (known : List (String × α)) (bare : α → Except Failure β)
    (filled : α → Nat → Tree → Except Failure β) (room : Nat) (t : Tree) : Except Failure β :=
  match t, room with
  | .quoted q, _ => do
      let variant ← select known (← q.read)
      bare variant
  | .missing f, _ => .error f
  | .object _ _, 0 => .error .malformed
  | .object [] none, _ + 1 => .error .malformed
  | .object [] (some f), _ + 1 => .error f
  | .object ((.quoted q, value) :: entries) ending, room + 1 => do
      let variant ← select known (← q.read)
      let b ← filled variant room value
      match entries with
      | [] => Tree.closed ending
      | _ :: _ => .error .malformed
      return b
  | _, _ => .error .malformed

def readUnit (t : Tree) : Except Failure Unit :=
  match t with
  | .null => .ok ()
  | other => .error (other.unfit "unit")

def plain (name : α → String) (all : List α) : Format α where
  write a := .string (name a)
  read :=
    read (all.map fun a => (name a, a)) .ok fun a _ t => do
      readUnit t
      return a

end Variant
end Json
end ButtonFlow
