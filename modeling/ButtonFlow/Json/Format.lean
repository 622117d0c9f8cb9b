import ButtonFlow.Json.Printer

/-!
# Formats

A format says how values of a type stand in JSON: which value is written for each, and how a
tree is read back, given the number of arrays and objects that may still be opened. Reading may
accept more than what is written.
-/

namespace ButtonFlow
namespace Json

structure Format (α : Type) where
  write : α → Value
  read : Nat → Tree → Except Failure α

namespace Format

variable {α β : Type}

def string : Format String where
  write := .string
  read _ t :=
    match t with
    | .quoted q => q.read
    | other => .error (other.unfit "a string")

def bool : Format Bool where
  write := .bool
  read _ t :=
    match t with
    | .bool b => .ok b
    | other => .error (other.unfit "a boolean")

def natural (name : String) (bound : Nat) : Format Nat where
  write n := .number (.integer n)
  read _ t :=
    match t with
    | .numeral n => do
        match ← n.read with
        | .integer i =>
            if 0 ≤ i ∧ i < bound then .ok i.toNat
            else .error (.misfit (.wrongValue (.number (.integer i)) name))
        | x => .error (.misfit (.wrongKind (.number x) name))
    | other => .error (other.unfit name)

def readAll (read : Tree → Except Failure α) : List Tree → Except Failure (List α)
  | [] => .ok []
  | item :: items => do
      let a ← read item
      let as ← readAll read items
      return a :: as

def list (item : Format α) : Format (List α) where
  write as := .array (as.map item.write)
  read room t :=
    match t, room with
    | .array _ _, 0 => .error .malformed
    | .array items ending, room + 1 => do
        let as ← readAll (item.read room) items
        Tree.closed ending
        return as
    | other, _ => .error (other.unfit "a sequence")

/-- Values that may be absent, for which `null` is written. -/
def optional (some : Format α) : Format (Option α) where
  write
    | none => .null
    | .some a => some.write a
  read room t :=
    match t with
    | .null => .ok none
    | other => (some.read room other).map .some

def dict : Format (Dict Value) where
  write := .object
  read := Value.readDict "a map"

def convert (ofα : α → β) (toα : β → α) (format : Format α) : Format β where
  write b := format.write (toα b)
  read room t := (format.read room t).map ofα

def print (format : Format α) (a : α) : String :=
  (format.write a).text

/-- Reads a text that holds one value and nothing else. -/
def parse (format : Format α) (text : String) : Except Failure α :=
  (Document.ofText text).read format.read

end Format

end Json
end ButtonFlow
