import ButtonFlow.Json.Format

/-!
# Records

A record has named fields in a fixed order. It is written as an object with its fields in that
order. It is read from an object, where the fields may stand in any order among others that are
passed over, or from an array of the fields in their order. A field may be left out where its
absence has a meaning.

The fields of a record are described once, by `Fields`, and that description is used for
writing and for both ways of reading. While an object is read, each field has a slot, which is
vacant until the field is met.
-/

namespace ButtonFlow
namespace Json

structure Field (α : Type) where
  name : String
  format : Format α
  /-- What it means if an object does not have the field. -/
  ifAbsent : Option α
  /-- What it means if an array ends before the field. -/
  ifShort : Option α

namespace Field

variable {α : Type}

def required (name : String) (format : Format α) : Field α :=
  ⟨name, format, none, none⟩

def withDefault (name : String) (format : Format α) (value : α) : Field α :=
  ⟨name, format, some value, some value⟩

def optional (name : String) (format : Format α) : Field (Option α) :=
  ⟨name, format.optional, some none, none⟩

end Field

/-- The fields of a record: the type of their slots, and the type of their values. -/
inductive Fields : Type → Type → Type 1 where
  | done : Fields Unit Unit
  | field {α σ ρ : Type} (first : Field α) (rest : Fields σ ρ) : Fields (Option α × σ) (α × ρ)

namespace Fields

variable {σ ρ : Type}

def count {σ ρ : Type} : Fields σ ρ → Nat
  | .done => 0
  | .field _ rest => rest.count + 1

def vacant {σ ρ : Type} : Fields σ ρ → σ
  | .done => ()
  | .field _ rest => (none, rest.vacant)

def write {σ ρ : Type} : Fields σ ρ → ρ → List (String × Value)
  | .done, () => []
  | .field first rest, (a, others) => (first.name, first.format.write a) :: rest.write others

/-- Reads an entry into the slot of its field, which must be vacant; `none` if the key names no
field. -/
def fill {σ ρ : Type} (room : Nat) (key : String) (value : Tree) :
    Fields σ ρ → σ → Option (Except Failure σ)
  | .done, () => none
  | .field first rest, (slot, slots) =>
      if first.name = key then
        match slot with
        | some _ => some (.error (.misfit (.duplicateField key)))
        | none => some ((first.format.read room value).map fun a => (some a, slots))
      else (rest.fill room key value slots).map (·.map (slot, ·))

def fillAll {σ ρ : Type} (room : Nat) (fields : Fields σ ρ) :
    List (Tree × Tree) → σ → Except Failure σ
  | [], slots => .ok slots
  | (key, value) :: entries, slots => do
      let key ← key.key
      match fields.fill room key value slots with
      | some filled => fields.fillAll room entries (← filled)
      | none => do
          value.skip
          fields.fillAll room entries slots

/-- The record of the slots; a slot that is still vacant gets the meaning of its absence. -/
def complete {σ ρ : Type} : Fields σ ρ → σ → Except Failure ρ
  | .done, () => .ok ()
  | .field first rest, (slot, slots) =>
      match slot.or first.ifAbsent with
      | none => .error (.misfit (.missingField first.name))
      | some a => (rest.complete slots).map (a, ·)

/-- Reads the fields from the items of an array, of which `met` were read before. `wanted` says
what should have been there, if the array is too short. Items behind the last field are left
over. -/
def readItems {σ ρ : Type} (room : Nat) (wanted : String) (ending : Option Failure) :
    Nat → Fields σ ρ → List Tree → Except Failure (ρ × List Tree)
  | _, .done, items => .ok ((), items)
  | met, .field first rest, [] => do
      Tree.closed ending
      match first.ifShort with
      | none => .error (.misfit (.wrongLength met wanted))
      | some a => do
          let (others, items) ← rest.readItems room wanted ending (met + 1) []
          return ((a, others), items)
  | met, .field first rest, item :: items => do
      let a ← first.format.read room item
      let (others, items) ← rest.readItems room wanted ending (met + 1) items
      return ((a, others), items)

def elements (n : Nat) : String :=
  toString n ++ (if n = 1 then " element" else " elements")

def read {σ ρ : Type} (title : String) (fields : Fields σ ρ) (room : Nat) (t : Tree) :
    Except Failure ρ :=
  match t, room with
  | .object _ _, 0 => .error .malformed
  | .array _ _, 0 => .error .malformed
  | .object entries ending, room + 1 => do
      let slots ← fields.fillAll room entries fields.vacant
      Tree.closed ending
      fields.complete slots
  | .array items ending, room + 1 => do
      let wanted := title ++ " with " ++ elements fields.count
      let (record, left) ← fields.readItems room wanted ending 0 items
      match left with
      | [] => Tree.closed ending
      | _ :: _ => .error .malformed
      return record
  | other, _ => .error (other.unfit title)

def format {σ ρ : Type} (title : String) (fields : Fields σ ρ) : Format ρ where
  write record := .object (fields.write record)
  read := fields.read title

end Fields

end Json
end ButtonFlow
