import ButtonFlow.Json.Variant

/-!
# Fragments

A fragment is a piece of output below the button. It is saved as an object with a field `type`
that says which sort of fragment it is; the tag may stand anywhere among the fields. It is also
read from an array that begins with the tag.

An object is read in two rounds. The first takes every entry as a plain value and looks for the
tag, the second reads the content of the fragment from the entries that were put aside.
-/

namespace ButtonFlow

open Json

inductive Fragment where
  | text (text : String)
  | image (url : String)
  | status (text : String)
  deriving DecidableEq

namespace Fragment

def display : Fragment → String
  | .text s => s
  | .image url => "[image] " ++ url
  | .status s => s

inductive Tag where
  | text
  | image
  | status

def Tag.all : List (String × Tag) :=
  [("text", .text), ("image", .image), ("status", .status)]

def Tag.title : Tag → String
  | .text => "struct variant Fragment::Text"
  | .image => "struct variant Fragment::Image"
  | .status => "struct variant Fragment::Status"

def Tag.fields : Tag → Fields (Option String × Unit) (String × Unit)
  | .text => .field (.required "text" .string) .done
  | .image => .field (.required "url" .string) .done
  | .status => .field (.required "text" .string) .done

def Tag.fragment : Tag → String × Unit → Fragment
  | .text, (s, ()) => .text s
  | .image, (s, ()) => .image s
  | .status, (s, ()) => .status s

/-- Reads the entries of an object in the first round: finds the tag, checks every other entry
as a plain value and puts it aside. -/
def findTag (room : Nat) :
    List (Tree × Tree) → Option Tag → Except Failure (Option Tag × List (Tree × Tree))
  | [], tag => .ok (tag, [])
  | (key, value) :: entries, tag => do
      let name ← key.key
      if name = "type" then
        match tag with
        | some _ => .error (.misfit (.duplicateField "type"))
        | none => findTag room entries (some (← Variant.readName Tag.all value))
      else
        let _ ← Value.read room value
        let (tag, aside) ← findTag room entries tag
        return (tag, (key, value) :: aside)

def readArray (room : Nat) (tag : Tag) (items : List Tree) : Except Failure Fragment := do
  let fields := tag.fields
  let wanted := tag.title ++ " with " ++ Fields.elements fields.count
  let (content, left) ← fields.readItems room wanted none 0 items
  match left with
  | [] => return tag.fragment content
  | _ :: _ =>
      .error (.misfit (.wrongLength items.length (Fields.elements fields.count ++ " in sequence")))

def read (room : Nat) (t : Tree) : Except Failure Fragment :=
  match t, room with
  | .object _ _, 0 => .error .malformed
  | .array _ _, 0 => .error .malformed
  | .object entries ending, room + 1 => do
      let (tag, aside) ← findTag room entries none
      Tree.closed ending
      match tag with
      | none => .error (.misfit (.missingField "type"))
      | some tag =>
          let fields := tag.fields
          let content ← fields.complete (← fields.fillAll room aside fields.vacant)
          return tag.fragment content
  | .array [] ending, _ + 1 => do
      Tree.closed ending
      .error (.misfit (.missingField "type"))
  | .array (first :: items) ending, room + 1 => do
      let tag ← Variant.readName Tag.all first
      let _ ← Value.readItems room items
      Tree.closed ending
      readArray room tag items
  | other, _ => .error (other.unfit "internally tagged enum Fragment")

def write : Fragment → Value
  | .text s => .object [("type", .string "text"), ("text", .string s)]
  | .image url => .object [("type", .string "image"), ("url", .string url)]
  | .status s => .object [("type", .string "status"), ("text", .string s)]

def format : Format Fragment := ⟨write, read⟩

end Fragment

end ButtonFlow
