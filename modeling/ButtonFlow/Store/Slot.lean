import ButtonFlow.Store.Basic
import ButtonFlow.Workflow.Basic

/-!
# The saved workflow

A workflow is saved as its compact text under one key of a store, the slot.
-/

namespace ButtonFlow

open Json

inductive LoadError where
  | io (e : IoError)
  | unreadable (f : Failure)

def LoadError.message : LoadError → String
  | .io e => "io error: " ++ e.message
  | .unreadable .cutShort => "the document is cut short"
  | .unreadable .malformed => "the document is malformed"
  | .unreadable (.misfit m) => m.message

namespace Slot

def usual : String := "buttonWorkflow"

def save (slot : String) (s : Store) (w : Workflow) : Except IoError Unit × Store :=
  s.set slot (Workflow.format.print w)

/-- The workflow in a slot; `none` if nothing is saved there. -/
def load? (slot : String) (s : Store) : Except LoadError (Option Workflow) :=
  match s.get slot with
  | .error e => .error (.io e)
  | .ok none => .ok none
  | .ok (some text) =>
      match Workflow.format.parse text with
      | .ok w => .ok (some w)
      | .error f => .error (.unreadable f)

/-- The workflow in a slot, or the initial one if there is none that can be read. -/
def load (slot : String) (s : Store) : Workflow :=
  match load? slot s with
  | .ok (some w) => w
  | _ => .initial

end Slot

end ButtonFlow
