import ButtonFlow.Workflow.Action

/-!
# Workflows

A workflow is the label of a button and the actions that a click performs, in order. Edits are
functions from workflow to workflow. An edit that names an id or position that does not exist
changes nothing.
-/

namespace ButtonFlow

structure Workflow where
  label : String
  actions : List Action

namespace Workflow

def defaultLabel : String := "Click Me!"

def labelled (label : String) : Workflow := ⟨label, []⟩

def initial : Workflow := labelled defaultLabel

instance : Inhabited Workflow := ⟨initial⟩

/-! ## Looking at a workflow -/

def find? (w : Workflow) (id : String) : Option Action :=
  w.actions.find? fun action => action.id == id

def position? (w : Workflow) (id : String) : Option Nat :=
  w.actions.findIdx? fun action => action.id == id

def isEmpty (w : Workflow) : Bool :=
  w.actions.isEmpty

def ids (w : Workflow) : List String :=
  w.actions.map (·.id)

def sameActions : List Action → List Action → Bool
  | [], [] => true
  | a :: as, b :: bs => a.same b && sameActions as bs
  | _, _ => false

def same (v w : Workflow) : Bool :=
  v.label == w.label && sameActions v.actions w.actions

/-! ## Edits -/

def add (w : Workflow) (id : String) (kind : Kind) : Workflow :=
  { w with actions := w.actions ++ [Action.blank id kind] }

/-- Removes every action with an id. -/
def remove (w : Workflow) (id : String) : Workflow :=
  { w with actions := w.actions.filter fun action => action.id != id }

/-- Replaces the settings of the first action with an id. -/
def configure (w : Workflow) (id : String) (config : Config) : Workflow :=
  { w with actions := configureFirst w.actions }
where
  configureFirst : List Action → List Action
    | [] => []
    | action :: rest =>
        if action.id == id then { action with config := config } :: rest
        else action :: configureFirst rest

/-- Takes the action at index `source` out and puts it back at index `target`. Both must be
indices of the workflow. -/
def move (w : Workflow) (source target : Nat) : Workflow :=
  match w.actions[source]? with
  | some action =>
      if target < w.actions.length then
        { w with actions := (w.actions.eraseIdx source).insertIdx target action }
      else w
  | none => w

def relabel (w : Workflow) (label : String) : Workflow :=
  { w with label := label }

def clear (w : Workflow) : Workflow :=
  { w with actions := [] }

/-! ## The saved form -/

def fields :=
  Json.Fields.field (.withDefault "label" .string defaultLabel) <|
  .field (.withDefault "actions" Action.format.list []) .done

def format : Json.Format Workflow :=
  (fields.format "struct Workflow").convert
    (fun (label, actions, ()) => ⟨label, actions⟩)
    (fun w => (w.label, w.actions, ()))

end Workflow

end ButtonFlow
