import ButtonFlow.Run.Result

/-!
# Events of a run

A run tells what it does while it does it. Every event carries the id of its run, and the
events of a step carry the position of the step.
-/

namespace ButtonFlow

open Json

inductive Event where
  | runStarted (executionId : String) (actions : Nat)
  | stepStarted (executionId : String) (index : Nat) (actionId kind : String)
  | fragmentAdded (executionId : String) (index : Nat) (fragment : Fragment)
  | presentationChanged (executionId : String) (index : Nat) (presentation : Presentation)
  | stepSkipped (executionId : String) (index : Nat) (actionId reason : String)
  | runCompleted (executionId : String) (termination : Termination)
  | runCancelled (executionId : String)
  deriving DecidableEq

namespace Event

def executionId : Event → String
  | .runStarted id _ | .stepStarted id .. | .fragmentAdded id .. | .presentationChanged id ..
  | .stepSkipped id .. | .runCompleted id _ | .runCancelled id => id

def index? : Event → Option Nat
  | .stepStarted _ i .. | .fragmentAdded _ i _ | .presentationChanged _ i _
  | .stepSkipped _ i .. => some i
  | .runStarted .. | .runCompleted .. | .runCancelled _ => none

inductive Tag where
  | runStarted
  | stepStarted
  | fragmentAdded
  | presentationChanged
  | stepSkipped
  | runCompleted
  | runCancelled
  deriving DecidableEq

def tag : Event → Tag
  | .runStarted .. => .runStarted
  | .stepStarted .. => .stepStarted
  | .fragmentAdded .. => .fragmentAdded
  | .presentationChanged .. => .presentationChanged
  | .stepSkipped .. => .stepSkipped
  | .runCompleted .. => .runCompleted
  | .runCancelled _ => .runCancelled

def Tag.name : Tag → String
  | .runStarted => "RunStarted"
  | .stepStarted => "StepStarted"
  | .fragmentAdded => "FragmentAdded"
  | .presentationChanged => "PresentationChanged"
  | .stepSkipped => "StepSkipped"
  | .runCompleted => "RunCompleted"
  | .runCancelled => "RunCancelled"

def Tag.all : List Tag := [
  .runStarted, .stepStarted, .fragmentAdded, .presentationChanged, .stepSkipped,
  .runCompleted, .runCancelled]

/-! ## The saved form -/

def idField : Json.Field String := .required "execution_id" .string

def indexField : Json.Field Nat := .required "index" (.natural "usize" wordBound)

def runStartedFields :=
  Fields.field idField <|
  .field (.required "actions" (.natural "usize" wordBound)) .done

def stepStartedFields :=
  Fields.field idField <| .field indexField <|
  .field (.required "action_id" .string) <| .field (.required "kind" .string) .done

def fragmentAddedFields :=
  Fields.field idField <| .field indexField <|
  .field (.required "fragment" Fragment.format) .done

def presentationChangedFields :=
  Fields.field idField <| .field indexField <|
  .field (.required "presentation" Presentation.format) .done

def stepSkippedFields :=
  Fields.field idField <| .field indexField <|
  .field (.required "action_id" .string) <| .field (.required "reason" .string) .done

def runCompletedFields :=
  Fields.field idField <|
  .field (.required "termination" Termination.format) .done

def runCancelledFields :=
  Fields.field idField .done

def Tag.title (tag : Tag) : String :=
  "struct variant ExecutionEvent::" ++ tag.name

def readContent (tag : Tag) (room : Nat) (t : Tree) : Except Failure Event :=
  match tag with
  | .runStarted => do
      let (id, actions, ()) ← runStartedFields.read tag.title room t
      return .runStarted id actions
  | .stepStarted => do
      let (id, index, actionId, kind, ()) ← stepStartedFields.read tag.title room t
      return .stepStarted id index actionId kind
  | .fragmentAdded => do
      let (id, index, fragment, ()) ← fragmentAddedFields.read tag.title room t
      return .fragmentAdded id index fragment
  | .presentationChanged => do
      let (id, index, presentation, ()) ← presentationChangedFields.read tag.title room t
      return .presentationChanged id index presentation
  | .stepSkipped => do
      let (id, index, actionId, reason, ()) ← stepSkippedFields.read tag.title room t
      return .stepSkipped id index actionId reason
  | .runCompleted => do
      let (id, termination, ()) ← runCompletedFields.read tag.title room t
      return .runCompleted id termination
  | .runCancelled => do
      let (id, ()) ← runCancelledFields.read tag.title room t
      return .runCancelled id

def writeContent : Event → List (String × Value)
  | .runStarted id actions => runStartedFields.write (id, actions, ())
  | .stepStarted id index actionId kind => stepStartedFields.write (id, index, actionId, kind, ())
  | .fragmentAdded id index fragment => fragmentAddedFields.write (id, index, fragment, ())
  | .presentationChanged id index presentation =>
      presentationChangedFields.write (id, index, presentation, ())
  | .stepSkipped id index actionId reason =>
      stepSkippedFields.write (id, index, actionId, reason, ())
  | .runCompleted id termination => runCompletedFields.write (id, termination, ())
  | .runCancelled id => runCancelledFields.write (id, ())

def format : Format Event where
  write event := .object [(event.tag.name, .object event.writeContent)]
  read :=
    Variant.read (Tag.all.map fun tag => (tag.name, tag))
      (fun _ => .error (.misfit (.wrongKind .unitVariant "struct variant")))
      readContent

end Event

end ButtonFlow
