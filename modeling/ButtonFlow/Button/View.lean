import ButtonFlow.Run.Result
import ButtonFlow.Workflow.Basic

/-!
# Views

What can be seen of a button: its label and presentation, the fragments of the latest click,
whether a click is being performed, and how many clicks were performed. That number has no bound
of its own here: what happens when it no longer fits into 64 bits is left out, and only the saved
form is bounded.
-/

namespace ButtonFlow

open Json

structure View where
  label : String
  presentation : Presentation
  fragments : List Fragment
  running : Bool
  runs : Nat
  deriving DecidableEq

namespace View

def initial (w : Workflow) : View :=
  ⟨w.label, .initial, [], false, 0⟩

def fields :=
  Fields.field (.required "label" .string) <|
  .field (.required "presentation" Presentation.format) <|
  .field (.required "fragments" Fragment.format.list) <|
  .field (.required "running" .bool) <|
  .field (.required "runs" (.natural "u64" wordBound)) .done

def format : Format View :=
  (fields.format "struct ButtonView").convert
    (fun (label, presentation, fragments, running, runs, ()) =>
      ⟨label, presentation, fragments, running, runs⟩)
    (fun v => (v.label, v.presentation, v.fragments, v.running, v.runs, ()))

end View

end ButtonFlow
