import ButtonFlow.Decimal.Whole
import ButtonFlow.Run.Fragment
import ButtonFlow.Run.Presentation

/-!
# Results of a run

What a run leaves behind: the fragments in the order in which they appeared, the presentation
after the last step, notes about steps that did not do what they should, and how the run ended.
-/

namespace ButtonFlow

open Json

inductive Termination where
  | completed
  | reloaded
  | windowClosed
  deriving DecidableEq

namespace Termination

def name : Termination → String
  | .completed => "completed"
  | .reloaded => "reloaded"
  | .windowClosed => "window_closed"

def format : Format Termination :=
  Variant.plain name [.completed, .reloaded, .windowClosed]

end Termination

structure Diagnostic where
  index : Nat
  actionId : String
  message : String
  deriving DecidableEq

namespace Diagnostic

def fields :=
  Fields.field (.required "index" (.natural "usize" wordBound)) <|
  .field (.required "action_id" .string) <|
  .field (.required "message" .string) .done

def format : Format Diagnostic :=
  (fields.format "struct Diagnostic").convert
    (fun (index, actionId, message, ()) => ⟨index, actionId, message⟩)
    (fun d => (d.index, d.actionId, d.message, ()))

end Diagnostic

structure RunResult where
  executionId : String
  fragments : List Fragment
  presentation : Presentation
  diagnostics : List Diagnostic
  termination : Termination
  deriving DecidableEq

namespace RunResult

def fields :=
  Fields.field (.required "execution_id" .string) <|
  .field (.required "fragments" Fragment.format.list) <|
  .field (.required "presentation" Presentation.format) <|
  .field (.required "diagnostics" Diagnostic.format.list) <|
  .field (.required "termination" Termination.format) .done

def format : Format RunResult :=
  (fields.format "struct ExecutionResult").convert
    (fun (executionId, fragments, presentation, diagnostics, termination, ()) =>
      ⟨executionId, fragments, presentation, diagnostics, termination⟩)
    (fun r => (r.executionId, r.fragments, r.presentation, r.diagnostics, r.termination, ()))

end RunResult

end ButtonFlow
