import ButtonFlow.Store.Slot

/-!
# Previews

The lines that show a workflow, the catalogue of kinds, and the values of a store.
-/

namespace ButtonFlow

def Config.preview (config : Config) : List String :=
  ("       " ++ toString config.size ++ " setting(s)") ::
    config.entries.map fun (key, value) => "       " ++ key ++ ": " ++ value.text

def Action.preview (index : Nat) (action : Action) : String :=
  "  " ++ toString (index + 1) ++ ". " ++ action.describe ++ "  (" ++ action.id ++ ")"

def Workflow.preview (settings : Bool) (w : Workflow) : List String :=
  ("[ " ++ w.label ++ " ]") ::
    if w.isEmpty then ["Your workflow is empty. Add some actions to get started!"]
    else
      "Workflow Sequence:" ::
        w.actions.zipIdx.flatMap fun (action, index) =>
          action.preview index :: if settings then action.config.preview else []

def Kind.preview (kind : Kind) : List String :=
  (kind.tag ++ " - " ++ kind.title) ::
    if kind.fields.isEmpty then ["    (no settings)"]
    else
      kind.fields.map fun field =>
        "    " ++ field.key ++ ": " ++ field.label ++ " (e.g. " ++ field.placeholder ++ ")"

def storedPreview (entries : Dict String) : List String :=
  match entries.filter fun (key, _) => key != Slot.usual with
  | [] => []
  | shown => "Stored values:" :: shown.map fun (key, value) => "  " ++ key ++ " = " ++ value

end ButtonFlow
