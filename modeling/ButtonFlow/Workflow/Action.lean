import ButtonFlow.Json.Record
import ButtonFlow.Workflow.Config
import ButtonFlow.Workflow.Kind

/-!
# Actions

One action of a workflow: an id, a kind and settings. `Action.describe` is the line that a
preview shows for it.
-/

namespace ButtonFlow

structure Action where
  id : String
  kind : Kind
  config : Config

namespace Action

def blank (id : String) (kind : Kind) : Action :=
  ⟨id, kind, Config.empty⟩

def hexPair (b : UInt8) : String :=
  String.ofList [Nat.digitChar (b.toNat / 16), Nat.digitChar (b.toNat % 16)]

def idOf (random : List UInt8) : String :=
  "action-" ++ String.join (random.map hexPair)

def same (a b : Action) : Bool :=
  a.id == b.id && a.kind == b.kind && a.config.same b.config

def describe (action : Action) : String :=
  let config := action.config
  match action.kind with
  | .alert => "Show alert: \"" ++ config.textOr "message" "Alert!" ++ "\""
  | .showText => "Display text: \"" ++ config.textOr "text" "Text content" ++ "\""
  | .showImage =>
      match config.text? "url" with
      | some url => "Show image from " ++ url
      | none => "Show image"
  | .refreshPage => "Refresh the page"
  | .setLocalStorage =>
      "Save to localStorage: " ++ config.textOr "key" "key" ++ " = "
        ++ config.textOr "value" "value"
  | .getLocalStorage => "Get from localStorage: " ++ config.textOr "key" "key"
  | .increaseButtonSize => "Make button larger"
  | .closeWindow => "Attempt to close window"
  | .promptAndShow => "Ask user: \"" ++ config.textOr "promptMessage" "Enter value" ++ "\""
  | .changeButtonColor =>
      match config.text? "color" with
      | some color => "Change button color to " ++ color
      | none => "Change button color randomly"
  | .disableButton => "Disable the button"
  | .other tag => tag

def fields :=
  Json.Fields.field (.required "id" .string) <|
  .field (.required "type" Kind.format) <|
  .field (.withDefault "config" Config.format Config.empty) .done

def format : Json.Format Action :=
  (fields.format "struct Action").convert
    (fun (id, kind, config, ()) => ⟨id, kind, config⟩)
    (fun action => (action.id, action.kind, action.config, ()))

end Action

end ButtonFlow
