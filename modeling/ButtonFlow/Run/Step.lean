import ButtonFlow.Workflow.Action

/-!
# Steps

An action resolves to a step by looking its settings up once and putting in the defaults. A
setting whose absence means that the step does nothing stays optional.
-/

namespace ButtonFlow

inductive Step where
  | alert (message : String)
  | showText (text : String)
  | showImage (url : Option String)
  | refreshPage
  | setStorage (key : Option String) (value : String)
  | getStorage (key : Option String)
  | increaseButtonSize
  | closeWindow
  | promptAndShow (message before after : String)
  /-- Without a color, one is drawn. -/
  | changeButtonColor (color : Option String)
  | disableButton
  | unknown (tag : String)
  deriving DecidableEq

def Action.step (action : Action) : Step :=
  let config := action.config
  match action.kind with
  | .alert => .alert (config.textOr "message" "Alert!")
  | .showText => .showText (config.textOr "text" "Text content")
  | .showImage => .showImage (config.text? "url")
  | .refreshPage => .refreshPage
  | .setLocalStorage => .setStorage (config.text? "key") (config.textOr "value" "")
  | .getLocalStorage => .getStorage (config.text? "key")
  | .increaseButtonSize => .increaseButtonSize
  | .closeWindow => .closeWindow
  | .promptAndShow =>
      .promptAndShow (config.textOr "promptMessage" "Please enter a value:")
        (config.textOr "prefix" "") (config.textOr "suffix" "")
  | .changeButtonColor => .changeButtonColor (config.text? "color")
  | .disableButton => .disableButton
  | .other tag => .unknown tag

/-- The text that is shown for the answer to a prompt: those of the three parts that are not
empty, with a space between them. -/
def answerText (before answer after : String) : String :=
  String.intercalate " " ([before, answer, after].filter fun part => !part.isEmpty)

end ButtonFlow
