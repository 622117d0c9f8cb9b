import ButtonFlow.Json.Format

/-!
# Kinds of actions

The catalogue of actions that a button can perform, each with its tag, its title and the form
of its settings. A tag outside of the catalogue is kept as it is, so that a saved workflow
survives being read by a program that does not know all of its actions.
-/

namespace ButtonFlow

inductive Kind where
  | alert
  | showText
  | showImage
  | refreshPage
  | setLocalStorage
  | getLocalStorage
  | increaseButtonSize
  | closeWindow
  | promptAndShow
  | changeButtonColor
  | disableButton
  /-- A kind outside of the catalogue, by its tag. -/
  | other (tag : String)
  deriving DecidableEq

structure FormField where
  key : String
  label : String
  placeholder : String

namespace Kind

def catalogue : List Kind := [
  .alert, .showText, .showImage, .refreshPage, .setLocalStorage, .getLocalStorage,
  .increaseButtonSize, .closeWindow, .promptAndShow, .changeButtonColor, .disableButton]

def tag : Kind → String
  | .alert => "alert"
  | .showText => "showText"
  | .showImage => "showImage"
  | .refreshPage => "refreshPage"
  | .setLocalStorage => "setLocalStorage"
  | .getLocalStorage => "getLocalStorage"
  | .increaseButtonSize => "increaseButtonSize"
  | .closeWindow => "closeWindow"
  | .promptAndShow => "promptAndShow"
  | .changeButtonColor => "changeButtonColor"
  | .disableButton => "disableButton"
  | .other tag => tag

def title : Kind → String
  | .alert => "Alert"
  | .showText => "Show Text"
  | .showImage => "Show Image"
  | .refreshPage => "Refresh Page"
  | .setLocalStorage => "Set LocalStorage"
  | .getLocalStorage => "Get LocalStorage"
  | .increaseButtonSize => "Increase Button Size"
  | .closeWindow => "Close Window"
  | .promptAndShow => "Prompt and Show"
  | .changeButtonColor => "Change Button Color"
  | .disableButton => "Disable Button"
  | .other tag => tag

def fields : Kind → List FormField
  | .alert => [⟨"message", "Alert Message", "What message should pop up?"⟩]
  | .showText => [⟨"text", "Text Content", "Enter text to display"⟩]
  | .showImage => [⟨"url", "Image URL", "https://example.com/image.jpg"⟩]
  | .setLocalStorage => [
      ⟨"key", "Key", "Enter storage key"⟩,
      ⟨"value", "Value", "Enter storage value"⟩]
  | .getLocalStorage => [⟨"key", "Key to Retrieve", "Enter storage key to retrieve"⟩]
  | .promptAndShow => [
      ⟨"promptMessage", "Prompt Message", "Enter prompt message"⟩,
      ⟨"prefix", "Text Prefix (before user input)", "Hello,"⟩,
      ⟨"suffix", "Text Suffix (after user input)", "!"⟩]
  | .changeButtonColor => [
      ⟨"color", "Button Color (leave empty for random)", "#000000 or rgb(0,0,0)"⟩]
  | .refreshPage | .increaseButtonSize | .closeWindow | .disableButton | .other _ => []

def isKnown : Kind → Bool
  | .other _ => false
  | _ => true

/-- The kind that is saved under a tag. -/
def ofTag (tag : String) : Kind :=
  (catalogue.find? fun kind => kind.tag == tag).getD (.other tag)

def format : Json.Format Kind :=
  Json.Format.string.convert ofTag tag

end Kind

end ButtonFlow
