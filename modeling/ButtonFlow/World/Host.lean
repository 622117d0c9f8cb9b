/-!
# Hosts

The host carries out what a run cannot do itself: it shows alerts, asks the user, reloads the
page and closes the window. For each alert and each prompt, counted from zero, it is fixed in
advance how long it takes and how the user answers, and for each request to close the window
whether it is granted.
-/

namespace ButtonFlow

structure Host where
  alertTime : Nat → Nat
  /-- How long a prompt takes; `none` if it is never answered. -/
  promptTime : Nat → Option Nat
  /-- What the user answers; `none` if the prompt is dismissed. -/
  answer : Nat → Option String
  allowsClose : Nat → Bool
  alerts : Nat
  prompts : Nat
  closeRequests : Nat

namespace Host

/-- A host that takes no time, whose user gives these answers in order and dismisses every
further prompt. It grants all requests to close the window, or none. -/
def prompt (answers : List (Option String)) (allowsClose : Bool) : Host :=
  ⟨fun _ => 0, fun _ => some 0, fun n => answers[n]?.join, fun _ => allowsClose, 0, 0, 0⟩

end Host

/-- Values that are drawn at random, in the order in which they are drawn. -/
structure Draws where
  runId : Nat → String
  /-- Each color, as a number of 24 bits. -/
  color : Nat → Nat
  runs : Nat
  colors : Nat

end ButtonFlow
