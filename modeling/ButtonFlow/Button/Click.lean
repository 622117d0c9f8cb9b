import ButtonFlow.Run.Execute
import ButtonFlow.Store.Slot

/-!
# Clicks

A button performs a workflow that was loaded from a slot of the store. A click takes the
presentation over from the click before. A workflow that is saved meanwhile is not seen until a
run reloads the page; the button is then as fresh as if it had been made anew, except that its
clicks are counted on.
-/

namespace ButtonFlow

structure Button where
  workflow : Workflow
  slot : String
  delay : Nat

inductive ClickOutcome where
  | ran (result : RunResult)
  | ignored
  | cancelled
  /-- The run never ends. -/
  | stuck

def World.loadWorkflow (slot : String) (w : World) : Workflow × World :=
  let w := w.pause 1
  let workflow := Slot.load slot w.store
  (workflow, (w.note .load).pause 0)

namespace Button

def make (slot : String) (delay : Nat) (w : World) : Button × World :=
  let (workflow, w) := w.loadWorkflow slot
  (⟨workflow, slot, delay⟩, w.withView (View.initial workflow))

def viewDuring (v : View) : View :=
  { v with fragments := [], running := true }

def viewAfter (v : View) (r : RunResult) : View :=
  { v with
    presentation := r.presentation
    fragments := r.fragments
    running := false
    runs := v.runs + 1 }

def click (b : Button) (w : World) : ClickOutcome × Button × World :=
  if w.view.presentation.disabled then (.ignored, b, w.note .ignored)
  else
    let before := w.view
    let during := w.withView (viewDuring before)
    match execute b.delay b.workflow.actions before.presentation during with
    | (.done result, w) =>
        if result.termination = .reloaded then
          let (workflow, w) := w.loadWorkflow b.slot
          let fresh := View.initial workflow
          (.ran result, { b with workflow := workflow },
            w.withView { fresh with runs := w.view.runs + 1 })
        else (.ran result, b, w.withView (viewAfter w.view result))
    | (.cancelled, w) => (.cancelled, b, w.withView { w.view with running := false })
    | (.stuck, w) => (.stuck, b, w)

end Button

end ButtonFlow
