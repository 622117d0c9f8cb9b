import ButtonFlow.Button.View
import ButtonFlow.Store.Basic

/-!
# The visitor

While runs are under way somebody else clicks the button, looks at it, changes the store and
may cancel everything. What this visitor does is fixed in advance as a list of acts, each of
which waits for its time. Clicks go into a queue of bounded length, and a visitor who finds the
queue full waits until there is room.
-/

namespace ButtonFlow

inductive Act where
  /-- Clicks so many times, until a click is refused. -/
  | click (times : Nat)
  | cancel
  /-- Lets go of the button: there will be no more clicks. -/
  | leave
  | look
  | wait
  | set (key value : String)
  | remove (key : String)

/-- An act and the time before which it is not done. -/
structure Cue where
  due : Nat
  act : Act

/-- How much an act counts among what is done at a stretch: a click and a use of the store
count one each. -/
def Act.effort : Act → Nat
  | .click _ | .set .. | .remove _ => 1
  | .cancel | .leave | .look | .wait => 0

inductive Reply where
  | done
  | queued
  | refused
  | gone
  | failed (e : IoError)
  | saw (view : View)

structure Queue where
  waiting : Nat
  capacity : Nat
  isOpen : Bool
  held : Bool

/-- How many acts a plan holds at most, every single click counted. -/
def planSize : List Cue → Nat
  | [] => 0
  | ⟨_, .click times⟩ :: cues => times + 1 + planSize cues
  | _ :: cues => 1 + planSize cues

def plannedClicks : List Cue → Nat
  | [] => 0
  | ⟨_, .click times⟩ :: cues => times + plannedClicks cues
  | _ :: cues => plannedClicks cues

end ButtonFlow
