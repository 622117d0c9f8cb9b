import ButtonFlow.Button.Click

/-!
# Sessions

A session serves the clicks of a visitor one at a time, in the order in which they were queued.
It ends when the token is cancelled, when a run is cancelled or closes the window, or when the
visitor has let go of the button and every queued click was taken. When it has ended, nobody
takes clicks any more.

If a click waits and the token is cancelled as well, the schedule decides which is noticed.
-/

namespace ButtonFlow

namespace World

def hasWork (w : World) : Bool :=
  w.isCancelled || 0 < w.queue.waiting || !w.queue.held

def takeClick (w : World) : World :=
  { w with queue := { w.queue with waiting := w.queue.waiting - 1 } }.note .taken

def closeQueue (w : World) : World :=
  { w with queue := { w.queue with isOpen := false } }.note .closed

end World

namespace Session

inductive Next where
  | click
  | leave
  deriving DecidableEq

/-- Waits for something to do, and decides what it is; `none` if that never comes. -/
def next? (w : World) : Option (Next × World) :=
  match w.waitUntil World.hasWork none with
  | none => none
  | some w =>
      let (turn, w) := w.decide false
      if w.isCancelled && (turn.noticing || w.queue.waiting = 0) then some (.leave, w)
      else if 0 < w.queue.waiting then some (.click, w.takeClick)
      else some (.leave, w)

/-- Serves clicks, at most so many as the first argument says. The answer is `false` if the
session hangs. -/
def serve : Nat → Button → World → Bool × Button × World
  | 0, b, w => (true, b, w)
  | fuel + 1, b, w =>
      match next? w with
      | none => (false, b, w)
      | some (.leave, w) => (true, b, w)
      | some (.click, w) =>
          match b.click w with
          | (.ran result, b, w) =>
              if result.termination = .windowClosed then (true, b, w) else serve fuel b w
          | (.ignored, b, w) => serve fuel b w
          | (.cancelled, b, w) => (true, b, w)
          | (.stuck, b, w) => (false, b, w)

/-- How many rounds a session can have at most: one for each click that waits or is planned,
and one to end. -/
def rounds (w : World) : Nat :=
  w.queue.waiting + plannedClicks w.plan + 1

def run (b : Button) (w : World) : Bool × Button × World :=
  let w := w.giveWay true
  match serve (rounds w) b w with
  | (true, b, w) => (true, b, w.closeQueue)
  | hung => hung

end Session

end ButtonFlow
