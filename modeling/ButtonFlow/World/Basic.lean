import ButtonFlow.Run.Event
import ButtonFlow.World.Host
import ButtonFlow.World.Visitor

/-!
# The world of a run

Everything that a run can see or change, and everything that can happen to it: the clock, the
token by which it is cancelled, the store, the host, the view of the button, the queue of
clicks and the visitor. The history lists all that happened, with the time and the view of that
moment.

Where the visitor and the runs could both go on, a schedule decides. Every schedule is
possible. By the usual one visitor and runs take turns: the visitor goes on when the runs have
to wait, and the runs when the visitor has to. Neither goes on for more than a stretch while
the other could.
-/

namespace ButtonFlow

inductive Happening where
  | event (e : Event)
  | alert (message : String)
  | prompt (message : String)
  | reload
  | closeRequest
  | read (key : String)
  | write (key value : String) (written : Bool)
  | diagnosed (d : Diagnostic) (tag : String)
  | load
  | cancelled
  | taken
  /-- A click had no effect, because the button is disabled. -/
  | ignored
  | closed
  | visitor (reply : Reply)

structure Moment where
  time : Nat
  view : View
  what : Happening

/-- How much can be done at a stretch. Each click that is queued or taken, each use of the
store or the host, each answer of the user and each rest counts one. -/
def stretch : Nat := 128

/-- How much the runs and the visitor have done in their latest turns. -/
structure Effort where
  runs : Nat
  visitor : Nat

structure Occasion where
  number : Nat
  /-- Whether the turn of the runs is over: they had to wait, or they have gone on for a
  stretch. -/
  isVisitors : Bool
  /-- How much the visitor has done in its turn, its next act included. -/
  effort : Nat

/-- A decision where the visitor and the runs could both go on. -/
structure Turn where
  givesWay : Bool
  /-- Whether it is noticed that the token was cancelled, if something else is ready as
  well. -/
  noticing : Bool

abbrev Schedule := Occasion → Turn

/-- The visitor acts when it is its turn, for a stretch at most. -/
def Schedule.usual : Schedule := fun o => ⟨o.isVisitors && o.effort ≤ stretch, true⟩

structure World where
  clock : Nat
  isCancelled : Bool
  /-- The events during which the token is cancelled. -/
  trips : Event → Bool
  store : Store
  host : Host
  draws : Draws
  view : View
  queue : Queue
  plan : List Cue
  schedule : Schedule
  turns : Nat
  effort : Effort
  /-- What happened, the latest first. -/
  past : List Moment

namespace World

/-- A world in which nothing has happened yet, with room for one click and the usual
schedule. -/
def fresh (store : Store) (host : Host) (plan : List Cue) : World where
  clock := 0
  isCancelled := false
  trips := fun _ => false
  store := store
  host := host
  draws := ⟨toString, id, 0, 0⟩
  view := View.initial .initial
  queue := ⟨0, 1, true, true⟩
  plan := plan
  schedule := Schedule.usual
  turns := 0
  effort := ⟨0, 0⟩
  past := []

def history (w : World) : List Moment :=
  w.past.reverse

def note (w : World) (what : Happening) : World :=
  { w with past := ⟨w.clock, w.view, what⟩ :: w.past }

def cancel (w : World) : World :=
  if w.isCancelled then w else { w.note .cancelled with isCancelled := true }

def tell (w : World) (e : Event) : World :=
  let w := w.note (.event e)
  if w.trips e then w.cancel else w

def withView (w : World) (view : View) : World :=
  { w with view := view }

def drawRunId (w : World) : String × World :=
  (w.draws.runId w.draws.runs, { w with draws := { w.draws with runs := w.draws.runs + 1 } })

def drawColor (w : World) : String × World :=
  (colorCode (w.draws.color w.draws.colors),
    { w with draws := { w.draws with colors := w.draws.colors + 1 } })

def nextEffort (w : World) : Nat :=
  match w.plan with
  | [] => 0
  | cue :: _ => cue.act.effort

def decide (isVisitors : Bool) (w : World) : Turn × World :=
  (w.schedule ⟨w.turns, isVisitors, w.effort.visitor + w.nextEffort⟩,
    { w with turns := w.turns + 1 })

@[simp] def exertVisitor (effort : Nat) (w : World) : World :=
  { w with effort := { w.effort with visitor := w.effort.visitor + effort } }

@[simp] def exertRuns (effort : Nat) (w : World) : World :=
  { w with effort := { w.effort with runs := w.effort.runs + effort } }

/-! ## The history, seen by what happened -/

def events (w : World) : List Event :=
  w.history.filterMap fun m =>
    match m.what with
    | .event e => some e
    | _ => none

/-! ## Acts of the visitor -/

/-- Does the first act of the plan, if its time has come and it need not wait. -/
def act? (w : World) : Option World :=
  match w.plan with
  | [] => none
  | ⟨due, act⟩ :: later =>
      if w.clock < due then none
      else
        let w := w.exertVisitor act.effort
        let after : World := { w with plan := later }
        match act with
        | .click 0 => some after
        | .click (times + 1) =>
            if !w.queue.held then some (after.note (.visitor .gone))
            else if !w.queue.isOpen then some (after.note (.visitor .refused))
            else if w.queue.waiting < w.queue.capacity then
              let again : World :=
                { w with
                  queue := { w.queue with waiting := w.queue.waiting + 1 }
                  plan := if times = 0 then later else ⟨due, .click times⟩ :: later }
              some (again.note (.visitor .queued))
            else none
        | .cancel => some (after.cancel.note (.visitor .done))
        | .leave =>
            let left : World := { after with queue := { w.queue with held := false } }
            some (left.note (.visitor .done))
        | .look => some (after.note (.visitor (.saw w.view)))
        | .wait => some (after.note (.visitor .done))
        | .set key value =>
            match w.store.set key value with
            | (.ok (), store) => some ({ after with store := store }.note (.visitor .done))
            | (.error e, store) => some ({ after with store := store }.note (.visitor (.failed e)))
        | .remove key =>
            match w.store.remove key with
            | (.ok (), store) => some ({ after with store := store }.note (.visitor .done))
            | (.error e, store) => some ({ after with store := store }.note (.visitor (.failed e)))

/-- Lets the visitor act until it has to wait or the schedule says that the runs go on. The
number bounds the acts. -/
def actWhile (isVisitors : Bool) : Nat → World → World
  | 0, w => w
  | fuel + 1, w =>
      match w.decide isVisitors with
      | (⟨false, _⟩, w) => w
      | (⟨true, _⟩, w) =>
          match w.act? with
          | some w => actWhile isVisitors fuel w
          | none => w

/-- Lets the visitor go first. If that ends a turn of the runs, both begin a new one. -/
def giveWay (isVisitors : Bool) (w : World) : World :=
  let w := w.actWhile isVisitors (planSize w.plan + 1)
  if isVisitors then { w with effort := ⟨0, 0⟩ } else w

/-- The time at which the visitor goes on: `none` if there is nothing left to do, or no room
for the next click. -/
def nextAct? (w : World) : Option Nat :=
  match w.plan with
  | [] => none
  | ⟨due, .click (_ + 1)⟩ :: _ =>
      if w.queue.held && w.queue.isOpen && w.queue.capacity ≤ w.queue.waiting then none
      else some (max w.clock due)
  | ⟨due, _⟩ :: _ => some (max w.clock due)

end World

end ButtonFlow
