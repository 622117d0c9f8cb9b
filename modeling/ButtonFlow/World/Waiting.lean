import ButtonFlow.World.Basic

/-!
# Waiting

Time passes only when runs and visitor both wait. It then jumps to the next moment at which one
of them goes on. There are two sorts of points at which a run lets the visitor go first: points
that it passes (`pause`), and points at which it waits for something (`waitUntil`, `rest`).
-/

namespace ButtonFlow
namespace World

/-- A point at which the visitor may act, although the run need not wait. What the run does
next counts so much. -/
def pause (effort : Nat) (w : World) : World :=
  (w.giveWay (stretch < w.effort.runs + effort)).exertRuns effort

def waitFor (time : Nat) (w : World) : World :=
  if w.clock < time then { w with clock := time, effort := { w.effort with visitor := 0 } } else w

/-- Lets the visitor do its next act at a time at which the runs wait. It may go on for another
stretch at once. -/
def actAt (time : Nat) (w : World) : Option World :=
  let w := w.waitFor time
  if stretch < w.effort.visitor + w.nextEffort then
    { w with effort := { w.effort with visitor := 0 } }.act?
  else w.act?

/-- Lets the visitor act and time pass until `ready` holds or the time `due` is reached; `none`
if neither ever happens. The first argument bounds the number of acts. -/
def pass (ready : World → Bool) (due : Option Nat) : Nat → World → Option World
  | 0, _ => none
  | fuel + 1, w =>
      if ready w then some w
      else
        match w.nextAct?, due with
        | none, none => none
        | none, some d => some (w.waitFor d)
        | some t, none =>
            match w.actAt t with
            | some w => pass ready due fuel w
            | none => none
        | some t, some d =>
            if d ≤ t then some (w.waitFor d)
            else
              match w.actAt t with
              | some w => pass ready due fuel w
              | none => none

/-- Waits until `ready` holds or the time `due` is reached. If that is so already, this is a
point that is passed; otherwise the visitor may go on when the wait is over. `none` if it never
is. What follows counts one. -/
def waitUntil (ready : World → Bool) (due : Option Nat) (w : World) : Option World :=
  if ready w || due.any (· ≤ w.clock) then some (w.pause 1)
  else
    match pass ready due (planSize w.plan + 1) w with
    | none => none
    | some w => some ((w.giveWay true).exertRuns 1)

inductive Waking where
  | elapsed
  | cancelled
  | never
  deriving DecidableEq

/-- Rests until the time `due`, or without an end, unless the token is cancelled. If the token
is cancelled and the time is up as well, the schedule decides what is noticed. -/
def rest (due : Option Nat) (w : World) : Waking × World :=
  match w.waitUntil (·.isCancelled) due with
  | none => (.never, w)
  | some w =>
      if w.isCancelled then
        if due.any (· ≤ w.clock) then
          let (turn, w) := w.decide false
          (if turn.noticing then .cancelled else .elapsed, w)
        else (.cancelled, w)
      else (.elapsed, w)

/-- Lets the visitor do everything that is left, with time passing in between, until nothing
can be done any more. The first argument bounds the number of acts. -/
def playOut : Nat → World → World
  | 0, w => w
  | fuel + 1, w =>
      match w.nextAct? with
      | none => w
      | some t =>
          match w.actAt t with
          | some w => playOut fuel w
          | none => w

end World
end ButtonFlow
