import ButtonFlow.Run.Step
import ButtonFlow.World.Waiting

/-!
# Runs

A run performs the actions of a workflow one after another. Before each step it looks whether
it was cancelled. A step settles for a fixed time before the next one begins, unless it is of
an unknown kind, or ends the run: a reload of the page does so, and closing the window if the
host allows it. A run can be cancelled while it settles, while an alert stays and while a
prompt is open; what a step has begun otherwise, it finishes.

Whatever goes wrong in a single step is noted and does not end the run.
-/

namespace ButtonFlow

structure Tally where
  executionId : String
  fragments : List Fragment
  presentation : Presentation
  diagnostics : List Diagnostic

inductive Flow where
  | settle
  /-- The run goes on at once. -/
  | skip
  | stop (t : Termination)
  | cancelled
  | stuck
  deriving DecidableEq

inductive Outcome (α : Type) where
  | done (a : α)
  | cancelled
  | stuck

namespace Tally

def start (executionId : String) (p : Presentation) : Tally :=
  ⟨executionId, [], p, []⟩

/-- Adds a fragment, and tells so first. -/
def addFragment (run : Tally) (index : Nat) (fragment : Fragment) (w : World) : Tally × World :=
  ({ run with fragments := run.fragments ++ [fragment] },
    w.tell (.fragmentAdded run.executionId index fragment))

/-- Changes the presentation, and tells so afterwards. -/
def present (run : Tally) (index : Nat) (p : Presentation) (w : World) : Tally × World :=
  ({ run with presentation := p }, w.tell (.presentationChanged run.executionId index p))

def passOver (run : Tally) (index : Nat) (action : Action) (reason : String) (w : World) : World :=
  w.tell (.stepSkipped run.executionId index action.id reason)

def diagnose (run : Tally) (index : Nat) (action : Action) (message : String) (w : World) :
    Tally × World :=
  let d : Diagnostic := ⟨index, action.id, message⟩
  ({ run with diagnostics := run.diagnostics ++ [d] }, w.note (.diagnosed d action.kind.tag))

def finish (run : Tally) (t : Termination) (w : World) : RunResult × World :=
  (⟨run.executionId, run.fragments, run.presentation, run.diagnostics, t⟩,
    w.tell (.runCompleted run.executionId t))

end Tally

/-- Shows an alert, and stays until it is dismissed. If the token is cancelled already, the
schedule decides whether the alert is shown at all. -/
def World.alert (message : String) (w : World) : World.Waking × World :=
  let w := w.pause 1
  let (turn, w) := w.decide false
  if w.isCancelled && turn.noticing then (.cancelled, w)
  else
    let time := w.host.alertTime w.host.alerts
    let w := { w with host := { w.host with alerts := w.host.alerts + 1 } }.note (.alert message)
    if time = 0 then (.elapsed, w.pause 0) else w.rest (some (w.clock + time))

/-- Asks the user, and stays until there is an answer. If the token is cancelled already, the
schedule decides whether the user is asked at all, and if it is cancelled by the time of an
answer, whether the answer is taken. -/
def World.prompt (message : String) (w : World) : World.Waking × Option String × World :=
  let w := w.pause 1
  let (turn, w) := w.decide false
  if w.isCancelled && turn.noticing then (.cancelled, none, w)
  else
    let number := w.host.prompts
    let answer := w.host.answer number
    let w := { w with host := { w.host with prompts := number + 1 } }.note (.prompt message)
    let w := w.pause 1
    match w.host.promptTime number with
    | some 0 =>
        let (turn, w) := w.decide false
        (if w.isCancelled && turn.noticing then .cancelled else .elapsed, answer, w)
    | time =>
        let (waking, w) := w.rest (time.map (w.clock + ·))
        (waking, answer, w)

def World.reload (w : World) : World :=
  ((w.pause 1).note .reload).pause 0

def World.requestClose (w : World) : Bool × World :=
  let w := w.pause 1
  let number := w.host.closeRequests
  let granted := w.host.allowsClose number
  let w := { w with host := { w.host with closeRequests := number + 1 } }.note .closeRequest
  (granted, w.pause 0)

def World.writeKey (key value : String) (w : World) : Except IoError Unit × World :=
  let w := w.pause 1
  let (result, store) := w.store.set key value
  let w := { w with store := store }.note (.write key value result.isOk)
  (result, w.pause 0)

def World.readKey (key : String) (w : World) : Except IoError (Option String) × World :=
  let w := w.pause 1
  let result := w.store.get key
  (result, (w.note (.read key)).pause 0)

def storedText (value : Option String) : String :=
  match value with
  | none => "Not found"
  | some s => if s.isEmpty then "Not found" else s

def Step.perform (step : Step) (index : Nat) (action : Action) (run : Tally) (w : World) :
    Flow × Tally × World :=
  match step with
  | .alert message =>
      match w.alert message with
      | (.elapsed, w) => (.settle, run, w)
      | (.cancelled, w) => (.cancelled, run, w)
      | (.never, w) => (.stuck, run, w)
  | .showText text =>
      let (run, w) := run.addFragment index (.text text) w
      (.settle, run, w)
  | .showImage (some url) =>
      let (run, w) := run.addFragment index (.image url) w
      (.settle, run, w)
  | .showImage none => (.settle, run, run.passOver index action "no image url configured" w)
  | .refreshPage => (.stop .reloaded, run, w.reload)
  | .setStorage (some key) value =>
      match w.writeKey key value with
      | (.ok (), w) =>
          let text := "Saved to localStorage: " ++ key ++ " = " ++ value
          let (run, w) := run.addFragment index (.status text) w
          (.settle, run, w)
      | (.error e, w) =>
          let message := "failed to write '" ++ key ++ "': io error: " ++ e.message
          let (run, w) := run.diagnose index action message w
          (.settle, run, w)
  | .setStorage none _ =>
      (.settle, run, run.passOver index action "no storage key configured" w)
  | .getStorage (some key) =>
      match w.readKey key with
      | (.ok value, w) =>
          let text := "Retrieved from localStorage: " ++ key ++ " = " ++ storedText value
          let (run, w) := run.addFragment index (.status text) w
          (.settle, run, w)
      | (.error e, w) =>
          let message := "failed to read '" ++ key ++ "': io error: " ++ e.message
          let (run, w) := run.diagnose index action message w
          (.settle, run, w)
  | .getStorage none =>
      (.settle, run, run.passOver index action "no storage key configured" w)
  | .increaseButtonSize =>
      let p := run.presentation
      let (run, w) := run.present index { p with sizeSteps := p.sizeSteps + 1 } w
      (.settle, run, w)
  | .closeWindow =>
      match w.requestClose with
      | (true, w) => (.stop .windowClosed, run, w)
      | (false, w) =>
          let (run, w) := run.diagnose index action "close request denied by host" w
          (.settle, run, w)
  | .promptAndShow message before after =>
      match w.prompt message with
      | (.elapsed, some answer, w) =>
          let (run, w) := run.addFragment index (.text (answerText before answer after)) w
          (.settle, run, w)
      | (.elapsed, none, w) => (.settle, run, run.passOver index action "prompt cancelled" w)
      | (.cancelled, _, w) => (.cancelled, run, w)
      | (.never, _, w) => (.stuck, run, w)
  | .changeButtonColor color =>
      let (color, w) :=
        match color with
        | some color => (color, w)
        | none => w.drawColor
      let (run, w) := run.present index { run.presentation with color := some color } w
      (.settle, run, w)
  | .disableButton =>
      let (run, w) := run.present index { run.presentation with disabled := true } w
      (.settle, run, w)
  | .unknown tag =>
      let (run, w) := run.diagnose index action ("unknown action type: " ++ tag) w
      (.skip, run, run.passOver index action "unknown action type" w)

def Tally.cancel (run : Tally) (w : World) : Outcome RunResult × World :=
  (.cancelled, w.tell (.runCancelled run.executionId))

/-- Performs the actions from the one at `index` on, with `delay` between the steps. -/
def performFrom (delay : Nat) : Nat → List Action → Tally → World → Outcome RunResult × World
  | _, [], run, w =>
      let (result, w) := run.finish .completed w
      (.done result, w)
  | index, action :: rest, run, w =>
      if w.isCancelled then run.cancel w
      else
        let w := w.tell (.stepStarted run.executionId index action.id action.kind.tag)
        match action.step.perform index action run w with
        | (.settle, run, w) =>
            match w.rest (some (w.clock + delay)) with
            | (.elapsed, w) => performFrom delay (index + 1) rest run w
            | (.cancelled, w) => run.cancel w
            | (.never, w) => (.stuck, w)
        | (.skip, run, w) => performFrom delay (index + 1) rest run w
        | (.stop t, run, w) =>
            let (result, w) := run.finish t w
            (.done result, w)
        | (.cancelled, run, w) => run.cancel w
        | (.stuck, _, w) => (.stuck, w)

def execute (delay : Nat) (actions : List Action) (p : Presentation) (w : World) :
    Outcome RunResult × World :=
  let (id, w) := w.drawRunId
  let w := w.tell (.runStarted id actions.length)
  performFrom delay 0 actions (Tally.start id p) w

/-- The usual pause between two steps, in milliseconds. -/
def usualDelay : Nat := 300

end ButtonFlow
