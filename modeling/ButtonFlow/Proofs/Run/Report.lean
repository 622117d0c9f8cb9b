import ButtonFlow.Proofs.World.Waiting
import ButtonFlow.Proofs.World.Scene
import ButtonFlow.Run.Execute

/-!
# Requests and reports

A step asks the world for one thing at most, and reports what came of it. A request may take
time and may be cancelled; a report only adds to the tally of the run and tells one event at
most. Every step is such a request followed by such a report, so what holds of the few requests
and reports holds of all steps. A run is one step after the other, with something that follows
each.
-/

namespace ButtonFlow

/-!
## Requests
-/

inductive Request where
  | nothing
  | alert (message : String)
  | prompt (message : String)
  | reload
  | close
  | write (key value : String)
  | read (key : String)
  | color

@[reducible] def Request.Answer : Request → Type
  | .nothing => Unit
  | .alert _ => World.Waking
  | .prompt _ => World.Waking × Option String
  | .reload => Unit
  | .close => Bool
  | .write _ _ => Except IoError Unit
  | .read _ => Except IoError (Option String)
  | .color => String

namespace World

def ask (w : World) : (r : Request) → r.Answer × World
  | .nothing => ((), w)
  | .alert message => w.alert message
  | .prompt message =>
      match w.prompt message with
      | (waking, answer, w) => ((waking, answer), w)
  | .reload => ((), w.reload)
  | .close => w.requestClose
  | .write key value => w.writeKey key value
  | .read key => w.readKey key
  | .color => w.drawColor

/-- Something happens to a run. If it is an event, the token may be cancelled. -/
def happen (w : World) : Happening → World
  | .event e => w.tell e
  | what => w.note what

theorem Untouched.foldl_happen {α : Type} {f : World → α} (h : Untouched f) (w : World)
    (hs : List Happening) : f (hs.foldl happen w) = f w := by
  induction hs generalizing w with
  | nil => rfl
  | cons what hs ih =>
      have hfirst : f (w.happen what) = f w := by
        cases what with
        | event e => exact h.tell w e
        | _ => exact h.note w _
      exact (ih _).trans hfirst

end World

/-!
## Reports
-/

inductive Report where
  | nothing
  | fragment (f : Fragment)
  | presentation (p : Presentation)
  | skipped (reason : String)
  | diagnosed (message : String)
  | refused (message reason : String)
  deriving DecidableEq

namespace Report

def tally (index : Nat) (action : Action) (run : Tally) : Report → Tally
  | .nothing => run
  | .fragment f => { run with fragments := run.fragments ++ [f] }
  | .presentation p => { run with presentation := p }
  | .skipped _ => run
  | .diagnosed message =>
      { run with diagnostics := run.diagnostics ++ [⟨index, action.id, message⟩] }
  | .refused message _ =>
      { run with diagnostics := run.diagnostics ++ [⟨index, action.id, message⟩] }

def happenings (executionId : String) (index : Nat) (action : Action) : Report → List Happening
  | .nothing => []
  | .fragment f => [.event (.fragmentAdded executionId index f)]
  | .presentation p => [.event (.presentationChanged executionId index p)]
  | .skipped reason => [.event (.stepSkipped executionId index action.id reason)]
  | .diagnosed message => [.diagnosed ⟨index, action.id, message⟩ action.kind.tag]
  | .refused message reason =>
      [.diagnosed ⟨index, action.id, message⟩ action.kind.tag,
        .event (.stepSkipped executionId index action.id reason)]

theorem isOfRun_of_mem {report : Report} {executionId : String} {index : Nat} {action : Action}
    {what : Happening} (h : what ∈ report.happenings executionId index action) :
    what.isOfRun = true := by
  cases report <;> simp [happenings] at h <;> rcases h with rfl | rfl <;> rfl

theorem write_not_mem (report : Report) (executionId : String) (index : Nat) (action : Action)
    (key value : String) (written : Bool) :
    .write key value written ∉ report.happenings executionId index action := by
  cases report <;> simp [happenings]

end Report

/-!
## Steps
-/

/-- The kind of the actions that resolve to a step. -/
def Step.kind : Step → Kind
  | .alert _ => .alert
  | .showText _ => .showText
  | .showImage _ => .showImage
  | .refreshPage => .refreshPage
  | .setStorage _ _ => .setLocalStorage
  | .getStorage _ => .getLocalStorage
  | .increaseButtonSize => .increaseButtonSize
  | .closeWindow => .closeWindow
  | .promptAndShow _ _ _ => .promptAndShow
  | .changeButtonColor _ => .changeButtonColor
  | .disableButton => .disableButton
  | .unknown tag => .other tag

@[simp] theorem Action.kind_step (action : Action) : action.step.kind = action.kind := by
  unfold Action.step
  dsimp only
  cases action.kind <;> rfl

namespace Step

def request : Step → Request
  | .alert message => .alert message
  | .refreshPage => .reload
  | .setStorage (some key) value => .write key value
  | .getStorage (some key) => .read key
  | .closeWindow => .close
  | .promptAndShow message _ _ => .prompt message
  | .changeButtonColor none => .color
  | _ => .nothing

def react (p : Presentation) : (step : Step) → step.request.Answer → Flow × Report
  | .alert _, .elapsed => (.settle, .nothing)
  | .alert _, .cancelled => (.cancelled, .nothing)
  | .alert _, .never => (.stuck, .nothing)
  | .showText text, _ => (.settle, .fragment (.text text))
  | .showImage (some url), _ => (.settle, .fragment (.image url))
  | .showImage none, _ => (.settle, .skipped "no image url configured")
  | .refreshPage, _ => (.stop .reloaded, .nothing)
  | .setStorage (some key) value, .ok () =>
      (.settle, .fragment (.status ("Saved to localStorage: " ++ key ++ " = " ++ value)))
  | .setStorage (some key) _, .error e =>
      (.settle, .diagnosed ("failed to write '" ++ key ++ "': io error: " ++ e.message))
  | .setStorage none _, _ => (.settle, .skipped "no storage key configured")
  | .getStorage (some key), .ok value =>
      (.settle, .fragment
        (.status ("Retrieved from localStorage: " ++ key ++ " = " ++ storedText value)))
  | .getStorage (some key), .error e =>
      (.settle, .diagnosed ("failed to read '" ++ key ++ "': io error: " ++ e.message))
  | .getStorage none, _ => (.settle, .skipped "no storage key configured")
  | .increaseButtonSize, _ =>
      (.settle, .presentation { p with sizeSteps := p.sizeSteps + 1 })
  | .closeWindow, true => (.stop .windowClosed, .nothing)
  | .closeWindow, false => (.settle, .diagnosed "close request denied by host")
  | .promptAndShow _ before after, (.elapsed, some answer) =>
      (.settle, .fragment (.text (answerText before answer after)))
  | .promptAndShow _ _ _, (.elapsed, none) => (.settle, .skipped "prompt cancelled")
  | .promptAndShow _ _ _, (.cancelled, _) => (.cancelled, .nothing)
  | .promptAndShow _ _ _, (.never, _) => (.stuck, .nothing)
  | .changeButtonColor (some color), _ =>
      (.settle, .presentation { p with color := some color })
  | .changeButtonColor none, color => (.settle, .presentation { p with color := some color })
  | .disableButton, _ => (.settle, .presentation { p with disabled := true })
  | .unknown tag, _ =>
      (.skip, .refused ("unknown action type: " ++ tag) "unknown action type")

/-- A step is a request followed by a report. -/
theorem perform_eq (step : Step) (index : Nat) (action : Action) (run : Tally) (w : World) :
    step.perform index action run w =
      let asked := w.ask step.request
      let reaction := step.react run.presentation asked.1
      (reaction.1, reaction.2.tally index action run,
        (reaction.2.happenings run.executionId index action).foldl World.happen asked.2) := by
  cases step with
  | alert message =>
      cases halert : w.alert message with
      | mk waking w₁ =>
          simp only [perform, request, World.ask, halert]
          cases waking with
          | elapsed => rfl
          | cancelled => rfl
          | never => rfl
  | showText text => rfl
  | showImage url =>
      cases url with
      | none => rfl
      | some url => rfl
  | refreshPage => rfl
  | setStorage key value =>
      cases key with
      | none => rfl
      | some key =>
          cases hwrite : w.writeKey key value with
          | mk result w₁ =>
              simp only [perform, request, World.ask, hwrite]
              cases result with
              | ok u => rfl
              | error e => rfl
  | getStorage key =>
      cases key with
      | none => rfl
      | some key =>
          cases hread : w.readKey key with
          | mk result w₁ =>
              simp only [perform, request, World.ask, hread]
              cases result with
              | ok value => rfl
              | error e => rfl
  | increaseButtonSize => rfl
  | closeWindow =>
      cases hclose : w.requestClose with
      | mk granted w₁ =>
          simp only [perform, request, World.ask, hclose]
          cases granted with
          | true => rfl
          | false => rfl
  | promptAndShow message before after =>
      cases hprompt : w.prompt message with
      | mk waking rest =>
          rcases rest with ⟨answer, w₁⟩
          simp only [perform, request, World.ask, hprompt]
          cases waking with
          | elapsed =>
              cases answer with
              | some answer => rfl
              | none => rfl
          | cancelled => rfl
          | never => rfl
  | changeButtonColor color =>
      cases color with
      | none => rfl
      | some color => rfl
  | disableButton => rfl
  | unknown tag => rfl

end Step

/-!
## Runs
-/

def Tally.result (run : Tally) (t : Termination) : RunResult :=
  ⟨run.executionId, run.fragments, run.presentation, run.diagnostics, t⟩

def World.begin (run : Tally) (index : Nat) (action : Action) (w : World) : World :=
  w.tell (.stepStarted run.executionId index action.id action.kind.tag)

/-- What follows a step, if `next` are the steps that are left. -/
def proceed (delay : Nat) (next : Tally → World → Outcome RunResult × World) :
    Flow × Tally × World → Outcome RunResult × World
  | (.settle, run, w) =>
      match w.rest (some (w.clock + delay)) with
      | (.elapsed, w) => next run w
      | (.cancelled, w) => run.cancel w
      | (.never, w) => (.stuck, w)
  | (.skip, run, w) => next run w
  | (.stop t, run, w) => (.done (run.result t), w.tell (.runCompleted run.executionId t))
  | (.cancelled, run, w) => run.cancel w
  | (.stuck, _, w) => (.stuck, w)

/-- All that a run can proceed to from a step, behind which it may have waited. -/
inductive Proceeds (next : Tally → World → Outcome RunResult × World) (run : Tally) (w : World) :
    Flow → Outcome RunResult × World → Prop where
  | wentOn {flow : Flow} {w' : World} (hflow : flow = .settle ∨ flow = .skip)
      (hwaited : w.Waited w') : Proceeds next run w flow (next run w')
  | stopped {t : Termination} :
      Proceeds next run w (.stop t) (.done (run.result t), w.tell (.runCompleted run.executionId t))
  | cancelled {flow : Flow} {w' : World} (hflow : flow = .settle ∨ flow = .cancelled)
      (hwaited : w.Waited w') (hrested : flow = .settle → w'.isCancelled = true) :
      Proceeds next run w flow (run.cancel w')
  | stuck : Proceeds next run w .stuck (.stuck, w)

theorem proceeds_proceed (delay : Nat) (next : Tally → World → Outcome RunResult × World)
    (flow : Flow) (run : Tally) (w : World) :
    Proceeds next run w flow (proceed delay next (flow, run, w)) := by
  have hhere : w.Waited w := fun _ hR => hR.refl w
  cases flow with
  | settle =>
      have hwaited : w.Waited (w.rest (some (w.clock + delay))).2 :=
        fun _ hR => hR.rest (some (w.clock + delay)) w
      have htoken := w.isCancelled_of_rest (some (w.clock + delay))
      have hnever := w.rest_ne_never (w.clock + delay)
      unfold proceed
      dsimp only
      generalize w.rest (some (w.clock + delay)) = rested at hwaited htoken hnever ⊢
      rcases rested with ⟨waking, w'⟩
      cases waking with
      | elapsed => exact .wentOn (Or.inl rfl) hwaited
      | cancelled => exact .cancelled (Or.inl rfl) hwaited fun _ => htoken rfl
      | never => exact absurd rfl hnever
  | skip => exact .wentOn (Or.inr rfl) hhere
  | stop t => exact .stopped
  | cancelled => exact .cancelled (Or.inr rfl) hhere nofun
  | stuck => exact .stuck

theorem performFrom_cons {w : World} (hw : w.isCancelled = false) (delay index : Nat)
    (action : Action) (rest : List Action) (run : Tally) :
    performFrom delay index (action :: rest) run w =
      proceed delay (performFrom delay (index + 1) rest)
        (action.step.perform index action run (w.begin run index action)) := by
  rw [performFrom, if_neg (by simp [hw])]
  rfl

end ButtonFlow
