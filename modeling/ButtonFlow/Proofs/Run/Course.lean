import ButtonFlow.Proofs.Run.Report
import ButtonFlow.Proofs.World.Trail

/-!
# The course of a run

A run can be disturbed at many points: by the visitor, by the schedule, and by a token that is
cancelled in any moment. Still it takes one of a few courses. A course lists what happens to
the run, without the times, and what the run comes to; it says nothing about the visitor, the
schedule and the token. Every run takes a course, so what holds of all courses holds of all
runs.
-/

namespace ButtonFlow

/-!
## Courses
-/

def Outcome.result? {α : Type} : Outcome α → Option α
  | .done a => some a
  | _ => none

theorem Outcome.eq_done_of_result? {α : Type} {ran : Outcome α × World} {a : α}
    (h : ran.1.result? = some a) : ran = (.done a, ran.2) := by
  rcases ran with ⟨outcome, w⟩
  cases outcome with
  | done b => exact congrArg (fun a => (Outcome.done a, w)) (Option.some.inj h)
  | cancelled => cases h
  | stuck => cases h

/-- What can come of a request, and what happens to the run meanwhile. An alert or a prompt
that is cancelled may not be shown at all. -/
inductive Answered (colors : Nat → Nat) : (r : Request) → r.Answer → List Happening → Prop where
  | nothing : Answered colors .nothing () []
  | alert (message : String) (waking : World.Waking) :
      Answered colors (.alert message) waking [.alert message]
  | alertWithheld (message : String) : Answered colors (.alert message) .cancelled []
  | prompt (message : String) (waking : World.Waking) (answer : Option String) :
      Answered colors (.prompt message) (waking, answer) [.prompt message]
  | promptWithheld (message : String) : Answered colors (.prompt message) (.cancelled, none) []
  | reload : Answered colors .reload () [.reload]
  | close (granted : Bool) : Answered colors .close granted [.closeRequest]
  | write (key value : String) (result : Except IoError Unit) :
      Answered colors (.write key value) result [.write key value result.isOk]
  | read (key : String) (result : Except IoError (Option String)) :
      Answered colors (.read key) result [.read key]
  | color (number : Nat) : Answered colors .color (colorCode (colors number)) []

/-- What can happen in a step whose request is answered as `P` says, and what it leads to. -/
inductive PerformedIf (colors : Nat → Nat) (P : (r : Request) → r.Answer → Prop) (index : Nat)
    (action : Action) (run : Tally) : List Happening → Flow → Tally → Prop where
  | step {answer : action.step.request.Answer} {asked : List Happening}
      (hanswered : Answered colors action.step.request answer asked)
      (hanswer : P action.step.request answer) :
      PerformedIf colors P index action run
        (.event (.stepStarted run.executionId index action.id action.kind.tag) :: asked ++
          (action.step.react run.presentation answer).2.happenings run.executionId index action)
        (action.step.react run.presentation answer).1
        ((action.step.react run.presentation answer).2.tally index action run)

abbrev Performed (colors : Nat → Nat) (index : Nat) (action : Action) (run : Tally) :
    List Happening → Flow → Tally → Prop :=
  PerformedIf colors (fun _ _ => True) index action run

/-- What can happen to a run that goes on with the action at `index`, and what it comes to. -/
inductive Course (colors : Nat → Nat) :
    Nat → List Action → Tally → List Happening → Outcome RunResult → Prop where
  | completed {index : Nat} {run : Tally} :
      Course colors index [] run [.event (.runCompleted run.executionId .completed)]
        (.done (run.result .completed))
  | cancelledBefore {index : Nat} {action : Action} {rest : List Action} {run : Tally} :
      Course colors index (action :: rest) run [.event (.runCancelled run.executionId)] .cancelled
  | wentOn {index : Nat} {action : Action} {rest : List Action} {run run' : Tally}
      {told later : List Happening} {flow : Flow} {outcome : Outcome RunResult}
      (hstep : Performed colors index action run told flow run')
      (hflow : flow = .settle ∨ flow = .skip)
      (hlater : Course colors (index + 1) rest run' later outcome) :
      Course colors index (action :: rest) run (told ++ later) outcome
  | stopped {index : Nat} {action : Action} {rest : List Action} {run run' : Tally}
      {told : List Happening} {t : Termination}
      (hstep : Performed colors index action run told (.stop t) run') :
      Course colors index (action :: rest) run
        (told ++ [.event (.runCompleted run.executionId t)]) (.done (run'.result t))
  | cancelledDuring {index : Nat} {action : Action} {rest : List Action} {run run' : Tally}
      {told : List Happening} {flow : Flow}
      (hstep : Performed colors index action run told flow run')
      (hflow : flow = .settle ∨ flow = .cancelled) :
      Course colors index (action :: rest) run
        (told ++ [.event (.runCancelled run.executionId)]) .cancelled
  | stuck {index : Nat} {action : Action} {rest : List Action} {run run' : Tally}
      {told : List Happening} {flow : Flow}
      (hstep : Performed colors index action run told flow run')
      (hflow : flow = .settle ∨ flow = .stuck) :
      Course colors index (action :: rest) run told .stuck

@[simp]
theorem Report.executionId_tally (report : Report) (index : Nat) (action : Action) (run : Tally) :
    (report.tally index action run).executionId = run.executionId := by
  cases report <;> rfl

namespace PerformedIf

variable {colors : Nat → Nat} {P : (r : Request) → r.Answer → Prop} {index : Nat}
  {action : Action} {run run' : Tally} {told : List Happening} {flow : Flow}

theorem performed (h : PerformedIf colors P index action run told flow run') :
    Performed colors index action run told flow run' := by
  cases h with
  | step hanswered _ => exact .step hanswered trivial

theorem executionId_eq (h : PerformedIf colors P index action run told flow run') :
    run'.executionId = run.executionId := by
  cases h with
  | step _ _ => exact Report.executionId_tally _ index action run

end PerformedIf

/-!
## From world to world
-/

namespace World

/-- From one world to another, this happened to a run. -/
def Adds (w w' : World) (hs : List Happening) : Prop :=
  ∃ ds, Trail w ds w' ∧ (∀ d ∈ ds, d.isDuringRun = true) ∧ ButtonFlow.doings ds = hs

namespace Adds

variable {w w' w₁ w₂ : World} {hs hs' : List Happening}

theorem doings_eq (h : Adds w w' hs) : w'.doings = w.doings ++ hs := by
  rcases h with ⟨ds, htrail, _, rfl⟩
  exact htrail.doings_eq

theorem colors_eq (h : Adds w w' hs) : w'.draws.color = w.draws.color := by
  rcases h with ⟨ds, htrail, _, _⟩
  exact htrail.colors_eq

theorem of_aside (h : Aside w w') : Adds w w' [] := by
  rcases h with ⟨ds, htrail, haside⟩
  exact ⟨ds, htrail, fun d hd => Deed.isDuringRun_of_isAside (haside d hd), doings_eq_nil haside⟩

theorem of_idle (hledger : w'.ledger = w.ledger) (hplan : w'.plan = w.plan) : Adds w w' [] :=
  ⟨[], .idle hledger hplan, List.forall_mem_nil _, rfl⟩

theorem trans (h : Adds w w₁ hs) (h' : Adds w₁ w₂ hs') : Adds w w₂ (hs ++ hs') := by
  rcases h with ⟨ds, htrail, hduring, rfl⟩
  rcases h' with ⟨ds', htrail', hduring', rfl⟩
  exact ⟨ds ++ ds', htrail.trans htrail', List.forall_mem_append.mpr ⟨hduring, hduring'⟩,
    doings_append ds ds'⟩

theorem idle (h : Adds w w₁ hs) (hidle : Aside w₁ w₂) : Adds w w₂ hs := by
  have hboth := h.trans (of_aside hidle)
  rwa [List.append_nil] at hboth

theorem note (w : World) (what : Happening) (hplain : what.isPlain = true)
    (hadmits : w.ledger.Admits what) (hrun : what.isOfRun = true)
    (hduring : (Deed.noted ⟨w.clock, w.view, what⟩).isDuringRun = true) :
    Adds w (w.note what) [what] :=
  ⟨_, .note hplain hadmits, List.forall_mem_singleton.mpr hduring, List.filter_cons_of_pos hrun⟩

theorem tell (w : World) {e : Event} (hadmits : w.ledger.Admits (.event e)) :
    Adds w (w.tell e) [.event e] := by
  have hnoted : Adds w (w.note (.event e)) [.event e] :=
    note w _ rfl hadmits rfl rfl
  unfold World.tell
  dsimp only
  split
  · exact hnoted.idle (.cancel _)
  · exact hnoted

theorem report (w : World) (report : Report) (executionId : String) (index : Nat)
    (action : Action) :
    Adds w ((report.happenings executionId index action).foldl World.happen w)
      (report.happenings executionId index action) := by
  -- One case for each report. No report begins a step.
  cases report with
  | nothing => exact of_idle rfl rfl
  | fragment f => exact tell w trivial
  | presentation p => exact tell w trivial
  | skipped reason => exact tell w trivial
  | diagnosed message => exact note w _ rfl trivial rfl rfl
  | refused message reason =>
      have hdiagnosed : Adds w
          (w.note (.diagnosed ⟨index, action.id, message⟩ action.kind.tag))
          [.diagnosed ⟨index, action.id, message⟩ action.kind.tag] :=
        note w _ rfl trivial rfl rfl
      exact hdiagnosed.trans (tell _ trivial)

theorem write (w : World) (key value : String) (written : Bool) :
    Adds w ({ w with store := (w.store.set key value).2 }.note (.write key value written))
      [.write key value written] := by
  refine ⟨[.noted ⟨w.clock, w.view, .write key value written⟩], ?_,
    List.forall_mem_singleton.mpr rfl, rfl⟩
  refine .one ⟨rfl, trivial⟩ ?_ rfl rfl rfl
  simp [ledger, World.note, Ledger.after, Store.afterHappening, Queue.after,
    Happening.cancels]

end Adds

/-!
## Requests
-/

theorem Adds.noteWithHost {w decided : World} (hdecided : Aside w decided) (host : Host)
    (what : Happening) (hplain : what.isPlain = true) (hadmits : decided.ledger.Admits what)
    (hrun : what.isOfRun = true)
    (hduring : (Deed.noted ⟨decided.clock, decided.view, what⟩).isDuringRun = true) :
    Adds w ({ decided with host := host }.note what) [what] := by
  have hbefore : Adds w { decided with host := host } [] :=
    (Adds.of_aside hdecided).trans (.of_idle rfl rfl)
  exact hbefore.trans (.note _ what hplain hadmits hrun hduring)

theorem exists_answered_alert (w : World) (message : String) :
    ∃ asked, Answered w.draws.color (.alert message) (w.alert message).1 asked ∧
      Adds w (w.alert message).2 asked := by
  unfold alert
  dsimp only
  have hdecided : Aside w (decide false (w.pause 1)).2 :=
    (aside_pause 1 w).trans (aside_decide false _)
  generalize (decide false (w.pause 1)).2 = decided at hdecided
  split
  · exact ⟨[], .alertWithheld message, .of_aside hdecided⟩
  · have hshown := Adds.noteWithHost hdecided
      { decided.host with alerts := decided.host.alerts + 1 } (.alert message)
      rfl trivial rfl rfl
    split
    · exact ⟨_, .alert message .elapsed, hshown.idle (aside_pause ..)⟩
    · exact ⟨_, .alert message _, hshown.idle (aside_rest ..)⟩

theorem exists_answered_prompt (w : World) (message : String) :
    ∃ asked, Answered w.draws.color (.prompt message)
        ((w.prompt message).1, (w.prompt message).2.1) asked ∧
      Adds w (w.prompt message).2.2 asked := by
  unfold prompt
  dsimp only
  have hdecided : Aside w (decide false (w.pause 1)).2 :=
    (aside_pause 1 w).trans (aside_decide false _)
  generalize (decide false (w.pause 1)).2 = decided at hdecided
  split
  · exact ⟨[], .promptWithheld message, .of_aside hdecided⟩
  · have hshown := (Adds.noteWithHost hdecided
      { decided.host with prompts := decided.host.prompts + 1 } (.prompt message)
      rfl trivial rfl rfl).idle (aside_pause 1 _)
    split
    · exact ⟨_, .prompt message _ _, hshown.idle (aside_decide false _)⟩
    · exact ⟨_, .prompt message _ _, hshown.idle (aside_rest ..)⟩

theorem exists_answered (w : World) (r : Request) :
    ∃ asked, Answered w.draws.color r (w.ask r).1 asked ∧ Adds w (w.ask r).2 asked := by
  -- One case for each request.
  have hpaused := Adds.of_aside (aside_pause 1 w)
  cases r with
  | nothing => exact ⟨_, .nothing, .of_idle rfl rfl⟩
  | alert message => exact w.exists_answered_alert message
  | prompt message => exact w.exists_answered_prompt message
  | reload =>
      have hnoted := hpaused.trans (.note _ .reload rfl trivial rfl rfl)
      exact ⟨_, .reload, hnoted.idle (aside_pause 0 _)⟩
  | close =>
      have hnoted := Adds.noteWithHost (aside_pause 1 w)
        { (w.pause 1).host with closeRequests := (w.pause 1).host.closeRequests + 1 }
        .closeRequest rfl trivial rfl rfl
      exact ⟨_, .close _, hnoted.idle (aside_pause 0 _)⟩
  | write key value =>
      have hnoted := hpaused.trans (.write (w.pause 1) key value
        ((w.pause 1).store.set key value).1.isOk)
      exact ⟨_, .write key value _, hnoted.idle (aside_pause 0 _)⟩
  | read key =>
      have hnoted := hpaused.trans (.note _ (.read key) rfl trivial rfl rfl)
      exact ⟨_, .read key _, hnoted.idle (aside_pause 0 _)⟩
  | color => exact ⟨_, .color w.draws.colors, .of_idle rfl rfl⟩

end World

/-!
## Runs
-/

theorem exists_performedIf {P : (r : Request) → r.Answer → Prop} {w : World}
    (hw : w.isCancelled = false) {index : Nat} {action : Action} {run : Tally}
    (hanswer : P action.step.request
      ((w.begin run index action).ask action.step.request).1) :
    let performed := action.step.perform index action run (w.begin run index action)
    ∃ told, PerformedIf w.draws.color P index action run told performed.1 performed.2.1 ∧
      World.Adds w performed.2.2 told := by
  intro performed
  have hbegun : World.Adds w (w.begin run index action)
      [.event (.stepStarted run.executionId index action.id action.kind.tag)] :=
    World.Adds.tell w hw
  rcases (w.begin run index action).exists_answered action.step.request with
    ⟨asked, hanswered, hasked⟩
  rw [hbegun.colors_eq] at hanswered
  have hperform := action.step.perform_eq index action run (w.begin run index action)
  simp only [performed, hperform]
  exact ⟨_, .step hanswered hanswer, hbegun.trans (hasked.trans (World.Adds.report ..))⟩

theorem exists_performed {w : World} (hw : w.isCancelled = false) (index : Nat) (action : Action)
    (run : Tally) :
    let performed := action.step.perform index action run (w.begin run index action)
    ∃ told, Performed w.draws.color index action run told performed.1 performed.2.1 ∧
      World.Adds w performed.2.2 told :=
  exists_performedIf hw trivial

theorem exists_course (delay index : Nat) (actions : List Action) (run : Tally) (w : World) :
    ∃ hs, Course w.draws.color index actions run hs (performFrom delay index actions run w).1 ∧
      World.Adds w (performFrom delay index actions run w).2 hs := by
  induction actions generalizing index run w with
  | nil => exact ⟨_, .completed, World.Adds.tell w trivial⟩
  | cons action rest ih =>
      by_cases hcancelled : w.isCancelled = true
      · unfold performFrom
        rw [if_pos hcancelled]
        exact ⟨_, .cancelledBefore, World.Adds.tell w trivial⟩
      · have hw : w.isCancelled = false := Bool.eq_false_iff.mpr hcancelled
        rw [performFrom_cons hw]
        rcases exists_performed hw index action run with ⟨told, hstep, htold⟩
        generalize action.step.perform index action run (w.begin run index action) = performed
          at hstep htold ⊢
        rcases performed with ⟨flow, run', w₁⟩
        dsimp only at hstep htold
        have hproceeds := proceeds_proceed delay (performFrom delay (index + 1) rest) flow run' w₁
        generalize proceed delay _ (flow, run', w₁) = ran at hproceeds ⊢
        cases hproceeds with
        | @wentOn _ w₂ hflow hwaited =>
            have hhere := htold.idle (hwaited _ World.whileWaiting_aside)
            rcases ih (index + 1) run' w₂ with ⟨later, hcourse, hlater⟩
            rw [hhere.colors_eq] at hcourse
            exact ⟨_, .wentOn hstep hflow hcourse, hhere.trans hlater⟩
        | stopped =>
            refine ⟨_, .stopped hstep, ?_⟩
            rw [← hstep.executionId_eq]
            exact htold.trans (World.Adds.tell w₁ trivial)
        | @cancelled _ w₂ hflow hwaited _ =>
            have hhere := htold.idle (hwaited _ World.whileWaiting_aside)
            refine ⟨_, .cancelledDuring hstep hflow, ?_⟩
            rw [← hstep.executionId_eq]
            exact hhere.trans (World.Adds.tell w₂ trivial)
        | stuck => exact ⟨_, .stuck hstep (Or.inr rfl), htold⟩

/-- Every run takes a course. -/
theorem exists_course_execute (delay : Nat) (actions : List Action) (p : Presentation)
    (w : World) :
    ∃ hs, Course w.draws.color 0 actions (Tally.start w.drawRunId.1 p) hs
        (execute delay actions p w).1 ∧
      World.Adds w (execute delay actions p w).2
        (.event (.runStarted w.drawRunId.1 actions.length) :: hs) := by
  have hdrawn : World.Adds w w.drawRunId.2 [] := .of_idle rfl rfl
  have hstarted := hdrawn.trans
    (.tell w.drawRunId.2 (e := .runStarted w.drawRunId.1 actions.length) trivial)
  rcases exists_course delay 0 actions (Tally.start w.drawRunId.1 p) _ with ⟨hs, hcourse, hlater⟩
  rw [hstarted.colors_eq] at hcourse
  exact ⟨hs, hcourse, hstarted.trans hlater⟩

end ButtonFlow
