import ButtonFlow.Proofs.Run.Course

/-!
# The grammar of events

A run first tells that it has started. Then its steps start one after the other, each of them
followed by at most one event about that step. If the run ever ends, it tells so last, once,
and says how.
-/

namespace ButtonFlow

/-!
## What the steps tell
-/

inductive StepReported (executionId : String) (index : Nat) (action : Action) :
    List Event → Prop where
  | nothing : StepReported executionId index action []
  | fragment (f : Fragment) :
      StepReported executionId index action [.fragmentAdded executionId index f]
  | presentation (p : Presentation) :
      StepReported executionId index action [.presentationChanged executionId index p]
  | skipped (reason : String) :
      StepReported executionId index action [.stepSkipped executionId index action.id reason]

/-- What steps tell that start one after the other, the first of them at the position
`index`. -/
inductive StepsReported (executionId : String) : Nat → List Action → List Event → Prop where
  | none (index : Nat) : StepsReported executionId index [] []
  | step {index : Nat} {action : Action} {actions : List Action} {told later : List Event}
      (hstep : StepReported executionId index action told)
      (hlater : StepsReported executionId (index + 1) actions later) :
      StepsReported executionId index (action :: actions)
        (.stepStarted executionId index action.id action.kind.tag :: told ++ later)

theorem StepsReported.executionId_eq {executionId : String} {index : Nat} {actions : List Action}
    {told : List Event} (h : StepsReported executionId index actions told) :
    ∀ e ∈ told, e.executionId = executionId := by
  induction h with
  | none index =>
      intro e he
      cases he
  | step hstep _ ih =>
      intro e he
      rw [List.cons_append, List.mem_cons, List.mem_append] at he
      rcases he with rfl | he | he
      · rfl
      · cases hstep with
        | nothing => cases he
        | fragment f =>
            rw [List.mem_singleton.mp he]
            rfl
        | presentation p =>
            rw [List.mem_singleton.mp he]
            rfl
        | skipped reason =>
            rw [List.mem_singleton.mp he]
            rfl
      · exact ih e he

theorem Answered.events_eq_nil {colors : Nat → Nat} {r : Request} {answer : r.Answer}
    {asked : List Happening} (h : Answered colors r answer asked) :
    asked.filterMap Happening.event? = [] := by
  cases h <;> rfl

theorem Answered.events_append {colors : Nat → Nat} {r : Request} {answer : r.Answer}
    {asked : List Happening} (h : Answered colors r answer asked) (e : Event)
    (reported : List Happening) :
    (.event e :: asked ++ reported).filterMap Happening.event? =
      e :: reported.filterMap Happening.event? := by
  apply congrArg (List.cons e)
  rw [List.append_eq, List.filterMap_append, h.events_eq_nil, List.nil_append]

theorem Report.reported (report : Report) (executionId : String) (index : Nat) (action : Action) :
    StepReported executionId index action
      ((report.happenings executionId index action).filterMap Happening.event?) := by
  cases report with
  | nothing => exact .nothing
  | fragment f => exact .fragment f
  | presentation p => exact .presentation p
  | skipped reason => exact .skipped reason
  | diagnosed message => exact .nothing
  | refused message reason => exact .skipped reason

theorem Performed.events_eq {colors : Nat → Nat} {index : Nat} {action : Action}
    {run run' : Tally} {told : List Happening} {flow : Flow}
    (h : Performed colors index action run told flow run') :
    ∃ reported, StepReported run.executionId index action reported ∧
      told.filterMap Happening.event? =
        .stepStarted run.executionId index action.id action.kind.tag :: reported := by
  cases h with
  | @step answer asked hanswered =>
      exact ⟨_, (action.step.react run.presentation answer).2.reported ..,
        hanswered.events_append ..⟩

/-!
## Steps that end the run
-/

theorem Step.eq_of_react_stop {p : Presentation} {step : Step} {answer : step.request.Answer}
    {t : Termination} (h : (step.react p answer).1 = .stop t) :
    (t = .reloaded ∧ step = .refreshPage) ∨ (t = .windowClosed ∧ step = .closeWindow) := by
  unfold Step.react at h
  split at h <;> simp_all

theorem Performed.kind_of_stop {colors : Nat → Nat} {index : Nat} {action : Action}
    {run run' : Tally} {told : List Happening} {t : Termination}
    (h : Performed colors index action run told (.stop t) run') :
    (t = .reloaded ∧ action.kind = .refreshPage) ∨
      (t = .windowClosed ∧ action.kind = .closeWindow) := by
  generalize hflow : Flow.stop t = flow at h
  cases h with
  | step _ =>
      rw [← action.kind_step]
      rcases Step.eq_of_react_stop hflow.symm with ⟨ht, hstep⟩ | ⟨ht, hstep⟩
      · exact Or.inl ⟨ht, congrArg Step.kind hstep⟩
      · exact Or.inr ⟨ht, congrArg Step.kind hstep⟩

/-!
## Runs
-/

def Outcome.finalEvents (executionId : String) : Outcome RunResult → List Event
  | .done r => [.runCompleted executionId r.termination]
  | .cancelled => [.runCancelled executionId]
  | .stuck => []

/-- How far a run came that ended in this way. -/
def Termination.Reached (t : Termination) (started left : List Action) : Prop :=
  match t with
  | .completed => left = []
  | .reloaded => ∃ action, started.getLast? = some action ∧ action.kind = .refreshPage
  | .windowClosed => ∃ action, started.getLast? = some action ∧ action.kind = .closeWindow

theorem Termination.Reached.cons {t : Termination} {started left : List Action}
    (h : t.Reached started left) (first : Action) : t.Reached (first :: started) left := by
  have hlast : ∀ action, started.getLast? = some action →
      (first :: started).getLast? = some action := by
    intro action haction
    rw [List.getLast?_cons, haction]
    rfl
  cases t with
  | completed => exact h
  | reloaded =>
      rcases h with ⟨action, haction, hkind⟩
      exact ⟨action, hlast action haction, hkind⟩
  | windowClosed =>
      rcases h with ⟨action, haction, hkind⟩
      exact ⟨action, hlast action haction, hkind⟩

theorem Course.events_eq {colors : Nat → Nat} {index : Nat} {actions : List Action} {run : Tally}
    {hs : List Happening} {outcome : Outcome RunResult}
    (h : Course colors index actions run hs outcome) :
    ∃ started left told, actions = started ++ left ∧
      StepsReported run.executionId index started told ∧
      hs.filterMap Happening.event? = told ++ outcome.finalEvents run.executionId ∧
      ∀ r, outcome = .done r →
        r.executionId = run.executionId ∧ r.termination.Reached started left := by
  induction h with
  | completed =>
      refine ⟨[], [], [], rfl, .none _, rfl, ?_⟩
      rintro r ⟨⟩
      exact ⟨rfl, rfl⟩
  | cancelledBefore => exact ⟨[], _, [], rfl, .none _, rfl, nofun⟩
  | @wentOn index action rest run run' told later flow outcome hstep hflow hlater ih =>
      rcases ih with ⟨started, left, reports, hactions, hreports, hevents, hdone⟩
      rcases hstep.events_eq with ⟨reported, hreported, htold⟩
      rw [hstep.executionId_eq] at hreports hevents hdone
      refine ⟨action :: started, left, _, by rw [hactions]; rfl, .step hreported hreports, ?_, ?_⟩
      · rw [List.filterMap_append, htold, hevents, List.cons_append, List.cons_append,
          List.cons_append, List.append_assoc]
      · intro r hr
        exact ⟨(hdone r hr).1, (hdone r hr).2.cons action⟩
  | @stopped index action rest run run' told t hstep =>
      rcases hstep.events_eq with ⟨reported, hreported, htold⟩
      refine ⟨[action], rest, _, rfl, .step hreported (.none _), ?_, ?_⟩
      · rw [List.filterMap_append, htold, List.append_nil]
        rfl
      · rintro r ⟨⟩
        refine ⟨hstep.executionId_eq, ?_⟩
        rcases hstep.kind_of_stop with ⟨rfl, hkind⟩ | ⟨rfl, hkind⟩
        · exact ⟨action, rfl, hkind⟩
        · exact ⟨action, rfl, hkind⟩
  | @cancelledDuring index action rest run run' told flow hstep hflow =>
      rcases hstep.events_eq with ⟨reported, hreported, htold⟩
      refine ⟨[action], rest, _, rfl, .step hreported (.none _), ?_, nofun⟩
      rw [List.filterMap_append, htold, List.append_nil]
      rfl
  | @stuck index action rest run run' told flow hstep hflow =>
      rcases hstep.events_eq with ⟨reported, hreported, htold⟩
      refine ⟨[action], rest, _, rfl, .step hreported (.none _), ?_, nofun⟩
      rw [htold, List.append_nil]
      exact (List.append_nil _).symm

/-- The events of every run that ends, whatever the visitor and the schedule do and whenever
the token is cancelled. -/
theorem events_execute {delay : Nat} {actions : List Action} {p : Presentation} {w : World}
    (hends : (execute delay actions p w).1 ≠ .stuck) :
    let ran := execute delay actions p w
    let id := w.drawRunId.1
    ∃ started left told final,
      actions = started ++ left ∧
      ran.2.events = w.events ++ (.runStarted id actions.length :: told ++ [final]) ∧
      StepsReported id 0 started told ∧
      (∀ e ∈ Event.runStarted id actions.length :: told ++ [final], e.executionId = id) ∧
      (final = .runCancelled id ↔ ran.1 = .cancelled) ∧
      (∀ t, final = .runCompleted id t ↔ ∃ r, ran.1 = .done r ∧ r.termination = t) ∧
      ∀ r, ran.1 = .done r → r.executionId = id ∧ r.termination.Reached started left := by
  intro ran id
  rcases exists_course_execute delay actions p w with ⟨hs, hcourse, hadds⟩
  rcases hcourse.events_eq with ⟨started, left, told, hactions, hsteps, hevents, hdone⟩
  change hs.filterMap Happening.event? = told ++ ran.1.finalEvents id at hevents
  have hall : ran.2.events =
      w.events ++ (.runStarted id actions.length :: told ++ ran.1.finalEvents id) := by
    rw [World.events_eq_doings, World.events_eq_doings, hadds.doings_eq, List.filterMap_append,
      List.cons_append, ← hevents]
    rfl
  have hids : ∀ final : Event, final.executionId = id →
      ∀ e ∈ Event.runStarted id actions.length :: told ++ [final], e.executionId = id := by
    intro final hfinal e he
    rw [List.cons_append, List.mem_cons, List.mem_append, List.mem_singleton] at he
    rcases he with rfl | he | rfl
    · rfl
    · exact hsteps.executionId_eq e he
    · exact hfinal
  change ran.1 ≠ .stuck at hends
  change ∀ r, ran.1 = .done r → _ at hdone
  cases houtcome : ran.1 with
  | done r =>
      rw [houtcome] at hall hdone
      refine ⟨started, left, told, _, hactions, hall, hsteps, hids _ rfl, ⟨nofun, nofun⟩, ?_, hdone⟩
      intro t
      constructor
      · rintro ⟨⟩
        exact ⟨r, rfl, rfl⟩
      · rintro ⟨r', ⟨⟩, rfl⟩
        rfl
  | cancelled =>
      rw [houtcome] at hall
      refine ⟨started, left, told, _, hactions, hall, hsteps, hids _ rfl,
        ⟨fun _ => rfl, fun _ => rfl⟩, ?_, nofun⟩
      intro t
      exact ⟨nofun, nofun⟩
  | stuck => exact (hends houtcome).elim

def questions : List Action := [
  ⟨"a", .showText, ⟨[("text", .string "Hi")]⟩⟩,
  ⟨"b", .other "mystery", .empty⟩,
  ⟨"c", .promptAndShow, .empty⟩,
  ⟨"d", .refreshPage, .empty⟩]

def unansweredWorld : World :=
  .fresh (.memory [] Faults.none) { Host.prompt [] false with promptTime := fun _ => none }
    [⟨700, .cancel⟩]

theorem events_execute_unanswered :
    let ran := execute 300 questions .initial unansweredWorld
    ran.1 = .cancelled ∧ ∃ started left told,
      questions = started ++ left ∧ StepsReported "0" 0 started told ∧
      ran.2.events = .runStarted "0" 4 :: told ++ [.runCancelled "0"] := by
  intro ran
  have hcancelled : ran.1 = .cancelled := rfl
  rcases events_execute (w := unansweredWorld) (by rw [hcancelled]; nofun) with
    ⟨started, left, told, final, hactions, hevents, hsteps, _, hfinal, _⟩
  rw [hfinal.mpr hcancelled] at hevents
  exact ⟨hcancelled, started, left, told, hactions, hsteps, hevents⟩

end ButtonFlow
