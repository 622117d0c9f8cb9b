import ButtonFlow.Proofs.Run.Replay

/-!
# What a run makes of the presentation

The presentation after a run follows from the one before, from the actions that were performed,
and from the colors that were drawn meanwhile. Each action that enlarges the button counts
once, the last color stays, and one action is enough to disable the button.
-/

namespace ButtonFlow

/-!
## Actions
-/

namespace Action

def colorsDrawn (action : Action) : Nat :=
  if action.kind = .changeButtonColor ∧ action.config.text? "color" = none then 1 else 0

/-- The color that an action gives the button, if so many colors were drawn before. -/
def paint? (colors : Nat → Nat) (drawn : Nat) (action : Action) : Option String :=
  if action.kind = .changeButtonColor then
    some ((action.config.text? "color").getD (colorCode (colors drawn)))
  else none

end Action

def paints (colors : Nat → Nat) : Nat → List Action → List String
  | _, [] => []
  | drawn, action :: actions =>
      (action.paint? colors drawn).toList ++ paints colors (drawn + action.colorsDrawn) actions

/-- What is made of a presentation when actions are performed, if so many colors were drawn
before. -/
def Presentation.restyled (colors : Nat → Nat) (drawn : Nat) (actions : List Action)
    (p : Presentation) : Presentation where
  sizeSteps := p.sizeSteps + actions.countP (·.kind = .increaseButtonSize)
  color := (paints colors drawn actions).getLast?.or p.color
  disabled := p.disabled || actions.any (·.kind = .disableButton)

namespace Presentation

variable {colors : Nat → Nat} {drawn : Nat} {action : Action} {p : Presentation}

@[simp] theorem restyled_nil (colors : Nat → Nat) (drawn : Nat) (p : Presentation) :
    p.restyled colors drawn [] = p := by
  simp [restyled, paints]

theorem restyled_cons (colors : Nat → Nat) (drawn : Nat) (action : Action) (actions : List Action)
    (p : Presentation) :
    p.restyled colors drawn (action :: actions) =
      (p.restyled colors drawn [action]).restyled colors (drawn + action.colorsDrawn) actions := by
  have hsize : (action :: actions).countP (·.kind = .increaseButtonSize) =
      [action].countP (·.kind = .increaseButtonSize) +
        actions.countP (·.kind = .increaseButtonSize) := by
    rw [← List.countP_append, List.singleton_append]
  have hcolor : (paints colors drawn (action :: actions)).getLast? =
      (paints colors (drawn + action.colorsDrawn) actions).getLast?.or
        (paints colors drawn [action]).getLast? := by
    rw [paints, List.getLast?_append]
    simp only [paints, List.append_nil]
  simp only [restyled, hsize, hcolor, List.any_cons, List.any_nil, Bool.or_false, Option.or_assoc,
    Bool.or_assoc, Nat.add_assoc]

theorem restyled_larger (hkind : action.kind = .increaseButtonSize) :
    p.restyled colors drawn [action] = { p with sizeSteps := p.sizeSteps + 1 } := by
  simp [restyled, paints, Action.paint?, hkind]

theorem restyled_disabled (hkind : action.kind = .disableButton) :
    p.restyled colors drawn [action] = { p with disabled := true } := by
  simp [restyled, paints, Action.paint?, hkind]

theorem restyled_colored (hkind : action.kind = .changeButtonColor) :
    p.restyled colors drawn [action] = { p with
      color := some ((action.config.text? "color").getD (colorCode (colors drawn))) } := by
  simp [restyled, paints, Action.paint?, hkind]

theorem restyled_other (hsize : action.kind ≠ .increaseButtonSize)
    (hcolor : action.kind ≠ .changeButtonColor) (hdisable : action.kind ≠ .disableButton) :
    p.restyled colors drawn [action] = p := by
  simp [restyled, paints, Action.paint?, hsize, hcolor, hdisable]

end Presentation

/-!
## Colors that are drawn
-/

def Request.colorsDrawn : Request → Nat
  | .color => 1
  | _ => 0

def Draws.afterColors (draws : Draws) (n : Nat) : Draws :=
  { draws with colors := draws.colors + n }

namespace World

@[simp] theorem draws_pause (effort : Nat) (w : World) : (w.pause effort).draws = w.draws :=
  whileWaiting_draws.pause effort w

theorem draws_decided (w : World) : (decide false (w.pause 1)).2.draws = w.draws :=
  (whileWaiting_draws.decide false _).trans (draws_pause 1 w)

theorem draws_alert (w : World) (message : String) : (w.alert message).2.draws = w.draws := by
  unfold alert
  dsimp only
  have hdecided := w.draws_decided
  generalize decide false (w.pause 1) = decided at hdecided ⊢
  rw [← hdecided]
  split
  · rfl
  · split
    · exact draws_pause 0 _
    · exact whileWaiting_draws.rest _ _

theorem draws_prompt (w : World) (message : String) : (w.prompt message).2.2.draws = w.draws := by
  unfold prompt
  dsimp only
  have hdecided := w.draws_decided
  generalize decide false (w.pause 1) = decided at hdecided ⊢
  rw [← hdecided]
  split
  · rfl
  · split
    · exact (whileWaiting_draws.decide false _).trans (draws_pause 1 _)
    · exact (whileWaiting_draws.rest _ _).trans (draws_pause 1 _)

theorem draws_ask (w : World) (r : Request) :
    (w.ask r).2.draws = w.draws.afterColors r.colorsDrawn := by
  cases r with
  | nothing => rfl
  | alert message => exact w.draws_alert message
  | prompt message => exact w.draws_prompt message
  | reload => exact (draws_pause 0 _).trans (draws_pause 1 w)
  | close => exact (draws_pause 0 _).trans (draws_pause 1 w)
  | write key value => exact (draws_pause 0 _).trans (draws_pause 1 w)
  | read key => exact (draws_pause 0 _).trans (draws_pause 1 w)
  | color => rfl

end World

/-!
## Steps
-/

theorem Action.colorsDrawn_request (action : Action) :
    action.step.request.colorsDrawn = action.colorsDrawn := by
  have hkind := action.kind_step
  have hcolor : ∀ color, action.step = .changeButtonColor color →
      action.config.text? "color" = color := fun _ => action.text?_of_step
  unfold Action.colorsDrawn
  generalize action.step = step at hkind hcolor
  rw [← hkind]
  cases step with
  | changeButtonColor color =>
      rw [hcolor color rfl]
      cases color with
      | none => rfl
      | some color => rfl
  | setStorage key value => cases key <;> rfl
  | getStorage key => cases key <;> rfl
  | _ => rfl

theorem Step.presentation_react {step : Step} (hsize : step.kind ≠ .increaseButtonSize)
    (hcolor : step.kind ≠ .changeButtonColor) (hdisable : step.kind ≠ .disableButton)
    (p : Presentation) (answer : step.request.Answer) (index : Nat) (action : Action)
    (run : Tally) :
    ((step.react p answer).2.tally index action run).presentation = run.presentation := by
  unfold Step.react
  split <;> first | rfl | contradiction

theorem Step.restyled_ask {step : Step} {action : Action} (hkind : action.kind = step.kind)
    (hcolor : ∀ color, step = .changeButtonColor color → action.config.text? "color" = color)
    (index : Nat) (run : Tally) (w : World) :
    ((step.react run.presentation (w.ask step.request).1).2.tally index action run).presentation =
      run.presentation.restyled w.draws.color w.draws.colors [action] := by
  cases step with
  | increaseButtonSize =>
      rw [Presentation.restyled_larger hkind]
      rfl
  | changeButtonColor color =>
      rw [Presentation.restyled_colored hkind, hcolor color rfl]
      cases color with
      | none => rfl
      | some color => rfl
  | disableButton =>
      rw [Presentation.restyled_disabled hkind]
      rfl
  | _ =>
      rw [Presentation.restyled_other]
      · apply Step.presentation_react
        · exact nofun
        · exact nofun
        · exact nofun
      · rw [hkind]
        exact nofun
      · rw [hkind]
        exact nofun
      · rw [hkind]
        exact nofun

theorem Step.restyled_perform (action : Action) (index : Nat) (run : Tally) (w : World) :
    let performed := action.step.perform index action run w
    performed.2.1.presentation =
        run.presentation.restyled w.draws.color w.draws.colors [action] ∧
      performed.2.2.draws = w.draws.afterColors action.colorsDrawn := by
  intro performed
  have hperform := action.step.perform_eq index action run w
  have hdraws := w.draws_ask action.step.request
  rw [action.colorsDrawn_request] at hdraws
  simp only [performed, hperform]
  constructor
  · exact Step.restyled_ask action.kind_step.symm (fun _ => action.text?_of_step) index run w
  · exact (World.untouched_draws.foldl_happen _ _).trans hdraws

/-!
## Runs
-/

def Event.begun? (actions : List Action) : Event → Option Action
  | .stepStarted _ index _ _ => actions[index]?
  | _ => none

theorem StepReported.begun_eq {executionId : String} {index : Nat} {action : Action}
    {told : List Event} (h : StepReported executionId index action told) (all : List Action) :
    told.filterMap (Event.begun? all) = [] := by
  cases h with
  | nothing => rfl
  | fragment f => rfl
  | presentation p => rfl
  | skipped reason => rfl

theorem Performed.begun_eq {colors : Nat → Nat} {index : Nat} {action : Action}
    {run run' : Tally} {hs : List Happening} {flow : Flow}
    (h : Performed colors index action run hs flow run') {all : List Action}
    (haction : all[index]? = some action) :
    (hs.filterMap Happening.event?).filterMap (Event.begun? all) = [action] := by
  rcases h.events_eq with ⟨reported, hreported, hevents⟩
  have hfirst : Event.begun? all
      (.stepStarted run.executionId index action.id action.kind.tag) = some action := haction
  rw [hevents, List.filterMap_cons_some hfirst, hreported.begun_eq]

theorem World.Adds.events_eq {w w' : World} {hs : List Happening} (h : World.Adds w w' hs) :
    w'.events = w.events ++ hs.filterMap Happening.event? := by
  rw [events_eq_doings, events_eq_doings, h.doings_eq, List.filterMap_append]

/-- Since `w`, the run has told of the begin of these actions, and its presentation is what
they have made of the one before. -/
def Styled (all : List Action) (w : World) (p : Presentation) (w' : World) (q : Presentation) :
    Prop :=
  ∃ told, w'.events = w.events ++ told ∧
    q = p.restyled w.draws.color w.draws.colors (told.filterMap (Event.begun? all))

theorem Styled.prepend {all : List Action} {index : Nat} {action : Action} {run run' : Tally}
    {hs : List Happening} {flow : Flow} {w w₁ w₂ w' : World} {q : Presentation}
    (haction : all[index]? = some action)
    (hstep : Performed w.draws.color index action run hs flow run') (hadds : World.Adds w w₁ hs)
    (hstyled : run'.presentation =
      run.presentation.restyled w.draws.color w.draws.colors [action])
    (hevents : w₂.events = w₁.events)
    (hdraws : w₂.draws = w.draws.afterColors action.colorsDrawn)
    (h : Styled all w₂ run'.presentation w' q) : Styled all w run.presentation w' q := by
  rcases h with ⟨told, hlater, hq⟩
  refine ⟨hs.filterMap Happening.event? ++ told, ?_, ?_⟩
  · rw [hlater, hevents, hadds.events_eq, List.append_assoc]
  · rw [hdraws, hstyled] at hq
    rw [List.filterMap_append, hstep.begun_eq haction, List.singleton_append,
      Presentation.restyled_cons]
    exact hq

theorem styled_performFrom {all : List Action} {delay index : Nat} {actions : List Action}
    {run : Tally} {w w' : World} {r : RunResult} (hall : ∀ k, all[index + k]? = actions[k]?)
    (h : performFrom delay index actions run w = (.done r, w')) :
    Styled all w run.presentation w' r.presentation := by
  induction actions generalizing index run w with
  | nil =>
      cases h
      refine ⟨_, World.Adds.events_eq (World.Adds.tell w trivial), ?_⟩
      exact (Presentation.restyled_nil ..).symm
  | cons action rest ih =>
      by_cases hcancelled : w.isCancelled = true
      · unfold performFrom at h
        rw [if_pos hcancelled] at h
        cases h
      · have hw : w.isCancelled = false := Bool.eq_false_iff.mpr hcancelled
        rw [performFrom_cons hw] at h
        rcases exists_performed hw index action run with ⟨hs, hstep, hadds⟩
        rcases Step.restyled_perform action index run (w.begin run index action) with
          ⟨hstyled, hdraws⟩
        have hbegun : (w.begin run index action).draws = w.draws := World.untouched_draws.tell w _
        rw [hbegun] at hstyled hdraws
        generalize action.step.perform index action run (w.begin run index action) = performed
          at h hstep hadds hstyled hdraws
        rcases performed with ⟨flow, run', w₁⟩
        dsimp only at hstep hadds hstyled hdraws
        have hrest : ∀ k, all[index + 1 + k]? = rest[k]? := by
          intro k
          rw [Nat.add_assoc, Nat.add_comm 1 k, hall (k + 1), List.getElem?_cons_succ]
        have hproceeds := proceeds_proceed delay (performFrom delay (index + 1) rest) flow run' w₁
        generalize proceed delay _ (flow, run', w₁) = ran at h hproceeds
        cases hproceeds with
        | wentOn _ hwaited =>
            have hevents := (hwaited _ World.whileWaiting_aside).events_eq
            have hsame := hwaited _ World.whileWaiting_draws
            exact (ih hrest h).prepend (hall 0) hstep hadds hstyled hevents (hsame.trans hdraws)
        | @stopped t =>
            cases h
            have hlast : Styled all w₁ run'.presentation
                (w₁.tell (.runCompleted run'.executionId t)) (run'.result t).presentation :=
              ⟨_, World.Adds.events_eq (World.Adds.tell w₁ trivial),
                (Presentation.restyled_nil ..).symm⟩
            exact hlast.prepend (hall 0) hstep hadds hstyled rfl hdraws
        | cancelled _ _ _ => cases h
        | stuck => cases h

/-- A run that ends has performed the actions of which it has told that they begin, and its
presentation is what they have made of the one before. -/
theorem styled_execute {delay : Nat} {actions : List Action} {p : Presentation} {w w' : World}
    {r : RunResult} (h : execute delay actions p w = (.done r, w')) :
    Styled actions w p w' r.presentation := by
  have hdrawn : World.Adds w w.drawRunId.2 [] := .of_idle rfl rfl
  have hstarted := hdrawn.trans
    (.tell w.drawRunId.2 (e := .runStarted w.drawRunId.1 actions.length) trivial)
  have hdraws := World.untouched_draws.tell w.drawRunId.2 (.runStarted w.drawRunId.1 actions.length)
  have hall : ∀ k, actions[0 + k]? = actions[k]? := by
    intro k
    rw [Nat.zero_add]
  have hperformed : Styled actions
      (w.drawRunId.2.tell (.runStarted w.drawRunId.1 actions.length)) p w' r.presentation :=
    styled_performFrom hall h
  rcases hperformed with ⟨told, hevents, hstyled⟩
  refine ⟨.runStarted w.drawRunId.1 actions.length :: told, ?_, ?_⟩
  · rw [hevents, hstarted.events_eq, List.append_assoc]
    rfl
  · rw [hdraws] at hstyled
    exact hstyled

end ButtonFlow
