import ButtonFlow.Proofs.Run.Grammar

/-!
# The result of a run in its events

Whoever listens to the events of a run knows its result. The fragments are those that were
told, in order, and the presentation is the one that was told last. Each presentation that is
told differs from the one before in the one field that belongs to the kind of its action.
-/

namespace ButtonFlow

def Event.fragment? : Event → Option Fragment
  | .fragmentAdded _ _ f => some f
  | _ => none

def Event.presentation? : Event → Option Presentation
  | .presentationChanged _ _ p => some p
  | _ => none

/-!
## Changes of the presentation
-/

inductive Restyles (colors : Nat → Nat) (action : Action) (p : Presentation) :
    Presentation → Prop where
  | larger (hkind : action.kind = .increaseButtonSize) :
      Restyles colors action p { p with sizeSteps := p.sizeSteps + 1 }
  | colored {color : String} (hkind : action.kind = .changeButtonColor)
      (hcolor : action.config.text? "color" = some color) :
      Restyles colors action p { p with color := some color }
  | drawn (hkind : action.kind = .changeButtonColor)
      (hcolor : action.config.text? "color" = none) (number : Nat) :
      Restyles colors action p { p with color := some (colorCode (colors number)) }
  | disabled (hkind : action.kind = .disableButton) :
      Restyles colors action p { p with disabled := true }

/-- Events that lead from one presentation to another. Every change is one that the action at
its position makes. -/
inductive Restyled (colors : Nat → Nat) (actions : List Action) :
    Presentation → List Event → Presentation → Prop where
  | none (p : Presentation) : Restyled colors actions p [] p
  | other {e : Event} {told : List Event} {p q : Presentation} (he : e.presentation? = none)
      (hlater : Restyled colors actions p told q) : Restyled colors actions p (e :: told) q
  | changed {executionId : String} {index : Nat} {action : Action} {told : List Event}
      {p q r : Presentation} (haction : actions[index]? = some action)
      (hstyle : Restyles colors action p q) (hlater : Restyled colors actions q told r) :
      Restyled colors actions p (.presentationChanged executionId index q :: told) r

namespace Restyled

variable {colors : Nat → Nat} {actions : List Action} {p q r : Presentation}

theorem append {told later : List Event} (h : Restyled colors actions p told q)
    (hlater : Restyled colors actions q later r) :
    Restyled colors actions p (told ++ later) r := by
  induction h with
  | none p => exact hlater
  | other he _ ih => exact .other he (ih hlater)
  | changed haction hstyle _ ih => exact .changed haction hstyle (ih hlater)

theorem getLastD_eq {told : List Event} (h : Restyled colors actions p told q) :
    (told.filterMap Event.presentation?).getLastD p = q := by
  induction h with
  | none p => rfl
  | other he _ ih =>
      rw [List.filterMap_cons_none he]
      exact ih
  | changed _ _ _ ih =>
      simp only [List.filterMap_cons, Event.presentation?, List.getLastD_cons]
      exact ih

theorem exists_restyles {before after : List Event} {executionId : String} {index : Nat}
    (h : Restyled colors actions p
      (before ++ .presentationChanged executionId index q :: after) r) :
    ∃ action, actions[index]? = some action ∧
      Restyles colors action ((before.filterMap Event.presentation?).getLastD p) q := by
  induction before generalizing p with
  | nil =>
      cases h with
      | other he _ => cases he
      | changed haction hstyle _ => exact ⟨_, haction, hstyle⟩
  | cons e before ih =>
      cases h with
      | other he hlater =>
          rw [List.filterMap_cons_none he]
          exact ih hlater
      | changed haction hstyle hlater =>
          simp only [List.filterMap_cons, Event.presentation?, List.getLastD_cons]
          exact ih hlater

end Restyled

/-!
## Steps
-/

theorem Action.text?_of_step {action : Action} {color : Option String}
    (h : action.step = .changeButtonColor color) : action.config.text? "color" = color := by
  unfold Action.step at h
  cases hkind : action.kind <;> simp_all

theorem Step.restyles {colors : Nat → Nat} {action : Action} {p q : Presentation}
    {answer : action.step.request.Answer} {asked : List Happening}
    (hanswered : Answered colors action.step.request answer asked)
    (hreport : (action.step.react p answer).2 = .presentation q) : Restyles colors action p q := by
  have hkind := action.kind_step
  have hcolor : ∀ color, action.step = .changeButtonColor color →
      action.config.text? "color" = color := fun _ => action.text?_of_step
  generalize action.step = step at answer hanswered hreport hkind hcolor
  cases step with
  | increaseButtonSize =>
      cases hreport
      exact .larger hkind.symm
  | changeButtonColor color =>
      cases color with
      | some color =>
          cases hreport
          exact .colored hkind.symm (hcolor _ rfl)
      | none =>
          cases hanswered with
          | color number =>
              cases hreport
              exact .drawn hkind.symm (hcolor _ rfl) number
  | disableButton =>
      cases hreport
      exact .disabled hkind.symm
  | _ =>
      unfold Step.react at hreport
      split at hreport <;> simp_all

theorem Performed.replay {colors : Nat → Nat} {actions : List Action} {index : Nat}
    {action : Action} {run run' : Tally} {told : List Happening} {flow : Flow}
    (h : Performed colors index action run told flow run')
    (haction : actions[index]? = some action) :
    let events := told.filterMap Happening.event?
    run'.fragments = run.fragments ++ events.filterMap Event.fragment? ∧
      Restyled colors actions run.presentation events run'.presentation := by
  -- One case for each report.
  cases h with
  | @step answer asked hanswered =>
      rw [hanswered.events_append]
      have hstyle := @Step.restyles colors action run.presentation
      cases hreport : (action.step.react run.presentation answer).2 with
      | nothing => exact ⟨(List.append_nil _).symm, .other rfl (.none _)⟩
      | fragment f => exact ⟨rfl, .other rfl (.other rfl (.none _))⟩
      | presentation q =>
          exact ⟨(List.append_nil _).symm,
            .other rfl (.changed haction (hstyle hanswered hreport) (.none q))⟩
      | skipped reason => exact ⟨(List.append_nil _).symm, .other rfl (.other rfl (.none _))⟩
      | diagnosed message => exact ⟨(List.append_nil _).symm, .other rfl (.none _)⟩
      | refused message reason =>
          exact ⟨(List.append_nil _).symm, .other rfl (.other rfl (.none _))⟩

/-!
## Runs
-/

theorem Course.replay (all : List Action) {colors : Nat → Nat} {index : Nat}
    {actions : List Action} {run : Tally} {hs : List Happening} {outcome : Outcome RunResult}
    (h : Course colors index actions run hs outcome)
    (hall : ∀ k, all[index + k]? = actions[k]?) :
    let events := hs.filterMap Happening.event?
    ∀ r, outcome = .done r →
      r.fragments = run.fragments ++ events.filterMap Event.fragment? ∧
        Restyled colors all run.presentation events r.presentation := by
  induction h with
  | completed =>
      rintro events r ⟨⟩
      exact ⟨(List.append_nil _).symm, .other rfl (.none _)⟩
  | cancelledBefore => exact nofun
  | @wentOn index action rest run run' told later flow outcome hstep hflow hlater ih =>
      intro events r hr
      have hrest : ∀ k, all[index + 1 + k]? = rest[k]? := by
        intro k
        rw [Nat.add_assoc, Nat.add_comm 1 k, hall (k + 1), List.getElem?_cons_succ]
      rcases hstep.replay (hall 0) with ⟨hfragments, hstyled⟩
      rcases ih hrest r hr with ⟨hlaterFragments, hlaterStyled⟩
      simp only [events, List.filterMap_append]
      rw [hlaterFragments, hfragments, List.append_assoc]
      exact ⟨rfl, hstyled.append hlaterStyled⟩
  | @stopped index action rest run run' told t hstep =>
      rintro events r ⟨⟩
      rcases hstep.replay (hall 0) with ⟨hfragments, hstyled⟩
      simp only [events, List.filterMap_append]
      exact ⟨hfragments.trans (congrArg _ (List.append_nil _).symm),
        hstyled.append (.other rfl (.none _))⟩
  | cancelledDuring _ _ => exact nofun
  | stuck _ _ => exact nofun

/-- The result of every run that ends, whatever the visitor and the schedule do, is what its
events tell. -/
theorem result_eq_replay {delay : Nat} {actions : List Action} {p : Presentation} {w w' : World}
    {r : RunResult} (h : execute delay actions p w = (.done r, w')) :
    ∃ told, w'.events = w.events ++ told ∧
      r.fragments = told.filterMap Event.fragment? ∧
      r.presentation = (told.filterMap Event.presentation?).getLastD p ∧
      ∀ before after executionId index q,
        told = before ++ .presentationChanged executionId index q :: after →
        ∃ action, actions[index]? = some action ∧
          Restyles w.draws.color action ((before.filterMap Event.presentation?).getLastD p) q := by
  rcases exists_course_execute delay actions p w with ⟨hs, hcourse, hadds⟩
  rw [h] at hcourse hadds
  rcases hcourse.replay actions (fun k => by rw [Nat.zero_add]) r rfl with
    ⟨hfragments, hstyled⟩
  have hall : Restyled w.draws.color actions p
      (.runStarted w.drawRunId.1 actions.length :: hs.filterMap Happening.event?)
      r.presentation := .other rfl hstyled
  refine ⟨_, ?_, ?_, hall.getLastD_eq.symm, ?_⟩
  · rw [World.events_eq_doings, World.events_eq_doings, hadds.doings_eq, List.filterMap_append]
    rfl
  · exact hfragments
  · intro before after executionId index q htold
    rw [htold] at hall
    exact hall.exists_restyles

def restyling : List Action := [
  ⟨"a", .increaseButtonSize, .empty⟩,
  ⟨"b", .changeButtonColor, .empty⟩,
  ⟨"c", .showText, ⟨[("text", .string "Hi")]⟩⟩,
  ⟨"d", .changeButtonColor, ⟨[("color", .string "red")]⟩⟩,
  ⟨"e", .disableButton, .empty⟩,
  ⟨"f", .refreshPage, .empty⟩]

theorem result_eq_replay_restyling :
    let w := World.fresh (.memory [] Faults.none) (Host.prompt [] false) [⟨100, .set "k" "v"⟩]
    ∃ r w', execute 300 restyling ⟨3, none, false⟩ w = (.done r, w') ∧
      ∃ told, w'.events = told ∧ [.text "Hi"] = told.filterMap Event.fragment? ∧
        ⟨4, some "red", true⟩ = (told.filterMap Event.presentation?).getLastD ⟨3, none, false⟩ := by
  intro w
  have hran : (execute 300 restyling ⟨3, none, false⟩ w).1.result? =
      some ⟨"0", [.text "Hi"], ⟨4, some "red", true⟩, [], .reloaded⟩ := by
    decide +kernel
  have hdone := Outcome.eq_done_of_result? hran
  rcases result_eq_replay hdone with ⟨told, htold, hfragments, hpresentation, _⟩
  exact ⟨_, _, hdone, told, htold, hfragments, hpresentation⟩

end ButtonFlow
