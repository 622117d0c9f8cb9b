import ButtonFlow.Proofs.Run.Cancelled

/-!
# What is written

A key is only written by a step that is to write it, or by the visitor. So if no such step is
performed and the visitor plans no change, then the store stays as it is.
-/

namespace ButtonFlow

/-!
## Steps that write
-/

inductive Performs (colors : Nat → Nat) (action : Action) : List Happening → Prop where
  | step {index : Nat} {run run' : Tally} {told : List Happening} {flow : Flow}
      (before after : List Happening) (hstep : Performed colors index action run told flow run') :
      Performs colors action (before ++ (told ++ after))

namespace Performs

variable {colors : Nat → Nat} {action : Action} {hs : List Happening}

theorem append_left (earlier : List Happening) (h : Performs colors action hs) :
    Performs colors action (earlier ++ hs) := by
  cases h with
  | step before after hstep =>
      rw [← List.append_assoc]
      exact .step _ after hstep

end Performs

theorem Answered.eq_of_write_mem {colors : Nat → Nat} {r : Request} {answer : r.Answer}
    {asked : List Happening} {key value : String} {written : Bool}
    (h : Answered colors r answer asked) (hmem : .write key value written ∈ asked) :
    r = .write key value := by
  cases h with
  | write key' value' result =>
      cases List.mem_singleton.mp hmem
      rfl
  | _ => simp at hmem

theorem Step.eq_of_request_write {step : Step} {key value : String}
    (h : step.request = .write key value) : step = .setStorage (some key) value := by
  unfold Step.request at h
  split at h
  all_goals
    cases h
  rfl

theorem Performed.step_of_write_mem {colors : Nat → Nat} {index : Nat} {action : Action}
    {run run' : Tally} {told : List Happening} {flow : Flow} {key value : String} {written : Bool}
    (h : Performed colors index action run told flow run')
    (hmem : .write key value written ∈ told) : action.step = .setStorage (some key) value := by
  cases h with
  | @step answer asked hanswered _ =>
      rw [List.cons_append, List.mem_cons, List.mem_append] at hmem
      rcases hmem with hstart | hasked | hreported
      · cases hstart
      · exact Step.eq_of_request_write (hanswered.eq_of_write_mem hasked)
      · exact absurd hreported (Report.write_not_mem _ _ _ _ _ _ _)

theorem Answered.exists_write {colors : Nat → Nat} {r : Request} {answer : r.Answer}
    {asked : List Happening} {key value : String} (h : Answered colors r answer asked)
    (hr : r = .write key value) : ∃ written, .write key value written ∈ asked := by
  cases h with
  | write key' value' result =>
      cases hr
      exact ⟨_, List.mem_cons_self⟩
  | _ => cases hr

/-- A step with a key is not performed without an attempt to write it. -/
theorem Performs.exists_write {colors : Nat → Nat} {action : Action} {hs : List Happening}
    {key value : String} (h : Performs colors action hs)
    (hstep : action.step = .setStorage (some key) value) :
    ∃ written, .write key value written ∈ hs := by
  cases h with
  | step before after hperformed =>
      cases hperformed with
      | step hanswered _ =>
          have hrequest : action.step.request = .write key value :=
            congrArg Step.request hstep
          rcases hanswered.exists_write hrequest with ⟨written, hwrite⟩
          refine ⟨written, List.mem_append_right _ (List.mem_append_left _ ?_)⟩
          exact List.mem_append_left _ (List.mem_cons_of_mem _ hwrite)

/-- Whatever is written, there is a step that is to write it. -/
theorem Paced.exists_performs {colors : Nat → Nat} {hs : List Happening} {key value : String}
    {written : Bool} (h : Paced colors hs) (hmem : .write key value written ∈ hs) :
    ∃ action, action.step = .setStorage (some key) value ∧ Performs colors action hs := by
  induction h with
  | nothing => cases hmem
  | @other what later _ heffect _ ih =>
      rcases List.mem_cons.mp hmem with hwrite | hlater
      · rw [← hwrite] at heffect
        cases heffect
      · rcases ih hlater with ⟨action, hstep, hperforms⟩
        exact ⟨action, hstep, hperforms.append_left [what]⟩
  | @step index action run run' told later flow hperformed _ ih =>
      rcases List.mem_append.mp hmem with htold | hlater
      · exact ⟨action, hperformed.step_of_write_mem htold, .step [] later hperformed⟩
      · rcases ih hlater with ⟨action, hstep, hperforms⟩
        exact ⟨action, hstep, hperforms.append_left told⟩

/-!
## Stores that nobody changes
-/

/-- A store that no step writes and the visitor does not change is the same afterwards. -/
theorem World.Trail.store_eq_self {w w' : World} {ds : List Deed} (h : Trail w ds w')
    (hpaced : Paced w.draws.color (ButtonFlow.doings ds))
    (hnone : ∀ (action : Action) (key value : String),
      action.step = .setStorage (some key) value →
        ¬ Performs w.draws.color action (ButtonFlow.doings ds))
    (hplan : ∀ c, some c ∉ plannedErrands w.plan) : w'.store = w.store := by
  have hchange : ∀ c, some c ∉ errands ds := by
    intro c hmem
    apply hplan c
    rw [h.errands_eq]
    exact List.mem_append_left _ hmem
  rw [h.store_eq, Store.foldl_after_eq hchange]
  apply Store.foldl_afterHappening_eq_self
  intro key value written hmem
  rcases hpaced.exists_performs hmem with ⟨action, hstep, hperforms⟩
  exact hnone action key value hstep hperforms

end ButtonFlow
