import ButtonFlow.Proofs.Run.Course

/-!
# Cancelled runs

A run is only cancelled if its token is, and a token stays cancelled. What a step does stays
together: nothing else happens to the runs from its start to its last effect. So if no step
starts any more, then the effects that are still to come are those of a single step.
-/

namespace ButtonFlow

/-!
## The token
-/

namespace World

variable {w w' : World}

theorem Adds.isCancelled {hs : List Happening} (h : Adds w w' hs) (hw : w.isCancelled = true) :
    w'.isCancelled = true := by
  rcases h with ⟨ds, htrail, _, _⟩
  exact htrail.isCancelled hw

theorem isCancelled_tell {e : Event} (hw : w.isCancelled = true)
    (hadmits : w.ledger.Admits (.event e)) : (w.tell e).isCancelled = true :=
  (Adds.tell w hadmits).isCancelled hw

theorem isCancelled_of_alert (w : World) (message : String)
    (h : (w.alert message).1 = .cancelled) :
    (w.alert message).2.isCancelled = true := by
  unfold alert at h ⊢
  dsimp only at h ⊢
  generalize (decide false (w.pause 1)) = decided at h ⊢
  rcases decided with ⟨turn, w₁⟩
  dsimp only at h ⊢
  by_cases hnoticed : (w₁.isCancelled && turn.noticing) = true
  · rw [if_pos hnoticed]
    exact (Bool.and_eq_true_iff.mp hnoticed).1
  · rw [if_neg hnoticed] at h ⊢
    split at h
    · cases h
    · rename_i htime
      rw [if_neg htime]
      exact isCancelled_of_rest _ _ h

theorem isCancelled_of_prompt (w : World) (message : String)
    (h : (w.prompt message).1 = .cancelled) :
    (w.prompt message).2.2.isCancelled = true := by
  unfold prompt at h ⊢
  dsimp only at h ⊢
  generalize decide false (w.pause 1) = decided at h ⊢
  rcases decided with ⟨turn, w₁⟩
  dsimp only at h ⊢
  by_cases hnoticed : (w₁.isCancelled && turn.noticing) = true
  · rw [if_pos hnoticed]
    exact (Bool.and_eq_true_iff.mp hnoticed).1
  · rw [if_neg hnoticed] at h ⊢
    split at h
    · generalize decide false _ = answered at h ⊢
      rcases answered with ⟨turn', w₂⟩
      dsimp only at h ⊢
      by_cases hlater : (w₂.isCancelled && turn'.noticing) = true
      · exact (Bool.and_eq_true_iff.mp hlater).1
      · rw [if_neg hlater] at h
        cases h
    · exact isCancelled_of_rest _ _ h

end World

theorem Step.eq_of_react_cancelled {p : Presentation} {step : Step} {answer : step.request.Answer}
    (h : (step.react p answer).1 = .cancelled) :
    (∃ message, step = .alert message) ∨
      ∃ message before after, step = .promptAndShow message before after := by
  unfold Step.react at h
  split at h <;> simp_all

theorem Step.isCancelled_of_perform (step : Step) (index : Nat) (action : Action) (run : Tally)
    (w : World) (h : (step.perform index action run w).1 = .cancelled) :
    (step.perform index action run w).2.2.isCancelled = true := by
  have hreact := h
  rw [step.perform_eq] at hreact
  rcases eq_of_react_cancelled hreact with ⟨message, rfl⟩ | ⟨message, before, after, rfl⟩
  · have htoken := w.isCancelled_of_alert message
    unfold perform at h ⊢
    dsimp only at h ⊢
    generalize w.alert message = asked at h htoken ⊢
    rcases asked with ⟨waking, w₁⟩
    cases waking with
    | elapsed => cases h
    | cancelled => exact htoken rfl
    | never => cases h
  · have htoken := w.isCancelled_of_prompt message
    unfold perform at h ⊢
    dsimp only at h ⊢
    generalize w.prompt message = asked at h htoken ⊢
    rcases asked with ⟨waking, answer, w₁⟩
    cases waking with
    | elapsed =>
        cases answer with
        | none => cases h
        | some answer => cases h
    | cancelled => exact htoken rfl
    | never => cases h

theorem isCancelled_of_performFrom {delay index : Nat} {actions : List Action} {run : Tally}
    {w : World} (h : (performFrom delay index actions run w).1 = .cancelled) :
    (performFrom delay index actions run w).2.isCancelled = true := by
  -- The token stays cancelled while the run tells of it.
  induction actions generalizing index run w with
  | nil => cases h
  | cons action rest ih =>
      by_cases hcancelled : w.isCancelled = true
      · rw [performFrom, if_pos hcancelled]
        exact World.isCancelled_tell hcancelled trivial
      · rw [performFrom_cons (Bool.eq_false_iff.mpr hcancelled)] at h ⊢
        have htoken :=
          action.step.isCancelled_of_perform index action run (w.begin run index action)
        generalize action.step.perform index action run (w.begin run index action) = performed
          at h htoken ⊢
        rcases performed with ⟨flow, run', w₁⟩
        dsimp only at htoken
        have hproceeds := proceeds_proceed delay (performFrom delay (index + 1) rest) flow run' w₁
        generalize proceed delay _ (flow, run', w₁) = ran at h hproceeds ⊢
        cases hproceeds with
        | wentOn _ _ => exact ih h
        | stopped => cases h
        | cancelled hflow hwaited hrested =>
            rcases hflow with rfl | rfl
            · exact World.isCancelled_tell (hrested rfl) trivial
            · have hhere := World.Adds.of_aside (hwaited _ World.whileWaiting_aside)
              exact World.isCancelled_tell (hhere.isCancelled (htoken rfl)) trivial
        | stuck => cases h

theorem isCancelled_of_execute (delay : Nat) (actions : List Action) (p : Presentation)
    (w : World) (h : (execute delay actions p w).1 = .cancelled) :
    (execute delay actions p w).2.isCancelled = true :=
  isCancelled_of_performFrom h

/-!
## Steps that stay together
-/

inductive Effect where
  | alert
  | prompt
  | reload
  | closeRequest
  | read
  | write
  | diagnosis
  | fragment
  | presentation
  | skip
  deriving DecidableEq

def Happening.effect? : Happening → Option Effect
  | .alert _ => some .alert
  | .prompt _ => some .prompt
  | .reload => some .reload
  | .closeRequest => some .closeRequest
  | .read _ => some .read
  | .write .. => some .write
  | .diagnosed .. => some .diagnosis
  | .event (.fragmentAdded ..) => some .fragment
  | .event (.presentationChanged ..) => some .presentation
  | .event (.stepSkipped ..) => some .skip
  | _ => none

/-- What happens to runs, each step from its start to its last effect at a stretch. -/
inductive Paced (colors : Nat → Nat) : List Happening → Prop where
  | nothing : Paced colors []
  | other {what : Happening} {later : List Happening} (hstart : what.isStart = false)
      (heffect : what.effect? = none) (hlater : Paced colors later) : Paced colors (what :: later)
  | step {index : Nat} {action : Action} {run run' : Tally} {told later : List Happening}
      {flow : Flow} (hstep : Performed colors index action run told flow run')
      (hlater : Paced colors later) : Paced colors (told ++ later)

theorem Answered.nodup_effects {colors : Nat → Nat} {r : Request} {answer : r.Answer}
    {asked : List Happening} (h : Answered colors r answer asked) (report : Report)
    (executionId : String) (index : Nat) (action : Action) :
    ((asked ++ report.happenings executionId index action).filterMap
      Happening.effect?).Nodup := by
  cases h <;> cases report <;> simp [Report.happenings, Happening.effect?]

theorem Answered.isStart_eq_false {colors : Nat → Nat} {r : Request} {answer : r.Answer}
    {asked : List Happening} (h : Answered colors r answer asked) :
    ∀ what ∈ asked, what.isStart = false := by
  cases h <;> simp [Happening.isStart]

theorem Report.isStart_eq_false (report : Report) (executionId : String) (index : Nat)
    (action : Action) :
    ∀ what ∈ report.happenings executionId index action, what.isStart = false := by
  cases report <;> simp [happenings, Happening.isStart]

namespace PerformedIf

variable {colors : Nat → Nat} {P : (r : Request) → r.Answer → Prop} {index : Nat}
  {action : Action} {run run' : Tally} {told : List Happening} {flow : Flow}

theorem nodup_effects (h : PerformedIf colors P index action run told flow run') :
    (told.filterMap Happening.effect?).Nodup := by
  cases h with
  | step hanswered _ =>
      rw [List.cons_append, List.filterMap_cons_none rfl]
      exact hanswered.nodup_effects ..

theorem exists_start (h : PerformedIf colors P index action run told flow run') :
    ∃ later, told = .event (.stepStarted run.executionId index action.id action.kind.tag) :: later ∧
      ∀ what ∈ later, what.isStart = false := by
  cases h with
  | step hanswered _ =>
      exact ⟨_, rfl, List.forall_mem_append.mpr
        ⟨hanswered.isStart_eq_false, Report.isStart_eq_false _ _ _ _⟩⟩

end PerformedIf

namespace Paced

variable {colors : Nat → Nat} {hs hs' : List Happening}

theorem single {what : Happening} (hstart : what.isStart = false) (heffect : what.effect? = none) :
    Paced colors [what] :=
  .other hstart heffect .nothing

theorem append (h : Paced colors hs) (h' : Paced colors hs') : Paced colors (hs ++ hs') := by
  induction h with
  | nothing => exact h'
  | other hstart heffect _ ih => exact .other hstart heffect ih
  | step hstep _ ih =>
      rw [List.append_assoc]
      exact .step hstep ih

theorem effect?_eq_none (h : Paced colors hs) (hstart : ∀ what ∈ hs, what.isStart = false) :
    ∀ what ∈ hs, what.effect? = none := by
  induction h with
  | nothing => exact List.forall_mem_nil _
  | other _ heffect _ ih =>
      exact List.forall_mem_cons.mpr ⟨heffect, ih (List.forall_mem_cons.mp hstart).2⟩
  | step hstep _ _ =>
      rcases hstep.exists_start with ⟨later, rfl, _⟩
      cases hstart _ List.mem_cons_self

/-- If no step starts any more, then what is still to come of effects completes a step that had
started before. -/
theorem exists_late {before after : List Happening} (h : Paced colors (before ++ after))
    (hstart : ∀ what ∈ after, what.isStart = false) :
    ∃ late rest, after = late ++ rest ∧ (∀ what ∈ rest, what.effect? = none) ∧
      (late = [] ∨ ∃ told index action run flow run', told ≠ [] ∧ told <:+ before ∧
        Performed colors index action run (told ++ late) flow run') := by
  generalize hall : before ++ after = all at h
  induction h generalizing before with
  | nothing =>
      rcases List.append_eq_nil_iff.mp hall with ⟨rfl, rfl⟩
      exact ⟨[], [], rfl, List.forall_mem_nil _, Or.inl rfl⟩
  | @other what later hnotStart heffect hlater ih =>
      cases before with
      | nil =>
          change after = what :: later at hall
          rw [hall] at hstart ⊢
          have hpaced : Paced colors (what :: later) := .other hnotStart heffect hlater
          exact ⟨[], _, rfl, hpaced.effect?_eq_none hstart, Or.inl rfl⟩
      | cons first before =>
          injection hall with _ hall
          rcases ih hall with ⟨late, rest, hafter, hrest, hlate⟩
          refine ⟨late, rest, hafter, hrest, hlate.imp_right ?_⟩
          rintro ⟨told, index, action, run, flow, run', hsome, hsuffix, hstep⟩
          exact ⟨told, index, action, run, flow, run', hsome,
            hsuffix.trans (List.suffix_cons first before), hstep⟩
  | @step index action run run' told later flow hstep hlater ih =>
      rcases List.append_eq_append_iff.mp hall with ⟨late, htold, hafter⟩ | ⟨between, hbefore, hall⟩
      · -- The step is under way.
        rw [hafter] at hstart
        have hrest : ∀ what ∈ later, what.effect? = none :=
          hlater.effect?_eq_none (List.forall_mem_append.mp hstart).2
        refine ⟨late, later, hafter, hrest, Or.inr ?_⟩
        rw [htold] at hstep
        refine ⟨before, index, action, run, flow, run', ?_, List.suffix_refl before, hstep⟩
        rintro rfl
        rcases hstep.exists_start with ⟨_, hlate, _⟩
        rw [List.nil_append] at hlate
        rw [hlate] at hstart
        cases hstart _ List.mem_cons_self
      · rcases ih hall.symm with ⟨late, rest, hafter, hrest, hlate⟩
        refine ⟨late, rest, hafter, hrest, hlate.imp_right ?_⟩
        rintro ⟨told', index', action', run₁, flow', run₂, hsome, hsuffix, hstep'⟩
        refine ⟨told', index', action', run₁, flow', run₂, hsome, ?_, hstep'⟩
        rw [hbefore]
        exact hsuffix.trans (List.suffix_append told between)

end Paced

theorem Course.paced {colors : Nat → Nat} {index : Nat} {actions : List Action} {run : Tally}
    {hs : List Happening} {outcome : Outcome RunResult}
    (h : Course colors index actions run hs outcome) : Paced colors hs := by
  induction h with
  | completed => exact .single rfl rfl
  | cancelledBefore => exact .single rfl rfl
  | wentOn hstep _ _ ih => exact .step hstep ih
  | stopped hstep => exact .step hstep (.single rfl rfl)
  | cancelledDuring hstep _ => exact .step hstep (.single rfl rfl)
  | stuck hstep _ =>
      have hpaced := Paced.step hstep .nothing
      rwa [List.append_nil] at hpaced

end ButtonFlow
