import ButtonFlow.Proofs.Run.Calm
import ButtonFlow.Proofs.World.Quiet

/-!
# Steps in quiet worlds

In a quiet world the scene decides what comes of a request, and when. If the answer arrives
before the world ceases to be quiet, it is the one that the scene gives; if not, the wait for
it is cancelled. Here a prompt may stay open for ever.
-/

namespace ButtonFlow

namespace Scene

def AnswersBefore (ending : Nat) (r : Request) (s : Scene) : Prop :=
  r.waking (s.ask r).1 ≠ .never ∧ (s.ask r).2.clock < ending

end Scene

/-!
## Alerts and prompts
-/

namespace World
namespace Quiet

variable {ending : Option Nat} {w : World}

theorem exists_alert (h : Quiet ending w) (message : String) :
    ∃ shown : World, Quiet ending shown ∧ shown.clock = w.clock ∧
      (∀ time, shown.scene.atTime time = (w.scene.alert message).atTime time) ∧
      w.alert message =
        if w.host.alertTime w.host.alerts = 0 then (.elapsed, shown.pause 0)
        else shown.rest (some (w.clock + w.host.alertTime w.host.alerts)) := by
  have hdecided := (h.pause 1).decide false
  have hscene : (World.decide false (w.pause 1)).2.scene = w.scene := h.scene_pause 1
  unfold World.alert
  dsimp only
  generalize (World.decide false (w.pause 1)).2 = decided at hdecided hscene
  have hhost : decided.host = w.host := congrArg Scene.host hscene
  have hclock : decided.clock = w.clock := congrArg Scene.clock hscene
  rw [if_neg (by simp [hdecided.notCancelled]), hhost]
  have hshown := (hdecided.withHost { w.host with alerts := w.host.alerts + 1 }).note
    (.alert message)
  refine ⟨_, hshown, hclock, ?_, ?_⟩
  · intro time
    rw [scene_note _ rfl]
    unfold Scene.alert
    rw [← hscene, ← hhost]
    rfl
  · rw [← hclock]
    rfl

theorem exists_prompt (h : Quiet ending w) (message : String) :
    ∃ asked : World, Quiet ending asked ∧ asked.clock = w.clock ∧
      (∀ time, asked.scene.atTime time = (w.scene.prompt message).2.atTime time) ∧
      w.prompt message =
        match w.host.promptTime w.host.prompts with
        | some 0 => (.elapsed, (w.scene.prompt message).1, (asked.decide false).2)
        | time =>
            let rested := asked.rest (time.map (w.clock + ·))
            (rested.1, (w.scene.prompt message).1, rested.2) := by
  have hdecided := (h.pause 1).decide false
  have hscene : (World.decide false (w.pause 1)).2.scene = w.scene := h.scene_pause 1
  unfold World.prompt
  dsimp only
  generalize (World.decide false (w.pause 1)).2 = decided at hdecided hscene
  have hhost : decided.host = w.host := congrArg Scene.host hscene
  rw [if_neg (by simp [hdecided.notCancelled]), hhost]
  have hnoted := (hdecided.withHost { w.host with prompts := w.host.prompts + 1 }).note
    (.prompt message)
  have hasked := hnoted.pause 1
  have hpaused := hnoted.scene_pause 1
  generalize World.pause 1 _ = asked at hasked hpaused ⊢
  have hclock : asked.clock = w.clock :=
    (congrArg Scene.clock hpaused).trans (congrArg Scene.clock hscene)
  refine ⟨asked, hasked, hclock, ?_, ?_⟩
  · intro time
    rw [hpaused, scene_note _ rfl]
    unfold Scene.prompt
    rw [← hscene, ← hhost]
    rfl
  · have htime : asked.host.promptTime = w.host.promptTime :=
      congrArg (fun s : Scene => s.host.promptTime) hpaused
    rw [hclock, htime, if_neg (by simp [(hasked.decide false).notCancelled])]
    rfl

theorem alert_before (h : Quiet ending w) (message : String)
    (hbefore : ∀ time ∈ ending, (w.scene.alert message).clock < time) :
    (w.alert message).1 = .elapsed ∧ Quiet ending (w.alert message).2 ∧
      (w.alert message).2.scene = w.scene.alert message := by
  rcases h.exists_alert message with ⟨shown, hshown, hclock, hscene, halert⟩
  have hlast : shown.scene.atTime (w.clock + w.host.alertTime w.host.alerts) =
      w.scene.alert message := hscene _
  rw [halert]
  split
  · rename_i hzero
    rw [hzero, Nat.add_zero, ← hclock] at hlast
    exact ⟨rfl, hshown.pause 0, (hshown.scene_pause 0).trans hlast⟩
  · have hnow : shown.clock ≤ w.clock + w.host.alertTime w.host.alerts := by
      rw [hclock]
      exact Nat.le_add_right _ _
    rcases hshown.exists_rest hnow hbefore with ⟨w', hrest, hquiet, hrested⟩
    rw [hrest]
    exact ⟨rfl, hquiet, hrested.trans hlast⟩

theorem prompt_before (h : Quiet ending w) (message : String)
    (hanswered : ∀ time ∈ ending, (w.host.promptTime w.host.prompts).isSome = true)
    (hbefore : ∀ time ∈ ending, (w.scene.prompt message).2.clock < time) :
    ∃ w', w.prompt message =
        (if (w.host.promptTime w.host.prompts).isSome then .elapsed else .never,
          (w.scene.prompt message).1, w') ∧
      Quiet ending w' ∧ w'.scene = (w.scene.prompt message).2 := by
  rcases h.exists_prompt message with ⟨asked, hasked, hclock, hscene, hprompt⟩
  have hlast : asked.scene.atTime (w.clock + (w.host.promptTime w.host.prompts).getD 0) =
      (w.scene.prompt message).2 := hscene _
  have hdue : ∀ time ∈ ending, w.clock + (w.host.promptTime w.host.prompts).getD 0 < time := hbefore
  rw [hprompt]
  cases htime : w.host.promptTime w.host.prompts with
  | none =>
      rw [htime] at hanswered hlast
      cases ending with
      | some time => exact absurd (hanswered time rfl) nofun
      | none =>
          have hrest := hasked.rest_none
          refine ⟨asked, ?_, hasked, ?_⟩
          · simp only [Option.map_none, hrest]
            rfl
          · rw [← hlast, Option.getD_none, Nat.add_zero, ← hclock]
            rfl
  | some time =>
      rw [htime] at hlast hdue
      cases time with
      | zero =>
          refine ⟨(asked.decide false).2, rfl, hasked.decide false, ?_⟩
          rw [← hlast, Option.getD_some, Nat.add_zero, ← hclock]
          rfl
      | succ time =>
          have hnow : asked.clock ≤ w.clock + (time + 1) := by
            rw [hclock]
            exact Nat.le_add_right _ _
          rcases hasked.exists_rest hnow hdue with ⟨w', hrest, hquiet, hrested⟩
          refine ⟨w', ?_, hquiet, hrested.trans hlast⟩
          simp only [Option.map_some, hrest]
          rfl

theorem alert_cut {ending : Nat} (h : Quiet (some ending) w) (message : String)
    (hlate : ending < (w.scene.alert message).clock) :
    ∃ w', w.alert message = (.cancelled, w') ∧
      w'.scene = (w.scene.alert message).atTime ending := by
  rcases h.exists_alert message with ⟨shown, hshown, hclock, hscene, halert⟩
  have hdue : ∀ time ∈ some (w.clock + w.host.alertTime w.host.alerts), ending < time := by
    rintro time ⟨⟩
    exact hlate
  have hlong : w.host.alertTime w.host.alerts ≠ 0 := by
    intro hzero
    have hnow := h.before ending rfl
    have hend := hdue _ rfl
    omega
  rcases hshown.exists_rest_cut hdue with ⟨w', hrest, hrested⟩
  refine ⟨w', ?_, hrested.trans (hscene ending)⟩
  rw [halert, if_neg hlong, hrest]

theorem prompt_cut {ending : Nat} (h : Quiet (some ending) w) (message : String)
    (hlate : ∀ time ∈ w.host.promptTime w.host.prompts, ending < w.clock + time) :
    ∃ w', w.prompt message = (.cancelled, (w.scene.prompt message).1, w') ∧
      w'.scene = (w.scene.prompt message).2.atTime ending := by
  rcases h.exists_prompt message with ⟨asked, hasked, hclock, hscene, hprompt⟩
  have hdue : ∀ time ∈ (w.host.promptTime w.host.prompts).map (w.clock + ·), ending < time := by
    intro time htime
    rcases Option.map_eq_some_iff.mp htime with ⟨length, hlength, rfl⟩
    exact hlate length hlength
  rcases hasked.exists_rest_cut hdue with ⟨w', hrest, hrested⟩
  refine ⟨w', ?_, hrested.trans (hscene ending)⟩
  rw [hprompt]
  split
  · rename_i hzero
    exact absurd (hlate 0 hzero) (Nat.lt_asymm (h.before ending rfl))
  · simp only [hrest]

/-!
## Requests
-/

theorem note_pause (h : Quiet ending w) {what : Happening} (hwhat : what.isOfRun = true) :
    Quiet ending ((w.note what).pause 0) ∧
      ((w.note what).pause 0).scene = w.scene.note what :=
  ⟨(h.note what).pause 0, ((h.note what).scene_pause 0).trans (w.scene_note hwhat)⟩

/-- The answer of the scene, if it arrives in time. -/
theorem ask_before (h : Quiet ending w) {r : Request}
    (hbefore : ∀ time ∈ ending, w.scene.AnswersBefore time r) :
    (w.ask r).1 = (w.scene.ask r).1 ∧ Quiet ending (w.ask r).2 ∧
      (w.ask r).2.scene = (w.scene.ask r).2 := by
  have hpaused := h.pause 1
  have hscene := h.scene_pause 1
  cases r with
  | nothing => exact ⟨rfl, h, rfl⟩
  | alert message => exact h.alert_before message fun time htime => (hbefore time htime).2
  | prompt message =>
      have hanswered : ∀ time ∈ ending, (w.host.promptTime w.host.prompts).isSome = true := by
        intro time htime
        apply Decidable.byContradiction
        intro hnever
        exact (hbefore time htime).1 (if_neg hnever)
      rcases h.prompt_before message hanswered (fun time htime => (hbefore time htime).2) with
        ⟨w', hprompt, hquiet, hlast⟩
      simp only [World.ask, hprompt]
      exact ⟨rfl, hquiet, hlast⟩
  | reload =>
      unfold World.ask Scene.ask
      rw [← hscene]
      exact ⟨rfl, hpaused.note_pause rfl⟩
  | close =>
      unfold World.ask Scene.ask
      rw [← hscene]
      exact ⟨rfl, (hpaused.withHost _).note_pause rfl⟩
  | write key value =>
      unfold World.ask Scene.ask
      rw [← hscene]
      exact ⟨rfl, (hpaused.withStore _).note_pause rfl⟩
  | read key =>
      unfold World.ask Scene.ask
      rw [← hscene]
      exact ⟨rfl, hpaused.note_pause rfl⟩
  | color => exact ⟨rfl, h.withDraws _, rfl⟩

/-- If the answer of the scene would arrive later, the wait for it is cancelled. -/
theorem ask_cut {ending : Nat} (h : Quiet (some ending) w) {r : Request}
    (hlate : r.waking (w.scene.ask r).1 = .never ∨ ending < (w.scene.ask r).2.clock) :
    r.waking (w.ask r).1 = .cancelled ∧
      (w.ask r).2.scene = (w.scene.ask r).2.atTime ending := by
  have hatOnce : ∀ {P : Prop}, World.Waking.elapsed = .never ∨ ending < w.clock → P := by
    rintro P (hnever | hover)
    · cases hnever
    · exact absurd hover (Nat.lt_asymm (h.before ending rfl))
  cases r with
  | alert message =>
      have hover : ending < (w.scene.alert message).clock := by
        rcases hlate with hnever | hover
        · cases hnever
        · exact hover
      rcases h.alert_cut message hover with ⟨w', halert, hscene⟩
      simp only [World.ask, halert]
      exact ⟨rfl, hscene⟩
  | prompt message =>
      have hover : ∀ time ∈ w.host.promptTime w.host.prompts, ending < w.clock + time := by
        intro time htime
        change (if (w.host.promptTime w.host.prompts).isSome then World.Waking.elapsed else .never)
          = .never ∨ ending < w.clock + (w.host.promptTime w.host.prompts).getD 0 at hlate
        rw [Option.mem_def.mp htime] at hlate
        simpa using hlate
      rcases h.prompt_cut message hover with ⟨w', hprompt, hscene⟩
      simp only [World.ask, hprompt]
      exact ⟨rfl, hscene⟩
  | nothing => exact hatOnce hlate
  | reload => exact hatOnce hlate
  | close => exact hatOnce hlate
  | write key value => exact hatOnce hlate
  | read key => exact hatOnce hlate
  | color => exact hatOnce hlate

end Quiet
end World

/-!
## Steps
-/

namespace World

theorem scene_happen (w : World) {what : Happening} (hwhat : what.isOfRun = true) :
    (w.happen what).scene = w.scene.note what := by
  cases what with
  | event e => exact w.scene_tell e
  | _ => exact w.scene_note hwhat

namespace Quiet

variable {ending : Option Nat} {w : World}

theorem happen (h : Quiet ending w) (what : Happening) : Quiet ending (w.happen what) := by
  cases what with
  | event e => exact h.tell e
  | _ => exact h.note _

theorem foldl_happen (h : Quiet ending w) (hs : List Happening)
    (hrun : ∀ what ∈ hs, what.isOfRun = true) :
    Quiet ending (hs.foldl World.happen w) ∧
      (hs.foldl World.happen w).scene = hs.foldl Scene.note w.scene := by
  induction hs generalizing w with
  | nil => exact ⟨h, rfl⟩
  | cons what hs ih =>
      have hlater := ih (h.happen what) fun other hother =>
        hrun other (List.mem_cons_of_mem _ hother)
      rw [scene_happen w (hrun what (List.mem_cons_self ..))] at hlater
      exact hlater

theorem exists_perform (h : Quiet ending w) (step : Step)
    (hbefore : ∀ time ∈ ending, w.scene.AnswersBefore time step.request) (index : Nat)
    (action : Action) (run : Tally) :
    let asked := w.scene.ask step.request
    let reaction := step.react run.presentation asked.1
    ∃ w', step.perform index action run w =
        (reaction.1, reaction.2.tally index action run, w') ∧
      Quiet ending w' ∧
      w'.scene = (reaction.2.happenings run.executionId index action).foldl Scene.note asked.2 := by
  intro asked reaction
  rcases h.ask_before hbefore with ⟨hanswer, hquiet, hscene⟩
  have hreported := hquiet.foldl_happen
    (reaction.2.happenings run.executionId index action) fun _ => Report.isOfRun_of_mem
  rw [hscene] at hreported
  refine ⟨_, ?_, hreported⟩
  rw [step.perform_eq]
  dsimp only
  rw [hanswer]

theorem exists_perform_cut {ending : Nat} (h : Quiet (some ending) w) (step : Step)
    (hlate : step.request.waking (w.scene.ask step.request).1 = .never ∨
      ending < (w.scene.ask step.request).2.clock) (index : Nat) (action : Action) (run : Tally) :
    ∃ w', step.perform index action run w = (.cancelled, run, w') ∧
      w'.scene = (w.scene.ask step.request).2.atTime ending := by
  rcases h.ask_cut hlate with ⟨hanswer, hscene⟩
  refine ⟨_, ?_, hscene⟩
  rw [step.perform_eq]
  dsimp only
  rw [Step.react_of_cancelled hanswer]
  rfl

end Quiet
end World

end ButtonFlow
