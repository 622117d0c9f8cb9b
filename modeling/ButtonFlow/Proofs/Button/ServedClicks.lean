import ButtonFlow.Proofs.Button.Calm

/-!
# A session serves the clicks that are queued

A visitor queues clicks, as many as there is room for, and then lets go of the button. Whatever
the schedule decides, the session takes every click, one at a time, until a run closes the
window. So the runs see what they would see if the clicks were performed directly, one after
the other.
-/

namespace ButtonFlow

/-!
## A visitor who clicks
-/

/-- A visitor who clicks and then lets go of the button. So many clicks are still to be taken,
those that wait and those that are planned. -/
inductive Clicking (n : Nat) : List Cue → Queue → Prop where
  | clicking {waiting times capacity : Nat} (hn : waiting + times = n) (hcapacity : 1 ≤ capacity) :
      Clicking n [⟨0, .click times⟩, ⟨0, .leave⟩] ⟨waiting, capacity, true, true⟩
  | leaving {capacity : Nat} : Clicking n [⟨0, .leave⟩] ⟨n, capacity, true, true⟩
  | gone {capacity : Nat} : Clicking n [] ⟨n, capacity, true, false⟩

def ReadyClicking (n : Nat) (plan : List Cue) (queue : Queue) : Prop :=
  Clicking n plan queue ∧ (0 < queue.waiting ∨ queue.held = false)

namespace World
namespace Shows

variable {n : Nat} {s : Scene} {w w' : World}

theorem clicking_act? (h : Shows (Clicking n) s w) (hact : w.act? = some w') :
    Shows (Clicking n) s w' := by
  rcases exists_acts hact with ⟨cue, later, hplan, _, hacts⟩
  have hvisitor := h.visitor
  have hscene := h.scene_eq
  rw [hplan] at hvisitor
  generalize hqueue : w.queue = queue at hvisitor
  cases hvisitor with
  | clicking hn hcapacity =>
      cases hacts with
      | clicked =>
          refine h.change hscene rfl rfl rfl ?_
          change Clicking n [⟨0, .leave⟩] w.queue
          rw [hqueue, ← hn]
          exact .leaving
      | gone hheld =>
          rw [hqueue] at hheld
          cases hheld
      | refused _ hopen =>
          rw [hqueue] at hopen
          cases hopen
      | @queued _ times _ _ _ =>
          refine h.change hscene rfl rfl rfl ?_
          simp only [World.note, advanced, hqueue]
          cases times with
          | zero =>
              rw [← hn]
              exact .leaving
          | succ times =>
              refine .clicking ?_ hcapacity
              omega
  | leaving =>
      cases hacts
      refine h.change hscene rfl rfl rfl ?_
      simp only [World.note, advanced, hqueue]
      exact .gone

theorem imp {V V' : List Cue → Queue → Prop} (h : Shows V s w)
    (himp : V w.plan w.queue → V' w.plan w.queue) : Shows V' s w :=
  h.change h.scene_eq rfl rfl rfl (himp h.visitor)

end Shows

theorem harmless_clicking (n : Nat) : Harmless (Clicking n) :=
  fun _ _ _ h hact => h.clicking_act? hact

theorem harmless_readyClicking (n : Nat) : Harmless (ReadyClicking n) := by
  intro s w w' h hact
  have hclicking : Shows (Clicking n) s w := h.imp And.left
  have hkept := queue_act? hact
  apply (hclicking.clicking_act? hact).imp
  intro hafter
  refine ⟨hafter, ?_⟩
  rcases h.visitor.2 with hsome | hgone
  · exact Or.inl (Nat.lt_of_lt_of_le hsome hkept.1)
  · exact Or.inr (hkept.2 hgone)

/-!
## Waiting for a click
-/

namespace Shows

variable {n : Nat} {s : Scene} {w w' : World}

theorem hasWork_iff {V : List Cue → Queue → Prop} (h : Shows V s w) :
    w.hasWork = true ↔ 0 < w.queue.waiting ∨ w.queue.held = false := by
  simp [hasWork, h.notCancelled]

/-- There is always room for a click when none waits. -/
theorem nextAct?_of_not_hasWork (h : Shows (Clicking n) s w) (hwork : ¬ w.hasWork = true) :
    w.nextAct? = some s.clock := by
  rw [h.hasWork_iff] at hwork
  have hvisitor := h.visitor
  unfold nextAct?
  rw [h.clock_eq]
  generalize w.plan = plan at hvisitor ⊢
  generalize w.queue = queue at hvisitor hwork ⊢
  cases hvisitor with
  | clicking hn hcapacity =>
      rename_i waiting times capacity
      cases times with
      | zero => exact congrArg some (Nat.max_zero _)
      | succ times =>
          have hroom : ¬ capacity ≤ waiting := fun hfull =>
            hwork (Or.inl (Nat.lt_of_lt_of_le hcapacity hfull))
          simp only [hroom, decide_false, Bool.and_false, Bool.false_eq_true, if_false,
            Nat.max_zero]
  | leaving => exact congrArg some (Nat.max_zero _)
  | gone => exact (hwork (Or.inr rfl)).elim

theorem exists_pass_hasWork (fuel : Nat) {w : World} (h : Shows (Clicking n) s w)
    (hfuel : planSize w.plan < fuel) :
    ∃ w', pass hasWork none fuel w = some w' ∧ Shows (ReadyClicking n) s w' := by
  -- As long as there is no work, the visitor queues a click or lets go.
  induction fuel generalizing w with
  | zero => exact absurd hfuel (Nat.not_lt_zero _)
  | succ fuel ih =>
      unfold pass
      by_cases hwork : w.hasWork = true
      · rw [if_pos hwork]
        exact ⟨w, rfl, h.imp fun hclicking => ⟨hclicking, h.hasWork_iff.mp hwork⟩⟩
      · rw [if_neg hwork]
        have hnext := h.nextAct?_of_not_hasWork hwork
        rcases h.exists_actAt (harmless_clicking n) hnext with ⟨acted, hacted, hshows, hsize⟩
        have hfewer : planSize acted.plan < fuel :=
          Nat.lt_of_lt_of_le hsize (Nat.le_of_lt_succ hfuel)
        rcases ih hshows hfewer with ⟨after, hafter, hready⟩
        refine ⟨after, ?_, hready⟩
        simp only [hnext, hacted, hafter]

theorem exists_waitUntil_hasWork (h : Shows (Clicking n) s w) :
    ∃ w', w.waitUntil hasWork none = some w' ∧ Shows (ReadyClicking n) s w' := by
  have hready := harmless_readyClicking n
  unfold waitUntil
  by_cases hwork : w.hasWork = true
  · have hnow : Shows (ReadyClicking n) s w :=
      h.imp fun hclicking => ⟨hclicking, h.hasWork_iff.mp hwork⟩
    simp only [hwork, Bool.true_or, if_true]
    exact ⟨_, rfl, hnow.pause hready 1⟩
  · rcases h.exists_pass_hasWork (planSize w.plan + 1) (Nat.lt_succ_self _) with
      ⟨passed, hpassed, hshows⟩
    simp only [hwork, Option.any_none, Bool.or_false, Bool.false_eq_true, if_false, hpassed]
    exact ⟨_, rfl, (hshows.giveWay hready true).exertRuns 1⟩

theorem takeClick (h : Shows (ReadyClicking (n + 1)) s w) :
    0 < w.queue.waiting ∧ Shows (Clicking n) s w.takeClick := by
  have hvisitor := h.visitor
  generalize hplan : w.plan = plan at hvisitor
  generalize hqueue : w.queue = queue at hvisitor
  rcases hvisitor with ⟨hclicking, hwork⟩
  cases hclicking with
  | clicking hn hcapacity =>
      rename_i waiting times capacity
      have hsome : 0 < waiting := by simpa using hwork
      refine ⟨hsome, h.change h.scene_eq rfl rfl rfl ?_⟩
      simp only [World.takeClick, World.note, hplan, hqueue]
      exact .clicking (by omega) hcapacity
  | leaving =>
      refine ⟨Nat.succ_pos n, h.change h.scene_eq rfl rfl rfl ?_⟩
      simp only [World.takeClick, World.note, hplan, hqueue]
      exact .leaving
  | gone =>
      refine ⟨Nat.succ_pos n, h.change h.scene_eq rfl rfl rfl ?_⟩
      simp only [World.takeClick, World.note, hplan, hqueue]
      exact .gone

theorem waiting_eq_zero (h : Shows (ReadyClicking 0) s w) : w.queue.waiting = 0 := by
  rcases h.visitor with ⟨hclicking, _⟩
  generalize w.plan = plan at hclicking
  generalize w.queue = queue at hclicking ⊢
  cases hclicking with
  | clicking hn _ => exact (Nat.add_eq_zero_iff.mp hn).1
  | leaving => rfl
  | gone => rfl

end Shows
end World

/-!
## Serving clicks
-/

namespace Session

open World

variable {V : List Cue → Queue → Prop} {n : Nat} {s : Scene} {w : World}

theorem exists_next?_zero (h : Shows (Clicking 0) s w) :
    ∃ w', next? w = some (.leave, w') ∧ Shows (Clicking 0) s w' := by
  rcases h.exists_waitUntil_hasWork with ⟨ready, hready, hshows⟩
  have hdecided := hshows.decide false
  unfold next?
  rw [hready]
  dsimp only
  generalize (World.decide false ready).2 = decided at hdecided ⊢
  rw [if_neg (by simp [hdecided.notCancelled]), if_neg (by simp [hdecided.waiting_eq_zero])]
  exact ⟨decided, rfl, hdecided.imp And.left⟩

theorem exists_next?_succ (h : Shows (Clicking (n + 1)) s w) :
    ∃ w', next? w = some (.click, w') ∧ Shows (Clicking n) s w' := by
  rcases h.exists_waitUntil_hasWork with ⟨ready, hready, hshows⟩
  have hdecided := hshows.decide false
  unfold next?
  rw [hready]
  dsimp only
  generalize (World.decide false ready).2 = decided at hdecided ⊢
  rcases hdecided.takeClick with ⟨hsome, htaken⟩
  rw [if_neg (by simp [hdecided.notCancelled]), if_pos hsome]
  exact ⟨_, rfl, htaken⟩

theorem exists_serve (hV : Harmless V) (n : Nat) {fuel : Nat} {b : Button} {w v : World}
    (h : Together (Clicking n) V w v) (hfuel : n < fuel) :
    ∃ b' w' v' m, serve fuel b w = (true, b', w') ∧ b.clicks n v = some (b', v') ∧
      Together (Clicking m) V w' v' := by
  -- Every round takes one of the clicks that are still to be taken.
  induction fuel generalizing n b w v with
  | zero => exact absurd hfuel (Nat.not_lt_zero _)
  | succ fuel ih =>
      rcases h with ⟨h, h'⟩
      cases n with
      | zero =>
          rcases exists_next?_zero h with ⟨w', hnext, hshows⟩
          refine ⟨b, w', v, 0, ?_, rfl, .showing hshows h'⟩
          rw [serve, hnext]
      | succ n =>
          rcases exists_next?_succ h with ⟨taken, hnext, htaken⟩
          have htogether : Together (Clicking n) V taken v := .showing htaken h'
          rcases htogether.exists_click (harmless_clicking n) hV b with
            ⟨outcome, b', w₁, v₁, hclick, hclick', houtcome, hclicked⟩
          have hfewer : n < fuel := Nat.lt_of_succ_lt_succ hfuel
          unfold serve Button.clicks
          rw [hnext, hclick']
          dsimp only
          rw [hclick]
          rcases houtcome with rfl | ⟨result, rfl⟩
          · exact ih n hclicked hfewer
          · dsimp only
            by_cases hclosed : result.termination = .windowClosed
            · rw [if_pos hclosed, if_pos hclosed]
              exact ⟨b', w₁, v₁, n, rfl, rfl, hclicked⟩
            · rw [if_neg hclosed, if_neg hclosed]
              exact ih n hclicked hfewer

theorem rounds_eq (h : Shows (Clicking n) s w) : rounds w = n + 1 := by
  have hvisitor := h.visitor
  unfold rounds
  generalize w.plan = plan at hvisitor ⊢
  generalize w.queue = queue at hvisitor ⊢
  cases hvisitor with
  | clicking hn _ => exact congrArg Nat.succ hn
  | leaving => rfl
  | gone => rfl

end Session

/-!
## After the session
-/

inductive Refused : List Cue → Queue → Prop where
  | clicking {times : Nat} {queue : Queue} (hclosed : queue.isOpen = false) :
      Refused [⟨0, .click times⟩, ⟨0, .leave⟩] queue
  | leaving {queue : Queue} (hclosed : queue.isOpen = false) : Refused [⟨0, .leave⟩] queue
  | gone {queue : Queue} (hclosed : queue.isOpen = false) : Refused [] queue

namespace World

theorem harmless_refused : Harmless Refused := by
  intro s w w' h hact
  rcases exists_acts hact with ⟨cue, later, hplan, _, hacts⟩
  have hvisitor := h.visitor
  have hscene := h.scene_eq
  rw [hplan] at hvisitor
  cases hvisitor with
  | clicking hclosed =>
      cases hacts with
      | queued _ hopen _ => exact absurd (hclosed.symm.trans hopen) Bool.false_ne_true
      | _ => exact h.change hscene rfl rfl rfl (.leaving hclosed)
  | leaving hclosed =>
      cases hacts
      exact h.change hscene rfl rfl rfl (.gone hclosed)

theorem harmless_idle (queue : Queue) :
    Harmless fun plan other => plan = [] ∧ other = queue := by
  intro s w w' h hact
  rw [act?, h.visitor.1] at hact
  cases hact

namespace Shows

variable {s : Scene} {w : World}

theorem closeQueue {n : Nat} (h : Shows (Clicking n) s w) : Shows Refused s w.closeQueue := by
  have hvisitor := h.visitor
  refine h.change h.scene_eq rfl rfl rfl ?_
  simp only [World.closeQueue, World.note]
  generalize w.plan = plan at hvisitor ⊢
  generalize w.queue = queue at hvisitor ⊢
  cases hvisitor with
  | clicking _ _ => exact .clicking rfl
  | leaving => exact .leaving rfl
  | gone => exact .gone rfl

theorem nextAct?_of_refused (h : Shows Refused s w) (hplan : w.plan ≠ []) :
    w.nextAct? = some s.clock := by
  have hvisitor := h.visitor
  unfold nextAct?
  rw [h.clock_eq]
  generalize w.plan = plan at hvisitor hplan ⊢
  generalize w.queue = queue at hvisitor ⊢
  cases hvisitor with
  | clicking hclosed =>
      rename_i times
      cases times with
      | zero => exact congrArg some (Nat.max_zero _)
      | succ times =>
          simp only [hclosed, Bool.and_false, Bool.false_and, Bool.false_eq_true, if_false,
            Nat.max_zero]
  | leaving => exact congrArg some (Nat.max_zero _)
  | gone => exact (hplan rfl).elim

theorem playOut (fuel : Nat) {w : World} (h : Shows Refused s w)
    (hfuel : planSize w.plan < fuel) :
    Shows Refused s (w.playOut fuel) ∧ (w.playOut fuel).plan = [] := by
  -- Every click is refused, and the visitor lets go.
  induction fuel generalizing w with
  | zero => exact absurd hfuel (Nat.not_lt_zero _)
  | succ fuel ih =>
      unfold World.playOut
      by_cases hplan : w.plan = []
      · have hnext : w.nextAct? = none := by
          rw [nextAct?, hplan]
        rw [hnext]
        exact ⟨h, hplan⟩
      · have hnext := h.nextAct?_of_refused hplan
        rcases h.exists_actAt harmless_refused hnext with ⟨acted, hacted, hshows, hsize⟩
        rw [hnext]
        dsimp only
        rw [hacted]
        exact ih hshows (Nat.lt_of_lt_of_le hsize (Nat.le_of_lt_succ hfuel))

end Shows
end World

/-!
## The session and the direct clicks
-/

namespace Session

open World

theorem exists_run {V : List Cue → Queue → Prop} (hV : Harmless V) {n : Nat} {w v : World}
    (b : Button) (h : Together (Clicking n) V w v) :
    ∃ b' w' v', run b w = (true, b', w') ∧ b.clicks n v = some (b', v') ∧
      Together Refused V w' v' := by
  rcases h with ⟨h, h'⟩
  have hbegun := h.giveWay (harmless_clicking n) true
  have hfuel : n < rounds (w.giveWay true) := by
    rw [rounds_eq hbegun]
    exact Nat.lt_succ_self n
  rcases exists_serve hV n (.showing hbegun h') hfuel with
    ⟨b', served, v', m, hserve, hclicks, ⟨hshows, hdirect⟩⟩
  refine ⟨b', served.closeQueue, v', ?_, hclicks, .showing hshows.closeQueue hdirect⟩
  rw [run, hserve]

/-- In a world without a visitor, a button is made. Then either a visitor clicks so many times
and lets go, while a session serves the clicks, or the clicks are performed directly. The
session ends, and in the end the runs have seen the same. -/
theorem run_eq_clicks {slot : String} {delay n capacity : Nat} {w : World} (hplan : w.plan = [])
    (hqueue : w.queue = ⟨0, capacity, true, true⟩) (hcapacity : 1 ≤ capacity)
    (hcancelled : w.isCancelled = false) (htrips : ∀ e, w.trips e = false)
    (hprompts : ∀ k, (w.host.promptTime k).isSome = true) :
    let made := Button.make slot delay w
    ∃ b served direct,
      run made.1 { made.2 with plan := [⟨0, .click n⟩, ⟨0, .leave⟩] } = (true, b, served) ∧
      made.1.clicks n made.2 = some (b, direct) ∧
      let final := served.playOut (planSize served.plan + 1)
      final.plan = [] ∧ final.runHistory = direct.runHistory ∧ final.store = direct.store ∧
        final.view = direct.view ∧ final.clock = direct.clock ∧ final.host = direct.host ∧
        final.draws = direct.draws := by
  intro made
  have hidle := harmless_idle ⟨0, capacity, true, true⟩
  have hstart : Shows (fun plan queue => plan = [] ∧ queue = ⟨0, capacity, true, true⟩)
      w.scene w :=
    ⟨rfl, hcancelled, htrips, hprompts, hplan, hqueue⟩
  have hmade := (hstart.make hidle slot delay).2
  generalize Scene.withView _ _ = s at hmade
  have hclicking : Shows (Clicking n) s
      { made.2 with plan := [⟨0, .click n⟩, ⟨0, .leave⟩] } := by
    refine hmade.change hmade.scene_eq rfl rfl rfl ?_
    rw [hmade.visitor.2]
    exact .clicking (Nat.zero_add n) hcapacity
  rcases exists_run hidle made.1 (.showing hclicking hmade) with
    ⟨b, served, direct, hrun, hdirect, ⟨hserved, hshows⟩⟩
  rcases hserved.playOut (planSize served.plan + 1) (Nat.lt_succ_self _) with ⟨hfinal, hleft⟩
  have hscene := hfinal.scene_eq.trans hshows.scene_eq.symm
  refine ⟨_, served, direct, hrun, hdirect, hleft, ?_, congrArg Scene.store hscene,
    congrArg Scene.view hscene, congrArg Scene.clock hscene, congrArg Scene.host hscene,
    congrArg Scene.draws hscene⟩
  rw [← history_scene, ← history_scene, hscene]

def greeting : String :=
  "\x7b\"actions\":[\x7b\"id\":\"a1\",\"type\":\"promptAndShow\"\x7d," ++
  "\x7b\"id\":\"a2\",\"type\":\"increaseButtonSize\"\x7d]\x7d"

def greetingWorld : World :=
  World.fresh (.memory [(Slot.usual, greeting)] Faults.none) (Host.prompt [some "Ada", none] false)
    []

theorem run_eq_clicks_greeting :
    let made := Button.make Slot.usual 300 greetingWorld
    ∃ b served direct,
      run made.1 { made.2 with plan := [⟨0, .click 3⟩, ⟨0, .leave⟩] } = (true, b, served) ∧
      made.1.clicks 3 made.2 = some (b, direct) ∧
      let final := served.playOut (planSize served.plan + 1)
      final.runHistory = direct.runHistory ∧ final.clock = 1800 ∧ final.view.runs = 3 ∧
        final.view.presentation.sizeSteps = 3 := by
  intro made
  rcases run_eq_clicks (n := 3) (w := greetingWorld) rfl rfl (Nat.le_refl 1) rfl
      (fun _ => rfl) (fun _ => rfl) with
    ⟨b, served, direct, hrun, hdirect, _, hhistory, _, hview, hclock, _⟩
  have hlast : (made.1.clicks 3 made.2).map (fun last =>
      (last.2.clock, last.2.view.runs, last.2.view.presentation.sizeSteps)) =
        some (1800, 3, 3) := by
    decide +kernel
  rw [hdirect] at hlast
  injection hlast with hlast
  injection hlast with hlastClock hlast
  injection hlast with hlastRuns hlastSize
  refine ⟨b, served, direct, hrun, hdirect, hhistory, hclock.trans hlastClock, ?_, ?_⟩
  · rw [hview]
    exact hlastRuns
  · rw [hview]
    exact hlastSize

end Session
end ButtonFlow
