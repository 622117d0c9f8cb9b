import ButtonFlow.Proofs.World.Scene

/-!
# Quiet worlds

A world is quiet until some time if nobody interferes before: there is no visitor but one who
cancels the token at that time. A world can also be quiet for good. Until then the points at
which a run lets the visitor act leave the scene as it is, and a rest only moves the clock. The
first rest that lasts longer ends at that very time.
-/

namespace ButtonFlow

namespace World

/-- Nobody interferes before the token is cancelled at the time `ending`, if it ever is. -/
structure Quiet (ending : Option Nat) (w : World) : Prop where
  plan_eq : w.plan = ending.toList.map fun time => ⟨time, .cancel⟩
  before : ∀ time ∈ ending, w.clock < time
  notCancelled : w.isCancelled = false
  noTrips : ∀ e, w.trips e = false

/-!
## Cancelling
-/

@[simp] theorem isCancelled_cancel (w : World) : w.cancel.isCancelled = true := by
  unfold cancel
  split
  · assumption
  · rfl

/-!
## Points that are passed
-/

theorem actWhile_of_idle (isVisitors : Bool) (fuel : Nat) {w : World}
    (hidle : (w.decide isVisitors).2.act? = none) :
    w.actWhile isVisitors (fuel + 1) = (w.decide isVisitors).2 := by
  unfold actWhile
  cases hdecide : w.decide isVisitors with
  | mk turn decided =>
      rw [hdecide] at hidle
      rcases turn with ⟨givesWay, noticing⟩
      cases givesWay with
      | false => rfl
      | true =>
          dsimp only at hidle ⊢
          rw [hidle]

theorem scene_giveWay_of_idle {isVisitors : Bool} {w : World}
    (hidle : (w.decide isVisitors).2.act? = none) : (w.giveWay isVisitors).scene = w.scene := by
  unfold giveWay
  rw [actWhile_of_idle isVisitors _ hidle]
  dsimp only
  split
  · rfl
  · rfl

theorem scene_waitFor (w : World) {time : Nat} (htime : w.clock ≤ time) :
    (w.waitFor time).scene = w.scene.atTime time := by
  unfold waitFor
  split
  · rfl
  · rename_i hlate
    have hclock : time = w.clock := Nat.le_antisymm (Nat.not_lt.mp hlate) htime
    rw [hclock]
    rfl

theorem exists_act?_cancel {w : World} {time : Nat} (hplan : w.plan = [⟨time, .cancel⟩])
    (htime : time ≤ w.clock) :
    ∃ w', w.act? = some w' ∧ w'.isCancelled = true ∧ w'.plan = [] ∧ w'.scene = w.scene := by
  have hact : w.act? =
      some (({ w.exertVisitor 0 with plan := [] } : World).cancel.note (.visitor .done)) := by
    unfold act?
    rw [hplan]
    exact if_neg (Nat.not_lt.mpr htime)
  refine ⟨_, hact, ?_, ?_, ?_⟩
  · exact isCancelled_cancel _
  · exact plan_cancel _
  · exact (scene_note_other _ rfl).trans (scene_cancel _)

namespace Quiet

variable {ending : Option Nat} {w : World}

theorem act?_eq_none (h : Quiet ending w) : w.act? = none := by
  unfold World.act?
  cases ending with
  | none => rw [h.plan_eq]; rfl
  | some time =>
      rw [h.plan_eq]
      exact if_pos (h.before time rfl)

theorem note (h : Quiet ending w) (what : Happening) : Quiet ending (w.note what) :=
  ⟨h.plan_eq, h.before, h.notCancelled, h.noTrips⟩

theorem tell (h : Quiet ending w) (e : Event) : Quiet ending (w.tell e) := by
  unfold World.tell
  dsimp only
  rw [if_neg (by simp [World.note, h.noTrips e])]
  exact h.note _

theorem withHost (h : Quiet ending w) (host : Host) : Quiet ending { w with host := host } :=
  ⟨h.plan_eq, h.before, h.notCancelled, h.noTrips⟩

theorem withStore (h : Quiet ending w) (store : Store) : Quiet ending { w with store := store } :=
  ⟨h.plan_eq, h.before, h.notCancelled, h.noTrips⟩

theorem withDraws (h : Quiet ending w) (draws : Draws) : Quiet ending { w with draws := draws } :=
  ⟨h.plan_eq, h.before, h.notCancelled, h.noTrips⟩

theorem decide (h : Quiet ending w) (isVisitors : Bool) :
    Quiet ending (w.decide isVisitors).2 :=
  ⟨h.plan_eq, h.before, h.notCancelled, h.noTrips⟩

theorem giveWay (h : Quiet ending w) (isVisitors : Bool) : Quiet ending (w.giveWay isVisitors) := by
  unfold World.giveWay
  rw [actWhile_of_idle isVisitors _ (h.decide isVisitors).act?_eq_none]
  dsimp only
  split
  · exact ⟨h.plan_eq, h.before, h.notCancelled, h.noTrips⟩
  · exact h.decide isVisitors

theorem pause (h : Quiet ending w) (effort : Nat) : Quiet ending (w.pause effort) := by
  have hgiven := h.giveWay (stretch < w.effort.runs + effort)
  exact ⟨hgiven.plan_eq, hgiven.before, hgiven.notCancelled, hgiven.noTrips⟩

theorem scene_pause (h : Quiet ending w) (effort : Nat) : (w.pause effort).scene = w.scene :=
  scene_giveWay_of_idle (h.decide _).act?_eq_none

/-!
## Resting
-/

theorem waitFor (h : Quiet ending w) {due : Nat} (hdue : ∀ time ∈ ending, due < time) :
    Quiet ending (w.waitFor due) := by
  unfold World.waitFor
  split
  · exact ⟨h.plan_eq, hdue, h.notCancelled, h.noTrips⟩
  · exact h

theorem nextAct?_eq (h : Quiet ending w) : w.nextAct? = ending := by
  unfold World.nextAct?
  cases ending with
  | none =>
      rw [h.plan_eq]
      rfl
  | some time =>
      rw [h.plan_eq]
      exact congrArg some (Nat.max_eq_right (Nat.le_of_lt (h.before time rfl)))

theorem pass_of_before (h : Quiet ending w) {due : Nat} (hdue : ∀ time ∈ ending, due < time)
    (fuel : Nat) : pass (·.isCancelled) (some due) (fuel + 1) w = some (w.waitFor due) := by
  unfold pass
  rw [if_neg (by simp [h.notCancelled]), h.nextAct?_eq]
  cases ending with
  | none => rfl
  | some time => exact if_pos (Nat.le_of_lt (hdue time rfl))

theorem exists_rest (h : Quiet ending w) {due : Nat} (hnow : w.clock ≤ due)
    (hdue : ∀ time ∈ ending, due < time) :
    ∃ w', w.rest (some due) = (.elapsed, w') ∧ Quiet ending w' ∧
      w'.scene = w.scene.atTime due := by
  have hwait : ∃ w', w.waitUntil (·.isCancelled) (some due) = some w' ∧ Quiet ending w' ∧
      w'.scene = w.scene.atTime due := by
    unfold waitUntil
    by_cases hover : due ≤ w.clock
    · have heq : w.scene.atTime due = w.scene := by
        rw [Nat.le_antisymm hover hnow]
        rfl
      rw [if_pos (by simp [hover]), heq]
      exact ⟨_, rfl, h.pause 1, h.scene_pause 1⟩
    · have hwaited := h.waitFor hdue
      have hgiven := hwaited.giveWay true
      rw [if_neg (by simp [h.notCancelled, hover]), h.pass_of_before hdue]
      refine ⟨_, rfl, ⟨hgiven.plan_eq, hgiven.before, hgiven.notCancelled, hgiven.noTrips⟩, ?_⟩
      exact (scene_giveWay_of_idle (hwaited.decide true).act?_eq_none).trans
        (scene_waitFor w hnow)
  rcases hwait with ⟨w', hw', hquiet, hscene⟩
  refine ⟨w', ?_, hquiet, hscene⟩
  unfold World.rest
  simp only [hw', hquiet.notCancelled, Bool.false_eq_true, if_false]

theorem rest_none (h : Quiet none w) : w.rest none = (.never, w) := by
  have hpass : pass (·.isCancelled) none (planSize w.plan + 1) w = none := by
    unfold pass
    rw [if_neg (by simp [h.notCancelled]), h.nextAct?_eq]
  unfold World.rest waitUntil
  rw [if_neg (by simp [h.notCancelled]), hpass]

theorem exists_actAt {ending : Nat} (h : Quiet (some ending) w) :
    ∃ w', w.actAt ending = some w' ∧ w'.isCancelled = true ∧ w'.plan = [] ∧
      w'.scene = w.scene.atTime ending := by
  have hplan : (w.waitFor ending).plan = [⟨ending, .cancel⟩] :=
    (waitFor_plan w ending).trans h.plan_eq
  have hscene := scene_waitFor w (Nat.le_of_lt (h.before ending rfl))
  unfold World.actAt
  dsimp only
  split
  · rcases exists_act?_cancel (w := { w.waitFor ending with
        effort := { (w.waitFor ending).effort with visitor := 0 } }) hplan
        (le_clock_waitFor w ending) with ⟨acted, hacted, hcancelled, hdone, hsame⟩
    exact ⟨acted, hacted, hcancelled, hdone, hsame.trans hscene⟩
  · rcases exists_act?_cancel hplan (le_clock_waitFor w ending) with
      ⟨acted, hacted, hcancelled, hdone, hsame⟩
    exact ⟨acted, hacted, hcancelled, hdone, hsame.trans hscene⟩

theorem exists_pass_cut {ending : Nat} (h : Quiet (some ending) w) {due : Option Nat}
    (hdue : ∀ time ∈ due, ending < time) :
    ∃ w', pass (·.isCancelled) due (planSize w.plan + 1) w = some w' ∧ w'.isCancelled = true ∧
      w'.plan = [] ∧ w'.scene = w.scene.atTime ending := by
  rcases h.exists_actAt with ⟨acted, hacted, hcancelled, hdone⟩
  refine ⟨acted, ?_, hcancelled, hdone⟩
  have hready : pass (·.isCancelled) due 1 acted = some acted := if_pos hcancelled
  rw [h.plan_eq]
  change pass _ due 2 w = some acted
  unfold pass
  rw [if_neg (by simp [h.notCancelled]), h.nextAct?_eq]
  cases due with
  | none => simp only [hacted, hready]
  | some time =>
      have hearly : ¬ time ≤ ending := Nat.not_le.mpr (hdue time rfl)
      simp only [if_neg hearly, hacted, hready]

theorem exists_rest_cut {ending : Nat} (h : Quiet (some ending) w) {due : Option Nat}
    (hdue : ∀ time ∈ due, ending < time) :
    ∃ w', w.rest due = (.cancelled, w') ∧ w'.scene = w.scene.atTime ending := by
  have hlater : ∀ {time : Nat}, time ≤ ending → due.any (· ≤ time) = false := by
    intro time htime
    cases due with
    | none => rfl
    | some d => simpa using Nat.lt_of_le_of_lt htime (hdue d rfl)
  rcases h.exists_pass_cut hdue with ⟨acted, hpass, hcancelled, hplan, hscene⟩
  have hidle : (acted.decide true).2.act? = none := by
    have hdecided : (acted.decide true).2.plan = [] := hplan
    rw [act?, hdecided]
  have hgiven := actWhile_of_idle true (planSize acted.plan) hidle
  have hover : ((acted.giveWay true).exertRuns 1).isCancelled = true := by
    unfold World.giveWay
    rw [hgiven]
    exact hcancelled
  have hrested : ((acted.giveWay true).exertRuns 1).scene = w.scene.atTime ending :=
    (scene_giveWay_of_idle hidle).trans hscene
  have hclock : ((acted.giveWay true).exertRuns 1).clock = ending :=
    congrArg Scene.clock hrested
  refine ⟨_, ?_, hrested⟩
  unfold World.rest waitUntil
  rw [if_neg (by simp [h.notCancelled, hlater (Nat.le_of_lt (h.before ending rfl))]), hpass]
  simp only [hover, hclock, hlater (Nat.le_refl ending), if_true, Bool.false_eq_true, if_false]

end Quiet

end World

end ButtonFlow
