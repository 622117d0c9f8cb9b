import ButtonFlow.Proofs.World.Waiting

/-!
# What the runs see of the world

A scene is the part of the world that runs see and change, with the moments that are theirs. A
harmless visitor neither cancels anything nor changes a scene. Where a run lets such a visitor
go first, the scene stays as it is, whatever the schedule decides; where a run waits for a
time, the clock moves to that time and nothing else happens.
-/

namespace ButtonFlow

/-- Whether something happens to the runs, and not to the visitor or the queue. -/
def Happening.isOfRun : Happening → Bool
  | .event _ | .alert _ | .prompt _ | .reload | .closeRequest | .read _ | .write .. | .diagnosed ..
  | .load | .ignored => true
  | .cancelled | .taken | .closed | .visitor _ => false

structure Scene where
  clock : Nat
  store : Store
  host : Host
  draws : Draws
  view : View
  past : List Moment

namespace Scene

def atTime (s : Scene) (time : Nat) : Scene :=
  { s with clock := time }

def note (s : Scene) (what : Happening) : Scene :=
  { s with past := ⟨s.clock, s.view, what⟩ :: s.past }

def tell (s : Scene) (e : Event) : Scene :=
  s.note (.event e)

def withView (s : Scene) (view : View) : Scene :=
  { s with view := view }

def history (s : Scene) : List Moment :=
  s.past.reverse

end Scene

namespace World

def scene (w : World) : Scene :=
  ⟨w.clock, w.store, w.host, w.draws, w.view, w.past.filter fun moment => moment.what.isOfRun⟩

def runHistory (w : World) : List Moment :=
  w.history.filter fun moment => moment.what.isOfRun

theorem history_scene (w : World) : w.scene.history = w.runHistory :=
  List.filter_reverse.symm

theorem scene_note (w : World) {what : Happening} (hwhat : what.isOfRun = true) :
    (w.note what).scene = w.scene.note what := by
  have hfilter := List.filter_cons_of_pos (p := fun moment : Moment => moment.what.isOfRun)
    (a := ⟨w.clock, w.view, what⟩) (l := w.past) hwhat
  simp only [scene, note, Scene.note, hfilter]

theorem scene_note_other (w : World) {what : Happening} (hwhat : what.isOfRun = false) :
    (w.note what).scene = w.scene := by
  have hfilter := List.filter_cons_of_neg (p := fun moment : Moment => moment.what.isOfRun)
    (a := ⟨w.clock, w.view, what⟩) (l := w.past) (by simp [hwhat])
  simp only [scene, note, hfilter]

@[simp] theorem scene_cancel (w : World) : w.cancel.scene = w.scene := by
  unfold cancel
  split
  · rfl
  · exact w.scene_note_other rfl

theorem scene_tell (w : World) (e : Event) : (w.tell e).scene = w.scene.tell e := by
  unfold tell
  dsimp only
  split
  · exact (scene_cancel _).trans (w.scene_note rfl)
  · exact w.scene_note rfl

/-- The runs see a scene. Nothing was cancelled or will be by an event, every prompt ends, and
the visitor is one of those that are described by `V`. -/
structure Shows (V : List Cue → Queue → Prop) (s : Scene) (w : World) : Prop where
  scene_eq : w.scene = s
  notCancelled : w.isCancelled = false
  noTrips : ∀ e, w.trips e = false
  answers : ∀ n, (w.host.promptTime n).isSome = true
  visitor : V w.plan w.queue

/-- The acts of these visitors change nothing that the runs see. -/
def Harmless (V : List Cue → Queue → Prop) : Prop :=
  ∀ ⦃s : Scene⦄ ⦃w w' : World⦄, Shows V s w → w.act? = some w' → Shows V s w'

variable {V : List Cue → Queue → Prop} {s : Scene} {w : World}

namespace Shows

theorem clock_eq (h : Shows V s w) : w.clock = s.clock := congrArg Scene.clock h.scene_eq

theorem store_eq (h : Shows V s w) : w.store = s.store := congrArg Scene.store h.scene_eq

theorem host_eq (h : Shows V s w) : w.host = s.host := congrArg Scene.host h.scene_eq

theorem view_eq (h : Shows V s w) : w.view = s.view := congrArg Scene.view h.scene_eq

theorem change {V' : List Cue → Queue → Prop} {s' : Scene} {w' : World} (h : Shows V s w)
    (hscene : w'.scene = s') (hcancelled : w'.isCancelled = w.isCancelled)
    (htrips : w'.trips = w.trips) (hpromptTime : w'.host.promptTime = w.host.promptTime)
    (hvisitor : V' w'.plan w'.queue) : Shows V' s' w' where
  scene_eq := hscene
  notCancelled := hcancelled.trans h.notCancelled
  noTrips e := (congrFun htrips e).trans (h.noTrips e)
  answers n := by
    rw [hpromptTime]
    exact h.answers n
  visitor := hvisitor

theorem note (h : Shows V s w) (what : Happening) (hwhat : what.isOfRun = true) :
    Shows V (s.note what) (w.note what) := by
  rcases h with ⟨rfl, hcancelled, htrips, hanswers, hvisitor⟩
  exact ⟨w.scene_note hwhat, hcancelled, htrips, hanswers, hvisitor⟩

theorem tell (h : Shows V s w) (e : Event) : Shows V (s.tell e) (w.tell e) := by
  have hnote : Shows V (s.note (.event e)) (w.note (.event e)) := h.note _ rfl
  unfold World.tell
  dsimp only
  rw [if_neg (by simp [hnote.noTrips e])]
  exact hnote

theorem withView (h : Shows V s w) (view : View) : Shows V (s.withView view) (w.withView view) := by
  rcases h with ⟨rfl, hcancelled, htrips, hanswers, hvisitor⟩
  exact ⟨rfl, hcancelled, htrips, hanswers, hvisitor⟩

theorem withHost (h : Shows V s w) (host : Host)
    (hpromptTime : host.promptTime = w.host.promptTime) :
    Shows V { s with host := host } { w with host := host } := by
  rcases h with ⟨rfl, hcancelled, htrips, hanswers, hvisitor⟩
  refine ⟨rfl, hcancelled, htrips, ?_, hvisitor⟩
  intro n
  change (host.promptTime n).isSome = true
  rw [hpromptTime]
  exact hanswers n

theorem decide (h : Shows V s w) (isVisitors : Bool) : Shows V s (w.decide isVisitors).2 :=
  h.change h.scene_eq rfl rfl rfl h.visitor

theorem exertRuns (h : Shows V s w) (effort : Nat) : Shows V s (w.exertRuns effort) :=
  h.change h.scene_eq rfl rfl rfl h.visitor

/-!
## Letting the visitor go first
-/

theorem actWhile (hV : Harmless V) (isVisitors : Bool) (fuel : Nat) {w : World}
    (h : Shows V s w) : Shows V s (w.actWhile isVisitors fuel) := by
  induction fuel generalizing w with
  | zero => exact h
  | succ fuel ih =>
      unfold World.actWhile
      have hdecide := h.decide isVisitors
      split
      · rename_i heq
        rw [heq] at hdecide
        exact hdecide
      · rename_i heq
        rw [heq] at hdecide
        split
        · rename_i hact
          exact ih (hV hdecide hact)
        · exact hdecide

theorem giveWay (hV : Harmless V) (h : Shows V s w) (isVisitors : Bool) :
    Shows V s (w.giveWay isVisitors) := by
  have hacted := actWhile hV isVisitors (planSize w.plan + 1) h
  unfold World.giveWay
  dsimp only
  split
  · exact hacted.change hacted.scene_eq rfl rfl rfl hacted.visitor
  · exact hacted

theorem pause (hV : Harmless V) (h : Shows V s w) (effort : Nat) :
    Shows V s (w.pause effort) :=
  (h.giveWay hV _).exertRuns effort

/-!
## Waiting
-/

theorem waitFor (h : Shows V s w) {time : Nat} (htime : s.clock ≤ time) :
    Shows V (s.atTime time) (w.waitFor time) := by
  rcases h with ⟨rfl, hcancelled, htrips, hanswers, hvisitor⟩
  unfold World.waitFor
  split
  · exact ⟨rfl, hcancelled, htrips, hanswers, hvisitor⟩
  · rename_i hlate
    have hclock : time = w.clock := Nat.le_antisymm (Nat.not_lt.mp hlate) htime
    rw [hclock]
    exact ⟨rfl, hcancelled, htrips, hanswers, hvisitor⟩

theorem exists_actAt (hV : Harmless V) (h : Shows V s w) {time : Nat}
    (hnext : w.nextAct? = some time) :
    ∃ w', w.actAt time = some w' ∧ Shows V (s.atTime time) w' ∧
      planSize w'.plan < planSize w.plan := by
  have hle : s.clock ≤ time := by
    rw [← h.clock_eq]
    exact clock_le_of_nextAct? hnext
  have hwaited := h.waitFor hle
  unfold actAt
  dsimp only
  split
  · have hrested : Shows V (s.atTime time)
        { w.waitFor time with effort := { (w.waitFor time).effort with visitor := 0 } } :=
      hwaited.change hwaited.scene_eq rfl rfl rfl hwaited.visitor
    rcases exists_act? hnext
        { w.waitFor time with effort := { (w.waitFor time).effort with visitor := 0 } }
        (waitFor_plan w time) (waitFor_queue w time) (le_clock_waitFor w time) with
      ⟨after, hafter⟩
    refine ⟨after, hafter, hV hrested hafter, ?_⟩
    have hsize := planSize_act? hafter
    rwa [waitFor_plan] at hsize
  · rcases exists_act? hnext (w.waitFor time) (waitFor_plan w time) (waitFor_queue w time)
        (le_clock_waitFor w time) with
      ⟨after, hafter⟩
    refine ⟨after, hafter, hV hwaited hafter, ?_⟩
    have hsize := planSize_act? hafter
    rwa [waitFor_plan] at hsize

theorem exists_pass (hV : Harmless V) {due : Nat} (fuel : Nat) {s : Scene} {w : World}
    (h : Shows V s w) (hdue : s.clock ≤ due) (hfuel : planSize w.plan < fuel) :
    ∃ w', pass (·.isCancelled) (some due) fuel w = some w' ∧ Shows V (s.atTime due) w' := by
  -- Every act makes the plan smaller, so the bound on the acts is not met.
  induction fuel generalizing s w with
  | zero => exact absurd hfuel (Nat.not_lt_zero _)
  | succ fuel ih =>
      unfold pass
      simp only [h.notCancelled, Bool.false_eq_true, if_false]
      cases hnext : w.nextAct? with
      | none => exact ⟨_, rfl, h.waitFor hdue⟩
      | some time =>
          by_cases hlate : due ≤ time
          · simp only [if_pos hlate]
            exact ⟨_, rfl, h.waitFor hdue⟩
          · simp only [if_neg hlate]
            rcases h.exists_actAt hV hnext with ⟨acted, hacted, hshows, hsize⟩
            have htime : (s.atTime time).clock ≤ due := Nat.le_of_not_le hlate
            have hfewer : planSize acted.plan < fuel :=
              Nat.lt_of_lt_of_le hsize (Nat.le_of_lt_succ hfuel)
            rcases ih hshows htime hfewer with ⟨after, hafter, hlast⟩
            refine ⟨after, ?_, hlast⟩
            simp only [hacted, hafter]

theorem exists_rest (hV : Harmless V) (h : Shows V s w) {due : Nat} (hdue : s.clock ≤ due) :
    ∃ w', w.rest (some due) = (.elapsed, w') ∧ Shows V (s.atTime due) w' := by
  have hwait : ∃ w', w.waitUntil (·.isCancelled) (some due) = some w' ∧
      Shows V (s.atTime due) w' := by
    unfold waitUntil
    by_cases hnow : due ≤ w.clock
    · have heq : s.atTime due = s := by
        rw [Nat.le_antisymm (h.clock_eq ▸ hnow) hdue]
        rfl
      simp only [h.notCancelled, Option.any_some, hnow, decide_true, Bool.or_true, if_true]
      rw [heq]
      exact ⟨_, rfl, h.pause hV 1⟩
    · rcases exists_pass hV (planSize w.plan + 1) h hdue (Nat.lt_succ_self _) with
        ⟨passed, hpassed, hshows⟩
      simp only [h.notCancelled, Option.any_some, hnow, decide_false, Bool.or_false,
        Bool.false_eq_true, if_false, hpassed]
      exact ⟨_, rfl, (hshows.giveWay hV true).exertRuns 1⟩
  rcases hwait with ⟨w', hw', hshows⟩
  refine ⟨w', ?_, hshows⟩
  unfold rest
  simp only [hw', hshows.notCancelled, Bool.false_eq_true, if_false]

end Shows

end World
end ButtonFlow
