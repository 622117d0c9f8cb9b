import ButtonFlow.Proofs.World.Visitor

/-!
# While the runs wait

Where a run lets the visitor go first, and where it waits, there are only acts of the visitor
and time that passes. So a relation between worlds that holds for these holds wherever the runs
do nothing. A wait for a time comes to its end, whatever the visitor does.
-/

namespace ButtonFlow
namespace World

/-- A relation that holds between a world and any later one as long as only the visitor acts
and time passes. -/
structure WhileWaiting (R : World → World → Prop) : Prop where
  trans : ∀ {w w₁ w' : World}, R w w₁ → R w₁ w' → R w w'
  act : ∀ {w w' : World}, w.act? = some w' → R w w'
  idle : ∀ (w : World) (clock turns : Nat) (effort : Effort),
    R w { w with clock := clock, turns := turns, effort := effort }

/-- From one world to another only the visitor acted and time passed. -/
def Waited (w w' : World) : Prop :=
  ∀ R, WhileWaiting R → R w w'

namespace WhileWaiting

variable {R : World → World → Prop}

theorem refl (h : WhileWaiting R) (w : World) : R w w :=
  h.idle w w.clock w.turns w.effort

theorem decide (h : WhileWaiting R) (isVisitors : Bool) (w : World) :
    R w (w.decide isVisitors).2 :=
  h.idle w w.clock (w.turns + 1) w.effort

/-!
## Points that are passed
-/

theorem actWhile (h : WhileWaiting R) (isVisitors : Bool) (fuel : Nat) (w : World) :
    R w (w.actWhile isVisitors fuel) := by
  induction fuel generalizing w with
  | zero => exact h.refl w
  | succ fuel ih =>
      unfold World.actWhile
      have hdecide := h.decide isVisitors w
      split
      · rename_i heq
        rw [heq] at hdecide
        exact hdecide
      · rename_i heq
        rw [heq] at hdecide
        split
        · rename_i hact
          exact h.trans (h.trans hdecide (h.act hact)) (ih _)
        · exact hdecide

theorem giveWay (h : WhileWaiting R) (isVisitors : Bool) (w : World) :
    R w (w.giveWay isVisitors) := by
  have hacted := h.actWhile isVisitors (planSize w.plan + 1) w
  unfold World.giveWay
  dsimp only
  split
  · exact h.trans hacted (h.idle _ _ _ _)
  · exact hacted

theorem exertRuns (h : WhileWaiting R) (effort : Nat) (w : World) : R w (w.exertRuns effort) :=
  h.idle w w.clock w.turns _

theorem pause (h : WhileWaiting R) (effort : Nat) (w : World) : R w (w.pause effort) :=
  h.trans (h.giveWay _ w) (h.exertRuns effort _)

/-!
## Waiting
-/

theorem waitFor (h : WhileWaiting R) (time : Nat) (w : World) : R w (w.waitFor time) := by
  unfold World.waitFor
  split
  · exact h.idle w time w.turns _
  · exact h.refl w

theorem actAt (h : WhileWaiting R) {w w' : World} {time : Nat} (hact : w.actAt time = some w') :
    R w w' := by
  have hwaited := h.waitFor time w
  unfold World.actAt at hact
  dsimp only at hact
  split at hact
  · exact h.trans (h.trans hwaited (h.idle _ _ _ _)) (h.act hact)
  · exact h.trans hwaited (h.act hact)

theorem pass (h : WhileWaiting R) {ready : World → Bool} {due : Option Nat} {fuel : Nat}
    {w w' : World} (hpass : World.pass ready due fuel w = some w') : R w w' := by
  induction fuel generalizing w with
  | zero => cases hpass
  | succ fuel ih =>
      unfold World.pass at hpass
      split at hpass
      · cases hpass
        exact h.refl _
      · split at hpass
        · cases hpass
        · cases hpass
          exact h.waitFor _ w
        · split at hpass
          · rename_i hact
            exact h.trans (h.actAt hact) (ih hpass)
          · cases hpass
        · split at hpass
          · cases hpass
            exact h.waitFor _ w
          · split at hpass
            · rename_i hact
              exact h.trans (h.actAt hact) (ih hpass)
            · cases hpass

theorem waitUntil (h : WhileWaiting R) {ready : World → Bool} {due : Option Nat} {w w' : World}
    (hwait : w.waitUntil ready due = some w') : R w w' := by
  unfold World.waitUntil at hwait
  split at hwait
  · cases hwait
    exact h.pause 1 w
  · split at hwait
    · cases hwait
    · rename_i hpass
      cases hwait
      exact h.trans (h.trans (h.pass hpass) (h.giveWay true _)) (h.exertRuns 1 _)

theorem rest (h : WhileWaiting R) (due : Option Nat) (w : World) : R w (w.rest due).2 := by
  unfold World.rest
  split
  · exact h.refl w
  · rename_i hwait
    have hwaited := h.waitUntil hwait
    split
    · split
      · exact h.trans hwaited (h.decide false _)
      · exact hwaited
    · exact hwaited

end WhileWaiting

/-!
## What the visitor does not touch
-/

/-- A part of a world that does not change with the time, the token, the store, the queue and
the history, and not with anything that only says who goes on next. -/
def Untouched {α : Type} (f : World → α) : Prop :=
  ∀ (w : World) (clock : Nat) (isCancelled : Bool) (store : Store) (queue : Queue) (plan : List Cue)
    (turns : Nat) (effort : Effort) (past : List Moment),
    f { w with
      clock := clock, isCancelled := isCancelled, store := store, queue := queue, plan := plan,
      turns := turns, effort := effort, past := past } = f w

theorem untouched_host : Untouched host :=
  fun _ _ _ _ _ _ _ _ _ => rfl

theorem untouched_draws : Untouched draws :=
  fun _ _ _ _ _ _ _ _ _ => rfl

namespace Untouched

variable {α : Type} {f : World → α}

theorem cancel (h : Untouched f) (w : World) : f w.cancel = f w := by
  unfold World.cancel
  split
  · rfl
  · exact h w w.clock true w.store w.queue w.plan w.turns w.effort _

theorem note (h : Untouched f) (w : World) (what : Happening) : f (w.note what) = f w :=
  h w w.clock w.isCancelled w.store w.queue w.plan w.turns w.effort _

theorem tell (h : Untouched f) (w : World) (e : Event) : f (w.tell e) = f w := by
  unfold World.tell
  dsimp only
  split
  · exact (h.cancel _).trans (h.note w _)
  · exact h.note w _

theorem act? (h : Untouched f) {w w' : World} (hact : w.act? = some w') : f w' = f w := by
  have hdone : ∀ isCancelled store queue plan effort past,
      f { w with
        isCancelled := isCancelled, store := store, queue := queue, plan := plan, effort := effort,
        past := past } = f w := by
    intro isCancelled store queue plan effort past
    exact h w w.clock isCancelled store queue plan w.turns effort past
  rcases exists_acts hact with ⟨cue, later, _, _, hacts⟩
  cases hacts with
  | cancel => exact (h.note _ _).trans ((h.cancel _).trans (hdone ..))
  | _ => exact hdone ..

theorem whileWaiting (h : Untouched f) : WhileWaiting fun w w' => f w' = f w where
  trans hfirst hlater := hlater.trans hfirst
  act := h.act?
  idle w clock turns effort :=
    h w clock w.isCancelled w.store w.queue w.plan turns effort w.past

end Untouched

theorem whileWaiting_host : WhileWaiting fun w w' => w'.host = w.host :=
  untouched_host.whileWaiting

theorem whileWaiting_draws : WhileWaiting fun w w' => w'.draws = w.draws :=
  untouched_draws.whileWaiting

/-!
## Waits for a time
-/

@[simp] theorem waitFor_plan (w : World) (time : Nat) : (w.waitFor time).plan = w.plan := by
  unfold waitFor
  split
  · rfl
  · rfl

@[simp] theorem waitFor_queue (w : World) (time : Nat) : (w.waitFor time).queue = w.queue := by
  unfold waitFor
  split
  · rfl
  · rfl

theorem le_clock_waitFor (w : World) (time : Nat) : time ≤ (w.waitFor time).clock := by
  unfold waitFor
  split
  · exact Nat.le_refl time
  · rename_i hlate
    exact Nat.not_lt.mp hlate

theorem exists_actAt {w : World} {time : Nat} (hnext : w.nextAct? = some time) :
    ∃ w', w.actAt time = some w' ∧ planSize w'.plan < planSize w.plan := by
  have hact : ∀ effort, ∃ after,
      ({ w.waitFor time with effort := effort } : World).act? = some after ∧
        planSize after.plan < planSize w.plan := by
    intro effort
    rcases exists_act? hnext { w.waitFor time with effort := effort } (waitFor_plan w time)
      (waitFor_queue w time) (le_clock_waitFor w time) with ⟨after, hafter⟩
    have hsize := planSize_act? hafter
    change planSize after.plan < planSize (w.waitFor time).plan at hsize
    rw [waitFor_plan] at hsize
    exact ⟨after, hafter, hsize⟩
  unfold actAt
  dsimp only
  split
  · exact hact _
  · exact hact _

theorem exists_pass (ready : World → Bool) (due : Nat) {fuel : Nat} {w : World}
    (hfuel : planSize w.plan < fuel) : ∃ w', pass ready (some due) fuel w = some w' := by
  -- Every act makes the plan smaller, so the bound on the acts is not met.
  induction fuel generalizing w with
  | zero => exact absurd hfuel (Nat.not_lt_zero _)
  | succ fuel ih =>
      unfold pass
      by_cases hready : ready w = true
      · exact ⟨w, if_pos hready⟩
      · rw [if_neg hready]
        cases hnext : w.nextAct? with
        | none => exact ⟨_, rfl⟩
        | some time =>
            dsimp only
            by_cases hlate : due ≤ time
            · exact ⟨_, if_pos hlate⟩
            · rw [if_neg hlate]
              rcases exists_actAt hnext with ⟨acted, hacted, hsize⟩
              rcases ih (Nat.lt_of_lt_of_le hsize (Nat.le_of_lt_succ hfuel)) with ⟨after, hafter⟩
              simp only [hacted]
              exact ⟨after, hafter⟩

theorem rest_ne_never (w : World) (due : Nat) : (w.rest (some due)).1 ≠ .never := by
  have hwait : ∃ w', w.waitUntil (·.isCancelled) (some due) = some w' := by
    unfold waitUntil
    split
    · exact ⟨_, rfl⟩
    · rcases exists_pass (·.isCancelled) due (Nat.lt_succ_self (planSize w.plan)) with
        ⟨passed, hpassed⟩
      rw [hpassed]
      exact ⟨_, rfl⟩
  rcases hwait with ⟨w', hw'⟩
  unfold rest
  rw [hw']
  dsimp only
  split
  · split
    · dsimp only
      split
      · exact nofun
      · exact nofun
    · exact nofun
  · exact nofun

theorem isCancelled_of_rest (w : World) (due : Option Nat) (h : (w.rest due).1 = .cancelled) :
    (w.rest due).2.isCancelled = true := by
  unfold rest at h ⊢
  cases hwait : w.waitUntil (·.isCancelled) due with
  | none =>
      rw [hwait] at h
      cases h
  | some w₁ =>
      rw [hwait] at h
      dsimp only at h ⊢
      by_cases hcancelled : w₁.isCancelled = true
      · rw [if_pos hcancelled]
        split
        · exact hcancelled
        · exact hcancelled
      · rw [if_neg hcancelled] at h
        cases h

/-- A wait for a time ends at that time, unless the token is cancelled. -/
theorem rest_eq_elapsed {w : World} {due : Nat} (h : (w.rest (some due)).1 ≠ .cancelled) :
    (w.rest (some due)).1 = .elapsed := by
  have hnever := w.rest_ne_never due
  cases hrest : (w.rest (some due)).1 with
  | elapsed => rfl
  | cancelled => exact absurd hrest h
  | never => exact absurd hrest hnever

end World
end ButtonFlow
