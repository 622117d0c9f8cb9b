import ButtonFlow.Proofs.World.Trail

/-!
# The clock

The clock only moves while a run waits. The visitor does its acts in no time, and so do the
points that a run passes; a wait for a time ends at that time, unless it is cancelled. So what
happens to the runs is noted in the order of the times.
-/

namespace ButtonFlow
namespace World

/-!
## What takes no time
-/

@[simp] theorem clock_cancel (w : World) : w.cancel.clock = w.clock := by
  unfold cancel
  split
  · rfl
  · rfl

@[simp] theorem clock_tell (w : World) (e : Event) : (w.tell e).clock = w.clock := by
  unfold tell
  dsimp only
  split
  · exact clock_cancel _
  · rfl

theorem clock_act? {w w' : World} (h : w.act? = some w') : w'.clock = w.clock := by
  rcases exists_acts h with ⟨cue, later, _, _, hacts⟩
  cases hacts with
  | cancel => exact clock_cancel _
  | _ => rfl

theorem clock_actWhile (isVisitors : Bool) (fuel : Nat) (w : World) :
    (w.actWhile isVisitors fuel).clock = w.clock := by
  induction fuel generalizing w with
  | zero => rfl
  | succ fuel ih =>
      have hdecide : (w.decide isVisitors).2.clock = w.clock := rfl
      unfold actWhile
      split
      · rename_i heq
        rw [heq] at hdecide
        exact hdecide
      · rename_i heq
        rw [heq] at hdecide
        split
        · rename_i hact
          exact (ih _).trans ((clock_act? hact).trans hdecide)
        · exact hdecide

theorem clock_giveWay (isVisitors : Bool) (w : World) :
    (w.giveWay isVisitors).clock = w.clock := by
  have hacted := clock_actWhile isVisitors (planSize w.plan + 1) w
  unfold giveWay
  dsimp only
  split
  · exact hacted
  · exact hacted

theorem clock_pause (effort : Nat) (w : World) : (w.pause effort).clock = w.clock :=
  clock_giveWay _ w

/-!
## Waits for a time
-/

theorem clock_waitFor {w : World} {time : Nat} (h : w.clock ≤ time) :
    (w.waitFor time).clock = time := by
  unfold waitFor
  split
  · rfl
  · rename_i hlate
    exact Nat.le_antisymm h (Nat.not_lt.mp hlate)

theorem clock_actAt {w w' : World} {time : Nat} (htime : w.clock ≤ time)
    (h : w.actAt time = some w') : w'.clock = time := by
  unfold actAt at h
  dsimp only at h
  split at h
  · exact (clock_act? h).trans (clock_waitFor htime)
  · exact (clock_act? h).trans (clock_waitFor htime)

theorem clock_pass {ready : World → Bool} {due fuel : Nat} {w w' : World}
    (h : pass ready (some due) fuel w = some w') (hnow : w.clock ≤ due) :
    w'.clock ≤ due ∧ (w'.clock = due ∨ ready w' = true) := by
  induction fuel generalizing w with
  | zero => cases h
  | succ fuel ih =>
      unfold pass at h
      by_cases hready : ready w = true
      · rw [if_pos hready] at h
        cases h
        exact ⟨hnow, Or.inr hready⟩
      · rw [if_neg hready] at h
        have hdue : (w.waitFor due).clock = due := clock_waitFor hnow
        cases hnext : w.nextAct? with
        | none =>
            rw [hnext] at h
            cases h
            exact ⟨Nat.le_of_eq hdue, Or.inl hdue⟩
        | some time =>
            rw [hnext] at h
            dsimp only at h
            by_cases hlate : due ≤ time
            · rw [if_pos hlate] at h
              cases h
              exact ⟨Nat.le_of_eq hdue, Or.inl hdue⟩
            · rw [if_neg hlate] at h
              cases hact : w.actAt time with
              | none =>
                  rw [hact] at h
                  cases h
              | some acted =>
                  rw [hact] at h
                  have hclock := clock_actAt (clock_le_of_nextAct? hnext) hact
                  have hbefore : acted.clock ≤ due := by omega
                  exact ih h hbefore

theorem Aside.isCancelled {w w' : World} (h : Aside w w') (hw : w.isCancelled = true) :
    w'.isCancelled = true := by
  rcases h with ⟨ds, htrail, _⟩
  exact htrail.isCancelled hw

theorem clock_waitUntil {w w' : World} {due : Nat}
    (h : w.waitUntil (·.isCancelled) (some due) = some w') (hnow : w.clock ≤ due) :
    w'.clock ≤ due ∧ (w'.clock = due ∨ w'.isCancelled = true) := by
  unfold waitUntil at h
  split at h
  · rename_i hpassed
    cases h
    rw [clock_pause]
    refine ⟨hnow, ?_⟩
    rcases Bool.or_eq_true_iff.mp hpassed with hcancelled | hdue
    · exact Or.inr ((aside_pause 1 w).isCancelled hcancelled)
    · exact Or.inl (Nat.le_antisymm hnow (of_decide_eq_true hdue))
  · split at h
    · cases h
    · rename_i passed hpass
      cases h
      have hafter : Aside passed ((passed.giveWay true).exertRuns 1) :=
        (aside_giveWay true passed).trans (whileWaiting_aside.exertRuns 1 _)
      have hclock : ((passed.giveWay true).exertRuns 1).clock = passed.clock :=
        clock_giveWay true passed
      rw [hclock]
      rcases clock_pass hpass hnow with ⟨hle, hdue | hcancelled⟩
      · exact ⟨hle, Or.inl hdue⟩
      · exact ⟨hle, Or.inr (hafter.isCancelled hcancelled)⟩

/-- A rest that is not cancelled ends at its time. -/
theorem clock_rest {w : World} {due : Nat} (hnow : w.clock ≤ due)
    (h : (w.rest (some due)).1 = .elapsed) : (w.rest (some due)).2.clock = due := by
  unfold rest at h ⊢
  cases hwait : w.waitUntil (·.isCancelled) (some due) with
  | none =>
      rw [hwait] at h
      cases h
  | some waited =>
      rw [hwait] at h
      rcases clock_waitUntil hwait hnow with ⟨hle, hend⟩
      dsimp only at h ⊢
      by_cases hcancelled : waited.isCancelled = true
      · rw [if_pos hcancelled] at h ⊢
        by_cases hdue : (some due).any (· ≤ waited.clock) = true
        · rw [if_pos hdue]
          exact Nat.le_antisymm hle (of_decide_eq_true hdue)
        · rw [if_neg hdue] at h
          cases h
      · rw [if_neg hcancelled]
        exact hend.resolve_right hcancelled

/-!
## The order of what happens
-/

/-- This happened to the runs from one world to another, in the order of the times. -/
structure Elapses (w w' : World) (ms : List Moment) : Prop where
  runHistory_eq : w'.runHistory = w.runHistory ++ ms
  clock_le : w.clock ≤ w'.clock
  time_mem : ∀ m ∈ ms, w.clock ≤ m.time ∧ m.time ≤ w'.clock
  sorted : ms.Pairwise fun m m' => m.time ≤ m'.time

namespace Elapses

variable {w w₁ w' : World} {ms ms' : List Moment}

theorem nothing (hhistory : w'.runHistory = w.runHistory) (hclock : w.clock ≤ w'.clock) :
    Elapses w w' [] where
  runHistory_eq := by rw [hhistory, List.append_nil]
  clock_le := hclock
  time_mem := List.forall_mem_nil _
  sorted := .nil

theorem trans (h : Elapses w w₁ ms) (h' : Elapses w₁ w' ms') : Elapses w w' (ms ++ ms') where
  runHistory_eq := by rw [h'.runHistory_eq, h.runHistory_eq, List.append_assoc]
  clock_le := Nat.le_trans h.clock_le h'.clock_le
  time_mem := by
    intro m hm
    rcases List.mem_append.mp hm with hfirst | hlater
    · exact ⟨(h.time_mem m hfirst).1, Nat.le_trans (h.time_mem m hfirst).2 h'.clock_le⟩
    · exact ⟨Nat.le_trans h.clock_le (h'.time_mem m hlater).1, (h'.time_mem m hlater).2⟩
  sorted := by
    refine List.pairwise_append.mpr ⟨h.sorted, h'.sorted, ?_⟩
    intro m hm m' hm'
    exact Nat.le_trans (h.time_mem m hm).2 (h'.time_mem m' hm').1

theorem aside (h : Aside w w') (hclock : w.clock ≤ w'.clock) : Elapses w w' [] := by
  rcases h with ⟨ds, htrail, haside⟩
  refine nothing ?_ hclock
  have hnone : (moments ds).filter (fun m => m.what.isOfRun) = [] := by
    rw [List.filter_eq_nil_iff]
    intro m hm
    rcases what_of_aside haside hm with hcancelled | ⟨reply, hreply⟩
    · rw [hcancelled]
      exact Bool.false_ne_true
    · rw [hreply]
      exact Bool.false_ne_true
  unfold runHistory
  rw [htrail.history_eq, List.filter_append, hnone, List.append_nil]

theorem one {m : Moment} (hhistory : w'.runHistory = w.runHistory ++ [m]) (htime : m.time = w.clock)
    (hclock : w'.clock = w.clock) : Elapses w w' [m] where
  runHistory_eq := hhistory
  clock_le := Nat.le_of_eq hclock.symm
  time_mem := by
    intro m' hm'
    rw [List.mem_singleton.mp hm', hclock, htime]
    exact ⟨Nat.le_refl _, Nat.le_refl _⟩
  sorted := List.pairwise_singleton _ _

theorem note (w : World) {what : Happening} (hwhat : what.isOfRun = true) :
    Elapses w (w.note what) [⟨w.clock, w.view, what⟩] := by
  apply one
  · rw [← history_scene, ← history_scene, w.scene_note hwhat]
    exact List.reverse_cons
  · rfl
  · rfl

theorem tell (w : World) (e : Event) : Elapses w (w.tell e) [⟨w.clock, w.view, .event e⟩] := by
  apply one
  · rw [← history_scene, ← history_scene, w.scene_tell e]
    exact List.reverse_cons
  · rfl
  · exact w.clock_tell e

end Elapses

end World
end ButtonFlow
