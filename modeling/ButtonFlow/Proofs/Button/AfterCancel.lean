import ButtonFlow.Proofs.Button.Served

/-!
# After the token was cancelled

Runs, clicks and sessions all stop at the next step. However the token comes to be cancelled,
and whatever the schedule decides, no further step begins; and if a step is under way, then
nothing but the rest of it is still carried out.
-/

namespace ButtonFlow

/-!
## Whatever is done, each step stays together
-/

theorem RunOf.paced {colors : Nat → Nat} {actions : List Action} {p : Presentation}
    {ds : List Deed} {outcome : Outcome RunResult} (h : RunOf colors actions p ds outcome) :
    Paced colors (doings ds) := by
  rcases h.course with ⟨id, hs, hdoings, hcourse⟩
  rw [hdoings]
  exact .other rfl rfl hcourse.paced

theorem Clicked.paced {b b' : Button} {l : Ledger} {ds : List Deed} {outcome : ClickOutcome}
    (h : Clicked b l ds outcome b') : Paced l.colors (doings ds) := by
  cases h with
  | @ignored m _ hm =>
      rcases m with ⟨time, view, what⟩
      cases hm
      exact .single rfl rfl
  | ran _ hrun _ =>
      rw [doings_between_shown]
      exact hrun.paced
  | reloaded _ hrun _ hloads =>
      rw [← List.append_assoc, doings_between_shown, doings_append, hloads.doings_eq]
      exact hrun.paced.append (.single rfl rfl)
  | cancelled _ hrun _ =>
      rw [doings_between_shown]
      exact hrun.paced
  | stuck _ hrun => exact hrun.paced

theorem Round.paced {b b' : Button} {l : Ledger} {ds : List Deed} {outcome : ClickOutcome}
    (h : Round b l ds outcome b') : Paced l.colors (doings ds) := by
  cases h with
  | taken hwaited hm hclicked =>
      have hpaced := hclicked.paced
      rw [Ledger.foldl_colors] at hpaced
      rw [doings_taken hwaited hm]
      exact hpaced

theorem Served.paced {b b' : Button} {l : Ledger} {ds : List Deed} {ended : Bool}
    (h : Served b l ds ended b') : Paced l.colors (doings ds) := by
  induction h with
  | left hwaited _ =>
      rw [doings_eq_nil hwaited]
      exact .nothing
  | hung => exact .nothing
  | wentOn hround _ _ ih =>
      rw [Ledger.foldl_colors] at ih
      rw [doings_append]
      exact hround.paced.append ih
  | stopped hround _ => exact hround.paced

theorem Happening.eq_cancelled {what : Happening} (h : what.cancels = true) :
    what = .cancelled := by
  unfold cancels at h
  split at h
  · rfl
  · cases h

/-!
## Undertakings
-/

/-- Something that is done under a token. -/
inductive Undertaking where
  | execution (delay : Nat) (actions : List Action) (p : Presentation)
  | click (b : Button)
  | session (b : Button)

namespace Undertaking

def world : Undertaking → World → World
  | .execution delay actions p, w => (execute delay actions p w).2
  | .click b, w => (b.click w).2.2
  | .session b, w => (Session.run b w).2.2

theorem exists_paced (u : Undertaking) (w : World) :
    ∃ ds, World.Trail w ds (u.world w) ∧ Paced w.draws.color (doings ds) := by
  cases u with
  | execution delay actions p =>
      rcases RunOf.exists_execute delay actions p w with ⟨ds, htrail, hrun⟩
      exact ⟨ds, htrail, hrun.paced⟩
  | click b =>
      rcases b.exists_clicked w with ⟨ds, htrail, hclicked⟩
      exact ⟨ds, htrail, hclicked.paced⟩
  | session b =>
      rcases Session.exists_served_run b w with
        ⟨waited, served, closing, htrail, hwaited, hserved, hclosing⟩
      refine ⟨_, htrail, ?_⟩
      have hnothing : doings closing = [] := by
        rcases hclosing with rfl | ⟨⟨time, view, what⟩, rfl, ⟨⟩⟩
        · rfl
        · rfl
      have hpaced := hserved.paced
      rw [Ledger.foldl_colors] at hpaced
      rw [doings_append, doings_append, doings_eq_nil hwaited, hnothing, List.append_nil]
      exact hpaced

/-- Whatever is done, and however the token was cancelled: no step begins afterwards, and all
that is still carried out of a step completes the one that had started, each effect at most
once. -/
theorem no_step_after_cancelled (u : Undertaking) (w : World) :
    ∃ new, (u.world w).history = w.history ++ new ∧
      ∀ before after, new = before ++ after →
        (w.isCancelled = true ∨ ∃ m ∈ before, m.what = .cancelled) →
        (∀ m ∈ after, m.what.isStart = false) ∧
        ∃ late rest, (after.map Moment.what).filter Happening.isOfRun = late ++ rest ∧
          (∀ what ∈ rest, what.effect? = none) ∧
          (late.filterMap Happening.effect?).Nodup ∧
          (late = [] ∨ ∃ told index action run flow run', told ≠ [] ∧
            told <:+ (before.map Moment.what).filter Happening.isOfRun ∧
            Performed w.draws.color index action run (told ++ late) flow run') := by
  rcases u.exists_paced w with ⟨ds, htrail, hpaced⟩
  refine ⟨moments ds, htrail.history_eq, ?_⟩
  intro before after hnew hcancelled
  rcases List.filterMap_eq_append_iff.mp hnew with ⟨earlier, later, rfl, rfl, rfl⟩
  rcases Ledger.lawful_append.mp htrail.lawful with ⟨_, hlater⟩
  have htoken : (earlier.foldl Ledger.after w.ledger).isCancelled = true := by
    rw [Ledger.foldl_isCancelled]
    rcases hcancelled with hcancelled | ⟨m, hm, hwhat⟩
    · have hbefore : w.ledger.isCancelled = true := hcancelled
      rw [hbefore, Bool.true_or]
    · have hmeanwhile : (moments earlier).any (·.what.cancels) = true := by
        refine List.any_eq_true.mpr ⟨m, hm, ?_⟩
        rw [hwhat]
        rfl
      rw [hmeanwhile, Bool.or_true]
  have hstart := hlater.not_isStart htoken
  refine ⟨hstart, ?_⟩
  have hnotStart : ∀ what ∈ doings later, what.isStart = false := by
    intro what hwhat
    rcases List.mem_map.mp (List.mem_filter.mp hwhat).1 with ⟨m, hm, rfl⟩
    exact hstart m hm
  rw [doings_append] at hpaced
  rcases hpaced.exists_late hnotStart with ⟨late, rest, hafter, hrest, hlate⟩
  refine ⟨late, rest, hafter, hrest, ?_, hlate⟩
  rcases hlate with rfl | ⟨told, index, action, run, flow, run', _, _, hstep⟩
  · exact List.nodup_nil
  · have hnodup := hstep.nodup_effects
    rw [List.filterMap_append] at hnodup
    exact (List.nodup_append.mp hnodup).2.1

def savingButton : Button where
  workflow := ⟨"Save", [
    ⟨"a", .setLocalStorage, ⟨[("key", .string "draft"), ("value", .string "Hi")]⟩⟩,
    ⟨"b", .alert, .empty⟩]⟩
  slot := Slot.usual
  delay := 300

def trippingWorld : World :=
  { World.fresh (.memory [] Faults.none) (Host.prompt [] false) [] with
    trips := fun e => e.index?.isSome
    queue := ⟨2, 2, true, false⟩ }

theorem no_step_after_cancelled_saving :
    ∃ before after, ((Undertaking.session savingButton).world trippingWorld).history =
        before ++ after ∧
      (∃ m ∈ before, m.what = .cancelled) ∧ (∀ m ∈ after, m.what.isStart = false) ∧
      after.filterMap (·.what.effect?) = [.write, .fragment] := by
  rcases no_step_after_cancelled (.session savingButton) trippingWorld with ⟨new, hnew, hafter⟩
  change _ = new at hnew
  have hany : (new.take 4).any (·.what.cancels) = true := by
    rw [← hnew]
    decide +kernel
  have heffects : (new.drop 4).filterMap (·.what.effect?) = [.write, .fragment] := by
    rw [← hnew]
    decide +kernel
  have hcancelled : ∃ m ∈ new.take 4, m.what = .cancelled := by
    rcases List.any_eq_true.mp hany with ⟨m, hm, hcancels⟩
    exact ⟨m, hm, Happening.eq_cancelled hcancels⟩
  have hsplit := (List.take_append_drop 4 new).symm
  exact ⟨_, _, hnew.trans hsplit, hcancelled, (hafter _ _ hsplit (Or.inr hcancelled)).1, heffects⟩

end Undertaking

end ButtonFlow
