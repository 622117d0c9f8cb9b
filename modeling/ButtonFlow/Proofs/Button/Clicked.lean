import ButtonFlow.Button.Click
import ButtonFlow.Proofs.Run.Cancelled

/-!
# What a click does

A click is ignored, or it is one run. The view changes before the run and once more after it,
and not meanwhile. After a run that has reloaded the page the workflow is loaded anew, from the
store as it is then. This says all that a click can do, whoever interferes.
-/

namespace ButtonFlow

structure RunOf (colors : Nat → Nat) (actions : List Action) (p : Presentation) (ds : List Deed)
    (outcome : Outcome RunResult) : Prop where
  during : ∀ d ∈ ds, d.isDuringRun = true
  course : ∃ id hs, doings ds = .event (.runStarted id actions.length) :: hs ∧
    Course colors 0 actions (Tally.start id p) hs outcome

/-- A workflow is loaded from a slot. The visitor may act shortly before and after. -/
inductive Loads (slot : String) (store : Store) : List Deed → Workflow → Prop where
  | loaded {waited later : List Deed} {m : Moment} (hwaited : ∀ d ∈ waited, d.isAside = true)
      (hm : m.what = .load) (hlater : ∀ d ∈ later, d.isAside = true) :
      Loads slot store (waited ++ .noted m :: later)
        (Slot.load slot (waited.foldl Store.after store))

theorem Loads.isShown_eq_false {slot : String} {store : Store} {ds : List Deed}
    {workflow : Workflow} (h : Loads slot store ds workflow) : ∀ d ∈ ds, d.isShown = false := by
  cases h with
  | loaded hwaited hm hlater =>
      intro d hd
      rcases List.mem_append.mp hd with hd | hd
      · exact Deed.isShown_of_isAside (hwaited d hd)
      · rcases List.mem_cons.mp hd with rfl | hd
        · rfl
        · exact Deed.isShown_of_isAside (hlater d hd)

theorem Loads.doings_eq {slot : String} {store : Store} {ds : List Deed} {workflow : Workflow}
    (h : Loads slot store ds workflow) : doings ds = [.load] := by
  cases h with
  | @loaded waited later m hwaited hm hlater =>
      have hload : doings [.noted m] = [.load] := by
        rcases m with ⟨time, view, what⟩
        cases hm
        rfl
      rw [List.append_cons, doings_append, doings_append, doings_eq_nil hwaited, hload,
        doings_eq_nil hlater]
      rfl

inductive Clicked (b : Button) (l : Ledger) : List Deed → ClickOutcome → Button → Prop where
  | ignored {m : Moment} (hdisabled : l.view.presentation.disabled = true)
      (hm : m.what = .ignored) : Clicked b l [.noted m] .ignored b
  | ran {ds : List Deed} {r : RunResult} (henabled : l.view.presentation.disabled = false)
      (hrun : RunOf l.colors b.workflow.actions l.view.presentation ds (.done r))
      (hstays : r.termination ≠ .reloaded) :
      Clicked b l
        (.shown (Button.viewDuring l.view) :: (ds ++ [.shown (Button.viewAfter l.view r)]))
        (.ran r) b
  | reloaded {ds loading : List Deed} {r : RunResult} {workflow : Workflow}
      (henabled : l.view.presentation.disabled = false)
      (hrun : RunOf l.colors b.workflow.actions l.view.presentation ds (.done r))
      (hreloaded : r.termination = .reloaded)
      (hloads : Loads b.slot (ds.foldl Store.after l.store) loading workflow) :
      Clicked b l
        (.shown (Button.viewDuring l.view) :: (ds ++
          (loading ++ [.shown { View.initial workflow with runs := l.view.runs + 1 }])))
        (.ran r) { b with workflow := workflow }
  | cancelled {ds : List Deed} (henabled : l.view.presentation.disabled = false)
      (hrun : RunOf l.colors b.workflow.actions l.view.presentation ds .cancelled)
      (htoken : (ds.foldl Ledger.after l).isCancelled = true) :
      Clicked b l
        (.shown (Button.viewDuring l.view) ::
          (ds ++ [.shown { Button.viewDuring l.view with running := false }]))
        .cancelled b
  | stuck {ds : List Deed} (henabled : l.view.presentation.disabled = false)
      (hrun : RunOf l.colors b.workflow.actions l.view.presentation ds .stuck) :
      Clicked b l (.shown (Button.viewDuring l.view) :: ds) .stuck b

/-!
## The view
-/

/-- The view after a click, if the workflow is this one then. -/
def ClickOutcome.viewAfter (workflow : Workflow) (v : View) : ClickOutcome → View
  | .ran r =>
      if r.termination = .reloaded then { View.initial workflow with runs := v.runs + 1 }
      else Button.viewAfter v r
  | .ignored => v
  | .cancelled => { Button.viewDuring v with running := false }
  | .stuck => Button.viewDuring v

namespace Ledger

variable {l : Ledger} {view : View} {ds last : List Deed}

theorem Lawful.view_between (h : l.Lawful (.shown view :: (ds ++ last)))
    (hds : ∀ d ∈ ds, d.isShown = false) (hlast : moments last = []) :
    ∀ m ∈ moments (.shown view :: (ds ++ last)), m.view = view := by
  intro m hm
  have hmoments : moments (.shown view :: (ds ++ last)) = moments ds := by
    change moments (ds ++ last) = moments ds
    rw [moments_append, hlast, List.append_nil]
  rw [hmoments] at hm
  exact (lawful_append.mp h.2).1.view_eq hds m hm

theorem view_foldl_shown (l : Ledger) (ds : List Deed) (view : View) :
    ((ds ++ [Deed.shown view]).foldl after l).view = view := by
  rw [List.foldl_append]
  rfl

end Ledger

namespace Clicked

variable {b b' : Button} {l : Ledger} {ds : List Deed} {outcome : ClickOutcome}

/-- While a click is performed, the button is seen to be running, without fragments. -/
theorem view_eq (h : Clicked b l ds outcome b') (hlawful : l.Lawful ds)
    (houtcome : outcome ≠ .ignored) :
    l.view.presentation.disabled = false ∧
      ∀ m ∈ moments ds, m.view = Button.viewDuring l.view := by
  have hquiet : ∀ {ds : List Deed} {outcome : Outcome RunResult},
      RunOf l.colors b.workflow.actions l.view.presentation ds outcome →
      ∀ d ∈ ds, d.isShown = false :=
    fun hrun d hd => Deed.isShown_of_isDuringRun (hrun.during d hd)
  cases h with
  | ignored _ _ => exact (houtcome rfl).elim
  | ran henabled hrun _ => exact ⟨henabled, hlawful.view_between (hquiet hrun) rfl⟩
  | reloaded henabled hrun _ hloads =>
      rw [← List.append_assoc] at hlawful ⊢
      have hboth := List.forall_mem_append.mpr ⟨hquiet hrun, hloads.isShown_eq_false⟩
      exact ⟨henabled, hlawful.view_between hboth rfl⟩
  | cancelled henabled hrun _ => exact ⟨henabled, hlawful.view_between (hquiet hrun) rfl⟩
  | @stuck ds henabled hrun =>
      rw [← List.append_nil ds] at hlawful ⊢
      exact ⟨henabled, hlawful.view_between (hquiet hrun) rfl⟩

theorem view_after (h : Clicked b l ds outcome b') :
    (ds.foldl Ledger.after l).view = outcome.viewAfter b'.workflow l.view := by
  cases h with
  | ignored _ _ => rfl
  | ran _ _ hstays =>
      rw [← List.cons_append, Ledger.view_foldl_shown]
      exact (if_neg hstays).symm
  | reloaded _ _ hreloaded _ =>
      rw [← List.append_assoc, ← List.cons_append, Ledger.view_foldl_shown]
      exact (if_pos hreloaded).symm
  | cancelled _ _ _ =>
      rw [← List.cons_append, Ledger.view_foldl_shown]
      rfl
  | stuck _ hrun =>
      rw [List.foldl_cons]
      exact Ledger.foldl_view fun d hd => Deed.isShown_of_isDuringRun (hrun.during d hd)

end Clicked

/-!
## Every click
-/

namespace World

theorem Trail.withView (w : World) (view : View) : Trail w [.shown view] (w.withView view) :=
  .one trivial rfl rfl rfl rfl

theorem exists_loads (w : World) (slot : String) :
    ∃ ds, Trail w ds (w.loadWorkflow slot).2 ∧ Loads slot w.store ds (w.loadWorkflow slot).1 := by
  rcases aside_pause 1 w with ⟨waited, hwaited, hbefore⟩
  rcases aside_pause 0 ((w.pause 1).note .load) with ⟨later, hlater, hafter⟩
  have hload : Trail (w.pause 1) [.noted ⟨(w.pause 1).clock, (w.pause 1).view, .load⟩]
      ((w.pause 1).note .load) := .note rfl trivial
  refine ⟨_, hwaited.trans (hload.trans hlater), ?_⟩
  unfold loadWorkflow
  dsimp only
  rw [hwaited.store_eq]
  exact .loaded hbefore rfl hafter

end World

theorem RunOf.exists_execute (delay : Nat) (actions : List Action) (p : Presentation) (w : World) :
    ∃ ds, World.Trail w ds (execute delay actions p w).2 ∧
      RunOf w.draws.color actions p ds (execute delay actions p w).1 := by
  rcases exists_course_execute delay actions p w with ⟨hs, hcourse, hadds⟩
  rcases hadds with ⟨ds, htrail, hduring, hdoings⟩
  exact ⟨ds, htrail, hduring, _, hs, hdoings, hcourse⟩

namespace Button

theorem exists_clicked (b : Button) (w : World) :
    ∃ ds, World.Trail w ds (b.click w).2.2 ∧
      Clicked b w.ledger ds (b.click w).1 (b.click w).2.1 := by
  unfold click
  by_cases hdisabled : w.view.presentation.disabled = true
  · rw [if_pos hdisabled]
    exact ⟨_, .note rfl hdisabled, .ignored hdisabled rfl⟩
  · rw [if_neg hdisabled]
    have henabled := Bool.eq_false_iff.mpr hdisabled
    have hshown := World.Trail.withView w (viewDuring w.view)
    rcases RunOf.exists_execute b.delay b.workflow.actions w.view.presentation
      (w.withView (viewDuring w.view)) with ⟨ds, htrail, hrun⟩
    have hview := htrail.view_eq fun d hd => Deed.isShown_of_isDuringRun (hrun.during d hd)
    have hstore := htrail.store_eq
    have htoken := isCancelled_of_execute b.delay b.workflow.actions w.view.presentation
      (w.withView (viewDuring w.view))
    dsimp only
    generalize execute b.delay b.workflow.actions w.view.presentation
      (w.withView (viewDuring w.view)) = ran at htrail hrun hview hstore htoken
    rcases ran with ⟨outcome, w₁⟩
    dsimp only at htrail hrun hview hstore htoken
    have hran := hshown.trans htrail
    cases outcome with
    | done r =>
        by_cases hreloaded : r.termination = .reloaded
        · simp only [if_pos hreloaded]
          rcases w₁.exists_loads b.slot with ⟨loading, hloading, hloads⟩
          have hloadedView := hloading.view_eq hloads.isShown_eq_false
          rw [hstore] at hloads
          rw [hloadedView, hview]
          exact ⟨_, hran.trans (hloading.trans (.withView ..)),
            .reloaded henabled hrun hreloaded hloads⟩
        · simp only [if_neg hreloaded]
          rw [hview]
          exact ⟨_, hran.trans (.withView w₁ _), .ran henabled hrun hreloaded⟩
    | cancelled =>
        dsimp only
        rw [hview]
        refine ⟨_, hran.trans (.withView w₁ _), .cancelled henabled hrun ?_⟩
        have hend : w₁.isCancelled = _ := congrArg Ledger.isCancelled htrail.ledger_eq
        rw [htoken rfl, Ledger.foldl_isCancelled] at hend
        rw [Ledger.foldl_isCancelled]
        exact hend.symm
    | stuck => exact ⟨_, hran, .stuck henabled hrun⟩

theorem view_click (b : Button) (w : World) :
    (b.click w).2.2.view = (b.click w).1.viewAfter (b.click w).2.1.workflow w.view := by
  rcases b.exists_clicked w with ⟨ds, htrail, hclicked⟩
  exact (congrArg Ledger.view htrail.ledger_eq).trans hclicked.view_after

end Button

end ButtonFlow
