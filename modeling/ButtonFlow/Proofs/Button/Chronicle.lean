import ButtonFlow.Proofs.Button.Life
import ButtonFlow.Proofs.Button.Served

/-!
# Which workflow is performed

A button loads a workflow when it is made, and again at the end of a run that has reloaded the
page, and at no other time. All runs in between perform this workflow, whatever is written to
the slot meanwhile, be it by others or by the runs themselves. The load at the end of a run
sees everything that was written before.
-/

namespace ButtonFlow

/-- Whether it is none of what runs do, and no load. -/
def Deed.isBetweenRuns : Deed → Bool
  | .noted m =>
      match m.what with
      | .visitor _ | .cancelled | .taken | .ignored | .closed => true
      | _ => false
  | .acted .. | .shown _ => true

theorem Deed.isBetweenRuns_of_isAside {d : Deed} (h : d.isAside = true) :
    d.isBetweenRuns = true := by
  cases d with
  | noted m =>
      rcases m with ⟨time, view, what⟩
      cases what <;> simp_all [isAside, isBetweenRuns]
  | acted touch time view reply => rfl
  | shown view => rfl

/-- From a time at which this workflow was loaded and the store was this one, these deeds were
done, and this workflow is loaded now. Every run performs the workflow that is loaded when it
starts. -/
inductive Chronicle (slot : String) : Workflow → Store → List Deed → Workflow → Prop where
  | nothing {workflow : Workflow} {store : Store} : Chronicle slot workflow store [] workflow
  | between {workflow last : Workflow} {store : Store} {ds later : List Deed}
      (hds : ∀ d ∈ ds, d.isBetweenRuns = true)
      (hlater : Chronicle slot workflow (ds.foldl Store.after store) later last) :
      Chronicle slot workflow store (ds ++ later) last
  | ran {workflow last : Workflow} {store : Store} {colors : Nat → Nat} {p : Presentation}
      {ds later : List Deed} {outcome : Outcome RunResult}
      (hrun : RunOf colors workflow.actions p ds outcome)
      (hstays : ∀ r, outcome = .done r → r.termination ≠ .reloaded)
      (hlater : Chronicle slot workflow (ds.foldl Store.after store) later last) :
      Chronicle slot workflow store (ds ++ later) last
  | reloaded {workflow fresh last : Workflow} {store : Store} {colors : Nat → Nat}
      {p : Presentation} {ds loading later : List Deed} {r : RunResult}
      (hrun : RunOf colors workflow.actions p ds (.done r)) (hreloaded : r.termination = .reloaded)
      (hloads : Loads slot (ds.foldl Store.after store) loading fresh)
      (hlater : Chronicle slot fresh ((ds ++ loading).foldl Store.after store) later last) :
      Chronicle slot workflow store (ds ++ loading ++ later) last

namespace Chronicle

variable {slot : String} {workflow workflow' last : Workflow} {store : Store} {ds later : List Deed}

theorem append (h : Chronicle slot workflow store ds workflow')
    (h' : Chronicle slot workflow' (ds.foldl Store.after store) later last) :
    Chronicle slot workflow store (ds ++ later) last := by
  induction h with
  | nothing => exact h'
  | between hds _ ih =>
      rw [List.append_assoc]
      rw [List.foldl_append] at h'
      exact .between hds (ih h')
  | ran hrun hstays _ ih =>
      rw [List.append_assoc]
      rw [List.foldl_append] at h'
      exact .ran hrun hstays (ih h')
  | reloaded hrun hreloaded hloads _ ih =>
      rw [List.append_assoc]
      rw [List.foldl_append] at h'
      exact .reloaded hrun hreloaded hloads (ih h')

theorem of_between (hds : ∀ d ∈ ds, d.isBetweenRuns = true) :
    Chronicle slot workflow store ds workflow := by
  rw [← List.append_nil ds]
  exact .between hds .nothing

theorem of_aside (hds : ∀ d ∈ ds, d.isAside = true) :
    Chronicle slot workflow store ds workflow :=
  of_between fun d hd => Deed.isBetweenRuns_of_isAside (hds d hd)

theorem of_ran {colors : Nat → Nat} {p : Presentation} {outcome : Outcome RunResult}
    (hrun : RunOf colors workflow.actions p ds outcome)
    (hstays : ∀ r, outcome = .done r → r.termination ≠ .reloaded) :
    Chronicle slot workflow store ds workflow := by
  rw [← List.append_nil ds]
  exact .ran hrun hstays .nothing

theorem shown (view : View) (h : Chronicle slot workflow store ds last) :
    Chronicle slot workflow store (.shown view :: ds) last := by
  have hshown : ∀ d ∈ [Deed.shown view], d.isBetweenRuns = true :=
    List.forall_mem_singleton.mpr rfl
  exact .between hshown h

theorem of_shown (view : View) : Chronicle slot workflow store [.shown view] workflow :=
  .of_between (List.forall_mem_singleton.mpr rfl)

end Chronicle

/-!
## Clicks and sessions
-/

theorem Clicked.slot_eq {b b' : Button} {l : Ledger} {ds : List Deed} {outcome : ClickOutcome}
    (h : Clicked b l ds outcome b') : b'.slot = b.slot := by
  cases h <;> rfl

theorem Clicked.chronicle {b b' : Button} {l : Ledger} {ds : List Deed} {outcome : ClickOutcome}
    (h : Clicked b l ds outcome b') : Chronicle b.slot b.workflow l.store ds b'.workflow := by
  cases h with
  | @ignored m _ hm =>
      refine .of_between (List.forall_mem_singleton.mpr ?_)
      rcases m with ⟨time, view, what⟩
      cases hm
      rfl
  | ran _ hrun hstays =>
      refine .shown _ (.append (.of_ran hrun ?_) (.of_shown _))
      rintro r ⟨⟩
      exact hstays
  | reloaded _ hrun hreloaded hloads =>
      rw [← List.append_assoc]
      exact .shown _ (.reloaded hrun hreloaded hloads (.of_shown _))
  | cancelled _ hrun _ => exact .shown _ (.append (.of_ran hrun nofun) (.of_shown _))
  | stuck _ hrun => exact .shown _ (.of_ran hrun nofun)

theorem Round.slot_eq {b b' : Button} {l : Ledger} {ds : List Deed} {outcome : ClickOutcome}
    (h : Round b l ds outcome b') : b'.slot = b.slot := by
  cases h with
  | taken _ _ hclicked => exact hclicked.slot_eq

theorem Round.chronicle {b b' : Button} {l : Ledger} {ds : List Deed} {outcome : ClickOutcome}
    (h : Round b l ds outcome b') : Chronicle b.slot b.workflow l.store ds b'.workflow := by
  cases h with
  | @taken waited clicked m _ _ hwaited hm hclicked =>
      have hbefore : ∀ d ∈ waited ++ [.noted m], d.isBetweenRuns = true := by
        refine List.forall_mem_append.mpr ⟨?_, List.forall_mem_singleton.mpr ?_⟩
        · exact fun d hd => Deed.isBetweenRuns_of_isAside (hwaited d hd)
        · rcases m with ⟨time, view, what⟩
          cases hm
          rfl
      have hchronicle := hclicked.chronicle
      rw [Ledger.foldl_store] at hchronicle
      exact .between hbefore hchronicle

theorem Served.chronicle {b b' : Button} {l : Ledger} {ds : List Deed} {ended : Bool}
    (h : Served b l ds ended b') : Chronicle b.slot b.workflow l.store ds b'.workflow := by
  induction h with
  | left hwaited _ => exact .of_aside hwaited
  | hung => exact .nothing
  | wentOn hround _ _ ih =>
      rw [hround.slot_eq, Ledger.foldl_store] at ih
      exact hround.chronicle.append ih
  | stopped hround _ => exact hround.chronicle

theorem Session.chronicle (b : Button) (w : World) :
    ∃ ds, World.Trail w ds (run b w).2.2 ∧
      Chronicle b.slot b.workflow w.store ds (run b w).2.1.workflow := by
  rcases exists_served_run b w with ⟨waited, served, closing, htrail, hwaited, hserved, hclosing⟩
  have hclosed : ∀ d ∈ closing, d.isBetweenRuns = true := by
    rcases hclosing with rfl | ⟨⟨time, view, what⟩, rfl, ⟨⟩⟩
    · exact List.forall_mem_nil _
    · exact List.forall_mem_singleton.mpr rfl
  have hchronicle := hserved.chronicle
  rw [Ledger.foldl_store] at hchronicle
  exact ⟨_, htrail, ((Chronicle.of_aside hwaited).append hchronicle).append (.of_between hclosed)⟩

/-!
## The whole life
-/

theorem Slot.load_eq_initial {slot : String} {store : Store}
    (h : ∀ text workflow, store.get slot = .ok (some text) →
      Workflow.format.parse text ≠ .ok workflow) : load slot store = .initial := by
  unfold load load?
  cases hget : store.get slot with
  | error e => rfl
  | ok value =>
      cases value with
      | none => rfl
      | some text =>
          cases hparse : Workflow.format.parse text with
          | error f => simp only [hparse]
          | ok workflow => exact (h text workflow hget hparse).elim

/-- Since a button was made in the world `start`, others wanted this besides clicks, and this
workflow is loaded now: the button began with a load, and all that was done since is a
chronicle. -/
def Chronicled (slot : String) (start : World) (others : List (Option Change))
    (workflow : Workflow) (w : World) : Prop :=
  ∃ loading later first,
    w.history = start.history ++ moments (loading ++ later) ∧
    errands (loading ++ later) = others ∧
    w.store = (loading ++ later).foldl Store.after start.store ∧
    Loads slot start.store loading first ∧
    Chronicle slot first (loading.foldl Store.after start.store) later workflow

namespace Chronicled

variable {slot : String} {start w w' : World} {others others' : List (Option Change)}
  {workflow workflow' : Workflow} {ds : List Deed}

theorem extend (h : Chronicled slot start others workflow w)
    (hhistory : w'.history = w.history ++ moments ds)
    (hstore : w'.store = ds.foldl Store.after w.store)
    (hchronicle : Chronicle slot workflow w.store ds workflow') :
    Chronicled slot start (others ++ errands ds) workflow' w' := by
  rcases h with ⟨loading, later, first, hpast, hothers, hnow, hloads, hbefore⟩
  refine ⟨loading, later ++ ds, first, ?_, ?_, ?_, hloads, hbefore.append ?_⟩
  · rw [hhistory, hpast, ← List.append_assoc, moments_append (loading ++ later),
      List.append_assoc]
  · rw [← List.append_assoc, errands_append, hothers]
  · rw [hstore, hnow, ← List.append_assoc, ← List.foldl_append]
  · rw [← List.foldl_append, ← hnow]
    exact hchronicle

theorem extend_trail (h : Chronicled slot start others workflow w) (htrail : World.Trail w ds w')
    (hothers : plannedErrands w.plan = others' ++ plannedErrands w'.plan)
    (hchronicle : Chronicle slot workflow w.store ds workflow') :
    Chronicled slot start (others ++ others') workflow' w' := by
  have hsame : errands ds = others' :=
    List.append_cancel_right (htrail.errands_eq.symm.trans hothers)
  rw [← hsame]
  exact h.extend htrail.history_eq htrail.store_eq hchronicle

end Chronicled

namespace Life

variable {slot : String} {delay : Nat} {start w : World} {others : List (Option Change)}
  {outcomes : List ClickOutcome} {b : Button}

theorem slot_eq (h : Life slot delay start others outcomes b w) : b.slot = slot := by
  induction h with
  | made _ => rfl
  | meanwhile _ _ ih => exact ih
  | @clicked _ _ _ b w _ _ _ ih =>
      rcases b.exists_clicked w with ⟨ds, _, hclicked⟩
      exact hclicked.slot_eq.trans ih

theorem chronicled (h : Life slot delay start others outcomes b w) :
    Chronicled slot start others b.workflow w := by
  induction h with
  | @made others hothers =>
      rcases start.exists_loads slot with ⟨loading, hloading, hloads⟩
      have hshown := World.Trail.withView (start.loadWorkflow slot).2
        (View.initial (start.loadWorkflow slot).1)
      have htrail := hloading.trans hshown
      have hsame : errands (loading ++ [.shown (View.initial (start.loadWorkflow slot).1)]) =
          others :=
        List.append_cancel_right (htrail.errands_eq.symm.trans hothers)
      exact ⟨loading, _, _, htrail.history_eq, hsame, htrail.store_eq, hloads, .of_shown _⟩
  | meanwhile _ hmeanwhile ih =>
      exact ih.extend hmeanwhile.history_eq hmeanwhile.store_eq (.of_aside hmeanwhile.aside)
  | @clicked _ _ _ b w hlife hothers _ ih =>
      rcases b.exists_clicked w with ⟨ds, htrail, hclicked⟩
      have hchronicle := hclicked.chronicle
      rw [hlife.slot_eq] at hchronicle
      exact ih.extend_trail htrail hothers hchronicle

/-- Whatever is written to the slot, by others between and during the clicks or by the runs
themselves: all runs of a button perform the workflow that was loaded when the button was made,
or at the end of the latest run that has reloaded the page. This holds of the clicks so far, of
one more click, and of a session. If what is in the slot cannot be read, or if nothing is, then
the workflow is the initial one, without actions. -/
theorem performs_loaded (h : Life slot delay start others outcomes b w) :
    Chronicled slot start others b.workflow w ∧
    (∃ others', plannedErrands w.plan = others' ++ plannedErrands (b.click w).2.2.plan ∧
      Chronicled slot start (others ++ others') (b.click w).2.1.workflow (b.click w).2.2) ∧
    (∃ others', plannedErrands w.plan = others' ++ plannedErrands (Session.run b w).2.2.plan ∧
      Chronicled slot start (others ++ others') (Session.run b w).2.1.workflow
        (Session.run b w).2.2) ∧
    ∀ store : Store,
      (∀ text workflow, store.get slot = .ok (some text) →
        Workflow.format.parse text ≠ .ok workflow) →
      Slot.load slot store = .initial ∧ (Slot.load slot store).actions = [] := by
  have hchronicled := h.chronicled
  refine ⟨hchronicled, ?_, ?_, ?_⟩
  · rcases b.exists_clicked w with ⟨ds, htrail, hclicked⟩
    have hchronicle := hclicked.chronicle
    rw [h.slot_eq] at hchronicle
    exact ⟨_, htrail.errands_eq, hchronicled.extend_trail htrail htrail.errands_eq hchronicle⟩
  · rcases Session.chronicle b w with ⟨ds, htrail, hchronicle⟩
    rw [h.slot_eq] at hchronicle
    exact ⟨_, htrail.errands_eq, hchronicled.extend_trail htrail htrail.errands_eq hchronicle⟩
  · intro store hunreadable
    have hinitial := Slot.load_eq_initial hunreadable
    exact ⟨hinitial, congrArg Workflow.actions hinitial⟩

/-- A workflow that saves another one in its own slot and then reloads the page. -/
def selfReplacing : Workflow where
  label := "Old"
  actions := [
    ⟨"a", .setLocalStorage, ⟨[("key", .string Slot.usual),
      ("value", .string (Workflow.format.print (.labelled "New")))]⟩⟩,
    ⟨"b", .refreshPage, .empty⟩]

def replacingWorld : World :=
  .fresh (.memory [(Slot.usual, Workflow.format.print selfReplacing)] Faults.none)
    (Host.prompt [] false) []

@[irreducible] def replacing : Button × World :=
  Button.make Slot.usual 300 replacingWorld

def otherSave : Change :=
  .set Slot.usual (Workflow.format.print (.labelled "Other"))

def resavedWorld : World :=
  { replacing.2 with store := replacing.2.store.change otherSave }.note (.visitor .done)

theorem performs_loaded_replacing :
    Life Slot.usual 300 replacingWorld [some otherSave] [] replacing.1 resavedWorld ∧
      let next := replacing.1.click resavedWorld
      Chronicled Slot.usual replacingWorld [some otherSave] next.2.1.workflow next.2.2 ∧
      next.2.2.events.head? = some (.runStarted "0" 2) ∧
      next.2.2.events.getLast? = some (.runCompleted "0" .reloaded) ∧
      next.2.1.workflow.label = "New" := by
  have hidle : plannedErrands replacingWorld.plan = [] ++ plannedErrands replacing.2.plan := by
    decide +kernel
  have hmade : Life Slot.usual 300 replacingWorld [] [] replacing.1 replacing.2 := by
    unfold replacing at hidle ⊢
    exact .made hidle
  have hother : Meanwhile replacing.2
      [.acted (.change otherSave) replacing.2.clock replacing.2.view .done] resavedWorld :=
    ⟨List.forall_mem_singleton.mpr rfl, rfl, rfl, List.reverse_cons⟩
  have hlife : Life Slot.usual 300 replacingWorld [some otherSave] [] replacing.1 resavedWorld :=
    hmade.meanwhile hother
  rcases hlife.performs_loaded with ⟨_, ⟨others', hothers, hnext⟩, _, _⟩
  have hnone : plannedErrands resavedWorld.plan = [] := by decide +kernel
  rw [hnone] at hothers
  rw [(List.append_eq_nil_iff.mp hothers.symm).1, List.append_nil] at hnext
  refine ⟨hlife, hnext, ?_⟩
  decide +kernel

end Life

end ButtonFlow
