import ButtonFlow.Proofs.Button.Career

/-!
# A disabled button

As soon as a button is seen to be disabled between two clicks, it stays so. A click on it is
ignored: there is no run, so nothing is told, asked, read, written or loaded. Nothing that
others do in between can change that, because they change neither the view nor the workflow.
-/

namespace ButtonFlow

/-- These deeds lead from one world to another, and the button looks the same throughout. -/
structure SameLook (w : World) (ds : List Deed) (w' : World) : Prop where
  shown : ∀ d ∈ ds, d.isShown = false
  view_eq : w'.view = w.view
  store_eq : w'.store = ds.foldl Store.after w.store
  history_eq : w'.history = w.history ++ moments ds

namespace SameLook

variable {w w₁ w' : World} {ds ds' : List Deed}

theorem refl (w : World) : SameLook w [] w where
  shown := List.forall_mem_nil _
  view_eq := rfl
  store_eq := rfl
  history_eq := (List.append_nil _).symm

theorem trans (h : SameLook w ds w₁) (h' : SameLook w₁ ds' w') : SameLook w (ds ++ ds') w' where
  shown := List.forall_mem_append.mpr ⟨h.shown, h'.shown⟩
  view_eq := h'.view_eq.trans h.view_eq
  store_eq := by rw [h'.store_eq, h.store_eq, List.foldl_append]
  history_eq := by rw [h'.history_eq, h.history_eq, moments_append, List.append_assoc]

theorem of_meanwhile (h : Meanwhile w ds w') : SameLook w ds w' where
  shown d hd := Deed.isShown_of_isAside (h.aside d hd)
  view_eq := h.view_eq
  store_eq := h.store_eq
  history_eq := h.history_eq

theorem of_trail (h : World.Trail w ds w') (hshown : ∀ d ∈ ds, d.isShown = false) :
    SameLook w ds w' where
  shown := hshown
  view_eq := h.view_eq hshown
  store_eq := h.store_eq
  history_eq := h.history_eq

end SameLook

/-!
## Clicks
-/

theorem Button.click_of_disabled {w : World} (h : w.view.presentation.disabled = true)
    (b : Button) : b.click w = (.ignored, b, w.note .ignored) :=
  if_pos h

theorem doings_ignored (time : Nat) (view : View) :
    doings [.noted ⟨time, view, .ignored⟩] = [.ignored] := rfl

theorem doings_closed (time : Nat) (view : View) :
    doings [.noted ⟨time, view, .closed⟩] = [] := rfl

namespace Career

variable {b₀ b : Button} {w₀ w : World} {clicks : List Click}

theorem disabled_eq (h : Career b₀ w₀ clicks b w)
    (hdisabled : w₀.view.presentation.disabled = true) : b = b₀ ∧ w.view = w₀.view := by
  refine h.invariant (P := fun b v => b = b₀ ∧ v = w₀.view) ?_ ⟨rfl, rfl⟩
  rintro b w ⟨rfl, hview⟩ _
  rw [← hview] at hdisabled
  rw [Button.click_of_disabled hdisabled]
  exact ⟨rfl, hview⟩

theorem ignored (h : Career b₀ w₀ clicks b w) (hdisabled : w₀.view.presentation.disabled = true) :
    ∀ c ∈ clicks, c.button = b₀ ∧ c.outcome = .ignored ∧ c.after = c.world.note .ignored := by
  induction h with
  | begins => exact List.forall_mem_nil _
  | meanwhile _ _ ih => exact ih
  | taken _ _ ih => exact ih
  | @clicked _ b w hcareer _ ih =>
      rcases hcareer.disabled_eq hdisabled with ⟨rfl, hview⟩
      rw [← hview] at hdisabled
      have hclick := Button.click_of_disabled hdisabled b
      refine List.forall_mem_append.mpr ⟨ih, List.forall_mem_singleton.mpr ⟨rfl, ?_, ?_⟩⟩
      · exact congrArg Prod.fst hclick
      · exact congrArg (fun clicked => clicked.2.2) hclick
  | closed _ ih => exact ih

theorem exists_sameLook (h : Career b₀ w₀ clicks b w)
    (hdisabled : w₀.view.presentation.disabled = true) :
    ∃ ds, SameLook w₀ ds w ∧ doings ds = List.replicate clicks.length .ignored := by
  induction h with
  | begins => exact ⟨[], .refl w₀, rfl⟩
  | meanwhile _ hmeanwhile ih =>
      rcases ih with ⟨ds, hsame, hdoings⟩
      refine ⟨_, hsame.trans (.of_meanwhile hmeanwhile), ?_⟩
      rw [doings_append, hdoings, doings_eq_nil hmeanwhile.aside, List.append_nil]
  | taken _ hnext ih =>
      rcases ih with ⟨ds, hsame, hdoings⟩
      rcases Session.exists_of_next?_click hnext with ⟨waited, m, htrail, hwaited, hm⟩
      have hnone := doings_taken hwaited hm []
      rw [List.append_nil] at hnone
      refine ⟨_, hsame.trans (.of_trail htrail (isShown_taken hwaited)), ?_⟩
      rw [doings_append, hdoings, hnone]
      exact List.append_nil _
  | @clicked _ b w hcareer _ ih =>
      rcases ih with ⟨ds, hsame, hdoings⟩
      have hstill : w.view.presentation.disabled = true := by
        rw [hsame.view_eq]
        exact hdisabled
      have hnoted : World.Trail w [.noted ⟨w.clock, w.view, .ignored⟩] (w.note .ignored) :=
        .note rfl hstill
      rw [Button.click_of_disabled hstill]
      refine ⟨_, hsame.trans (.of_trail hnoted (List.forall_mem_singleton.mpr rfl)), ?_⟩
      rw [doings_append, hdoings, doings_ignored, List.length_append, List.length_singleton,
        List.replicate_succ']
  | closed _ ih =>
      rcases ih with ⟨ds, hsame, hdoings⟩
      refine ⟨_, hsame.trans (.of_trail (.closeQueue _) (List.forall_mem_singleton.mpr rfl)), ?_⟩
      rw [doings_append, hdoings, doings_closed, List.append_nil]

end Career

/-!
## Sessions
-/

/-- As many clicks are ignored as are taken, and nothing else happens to the runs. -/
def IgnoresTaken (ds : List Deed) : Prop :=
  doings ds = List.replicate ((moments ds).countP (·.what.isTaken)) .ignored

theorem IgnoresTaken.append {ds ds' : List Deed} (h : IgnoresTaken ds) (h' : IgnoresTaken ds') :
    IgnoresTaken (ds ++ ds') := by
  unfold IgnoresTaken at h h' ⊢
  rw [doings_append, h, h', List.replicate_append_replicate, moments_append, List.countP_append]

theorem IgnoresTaken.of_aside {ds : List Deed} (h : ∀ d ∈ ds, d.isAside = true) :
    IgnoresTaken ds := by
  unfold IgnoresTaken
  rw [doings_eq_nil h, countP_isTaken_eq_zero h]
  rfl

theorem IgnoresTaken.taken_ignored {m m' : Moment} (htaken : m.what = .taken)
    (hignored : m'.what = .ignored) : IgnoresTaken [.noted m, .noted m'] := by
  rcases m with ⟨time, view, what⟩
  rcases m' with ⟨time', view', what'⟩
  cases htaken
  cases hignored
  rfl

theorem Round.of_disabled {b b' : Button} {l : Ledger} {ds : List Deed} {outcome : ClickOutcome}
    (h : Round b l ds outcome b') (hdisabled : l.view.presentation.disabled = true) :
    b' = b ∧ outcome = .ignored ∧ (∀ d ∈ ds, d.isShown = false) ∧ IgnoresTaken ds := by
  cases h with
  | @taken waited clicked m _ _ hwaited hm hclicked =>
      have hbefore := isShown_taken (m := m) hwaited
      have hstill : ((waited ++ [Deed.noted m]).foldl Ledger.after l).view.presentation.disabled =
          true := by
        rw [Ledger.foldl_view hbefore]
        exact hdisabled
      -- All other clicks are on a button that is not disabled.
      cases hclicked with
      | ignored _ hm' =>
          refine ⟨rfl, rfl, ?_, ?_⟩
          · exact List.forall_mem_append.mpr ⟨hbefore, List.forall_mem_singleton.mpr rfl⟩
          · rw [List.append_assoc]
            exact (IgnoresTaken.of_aside hwaited).append (.taken_ignored hm hm')
      | ran henabled _ _ => exact absurd hstill (Bool.eq_false_iff.mp henabled)
      | reloaded henabled _ _ _ => exact absurd hstill (Bool.eq_false_iff.mp henabled)
      | cancelled henabled _ _ => exact absurd hstill (Bool.eq_false_iff.mp henabled)
      | stuck henabled _ => exact absurd hstill (Bool.eq_false_iff.mp henabled)

theorem Served.of_disabled {b b' : Button} {l : Ledger} {ds : List Deed} {ended : Bool}
    (h : Served b l ds ended b') (hdisabled : l.view.presentation.disabled = true) :
    b' = b ∧ (∀ d ∈ ds, d.isShown = false) ∧ IgnoresTaken ds := by
  induction h with
  | left hwaited _ =>
      exact ⟨rfl, fun d hd => Deed.isShown_of_isAside (hwaited d hd), .of_aside hwaited⟩
  | hung => exact ⟨rfl, List.forall_mem_nil _, rfl⟩
  | wentOn hround _ _ ih =>
      rcases hround.of_disabled hdisabled with ⟨rfl, _, hshown, hignores⟩
      rw [Ledger.foldl_view hshown] at ih
      rcases ih hdisabled with ⟨rfl, hlater, hignoresLater⟩
      exact ⟨rfl, List.forall_mem_append.mpr ⟨hshown, hlater⟩, hignores.append hignoresLater⟩
  | stopped hround _ =>
      rcases hround.of_disabled hdisabled with ⟨rfl, _, hshown, hignores⟩
      exact ⟨rfl, hshown, hignores⟩

theorem Session.exists_sameLook (b : Button) {w : World}
    (hdisabled : w.view.presentation.disabled = true) :
    (run b w).2.1 = b ∧ ∃ ds, SameLook w ds (run b w).2.2 ∧
      (∀ m ∈ moments ds, m.view = w.view) ∧ IgnoresTaken ds := by
  rcases exists_served_run b w with ⟨waited, served, closing, htrail, hwaited, hserved, hclosing⟩
  have hwaitedShown : ∀ d ∈ waited, d.isShown = false :=
    fun d hd => Deed.isShown_of_isAside (hwaited d hd)
  have hstill : (waited.foldl Ledger.after w.ledger).view.presentation.disabled = true := by
    rw [Ledger.foldl_view hwaitedShown]
    exact hdisabled
  rcases hserved.of_disabled hstill with ⟨hbutton, hservedShown, hignores⟩
  have hclosed : (∀ d ∈ closing, d.isShown = false) ∧ IgnoresTaken closing := by
    rcases hclosing with rfl | ⟨⟨time, view, what⟩, rfl, ⟨⟩⟩
    · exact ⟨List.forall_mem_nil _, rfl⟩
    · exact ⟨List.forall_mem_singleton.mpr rfl, rfl⟩
  have hshown : ∀ d ∈ waited ++ served ++ closing, d.isShown = false :=
    List.forall_mem_append.mpr
      ⟨List.forall_mem_append.mpr ⟨hwaitedShown, hservedShown⟩, hclosed.1⟩
  exact ⟨hbutton, _, .of_trail htrail hshown, htrail.lawful.view_eq hshown,
    ((IgnoresTaken.of_aside hwaited).append hignores).append hclosed.2⟩

/-!
## All that follows
-/

/-- Whatever follows once a button is disabled, be it clicks with any token, sessions, or what
others save, write and cancel: its workflow and its look stay the same. Every click is ignored,
and that is the only thing that happens to the runs. The same holds of the next click and of a
session. -/
theorem Career.disabled_final {b₀ b : Button} {w₀ w : World} {clicks : List Click}
    (hdisabled : w₀.view.presentation.disabled = true) (h : Career b₀ w₀ clicks b w) :
    b = b₀ ∧ w.view = w₀.view ∧
      (∀ c ∈ clicks, c.button = b₀ ∧ c.outcome = .ignored ∧ c.after = c.world.note .ignored) ∧
      (∃ ds, SameLook w₀ ds w ∧ doings ds = List.replicate clicks.length .ignored) ∧
      b.click w = (.ignored, b₀, w.note .ignored) ∧
      (Session.run b w).2.1 = b₀ ∧
      ∃ ds, SameLook w ds (Session.run b w).2.2 ∧ (∀ m ∈ moments ds, m.view = w₀.view) ∧
        doings ds = List.replicate ((moments ds).countP (·.what.isTaken)) .ignored := by
  rcases h.disabled_eq hdisabled with ⟨rfl, hview⟩
  have hstill : w.view.presentation.disabled = true := by
    rw [hview]
    exact hdisabled
  rcases Session.exists_sameLook b hstill with ⟨hbutton, ds, hsame, hmoments, hignores⟩
  rw [hview] at hmoments
  exact ⟨rfl, hview, h.ignored hdisabled, h.exists_sameLook hdisabled,
    Button.click_of_disabled hstill b, hbutton, ds, hsame, hmoments, hignores⟩

namespace Career

def usableOnce : Workflow :=
  ⟨"Once", [⟨"a", .disableButton, .empty⟩]⟩

def usableOnceWorld : World :=
  .fresh (.memory [(Slot.usual, Workflow.format.print usableOnce)] Faults.none)
    (Host.prompt [] false) []

@[irreducible] def usedOnce : Button × World :=
  let made := Button.make Slot.usual 300 usableOnceWorld
  (made.1.click made.2).2

def replacement : Change :=
  .set Slot.usual (Workflow.format.print (.labelled "Other"))

def replacedWorld : World :=
  (usedOnce.2.changed replacement).prepared (fun _ => false) [⟨0, .click 2⟩, ⟨0, .leave⟩]

theorem disabled_final_replaced :
    let next := usedOnce.1.click replacedWorld
    let ran := Session.run next.2.1 next.2.2
    Career usedOnce.1 usedOnce.2 [⟨usedOnce.1, replacedWorld⟩] next.2.1 next.2.2 ∧
      next.1 = .ignored ∧ next.2.1 = usedOnce.1 ∧ ran.2.1 = usedOnce.1 ∧
      ran.2.2.history.countP (·.what.isTaken) = 2 ∧
      (∃ ds, SameLook next.2.2 ds ran.2.2 ∧ ∀ m ∈ moments ds, m.view = usedOnce.2.view) ∧
      (Slot.load usedOnce.1.slot ran.2.2.store).label = "Other" := by
  intro next ran
  have hdisabled : usedOnce.2.view.presentation.disabled = true := by decide +kernel
  have hreplaced : Career usedOnce.1 usedOnce.2 [] usedOnce.1 replacedWorld :=
    (Career.begins.meanwhile (.of_change _ replacement)).meanwhile (.of_prepared _ _ _)
  have hignored : next = (.ignored, usedOnce.1, replacedWorld.note .ignored) :=
    (disabled_final hdisabled hreplaced).2.2.2.2.1
  have hends : next.1 ≠ .stuck := by
    rw [hignored]
    exact nofun
  have hcareer : Career usedOnce.1 usedOnce.2 [⟨usedOnce.1, replacedWorld⟩] next.2.1 next.2.2 :=
    hreplaced.clicked hends
  rcases disabled_final hdisabled hcareer with
    ⟨hbutton, _, _, _, _, hran, ds, hsame, hmoments, _⟩
  have htaken : ran.2.2.history.countP (·.what.isTaken) = 2 ∧
      (Slot.load usedOnce.1.slot ran.2.2.store).label = "Other" := by
    decide +kernel
  exact ⟨hcareer, congrArg Prod.fst hignored, hbutton, hran, htaken.1, ⟨ds, hsame, hmoments⟩,
    htaken.2⟩

end Career

end ButtonFlow
