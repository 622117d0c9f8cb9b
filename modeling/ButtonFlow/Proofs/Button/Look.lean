import ButtonFlow.Proofs.Button.Career
import ButtonFlow.Proofs.Except
import ButtonFlow.Proofs.Run.Styles

/-!
# The look of a button

Between clicks a button looks as the steps of the earlier clicks have made it: those of the
clicks that ran since the page was reloaded the last time, or since the button was made. A
click that is cancelled or ignored does not count, although what it has written stays.
-/

namespace ButtonFlow

/-!
## One click
-/

namespace Styled

variable {all : List Action} {w w' : World} {p q : Presentation}

theorem idle {w'' : World} (h : Styled all w p w' q) (hevents : w''.events = w'.events) :
    Styled all w p w'' q := by
  rcases h with ⟨told, hnew, hq⟩
  exact ⟨told, hevents.trans hnew, hq⟩

end Styled

theorem World.events_loadWorkflow (w : World) (slot : String) :
    (w.loadWorkflow slot).2.events = w.events := by
  rcases w.exists_loads slot with ⟨ds, htrail, hloads⟩
  rw [events_eq_doings, events_eq_doings, htrail.doings_eq, hloads.doings_eq, List.filterMap_append]
  exact List.append_nil _

namespace Click

def told (c : Click) : List Event :=
  c.after.events.drop c.world.events.length

/-- The actions that are performed during the click. -/
def performed (c : Click) : List Action :=
  c.told.filterMap (Event.begun? c.button.workflow.actions)

def colors (c : Click) : List String :=
  paints c.world.draws.color c.world.draws.colors c.performed

theorem styled_of_ran {c : Click} {r : RunResult} (h : c.outcome = .ran r) :
    Styled c.button.workflow.actions c.world c.world.view.presentation c.after r.presentation := by
  rcases c with ⟨b, w⟩
  unfold outcome after Button.click at *
  dsimp only at h ⊢
  split at h
  · cases h
  · rename_i hdisabled
    rw [if_neg hdisabled]
    cases hran : execute b.delay b.workflow.actions w.view.presentation
      (w.withView (Button.viewDuring w.view)) with
    | mk outcome w₁ =>
        rw [hran] at h
        cases outcome with
        | done result =>
            -- What the button looks like has nothing to do with what is told and drawn.
            have hshown : Styled b.workflow.actions (w.withView (Button.viewDuring w.view))
                w.view.presentation w₁ result.presentation := styled_execute hran
            have hstyled : Styled b.workflow.actions w w.view.presentation w₁ result.presentation :=
              hshown
            dsimp only at h ⊢
            by_cases hreloaded : result.termination = .reloaded
            · rw [if_pos hreloaded] at h ⊢
              cases h
              exact hstyled.idle (w₁.events_loadWorkflow b.slot)
            · rw [if_neg hreloaded] at h ⊢
              cases h
              exact hstyled.idle rfl
        | cancelled => cases h
        | stuck => cases h

theorem presentation_of_ran {c : Click} {r : RunResult} (h : c.outcome = .ran r) :
    r.presentation = c.world.view.presentation.restyled c.world.draws.color c.world.draws.colors
      c.performed := by
  rcases styled_of_ran h with ⟨told, hevents, hpresentation⟩
  have htold : c.told = told := by
    unfold Click.told
    rw [hevents, List.drop_left]
  unfold performed
  rw [htold]
  exact hpresentation

theorem view_after (c : Click) :
    c.after.view = c.outcome.viewAfter (c.button.click c.world).2.1.workflow c.world.view :=
  c.button.view_click c.world

def hasRan (c : Click) : Bool := c.outcome.isRan

def hasReloaded (c : Click) : Bool :=
  match c.outcome with
  | .ran r => r.termination = .reloaded
  | _ => false

/-!
## Many clicks
-/

/-- The clicks after the latest one at the end of which the page was reloaded. -/
def sinceReload (clicks : List Click) : List Click :=
  (clicks.reverse.takeWhile (!·.hasReloaded)).reverse

theorem sinceReload_append (clicks : List Click) (c : Click) :
    sinceReload (clicks ++ [c]) = if c.hasReloaded then [] else sinceReload clicks ++ [c] := by
  unfold sinceReload
  rw [List.reverse_append, List.reverse_singleton, List.singleton_append, List.takeWhile_cons]
  cases c.hasReloaded with
  | true => rfl
  | false => exact List.reverse_cons

/-- The clicks whose runs make up the look of the button. -/
def counted (clicks : List Click) : List Click :=
  (sinceReload clicks).filter hasRan

theorem counted_append (clicks : List Click) (c : Click) :
    counted (clicks ++ [c]) =
      if c.hasReloaded then [] else if c.hasRan then counted clicks ++ [c] else counted clicks := by
  unfold counted
  rw [sinceReload_append]
  split
  · rfl
  · rw [List.filter_append]
    split
    · rename_i hran
      rw [List.filter_cons_of_pos hran]
      rfl
    · rename_i hran
      rw [List.filter_cons_of_neg hran]
      exact List.append_nil _

theorem counted_append_of_not_ran {c : Click} (h : c.hasRan = false) (clicks : List Click) :
    counted (clicks ++ [c]) = counted clicks := by
  have hreloaded : c.hasReloaded = false := by
    unfold hasRan at h
    unfold hasReloaded
    cases houtcome : c.outcome with
    | ran r =>
        rw [houtcome] at h
        cases h
    | _ => rfl
  rw [counted_append, hreloaded, h]
  rfl

/-- What clicks make of a button that was new before. -/
def look (clicks : List Click) : Presentation where
  sizeSteps := (clicks.flatMap performed).countP (·.kind = .increaseButtonSize)
  color := (clicks.flatMap colors).getLast?
  disabled := (clicks.flatMap performed).any (·.kind = .disableButton)

theorem look_append (clicks : List Click) (c : Click) :
    look (clicks ++ [c]) =
      (look clicks).restyled c.world.draws.color c.world.draws.colors c.performed := by
  simp only [look, Presentation.restyled, List.flatMap_append, List.flatMap_singleton,
    List.countP_append, List.getLast?_append, List.any_append]
  rfl

theorem presentation_after {clicks : List Click} {c : Click} (hends : c.outcome ≠ .stuck)
    (hlook : c.world.view.presentation = look (counted clicks)) :
    c.after.view.presentation = look (counted (clicks ++ [c])) := by
  rw [c.view_after]
  cases houtcome : c.outcome with
  | ran r =>
      have hran : c.hasRan = true := by
        unfold hasRan
        rw [houtcome]
        rfl
      have hreloaded : c.hasReloaded = decide (r.termination = .reloaded) := by
        unfold hasReloaded
        rw [houtcome]
      rw [counted_append, hran, hreloaded, ClickOutcome.viewAfter]
      by_cases hreload : r.termination = .reloaded
      · rw [if_pos hreload, if_pos (decide_eq_true hreload)]
        rfl
      · rw [if_neg hreload, if_neg (by simp [hreload]), if_pos rfl, look_append, ← hlook]
        exact presentation_of_ran houtcome
  | ignored =>
      rw [counted_append_of_not_ran (by rw [hasRan, houtcome]; rfl)]
      exact hlook
  | cancelled =>
      rw [counted_append_of_not_ran (by rw [hasRan, houtcome]; rfl)]
      exact hlook
  | stuck => exact absurd houtcome hends

theorem presentation_of_cancelled {c : Click} (h : c.outcome = .cancelled) :
    c.after.view.presentation = c.world.view.presentation := by
  rw [c.view_after, h]
  rfl

end Click

namespace Career

variable {b₀ b : Button} {w₀ w : World} {clicks : List Click}

theorem look_eq (h : Career b₀ w₀ clicks b w) (hnew : w₀.view.presentation = .initial) :
    w.view.presentation = Click.look (Click.counted clicks) := by
  induction h with
  | begins => exact hnew
  | meanwhile _ hmeanwhile ih =>
      rw [hmeanwhile.view_eq]
      exact ih
  | taken _ hnext ih =>
      rw [Session.view_of_next? hnext]
      exact ih
  | @clicked _ b w _ hends ih => exact Click.presentation_after (c := ⟨b, w⟩) hends ih
  | closed _ ih => exact ih

/-- Between clicks, whatever tokens they had and whatever others did, the presentation of a
button is made by the steps of the clicks that ran since the last reload, or since the button
was made: its size counts their steps that enlarge it, its color is the last one that they gave
it, and it is disabled if one of them has disabled it. A cancelled click leaves the
presentation as it was, and the store as all its deeds have made it. A session goes on in the
same way until it ends or hangs. -/
theorem presentation_since_reload {slot : String} {delay : Nat} {start : World}
    (h : Career (Button.make slot delay start).1 (Button.make slot delay start).2 clicks b w) :
    let counted := Click.counted clicks
    let performed := counted.flatMap Click.performed
    w.view.presentation.sizeSteps = performed.countP (·.kind = .increaseButtonSize) ∧
    w.view.presentation.color = (counted.flatMap Click.colors).getLast? ∧
    (w.view.presentation.disabled = true ↔ ∃ action ∈ performed, action.kind = .disableButton) ∧
    (∀ c ∈ clicks, c.outcome = .cancelled →
      c.after.view.presentation = c.world.view.presentation ∧
      ∃ ds, World.Trail c.world ds c.after ∧ c.after.history = c.world.history ++ moments ds ∧
        c.after.store = ds.foldl Store.after c.world.store) ∧
    ∃ later b' w',
      Career (Button.make slot delay start).1 (Button.make slot delay start).2 (clicks ++ later)
        b' w' ∧
      (Session.run b w = (true, b', w'.closeQueue) ∨
        (Session.run b w).1 = false ∧ Hangs b' w') := by
  intro counted performed
  have hlook := h.look_eq rfl
  refine ⟨?_, ?_, ?_, ?_, ?_⟩
  · rw [hlook]
    rfl
  · rw [hlook]
    rfl
  · rw [hlook, Click.look, List.any_eq_true]
    simp only [decide_eq_true_eq]
    exact Iff.rfl
  · intro c _ hcancelled
    rcases c.button.exists_clicked c.world with ⟨ds, htrail, _⟩
    exact ⟨c.presentation_of_cancelled hcancelled, ds, htrail, htrail.history_eq, htrail.store_eq⟩
  · rcases Session.exists_career_run b w with ⟨later, b', w', hlater, ⟨hran, _⟩ | hhung⟩
    · exact ⟨later, b', w', h.trans hlater, Or.inl hran⟩
    · exact ⟨later, b', w', h.trans hlater, Or.inr hhung⟩

def painting : Workflow where
  label := "Paint"
  actions := [
    ⟨"a", .setLocalStorage, ⟨[("key", .string "k"), ("value", .string "v")]⟩⟩,
    ⟨"b", .increaseButtonSize, .empty⟩,
    ⟨"c", .changeButtonColor, .empty⟩]

def paintingWorld : World :=
  .fresh (.memory [(Slot.usual, Workflow.format.print painting)] Faults.none)
    (Host.prompt [] false) []

@[irreducible] def unpainted : Button × World :=
  Button.make Slot.usual 300 paintingWorld

def paintedOnce : ClickOutcome × Button × World :=
  unpainted.1.click unpainted.2

/-- Then somebody else removes what was written, and the next token is cancelled as soon as the
button looks different. -/
def strippedWorld : World :=
  (paintedOnce.2.2.changed (.remove "k")).prepared (fun e => e.tag = .presentationChanged) []

def paintedTwice : ClickOutcome × Button × World :=
  paintedOnce.2.1.click strippedWorld

def paintings : List Click :=
  [⟨unpainted.1, unpainted.2⟩] ++ [⟨paintedOnce.2.1, strippedWorld⟩]

theorem presentation_since_reload_painting :
    Career (Button.make Slot.usual 300 paintingWorld).1 (Button.make Slot.usual 300 paintingWorld).2
        paintings paintedTwice.2.1 paintedTwice.2.2 ∧
      paintedTwice.1 = .cancelled ∧
      ((Click.counted paintings).flatMap Click.performed).countP
        (·.kind = .increaseButtonSize) = 1 ∧
      ((Click.counted paintings).flatMap Click.colors).getLast? = some "#000000" ∧
      strippedWorld.store.get "k" = .ok none ∧
      paintedTwice.2.2.store.get "k" = .ok (some "v") ∧
      paintedTwice.2.2.view.presentation = strippedWorld.view.presentation := by
  have hfacts : paintedOnce.1.isRan = true ∧ paintedTwice.1.isCancelled = true ∧
      paintedTwice.2.2.view.presentation.sizeSteps = 1 ∧
      paintedTwice.2.2.view.presentation.color = some "#000000" ∧
      (strippedWorld.store.get "k").toOption = some none ∧
      (paintedTwice.2.2.store.get "k").toOption = some (some "v") := by
    decide +kernel
  rcases hfacts with ⟨hran, hwhat, hsize, hcolor, hremoved, hwritten⟩
  have hfirst : paintedOnce.1 ≠ .stuck := by
    intro hstuck
    rw [hstuck] at hran
    cases hran
  have hcancelled : paintedTwice.1 = .cancelled := ClickOutcome.eq_cancelled hwhat
  have hends : paintedTwice.1 ≠ .stuck := by
    rw [hcancelled]
    exact nofun
  have hfirstCareer : Career unpainted.1 unpainted.2 [⟨unpainted.1, unpainted.2⟩]
      paintedOnce.2.1 paintedOnce.2.2 :=
    Career.begins.clicked_of_eq rfl hfirst
  have hstripped : Career unpainted.1 unpainted.2 [⟨unpainted.1, unpainted.2⟩]
      paintedOnce.2.1 strippedWorld :=
    (hfirstCareer.meanwhile (.of_change _ _)).meanwhile (.of_prepared _ _ _)
  have hclick : paintedOnce.2.1.click strippedWorld = paintedTwice := rfl
  have hcareer : Career unpainted.1 unpainted.2 paintings paintedTwice.2.1 paintedTwice.2.2 :=
    hstripped.clicked_of_eq hclick hends
  unfold unpainted at hcareer
  rcases presentation_since_reload hcareer with ⟨hcounted, hlast, _, hcancelledClicks, _⟩
  have hmember : Click.mk paintedOnce.2.1 strippedWorld ∈ paintings :=
    List.mem_append_right _ List.mem_cons_self
  have hkept := hcancelledClicks _ hmember ((Click.outcome_of_eq hclick).trans hcancelled)
  rw [Click.after_of_eq hclick] at hkept
  exact ⟨hcareer, hcancelled, hcounted.symm.trans hsize, hlast.symm.trans hcolor,
    toOption_eq_some.mp hremoved, toOption_eq_some.mp hwritten, hkept.1⟩

end Career

end ButtonFlow
