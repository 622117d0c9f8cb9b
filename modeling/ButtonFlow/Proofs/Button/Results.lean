import ButtonFlow.Proofs.Button.Calm
import ButtonFlow.Proofs.Button.Clicked
import ButtonFlow.Proofs.Run.Replay

/-!
# The results of clicks

Clicks that are performed directly leave the results of their runs behind. The fragments of the
results are those that the runs have told of, in the same order.
-/

namespace ButtonFlow

def Happening.fragment? (what : Happening) : Option Fragment :=
  what.event?.bind Event.fragment?

theorem filterMap_fragment? (hs : List Happening) :
    hs.filterMap Happening.fragment? =
      (hs.filterMap Happening.event?).filterMap Event.fragment? := by
  rw [List.filterMap_filterMap]
  rfl

/-!
## Clicks and their results
-/

namespace Button

/-- The results of so many clicks that are performed one after the other, none after a run that
has closed the window; `none` if a click is cancelled or hangs. -/
def results : Nat → Button → World → Option (List RunResult × World)
  | 0, _, w => some ([], w)
  | n + 1, b, w =>
      match b.click w with
      | (.ran result, b, w) =>
          if result.termination = .windowClosed then some ([result], w)
          else (results n b w).map fun (later, w) => (result :: later, w)
      | (.ignored, b, w) => results n b w
      | (.cancelled, _, _) => none
      | (.stuck, _, _) => none

theorem results_eq_clicks (n : Nat) (b : Button) (w : World) :
    (results n b w).map Prod.snd = (clicks n b w).map Prod.snd := by
  induction n generalizing b w with
  | zero => rfl
  | succ n ih =>
      unfold results clicks
      generalize b.click w = clicked
      rcases clicked with ⟨outcome, b', w'⟩
      cases outcome with
      | ran result =>
          dsimp only
          by_cases hclosed : result.termination = .windowClosed
          · rw [if_pos hclosed, if_pos hclosed]
            rfl
          · rw [if_neg hclosed, if_neg hclosed, ← ih b' w', Option.map_map]
            rfl
      | ignored => exact ih b' w'
      | cancelled => rfl
      | stuck => rfl

theorem exists_results {n : Nat} {b b' : Button} {w w' : World}
    (h : clicks n b w = some (b', w')) : ∃ found, results n b w = some (found, w') := by
  have hresults := results_eq_clicks n b w
  rw [h] at hresults
  rcases Option.map_eq_some_iff.mp hresults with ⟨⟨found, last⟩, hfound, rfl⟩
  exact ⟨found, hfound⟩

end Button

/-!
## Fragments
-/

theorem RunOf.fragments_eq {colors : Nat → Nat} {actions : List Action} {p : Presentation}
    {ds : List Deed} {r : RunResult} (h : RunOf colors actions p ds (.done r)) :
    (doings ds).filterMap Happening.fragment? = r.fragments := by
  rcases h.course with ⟨id, hs, hdoings, hcourse⟩
  rcases hcourse.replay actions (fun k => by rw [Nat.zero_add]) r rfl with ⟨hfragments, _⟩
  rw [hdoings, filterMap_fragment?, hfragments]
  rfl

def ClickOutcome.fragments : ClickOutcome → List Fragment
  | .ran r => r.fragments
  | _ => []

theorem Clicked.fragments_eq {b b' : Button} {l : Ledger} {ds : List Deed}
    {outcome : ClickOutcome} (h : Clicked b l ds outcome b')
    (hends : outcome ≠ .cancelled ∧ outcome ≠ .stuck) :
    (doings ds).filterMap Happening.fragment? = outcome.fragments := by
  cases h with
  | @ignored m hdisabled hm =>
      rcases m with ⟨time, view, what⟩
      cases hm
      rfl
  | ran _ hrun _ =>
      rw [doings_between_shown]
      exact hrun.fragments_eq
  | reloaded _ hrun _ hloads =>
      rw [← List.append_assoc, doings_between_shown, doings_append, hloads.doings_eq,
        List.filterMap_append, hrun.fragments_eq]
      exact List.append_nil _
  | cancelled _ _ _ => exact absurd rfl hends.1
  | stuck _ _ => exact absurd rfl hends.2

namespace World

def fragments (w : World) : List Fragment :=
  w.doings.filterMap Happening.fragment?

end World

namespace Button

theorem fragments_click {b : Button} {w : World}
    (hends : (b.click w).1 ≠ .cancelled ∧ (b.click w).1 ≠ .stuck) :
    (b.click w).2.2.fragments = w.fragments ++ (b.click w).1.fragments := by
  rcases b.exists_clicked w with ⟨ds, htrail, hclicked⟩
  unfold World.fragments
  rw [htrail.doings_eq, List.filterMap_append, hclicked.fragments_eq hends]

theorem fragments_make (slot : String) (delay : Nat) (w : World) :
    (make slot delay w).2.fragments = w.fragments := by
  rcases w.exists_loads slot with ⟨ds, htrail, hloads⟩
  have hdoings := htrail.doings_eq
  rw [hloads.doings_eq] at hdoings
  change (w.loadWorkflow slot).2.fragments = w.fragments
  unfold World.fragments
  rw [hdoings, List.filterMap_append]
  exact List.append_nil _

theorem fragments_results {n : Nat} {b : Button} {w w' : World} {found : List RunResult}
    (h : results n b w = some (found, w')) :
    w'.fragments = w.fragments ++ found.flatMap RunResult.fragments := by
  induction n generalizing b w found with
  | zero =>
      cases h
      exact (List.append_nil _).symm
  | succ n ih =>
      have hclick := fragments_click (b := b) (w := w)
      unfold results at h
      generalize b.click w = clicked at h hclick
      rcases clicked with ⟨outcome, b', w₁⟩
      cases outcome with
      | ran result =>
          have hran : w₁.fragments = w.fragments ++ result.fragments := hclick ⟨nofun, nofun⟩
          dsimp only at h
          by_cases hclosed : result.termination = .windowClosed
          · rw [if_pos hclosed] at h
            cases h
            rw [hran, List.flatMap_cons, List.flatMap_nil, List.append_nil]
          · rw [if_neg hclosed] at h
            rcases Option.map_eq_some_iff.mp h with ⟨⟨later, last⟩, hlater, heq⟩
            cases heq
            rw [ih hlater, hran, List.append_assoc, List.flatMap_cons]
      | ignored =>
          have hnone : w₁.fragments = w.fragments ++ [] := hclick ⟨nofun, nofun⟩
          rw [ih h, hnone, List.append_nil]
      | cancelled => cases h
      | stuck => cases h

end Button

end ButtonFlow
