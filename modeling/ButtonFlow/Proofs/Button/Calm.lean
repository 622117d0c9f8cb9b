import ButtonFlow.Button.Session
import ButtonFlow.Proofs.Run.Calm

/-!
# Clicks that nobody interferes with

A click that nobody interferes with depends on the scene and on the button alone.
-/

namespace ButtonFlow

namespace Button

/-- Performs so many clicks one after the other, none after a run that has closed the window;
`none` if a click is cancelled or hangs. -/
def clicks : Nat → Button → World → Option (Button × World)
  | 0, b, w => some (b, w)
  | n + 1, b, w =>
      match b.click w with
      | (.ran result, b, w) =>
          if result.termination = .windowClosed then some (b, w) else clicks n b w
      | (.ignored, b, w) => clicks n b w
      | (.cancelled, _, _) => none
      | (.stuck, _, _) => none

end Button

namespace World
namespace Shows

variable {V : List Cue → Queue → Prop} {s : Scene} {w : World}

theorem loadWorkflow (hV : Harmless V) (h : Shows V s w) (slot : String) :
    (w.loadWorkflow slot).1 = Slot.load slot s.store ∧
      Shows V (s.note .load) (w.loadWorkflow slot).2 := by
  have hpaused := h.pause hV 1
  unfold World.loadWorkflow
  dsimp only
  rw [hpaused.store_eq]
  exact ⟨rfl, (hpaused.note .load rfl).pause hV 0⟩

theorem make (hV : Harmless V) (h : Shows V s w) (slot : String) (delay : Nat) :
    (Button.make slot delay w).1 = ⟨Slot.load slot s.store, slot, delay⟩ ∧
      Shows V ((s.note .load).withView (View.initial (Slot.load slot s.store)))
        (Button.make slot delay w).2 := by
  rcases h.loadWorkflow hV slot with ⟨hload, hloaded⟩
  unfold Button.make
  dsimp only
  rw [hload]
  exact ⟨rfl, hloaded.withView _⟩

end Shows

namespace Together

variable {V V' : List Cue → Queue → Prop} (hV : Harmless V) (hV' : Harmless V') {w v : World}

include hV hV'

theorem exists_click (h : Together V V' w v) (b : Button) :
    ∃ outcome b' w' v', b.click w = (outcome, b', w') ∧ b.click v = (outcome, b', v') ∧
      (outcome = .ignored ∨ ∃ result, outcome = .ran result) ∧ Together V V' w' v' := by
  rcases h with @⟨s, h, h'⟩
  unfold Button.click
  rw [h.view_eq, h'.view_eq]
  by_cases hdisabled : s.view.presentation.disabled = true
  · rw [if_pos hdisabled, if_pos hdisabled]
    exact ⟨_, b, _, _, rfl, rfl, .inl rfl, .showing (h.note .ignored rfl) (h'.note .ignored rfl)⟩
  · rw [if_neg hdisabled, if_neg hdisabled]
    have hviewed : Together V V' (w.withView (Button.viewDuring s.view))
        (v.withView (Button.viewDuring s.view)) := .showing (h.withView _) (h'.withView _)
    rcases hviewed.exists_execute hV hV' b.delay b.workflow.actions s.view.presentation with
      ⟨result, w₁, v₁, hexecute, hexecute', @⟨s₁, hran, hran'⟩⟩
    dsimp only
    rw [hexecute, hexecute']
    dsimp only
    by_cases hreloaded : result.termination = .reloaded
    · rw [if_pos hreloaded, if_pos hreloaded]
      rcases hran.loadWorkflow hV b.slot with ⟨hload, hloaded⟩
      rcases hran'.loadWorkflow hV' b.slot with ⟨hload', hloaded'⟩
      rw [hload, hload', hloaded.view_eq, hloaded'.view_eq]
      exact ⟨_, _, _, _, rfl, rfl, .inr ⟨result, rfl⟩,
        .showing (hloaded.withView _) (hloaded'.withView _)⟩
    · rw [if_neg hreloaded, if_neg hreloaded, hran.view_eq, hran'.view_eq]
      exact ⟨_, b, _, _, rfl, rfl, .inr ⟨result, rfl⟩,
        .showing (hran.withView _) (hran'.withView _)⟩

end Together
end World

end ButtonFlow
