import ButtonFlow.Proofs.Workflow.Revision
import ButtonFlow.Workflow.Edit
import Mathlib.Data.List.InsertIdx

/-!
# Moving an action

A move takes an action to another index. The actions between the two indices, and the one that
stood at the target, step aside by one place towards where the action came from, and all others
stay where they are. So moving the action back undoes the move.
-/

namespace ButtonFlow

namespace Workflow

/-!
## Where the actions stand after a move
-/

theorem actions_move {w : Workflow} {source target : Nat} {action : Action}
    (hsource : w.actions[source]? = some action) (htarget : target < w.actions.length) :
    (w.move source target).actions = (w.actions.eraseIdx source).insertIdx target action := by
  unfold move
  rw [hsource]
  dsimp only
  rw [if_pos htarget]

theorem length_move (w : Workflow) (source target : Nat) :
    (w.move source target).actions.length = w.actions.length :=
  (w.perm_move source target).length_eq

theorem getElem?_move_target {w : Workflow} {source target : Nat} {action : Action}
    (hsource : w.actions[source]? = some action) (htarget : target < w.actions.length) :
    (w.move source target).actions[target]? = some action := by
  have hlt := (List.getElem?_eq_some_iff.mp hsource).1
  have hroom : target ≤ (w.actions.eraseIdx source).length := by
    rw [List.length_eraseIdx_of_lt hlt]
    omega
  rw [actions_move hsource htarget, List.getElem?_insertIdx_self, if_pos hroom]

theorem getElem?_move_forward {w : Workflow} {source target i : Nat} {action : Action}
    (hsource : w.actions[source]? = some action) (htarget : target < w.actions.length)
    (hlow : source < i) (hhigh : i ≤ target) :
    (w.move source target).actions[i - 1]? = w.actions[i]? := by
  rw [actions_move hsource htarget, List.getElem?_insertIdx_of_lt (by omega),
    List.getElem?_eraseIdx_of_ge (by omega), Nat.sub_add_cancel (by omega)]

theorem getElem?_move_backward {w : Workflow} {source target i : Nat} {action : Action}
    (hsource : w.actions[source]? = some action) (htarget : target < w.actions.length)
    (hlow : target ≤ i) (hhigh : i < source) :
    (w.move source target).actions[i + 1]? = w.actions[i]? := by
  rw [actions_move hsource htarget, List.getElem?_insertIdx_of_gt (by omega),
    Nat.add_sub_cancel, List.getElem?_eraseIdx_of_lt hhigh]

theorem getElem?_move_below {w : Workflow} {source target i : Nat} {action : Action}
    (hsource : w.actions[source]? = some action) (htarget : target < w.actions.length)
    (hbelow : i < source) (hbelow' : i < target) :
    (w.move source target).actions[i]? = w.actions[i]? := by
  rw [actions_move hsource htarget, List.getElem?_insertIdx_of_lt hbelow',
    List.getElem?_eraseIdx_of_lt hbelow]

theorem getElem?_move_above {w : Workflow} {source target i : Nat} {action : Action}
    (hsource : w.actions[source]? = some action) (htarget : target < w.actions.length)
    (habove : source < i) (habove' : target < i) :
    (w.move source target).actions[i]? = w.actions[i]? := by
  rw [actions_move hsource htarget, List.getElem?_insertIdx_of_gt habove',
    List.getElem?_eraseIdx_of_ge (by omega), Nat.sub_add_cancel (by omega)]

/-!
## Moving back
-/

theorem eq_of_label_of_actions {v w : Workflow} (hlabel : v.label = w.label)
    (hactions : v.actions = w.actions) : v = w := by
  cases v
  cases w
  cases hlabel
  cases hactions
  rfl

theorem actions_move_move {w : Workflow} {source target : Nat}
    (hsource : source < w.actions.length) (htarget : target < w.actions.length) :
    ((w.move source target).move target source).actions = w.actions := by
  have haction : w.actions[source]? = some w.actions[source] := List.getElem?_eq_getElem hsource
  have hroom : source < (w.move source target).actions.length := by
    rw [length_move]
    exact hsource
  rw [actions_move (getElem?_move_target haction htarget) hroom, actions_move haction htarget,
    List.eraseIdx_insertIdx_self, List.insertIdx_eraseIdx_getElem hsource]

theorem move_move (w : Workflow) (source target : Nat) :
    (w.move source target).move target source = w := by
  by_cases hrange : source < w.actions.length ∧ target < w.actions.length
  · apply eq_of_label_of_actions
    · rw [label_move, label_move]
    · exact actions_move_move hrange.1 hrange.2
  · have hmissing : w.actions.length ≤ source ∨ w.actions.length ≤ target := by omega
    rw [move_eq_self hmissing]
    exact move_eq_self hmissing.symm

/-!
## Moving from position to position
-/

theorem apply_move_eq_ok_iff {fresh : String} {w w' : Workflow} {source target : Nat} :
    ((Edit.move source target).apply fresh w).2 = .ok w' ↔
      (1 ≤ source ∧ source ≤ w.actions.length ∧ 1 ≤ target ∧ target ≤ w.actions.length) ∧
        w' = w.move (source - 1) (target - 1) := by
  unfold Edit.apply
  dsimp only
  split
  · rename_i hrange
    rw [Except.ok.injEq, eq_comm, and_iff_right hrange]
  · rename_i hrange
    constructor
    · intro hok
      cases hok
    · rintro ⟨hthere, _⟩
      exact absurd hthere hrange

/-- The action at one index has gone to another one, and the others have made way. -/
structure Moved (w w' : Workflow) (source target : Nat) : Prop where
  arrived : w'.actions[target]? = w.actions[source]?
  forward : ∀ i, source < i → i ≤ target → w'.actions[i - 1]? = w.actions[i]?
  backward : ∀ i, target ≤ i → i < source → w'.actions[i + 1]? = w.actions[i]?
  below : ∀ i, i < source → i < target → w'.actions[i]? = w.actions[i]?
  above : ∀ i, source < i → target < i → w'.actions[i]? = w.actions[i]?

theorem moved_move {w : Workflow} {source target : Nat} (hsource : source < w.actions.length)
    (htarget : target < w.actions.length) : w.Moved (w.move source target) source target := by
  have haction : w.actions[source]? = some w.actions[source] := List.getElem?_eq_getElem hsource
  constructor
  · rw [getElem?_move_target haction htarget, haction]
  · intro i hlow hhigh
    exact getElem?_move_forward haction htarget hlow hhigh
  · intro i hlow hhigh
    exact getElem?_move_backward haction htarget hlow hhigh
  · intro i hbelow hbelow'
    exact getElem?_move_below haction htarget hbelow hbelow'
  · intro i habove habove'
    exact getElem?_move_above haction htarget habove habove'

/-- Whatever the indices are, a move keeps the label and the actions and can be undone. With
indices of the workflow each action is where it belongs, and a user can move between exactly
these positions. -/
theorem move_exact (w : Workflow) (source target : Nat) :
    (w.move source target).label = w.label ∧
      (w.move source target).actions.Perm w.actions ∧
      (source < w.actions.length → target < w.actions.length →
        w.Moved (w.move source target) source target) ∧
      (w.move source target).move target source = w ∧
      ∀ fresh w', ((Edit.move source target).apply fresh w).2 = .ok w' ↔
        (1 ≤ source ∧ source ≤ w.actions.length ∧ 1 ≤ target ∧ target ≤ w.actions.length) ∧
          w' = w.move (source - 1) (target - 1) :=
  ⟨w.label_move source target, w.perm_move source target, moved_move, w.move_move source target,
    fun _ _ => apply_move_eq_ok_iff⟩

example : (Workflow.move ⟨"Go", ["a", "b", "c", "d"].map (Action.blank · .alert)⟩ 0 2).ids =
    ["b", "c", "a", "d"] := by
  decide

end Workflow

end ButtonFlow
