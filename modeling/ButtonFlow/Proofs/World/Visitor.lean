import ButtonFlow.World.Waiting

/-!
# The acts of the visitor

What an act can come to is told once, and what acts keep is read off that. Every act makes the
plan smaller, and the visitor acts whenever its time has come. So runs that let the visitor go
first always come to go on themselves.
-/

namespace ButtonFlow
namespace World

@[simp] theorem plan_cancel (w : World) : w.cancel.plan = w.plan := by
  unfold cancel
  split
  · rfl
  · rfl

@[simp] theorem queue_cancel (w : World) : w.cancel.queue = w.queue := by
  unfold cancel
  split
  · rfl
  · rfl

/-!
## What an act comes to
-/

def advanced (w : World) (act : Act) (later : List Cue) : World :=
  { w.exertVisitor act.effort with plan := later }

def changeReply : Except IoError Unit → Reply
  | .ok () => .done
  | .error e => .failed e

theorem changeReply_cases (result : Except IoError Unit) :
    changeReply result = .done ∨ ∃ e, changeReply result = .failed e := by
  rcases result with e | _
  · exact Or.inr ⟨e, rfl⟩
  · exact Or.inl rfl

theorem replied_eq (w : World) (changed : Except IoError Unit × Store) :
    (match changed with
      | (.ok (), store) => some ({ w with store := store }.note (.visitor .done))
      | (.error e, store) => some ({ w with store := store }.note (.visitor (.failed e)))) =
      some ({ w with store := changed.2 }.note (.visitor (changeReply changed.1))) := by
  rcases changed with ⟨_ | _, store⟩
  · rfl
  · rfl

/-- All that can come of the first cue of a plan whose time has come. -/
inductive Acts (w : World) (later : List Cue) : Cue → World → Prop where
  | clicked {due : Nat} : Acts w later ⟨due, .click 0⟩ (w.advanced (.click 0) later)
  | gone {due times : Nat} (hheld : w.queue.held = false) :
      Acts w later ⟨due, .click (times + 1)⟩
        ((w.advanced (.click (times + 1)) later).note (.visitor .gone))
  | refused {due times : Nat} (hheld : w.queue.held = true) (hopen : w.queue.isOpen = false) :
      Acts w later ⟨due, .click (times + 1)⟩
        ((w.advanced (.click (times + 1)) later).note (.visitor .refused))
  | queued {due times : Nat} (hheld : w.queue.held = true) (hopen : w.queue.isOpen = true)
      (hroom : w.queue.waiting < w.queue.capacity) :
      Acts w later ⟨due, .click (times + 1)⟩
        (({ w.advanced (.click (times + 1))
              (if times = 0 then later else ⟨due, .click times⟩ :: later) with
            queue := { w.queue with waiting := w.queue.waiting + 1 } } : World).note
          (.visitor .queued))
  | cancel {due : Nat} :
      Acts w later ⟨due, .cancel⟩ ((w.advanced .cancel later).cancel.note (.visitor .done))
  | leave {due : Nat} :
      Acts w later ⟨due, .leave⟩
        (({ w.advanced .leave later with
            queue := { w.queue with held := false } } : World).note (.visitor .done))
  | look {due : Nat} :
      Acts w later ⟨due, .look⟩ ((w.advanced .look later).note (.visitor (.saw w.view)))
  | wait {due : Nat} :
      Acts w later ⟨due, .wait⟩ ((w.advanced .wait later).note (.visitor .done))
  | set {due : Nat} {key value : String} :
      Acts w later ⟨due, .set key value⟩
        (({ w.advanced (.set key value) later with
            store := (w.store.set key value).2 } : World).note
          (.visitor (changeReply (w.store.set key value).1)))
  | remove {due : Nat} {key : String} :
      Acts w later ⟨due, .remove key⟩
        (({ w.advanced (.remove key) later with
            store := (w.store.remove key).2 } : World).note
          (.visitor (changeReply (w.store.remove key).1)))

theorem exists_acts {w w' : World} (h : w.act? = some w') :
    ∃ cue later, w.plan = cue :: later ∧ cue.due ≤ w.clock ∧ Acts w later cue w' := by
  unfold act? at h
  cases hplan : w.plan with
  | nil =>
      rw [hplan] at h
      cases h
  | cons cue later =>
      rcases cue with ⟨due, act⟩
      simp only [hplan] at h
      by_cases hdue : w.clock < due
      · rw [if_pos hdue] at h
        cases h
      · rw [if_neg hdue] at h
        refine ⟨_, later, rfl, Nat.not_lt.mp hdue, ?_⟩
        cases act with
        | click times =>
            cases times with
            | zero =>
                cases h
                exact .clicked
            | succ times =>
                dsimp only at h
                split at h
                · rename_i hgone
                  cases h
                  exact .gone (by simpa using hgone)
                · rename_i hheld
                  have hheld : w.queue.held = true := by simpa using hheld
                  split at h
                  · rename_i hclosed
                    cases h
                    exact .refused hheld (by simpa using hclosed)
                  · rename_i hopen
                    split at h
                    · rename_i hroom
                      cases h
                      exact .queued hheld (by simpa using hopen) hroom
                    · cases h
        | cancel =>
            cases h
            exact .cancel
        | leave =>
            cases h
            exact .leave
        | look =>
            cases h
            exact .look
        | wait =>
            cases h
            exact .wait
        | set key value =>
            have hreplied := replied_eq (w.advanced (.set key value) later) (w.store.set key value)
            cases hreplied.symm.trans h
            exact .set
        | remove key =>
            have hreplied := replied_eq (w.advanced (.remove key) later) (w.store.remove key)
            cases hreplied.symm.trans h
            exact .remove

/-- Only a session takes clicks, and who has let go of the button does not come back. -/
theorem queue_act? {w w' : World} (h : w.act? = some w') :
    w.queue.waiting ≤ w'.queue.waiting ∧ (w.queue.held = false → w'.queue.held = false) := by
  rcases exists_acts h with ⟨cue, later, _, _, hacts⟩
  cases hacts with
  | queued _ _ _ => exact ⟨Nat.le_succ _, id⟩
  | cancel =>
      change _ ≤ (World.cancel _).queue.waiting ∧ (_ → (World.cancel _).queue.held = false)
      rw [queue_cancel]
      exact ⟨Nat.le_refl _, id⟩
  | leave => exact ⟨Nat.le_refl _, fun _ => rfl⟩
  | _ => exact ⟨Nat.le_refl _, id⟩

/-!
## Plans
-/

inductive LeftOf (clock : Nat) : List Cue → List Cue → Prop where
  | done {cue : Cue} {later : List Cue} (hdue : cue.due ≤ clock) : LeftOf clock (cue :: later) later
  | clicked {due times : Nat} {later : List Cue} (hdue : due ≤ clock) :
      LeftOf clock (⟨due, .click (times + 2)⟩ :: later) (⟨due, .click (times + 1)⟩ :: later)

theorem leftOf_act? {w w' : World} (h : w.act? = some w') : LeftOf w.clock w.plan w'.plan := by
  rcases exists_acts h with ⟨cue, later, hplan, hdue, hacts⟩
  have hdone : LeftOf w.clock (cue :: later) later := .done hdue
  rw [hplan]
  cases hacts with
  | @queued due times _ _ _ =>
      cases times with
      | zero => exact hdone
      | succ times => exact .clicked hdue
  | cancel =>
      change LeftOf _ _ (World.cancel _).plan
      rw [plan_cancel]
      exact hdone
  | _ => exact hdone

theorem planSize_lt_cons (cue : Cue) (later : List Cue) :
    planSize later < planSize (cue :: later) := by
  rcases cue with ⟨due, act⟩
  cases act with
  | click times =>
      change planSize later < times + 1 + planSize later
      omega
  | _ => exact Nat.lt_add_of_pos_left Nat.one_pos

theorem LeftOf.planSize_lt {clock : Nat} {plan left : List Cue} (h : LeftOf clock plan left) :
    planSize left < planSize plan := by
  cases h with
  | done _ => exact planSize_lt_cons _ _
  | clicked _ =>
      rename_i due times later _
      change times + 1 + 1 + planSize later < times + 2 + 1 + planSize later
      omega

theorem planSize_act? {w w' : World} (h : w.act? = some w') :
    planSize w'.plan < planSize w.plan :=
  (leftOf_act? h).planSize_lt

theorem clock_le_of_nextAct? {w : World} {time : Nat} (h : w.nextAct? = some time) :
    w.clock ≤ time := by
  unfold nextAct? at h
  split at h
  · cases h
  · split at h
    · cases h
    · cases h
      exact Nat.le_max_left _ _
  · cases h
    exact Nat.le_max_left _ _

theorem exists_act? {w : World} {time : Nat} (h : w.nextAct? = some time) (w' : World)
    (hplan : w'.plan = w.plan) (hqueue : w'.queue = w.queue) (htime : time ≤ w'.clock) :
    ∃ after, w'.act? = some after := by
  unfold nextAct? at h
  rw [← hplan, ← hqueue] at h
  split at h
  · cases h
  · rename_i due times later hnext
    split at h
    · cases h
    · rename_i hroom
      cases h
      have hdue : ¬ w'.clock < due := by omega
      unfold act?
      simp only [hnext, if_neg hdue]
      cases hheld : w'.queue.held with
      | false => exact ⟨_, by simp only [exertVisitor, hheld]; rfl⟩
      | true =>
          cases hopen : w'.queue.isOpen with
          | false => exact ⟨_, by simp only [exertVisitor, hheld, hopen]; rfl⟩
          | true =>
              have hwaiting : w'.queue.waiting < w'.queue.capacity := by
                simpa [hheld, hopen] using hroom
              exact ⟨_, by simp only [exertVisitor, hheld, hopen, if_pos hwaiting]; rfl⟩
  · rename_i due act later hclick hnext
    cases h
    have hdue : ¬ w'.clock < due := by omega
    unfold act?
    simp only [hnext, if_neg hdue]
    cases act with
    | click times =>
        cases times with
        | zero => exact ⟨_, rfl⟩
        | succ times => exact (hclick times rfl).elim
    | set key value =>
        dsimp only
        split
        · exact ⟨_, rfl⟩
        · exact ⟨_, rfl⟩
    | remove key =>
        dsimp only
        split
        · exact ⟨_, rfl⟩
        · exact ⟨_, rfl⟩
    | _ => exact ⟨_, rfl⟩

end World
end ButtonFlow
