import ButtonFlow.Proofs.Button.Career

/-!
# After a session

A session ends for one of a few reasons, and then it is over for good. Nobody takes clicks any
more, so whatever the visitor does later only happens to the visitor: its clicks are refused,
those that it was about to queue as well as all later ones, and nothing is told or shown any
more.
-/

namespace ButtonFlow

def Happening.clickReply? : Happening → Option Reply
  | .visitor .queued => some .queued
  | .visitor .refused => some .refused
  | .visitor .gone => some .gone
  | _ => none

def clickReplies (ms : List Moment) : List Reply :=
  ms.filterMap (·.what.clickReply?)

@[simp] theorem clickReplies_append (ms ms' : List Moment) :
    clickReplies (ms ++ ms') = clickReplies ms ++ clickReplies ms' :=
  List.filterMap_append

/-- What the clicks of a plan are answered with if nobody takes clicks any more. A visitor who
does not hold the button cannot even try. -/
def refusals : Bool → List Cue → List Reply
  | _, [] => []
  | held, ⟨_, .click (_ + 1)⟩ :: cues => (if held then .refused else .gone) :: refusals held cues
  | _, ⟨_, .leave⟩ :: cues => refusals false cues
  | held, _ :: cues => refusals held cues

namespace World

/-- From one world to another, nobody takes clicks, and the clicks that were answered are those
that are no longer planned. -/
structure Refuses (w w' : World) : Prop where
  isOpen_eq : w'.queue.isOpen = false
  replies_eq : ∃ new, w'.history = w.history ++ new ∧
    clickReplies new ++ refusals w'.queue.held w'.plan = refusals w.queue.held w.plan

theorem history_note (w : World) (what : Happening) :
    (w.note what).history = w.history ++ [⟨w.clock, w.view, what⟩] :=
  List.reverse_cons

namespace Refuses

variable {w w₁ w' : World}

theorem idle (hclosed : w'.queue.isOpen = false) (hpast : w'.past = w.past)
    (hreplies : refusals w'.queue.held w'.plan = refusals w.queue.held w.plan) : Refuses w w' where
  isOpen_eq := hclosed
  replies_eq := by
    refine ⟨[], ?_, hreplies⟩
    unfold history
    rw [hpast, List.append_nil]

theorem trans (h : Refuses w w₁) (h' : Refuses w₁ w') : Refuses w w' where
  isOpen_eq := h'.isOpen_eq
  replies_eq := by
    rcases h.replies_eq with ⟨new, hhistory, hreplies⟩
    rcases h'.replies_eq with ⟨later, hlater, hlaterReplies⟩
    refine ⟨new ++ later, ?_, ?_⟩
    · rw [hlater, hhistory, List.append_assoc]
    · rw [clickReplies_append, List.append_assoc, hlaterReplies, hreplies]

theorem note {what : Happening} (hclosed : w'.queue.isOpen = false) (hpast : w'.past = w.past)
    (hreplies : what.clickReply?.toList ++ refusals w'.queue.held w'.plan =
      refusals w.queue.held w.plan) : Refuses w (w'.note what) where
  isOpen_eq := hclosed
  replies_eq := by
    refine ⟨[⟨w'.clock, w'.view, what⟩], ?_, ?_⟩
    · rw [history_note]
      unfold history
      rw [hpast]
    · have hone : clickReplies [⟨w'.clock, w'.view, what⟩] = what.clickReply?.toList := by
        unfold clickReplies
        cases hreply : what.clickReply? with
        | none => exact List.filterMap_cons_none hreply
        | some reply => exact List.filterMap_cons_some hreply
      rw [hone]
      exact hreplies

theorem cancel (hclosed : w.queue.isOpen = false) : Refuses w w.cancel := by
  unfold World.cancel
  split
  · exact .idle hclosed rfl rfl
  · have hnoted : Refuses w (w.note .cancelled) := .note hclosed rfl rfl
    exact hnoted.trans (.idle hclosed rfl rfl)

end Refuses

theorem clickReply?_changeReply (result : Except IoError Unit) :
    (Happening.visitor (changeReply result)).clickReply? = none := by
  rcases result with e | _
  · rfl
  · rfl

theorem refuses_act? {w w' : World} (hclosed : w.queue.isOpen = false) (h : w.act? = some w') :
    Refuses w w' := by
  rcases exists_acts h with ⟨cue, later, hplan, _, hacts⟩
  cases hacts with
  | clicked => exact .idle hclosed rfl (by rw [hplan]; rfl)
  | gone hheld =>
      refine .note hclosed rfl ?_
      rw [hplan, refusals, hheld]
      exact congrArg (Reply.gone :: refusals · later) hheld
  | refused hheld _ =>
      refine .note hclosed rfl ?_
      rw [hplan, refusals, hheld]
      exact congrArg (Reply.refused :: refusals · later) hheld
  | queued _ hopen _ =>
      rw [hclosed] at hopen
      cases hopen
  | cancel =>
      have hpassed : Refuses w (w.advanced .cancel later) :=
        .idle hclosed rfl (by rw [hplan]; rfl)
      have hcancelled := hpassed.trans (.cancel hpassed.isOpen_eq)
      exact hcancelled.trans (.note hcancelled.isOpen_eq rfl rfl)
  | leave => exact .note hclosed rfl (by rw [hplan]; rfl)
  | look => exact .note hclosed rfl (by rw [hplan]; rfl)
  | wait => exact .note hclosed rfl (by rw [hplan]; rfl)
  | @set _ key value =>
      have hreply := clickReply?_changeReply (w.store.set key value).1
      refine .note hclosed rfl ?_
      rw [hreply, hplan]
      rfl
  | @remove _ key =>
      have hreply := clickReply?_changeReply (w.store.remove key).1
      refine .note hclosed rfl ?_
      rw [hreply, hplan]
      rfl

theorem whileWaiting_refuses : WhileWaiting fun w w' => w.queue.isOpen = false → Refuses w w' where
  trans h h' hclosed := (h hclosed).trans (h' (h hclosed).isOpen_eq)
  act h hclosed := refuses_act? hclosed h
  idle _ _ _ _ hclosed := .idle hclosed rfl rfl

/-!
## When the visitor goes on alone
-/

theorem WhileWaiting.playOut {R : World → World → Prop} (h : WhileWaiting R) (fuel : Nat)
    (w : World) :
    R w (w.playOut fuel) := by
  induction fuel generalizing w with
  | zero => exact h.refl w
  | succ fuel ih =>
      unfold World.playOut
      split
      · exact h.refl w
      · split
        · rename_i hact
          exact h.trans (h.actAt hact) (ih _)
        · exact h.refl w

theorem nextAct?_eq_none {w : World} (hclosed : w.queue.isOpen = false)
    (h : w.nextAct? = none) : w.plan = [] := by
  unfold nextAct? at h
  split at h
  · assumption
  · rw [hclosed, Bool.and_false, Bool.false_and] at h
    cases h
  · cases h

theorem eq_nil_of_planSize {plan : List Cue} (h : planSize plan ≤ 0) : plan = [] := by
  cases plan with
  | nil => rfl
  | cons cue later =>
      rcases cue with ⟨due, act⟩
      have hsome : 0 < planSize (⟨due, act⟩ :: later) := by
        cases act with
        | click times => exact Nat.lt_of_lt_of_le (Nat.succ_pos times) (Nat.le_add_right _ _)
        | _ => exact Nat.lt_of_lt_of_le Nat.one_pos (Nat.le_add_right _ _)
      exact absurd h (Nat.not_le.mpr hsome)

theorem playOut_plan {fuel : Nat} {w : World} (hclosed : w.queue.isOpen = false)
    (hfuel : planSize w.plan ≤ fuel) : (w.playOut fuel).plan = [] := by
  induction fuel generalizing w with
  | zero => exact eq_nil_of_planSize hfuel
  | succ fuel ih =>
      unfold playOut
      cases hnext : w.nextAct? with
      | none => exact nextAct?_eq_none hclosed hnext
      | some time =>
          rcases exists_actAt hnext with ⟨acted, hacted, hsize⟩
          have hstill := (whileWaiting_refuses.actAt hacted hclosed).isOpen_eq
          simp only [hacted]
          exact ih hstill (Nat.le_of_lt_succ (Nat.lt_of_lt_of_le hsize hfuel))

end World

/-!
## The end
-/

/-- Every session ends only if its token was cancelled, if a run has closed the window, or if
nobody holds the button any more and all queued clicks were taken; otherwise it hangs. Once it
has ended the button is not seen to run. Whatever the visitor does later, nothing is told any
more and the view stays. Every click that it still plans is refused, also one for which there
was no room before. -/
theorem Session.ended_for_good (b : Button) {w : World} (hrests : w.view.running = false) :
    let ran := run b w
    (ran.1 = false → ∃ clicks b' w', Career b w clicks b' w' ∧ Hangs b' w') ∧
    (ran.1 = true →
      (∃ clicks w', Career b w clicks ran.2.1 w' ∧ ran.2.2 = w'.closeQueue ∧ Over clicks w') ∧
      ran.2.2.view.running = false ∧
      ∀ (plan : List Cue) (fuel : Nat),
        let later := World.playOut fuel { ran.2.2 with plan := plan }
        later.events = ran.2.2.events ∧ later.view = ran.2.2.view ∧
        (∃ new, later.history = ran.2.2.history ++ new ∧
          clickReplies new ++ refusals later.queue.held later.plan =
            refusals ran.2.2.queue.held plan) ∧
        (planSize plan ≤ fuel → later.plan = [])) := by
  intro ran
  rcases exists_career_run b w with ⟨clicks, b', w', hcareer, ⟨hran, hover⟩ | ⟨hhung, hhangs⟩⟩
  · change ran = (true, b', w'.closeQueue) at hran
    rw [hran]
    refine ⟨nofun, fun _ => ⟨⟨clicks, w', hcareer, rfl, hover⟩, ?_, ?_⟩⟩
    · exact hcareer.closed.running_eq hrests
    · intro plan fuel later
      have hclosed : ({ w'.closeQueue with plan := plan } : World).queue.isOpen = false := rfl
      have haside := World.whileWaiting_aside.playOut fuel { w'.closeQueue with plan := plan }
      have hrefuses := World.whileWaiting_refuses.playOut fuel _ hclosed
      exact ⟨haside.events_eq, haside.view_eq, hrefuses.replies_eq, World.playOut_plan hclosed⟩
  · change ran.1 = false at hhung
    rw [hhung]
    exact ⟨fun _ => ⟨clicks, b', w', hcareer, hhangs⟩, nofun⟩

namespace Session

def closingButton : Button where
  workflow := ⟨"Close", [⟨"a", .closeWindow, .empty⟩]⟩
  slot := Slot.usual
  delay := 300

/-- A visitor who clicks three times while there is room for one click, and once more later. -/
def impatientWorld : World :=
  .fresh (.memory [] Faults.none) (Host.prompt [] true) [⟨0, .click 3⟩, ⟨900, .click 1⟩]

theorem ended_for_good_impatient :
    let ran := run closingButton impatientWorld
    ran.1 = true ∧ ran.2.2.isCancelled = false ∧ ran.2.2.queue.held = true ∧
      (∃ clicks w', Career closingButton impatientWorld clicks ran.2.1 w' ∧ Over clicks w') ∧
      let later := World.playOut 100 { ran.2.2 with plan := ran.2.2.plan }
      later.events = ran.2.2.events ∧ later.view = ran.2.2.view ∧
        ∃ new, later.history = ran.2.2.history ++ new ∧
          clickReplies new = [.refused, .refused] := by
  intro ran
  have hrests : impatientWorld.view.running = false := rfl
  have hfacts : ran.1 = true ∧ ran.2.2.isCancelled = false ∧ ran.2.2.queue.held = true ∧
      planSize ran.2.2.plan ≤ 100 := by
    decide +kernel
  have hrefusals : refusals ran.2.2.queue.held ran.2.2.plan = [.refused, .refused] := rfl
  rcases hfacts with ⟨hended, htoken, hheld, hsize⟩
  rcases (ended_for_good closingButton hrests).2 hended with
    ⟨⟨clicks, w', hcareer, _, hover⟩, _, hafter⟩
  rcases hafter ran.2.2.plan 100 with ⟨hevents, hview, ⟨new, hnew, hreplies⟩, hplayed⟩
  rw [hplayed hsize, refusals, List.append_nil] at hreplies
  exact ⟨hended, htoken, hheld, ⟨clicks, w', hcareer, hover⟩, hevents, hview, new, hnew,
    hreplies.trans hrefusals⟩

end Session

end ButtonFlow
