import ButtonFlow.Proofs.Button.Chronicle

/-!
# The career of a button

Clicks come one after the other, directly or through the queue of a session. In between others
may act, and everything that is not the button's own may be different for the next click. A
session goes the same way: all that it does besides is to wait, to take clicks, and to close
its queue.
-/

namespace ButtonFlow

structure Click where
  button : Button
  world : World

namespace Click

def outcome (c : Click) : ClickOutcome := (c.button.click c.world).1

def after (c : Click) : World := (c.button.click c.world).2.2

variable {b : Button} {w : World} {clicked : ClickOutcome × Button × World}

theorem outcome_of_eq (h : b.click w = clicked) : (Click.mk b w).outcome = clicked.1 :=
  congrArg Prod.fst h

theorem after_of_eq (h : b.click w = clicked) : (Click.mk b w).after = clicked.2.2 :=
  congrArg (fun clicked => clicked.2.2) h

end Click

/-- These clicks lead from one state of a button and its world to another. -/
inductive Career (b₀ : Button) (w₀ : World) : List Click → Button → World → Prop where
  | begins : Career b₀ w₀ [] b₀ w₀
  | meanwhile {clicks : List Click} {b : Button} {w w' : World} {ds : List Deed}
      (h : Career b₀ w₀ clicks b w) (hmeanwhile : Meanwhile w ds w') : Career b₀ w₀ clicks b w'
  | taken {clicks : List Click} {b : Button} {w w' : World} (h : Career b₀ w₀ clicks b w)
      (hnext : Session.next? w = some (.click, w')) : Career b₀ w₀ clicks b w'
  | clicked {clicks : List Click} {b : Button} {w : World} (h : Career b₀ w₀ clicks b w)
      (hends : (b.click w).1 ≠ .stuck) :
      Career b₀ w₀ (clicks ++ [⟨b, w⟩]) (b.click w).2.1 (b.click w).2.2
  | closed {clicks : List Click} {b : Button} {w : World} (h : Career b₀ w₀ clicks b w) :
      Career b₀ w₀ clicks b w.closeQueue

theorem Meanwhile.of_trail {w w' : World} {ds : List Deed} (h : World.Trail w ds w')
    (haside : ∀ d ∈ ds, d.isAside = true) : Meanwhile w ds w' where
  aside := haside
  view_eq := h.view_eq fun d hd => Deed.isShown_of_isAside (haside d hd)
  store_eq := h.store_eq
  history_eq := h.history_eq

def World.changed (w : World) (c : Change) : World :=
  { w with store := w.store.change c }.note (.visitor .done)

theorem Meanwhile.of_change (w : World) (c : Change) :
    Meanwhile w [.acted (.change c) w.clock w.view .done] (w.changed c) where
  aside := List.forall_mem_singleton.mpr rfl
  view_eq := rfl
  store_eq := rfl
  history_eq := List.reverse_cons

/-- There is another token, which is cancelled by these events, and other plans. -/
def World.prepared (w : World) (trips : Event → Bool) (plan : List Cue) : World :=
  { w with isCancelled := false, trips := trips, plan := plan }

theorem Meanwhile.of_prepared (w : World) (trips : Event → Bool) (plan : List Cue) :
    Meanwhile w [] (w.prepared trips plan) :=
  .idle rfl rfl rfl

theorem World.Trail.closeQueue (w : World) :
    World.Trail w [.noted ⟨w.clock, w.view, .closed⟩] w.closeQueue := by
  refine .one ⟨rfl, trivial⟩ ?_ rfl rfl rfl
  simp [World.ledger, World.closeQueue, World.note, Ledger.after,
    Store.afterHappening, Queue.after, Happening.cancels]

theorem Session.view_of_next? {w w' : World} (h : next? w = some (.click, w')) :
    w'.view = w.view := by
  rcases exists_of_next?_click h with ⟨waited, m, htrail, hwaited, _⟩
  exact htrail.view_eq (isShown_taken hwaited)

namespace Career

variable {b₀ b b' : Button} {w₀ w w' : World} {clicks clicks' : List Click}

theorem aside (h : Career b₀ w₀ clicks b w) (haside : World.Aside w w') :
    Career b₀ w₀ clicks b w' := by
  rcases haside with ⟨ds, htrail, hds⟩
  exact h.meanwhile (.of_trail htrail hds)

theorem clicked_of_eq {clicked : ClickOutcome × Button × World} (h : Career b₀ w₀ clicks b w)
    (hclick : b.click w = clicked) (hends : clicked.1 ≠ .stuck) :
    Career b₀ w₀ (clicks ++ [⟨b, w⟩]) clicked.2.1 clicked.2.2 := by
  subst hclick
  exact h.clicked hends

theorem trans (h : Career b₀ w₀ clicks b w) (h' : Career b w clicks' b' w') :
    Career b₀ w₀ (clicks ++ clicks') b' w' := by
  induction h' with
  | begins =>
      rw [List.append_nil]
      exact h
  | meanwhile _ hmeanwhile ih => exact ih.meanwhile hmeanwhile
  | taken _ hnext ih => exact ih.taken hnext
  | clicked _ hends ih =>
      rw [← List.append_assoc]
      exact ih.clicked hends
  | closed _ ih => exact ih.closed

/-- What every click that comes to an end keeps is kept by a career, if it is about the button
and what it looks like. -/
theorem invariant {P : Button → View → Prop} (h : Career b₀ w₀ clicks b w)
    (hclick : ∀ b w, P b w.view → (b.click w).1 ≠ .stuck →
      P (b.click w).2.1 (b.click w).2.2.view)
    (hbegins : P b₀ w₀.view) : P b w.view := by
  induction h with
  | begins => exact hbegins
  | meanwhile _ hmeanwhile ih =>
      rw [hmeanwhile.view_eq]
      exact ih
  | taken _ hnext ih =>
      rw [Session.view_of_next? hnext]
      exact ih
  | clicked _ hends ih => exact hclick _ _ ih hends
  | closed _ ih => exact ih

theorem running_eq (h : Career b₀ w₀ clicks b w) (hrests : w₀.view.running = false) :
    w.view.running = false := by
  refine h.invariant (P := fun _ v => v.running = false) ?_ hrests
  intro b w hrests hends
  rw [b.view_click]
  cases houtcome : (b.click w).1 with
  | ran r =>
      unfold ClickOutcome.viewAfter
      dsimp only
      split
      · rfl
      · rfl
  | ignored => exact hrests
  | cancelled => rfl
  | stuck => exact absurd houtcome hends

end Career

/-!
## Sessions
-/

/-- Why a session may be over after these clicks: its token is cancelled, the latest run has
closed the window, or nobody holds the button any more and no click waits. -/
inductive Over (clicks : List Click) (w : World) : Prop where
  | cancelled (h : w.isCancelled = true)
  | windowClosed {c : Click} {r : RunResult} (hlast : clicks.getLast? = some c)
      (hran : c.outcome = .ran r) (hclosed : r.termination = .windowClosed)
  | abandoned (hheld : w.queue.held = false) (hwaiting : w.queue.waiting = 0)

/-- Why a session may hang: it waits for a click while there is none, its token is not
cancelled and the button is held, or it waits for a run that never ends. -/
inductive Hangs (b : Button) (w : World) : Prop where
  | waits (hnext : Session.next? w = none) (hwork : w.hasWork = false)
  | runs {w' : World} (hnext : Session.next? w = some (.click, w'))
      (hstuck : (b.click w').1 = .stuck)

theorem Over.prepend {clicks : List Click} {w : World} (h : Over clicks w) (before : List Click) :
    Over (before ++ clicks) w := by
  cases h with
  | cancelled h => exact .cancelled h
  | windowClosed hlast hran hclosed =>
      refine .windowClosed ?_ hran hclosed
      rw [List.getLast?_append, hlast]
      rfl
  | abandoned hheld hwaiting => exact .abandoned hheld hwaiting

theorem Button.isCancelled_of_click (b : Button) (w : World) (h : (b.click w).1 = .cancelled) :
    (b.click w).2.2.isCancelled = true := by
  rcases b.exists_clicked w with ⟨ds, htrail, hclicked⟩
  rw [h] at hclicked
  have hledger : (b.click w).2.2.isCancelled = (ds.foldl Ledger.after w.ledger).isCancelled :=
    congrArg Ledger.isCancelled htrail.ledger_eq
  rw [hledger]
  generalize (b.click w).2.1 = b' at hclicked
  cases hclicked with
  | cancelled _ _ htoken =>
      rw [Ledger.foldl_isCancelled] at htoken
      rw [Ledger.foldl_isCancelled, moments_between_shown]
      exact htoken

namespace Session

theorem hasWork_of_next?_none {w : World} (h : next? w = none) : w.hasWork = false := by
  cases hwork : w.hasWork with
  | false => rfl
  | true =>
      have hwait : w.waitUntil World.hasWork none = some (w.pause 1) := by
        unfold World.waitUntil
        rw [hwork]
        rfl
      unfold next? at h
      rw [hwait] at h
      dsimp only at h
      split at h
      · cases h
      · split at h
        · cases h
        · cases h

def LedTo (b : Button) (w : World) (served : Bool × Button × World) : Prop :=
  ∃ clicks b' w', Career b w clicks b' w' ∧
    (served = (true, b', w') ∧ Over clicks w' ∨ served.1 = false ∧ Hangs b' w')

theorem LedTo.after_click {b b' : Button} {w w' : World} {c : Click}
    {served : Bool × Button × World} (h : LedTo b' w' served) (hclick : Career b w [c] b' w') :
    LedTo b w served := by
  rcases h with ⟨clicks, b'', w'', hlater, hover | hhangs⟩
  · exact ⟨_, b'', w'', hclick.trans hlater, Or.inl ⟨hover.1, hover.2.prepend [c]⟩⟩
  · exact ⟨_, b'', w'', hclick.trans hlater, Or.inr hhangs⟩

/-- A session goes on as a career. It ends or hangs only for one of the reasons that there
are. -/
theorem ledTo_serve {fuel : Nat} (b : Button) {w : World} (hfuel : rounds w ≤ fuel) :
    LedTo b w (serve fuel b w) := by
  induction fuel generalizing b w with
  | zero => cases hfuel
  | succ fuel ih =>
      unfold serve
      cases hnext : next? w with
      | none =>
          exact ⟨[], b, w, .begins, Or.inr ⟨rfl, .waits hnext (hasWork_of_next?_none hnext)⟩⟩
      | some next =>
          rcases next with ⟨next, taken⟩
          cases next with
          | leave =>
              rcases exists_of_next?_leave hnext with ⟨waited, htrail, hwaited, hover⟩
              refine ⟨[], b, taken, Career.begins.aside ⟨waited, htrail, hwaited⟩,
                Or.inl ⟨rfl, ?_⟩⟩
              rcases hover with hcancelled | ⟨hwaiting, hheld⟩
              · exact .cancelled hcancelled
              · exact .abandoned hheld hwaiting
          | click =>
              have htaken : Career b w [] b taken := Career.begins.taken hnext
              have hround := htaken.clicked
              rcases exists_round hnext b with ⟨_, _, _, hfewer⟩
              have hcancelled := b.isCancelled_of_click taken
              have hclick : (Click.mk b taken).outcome = (b.click taken).1 := rfl
              have hstuck : (b.click taken).1 = .stuck → Hangs b w := .runs hnext
              dsimp only
              generalize b.click taken = clicked at hround hfewer hcancelled hclick hstuck ⊢
              rcases clicked with ⟨outcome, b', w'⟩
              dsimp only at hround hfewer hcancelled hclick hstuck
              have hserved := ih b' (Nat.le_of_lt_succ (Nat.lt_of_lt_of_le hfewer hfuel))
              cases outcome with
              | ran r =>
                  have hended : ClickOutcome.ran r ≠ .stuck := by simp
                  dsimp only
                  by_cases hclosed : r.termination = .windowClosed
                  · rw [if_pos hclosed]
                    exact ⟨_, b', w', hround hended,
                      Or.inl ⟨rfl, .windowClosed rfl hclick hclosed⟩⟩
                  · rw [if_neg hclosed]
                    exact hserved.after_click (hround hended)
              | ignored =>
                  have hended : ClickOutcome.ignored ≠ .stuck := by simp
                  exact hserved.after_click (hround hended)
              | cancelled =>
                  have hended : ClickOutcome.cancelled ≠ .stuck := by simp
                  exact ⟨_, b', w', hround hended, Or.inl ⟨rfl, .cancelled (hcancelled rfl)⟩⟩
              | stuck => exact ⟨[], b, w, .begins, Or.inr ⟨rfl, hstuck rfl⟩⟩

theorem exists_career_run (b : Button) (w : World) :
    ∃ clicks b' w', Career b w clicks b' w' ∧
      (run b w = (true, b', w'.closeQueue) ∧ Over clicks w' ∨
        (run b w).1 = false ∧ Hangs b' w') := by
  have hbegun : Career b w [] b (w.giveWay true) :=
    Career.begins.aside (World.aside_giveWay true w)
  rcases ledTo_serve b (Nat.le_refl (rounds (w.giveWay true))) with
    ⟨clicks, b', w', hcareer, hserved⟩
  refine ⟨clicks, b', w', hbegun.trans hcareer, ?_⟩
  unfold run
  dsimp only
  rcases hserved with ⟨hended, hover⟩ | ⟨hhung, hhangs⟩
  · rw [hended]
    exact Or.inl ⟨rfl, hover⟩
  · refine Or.inr ⟨?_, hhangs⟩
    generalize serve (rounds (w.giveWay true)) b (w.giveWay true) = served at hhung
    rcases served with ⟨ended, b'', w''⟩
    cases ended with
    | true => cases hhung
    | false => rfl

end Session

end ButtonFlow
