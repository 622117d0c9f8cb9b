import ButtonFlow.Proofs.Button.Clicked

/-!
# The life of a button

A button is made, and then clicked again and again. In between others may act, and everything
may be different for the next click: the token, the host, what the visitor plans. Only the
button itself changes what it looks like.
-/

namespace ButtonFlow

/-- What may happen between two clicks: others do these deeds. -/
structure Meanwhile (w : World) (ds : List Deed) (w' : World) : Prop where
  aside : ∀ d ∈ ds, d.isAside = true
  view_eq : w'.view = w.view
  store_eq : w'.store = ds.foldl Store.after w.store
  history_eq : w'.history = w.history ++ moments ds

/-- A button that was made in the world `start`, what others wanted since then besides clicks,
and what each click has led to. -/
inductive Life (slot : String) (delay : Nat) (start : World) :
    List (Option Change) → List ClickOutcome → Button → World → Prop where
  | made {others : List (Option Change)}
      (hothers : plannedErrands start.plan =
        others ++ plannedErrands (Button.make slot delay start).2.plan) :
      Life slot delay start others [] (Button.make slot delay start).1
        (Button.make slot delay start).2
  | meanwhile {others : List (Option Change)} {outcomes : List ClickOutcome} {b : Button}
      {w w' : World} {ds : List Deed} (hlife : Life slot delay start others outcomes b w)
      (hmeanwhile : Meanwhile w ds w') :
      Life slot delay start (others ++ errands ds) outcomes b w'
  | clicked {others others' : List (Option Change)} {outcomes : List ClickOutcome} {b : Button}
      {w : World} (hlife : Life slot delay start others outcomes b w)
      (hothers : plannedErrands w.plan = others' ++ plannedErrands (b.click w).2.2.plan)
      (hends : (b.click w).1 ≠ .stuck) :
      Life slot delay start (others ++ others') (outcomes ++ [(b.click w).1]) (b.click w).2.1
        (b.click w).2.2

theorem Meanwhile.idle {w w' : World} (hview : w'.view = w.view) (hstore : w'.store = w.store)
    (hpast : w'.past = w.past) : Meanwhile w [] w' where
  aside := List.forall_mem_nil _
  view_eq := hview
  store_eq := hstore
  history_eq := by
    unfold World.history
    rw [hpast]
    exact (List.append_nil _).symm

/-!
## The view
-/

def ClickOutcome.isRan : ClickOutcome → Bool
  | .ran _ => true
  | _ => false

def ClickOutcome.isCancelled : ClickOutcome → Bool
  | .cancelled => true
  | _ => false

theorem ClickOutcome.eq_cancelled {outcome : ClickOutcome} (h : outcome.isCancelled = true) :
    outcome = .cancelled := by
  cases outcome with
  | cancelled => rfl
  | _ => cases h

namespace Life

variable {slot : String} {delay : Nat} {start w : World} {others : List (Option Change)}
  {outcomes : List ClickOutcome} {b : Button}

structure Rests (outcomes : List ClickOutcome) (b : Button) (v : View) : Prop where
  running_eq : v.running = false
  label_eq : v.label = b.workflow.label
  runs_eq : v.runs = outcomes.countP ClickOutcome.isRan

theorem Rests.click {outcome : ClickOutcome} {b' : Button} {v : View} {l : Ledger} {ds : List Deed}
    (h : Rests outcomes b v) (hclicked : Clicked b l ds outcome b') (hends : outcome ≠ .stuck) :
    Rests (outcomes ++ [outcome]) b' (outcome.viewAfter b'.workflow v) := by
  have hcount : (outcomes ++ [outcome]).countP ClickOutcome.isRan =
      v.runs + [outcome].countP ClickOutcome.isRan := by
    rw [List.countP_append, h.runs_eq]
  cases hclicked with
  | ignored _ _ => exact ⟨h.running_eq, h.label_eq, hcount.symm⟩
  | ran _ _ hstays =>
      rw [ClickOutcome.viewAfter, if_neg hstays]
      exact ⟨rfl, h.label_eq, hcount.symm⟩
  | reloaded _ _ hreloaded _ =>
      rw [ClickOutcome.viewAfter, if_pos hreloaded]
      exact ⟨rfl, rfl, hcount.symm⟩
  | cancelled _ _ _ => exact ⟨rfl, h.label_eq, hcount.symm⟩
  | stuck _ _ => exact (hends rfl).elim

end Life

end ButtonFlow
