import ButtonFlow.Proofs.World.Scene

/-!
# Deeds

All that is done in a world comes down to a few deeds. Something happens and is kept in the
history; the visitor changes the store or lets go of the button; the button comes to look
different. What a deed changes is said here once, together with what it may rely on: a step
only begins while the token is not cancelled, and a click is only taken while one waits.
-/

namespace ButtonFlow

/-!
## What is done
-/

inductive Change where
  | set (key value : String)
  | remove (key : String)
  deriving DecidableEq

inductive Touch where
  | change (c : Change)
  | leave

/-- One thing that is done in a world. -/
inductive Deed where
  | noted (m : Moment)
  | acted (touch : Touch) (time : Nat) (view : View) (reply : Reply)
  /-- The button looks different from now on. -/
  | shown (view : View)

namespace Deed

def moment? : Deed → Option Moment
  | .noted m => some m
  | .acted _ time view reply => some ⟨time, view, .visitor reply⟩
  | .shown _ => none

def errand? : Deed → Option (Option Change)
  | .noted ⟨_, _, .visitor .done⟩ | .noted ⟨_, _, .visitor (.failed _)⟩
  | .noted ⟨_, _, .visitor (.saw _)⟩ => some none
  | .noted _ => none
  | .acted (.change c) .. => some (some c)
  | .acted .leave .. => some none
  | .shown _ => none

def isAside : Deed → Bool
  | .noted m =>
      match m.what with
      | .visitor _ | .cancelled => true
      | _ => false
  | .acted .. => true
  | .shown _ => false

def isDuringRun : Deed → Bool
  | .noted m =>
      match m.what with
      | .load | .ignored | .taken | .closed => false
      | _ => true
  | .acted .. => true
  | .shown _ => false

def isShown : Deed → Bool
  | .shown _ => true
  | _ => false

theorem isDuringRun_of_isAside {d : Deed} (h : d.isAside = true) : d.isDuringRun = true := by
  cases d with
  | noted m =>
      rcases m with ⟨time, view, what⟩
      cases what <;> simp_all [isAside, isDuringRun]
  | acted touch time view reply => rfl
  | shown view => cases h

theorem isShown_of_isDuringRun {d : Deed} (h : d.isDuringRun = true) : d.isShown = false := by
  cases d with
  | noted m => rfl
  | acted touch time view reply => rfl
  | shown view => cases h

theorem isShown_of_isAside {d : Deed} (h : d.isAside = true) : d.isShown = false :=
  isShown_of_isDuringRun (isDuringRun_of_isAside h)

end Deed

def moments (ds : List Deed) : List Moment :=
  ds.filterMap Deed.moment?

def doings (ds : List Deed) : List Happening :=
  ((moments ds).map Moment.what).filter Happening.isOfRun

def errands (ds : List Deed) : List (Option Change) :=
  ds.filterMap Deed.errand?

@[simp]
theorem moments_append (ds ds' : List Deed) : moments (ds ++ ds') = moments ds ++ moments ds' :=
  List.filterMap_append

@[simp]
theorem doings_append (ds ds' : List Deed) : doings (ds ++ ds') = doings ds ++ doings ds' := by
  unfold doings
  rw [moments_append, List.map_append, List.filter_append]

@[simp]
theorem errands_append (ds ds' : List Deed) : errands (ds ++ ds') = errands ds ++ errands ds' :=
  List.filterMap_append

theorem moments_between_shown (view view' : View) (ds : List Deed) :
    moments (.shown view :: (ds ++ [.shown view'])) = moments ds := by
  change moments (ds ++ [.shown view']) = moments ds
  rw [moments_append]
  exact List.append_nil _

theorem doings_between_shown (view view' : View) (ds : List Deed) :
    doings (.shown view :: (ds ++ [.shown view'])) = doings ds := by
  unfold doings
  rw [moments_between_shown]

theorem what_of_aside {ds : List Deed} (h : ∀ d ∈ ds, d.isAside = true) {m : Moment}
    (hm : m ∈ moments ds) : m.what = .cancelled ∨ ∃ reply, m.what = .visitor reply := by
  rcases List.mem_filterMap.mp hm with ⟨d, hd, hmoment⟩
  have haside := h d hd
  cases d with
  | noted m' =>
      cases hmoment
      rcases m with ⟨time, view, what⟩
      cases what with
      | cancelled => exact Or.inl rfl
      | visitor reply => exact Or.inr ⟨reply, rfl⟩
      | _ => cases haside
  | acted touch time view reply =>
      cases hmoment
      exact Or.inr ⟨reply, rfl⟩
  | shown view => cases hmoment

theorem doings_eq_nil {ds : List Deed} (h : ∀ d ∈ ds, d.isAside = true) : doings ds = [] := by
  unfold doings
  rw [List.filter_eq_nil_iff]
  intro what hwhat
  rcases List.mem_map.mp hwhat with ⟨m, hm, rfl⟩
  rcases what_of_aside h hm with hcancelled | ⟨reply, hreply⟩
  · rw [hcancelled]
    exact Bool.false_ne_true
  · rw [hreply]
    exact Bool.false_ne_true

theorem doings_noted {m : Moment} (h : m.what.isOfRun = false) : doings [.noted m] = [] :=
  List.filter_cons_of_neg (by simp [h])

/-!
## What deeds change
-/

def Store.change (store : Store) : Change → Store
  | .set key value => (store.set key value).2
  | .remove key => (store.remove key).2

/-- The store after something happened. A step writes when it notes so. -/
def Store.afterHappening (store : Store) : Happening → Store
  | .write key value _ => (store.set key value).2
  | _ => store

def Store.after (store : Store) : Deed → Store
  | .noted m => store.afterHappening m.what
  | .acted (.change c) .. => store.change c
  | _ => store

theorem Store.foldl_after_eq {store : Store} {ds : List Deed} (h : ∀ c, some c ∉ errands ds) :
    ds.foldl Store.after store = (doings ds).foldl Store.afterHappening store := by
  induction ds generalizing store with
  | nil => rfl
  | cons d ds ih =>
      rw [← List.singleton_append] at h
      simp only [errands_append, List.mem_append, not_or] at h
      have hd : store.after d = (doings [d]).foldl Store.afterHappening store := by
        cases d with
        | noted m =>
            rcases m with ⟨time, view, what⟩
            cases what <;> rfl
        | acted touch time view reply =>
            cases touch with
            | change c => exact absurd List.mem_cons_self (h c).1
            | leave => rfl
        | shown view => rfl
      rw [← List.singleton_append, doings_append, List.foldl_append, List.foldl_append, ← hd]
      exact ih fun c => (h c).2

theorem Store.foldl_afterHappening_eq_self {store : Store} {hs : List Happening}
    (h : ∀ key value written, .write key value written ∉ hs) :
    hs.foldl Store.afterHappening store = store := by
  induction hs with
  | nil => rfl
  | cons what hs ih =>
      have hwhat : store.afterHappening what = store := by
        cases what with
        | write key value written => exact absurd List.mem_cons_self (h key value written)
        | _ => rfl
      rw [List.foldl_cons, hwhat]
      exact ih fun key value written hmem => h key value written (List.mem_cons_of_mem _ hmem)

def Queue.after (queue : Queue) : Happening → Queue
  | .visitor .queued => { queue with waiting := queue.waiting + 1 }
  | .taken => { queue with waiting := queue.waiting - 1 }
  | .closed => { queue with isOpen := false }
  | _ => queue

def Happening.event? : Happening → Option Event
  | .event e => some e
  | _ => none

def Happening.cancels : Happening → Bool
  | .cancelled => true
  | _ => false

def Happening.isStart : Happening → Bool
  | .event (.stepStarted ..) => true
  | _ => false

def Happening.isTaken : Happening → Bool
  | .taken => true
  | _ => false

def Happening.isQueued : Happening → Bool
  | .visitor .queued => true
  | _ => false

/-- Whether it is something that the runs do, and changes no more than the history. -/
def Happening.isPlain : Happening → Bool
  | .cancelled | .write .. | .taken | .closed | .visitor _ => false
  | _ => true

theorem Happening.isQueued_of_isPlain {what : Happening} (h : what.isPlain = true) :
    what.isQueued = false := by
  unfold isQueued
  split
  · cases h
  · rfl

theorem Deed.errand?_of_isPlain {m : Moment} (h : m.what.isPlain = true) :
    (Deed.noted m).errand? = none := by
  rcases m with ⟨time, view, what⟩
  cases what with
  | visitor reply => cases h
  | _ => rfl

/-- The part of a world that is changed by deeds, and the colors that are drawn. -/
structure Ledger where
  store : Store
  view : View
  isCancelled : Bool
  queue : Queue
  past : List Moment
  colors : Nat → Nat

namespace Ledger

@[simp] def note (l : Ledger) (m : Moment) : Ledger where
  store := l.store.afterHappening m.what
  view := l.view
  isCancelled := l.isCancelled || m.what.cancels
  queue := l.queue.after m.what
  past := m :: l.past
  colors := l.colors

def touch (l : Ledger) : Touch → Ledger
  | .change c => { l with store := l.store.change c }
  | .leave => { l with queue := { l.queue with held := false } }

def after (l : Ledger) : Deed → Ledger
  | .noted m => l.note m
  | .acted touch time view reply => (l.touch touch).note ⟨time, view, .visitor reply⟩
  | .shown view => { l with view := view }

def Admits (l : Ledger) : Happening → Prop
  | .cancelled => l.isCancelled = false
  | .event (.stepStarted ..) => l.isCancelled = false
  | .ignored => l.view.presentation.disabled = true
  | .taken => 0 < l.queue.waiting
  | .visitor .queued =>
      l.queue.held = true ∧ l.queue.isOpen = true ∧ l.queue.waiting < l.queue.capacity
  | .visitor .refused => l.queue.isOpen = false
  | .visitor .gone => l.queue.held = false
  | _ => True

/-- Whether a deed can be done now. The history shows the view of the moment. -/
def Allows (l : Ledger) : Deed → Prop
  | .noted m => m.view = l.view ∧ l.Admits m.what
  | .acted touch _ view reply => view = l.view ∧ (l.touch touch).Admits (.visitor reply)
  | .shown _ => True

def Lawful : Ledger → List Deed → Prop
  | _, [] => True
  | l, d :: ds => l.Allows d ∧ (l.after d).Lawful ds

theorem lawful_append {l : Ledger} {ds ds' : List Deed} :
    l.Lawful (ds ++ ds') ↔ l.Lawful ds ∧ (ds.foldl after l).Lawful ds' := by
  induction ds generalizing l with
  | nil => exact ⟨fun h => ⟨trivial, h⟩, And.right⟩
  | cons d ds ih =>
      simp only [List.cons_append, Lawful, List.foldl_cons, ih, and_assoc]

/-!
## One deed
-/

variable {l : Ledger} {d : Deed} {m : Moment}

theorem past_after (l : Ledger) (d : Deed) :
    (l.after d).past = (moments [d]).reverse ++ l.past := by
  cases d with
  | noted m => rfl
  | acted touch time view reply => cases touch <;> rfl
  | shown view => rfl

theorem store_after (l : Ledger) (d : Deed) : (l.after d).store = l.store.after d := by
  cases d with
  | noted m => rfl
  | acted touch time view reply => cases touch <;> rfl
  | shown view => rfl

theorem isCancelled_after (l : Ledger) (d : Deed) :
    (l.after d).isCancelled = (l.isCancelled || (moments [d]).any (·.what.cancels)) := by
  cases d with
  | noted m => exact congrArg (l.isCancelled || ·) (Bool.or_false _).symm
  | acted touch time view reply => cases touch <;> rfl
  | shown view => exact (Bool.or_false _).symm

theorem view_after (l : Ledger) (hd : d.isShown = false) : (l.after d).view = l.view := by
  cases d with
  | noted m => rfl
  | acted touch time view reply => cases touch <;> rfl
  | shown view => cases hd

theorem colors_after (l : Ledger) (d : Deed) : (l.after d).colors = l.colors := by
  cases d with
  | noted m => rfl
  | acted touch time view reply => cases touch <;> rfl
  | shown view => rfl

theorem Allows.of_moment (h : l.Allows d) (hm : d.moment? = some m) :
    m.view = l.view ∧ ∃ l' : Ledger, l'.isCancelled = l.isCancelled ∧ l'.view = l.view ∧
      l'.queue.waiting = l.queue.waiting ∧ l'.Admits m.what := by
  cases d with
  | noted m' =>
      cases hm
      exact ⟨h.1, l, rfl, rfl, rfl, h.2⟩
  | acted touch time view reply =>
      cases hm
      refine ⟨h.1, l.touch touch, ?_, ?_, ?_, h.2⟩
      · cases touch <;> rfl
      · cases touch <;> rfl
      · cases touch <;> rfl
  | shown view => cases hm

theorem waiting_note (hadmits : l.Admits m.what) :
    (l.note m).queue.waiting + [m].countP (·.what.isTaken) =
      l.queue.waiting + [m].countP (·.what.isQueued) := by
  rcases m with ⟨time, view, what⟩
  cases what with
  | taken =>
      have hsome : 0 < l.queue.waiting := hadmits
      have hqueue : (l.note ⟨time, view, .taken⟩).queue.waiting = l.queue.waiting - 1 := rfl
      rw [hqueue, List.countP_cons_of_pos rfl, List.countP_cons_of_neg Bool.false_ne_true,
        List.countP_nil, List.countP_nil]
      omega
  | visitor reply =>
      cases reply with
      | queued => rfl
      | _ => rfl
  | _ => rfl

theorem waiting_after (h : l.Allows d) :
    (l.after d).queue.waiting + (moments [d]).countP (·.what.isTaken) =
      l.queue.waiting + (moments [d]).countP (·.what.isQueued) := by
  cases d with
  | noted m => exact waiting_note h.2
  | acted touch time view reply =>
      have hsame : (l.touch touch).queue.waiting = l.queue.waiting := by
        cases touch <;> rfl
      rw [← hsame]
      exact waiting_note h.2
  | shown view => rfl

/-!
## One deed after the other
-/

theorem foldl_past (l : Ledger) (ds : List Deed) :
    (ds.foldl after l).past = (moments ds).reverse ++ l.past := by
  induction ds generalizing l with
  | nil => rfl
  | cons d ds ih =>
      rw [List.foldl_cons, ih, past_after, ← List.append_assoc, ← List.reverse_append,
        ← moments_append, List.singleton_append]

theorem foldl_store (l : Ledger) (ds : List Deed) :
    (ds.foldl after l).store = ds.foldl Store.after l.store := by
  induction ds generalizing l with
  | nil => rfl
  | cons d ds ih => rw [List.foldl_cons, ih, store_after, List.foldl_cons]

theorem foldl_isCancelled (l : Ledger) (ds : List Deed) :
    (ds.foldl after l).isCancelled = (l.isCancelled || (moments ds).any (·.what.cancels)) := by
  induction ds generalizing l with
  | nil => exact (Bool.or_false _).symm
  | cons d ds ih =>
      rw [List.foldl_cons, ih, isCancelled_after, Bool.or_assoc, ← List.any_append,
        ← moments_append, List.singleton_append]

theorem foldl_colors (l : Ledger) (ds : List Deed) : (ds.foldl after l).colors = l.colors := by
  induction ds generalizing l with
  | nil => rfl
  | cons d ds ih => rw [List.foldl_cons, ih, colors_after]

theorem foldl_view {ds : List Deed} (h : ∀ d ∈ ds, d.isShown = false) :
    (ds.foldl after l).view = l.view := by
  induction ds generalizing l with
  | nil => rfl
  | cons d ds ih =>
      rw [List.foldl_cons, ih fun d' hd' => h d' (List.mem_cons_of_mem _ hd'),
        view_after l (h d (List.mem_cons_self ..))]

theorem Lawful.view_eq {ds : List Deed} (h : l.Lawful ds) (hshown : ∀ d ∈ ds, d.isShown = false) :
    ∀ m ∈ moments ds, m.view = l.view := by
  induction ds generalizing l with
  | nil => exact List.forall_mem_nil _
  | cons d ds ih =>
      rcases h with ⟨hallows, hlater⟩
      rcases List.forall_mem_cons.mp hshown with ⟨hd, hds⟩
      intro m hm
      rcases List.mem_filterMap.mp hm with ⟨d', hd', hmoment⟩
      rcases List.mem_cons.mp hd' with rfl | hd'
      · exact (hallows.of_moment hmoment).1
      · rw [ih hlater hds m (List.mem_filterMap.mpr ⟨d', hd', hmoment⟩), view_after l hd]

theorem Lawful.disabled_of_ignored {ds : List Deed} (h : l.Lawful ds) :
    ∀ m ∈ moments ds, m.what = .ignored → m.view.presentation.disabled = true := by
  induction ds generalizing l with
  | nil => exact List.forall_mem_nil _
  | cons d ds ih =>
      rcases h with ⟨hallows, hlater⟩
      intro m hm hignored
      rcases List.mem_filterMap.mp hm with ⟨d', hd', hmoment⟩
      rcases List.mem_cons.mp hd' with rfl | hd'
      · rcases hallows.of_moment hmoment with ⟨hview, l', _, hview', _, hadmits⟩
        rw [hignored] at hadmits
        rw [hview, ← hview']
        exact hadmits
      · exact ih hlater m (List.mem_filterMap.mpr ⟨d', hd', hmoment⟩) hignored

/-- No step begins after the token was cancelled. -/
theorem Lawful.not_isStart {ds : List Deed} (h : l.Lawful ds) (hcancelled : l.isCancelled = true) :
    ∀ m ∈ moments ds, m.what.isStart = false := by
  induction ds generalizing l with
  | nil => exact List.forall_mem_nil _
  | cons d ds ih =>
      rcases h with ⟨hallows, hlater⟩
      intro m hm
      rcases List.mem_filterMap.mp hm with ⟨d', hd', hmoment⟩
      rcases List.mem_cons.mp hd' with rfl | hd'
      · rcases hallows.of_moment hmoment with ⟨_, l', htoken, _, _, hadmits⟩
        rcases m with ⟨time, view, what⟩
        unfold Happening.isStart
        dsimp only
        split
        · have hnot : l'.isCancelled = false := hadmits
          rw [htoken, hcancelled] at hnot
          cases hnot
        · rfl
      · have hafter : (l.after d).isCancelled = true := by
          rw [isCancelled_after, hcancelled, Bool.true_or]
        exact ih hlater hafter m (List.mem_filterMap.mpr ⟨d', hd', hmoment⟩)

/-- Every click that is queued waits until it is taken. -/
theorem Lawful.waiting_add {ds : List Deed} (h : l.Lawful ds) :
    (ds.foldl after l).queue.waiting + (moments ds).countP (·.what.isTaken) =
      l.queue.waiting + (moments ds).countP (·.what.isQueued) := by
  induction ds generalizing l with
  | nil => rfl
  | cons d ds ih =>
      rcases h with ⟨hallows, hlater⟩
      have hfirst := waiting_after hallows
      have hrest := ih hlater
      have hboth : moments (d :: ds) = moments [d] ++ moments ds := moments_append [d] ds
      rw [hboth, List.countP_append, List.countP_append, List.foldl_cons]
      omega

end Ledger

end ButtonFlow
