import ButtonFlow.Button.Session
import ButtonFlow.Proofs.Button.Clicked

/-!
# What a session does

A session goes round by round. In each of them the visitor may act, a click is taken, and what
a click does is done. A session ends when it finds its token cancelled, or that no click waits
and none will come; when a run is cancelled; or when a run closes the window. It hangs when it
waits for a click that never comes, or for a run that never ends.
-/

namespace ButtonFlow

/-!
## The token and the queue
-/

namespace Ledger

variable {l : Ledger}

theorem held_after (d : Deed) (h : l.queue.held = false) : (l.after d).queue.held = false := by
  have hnote : ∀ (l : Ledger) (m : Moment), (l.note m).queue.held = l.queue.held := by
    intro l m
    unfold note Queue.after
    dsimp only
    split <;> rfl
  cases d with
  | noted m => rw [after, hnote, h]
  | acted touch time view reply =>
      rw [after, hnote]
      cases touch with
      | change c => exact h
      | leave => rfl
  | shown view => exact h

theorem foldl_held (ds : List Deed) (h : l.queue.held = false) :
    (ds.foldl after l).queue.held = false := by
  induction ds generalizing l with
  | nil => exact h
  | cons d ds ih => exact ih (held_after d h)

end Ledger

theorem countP_isTaken_eq_zero {ds : List Deed} (h : ∀ d ∈ ds, d.isAside = true) :
    (moments ds).countP (·.what.isTaken) = 0 := by
  rw [List.countP_eq_zero]
  intro m hm
  rcases what_of_aside h hm with hcancelled | ⟨reply, hreply⟩
  · rw [hcancelled]
    exact Bool.false_ne_true
  · rw [hreply]
    exact Bool.false_ne_true

namespace World

theorem Aside.hasWork {w w' : World} (h : Aside w w') (hw : w.hasWork = true) :
    w'.hasWork = true := by
  rcases h with ⟨ds, htrail, haside⟩
  have hwaiting := htrail.lawful.waiting_add
  rw [← htrail.ledger_eq, countP_isTaken_eq_zero haside] at hwaiting
  have hmore : w.queue.waiting ≤ w'.queue.waiting := by
    change w'.queue.waiting + 0 = w.queue.waiting + _ at hwaiting
    omega
  have hheld : w.queue.held = false → w'.queue.held = false := by
    intro hgone
    have hafter := Ledger.foldl_held (l := w.ledger) ds hgone
    rwa [← htrail.ledger_eq] at hafter
  unfold World.hasWork at hw ⊢
  rw [Bool.or_eq_true, Bool.or_eq_true] at hw ⊢
  rcases hw with (hw | hw) | hw
  · exact Or.inl (Or.inl (htrail.isCancelled hw))
  · have hsome : 0 < w.queue.waiting := of_decide_eq_true hw
    exact Or.inl (Or.inr (decide_eq_true (Nat.lt_of_lt_of_le hsome hmore)))
  · have hgone : w.queue.held = false := by simpa using hw
    exact Or.inr (by simp [hheld hgone])

theorem ready_of_pass {ready : World → Bool} {fuel : Nat} {w w' : World}
    (h : pass ready none fuel w = some w') : ready w' = true := by
  induction fuel generalizing w with
  | zero => cases h
  | succ fuel ih =>
      unfold pass at h
      by_cases hready : ready w = true
      · rw [if_pos hready] at h
        cases h
        exact hready
      · rw [if_neg hready] at h
        cases hnext : w.nextAct? with
        | none =>
            rw [hnext] at h
            cases h
        | some time =>
            simp only [hnext] at h
            split at h
            · exact ih h
            · cases h

theorem hasWork_of_waitUntil {w w' : World} (h : w.waitUntil hasWork none = some w') :
    w'.hasWork = true := by
  unfold waitUntil at h
  split at h
  · rename_i hready
    cases h
    exact (aside_pause 1 w).hasWork (by simpa using hready)
  · split at h
    · cases h
    · rename_i hpass
      cases h
      exact (aside_giveWay true _).hasWork (ready_of_pass hpass)

end World

/-!
## Rounds
-/

/-- Whether the session is over after a click, and if so, whether it has ended rather than
hangs. -/
def ClickOutcome.verdict? : ClickOutcome → Option Bool
  | .ran r => if r.termination = .windowClosed then some true else none
  | .ignored => none
  | .cancelled => some true
  | .stuck => some false

inductive Round (b : Button) (l : Ledger) : List Deed → ClickOutcome → Button → Prop where
  | taken {waited clicked : List Deed} {m : Moment} {outcome : ClickOutcome} {b' : Button}
      (hwaited : ∀ d ∈ waited, d.isAside = true) (hm : m.what = .taken)
      (hclicked : Clicked b ((waited ++ [Deed.noted m]).foldl Ledger.after l) clicked outcome b') :
      Round b l (waited ++ [.noted m] ++ clicked) outcome b'

theorem doings_taken {waited : List Deed} {m : Moment} (hwaited : ∀ d ∈ waited, d.isAside = true)
    (hm : m.what = .taken) (clicked : List Deed) :
    doings (waited ++ [.noted m] ++ clicked) = doings clicked := by
  have htaken : doings [.noted m] = [] := by
    apply doings_noted
    rw [hm]
    rfl
  rw [doings_append, doings_append, doings_eq_nil hwaited, htaken]
  rfl

theorem isShown_taken {waited : List Deed} {m : Moment} (hwaited : ∀ d ∈ waited, d.isAside = true) :
    ∀ d ∈ waited ++ [.noted m], d.isShown = false := by
  refine List.forall_mem_append.mpr ⟨?_, List.forall_mem_singleton.mpr rfl⟩
  intro d hd
  exact Deed.isShown_of_isAside (hwaited d hd)

/-- What a session can do, whether it ends rather than hangs, and what it leaves. -/
inductive Served : Button → Ledger → List Deed → Bool → Button → Prop where
  | left {b : Button} {l : Ledger} {waited : List Deed} (hwaited : ∀ d ∈ waited, d.isAside = true)
      (hover : (waited.foldl Ledger.after l).isCancelled = true ∨
        (waited.foldl Ledger.after l).queue.waiting = 0 ∧
          (waited.foldl Ledger.after l).queue.held = false) :
      Served b l waited true b
  | hung {b : Button} {l : Ledger} : Served b l [] false b
  | wentOn {b b' b'' : Button} {l : Ledger} {ds later : List Deed} {outcome : ClickOutcome}
      {ended : Bool} (hround : Round b l ds outcome b') (hverdict : outcome.verdict? = none)
      (hlater : Served b' (ds.foldl Ledger.after l) later ended b'') :
      Served b l (ds ++ later) ended b''
  | stopped {b b' : Button} {l : Ledger} {ds : List Deed} {outcome : ClickOutcome} {ended : Bool}
      (hround : Round b l ds outcome b') (hverdict : outcome.verdict? = some ended) :
      Served b l ds ended b'

namespace Session

variable {w w' : World}

theorem exists_of_next?_leave (h : next? w = some (.leave, w')) :
    ∃ waited, World.Trail w waited w' ∧ (∀ d ∈ waited, d.isAside = true) ∧
      (w'.isCancelled = true ∨ w'.queue.waiting = 0 ∧ w'.queue.held = false) := by
  unfold next? at h
  split at h
  · cases h
  · rename_i ready hready
    have haside := (World.aside_waitUntil hready).trans (World.aside_decide false ready)
    have hready := World.hasWork_of_waitUntil hready
    have hwork : (World.decide false ready).2.hasWork = true := hready
    dsimp only at h
    generalize World.decide false ready = decided at h haside hwork
    rcases decided with ⟨turn, decided⟩
    dsimp only at h haside hwork
    split at h
    · rename_i hnoticed
      cases h
      rcases haside with ⟨waited, htrail, hwaited⟩
      exact ⟨waited, htrail, hwaited, Or.inl (Bool.and_eq_true_iff.mp hnoticed).1⟩
    · split at h
      · cases h
      · rename_i hempty
        cases h
        rcases haside with ⟨waited, htrail, hwaited⟩
        refine ⟨waited, htrail, hwaited, ?_⟩
        by_cases hcancelled : w'.isCancelled = true
        · exact Or.inl hcancelled
        · refine Or.inr ⟨Nat.eq_zero_of_not_pos hempty, ?_⟩
          simpa [World.hasWork, hcancelled, hempty] using hwork

theorem exists_of_next?_click (h : next? w = some (.click, w')) :
    ∃ waited m, World.Trail w (waited ++ [.noted m]) w' ∧ (∀ d ∈ waited, d.isAside = true) ∧
      m.what = .taken := by
  unfold next? at h
  split at h
  · cases h
  · rename_i ready hready
    have haside := (World.aside_waitUntil hready).trans (World.aside_decide false ready)
    dsimp only at h
    generalize World.decide false ready = decided at h haside
    rcases decided with ⟨turn, decided⟩
    dsimp only at h haside
    split at h
    · cases h
    · split at h
      · rename_i hsome
        cases h
        rcases haside with ⟨waited, htrail, hwaited⟩
        have htaken : World.Trail decided [.noted ⟨decided.clock, decided.view, .taken⟩]
            decided.takeClick := by
          refine .one ⟨rfl, hsome⟩ ?_ rfl rfl rfl
          simp [World.ledger, World.takeClick, World.note, Ledger.after,
            Store.afterHappening, Queue.after, Happening.cancels]
        exact ⟨waited, _, htrail.trans htaken, hwaited, rfl⟩
      · cases h

theorem exists_round {w taken : World} (h : next? w = some (.click, taken)) (b : Button) :
    ∃ ds, World.Trail w ds (b.click taken).2.2 ∧
      Round b w.ledger ds (b.click taken).1 (b.click taken).2.1 ∧
      rounds (b.click taken).2.2 < rounds w := by
  rcases exists_of_next?_click h with ⟨waited, m, htaken, hwaited, hm⟩
  rcases b.exists_clicked taken with ⟨clicked, hclick, hclicked⟩
  rw [htaken.ledger_eq] at hclicked
  have htrail := htaken.trans hclick
  refine ⟨_, htrail, .taken hwaited hm hclicked, ?_⟩
  have hwaiting := htrail.lawful.waiting_add
  rw [← htrail.ledger_eq] at hwaiting
  change (b.click taken).2.2.queue.waiting + _ = w.queue.waiting + _ at hwaiting
  have hplanned := htrail.clicks_le
  have hone : 1 ≤ (moments (waited ++ [.noted m] ++ clicked)).countP (·.what.isTaken) := by
    refine List.one_le_countP_iff.mpr ⟨m, ?_, ?_⟩
    · exact List.mem_filterMap.mpr ⟨.noted m, by simp, rfl⟩
    · rw [hm]
      rfl
  unfold rounds
  omega

theorem exists_served {fuel : Nat} (b : Button) {w : World} (hfuel : rounds w ≤ fuel) :
    ∃ ds, World.Trail w ds (serve fuel b w).2.2 ∧
      Served b w.ledger ds (serve fuel b w).1 (serve fuel b w).2.1 := by
  -- The bound on the rounds is never met.
  induction fuel generalizing b w with
  | zero => cases hfuel
  | succ fuel ih =>
      unfold serve
      cases hnext : next? w with
      | none => exact ⟨[], .refl w, .hung⟩
      | some next =>
          rcases next with ⟨next, taken⟩
          cases next with
          | leave =>
              rcases exists_of_next?_leave hnext with ⟨waited, htrail, hwaited, hover⟩
              have hledger := htrail.ledger_eq
              refine ⟨waited, htrail, .left hwaited ?_⟩
              rw [← hledger]
              exact hover
          | click =>
              rcases exists_round hnext b with ⟨ds, htrail, hround, hfewer⟩
              dsimp only
              generalize b.click taken = clicked at htrail hround hfewer ⊢
              rcases clicked with ⟨outcome, b', w'⟩
              dsimp only at htrail hround hfewer
              have hgo : outcome.verdict? = none → ∃ ds, World.Trail w ds (serve fuel b' w').2.2 ∧
                  Served b w.ledger ds (serve fuel b' w').1 (serve fuel b' w').2.1 := by
                intro hverdict
                rcases ih b' (Nat.le_of_lt_succ (Nat.lt_of_lt_of_le hfewer hfuel)) with
                  ⟨later, hlater, hserved⟩
                rw [htrail.ledger_eq] at hserved
                exact ⟨ds ++ later, htrail.trans hlater, .wentOn hround hverdict hserved⟩
              cases outcome with
              | ran r =>
                  dsimp only
                  by_cases hclosed : r.termination = .windowClosed
                  · rw [if_pos hclosed]
                    exact ⟨ds, htrail, .stopped hround (if_pos hclosed)⟩
                  · rw [if_neg hclosed]
                    exact hgo (if_neg hclosed)
              | ignored => exact hgo rfl
              | cancelled => exact ⟨ds, htrail, .stopped hround rfl⟩
              | stuck => exact ⟨ds, htrail, .stopped hround rfl⟩

theorem exists_served_run (b : Button) (w : World) :
    ∃ waited served closing,
      World.Trail w (waited ++ served ++ closing) (run b w).2.2 ∧
      (∀ d ∈ waited, d.isAside = true) ∧
      Served b (waited.foldl Ledger.after w.ledger) served (run b w).1 (run b w).2.1 ∧
      (closing = [] ∨ ∃ m, closing = [.noted m] ∧ m.what = .closed) := by
  rcases World.aside_giveWay true w with ⟨waited, hwaits, hwaited⟩
  rcases exists_served b (Nat.le_refl (rounds (w.giveWay true))) with ⟨served, htrail, hserved⟩
  rw [hwaits.ledger_eq] at hserved
  unfold run
  dsimp only
  generalize serve (rounds (w.giveWay true)) b (w.giveWay true) = ran at htrail hserved ⊢
  rcases ran with ⟨ended, b', w'⟩
  have hboth := hwaits.trans htrail
  cases ended with
  | true =>
      have hclosing : World.Trail w' [.noted ⟨w'.clock, w'.view, .closed⟩] w'.closeQueue := by
        refine .one ⟨rfl, trivial⟩ ?_ rfl rfl rfl
        simp [World.ledger, World.closeQueue, World.note, Ledger.after,
          Store.afterHappening, Queue.after, Happening.cancels]
      exact ⟨waited, served, _, hboth.trans hclosing, hwaited, hserved, Or.inr ⟨_, rfl, rfl⟩⟩
  | false =>
      refine ⟨waited, served, [], ?_, hwaited, hserved, Or.inl rfl⟩
      rw [List.append_nil]
      exact hboth

end Session

end ButtonFlow
