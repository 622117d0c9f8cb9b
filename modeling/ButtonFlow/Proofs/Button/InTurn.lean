import ButtonFlow.Proofs.Button.Served
import ButtonFlow.Proofs.Run.Grammar

/-!
# Clicks in turn

A session serves one click after the other. A run has told its last event before the next one
tells its first; every click that is taken starts one run or is ignored; and no click is taken
that was not queued before, or lost.
-/

namespace ButtonFlow

/-!
## What clicks tell
-/

inductive ClickTold : ClickOutcome → List Event → Prop where
  | ran {id : String} {actions : Nat} {started : List Action} {steps : List Event} {r : RunResult}
      (hsteps : StepsReported id 0 started steps) :
      ClickTold (.ran r) (.runStarted id actions :: steps ++ [.runCompleted id r.termination])
  | ignored : ClickTold .ignored []
  | cancelled {id : String} {actions : Nat} {started : List Action} {steps : List Event}
      (hsteps : StepsReported id 0 started steps) :
      ClickTold .cancelled (.runStarted id actions :: steps ++ [.runCancelled id])
  | stuck {id : String} {actions : Nat} {started : List Action} {steps : List Event}
      (hsteps : StepsReported id 0 started steps) :
      ClickTold .stuck (.runStarted id actions :: steps)

/-- What clicks tell, each after the one before it has come to its end. -/
inductive ToldInTurn : List ClickOutcome → List Event → Prop where
  | nothing : ToldInTurn [] []
  | last {outcome : ClickOutcome} {told : List Event} (hlast : ClickTold outcome told) :
      ToldInTurn [outcome] told
  | next {outcome : ClickOutcome} {outcomes : List ClickOutcome} {told later : List Event}
      (hfirst : ClickTold outcome told) (hverdict : outcome.verdict? = none)
      (hlater : ToldInTurn outcomes later) : ToldInTurn (outcome :: outcomes) (told ++ later)

theorem RunOf.exists_told {colors : Nat → Nat} {actions : List Action} {p : Presentation}
    {ds : List Deed} {outcome : Outcome RunResult} (h : RunOf colors actions p ds outcome) :
    ∃ id started steps, StepsReported id 0 started steps ∧
      eventsOf (moments ds) =
        .runStarted id actions.length :: (steps ++ outcome.finalEvents id) := by
  rcases h.course with ⟨id, hs, hdoings, hcourse⟩
  rcases hcourse.events_eq with ⟨started, left, steps, _, hsteps, hevents, _⟩
  refine ⟨id, started, steps, hsteps, ?_⟩
  rw [eventsOf_eq_doings, hdoings]
  exact congrArg (List.cons _) hevents

theorem Clicked.told {b b' : Button} {l : Ledger} {ds : List Deed} {outcome : ClickOutcome}
    (h : Clicked b l ds outcome b') : ClickTold outcome (eventsOf (moments ds)) := by
  cases h with
  | @ignored m _ hm =>
      rcases m with ⟨time, view, what⟩
      cases hm
      exact .ignored
  | ran _ hrun _ =>
      rcases hrun.exists_told with ⟨id, started, steps, hsteps, htold⟩
      rw [moments_between_shown, htold]
      exact .ran hsteps
  | @reloaded ds loading _ _ _ hrun _ hloads =>
      rcases hrun.exists_told with ⟨id, started, steps, hsteps, htold⟩
      have hloading : eventsOf (moments (ds ++ loading)) = eventsOf (moments ds) := by
        rw [eventsOf_eq_doings, doings_append, hloads.doings_eq, List.filterMap_append,
          eventsOf_eq_doings]
        exact List.append_nil _
      rw [← List.append_assoc, moments_between_shown, hloading, htold]
      exact .ran hsteps
  | cancelled _ hrun _ =>
      rcases hrun.exists_told with ⟨id, started, steps, hsteps, htold⟩
      rw [moments_between_shown, htold]
      exact .cancelled hsteps
  | @stuck ds _ hrun =>
      rcases hrun.exists_told with ⟨id, started, steps, hsteps, htold⟩
      have hall : steps ++ Outcome.stuck.finalEvents id = steps := List.append_nil _
      rw [hall] at htold
      change ClickTold .stuck (eventsOf (moments ds))
      rw [htold]
      exact .stuck hsteps

/-!
## What becomes of clicks
-/

inductive Mark where
  | taken
  | started
  | completed
  | ignored
  deriving DecidableEq

def Happening.mark? : Happening → Option Mark
  | .taken => some .taken
  | .event (.runStarted ..) => some .started
  | .event (.runCompleted ..) => some .completed
  | .ignored => some .ignored
  | _ => none

/-- What became of clicks meanwhile. -/
def marks (ms : List Moment) : List Mark :=
  ms.filterMap (·.what.mark?)

def ClickOutcome.marks : ClickOutcome → List Mark
  | .ran _ => [.started, .completed]
  | .ignored => [.ignored]
  | .cancelled | .stuck => [.started]

@[simp] theorem marks_append (ms ms' : List Moment) : marks (ms ++ ms') = marks ms ++ marks ms' :=
  List.filterMap_append

theorem mark?_eq_none {ms : List Moment} {m : Moment} (h : marks ms = []) (hm : m ∈ ms) :
    m.what.mark? = none :=
  List.filterMap_eq_nil_iff.mp h m hm

theorem marks_of_aside {ds : List Deed} (h : ∀ d ∈ ds, d.isAside = true) :
    marks (moments ds) = [] := by
  refine List.filterMap_eq_nil_iff.mpr ?_
  intro m hm
  rcases what_of_aside h hm with hcancelled | ⟨reply, hreply⟩
  · rw [hcancelled]
    rfl
  · rw [hreply]
    rfl

theorem marks_of_isDuringRun {ds : List Deed} (h : ∀ d ∈ ds, d.isDuringRun = true) :
    marks (moments ds) = (doings ds).filterMap Happening.mark? := by
  induction ds with
  | nil => rfl
  | cons d ds ih =>
      rcases List.forall_mem_cons.mp h with ⟨hd, hds⟩
      have hone : marks (moments [d]) = (doings [d]).filterMap Happening.mark? := by
        cases d with
        | noted m =>
            rcases m with ⟨time, view, what⟩
            cases what with
            | event e => cases e <;> rfl
            | taken => cases hd
            | _ => rfl
        | acted touch time view reply => rfl
        | shown view => rfl
      rw [← List.singleton_append, moments_append, marks_append, doings_append,
        List.filterMap_append, hone, ih hds]

theorem Answered.marks_eq_nil {colors : Nat → Nat} {r : Request} {answer : r.Answer}
    {asked : List Happening} (h : Answered colors r answer asked) (report : Report)
    (executionId : String) (index : Nat) (action : Action) :
    (asked ++ report.happenings executionId index action).filterMap Happening.mark? = [] := by
  cases h <;> cases report <;> rfl

theorem Performed.marks_eq_nil {colors : Nat → Nat} {index : Nat} {action : Action}
    {run run' : Tally} {told : List Happening} {flow : Flow}
    (h : Performed colors index action run told flow run') :
    told.filterMap Happening.mark? = [] := by
  cases h with
  | step hanswered => exact hanswered.marks_eq_nil ..

theorem Course.marks_eq {colors : Nat → Nat} {index : Nat} {actions : List Action} {run : Tally}
    {hs : List Happening} {outcome : Outcome RunResult}
    (h : Course colors index actions run hs outcome) :
    hs.filterMap Happening.mark? = if outcome.result?.isSome then [.completed] else [] := by
  induction h with
  | completed => rfl
  | cancelledBefore => rfl
  | wentOn hstep _ _ ih => rw [List.filterMap_append, hstep.marks_eq_nil, ih]; rfl
  | stopped hstep => rw [List.filterMap_append, hstep.marks_eq_nil]; rfl
  | cancelledDuring hstep _ => rw [List.filterMap_append, hstep.marks_eq_nil]; rfl
  | stuck hstep _ => exact hstep.marks_eq_nil

theorem RunOf.marks_eq {colors : Nat → Nat} {actions : List Action} {p : Presentation}
    {ds : List Deed} {outcome : Outcome RunResult} (h : RunOf colors actions p ds outcome) :
    marks (moments ds) = .started :: if outcome.result?.isSome then [.completed] else [] := by
  rcases h.course with ⟨id, hs, hdoings, hcourse⟩
  rw [marks_of_isDuringRun h.during, hdoings]
  exact congrArg (List.cons _) hcourse.marks_eq

theorem Loads.marks_eq_nil {slot : String} {store : Store} {ds : List Deed} {workflow : Workflow}
    (h : Loads slot store ds workflow) : marks (moments ds) = [] := by
  cases h with
  | @loaded waited later m hwaited hm hlater =>
      have hload : marks (moments [.noted m]) = [] := by
        rcases m with ⟨time, view, what⟩
        cases hm
        rfl
      rw [List.append_cons, moments_append, moments_append, marks_append, marks_append,
        marks_of_aside hwaited, hload, marks_of_aside hlater]
      rfl

theorem Clicked.marks_eq {b b' : Button} {l : Ledger} {ds : List Deed} {outcome : ClickOutcome}
    (h : Clicked b l ds outcome b') : marks (moments ds) = outcome.marks := by
  cases h with
  | @ignored m _ hm =>
      rcases m with ⟨time, view, what⟩
      cases hm
      rfl
  | ran _ hrun _ =>
      rw [moments_between_shown, hrun.marks_eq]
      rfl
  | reloaded _ hrun _ hloads =>
      rw [← List.append_assoc, moments_between_shown, moments_append, marks_append,
        hrun.marks_eq, hloads.marks_eq_nil]
      rfl
  | cancelled _ hrun _ =>
      rw [moments_between_shown, hrun.marks_eq]
      rfl
  | stuck _ hrun => exact hrun.marks_eq

/-!
## Counting
-/

theorem ClickOutcome.count_marks (outcome : ClickOutcome) :
    outcome.marks.count .started + outcome.marks.count .ignored = 1 ∧
      outcome.marks.count .taken = 0 := by
  cases outcome <;> exact ⟨rfl, rfl⟩

theorem ClickOutcome.runs_viewAfter (outcome : ClickOutcome) (workflow : Workflow) (v : View) :
    (outcome.viewAfter workflow v).runs = v.runs + outcome.marks.count .completed := by
  cases outcome with
  | ran r =>
      by_cases hreloaded : r.termination = .reloaded
      · simp only [viewAfter, if_pos hreloaded]
        rfl
      · simp only [viewAfter, if_neg hreloaded]
        rfl
  | _ => rfl

/-- What becomes of clicks that are taken one after the other. -/
def turns (outcomes : List ClickOutcome) : List Mark :=
  outcomes.flatMap fun outcome => .taken :: outcome.marks

theorem turns_cons (outcome : ClickOutcome) (outcomes : List ClickOutcome) :
    turns (outcome :: outcomes) = .taken :: outcome.marks ++ turns outcomes :=
  List.flatMap_cons

theorem count_turns (outcomes : List ClickOutcome) :
    (turns outcomes).count .started + (turns outcomes).count .ignored =
      (turns outcomes).count .taken := by
  induction outcomes with
  | nil => rfl
  | cons outcome outcomes ih =>
      rcases outcome.count_marks with ⟨hone, hnone⟩
      rw [turns_cons, List.count_append, List.count_append, List.count_append,
        List.count_cons_of_ne (by decide), List.count_cons_of_ne (by decide),
        List.count_cons_self]
      omega

/-- At no time have more clicks become something than were taken. -/
theorem count_le_of_turns {outcomes : List ClickOutcome} {before after : List Mark}
    (h : turns outcomes = before ++ after) :
    before.count .started + before.count .ignored ≤ before.count .taken := by
  induction outcomes generalizing before with
  | nil =>
      rcases List.append_eq_nil_iff.mp h.symm with ⟨rfl, _⟩
      exact Nat.le_refl _
  | cons outcome outcomes ih =>
      rcases outcome.count_marks with ⟨hone, hnone⟩
      rw [turns_cons] at h
      rcases List.append_eq_append_iff.mp h with ⟨between, rfl, hlater⟩ | ⟨between, hturn, _⟩
      · have hrest := ih hlater
        rw [List.count_append, List.count_append, List.count_append,
          List.count_cons_of_ne (by decide), List.count_cons_of_ne (by decide),
          List.count_cons_self]
        omega
      · cases before with
        | nil => exact Nat.le_refl _
        | cons first before =>
            injection hturn with hfirst hmarks
            change outcome.marks = before ++ between at hmarks
            rw [← hfirst, List.count_cons_of_ne (by decide), List.count_cons_of_ne (by decide),
              List.count_cons_self]
            rw [hmarks, List.count_append, List.count_append] at hone
            omega

theorem count_taken (ms : List Moment) :
    (marks ms).count .taken = ms.countP (·.what.isTaken) := by
  unfold marks
  rw [List.count_filterMap]
  congr 1
  funext m
  rcases m with ⟨time, view, what⟩
  cases what with
  | event e => cases e <;> rfl
  | _ => rfl

theorem Ledger.Lawful.count_taken_le {l : Ledger} {ds : List Deed} {before after : List Moment}
    (h : l.Lawful ds) (hsplit : moments ds = before ++ after) :
    (marks before).count .taken ≤ l.queue.waiting + before.countP (·.what.isQueued) := by
  rcases List.filterMap_eq_append_iff.mp hsplit with ⟨earlier, later, rfl, hbefore, _⟩
  have hwaiting := (Ledger.lawful_append.mp h).1.waiting_add
  change moments earlier = before at hbefore
  rw [← count_taken, hbefore] at hwaiting
  omega

/-!
## Rounds
-/

namespace Round

variable {b b' : Button} {l : Ledger} {ds : List Deed} {outcome : ClickOutcome}

theorem told (h : Round b l ds outcome b') : ClickTold outcome (eventsOf (moments ds)) := by
  cases h with
  | taken hwaited hm hclicked =>
      have htold := hclicked.told
      rw [eventsOf_eq_doings] at htold ⊢
      rw [doings_taken hwaited hm]
      exact htold

theorem marks_eq (h : Round b l ds outcome b') :
    marks (moments ds) = .taken :: outcome.marks := by
  cases h with
  | @taken waited clicked m _ _ hwaited hm hclicked =>
      have htaken : marks (moments [.noted m]) = [.taken] := by
        rcases m with ⟨time, view, what⟩
        cases hm
        rfl
      rw [moments_append, moments_append, marks_append, marks_append, marks_of_aside hwaited,
        htaken, hclicked.marks_eq]
      rfl

theorem view_after (h : Round b l ds outcome b') :
    (ds.foldl Ledger.after l).view = outcome.viewAfter b'.workflow l.view := by
  cases h with
  | @taken waited clicked m _ _ hwaited hm hclicked =>
      have hsame : ((waited ++ [Deed.noted m]).foldl Ledger.after l).view = l.view :=
        Ledger.foldl_view (isShown_taken hwaited)
      rw [List.foldl_append, hclicked.view_after, hsame]

/-- A run only starts while the button is not disabled. -/
theorem enabled_of_started (h : Round b l ds outcome b') (hlawful : l.Lawful ds) :
    ∀ m ∈ moments ds, m.what.mark? = some .started → m.view.presentation.disabled = false := by
  cases h with
  | @taken waited clicked m' _ _ hwaited hm hclicked =>
      rcases Ledger.lawful_append.mp hlawful with ⟨_, hlater⟩
      intro m hmoment hstarted
      rw [moments_append, moments_append, List.mem_append, List.mem_append] at hmoment
      rcases hmoment with (hmoment | hmoment) | hmoment
      · rw [mark?_eq_none (marks_of_aside hwaited) hmoment] at hstarted
        cases hstarted
      · rw [List.mem_singleton.mp hmoment, hm] at hstarted
        cases hstarted
      · by_cases hignored : outcome = .ignored
        · have hmarks := hclicked.marks_eq
          rw [hignored] at hmarks
          have hmem : Mark.started ∈ marks (moments clicked) :=
            List.mem_filterMap.mpr ⟨m, hmoment, hstarted⟩
          rw [hmarks] at hmem
          cases List.mem_singleton.mp hmem
        · rcases hclicked.view_eq hlater hignored with ⟨henabled, hview⟩
          rw [hview m hmoment]
          exact henabled

end Round

theorem Clicked.isCancelled {b b' : Button} {l : Ledger} {ds : List Deed}
    (h : Clicked b l ds .cancelled b') : (ds.foldl Ledger.after l).isCancelled = true := by
  cases h with
  | cancelled _ _ htoken =>
      rw [Ledger.foldl_isCancelled] at htoken ⊢
      rwa [moments_between_shown]

/-!
## Sessions
-/

/-- Why a session ends that has served these clicks: the token was cancelled, a run closed the
window, or no click waits and none will come. -/
inductive Ending (outcomes : List ClickOutcome) (l : Ledger) : Prop where
  | cancelled (htoken : l.isCancelled = true)
  | closed {r : RunResult} (hlast : outcomes.getLast? = some (.ran r))
      (hclosed : r.termination = .windowClosed)
  | left (hheld : l.queue.held = false) (hwaiting : l.queue.waiting = 0)

namespace Served

variable {b b' : Button} {l : Ledger} {ds : List Deed} {ended : Bool}

theorem exists_outcomes (h : Served b l ds ended b') :
    ∃ outcomes, ToldInTurn outcomes (eventsOf (moments ds)) ∧
      marks (moments ds) = turns outcomes ∧
      (ended = true → Ending outcomes (ds.foldl Ledger.after l)) := by
  induction h with
  | @left b l waited hwaited hover =>
      have htold : eventsOf (moments waited) = [] := by
        rw [eventsOf_eq_doings, doings_eq_nil hwaited]
        rfl
      refine ⟨[], ?_, marks_of_aside hwaited, ?_⟩
      · rw [htold]
        exact .nothing
      · intro _
        rcases hover with htoken | ⟨hwaiting, hheld⟩
        · exact .cancelled htoken
        · exact .left hheld hwaiting
  | hung => exact ⟨[], .nothing, rfl, nofun⟩
  | @wentOn b b' b'' l ds later outcome ended hround hverdict _ ih =>
      rcases ih with ⟨outcomes, htold, hmarks, hending⟩
      refine ⟨outcome :: outcomes, ?_, ?_, ?_⟩
      · have hboth : eventsOf (moments (ds ++ later)) =
            eventsOf (moments ds) ++ eventsOf (moments later) := by
          rw [eventsOf_eq_doings, doings_append, List.filterMap_append, ← eventsOf_eq_doings,
            ← eventsOf_eq_doings]
        rw [hboth]
        exact .next hround.told hverdict htold
      · rw [moments_append, marks_append, hround.marks_eq, hmarks, turns_cons]
      · intro hended
        rw [List.foldl_append]
        cases hending hended with
        | cancelled htoken => exact .cancelled htoken
        | closed hlast hclosed =>
            refine .closed ?_ hclosed
            rw [List.getLast?_cons, hlast]
            rfl
        | left hheld hwaiting => exact .left hheld hwaiting
  | @stopped b b' l ds outcome ended hround hverdict =>
      refine ⟨[outcome], .last hround.told, ?_, ?_⟩
      · rw [hround.marks_eq, turns_cons]
        exact (List.append_nil _).symm
      · rintro rfl
        cases outcome with
        | ran r =>
            by_cases hclosed : r.termination = .windowClosed
            · exact .closed rfl hclosed
            · rw [ClickOutcome.verdict?, if_neg hclosed] at hverdict
              cases hverdict
        | ignored => cases hverdict
        | cancelled =>
            cases hround with
            | taken _ _ hclicked =>
                refine .cancelled ?_
                rw [List.foldl_append]
                exact hclicked.isCancelled
        | stuck => cases hverdict

theorem enabled_of_started (h : Served b l ds ended b') (hlawful : l.Lawful ds) :
    ∀ m ∈ moments ds, m.what.mark? = some .started → m.view.presentation.disabled = false := by
  induction h with
  | left hwaited _ =>
      intro m hm hstarted
      rw [mark?_eq_none (marks_of_aside hwaited) hm] at hstarted
      cases hstarted
  | hung => exact List.forall_mem_nil _
  | wentOn hround _ _ ih =>
      rcases Ledger.lawful_append.mp hlawful with ⟨hfirst, hlater⟩
      rw [moments_append]
      exact List.forall_mem_append.mpr ⟨hround.enabled_of_started hfirst, ih hlater⟩
  | stopped hround _ => exact hround.enabled_of_started hlawful

theorem runs_eq (h : Served b l ds ended b') :
    (ds.foldl Ledger.after l).view.runs =
      l.view.runs + (marks (moments ds)).count .completed := by
  induction h with
  | left hwaited _ =>
      rw [marks_of_aside hwaited,
        Ledger.foldl_view fun d hd => Deed.isShown_of_isAside (hwaited d hd)]
      rfl
  | hung => rfl
  | wentOn hround _ _ ih =>
      rw [List.foldl_append, ih, hround.view_after, ClickOutcome.runs_viewAfter, moments_append,
        marks_append, List.count_append, hround.marks_eq, List.count_cons_of_ne (by decide),
        Nat.add_assoc]
  | stopped hround _ =>
      rw [hround.view_after, ClickOutcome.runs_viewAfter, hround.marks_eq,
        List.count_cons_of_ne (by decide)]

end Served

structure Ledger.Still (l l' : Ledger) : Prop where
  view_eq : l'.view = l.view
  isCancelled_eq : l'.isCancelled = l.isCancelled
  held_eq : l'.queue.held = l.queue.held
  waiting_eq : l'.queue.waiting = l.queue.waiting

namespace Session

theorem closing_eq {closing : List Deed} (l : Ledger)
    (h : closing = [] ∨ ∃ m, closing = [.noted m] ∧ m.what = .closed) :
    doings closing = [] ∧ marks (moments closing) = [] ∧
      l.Still (closing.foldl Ledger.after l) := by
  rcases h with rfl | ⟨⟨time, view, what⟩, rfl, ⟨⟩⟩
  · exact ⟨rfl, rfl, rfl, rfl, rfl, rfl⟩
  · exact ⟨rfl, rfl, rfl, Bool.or_false _, rfl, rfl⟩

theorem exists_outcomes (b : Button) (w : World) :
    ∃ ds outcomes, World.Trail w ds (run b w).2.2 ∧
      ToldInTurn outcomes (eventsOf (moments ds)) ∧ marks (moments ds) = turns outcomes ∧
      (∀ m ∈ moments ds, m.what.mark? = some .started → m.view.presentation.disabled = false) ∧
      (run b w).2.2.view.runs = w.view.runs + (turns outcomes).count .completed ∧
      ((run b w).1 = true → Ending outcomes (run b w).2.2.ledger) := by
  rcases exists_served_run b w with ⟨waited, served, closing, htrail, hwaited, hserved, hclosing⟩
  have hserving := (Ledger.lawful_append.mp (Ledger.lawful_append.mp htrail.lawful).1).2
  rcases closing_eq (served.foldl Ledger.after (waited.foldl Ledger.after w.ledger)) hclosing with
    ⟨hdoings, hclosingMarks, hstill⟩
  rw [← List.foldl_append, ← List.foldl_append, ← htrail.ledger_eq] at hstill
  rw [List.foldl_append] at hstill
  rcases hserved.exists_outcomes with ⟨outcomes, htold, hmarks, hending⟩
  refine ⟨_, outcomes, htrail, ?_, ?_, ?_, ?_, ?_⟩
  · have hevents : eventsOf (moments (waited ++ served ++ closing)) =
        eventsOf (moments served) := by
      rw [eventsOf_eq_doings, eventsOf_eq_doings, doings_append, doings_append,
        doings_eq_nil hwaited, hdoings, List.append_nil, List.nil_append]
    rw [hevents]
    exact htold
  · rw [moments_append, moments_append, marks_append, marks_append, marks_of_aside hwaited,
      hclosingMarks, List.append_nil, List.nil_append, hmarks]
  · intro m hm hstarted
    rw [moments_append, moments_append, List.mem_append, List.mem_append] at hm
    rcases hm with (hm | hm) | hm
    · rw [mark?_eq_none (marks_of_aside hwaited) hm] at hstarted
      cases hstarted
    · exact hserved.enabled_of_started hserving m hm hstarted
    · rw [mark?_eq_none hclosingMarks hm] at hstarted
      cases hstarted
  · have hruns := hserved.runs_eq
    rw [Ledger.foldl_view fun d hd => Deed.isShown_of_isAside (hwaited d hd), hmarks,
      ← hstill.view_eq] at hruns
    exact hruns
  · intro hended
    cases hending hended with
    | cancelled htoken => exact .cancelled (hstill.isCancelled_eq.trans htoken)
    | closed hlast hclosed => exact .closed hlast hclosed
    | left hheld hwaiting =>
        exact .left (hstill.held_eq.trans hheld) (hstill.waiting_eq.trans hwaiting)

/-- Whoever clicks and interferes meanwhile, and whatever the schedule decides: the runs of a
session tell their events one run after the other; every click that is taken was queued before,
and starts one run or is ignored because the button is disabled; the button counts the runs
that are completed; and no click is lost. If the session ends because the visitor has let go of
the button, then every click that was queued has become something. -/
theorem clicks_in_turn (b : Button) (w : World) :
    let ran := run b w
    ∃ new outcomes,
      ran.2.2.history = w.history ++ new ∧
      ToldInTurn outcomes (eventsOf new) ∧
      marks new = turns outcomes ∧
      (∀ m ∈ new, m.what.mark? = some .started → m.view.presentation.disabled = false) ∧
      (∀ m ∈ new, m.what = .ignored → m.view.presentation.disabled = true) ∧
      (∀ before after, new = before ++ after →
        (marks before).count .started + (marks before).count .ignored ≤
            (marks before).count .taken ∧
          (marks before).count .taken ≤ w.queue.waiting + before.countP (·.what.isQueued)) ∧
      ran.2.2.view.runs = w.view.runs + (marks new).count .completed ∧
      w.queue.waiting + new.countP (·.what.isQueued) =
        (marks new).count .started + (marks new).count .ignored + ran.2.2.queue.waiting ∧
      (ran.1 = true → ran.2.2.isCancelled = true ∨
        (∃ r, outcomes.getLast? = some (.ran r) ∧ r.termination = .windowClosed) ∨
        ran.2.2.queue.held = false ∧ w.queue.waiting + new.countP (·.what.isQueued) =
          (marks new).count .started + (marks new).count .ignored) := by
  intro ran
  rcases exists_outcomes b w with ⟨ds, outcomes, htrail, htold, hmarks, hstarted, hruns, hending⟩
  have hconserved : w.queue.waiting + (moments ds).countP (·.what.isQueued) =
      (turns outcomes).count .started + (turns outcomes).count .ignored +
        ran.2.2.queue.waiting := by
    have hwaiting := htrail.lawful.waiting_add
    rw [← htrail.ledger_eq, ← count_taken, hmarks] at hwaiting
    change ran.2.2.queue.waiting + _ = w.queue.waiting + _ at hwaiting
    rw [count_turns]
    omega
  refine ⟨moments ds, outcomes, htrail.history_eq, htold, hmarks, hstarted,
    htrail.lawful.disabled_of_ignored, ?_, ?_, ?_, ?_⟩
  · intro before after hnew
    constructor
    · rw [hnew, marks_append] at hmarks
      exact count_le_of_turns hmarks.symm
    · exact htrail.lawful.count_taken_le hnew
  · rw [hmarks]
    exact hruns
  · rw [hmarks]
    exact hconserved
  · intro hended
    cases hending hended with
    | cancelled htoken => exact Or.inl htoken
    | closed hlast hclosed => exact Or.inr (Or.inl ⟨_, hlast, hclosed⟩)
    | left hheld hwaiting =>
        refine Or.inr (Or.inr ⟨hheld, ?_⟩)
        have hnone : ran.2.2.queue.waiting = 0 := hwaiting
        rw [hmarks, hconserved, hnone, Nat.add_zero]

def onceButton : Button where
  workflow := ⟨"Once", [⟨"a", .disableButton, .empty⟩]⟩
  slot := Slot.usual
  delay := 300

/-- A visitor who clicks twice, once more after a while, and lets go. One click can wait. -/
def thriceWorld : World :=
  .fresh (.memory [] Faults.none) (Host.prompt [] false)
    [⟨0, .click 2⟩, ⟨700, .click 1⟩, ⟨700, .leave⟩]

theorem clicks_in_turn_once :
    let ran := run onceButton thriceWorld
    ∃ new, ran.2.2.history = new ∧ ran.2.2.queue.held = false ∧ ran.2.2.view.runs = 1 ∧
      new.countP (·.what.isQueued) = (marks new).count .started + (marks new).count .ignored ∧
      (marks new).count .started = 1 ∧ (marks new).count .ignored = 2 := by
  intro ran
  rcases clicks_in_turn onceButton thriceWorld with
    ⟨new, outcomes, hnew, _, hmarks, _, _, _, hruns, _, hends⟩
  change ran.2.2.history = new at hnew
  have hall : marks new = [.taken, .started, .completed, .taken, .ignored, .taken, .ignored] := by
    rw [← hnew]
    decide +kernel
  have hended : ran.1 = true := by decide +kernel
  have htoken : ran.2.2.isCancelled = false := by decide +kernel
  rcases hends hended with hcancelled | ⟨r, hlast, _⟩ | ⟨hheld, hcount⟩
  · change ran.2.2.isCancelled = true at hcancelled
    rw [htoken] at hcancelled
    cases hcancelled
  · -- The last click was ignored.
    rcases List.getLast?_eq_some_iff.mp hlast with ⟨earlier, rfl⟩
    have hcompleted : (marks new).getLast? = some .completed := by
      rw [hmarks, turns, List.flatMap_append, List.getLast?_append]
      rfl
    rw [hall] at hcompleted
    cases hcompleted
  · change 0 + _ = _ at hcount
    rw [Nat.zero_add] at hcount
    refine ⟨new, hnew, hheld, ?_, hcount, ?_, ?_⟩
    · rw [hall] at hruns
      exact hruns
    · rw [hall]
      rfl
    · rw [hall]
      rfl

end Session

end ButtonFlow
