import ButtonFlow.Proofs.Run.Account
import ButtonFlow.Proofs.Run.Grammar
import ButtonFlow.Proofs.World.Clock

/-!
# The pace of a run

A run that is not cancelled takes the time of its alerts and prompts, and the delay after each
step of a known kind, whatever becomes of the step. So the moment at which a step begins is
told by the actions before it, and what happens to the run is noted in the order of the times.
-/

namespace ButtonFlow

/-!
## The time that actions take
-/

/-- The sum of so many values in a row, the first of them at `first`. -/
def sumFrom (f : Nat → Nat) (first : Nat) : Nat → Nat
  | 0 => 0
  | count + 1 => f first + sumFrom f (first + 1) count

namespace Host

/-- How long actions take one after the other, if each of them is performed to its end: the
delay for each action of a known kind, and the time of each alert and of each prompt. -/
def timeOf (host : Host) (delay : Nat) (actions : List Action) : Nat :=
  delay * actions.countP (fun action => action.kind.isKnown) +
    sumFrom host.alertTime host.alerts (actions.countP fun action => action.kind = .alert) +
    sumFrom (fun n => (host.promptTime n).getD 0) host.prompts
      (actions.countP fun action => action.kind = .promptAndShow)

end Host

namespace Request

def time (host : Host) : Request → Nat
  | .alert _ => host.alertTime host.alerts
  | .prompt _ => (host.promptTime host.prompts).getD 0
  | _ => 0

def counted (host : Host) : Request → Host
  | .alert _ => { host with alerts := host.alerts + 1 }
  | .prompt _ => { host with prompts := host.prompts + 1 }
  | .close => { host with closeRequests := host.closeRequests + 1 }
  | _ => host

end Request

theorem Request.promptTime_counted (r : Request) (host : Host) :
    (r.counted host).promptTime = host.promptTime := by
  cases r <;> rfl

theorem Step.request_cases (step : Step) :
    (step.kind = .alert ∧ ∃ message, step.request = .alert message) ∨
    (step.kind = .promptAndShow ∧ ∃ message, step.request = .prompt message) ∨
    (step.kind ≠ .alert ∧ step.kind ≠ .promptAndShow ∧ ∀ host : Host,
      step.request.time host = 0 ∧ ∃ requests,
        step.request.counted host = { host with closeRequests := requests }) := by
  cases step with
  | alert message => exact .inl ⟨rfl, message, rfl⟩
  | promptAndShow message before after => exact .inr (.inl ⟨rfl, message, rfl⟩)
  | showImage url => exact .inr (.inr ⟨nofun, nofun, fun host => ⟨rfl, _, rfl⟩⟩)
  | setStorage key value =>
      cases key with
      | none => exact .inr (.inr ⟨nofun, nofun, fun host => ⟨rfl, _, rfl⟩⟩)
      | some key => exact .inr (.inr ⟨nofun, nofun, fun host => ⟨rfl, _, rfl⟩⟩)
  | getStorage key =>
      cases key with
      | none => exact .inr (.inr ⟨nofun, nofun, fun host => ⟨rfl, _, rfl⟩⟩)
      | some key => exact .inr (.inr ⟨nofun, nofun, fun host => ⟨rfl, _, rfl⟩⟩)
  | changeButtonColor color =>
      cases color with
      | none => exact .inr (.inr ⟨nofun, nofun, fun host => ⟨rfl, _, rfl⟩⟩)
      | some color => exact .inr (.inr ⟨nofun, nofun, fun host => ⟨rfl, _, rfl⟩⟩)
  | _ => exact .inr (.inr ⟨nofun, nofun, fun host => ⟨rfl, _, rfl⟩⟩)

namespace Host

theorem timeOf_nil (host : Host) (delay : Nat) : host.timeOf delay [] = 0 := rfl

theorem timeOf_cons (host : Host) (delay : Nat) (action : Action) (rest : List Action) :
    host.timeOf delay (action :: rest) =
      (if action.kind.isKnown then delay else 0) + action.step.request.time host +
        (action.step.request.counted host).timeOf delay rest := by
  have hdelay : delay * (action :: rest).countP (fun action => action.kind.isKnown) =
      delay * rest.countP (fun action => action.kind.isKnown) +
        if action.kind.isKnown then delay else 0 := by
    rw [List.countP_cons, Nat.mul_add]
    split
    · rw [Nat.mul_one]
    · rw [Nat.mul_zero]
  have hcases := action.step.request_cases
  rw [action.kind_step] at hcases
  unfold timeOf
  rw [hdelay, List.countP_cons, List.countP_cons]
  rcases hcases with ⟨hkind, message, hrequest⟩ | ⟨hkind, message, hrequest⟩ |
    ⟨halert, hprompt, hother⟩
  · rw [hkind, hrequest]
    simp only [Request.time, Request.counted, sumFrom, decide_true, if_true, reduceCtorEq,
      decide_false, Bool.false_eq_true, if_false, Nat.add_zero]
    omega
  · rw [hkind, hrequest]
    simp only [Request.time, Request.counted, sumFrom, decide_true, if_true, reduceCtorEq,
      decide_false, Bool.false_eq_true, if_false, Nat.add_zero]
    omega
  · rcases hother host with ⟨htime, requests, hcounted⟩
    rw [htime, hcounted]
    simp only [halert, hprompt, decide_false, Bool.false_eq_true, if_false, Nat.add_zero]
    omega

end Host

/-!
## Requests
-/

namespace World

theorem elapses_pause (effort : Nat) (w : World) : Elapses w (w.pause effort) [] :=
  .aside (aside_pause effort w) (Nat.le_of_eq (w.clock_pause effort).symm)

theorem elapses_decided (w : World) : Elapses w (decide false (w.pause 1)).2 [] :=
  .aside ((aside_pause 1 w).trans (aside_decide false _))
    (Nat.le_of_eq (w.clock_pause 1).symm)

theorem elapses_rest {w : World} {due : Nat} (hnow : w.clock ≤ due)
    (h : (w.rest (some due)).1 = .elapsed) : Elapses w (w.rest (some due)).2 [] := by
  apply Elapses.aside (aside_rest (some due) w)
  rw [clock_rest hnow h]
  exact hnow

theorem elapses_noted (w w' : World) (what : Happening) (hwhat : what.isOfRun = true)
    (hstart : what.isStart = false) (hhistory : w'.runHistory = (w.pause 1).runHistory)
    (hclock : w'.clock = (w.pause 1).clock) :
    (∃ ms, Elapses w ((w'.note what).pause 0) ms ∧ ∀ m ∈ ms, m.what.isStart = false) ∧
      ((w'.note what).pause 0).clock = w.clock ∧ ((w'.note what).pause 0).host = w'.host := by
  have hbefore : Elapses w w' [] :=
    (w.elapses_pause 1).trans (.nothing hhistory (Nat.le_of_eq hclock.symm))
  have hnoted := (hbefore.trans (.note w' hwhat)).trans (elapses_pause 0 (w'.note what))
  refine ⟨⟨_, hnoted, List.forall_mem_singleton.mpr hstart⟩, ?_, host_pause 0 _⟩
  exact (clock_pause 0 _).trans (hclock.trans (w.clock_pause 1))

theorem elapses_noteWithHost (w : World) (host : Host) {what : Happening}
    (hwhat : what.isOfRun = true) :
    Elapses w ({ w with host := host }.note what) [⟨w.clock, w.view, what⟩] := by
  have hhost : Elapses w { w with host := host } [] := .nothing rfl (Nat.le_refl _)
  exact hhost.trans (.note _ hwhat)

theorem elapses_alert {w : World} {message : String} (h : (w.alert message).1 = .elapsed) :
    (∃ view, Elapses w (w.alert message).2 [⟨w.clock, view, .alert message⟩]) ∧
      (w.alert message).2.clock = w.clock + w.host.alertTime w.host.alerts ∧
      (w.alert message).2.host = { w.host with alerts := w.host.alerts + 1 } := by
  have hdecided := w.elapses_decided
  have hnow : (decide false (w.pause 1)).2.clock = w.clock := w.clock_pause 1
  have hhost := w.host_decided
  unfold alert at h ⊢
  dsimp only at h ⊢
  generalize decide false (w.pause 1) = decided at hdecided hnow hhost h ⊢
  rcases decided with ⟨turn, decided⟩
  dsimp only at hdecided hnow hhost h ⊢
  rw [← hnow, ← hhost]
  by_cases hnoticed : (decided.isCancelled && turn.noticing) = true
  · rw [if_pos hnoticed] at h
    cases h
  · rw [if_neg hnoticed] at h ⊢
    have hshown : Elapses decided ({ decided with host :=
        { decided.host with alerts := decided.host.alerts + 1 } }.note (.alert message))
        [⟨decided.clock, decided.view, .alert message⟩] :=
      elapses_noteWithHost decided _ rfl
    have hall := hdecided.trans hshown
    by_cases htime : decided.host.alertTime decided.host.alerts = 0
    · rw [if_pos htime, htime]
      exact ⟨⟨_, hall.trans (elapses_pause 0 _)⟩, clock_pause 0 _, host_pause 0 _⟩
    · rw [if_neg htime] at h ⊢
      refine ⟨⟨_, hall.trans (elapses_rest (Nat.le_add_right _ _) h)⟩, ?_, ?_⟩
      · exact clock_rest (Nat.le_add_right _ _) h
      · exact whileWaiting_host.rest _ _

theorem elapses_prompt {w : World} {message : String}
    (hanswers : ∀ n, (w.host.promptTime n).isSome = true) (h : (w.prompt message).1 = .elapsed) :
    (∃ view, Elapses w (w.prompt message).2.2 [⟨w.clock, view, .prompt message⟩]) ∧
      (w.prompt message).2.2.clock =
        w.clock + (w.host.promptTime w.host.prompts).getD 0 ∧
      (w.prompt message).2.2.host = { w.host with prompts := w.host.prompts + 1 } := by
  have hdecided := w.elapses_decided
  have hnow : (decide false (w.pause 1)).2.clock = w.clock := w.clock_pause 1
  have hhost := w.host_decided
  unfold prompt at h ⊢
  dsimp only at h ⊢
  generalize decide false (w.pause 1) = decided at hdecided hnow hhost h ⊢
  rcases decided with ⟨turn, decided⟩
  dsimp only at hdecided hnow hhost h ⊢
  rw [← hhost] at hanswers
  rw [← hnow, ← hhost]
  by_cases hnoticed : (decided.isCancelled && turn.noticing) = true
  · rw [if_pos hnoticed] at h
    cases h
  · rw [if_neg hnoticed] at h ⊢
    have hshown : Elapses decided ({ decided with host :=
        { decided.host with prompts := decided.host.prompts + 1 } }.note (.prompt message))
        [⟨decided.clock, decided.view, .prompt message⟩] :=
      elapses_noteWithHost decided _ rfl
    -- The user has been asked, and the answer is still to come.
    have hall := (hdecided.trans hshown).trans (elapses_pause 1 _)
    have hasked := host_pause 1 ({ decided with host :=
      { decided.host with prompts := decided.host.prompts + 1 } }.note (.prompt message))
    have hclock := clock_pause 1 ({ decided with host :=
      { decided.host with prompts := decided.host.prompts + 1 } }.note (.prompt message))
    generalize World.pause 1 _ = asked at hall hasked hclock h ⊢
    have hsame : asked.clock = decided.clock := hclock
    have htime : asked.host.promptTime decided.host.prompts =
        decided.host.promptTime decided.host.prompts := by
      rw [hasked]
      rfl
    rcases Option.isSome_iff_exists.mp (hanswers decided.host.prompts) with ⟨time, hsome⟩
    rw [htime, hsome] at h ⊢
    cases time with
    | zero =>
        have hanswered : Elapses asked (decide false asked).2 [] :=
          .aside (aside_decide false asked) (Nat.le_refl _)
        exact ⟨⟨_, hall.trans hanswered⟩, hsame, hasked⟩
    | succ time =>
        have hlate : asked.clock ≤ asked.clock + (time + 1) := Nat.le_add_right _ _
        refine ⟨⟨_, hall.trans (elapses_rest hlate h)⟩, ?_, ?_⟩
        · rw [← hsame]
          exact clock_rest hlate h
        · exact (whileWaiting_host.rest _ _).trans hasked

/-- What is asked is noted at once, and the time until the answer passes. -/
theorem exists_elapses_ask {w : World} {r : Request}
    (hanswers : ∀ n, (w.host.promptTime n).isSome = true)
    (h : r.waking (w.ask r).1 = .elapsed) :
    (∃ ms, Elapses w (w.ask r).2 ms ∧ ∀ m ∈ ms, m.what.isStart = false) ∧
      (w.ask r).2.clock = w.clock + r.time w.host ∧ (w.ask r).2.host = r.counted w.host := by
  cases r with
  | nothing => exact ⟨⟨_, .nothing rfl (Nat.le_refl _), List.forall_mem_nil _⟩, rfl, rfl⟩
  | alert message =>
      rcases elapses_alert h with ⟨⟨view, helapses⟩, hclock, hhost⟩
      exact ⟨⟨_, helapses, List.forall_mem_singleton.mpr rfl⟩, hclock, hhost⟩
  | prompt message =>
      rcases elapses_prompt hanswers h with ⟨⟨view, helapses⟩, hclock, hhost⟩
      exact ⟨⟨_, helapses, List.forall_mem_singleton.mpr rfl⟩, hclock, hhost⟩
  | color => exact ⟨⟨_, .nothing rfl (Nat.le_refl _), List.forall_mem_nil _⟩, rfl, rfl⟩
  | reload =>
      rcases elapses_noted w (w.pause 1) .reload rfl rfl rfl rfl with ⟨hms, hclock, hhost⟩
      exact ⟨hms, hclock, hhost.trans (host_pause 1 w)⟩
  | close =>
      rcases elapses_noted w { w.pause 1 with
        host := { (w.pause 1).host with closeRequests := (w.pause 1).host.closeRequests + 1 } }
        .closeRequest rfl rfl rfl rfl with ⟨hms, hclock, hhost⟩
      refine ⟨hms, hclock, hhost.trans ?_⟩
      rw [← host_pause 1 w]
      rfl
  | write key value =>
      rcases elapses_noted w { w.pause 1 with store := ((w.pause 1).store.set key value).2 }
        (.write key value ((w.pause 1).store.set key value).1.isOk) rfl rfl rfl rfl with
        ⟨hms, hclock, hhost⟩
      exact ⟨hms, hclock, hhost.trans (host_pause 1 w)⟩
  | read key =>
      rcases elapses_noted w (w.pause 1) (.read key) rfl rfl rfl rfl with ⟨hms, hclock, hhost⟩
      exact ⟨hms, hclock, hhost.trans (host_pause 1 w)⟩

theorem exists_elapses_foldl_happen (w : World) {hs : List Happening}
    (hrun : ∀ what ∈ hs, what.isOfRun = true) :
    ∃ ms, Elapses w (hs.foldl happen w) ms ∧ ms.map Moment.what = hs ∧
      (hs.foldl happen w).clock = w.clock := by
  induction hs generalizing w with
  | nil => exact ⟨[], .nothing rfl (Nat.le_refl _), rfl, rfl⟩
  | cons what hs ih =>
      rcases List.forall_mem_cons.mp hrun with ⟨hwhat, hlater⟩
      have hfirst : Elapses w (w.happen what) [⟨w.clock, w.view, what⟩] ∧
          (w.happen what).clock = w.clock := by
        cases what with
        | event e => exact ⟨.tell w e, w.clock_tell e⟩
        | _ => exact ⟨.note w hwhat, rfl⟩
      rcases ih (w.happen what) hlater with ⟨ms, helapses, hms, hclock⟩
      exact ⟨_, hfirst.1.trans helapses, congrArg (List.cons what) hms, hclock.trans hfirst.2⟩

end World

/-!
## Steps
-/

def Moment.start? (m : Moment) : Option (Nat × Nat) :=
  match m.what with
  | .event (.stepStarted _ index _ _) => some (index, m.time)
  | _ => none

theorem start?_eq_none {ms : List Moment} (h : ∀ m ∈ ms, m.what.isStart = false) :
    ms.filterMap Moment.start? = [] := by
  apply List.filterMap_eq_nil_iff.mpr
  intro m hm
  have hstart := h m hm
  unfold Moment.start?
  split
  · rename_i hwhat
    rw [hwhat] at hstart
    cases hstart
  · rfl

theorem Step.flow_cases {p : Presentation} {step : Step} {answer : step.request.Answer}
    (h : step.request.waking answer = .elapsed) :
    ((step.react p answer).1 = .settle ∧ step.kind.isKnown = true) ∨
    ((step.react p answer).1 = .skip ∧ step.kind.isKnown = false) ∨
    ∃ t, (step.react p answer).1 = .stop t := by
  have hneither := react_of_elapsed (p := p) h
  cases hflow : (step.react p answer).1 with
  | settle =>
      refine .inl ⟨rfl, ?_⟩
      unfold react at hflow
      split at hflow <;> first | rfl | cases hflow
  | skip =>
      refine .inr (.inl ⟨rfl, ?_⟩)
      unfold react at hflow
      split at hflow <;> first | rfl | cases hflow
  | stop t => exact .inr (.inr ⟨t, rfl⟩)
  | cancelled => exact absurd hflow hneither.1
  | stuck => exact absurd hflow hneither.2

theorem Step.time_of_stop {p : Presentation} {step : Step} {answer : step.request.Answer}
    {t : Termination} (h : (step.react p answer).1 = .stop t) (host : Host) :
    step.request.time host = 0 := by
  rcases eq_of_react_stop h with ⟨_, rfl⟩ | ⟨_, rfl⟩
  · rfl
  · rfl

theorem Step.reached_of_stop {p : Presentation} {action : Action}
    {answer : action.step.request.Answer} {t : Termination}
    (h : (action.step.react p answer).1 = .stop t) (left : List Action) :
    t.Reached [action] left := by
  have hkind := action.kind_step
  rcases eq_of_react_stop h with ⟨rfl, hstep⟩ | ⟨rfl, hstep⟩
  · rw [hstep] at hkind
    exact ⟨action, rfl, hkind.symm⟩
  · rw [hstep] at hkind
    exact ⟨action, rfl, hkind.symm⟩

/-- What a step that is not cut short does to the clock and to the host, and what follows
it. -/
structure Paces (index : Nat) (action : Action) (w : World) (flow : Flow) (w' : World)
    (ms : List Moment) : Prop where
  elapses : World.Elapses w w' ms
  starts_eq : ms.filterMap Moment.start? = [(index, w.clock)]
  clock_eq : w'.clock = w.clock + action.step.request.time w.host
  host_eq : w'.host = action.step.request.counted w.host
  flow_cases : (flow = .settle ∧ action.kind.isKnown = true) ∨
    (flow = .skip ∧ action.kind.isKnown = false) ∨
    ∃ t, flow = .stop t ∧ w'.clock = w.clock ∧ ∀ left, t.Reached [action] left

theorem exists_paces {w : World} (hanswers : ∀ n, (w.host.promptTime n).isSome = true)
    (index : Nat) (action : Action) (run : Tally) :
    let performed := action.step.perform index action run (w.begin run index action)
    performed.2.2.isCancelled = false →
    ∃ ms, Paces index action w performed.1 performed.2.2 ms := by
  intro performed hend
  have hbegun := World.Elapses.tell w
    (.stepStarted run.executionId index action.id action.kind.tag)
  have hclock := w.clock_tell (.stepStarted run.executionId index action.id action.kind.tag)
  have hhost := World.untouched_host.tell w
    (.stepStarted run.executionId index action.id action.kind.tag)
  change World.Elapses w (w.begin run index action) _ at hbegun
  change (w.begin run index action).clock = _ at hclock
  change (w.begin run index action).host = _ at hhost
  rw [← hhost] at hanswers
  have hright := (w.begin run index action).right_ask action.step.request hanswers
  have hask := (w.begin run index action).exists_elapses_ask (r := action.step.request) hanswers
  have hperform := action.step.perform_eq index action run (w.begin run index action)
  simp only [performed, hperform] at hend ⊢
  rw [hclock, hhost] at hask
  generalize w.begin run index action = begun at *
  generalize begun.ask action.step.request = answered at *
  rcases answered with ⟨answer, w₁⟩
  dsimp only at *
  have htoken : w₁.isCancelled = false :=
    World.isCancelled_eq_false
      (World.Adds.report w₁ (action.step.react run.presentation answer).2 run.executionId index
        action).isCancelled hend
  have hwaking := (hright htoken).waking_eq
  rcases hask hwaking with ⟨⟨asked, hasked, hquiet⟩, htime, hcounted⟩
  have hofRun : ∀ what ∈ (action.step.react run.presentation answer).2.happenings
      run.executionId index action, what.isOfRun = true := fun _ hmem => Report.isOfRun_of_mem hmem
  rcases w₁.exists_elapses_foldl_happen hofRun with ⟨reported, hreported, hwhat, hreportedClock⟩
  have hsilent : ∀ m ∈ reported, m.what.isStart = false := by
    intro m hm
    have hmem := List.mem_map_of_mem (f := Moment.what) hm
    rw [hwhat] at hmem
    exact Report.isStart_eq_false _ _ _ _ _ hmem
  refine ⟨_, hbegun.trans (hasked.trans hreported), ?_, ?_, ?_, ?_⟩
  · rw [List.filterMap_append, List.filterMap_append, start?_eq_none hquiet,
      start?_eq_none hsilent]
    rfl
  · exact hreportedClock.trans htime
  · exact (World.untouched_host.foldl_happen w₁ _).trans hcounted
  · rcases Step.flow_cases (p := run.presentation) hwaking with
      hsettle | hskip | ⟨t, hstop⟩
    · rw [action.kind_step] at hsettle
      exact .inl hsettle
    · rw [action.kind_step] at hskip
      exact .inr (.inl hskip)
    · refine .inr (.inr ⟨t, hstop, ?_, Step.reached_of_stop hstop⟩)
      rw [hreportedClock, htime, Step.time_of_stop hstop, Nat.add_zero]

/-!
## Runs
-/

/-- The indices of actions that are performed one after the other, with the times at which
their steps begin. -/
def Host.startTimes (host : Host) (delay clock index : Nat) (actions : List Action) :
    List (Nat × Nat) :=
  (List.range actions.length).map fun i =>
    (index + i, clock + host.timeOf delay (actions.take i))

theorem Host.startTimes_cons (host : Host) (delay clock index : Nat) (action : Action)
    (rest : List Action) :
    host.startTimes delay clock index (action :: rest) =
      (index, clock) :: (action.step.request.counted host).startTimes delay
        (clock + action.step.request.time host + if action.kind.isKnown then delay else 0)
        (index + 1) rest := by
  unfold startTimes
  rw [List.length_cons, List.range_succ_eq_map, List.map_cons, List.map_map]
  apply congrArg (List.cons (index, clock))
  apply List.map_congr_left
  intro i _
  simp only [Function.comp_apply, List.take_succ_cons, timeOf_cons]
  apply Prod.ext
  · dsimp only
    omega
  · dsimp only
    omega

/-- The actions that take their time in a run that ends in this way after the last of them
began. -/
def Termination.timed (t : Termination) (started : List Action) : List Action :=
  match t with
  | .completed => started
  | _ => started.dropLast

theorem Termination.Reached.timed_cons {t : Termination} {started left : List Action}
    (h : t.Reached started left) (first : Action) :
    t.timed (first :: started) = first :: t.timed started := by
  have hlast : ∀ action, started.getLast? = some action →
      (first :: started).dropLast = first :: started.dropLast := by
    intro action haction
    apply List.dropLast_cons_of_ne_nil
    rintro rfl
    cases haction
  cases t with
  | completed => rfl
  | reloaded =>
      rcases h with ⟨action, haction, _⟩
      exact hlast action haction
  | windowClosed =>
      rcases h with ⟨action, haction, _⟩
      exact hlast action haction

theorem Termination.timed_singleton {t : Termination} {action : Action}
    (h : ∀ left, t.Reached [action] left) : t.timed [action] = [] := by
  cases t with
  | completed =>
      have hnone : [action] = [] := h [action]
      cases hnone
  | reloaded => rfl
  | windowClosed => rfl

/-- The steps of these actions began, and this happened to the run in the order of the times.
Each step began when the steps before it had taken their time. -/
structure Timed (host : Host) (delay index : Nat) (started : List Action) (t : Termination)
    (w w' : World) (ms : List Moment) : Prop where
  elapses : World.Elapses w w' ms
  starts_eq : ms.filterMap Moment.start? = host.startTimes delay w.clock index started
  clock_eq : w'.clock = w.clock + host.timeOf delay (t.timed started)

def EndsInTime (delay index : Nat) (actions : List Action) (w : World)
    (ran : Outcome RunResult × World) : Prop :=
  ∃ r started left ms, ran.1 = .done r ∧ actions = started ++ left ∧
    r.termination.Reached started left ∧
    Timed w.host delay index started r.termination w ran.2 ms

namespace Paces

variable {w w₁ w₂ : World} {delay index : Nat} {action : Action} {rest : List Action} {flow : Flow}
  {ms : List Moment} {run : Tally}

theorem endsInTime_cons {ran : Outcome RunResult × World} (hstep : Paces index action w flow w₁ ms)
    (hrest : World.Elapses w₁ w₂ [])
    (hclock : w₂.clock = w₁.clock + if action.kind.isKnown then delay else 0)
    (hhost : w₂.host = w₁.host) (hlater : EndsInTime delay (index + 1) rest w₂ ran) :
    EndsInTime delay index (action :: rest) w ran := by
  have hcounted : w₂.host = action.step.request.counted w.host := hhost.trans hstep.host_eq
  have hnow : w₂.clock = w.clock + action.step.request.time w.host +
      if action.kind.isKnown then delay else 0 := by
    rw [hclock, hstep.clock_eq]
  rcases hlater with ⟨r, started, left, later, hdone, hactions, hreached, helapses, hstarts, htime⟩
  rw [hcounted] at hstarts htime
  refine ⟨r, action :: started, left, ms ++ later, hdone, congrArg _ hactions,
    hreached.cons action, ?_, ?_, ?_⟩
  · have hall := (hstep.elapses.trans hrest).trans helapses
    rwa [List.append_nil] at hall
  · rw [List.filterMap_append, hstep.starts_eq, hstarts, Host.startTimes_cons, hnow]
    rfl
  · rw [htime, hreached.timed_cons, Host.timeOf_cons, hnow]
    omega

theorem endsInTime_stop {t : Termination} (hstep : Paces index action w flow w₁ ms)
    (hnow : w₁.clock = w.clock) (hreached : ∀ left, t.Reached [action] left) :
    EndsInTime delay index (action :: rest) w
      (.done (run.result t), w₁.tell (.runCompleted run.executionId t)) := by
  have htold := World.Elapses.tell w₁ (.runCompleted run.executionId t)
  have hclock := w₁.clock_tell (.runCompleted run.executionId t)
  refine ⟨_, [action], rest, _, rfl, rfl, hreached rest, hstep.elapses.trans htold, ?_, ?_⟩
  · rw [List.filterMap_append, hstep.starts_eq, Host.startTimes_cons]
    rfl
  · have hnone : (run.result t).termination.timed [action] = [] :=
      Termination.timed_singleton hreached
    rw [hnone, Host.timeOf_nil, Nat.add_zero, ← hnow]
    exact hclock

end Paces

theorem endsInTime_performFrom (delay index : Nat) (actions : List Action) (run : Tally)
    {w : World} (hanswers : ∀ n, (w.host.promptTime n).isSome = true)
    (hend : (performFrom delay index actions run w).2.isCancelled = false) :
    EndsInTime delay index actions w (performFrom delay index actions run w) := by
  induction actions generalizing index run w with
  | nil =>
      have htold := World.Elapses.tell w (.runCompleted run.executionId .completed)
      have hclock := w.clock_tell (.runCompleted run.executionId .completed)
      exact ⟨_, [], [], _, rfl, rfl, rfl, htold, rfl, hclock⟩
  | cons action rest ih =>
      have hw : w.isCancelled = false :=
        World.isCancelled_eq_false (isCancelled_performFrom · delay index _ run) hend
      rw [performFrom_cons hw] at hend ⊢
      have hpaces := exists_paces hanswers index action run
      generalize action.step.perform index action run (w.begin run index action) = performed
        at hend hpaces ⊢
      rcases performed with ⟨flow, run', w₁⟩
      have htoken : w₁.isCancelled = false :=
        World.isCancelled_eq_false (isCancelled_proceed · delay (index + 1) rest flow run') hend
      rcases hpaces htoken with ⟨ms, hstep⟩
      dsimp only at hstep
      have hanswered : ∀ {w₂ : World}, w₂.host = w₁.host →
          ∀ n, (w₂.host.promptTime n).isSome = true := by
        intro w₂ hhost
        rw [hhost, hstep.host_eq, Request.promptTime_counted]
        exact hanswers
      rcases hstep.flow_cases with ⟨rfl, hknown⟩ | ⟨rfl, hknown⟩ | ⟨t, rfl, hnow, hreached⟩
      · have hhost := World.whileWaiting_host.rest (some (w₁.clock + delay)) w₁
        have hlate : w₁.clock ≤ w₁.clock + delay := Nat.le_add_right _ _
        have helapses := World.elapses_rest hlate
        have hclock := World.clock_rest hlate
        rcases exists_elapsed_of_settle hend with ⟨w₂, hrest, hproceed⟩
        rw [hrest] at hhost helapses hclock
        rw [hproceed] at hend ⊢
        apply hstep.endsInTime_cons (helapses rfl) _ hhost
        · exact ih (index + 1) run' (hanswered hhost) hend
        · rw [hknown, if_pos rfl]
          exact hclock rfl
      · apply hstep.endsInTime_cons (World.Elapses.nothing rfl (Nat.le_refl _)) _ rfl
        · exact ih (index + 1) run' (hanswered rfl) hend
        · rw [hknown]
          rfl
      · exact hstep.endsInTime_stop hnow hreached

/-- A run that is not cancelled comes to its end, if the user answers or dismisses every
prompt, and keeps its pace, whatever the visitor does and whatever becomes of the steps. -/
theorem exists_pace (delay : Nat) (actions : List Action) (p : Presentation) {w : World}
    (hanswers : ∀ n, (w.host.promptTime n).isSome = true)
    (hend : (execute delay actions p w).2.isCancelled = false) :
    ∃ r w' started left told, execute delay actions p w = (.done r, w') ∧
      actions = started ++ left ∧ r.termination.Reached started left ∧
      w'.runHistory = w.runHistory ++ told ∧
      (told.Pairwise fun m m' => m.time ≤ m'.time) ∧
      told.filterMap Moment.start? = (List.range started.length).map (fun i =>
        (i, w.clock + w.host.timeOf delay (started.take i))) ∧
      w'.clock = w.clock + w.host.timeOf delay (r.termination.timed started) := by
  have hdrawn : World.Elapses w w.drawRunId.2 [] := .nothing rfl (Nat.le_refl _)
  have hbegun := hdrawn.trans (.tell _ (.runStarted w.drawRunId.1 actions.length))
  have hhost : (w.drawRunId.2.tell (.runStarted w.drawRunId.1 actions.length)).host = w.host :=
    World.untouched_host.tell _ _
  have hclock : (w.drawRunId.2.tell (.runStarted w.drawRunId.1 actions.length)).clock = w.clock :=
    World.clock_tell _ _
  rw [← hhost] at hanswers
  rcases endsInTime_performFrom delay 0 actions (Tally.start w.drawRunId.1 p) hanswers hend with
    ⟨r, started, left, ms, hdone, hactions, hreached, helapses, hstarts, htime⟩
  rw [hhost, hclock] at hstarts htime
  have hall := hbegun.trans helapses
  refine ⟨r, _, started, left, _, Prod.ext hdone rfl, hactions, hreached, hall.runHistory_eq,
    hall.sorted, ?_, htime⟩
  unfold Host.startTimes at hstarts
  simp only [Nat.zero_add] at hstarts
  rw [← hstarts]
  rfl

/-- Actions of which only the alert and the prompts take time of their own, and only the
unknown one is not followed by the delay. The last one is not performed. -/
def pacing : List Action := [
  ⟨"a", .alert, .empty⟩,
  ⟨"b", .other "dance", .empty⟩,
  ⟨"c", .promptAndShow, .empty⟩,
  ⟨"d", .showImage, .empty⟩,
  ⟨"e", .setLocalStorage, ⟨[("key", .string "k")]⟩⟩,
  ⟨"f", .closeWindow, .empty⟩,
  ⟨"g", .promptAndShow, .empty⟩,
  ⟨"h", .refreshPage, .empty⟩,
  ⟨"i", .alert, .empty⟩]

theorem exists_pace_pacing :
    let host : Host := { Host.prompt [some "x"] false with
      alertTime := fun n => 500 + n, promptTime := fun n => some (50 * n + 20) }
    let w := World.fresh (.memory [] ⟨[], ["k"], .other "full"⟩) host [⟨100, .set "q" "v"⟩]
    (∀ n, (host.promptTime n).isSome = true) ∧
      (execute 300 pacing .initial w).2.isCancelled = false ∧
      ∃ (r : RunResult) (w' : World) (started left : List Action) (told : List Moment),
        execute 300 pacing .initial w = (.done r, w') ∧
        pacing = started ++ left ∧ r.termination.Reached started left ∧
        told.filterMap Moment.start? = (List.range started.length).map (fun i =>
          (i, w.clock + host.timeOf 300 (started.take i))) ∧
        w'.clock = 2390 ∧ host.timeOf 300 (pacing.take 7) = 2390 := by
  intro host w
  have hanswers : ∀ n, (host.promptTime n).isSome = true := fun _ => rfl
  have hend : (execute 300 pacing .initial w).2.isCancelled = false := by decide +kernel
  have hclock : (execute 300 pacing .initial w).2.clock = 2390 := by decide +kernel
  have htime : host.timeOf 300 (pacing.take 7) = 2390 := by decide +kernel
  rcases exists_pace 300 pacing .initial hanswers hend with
    ⟨r, w', started, left, told, hdone, hactions, hreached, _, _, hstarts, _⟩
  rw [hdone] at hclock
  exact ⟨hanswers, hend, r, w', started, left, told, hdone, hactions, hreached, hstarts, hclock,
    htime⟩

end ButtonFlow
