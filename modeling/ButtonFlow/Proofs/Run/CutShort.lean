import ButtonFlow.Proofs.Run.Course
import ButtonFlow.Proofs.Run.Quiet

/-!
# Runs that are cut short

A run that is cancelled at some time does, until then, what it does if it is never cancelled.
What happens to it is what happens to the other before that time, and then it tells that it was
cancelled; the store holds what had been written before. If the run is over by that time,
nothing changes at all. The time must not be one at which the run stops waiting: then the
schedule decides what is noticed first.
-/

namespace ButtonFlow

/-!
## From scene to scene
-/

/-- The store after what happened to the runs: what was written is written again. -/
def Store.replay (store : Store) (moments : List Moment) : Store :=
  moments.foldl (fun store moment => store.afterHappening moment.what) store

theorem Store.replay_append (store : Store) (moments later : List Moment) :
    store.replay (moments ++ later) = (store.replay moments).replay later :=
  List.foldl_append

namespace Scene

/-- These moments lead from one scene to another, while time may pass. -/
structure Leads (s s' : Scene) (moments : List Moment) : Prop where
  history_eq : s'.history = s.history ++ moments
  store_eq : s'.store = s.store.replay moments
  view_eq : s'.view = s.view
  clock_le : s.clock ≤ s'.clock
  time_mem : ∀ moment ∈ moments, s.clock ≤ moment.time ∧ moment.time ≤ s'.clock

namespace Leads

variable {s t u : Scene} {moments later : List Moment}

theorem refl (s : Scene) : Leads s s [] :=
  ⟨(List.append_nil _).symm, rfl, rfl, Nat.le_refl _, List.forall_mem_nil _⟩

theorem trans (h : Leads s t moments) (h' : Leads t u later) : Leads s u (moments ++ later) where
  history_eq := by rw [h'.history_eq, h.history_eq, List.append_assoc]
  store_eq := by rw [h'.store_eq, h.store_eq, Store.replay_append]
  view_eq := h'.view_eq.trans h.view_eq
  clock_le := Nat.le_trans h.clock_le h'.clock_le
  time_mem := by
    intro moment hmoment
    rcases List.mem_append.mp hmoment with hearly | hlate
    · have htime := h.time_mem moment hearly
      exact ⟨htime.1, Nat.le_trans htime.2 h'.clock_le⟩
    · have htime := h'.time_mem moment hlate
      exact ⟨Nat.le_trans h.clock_le htime.1, htime.2⟩

theorem atTime (h : Leads s t moments) {time : Nat} (htime : t.clock ≤ time) :
    Leads s (t.atTime time) moments where
  history_eq := h.history_eq
  store_eq := h.store_eq
  view_eq := h.view_eq
  clock_le := Nat.le_trans h.clock_le htime
  time_mem moment hmoment :=
    ⟨(h.time_mem moment hmoment).1, Nat.le_trans (h.time_mem moment hmoment).2 htime⟩

theorem withHost (h : Leads s t moments) (host : Host) :
    Leads s { t with host := host } moments :=
  ⟨h.history_eq, h.store_eq, h.view_eq, h.clock_le, h.time_mem⟩

theorem withDraws (h : Leads s t moments) (draws : Draws) :
    Leads s { t with draws := draws } moments :=
  ⟨h.history_eq, h.store_eq, h.view_eq, h.clock_le, h.time_mem⟩

end Leads

def moment (s : Scene) (what : Happening) : Moment :=
  ⟨s.clock, s.view, what⟩

theorem leads_note (s : Scene) (what : Happening) :
    Leads s ({ s with store := s.store.replay [s.moment what] }.note what) [s.moment what] where
  history_eq := List.reverse_cons
  store_eq := rfl
  view_eq := rfl
  clock_le := Nat.le_refl _
  time_mem := by
    intro moment hmoment
    rw [List.mem_singleton.mp hmoment]
    exact ⟨Nat.le_refl _, Nat.le_refl _⟩

theorem leads_report (s : Scene) (report : Report) (executionId : String) (index : Nat)
    (action : Action) :
    ∃ moments, Leads s ((report.happenings executionId index action).foldl note s) moments := by
  cases report with
  | nothing => exact ⟨_, .refl s⟩
  | fragment f => exact ⟨_, s.leads_note (.event _)⟩
  | presentation p => exact ⟨_, s.leads_note (.event _)⟩
  | skipped reason => exact ⟨_, s.leads_note (.event _)⟩
  | diagnosed message => exact ⟨_, s.leads_note (.diagnosed _ _)⟩
  | refused message reason =>
      exact ⟨_, (s.leads_note (.diagnosed _ _)).trans (leads_note _ (.event _))⟩

theorem leads_ask (s : Scene) (r : Request) :
    s.clock ≤ (s.ask r).2.clock ∧ ∃ moments, Leads s ((s.ask r).2.atTime s.clock) moments := by
  cases r with
  | nothing => exact ⟨Nat.le_refl _, _, .refl s⟩
  | alert message => exact ⟨Nat.le_add_right _ _, _, (s.leads_note (.alert message)).withHost _⟩
  | prompt message => exact ⟨Nat.le_add_right _ _, _, (s.leads_note (.prompt message)).withHost _⟩
  | reload => exact ⟨Nat.le_refl _, _, s.leads_note .reload⟩
  | close => exact ⟨Nat.le_refl _, _, (s.leads_note .closeRequest).withHost _⟩
  | write key value => exact ⟨Nat.le_refl _, _, s.leads_note (.write key value _)⟩
  | read key => exact ⟨Nat.le_refl _, _, s.leads_note (.read key)⟩
  | color => exact ⟨Nat.le_refl _, _, (Leads.refl s).withDraws _⟩

theorem clock_foldl_note (s : Scene) (hs : List Happening) :
    (hs.foldl note s).clock = s.clock := by
  induction hs generalizing s with
  | nil => rfl
  | cons what hs ih => exact ih (s.note what)

end Scene

/-!
## Waits
-/

def Request.waits : Request → Bool
  | .alert _ | .prompt _ => true
  | _ => false

namespace Scene

theorem waking_ask (s : Scene) (r : Request) :
    r.waking (s.ask r).1 = .elapsed ∨ r.waking (s.ask r).1 = .never := by
  cases r with
  | prompt message =>
      change (if (s.host.promptTime s.host.prompts).isSome then World.Waking.elapsed else .never)
        = _ ∨ (if (s.host.promptTime s.host.prompts).isSome then World.Waking.elapsed else .never)
        = _
      split
      · exact Or.inl rfl
      · exact Or.inr rfl
  | _ => exact Or.inl rfl

theorem clock_ask (s : Scene) {r : Request} (hwaits : r.waits = false) :
    (s.ask r).2.clock = s.clock := by
  cases r with
  | alert message => cases hwaits
  | prompt message => cases hwaits
  | _ => rfl

end Scene

namespace Step

variable {p : Presentation} {step : Step} {answer : step.request.Answer}

theorem settle_of_waits (hwaits : step.request.waits = true)
    (h : step.request.waking answer = .elapsed) : (step.react p answer).1 = .settle := by
  unfold react
  split <;> simp_all [Request.waking, Request.waits, request]

end Step

/-- The times at which a wait ends of a run that goes on with the action at `index`: an alert
or a prompt, or the time for which a step settles. -/
def waitEndsFrom (delay : Nat) : Nat → List Action → Tally → World → List Nat
  | _, [], _, _ => []
  | index, action :: rest, run, w =>
      match action.step.perform index action run (w.begin run index action) with
      | (.settle, run, w) =>
          (if action.step.request.waits then [w.clock] else []) ++ (w.clock + delay) ::
            waitEndsFrom delay (index + 1) rest run (w.rest (some (w.clock + delay))).2
      | (.skip, run, w) => waitEndsFrom delay (index + 1) rest run w
      | (.stop _, _, _) | (.cancelled, _, _) | (.stuck, _, _) => []

def waitEnds (delay : Nat) (actions : List Action) (p : Presentation) (w : World) : List Nat :=
  let (id, w) := w.drawRunId
  waitEndsFrom delay 0 actions (Tally.start id p) (w.tell (.runStarted id actions.length))

/-!
## Runs that are not cancelled
-/

open World (Quiet)
open Scene (Leads)

def Advances (next : Tally → World → Outcome RunResult × World) : Prop :=
  ∀ (run : Tally) (w : World), Quiet none w → ∃ moments, Leads w.scene (next run w).2.scene moments

theorem exists_leads_tell {s : Scene} {w : World} {moments : List Moment}
    (h : Leads s w.scene moments) (e : Event) :
    ∃ moments, Leads s (w.tell e).scene moments := by
  rw [World.scene_tell]
  exact ⟨_, h.trans (w.scene.leads_note (.event e))⟩

theorem Advances.exists_leads_proceed {next : Tally → World → Outcome RunResult × World}
    (hnext : Advances next) {w : World} (hw : Quiet none w) (delay : Nat) (flow : Flow)
    (run : Tally) :
    ∃ moments, Leads w.scene (proceed delay next (flow, run, w)).2.scene moments := by
  cases flow with
  | settle =>
      rcases hw.exists_rest (Nat.le_add_right _ delay) nofun with ⟨w', hrest, hw', hscene⟩
      rcases hnext run w' hw' with ⟨moments, hleads⟩
      rw [hscene] at hleads
      simp only [proceed, hrest]
      exact ⟨_, ((Leads.refl w.scene).atTime (Nat.le_add_right _ delay)).trans hleads⟩
  | skip => exact hnext run w hw
  | stop t => exact exists_leads_tell (.refl _) _
  | cancelled => exact exists_leads_tell (.refl _) _
  | stuck => exact ⟨_, .refl _⟩

theorem Advances.exists_leads_perform {next : Tally → World → Outcome RunResult × World}
    (hnext : Advances next) {w : World} (hw : Quiet none w) (delay : Nat) (step : Step)
    (index : Nat) (action : Action) (run : Tally) :
    ∃ moments, Leads (w.scene.ask step.request).2
      (proceed delay next (step.perform index action run w)).2.scene moments := by
  rcases hw.exists_perform step nofun index action run with ⟨w', hperform, hw', hscene⟩
  rcases Scene.leads_report (w.scene.ask step.request).2 _ run.executionId index action with
    ⟨reported, hreported⟩
  rw [← hscene] at hreported
  rcases hnext.exists_leads_proceed hw' delay _ _ with ⟨moments, hleads⟩
  rw [hperform]
  exact ⟨_, hreported.trans hleads⟩

theorem advances_performFrom (delay index : Nat) (actions : List Action) :
    Advances (performFrom delay index actions) := by
  induction actions generalizing index with
  | nil =>
      intro run w hw
      exact exists_leads_tell (.refl _) _
  | cons action rest ih =>
      intro run w hw
      rw [performFrom_cons hw.notCancelled]
      have hbegun : Quiet none (w.begin run index action) := hw.tell _
      rcases exists_leads_tell (.refl w.scene)
        (.stepStarted run.executionId index action.id action.kind.tag) with ⟨begun, hbegin⟩
      rcases (w.begin run index action).scene.leads_ask action.step.request with
        ⟨hclock, asked, hasked⟩
      rcases (ih (index + 1)).exists_leads_perform hbegun delay action.step index action run with
        ⟨later, hlater⟩
      exact ⟨_, hbegin.trans ((hasked.atTime hclock).trans hlater)⟩

/-!
## Runs that are cancelled
-/

/-- From the same scene, one goes on to the scene `full`, and the other is cut short at the
time `T`, which it tells. -/
inductive Scene.CutShort (T : Nat) (e : Event) (s full : Scene) : Scene → Prop where
  | parted {before : Scene} {early late : List Moment} (hearly : Leads s before early)
      (hbefore : before.clock < T) (hfull : Leads s full (early ++ late))
      (hlate : ∀ moment ∈ late, T < moment.time) : CutShort T e s full ((before.atTime T).tell e)

/-- How two runs from the same scene relate, the second of which is cancelled at the time
`T`. -/
inductive Parts (T : Nat) (e : Event) (s : Scene) (full cut : Outcome RunResult × World) :
    Prop where
  | ended {r : RunResult} (hdone : full.1 = .done r) (htime : full.2.clock < T)
      (hsame : cut.1 = full.1) (hscene : cut.2.scene = full.2.scene)
  | cut (hlater : ∀ r, full.1 = .done r → T < full.2.clock) (hcancelled : cut.1 = .cancelled)
      (hscene : Scene.CutShort T e s full.2.scene cut.2.scene)

theorem filter_time_lt {T : Nat} {early late : List Moment}
    (hearly : ∀ moment ∈ early, moment.time < T) (hlate : ∀ moment ∈ late, T < moment.time) :
    (early ++ late).filter (·.time < T) = early := by
  rw [List.filter_append, List.filter_eq_self.mpr, List.filter_eq_nil_iff.mpr, List.append_nil]
  · intro moment hmoment
    simpa using Nat.le_of_lt (hlate moment hmoment)
  · intro moment hmoment
    simpa using hearly moment hmoment

theorem Scene.CutShort.exists_moments {T : Nat} {e : Event} {s full cut : Scene}
    (h : CutShort T e s full cut) :
    ∃ moments, Leads s full moments ∧
      let before := moments.filter (·.time < T)
      cut.clock = T ∧ cut.history = s.history ++ before ++ [⟨T, s.view, .event e⟩] ∧
        cut.store = s.store.replay before := by
  cases h with
  | @parted scene early late hearly hbefore hfull hlate =>
      refine ⟨early ++ late, hfull, ?_⟩
      rw [filter_time_lt _ hlate]
      · have hhistory : ((scene.atTime T).tell e).history =
            scene.history ++ [⟨T, scene.view, .event e⟩] := List.reverse_cons
        refine ⟨rfl, ?_, hearly.store_eq⟩
        rw [hhistory, hearly.history_eq, hearly.view_eq]
      · intro moment hmoment
        exact Nat.lt_of_le_of_lt (hearly.time_mem moment hmoment).2 hbefore

theorem Parts.prepend {T : Nat} {e : Event} {s t : Scene} {moments : List Moment}
    {full cut : Outcome RunResult × World} (h : Leads s t moments) (hparts : Parts T e t full cut) :
    Parts T e s full cut := by
  cases hparts with
  | ended hdone htime hsame hscene => exact .ended hdone htime hsame hscene
  | cut hlater hcancelled hscene =>
      refine .cut hlater hcancelled ?_
      generalize cut.2.scene = last at hscene
      cases hscene with
      | parted hearly hbefore hfull hlate =>
          refine .parted (h.trans hearly) hbefore ?_ hlate
          rw [List.append_assoc]
          exact h.trans hfull

/-- Two worlds that look the same and are quiet, the second of them until the time `T`. -/
structure Abreast (T : Nat) (w c : World) : Prop where
  quiet : Quiet none w
  quietUntil : Quiet (some T) c
  scene_eq : c.scene = w.scene

namespace Abreast

variable {T : Nat} {w c : World}

theorem clock_eq (h : Abreast T w c) : c.clock = w.clock :=
  congrArg Scene.clock h.scene_eq

theorem clock_lt (h : Abreast T w c) : w.scene.clock < T := by
  rw [← h.scene_eq]
  exact h.quietUntil.before T rfl

theorem tell (h : Abreast T w c) (e : Event) : Abreast T (w.tell e) (c.tell e) where
  quiet := h.quiet.tell e
  quietUntil := h.quietUntil.tell e
  scene_eq := by rw [World.scene_tell, World.scene_tell, h.scene_eq]

theorem exists_rest (h : Abreast T w c) {due : Nat} (hnow : w.clock ≤ due) (hdue : due < T) :
    ∃ w' c', w.rest (some due) = (.elapsed, w') ∧ c.rest (some due) = (.elapsed, c') ∧
      Abreast T w' c' ∧ Leads w.scene w'.scene [] := by
  have hnow' : c.clock ≤ due := by
    rw [h.clock_eq]
    exact hnow
  rcases h.quiet.exists_rest hnow nofun with ⟨w', hrest, hquiet, hscene⟩
  rcases h.quietUntil.exists_rest hnow' (by rintro time ⟨⟩; exact hdue) with
    ⟨c', hrest', hquiet', hscene'⟩
  refine ⟨w', c', hrest, hrest', ⟨hquiet, hquiet', ?_⟩, ?_⟩
  · rw [hscene, hscene', h.scene_eq]
  · rw [hscene]
    exact (Leads.refl w.scene).atTime hnow

theorem exists_perform (h : Abreast T w c) {step : Step}
    (hbefore : w.scene.AnswersBefore T step.request) (index : Nat) (action : Action)
    (run : Tally) :
    let reaction := step.react run.presentation (w.scene.ask step.request).1
    ∃ w' c' moments,
      step.perform index action run w = (reaction.1, reaction.2.tally index action run, w') ∧
      step.perform index action run c = (reaction.1, reaction.2.tally index action run, c') ∧
      Abreast T w' c' ∧ Leads w.scene w'.scene moments := by
  intro reaction
  have hbefore' : ∀ time ∈ some T, c.scene.AnswersBefore time step.request := by
    rintro time ⟨⟩
    rw [h.scene_eq]
    exact hbefore
  rcases h.quiet.exists_perform step nofun index action run with ⟨w', hperform, hquiet, hscene⟩
  rcases h.quietUntil.exists_perform step hbefore' index action run with
    ⟨c', hperform', hquiet', hscene'⟩
  rw [h.scene_eq] at hperform' hscene'
  rcases w.scene.leads_ask step.request with ⟨hclock, asked, hasked⟩
  rcases Scene.leads_report (w.scene.ask step.request).2 reaction.2 run.executionId index action
    with ⟨reported, hreported⟩
  rw [← hscene] at hreported
  exact ⟨w', c', _, hperform, hperform', ⟨hquiet, hquiet', hscene'.trans hscene.symm⟩,
    (hasked.atTime hclock).trans hreported⟩

theorem parts_finish (h : Abreast T w c) (e : Event) (run : Tally) (t : Termination) :
    Parts T e w.scene (.done (run.result t), w.tell (.runCompleted run.executionId t))
      (.done (run.result t), c.tell (.runCompleted run.executionId t)) :=
  .ended rfl (h.tell _).clock_lt rfl (h.tell _).scene_eq

theorem parts_settle (h : Abreast T w c) {delay : Nat} (hlong : T < w.clock + delay)
    {next : Tally → World → Outcome RunResult × World} (hnext : Advances next) (run : Tally) :
    Parts T (.runCancelled run.executionId) w.scene (proceed delay next (.settle, run, w))
      (proceed delay next (.settle, run, c)) := by
  have hdue : ∀ time ∈ some (c.clock + delay), T < time := by
    rintro time ⟨⟩
    rw [h.clock_eq]
    exact hlong
  rcases h.quietUntil.exists_rest_cut hdue with ⟨c', hrest', hrested'⟩
  rcases h.quiet.exists_rest (Nat.le_add_right _ delay) nofun with ⟨w', hrest, hw', hrested⟩
  rcases hnext run w' hw' with ⟨late, hlate⟩
  have hlater : T < w'.scene.clock := by
    rw [hrested]
    exact hlong
  have hfull := ((Leads.refl w.scene).atTime (Nat.le_add_right _ delay)).trans (hrested ▸ hlate)
  simp only [proceed, hrest, hrest']
  refine .cut (fun r _ => Nat.lt_of_lt_of_le hlater hlate.clock_le) rfl ?_
  unfold Tally.cancel
  rw [World.scene_tell, hrested', h.scene_eq]
  refine .parted (.refl w.scene) h.clock_lt hfull ?_
  intro moment hmoment
  exact Nat.lt_of_lt_of_le hlater (hlate.time_mem moment hmoment).1

theorem parts_request (h : Abreast T w c) {step : Step}
    (hlate : step.request.waking (w.scene.ask step.request).1 = .never ∨
      T < (w.scene.ask step.request).2.clock) (delay index : Nat) (action : Action)
    {next : Tally → World → Outcome RunResult × World} (hnext : Advances next) (run : Tally) :
    Parts T (.runCancelled run.executionId) w.scene
      (proceed delay next (step.perform index action run w))
      (proceed delay next (step.perform index action run c)) := by
  rcases w.scene.leads_ask step.request with ⟨hclock, early, hearly⟩
  rcases h.quietUntil.exists_perform_cut step (h.scene_eq ▸ hlate) index action run with
    ⟨c', hcut, hscene⟩
  have hcutScene : (run.cancel c').2.scene =
      (((w.scene.ask step.request).2.atTime w.scene.clock).atTime T).tell
        (.runCancelled run.executionId) := by
    unfold Tally.cancel
    rw [World.scene_tell, hscene, h.scene_eq]
    rfl
  rw [hcut]
  rcases hlate with hnever | hlong
  · rcases h.quiet.exists_perform step nofun index action run with ⟨w', hperform, _, hasked⟩
    have hreact := Step.react_of_never (p := run.presentation) hnever
    have hfull : Leads w.scene w'.scene (early ++ []) := by
      rw [hasked, hreact, List.append_nil]
      exact hearly.atTime hclock
    rw [hreact] at hperform
    rw [hperform]
    refine .cut nofun rfl ?_
    change Scene.CutShort T _ _ w'.scene (run.cancel c').2.scene
    rw [hcutScene]
    exact .parted hearly h.clock_lt hfull (List.forall_mem_nil _)
  · rcases hnext.exists_leads_perform h.quiet delay step index action run with ⟨late, hleads⟩
    refine .cut (fun r _ => Nat.lt_of_lt_of_le hlong hleads.clock_le) rfl ?_
    change Scene.CutShort T _ _ _ (run.cancel c').2.scene
    rw [hcutScene]
    refine .parted hearly h.clock_lt ((hearly.atTime hclock).trans hleads) ?_
    intro moment hmoment
    exact Nat.lt_of_lt_of_le hlong (hleads.time_mem moment hmoment).1

theorem answersBefore_or (h : Abreast T w c) {delay index : Nat} {action : Action}
    {rest : List Action} {run : Tally} (hT : T ∉ waitEndsFrom delay index (action :: rest) run w) :
    let s := (w.begin run index action).scene
    let r := action.step.request
    s.AnswersBefore T r ∨ r.waking (s.ask r).1 = .never ∨ T < (s.ask r).2.clock := by
  intro s r
  have hbegun : Abreast T (w.begin run index action) (c.begin run index action) := h.tell _
  rcases s.waking_ask r with helapsed | hnever
  · rcases Nat.lt_trichotomy (s.ask r).2.clock T with hearly | hnow | hlate
    · exact Or.inl ⟨by rw [helapsed]; nofun, hearly⟩
    · -- The clock has moved, so the step has waited, and now it settles.
      have hwaits : r.waits = true := by
        apply Decidable.byContradiction
        intro hno
        have hclock := s.clock_ask (Bool.eq_false_iff.mpr hno)
        exact absurd (hclock.symm.trans hnow) (Nat.ne_of_lt hbegun.clock_lt)
      rcases hbegun.quiet.exists_perform action.step nofun index action run with
        ⟨w', hperform, _, hscene⟩
      have hclock : w'.clock = T :=
        (congrArg Scene.clock hscene).trans ((Scene.clock_foldl_note _ _).trans hnow)
      rw [Step.settle_of_waits hwaits helapsed] at hperform
      refine absurd ?_ hT
      simp only [waitEndsFrom, hperform, hclock]
      rw [if_pos hwaits]
      exact List.mem_cons_self
    · exact Or.inr (Or.inr hlate)
  · exact Or.inr (Or.inl hnever)

end Abreast

/-- The two runs go on alike until the first wait that lasts too long. -/
theorem parts_performFrom {T delay index : Nat} {actions : List Action} {run : Tally} {w c : World}
    (h : Abreast T w c) (hT : T ∉ waitEndsFrom delay index actions run w) :
    Parts T (.runCancelled run.executionId) w.scene (performFrom delay index actions run w)
      (performFrom delay index actions run c) := by
  -- The two worlds stay abreast from step to step. They can only part while a run waits, for an
  -- answer or for a step to settle.
  induction actions generalizing index run w c with
  | nil => exact h.parts_finish _ run .completed
  | cons action rest ih =>
      have hbegun : Abreast T (w.begin run index action) (c.begin run index action) := h.tell _
      have hnext := advances_performFrom delay (index + 1) rest
      rcases exists_leads_tell (.refl w.scene)
        (.stepStarted run.executionId index action.id action.kind.tag) with ⟨begun, hbegin⟩
      rw [performFrom_cons h.quiet.notCancelled, performFrom_cons h.quietUntil.notCancelled]
      refine .prepend hbegin ?_
      rcases h.answersBefore_or hT with hbefore | hlate
      · rcases hbegun.exists_perform hbefore index action run with
          ⟨w₁, c₁, moments, hperform, hperform', hperformed, hleads⟩
        have hanswered :=
          ((w.begin run index action).scene.waking_ask action.step.request).resolve_right hbefore.1
        have hflow := Step.react_of_elapsed (p := run.presentation) hanswered
        simp only [waitEndsFrom, hperform] at hT
        rw [hperform, hperform']
        refine .prepend hleads ?_
        generalize action.step.react run.presentation _ = reaction at hT hflow
        rcases reaction with ⟨flow, report⟩
        rw [← report.executionId_tally index action run]
        cases flow with
        | settle =>
            rw [List.mem_append, List.mem_cons, not_or, not_or] at hT
            rcases hT with ⟨_, hend, hlater⟩
            rcases Nat.lt_trichotomy T (w₁.clock + delay) with hlong | hnow | hshort
            · exact hperformed.parts_settle hlong hnext _
            · exact absurd hnow hend
            · rcases hperformed.exists_rest (Nat.le_add_right _ delay) hshort with
                ⟨w₂, c₂, hrest, hrest', hrested, hsettled⟩
              rw [hrest] at hlater
              simp only [proceed, hperformed.clock_eq, hrest, hrest']
              exact .prepend hsettled (ih hrested hlater)
        | skip => exact ih hperformed hT
        | stop t => exact hperformed.parts_finish _ _ t
        | cancelled => exact absurd rfl hflow.1
        | stuck => exact absurd rfl hflow.2
      · exact hbegun.parts_request hlate delay index action hnext run

def World.cancelAt (T : Nat) (w : World) : World :=
  { w with plan := [⟨T, .cancel⟩] }

theorem Abreast.cancelAt {T : Nat} {w : World} (hquiet : Quiet none w) (hnow : w.clock < T) :
    Abreast T w (w.cancelAt T) where
  quiet := hquiet
  quietUntil := ⟨rfl, by rintro time ⟨⟩; exact hnow, hquiet.notCancelled, hquiet.noTrips⟩
  scene_eq := rfl

theorem Abreast.drawRunId {T : Nat} {w c : World} (h : Abreast T w c) :
    Abreast T w.drawRunId.2 c.drawRunId.2 where
  quiet := h.quiet.withDraws _
  quietUntil := h.quietUntil.withDraws _
  scene_eq := congrArg (fun s : Scene => s.drawRunId.2) h.scene_eq

/-- A run that is cancelled at a time at which none of its waits would end, and the same run if
it is never cancelled. -/
theorem execute_cancelAt {delay T : Nat} {actions : List Action} {p : Presentation} {w : World}
    (hquiet : Quiet none w) (hnow : w.clock < T) (hT : T ∉ waitEnds delay actions p w) :
    let full := execute delay actions p w
    let cut := execute delay actions p (w.cancelAt T)
    ∃ moments, full.2.runHistory = w.runHistory ++ moments ∧
      full.2.store = w.store.replay moments ∧
      ((∃ r, full.1 = .done r) ∧ full.2.clock < T →
        cut.1 = full.1 ∧ cut.2.scene = full.2.scene) ∧
      (¬((∃ r, full.1 = .done r) ∧ full.2.clock < T) →
        let before := moments.filter (·.time < T)
        cut.1 = .cancelled ∧ cut.2.clock = T ∧
          cut.2.runHistory = w.runHistory ++ before ++
            [⟨T, w.view, .event (.runCancelled w.drawRunId.1)⟩] ∧
          cut.2.store = w.store.replay before) := by
  intro full cut
  have hstarted := ((Abreast.cancelAt hquiet hnow).drawRunId).tell
    (.runStarted w.drawRunId.1 actions.length)
  rcases exists_leads_tell ((Leads.refl w.scene).withDraws w.drawRunId.2.draws)
    (w := w.drawRunId.2) (.runStarted w.drawRunId.1 actions.length) with ⟨begun, hbegin⟩
  have hparts := (parts_performFrom hstarted hT).prepend hbegin
  change Parts T _ w.scene full cut at hparts
  cases hparts with
  | @ended r hdone htime hsame hscene =>
      rcases advances_performFrom delay 0 actions (Tally.start w.drawRunId.1 p) _
        hstarted.quiet with ⟨moments, hleads⟩
      have hall := hbegin.trans hleads
      refine ⟨_, ?_, hall.store_eq, fun _ => ⟨hsame, hscene⟩,
        fun hnever => absurd ⟨⟨r, hdone⟩, htime⟩ hnever⟩
      rw [← World.history_scene, ← World.history_scene]
      exact hall.history_eq
  | cut hlater hcancelled hscene =>
      rcases hscene.exists_moments with ⟨moments, hleads, hclock, hhistory, hstore⟩
      rw [World.history_scene, World.history_scene] at hhistory
      refine ⟨moments, ?_, hleads.store_eq, ?_, fun _ => ⟨hcancelled, hclock, hhistory, hstore⟩⟩
      · rw [← World.history_scene, ← World.history_scene]
        exact hleads.history_eq
      · rintro ⟨⟨r, hdone⟩, htime⟩
        exact absurd htime (Nat.lt_asymm (hlater r hdone))

def rewriting : List Action := [
  ⟨"a", .setLocalStorage, ⟨[("key", .string "k"), ("value", .string "old")]⟩⟩,
  ⟨"b", .alert, .empty⟩,
  ⟨"c", .setLocalStorage, ⟨[("key", .string "k"), ("value", .string "new")]⟩⟩]

theorem execute_cancelAt_rewriting :
    let w := World.fresh (.memory [] Faults.none)
      { Host.prompt [] false with alertTime := fun _ => 500 } []
    let full := execute 300 rewriting .initial w
    let cut := execute 300 rewriting .initial (w.cancelAt 600)
    cut.1 = .cancelled ∧ cut.2.clock = 600 ∧
      full.2.store.entries = [("k", "new")] ∧ cut.2.store.entries = [("k", "old")] ∧
      ∃ moments, full.2.runHistory = moments ∧
        cut.2.runHistory = moments.filter (·.time < 600) ++
          [⟨600, .initial .initial, .event (.runCancelled "0")⟩] := by
  intro w
  have hquiet : Quiet none w := ⟨rfl, nofun, rfl, fun _ => rfl⟩
  have hends : 600 ∉ waitEnds 300 rewriting .initial w := by decide +kernel
  have hlate : ¬(execute 300 rewriting .initial w).2.clock < 600 := by decide +kernel
  have hfull : (execute 300 rewriting .initial w).2.store.entries = [("k", "new")] := by
    decide +kernel
  have hcut : (execute 300 rewriting .initial (w.cancelAt 600)).2.store.entries =
      [("k", "old")] := by
    decide +kernel
  have hid : w.drawRunId.1 = "0" := by decide +kernel
  have hparts := execute_cancelAt hquiet (by decide) hends
  rw [hid] at hparts
  generalize execute 300 rewriting .initial w = full at hlate hfull hparts ⊢
  generalize execute 300 rewriting .initial (w.cancelAt 600) = cut at hcut hparts ⊢
  rcases hparts with ⟨moments, hhistory, _, _, hcancelled⟩
  rcases hcancelled fun hover => hlate hover.2 with ⟨houtcome, hclock, hevents, _⟩
  exact ⟨houtcome, hclock, hfull, hcut, moments, hhistory, hevents⟩

end ButtonFlow
