import ButtonFlow.Proofs.Run.Uncut

/-!
# Every step is accounted for

In a run that is not cancelled every step that starts comes to one thing that can be seen from
outside: an alert, a fragment, a presentation, a skip, a diagnosis, a reload, or a request to
close the window that is granted. Only a step of an unknown kind comes to two, a diagnosis and
a skip. Nothing that goes wrong ends the run; the result lists a diagnostic for each step in
which something has, and no other.
-/

namespace ButtonFlow

/-!
## What comes of a step
-/

/-- Whether an effect is something that a step comes to. A request to close the window is, if
it is granted. -/
def Effect.isOutcome (granted : Bool) : Effect → Bool
  | .prompt | .read | .write => false
  | .closeRequest => granted
  | .alert | .reload | .diagnosis | .fragment | .presentation | .skip => true

/-- What comes of a step in which this happens. -/
def outcomes (granted : Bool) (told : List Happening) : List Effect :=
  (told.filterMap Happening.effect?).filter (Effect.isOutcome granted)

def Happening.index? : Happening → Option Nat
  | .event e => e.index?
  | .diagnosed d _ => some d.index
  | _ => none

def Happening.diagnostic? : Happening → Option Diagnostic
  | .diagnosed d _ => some d
  | _ => none

inductive Troubled (granted : Bool) (reads : String → Bool) (action : Action)
    (told : List Happening) : Prop where
  | unknown (hkind : action.kind.isKnown = false)
  | unwritten {key value : String} (hstep : action.step = .setStorage (some key) value)
      (hwrite : .write key value false ∈ told)
  | unread {key : String} (hstep : action.step = .getStorage (some key))
      (hread : reads key = false)
  | denied (hstep : action.step = .closeWindow) (hdenied : granted = false)

/-- The step of the action at `index` is accounted for by what happens from its start on. -/
structure Accounted (granted : Bool) (reads : String → Bool) (executionId : String) (index : Nat)
    (action : Action) (told : List Happening) : Prop where
  start : ∃ later,
    told = .event (.stepStarted executionId index action.id action.kind.tag) :: later ∧
    ∀ what ∈ later, what.isStart = false
  index_eq : ∀ what ∈ told, ∀ i ∈ what.index?, i = index
  outcome : ∃ e, outcomes granted told =
    if action.kind.isKnown then [e] else [.diagnosis, .skip]
  diagnosed : (Troubled granted reads action told ∧
      ∃ message, told.filterMap Happening.diagnostic? = [⟨index, action.id, message⟩]) ∨
    (¬ Troubled granted reads action told ∧ told.filterMap Happening.diagnostic? = [])

theorem Answered.index?_eq_none {colors : Nat → Nat} {r : Request} {answer : r.Answer}
    {asked : List Happening} (h : Answered colors r answer asked) :
    ∀ what ∈ asked, what.index? = none := by
  cases h <;> simp [Happening.index?]

theorem Answered.diagnostics_eq_nil {colors : Nat → Nat} {r : Request} {answer : r.Answer}
    {asked : List Happening} (h : Answered colors r answer asked) :
    asked.filterMap Happening.diagnostic? = [] := by
  cases h <;> rfl

namespace Report

def message? : Report → Option String
  | .diagnosed message | .refused message _ => some message
  | _ => none

theorem index?_of_mem {report : Report} {executionId : String} {index : Nat} {action : Action}
    {what : Happening} (h : what ∈ report.happenings executionId index action) :
    what.index? = some index := by
  cases report <;> simp [happenings] at h
  all_goals
    rcases h with rfl | rfl
    all_goals rfl

theorem diagnostics_eq (report : Report) (executionId : String) (index : Nat) (action : Action) :
    (report.happenings executionId index action).filterMap Happening.diagnostic? =
      report.message?.toList.map fun message => ⟨index, action.id, message⟩ := by
  cases report <;> rfl

theorem diagnostics_tally (report : Report) (index : Nat) (action : Action) (run : Tally) :
    (report.tally index action run).diagnostics = run.diagnostics ++
      report.message?.toList.map fun message => ⟨index, action.id, message⟩ := by
  cases report <;> simp [tally, message?]

end Report

namespace Step

variable {colors : Nat → Nat} {granted : Bool} {reads : String → Bool} {step : Step}
  {answer : step.request.Answer} {asked : List Happening}

theorem exists_outcome (hanswered : Answered colors step.request answer asked)
    (hright : step.request.Right granted reads answer) (p : Presentation) (executionId : String)
    (index : Nat) (action : Action) :
    ∃ e, outcomes granted
        (asked ++ (step.react p answer).2.happenings executionId index action) =
      if step.kind.isKnown then [e] else [.diagnosis, .skip] := by
  -- A step that asks comes to what the answer leads to, and an alert to the alert itself.
  cases step with
  | alert message =>
      cases hanswered with
      | alert _ waking =>
          cases hright
          exact ⟨.alert, rfl⟩
      | alertWithheld => cases hright
  | showText text =>
      cases hanswered
      exact ⟨.fragment, rfl⟩
  | showImage url =>
      cases hanswered
      cases url with
      | none => exact ⟨.skip, rfl⟩
      | some url => exact ⟨.fragment, rfl⟩
  | refreshPage =>
      cases hanswered
      exact ⟨.reload, rfl⟩
  | setStorage key value =>
      cases key with
      | none =>
          cases hanswered
          exact ⟨.skip, rfl⟩
      | some key =>
          cases hanswered
          cases answer with
          | ok u => exact ⟨.fragment, rfl⟩
          | error e => exact ⟨.diagnosis, rfl⟩
  | getStorage key =>
      cases key with
      | none =>
          cases hanswered
          exact ⟨.skip, rfl⟩
      | some key =>
          cases hanswered
          cases answer with
          | ok value => exact ⟨.fragment, rfl⟩
          | error e => exact ⟨.diagnosis, rfl⟩
  | increaseButtonSize =>
      cases hanswered
      exact ⟨.presentation, rfl⟩
  | closeWindow =>
      cases hanswered with
      | close answer =>
          cases hright
          cases granted with
          | true => exact ⟨.closeRequest, rfl⟩
          | false => exact ⟨.diagnosis, rfl⟩
  | promptAndShow message before after =>
      cases hanswered with
      | prompt _ waking answer =>
          cases hright
          cases answer with
          | none => exact ⟨.skip, rfl⟩
          | some answer => exact ⟨.fragment, rfl⟩
      | promptWithheld => cases hright
  | changeButtonColor color =>
      cases color with
      | none =>
          cases hanswered
          exact ⟨.presentation, rfl⟩
      | some color =>
          cases hanswered
          exact ⟨.presentation, rfl⟩
  | disableButton =>
      cases hanswered
      exact ⟨.presentation, rfl⟩
  | unknown tag =>
      cases hanswered
      exact ⟨.skip, rfl⟩

theorem noted_cases {p : Presentation} (h : (step.react p answer).2.message?.isSome = true) :
    step.kind.isKnown = false ∨
      (∃ key value, step = .setStorage (some key) value) ∨
      (∃ key, step = .getStorage (some key)) ∨ step = .closeWindow := by
  unfold react at h
  split at h <;> simp_all [Report.message?, Step.kind, Kind.isKnown]

theorem eq_unknown (h : step.kind.isKnown = false) : ∃ tag, step = .unknown tag := by
  cases step with
  | unknown tag => exact ⟨tag, rfl⟩
  | _ => cases h

/-- Something is noted in a step exactly if something has gone wrong in it. -/
theorem troubled_iff {action : Action} (hstep : action.step = step)
    (hanswered : Answered colors step.request answer asked)
    (hright : step.request.Right granted reads answer) (p : Presentation) (start : Event)
    (executionId : String) (index : Nat) :
    Troubled granted reads action
        (.event start :: asked ++ (step.react p answer).2.happenings executionId index action) ↔
      (step.react p answer).2.message?.isSome = true := by
  have hkind : step.kind = action.kind := by
    rw [← hstep]
    exact action.kind_step
  constructor
  · intro h
    cases h with
    | unknown hunknown =>
        rw [← hkind] at hunknown
        rcases eq_unknown hunknown with ⟨tag, rfl⟩
        rfl
    | unwritten hwrites hwrite =>
        rw [hstep] at hwrites
        subst hwrites
        cases hanswered
        cases answer with
        | ok u => simp [react, Report.happenings, Except.isOk, Except.toBool] at hwrite
        | error e => rfl
    | unread hreads hread =>
        rw [hstep] at hreads
        subst hreads
        cases answer with
        | ok value =>
            rw [← hright] at hread
            cases hread
        | error e => rfl
    | denied hcloses hdenied =>
        rw [hstep] at hcloses
        subst hcloses
        rw [hright, hdenied]
        rfl
  · intro h
    rcases noted_cases h with hunknown | ⟨key, value, rfl⟩ | ⟨key, rfl⟩ | rfl
    · rw [hkind] at hunknown
      exact .unknown hunknown
    · cases hanswered
      cases answer with
      | ok u => cases h
      | error e => exact .unwritten hstep (List.mem_cons_of_mem _ List.mem_cons_self)
    · cases answer with
      | ok value => cases h
      | error e => exact .unread hstep hright.symm
    · cases answer with
      | true => cases h
      | false => exact .denied hstep hright.symm

end Step

namespace Settled

variable {colors : Nat → Nat} {granted : Bool} {reads : String → Bool} {index : Nat}
  {action : Action} {run run' : Tally} {told : List Happening} {flow : Flow}

theorem diagnostics_eq (h : Settled colors granted reads index action run told flow run') :
    run'.diagnostics = run.diagnostics ++ told.filterMap Happening.diagnostic? := by
  cases h with
  | step hanswered _ =>
      rw [Report.diagnostics_tally, List.filterMap_append, List.filterMap_cons_none rfl,
        hanswered.diagnostics_eq_nil, Report.diagnostics_eq, List.nil_append]

theorem accounted (h : Settled colors granted reads index action run told flow run') :
    Accounted granted reads run.executionId index action told := by
  have hstart := h.exists_start
  cases h with
  | @step answer asked hanswered hright =>
      have htrouble := Step.troubled_iff rfl hanswered hright run.presentation
        (.stepStarted run.executionId index action.id action.kind.tag) run.executionId index
      constructor
      case start => exact hstart
      case index_eq =>
        intro what hwhat i hi
        rw [List.cons_append, List.mem_cons, List.mem_append] at hwhat
        rcases hwhat with rfl | hwhat | hwhat
        · exact (Option.some.inj hi).symm
        · rw [hanswered.index?_eq_none what hwhat] at hi
          cases hi
        · rw [Report.index?_of_mem hwhat] at hi
          exact (Option.some.inj hi).symm
      case outcome =>
        rw [← action.kind_step]
        exact Step.exists_outcome hanswered hright ..
      case diagnosed =>
        rw [htrouble, List.filterMap_append, List.filterMap_cons_none rfl,
          hanswered.diagnostics_eq_nil, Report.diagnostics_eq, List.nil_append]
        cases (action.step.react run.presentation answer).2.message? with
        | none => exact Or.inr ⟨nofun, rfl⟩
        | some message => exact Or.inl ⟨rfl, message, rfl⟩

end Settled

/-!
## What a run notes
-/

namespace Accounted

variable {granted : Bool} {reads : String → Bool} {executionId : String} {index : Nat}
  {action : Action} {told : List Happening}

/-- A step notes one thing at most, at its own position. -/
theorem diagnostics_cases (h : Accounted granted reads executionId index action told) :
    told.filterMap Happening.diagnostic? = [] ∨
      ∃ message, told.filterMap Happening.diagnostic? = [⟨index, action.id, message⟩] := by
  rcases h.diagnosed with ⟨_, hnoted⟩ | ⟨_, hnothing⟩
  · exact Or.inr hnoted
  · exact Or.inl hnothing

theorem eq_of_mem (h : Accounted granted reads executionId index action told) {d : Diagnostic}
    (hd : d ∈ told.filterMap Happening.diagnostic?) :
    d.index = index ∧ d.actionId = action.id := by
  rcases h.diagnostics_cases with hnothing | ⟨message, hnoted⟩
  · rw [hnothing] at hd
    cases hd
  · rw [hnoted, List.mem_singleton] at hd
    rw [hd]
    exact ⟨rfl, rfl⟩

theorem troubled_iff (h : Accounted granted reads executionId index action told) :
    Troubled granted reads action told ↔ ∃ d, d ∈ told.filterMap Happening.diagnostic? := by
  rcases h.diagnosed with ⟨htrouble, message, hnoted⟩ | ⟨hnone, hnothing⟩
  · rw [hnoted]
    exact ⟨fun _ => ⟨_, List.mem_singleton_self _⟩, fun _ => htrouble⟩
  · rw [hnothing]
    exact ⟨fun htrouble => absurd htrouble hnone, nofun⟩

end Accounted

namespace Uncut

variable {colors : Nat → Nat} {allows : Nat → Bool} {reads : String → Bool}
  {requests index : Nat} {actions : List Action} {run : Tally} {told : List (List Happening)}
  {r : RunResult}

theorem executionId_eq (h : Uncut colors allows reads requests index actions run told r) :
    r.executionId = run.executionId := by
  induction h with
  | completed => rfl
  | wentOn hstep _ _ ih => exact ih.trans hstep.performed.executionId_eq
  | stopped hstep => exact hstep.performed.executionId_eq

theorem diagnostics_eq (h : Uncut colors allows reads requests index actions run told r) :
    r.diagnostics = run.diagnostics ++ told.flatten.filterMap Happening.diagnostic? := by
  induction h with
  | completed => exact (List.append_nil _).symm
  | wentOn hstep _ _ ih =>
      rw [ih, hstep.diagnostics_eq, List.flatten_cons, List.filterMap_append, List.append_assoc]
  | stopped hstep =>
      rw [List.flatten_cons, List.flatten_nil, List.append_nil]
      exact hstep.diagnostics_eq

theorem exists_accounted (h : Uncut colors allows reads requests index actions run told r) :
    ∀ i segment, told[i]? = some segment → ∃ action, actions[i]? = some action ∧
      Accounted
        (allows (requests + (told.take i).flatten.countP Happening.isCloseRequest)) reads
        run.executionId (index + i) action segment := by
  induction h with
  | completed => exact nofun
  | @wentOn requests index action rest run run' told flow later r hstep _ _ ih =>
      intro i segment hsegment
      cases i with
      | zero =>
          cases hsegment
          exact ⟨action, rfl, hstep.accounted⟩
      | succ i =>
          rcases ih i segment hsegment with ⟨other, hother, haccounted⟩
          rw [hstep.performed.executionId_eq, Nat.add_assoc, ← List.countP_append,
            ← List.flatten_cons, Nat.add_right_comm index, Nat.add_assoc] at haccounted
          exact ⟨other, hother, haccounted⟩
  | @stopped requests index action rest run run' told t hstep =>
      intro i segment hsegment
      cases i with
      | zero =>
          cases hsegment
          exact ⟨action, rfl, hstep.accounted⟩
      | succ i => cases hsegment

theorem increasing (h : Uncut colors allows reads requests index actions run told r) :
    let noted := told.flatten.filterMap Happening.diagnostic?
    noted.Pairwise (fun d e => d.index < e.index) ∧ ∀ d ∈ noted, index ≤ d.index := by
  -- What is noted later is noted at later positions.
  induction h with
  | completed => exact ⟨.nil, List.forall_mem_nil _⟩
  | wentOn hstep _ _ ih =>
      rcases ih with ⟨hpairwise, hlater⟩
      rw [List.flatten_cons, List.filterMap_append]
      rcases hstep.accounted.diagnostics_cases with hnothing | ⟨message, hnoted⟩
      · rw [hnothing, List.nil_append]
        exact ⟨hpairwise, fun d hd => Nat.le_of_succ_le (hlater d hd)⟩
      · rw [hnoted, List.singleton_append]
        refine ⟨List.pairwise_cons.mpr ⟨fun d hd => hlater d hd, hpairwise⟩, ?_⟩
        exact List.forall_mem_cons.mpr ⟨Nat.le_refl _, fun d hd => Nat.le_of_succ_le (hlater d hd)⟩
  | stopped hstep =>
      rw [List.flatten_cons, List.flatten_nil, List.append_nil]
      rcases hstep.accounted.diagnostics_cases with hnothing | ⟨message, hnoted⟩
      · rw [hnothing]
        exact ⟨.nil, List.forall_mem_nil _⟩
      · rw [hnoted]
        exact ⟨List.pairwise_singleton _ _, List.forall_mem_singleton.mpr (Nat.le_refl _)⟩

end Uncut

/-!
## Runs
-/

/-- The steps that started are those of the first actions, one after the other, and in each of
them this happened. All of them are accounted for, and the result lists what went wrong. -/
structure Account (allows : Nat → Bool) (reads : String → Bool) (actions : List Action)
    (told : List (List Happening)) (r : RunResult) : Prop where
  steps : ∀ i segment, told[i]? = some segment → ∃ action, actions[i]? = some action ∧
    Accounted (allows ((told.take i).flatten.countP Happening.isCloseRequest)) reads r.executionId
      i action segment
  listed : r.diagnostics = told.flatten.filterMap Happening.diagnostic?
  increasing : r.diagnostics.Pairwise fun d e => d.index < e.index
  named : ∀ d ∈ r.diagnostics, d.index < told.length ∧
    actions[d.index]?.map Action.id = some d.actionId
  troubled : ∀ i segment action, told[i]? = some segment → actions[i]? = some action →
    ((∃ d ∈ r.diagnostics, d.index = i) ↔
      Troubled (allows ((told.take i).flatten.countP Happening.isCloseRequest)) reads action
        segment)

theorem Uncut.account {colors : Nat → Nat} {allows : Nat → Bool} {reads : String → Bool}
    {requests : Nat} {actions : List Action} {executionId : String} {p : Presentation}
    {told : List (List Happening)} {r : RunResult}
    (h : Uncut colors allows reads requests 0 actions (Tally.start executionId p) told r) :
    Account (fun request => allows (requests + request)) reads actions told r := by
  have hsteps := h.exists_accounted
  simp only [Nat.zero_add] at hsteps
  have hdiagnostics : r.diagnostics = told.flatten.filterMap Happening.diagnostic? :=
    h.diagnostics_eq
  -- Whatever is listed was noted in the step at its position.
  have hlisted : ∀ d ∈ r.diagnostics, ∃ segment, told[d.index]? = some segment ∧
      d ∈ segment.filterMap Happening.diagnostic? := by
    intro d hd
    rw [hdiagnostics, List.filterMap_flatten, List.mem_flatten] at hd
    rcases hd with ⟨noted, hnoted, hd⟩
    rcases List.mem_map.mp hnoted with ⟨segment, hsegment, rfl⟩
    rcases List.mem_iff_getElem?.mp hsegment with ⟨i, hi⟩
    rcases hsteps i segment hi with ⟨action, _, haccounted⟩
    rw [(haccounted.eq_of_mem hd).1]
    exact ⟨segment, hi, hd⟩
  constructor
  case steps =>
    rw [h.executionId_eq]
    exact hsteps
  case listed => exact hdiagnostics
  case increasing =>
    rw [hdiagnostics]
    exact h.increasing.1
  case named =>
    intro d hd
    rcases hlisted d hd with ⟨segment, hsegment, hnoted⟩
    rcases hsteps d.index segment hsegment with ⟨action, haction, haccounted⟩
    refine ⟨(List.getElem?_eq_some_iff.mp hsegment).1, ?_⟩
    rw [haction, (haccounted.eq_of_mem hnoted).2]
    rfl
  case troubled =>
    intro i segment action hsegment haction
    rcases hsteps i segment hsegment with ⟨other, hother, haccounted⟩
    cases haction.symm.trans hother
    rw [haccounted.troubled_iff]
    constructor
    · rintro ⟨d, hd, rfl⟩
      rcases hlisted d hd with ⟨listed, hlistedAt, hnoted⟩
      cases hsegment.symm.trans hlistedAt
      exact ⟨d, hnoted⟩
    · rintro ⟨d, hd⟩
      refine ⟨d, ?_, (haccounted.eq_of_mem hd).1⟩
      rw [hdiagnostics, List.filterMap_flatten]
      exact List.mem_flatten_of_mem
        (List.mem_map_of_mem (List.mem_of_getElem? hsegment)) hd

/-- A run that is not cancelled comes to its end, whatever fails in its steps, and accounts for
each of them, if the user answers or dismisses every prompt. -/
theorem exists_account (delay : Nat) (actions : List Action) (p : Presentation) {w : World}
    (hanswers : ∀ n, (w.host.promptTime n).isSome = true)
    (hend : (execute delay actions p w).2.isCancelled = false) :
    ∃ told r w', execute delay actions p w = (.done r, w') ∧
      w'.doings = w.doings ++ .event (.runStarted r.executionId actions.length) ::
        (told.flatten ++ [.event (.runCompleted r.executionId r.termination)]) ∧
      Account (fun request => w.host.allowsClose (w.host.closeRequests + request)) w.store.reads
        actions told r := by
  have hdrawn : World.Adds w w.drawRunId.2 [] := .of_idle rfl rfl
  have hstarted := hdrawn.trans
    (.tell w.drawRunId.2 (e := .runStarted w.drawRunId.1 actions.length) trivial)
  have hhost : (w.drawRunId.2.tell (.runStarted w.drawRunId.1 actions.length)).host = w.host :=
    World.untouched_host.tell _ _
  rw [← hhost] at hanswers
  rcases exists_uncut delay 0 actions (Tally.start w.drawRunId.1 p) hanswers hend with
    ⟨told, r, hdone, huncut, hadds⟩
  rw [hhost, hstarted.reads_eq] at huncut
  refine ⟨told, r, _, Prod.ext hdone rfl, ?_, huncut.account⟩
  rw [huncut.executionId_eq]
  exact (hstarted.trans hadds).doings_eq

def troubling : List Action := [
  ⟨"a", .setLocalStorage, ⟨[("key", .string "k"), ("value", .string "v")]⟩⟩,
  ⟨"b", .promptAndShow, .empty⟩,
  ⟨"c", .other "dance", .empty⟩,
  ⟨"d", .closeWindow, .empty⟩,
  ⟨"e", .getLocalStorage, ⟨[("key", .string "k")]⟩⟩,
  ⟨"f", .closeWindow, .empty⟩,
  ⟨"g", .alert, .empty⟩]

theorem exists_account_troubling :
    let w := World.fresh (.memory [] ⟨[], ["k"], .other "full"⟩)
      { Host.prompt [none] false with allowsClose := fun request => request != 0 }
      [⟨100, .set "k" "other"⟩]
    ∃ told r, (execute 300 troubling .initial w).1.result? = some r ∧
      r.termination = .windowClosed ∧ r.diagnostics.map Diagnostic.index = [0, 2, 3] ∧
      Account (fun request => 0 + request != 0) (fun _ => true) troubling told r := by
  intro w
  have hend : (execute 300 troubling .initial w).2.isCancelled = false := by decide +kernel
  have hresult : ((execute 300 troubling .initial w).1.result?).map
      (fun r => (r.termination, r.diagnostics.map Diagnostic.index)) =
        some (.windowClosed, [0, 2, 3]) := by
    decide +kernel
  rcases exists_account 300 troubling .initial (fun _ => rfl) hend with
    ⟨told, r, w', hdone, _, haccount⟩
  rw [hdone] at hresult
  rcases Prod.mk.inj (Option.some.inj hresult) with ⟨htermination, hdiagnostics⟩
  have hreads : w.store.reads = fun _ => true := Store.reads_memory [] _
  rw [hreads] at haccount
  refine ⟨told, r, ?_, htermination, hdiagnostics, haccount⟩
  rw [hdone]
  rfl

end ButtonFlow
