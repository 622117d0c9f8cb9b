import ButtonFlow.Proofs.Dict
import ButtonFlow.Proofs.Run.Account
import ButtonFlow.Proofs.Run.Replay
import ButtonFlow.Proofs.Store.Unwritten

/-!
# What a run writes and reads

If the visitor leaves the store alone, then the store changes by the steps that are to write a
key and by nothing else, however the run ends. So the store after a run is told by the actions
whose steps began, and a step that reads a key shows what the last step before it wrote there,
or what was there before the run.

This is so for every store in memory, whatever keys it fails for. A store in a file keeps what
it could not write, so there it takes a run in which no write fails.
-/

namespace ButtonFlow

/-!
## Worlds whose store is left alone
-/

/-- The visitor plans no change of the store. -/
def World.Spared (w : World) : Prop :=
  ∀ c, some c ∉ plannedErrands w.plan

theorem World.Adds.spared {w w' : World} {hs : List Happening} (h : Adds w w' hs)
    (hspared : w.Spared) : w'.Spared ∧ w'.store = hs.foldl Store.afterHappening w.store := by
  rcases h with ⟨ds, htrail, _, rfl⟩
  have herrands : ∀ c, some c ∉ errands ds ++ plannedErrands w'.plan := by
    intro c
    rw [← htrail.errands_eq]
    exact hspared c
  constructor
  · intro c hmem
    exact herrands c (List.mem_append_right _ hmem)
  · rw [htrail.store_eq]
    apply Store.foldl_after_eq
    intro c hmem
    exact herrands c (List.mem_append_left _ hmem)

/-!
## Actions that write or read
-/

namespace Action

def write? (action : Action) : Option (String × String) :=
  match action.kind with
  | .setLocalStorage =>
      (action.config.text? "key").map fun key => (key, action.config.textOr "value" "")
  | _ => none

def read? (action : Action) : Option String :=
  match action.kind with
  | .getLocalStorage => action.config.text? "key"
  | _ => none

theorem step_of_read? {action : Action} {key : String} (h : action.read? = some key) :
    action.step = .getStorage (some key) := by
  unfold read? at h
  unfold step
  split at h
  · rename_i hkind
    simp only [hkind, h]
  · cases h

end Action

namespace Store

def afterRequest (s : Store) : Request → Store
  | .write key value => (s.set key value).2
  | _ => s

def stepped (s : Store) (action : Action) : Store :=
  match action.write? with
  | some (key, value) => (s.set key value).2
  | none => s

theorem afterRequest_step (s : Store) (action : Action) :
    s.afterRequest action.step.request = s.stepped action := by
  rcases action with ⟨id, kind, config⟩
  cases kind with
  | setLocalStorage =>
      unfold stepped Action.write? Action.step
      dsimp only
      cases config.text? "key" <;> rfl
  | getLocalStorage =>
      unfold Action.step
      dsimp only
      cases config.text? "key" <;> rfl
  | showImage =>
      unfold Action.step
      dsimp only
      cases config.text? "url" <;> rfl
  | changeButtonColor =>
      unfold Action.step
      dsimp only
      cases config.text? "color" <;> rfl
  | _ => rfl

/-- What the step of an action writes, if it does. -/
def attempt? (s : Store) (action : Action) : Option (String × String) :=
  action.write?.filter fun pair => (s.set pair.1 pair.2).1.isOk

def written (s : Store) : List Action → List (String × String)
  | [] => []
  | action :: rest => (s.attempt? action).toList ++ (s.stepped action).written rest

def WritesAll (s : Store) : List Action → Prop
  | [] => True
  | action :: rest => s.attempt? action = action.write? ∧ (s.stepped action).WritesAll rest

/-- No step of these actions leaves something in the store that it could not write. -/
def Keeps (s : Store) (actions : List Action) : Prop :=
  (∃ entries faults, s = .memory entries faults) ∨ s.WritesAll actions

/-- A step of these that writes nothing leaves the entries as they are. -/
def Steady (s : Store) : List Action → Prop
  | [] => True
  | action :: rest =>
      (s.attempt? action = none → (s.stepped action).entries = s.entries) ∧
        (s.stepped action).Steady rest

@[simp]
theorem reads_stepped (s : Store) (action : Action) : (s.stepped action).reads = s.reads := by
  unfold stepped
  split
  · exact s.reads_set _ _
  · rfl

theorem reads_foldl_stepped (s : Store) (actions : List Action) :
    (actions.foldl stepped s).reads = s.reads := by
  induction actions generalizing s with
  | nil => rfl
  | cons action rest ih => exact (ih _).trans (s.reads_stepped action)

/-!
## Entries
-/

theorem set_memory_of_mem {faults : Faults} {key : String} (h : key ∈ faults.writes)
    (entries : Dict String) (value : String) :
    (memory entries faults).set key value = (.error faults.cause, memory entries faults) :=
  if_pos h

theorem set_memory_of_not_mem {faults : Faults} {key : String} (h : key ∉ faults.writes)
    (entries : Dict String) (value : String) :
    (memory entries faults).set key value =
      (.ok (), memory (Dict.insert entries key value) faults) :=
  if_neg h

theorem get_of_reads {s : Store} {key : String} (h : s.reads key = true) :
    s.get key = .ok (Dict.get? s.entries key) := by
  cases s with
  | memory entries faults =>
      rw [reads_memory] at h
      exact if_neg (of_decide_eq_true h)
  | file entries route tree => rfl

theorem entries_set_of_isOk {s : Store} {key value : String} (h : (s.set key value).1.isOk = true) :
    (s.set key value).2.entries = Dict.insert s.entries key value := by
  cases s with
  | memory entries faults =>
      by_cases hfails : key ∈ faults.writes
      · rw [set_memory_of_mem hfails] at h
        cases h
      · rw [set_memory_of_not_mem hfails]
        rfl
  | file entries route tree => rfl

theorem entries_stepped {s : Store} {action : Action} {key value : String}
    (h : s.attempt? action = some (key, value)) :
    (s.stepped action).entries = Dict.insert s.entries key value := by
  rcases Option.filter_eq_some_iff.mp h with ⟨hwrite, hok⟩
  unfold stepped
  rw [hwrite]
  exact entries_set_of_isOk hok

/-- The entries after the steps of some actions are those before, with what was written. -/
theorem entries_foldl_stepped {s : Store} {actions : List Action} (h : s.Steady actions) :
    (actions.foldl stepped s).entries =
      (s.written actions).foldl (fun d pair => Dict.insert d pair.1 pair.2) s.entries := by
  induction actions generalizing s with
  | nil => rfl
  | cons action rest ih =>
      rcases h with ⟨hfirst, hrest⟩
      unfold written
      rw [List.foldl_cons, ih hrest, List.foldl_append]
      cases hattempt : s.attempt? action with
      | none => rw [hfirst hattempt, Option.toList_none, List.foldl_nil]
      | some pair =>
          rw [entries_stepped hattempt, Option.toList_some, List.foldl_cons, List.foldl_nil]

theorem Steady.of_append {s : Store} {actions later : List Action}
    (h : s.Steady (actions ++ later)) : s.Steady actions := by
  induction actions generalizing s with
  | nil => trivial
  | cons action rest ih => exact ⟨h.1, ih h.2⟩

/-!
## Stores in memory
-/

theorem isOk_set_memory (entries : Dict String) (faults : Faults) (key value : String) :
    ((memory entries faults).set key value).1.isOk = decide (key ∉ faults.writes) := by
  by_cases hfails : key ∈ faults.writes
  · rw [set_memory_of_mem hfails]
    simp [hfails, Except.isOk, Except.toBool]
  · rw [set_memory_of_not_mem hfails]
    simp [hfails, Except.isOk, Except.toBool]

theorem stepped_memory (entries : Dict String) (faults : Faults) (action : Action) :
    ∃ entries', (memory entries faults).stepped action = memory entries' faults ∧
      ((memory entries faults).attempt? action = none → entries' = entries) := by
  unfold stepped attempt?
  cases action.write? with
  | none => exact ⟨entries, rfl, fun _ => rfl⟩
  | some pair =>
      dsimp only
      by_cases hfails : pair.1 ∈ faults.writes
      · rw [set_memory_of_mem hfails]
        exact ⟨entries, rfl, fun _ => rfl⟩
      · rw [set_memory_of_not_mem hfails]
        refine ⟨_, rfl, ?_⟩
        intro hattempt
        rw [Option.filter_some, isOk_set_memory, if_pos (decide_eq_true hfails)] at hattempt
        cases hattempt

theorem steady_memory (entries : Dict String) (faults : Faults) (actions : List Action) :
    (memory entries faults).Steady actions := by
  induction actions generalizing entries with
  | nil => trivial
  | cons action rest ih =>
      rcases stepped_memory entries faults action with ⟨entries', hstepped, hkept⟩
      unfold Steady
      rw [hstepped]
      exact ⟨hkept, ih entries'⟩

theorem steady_of_writesAll {s : Store} {actions : List Action} (h : s.WritesAll actions) :
    s.Steady actions := by
  induction actions generalizing s with
  | nil => trivial
  | cons action rest ih =>
      rcases h with ⟨hattempt, hrest⟩
      refine ⟨?_, ih hrest⟩
      intro hnone
      rw [hattempt] at hnone
      rw [stepped, hnone]

theorem Keeps.steady {s : Store} {actions : List Action} (h : s.Keeps actions) :
    s.Steady actions := by
  rcases h with ⟨entries, faults, rfl⟩ | hall
  · exact steady_memory entries faults actions
  · exact steady_of_writesAll hall

theorem written_of_writesAll {s : Store} {actions : List Action} (h : s.WritesAll actions) :
    s.written actions = actions.filterMap Action.write? := by
  induction actions generalizing s with
  | nil => rfl
  | cons action rest ih =>
      rcases h with ⟨hattempt, hrest⟩
      rw [written, hattempt, ih hrest]
      cases hwrite : action.write? with
      | none => rw [List.filterMap_cons_none hwrite, Option.toList_none, List.nil_append]
      | some pair => rw [List.filterMap_cons_some hwrite, Option.toList_some, List.singleton_append]

theorem written_memory (entries : Dict String) (faults : Faults) (actions : List Action) :
    (memory entries faults).written actions =
      (actions.filterMap Action.write?).filter fun pair => decide (pair.1 ∉ faults.writes) := by
  induction actions generalizing entries with
  | nil => rfl
  | cons action rest ih =>
      rcases stepped_memory entries faults action with ⟨entries', hstepped, _⟩
      unfold written attempt?
      simp only [isOk_set_memory]
      rw [hstepped, ih entries']
      cases hwrite : action.write? with
      | none =>
          rw [List.filterMap_cons_none hwrite, Option.filter_none, Option.toList_none,
            List.nil_append]
      | some pair =>
          rw [List.filterMap_cons_some hwrite, List.filter_cons, Option.filter_some]
          split <;> rfl

end Store

/-!
## Values
-/

def lastValue? (key : String) (pairs : List (String × String)) : Option String :=
  (pairs.filterMap fun pair => if pair.1 = key then some pair.2 else none).getLast?

theorem Dict.get?_foldl_insert (key : String) (pairs : List (String × String)) (d : Dict String) :
    Dict.get? (pairs.foldl (fun d pair => Dict.insert d pair.1 pair.2) d) key =
      (lastValue? key pairs).or (Dict.get? d key) := by
  induction pairs generalizing d with
  | nil => rfl
  | cons pair pairs ih =>
      rw [List.foldl_cons, ih, Dict.get?_insert]
      unfold lastValue?
      rw [List.filterMap_cons]
      by_cases hkey : pair.1 = key
      · simp only [if_pos hkey]
        rw [List.getLast?_cons, Option.or_some, Option.some_or]
      · simp only [if_neg hkey]

/-!
## Steps
-/

def Request.Faithful (s : Store) : (r : Request) → r.Answer → Prop
  | .write key value, result => result = (s.set key value).1
  | .read key, result => result = s.get key
  | _, _ => True

namespace World

theorem faithful_ask {w : World} (hspared : w.Spared) (r : Request) :
    r.Faithful w.store (w.ask r).1 := by
  have hstore : (w.pause 1).store = w.store :=
    ((Adds.of_aside (aside_pause 1 w)).spared hspared).2
  cases r with
  | write key value =>
      change ((w.pause 1).store.set key value).1 = _
      rw [hstore]
  | read key =>
      change (w.pause 1).store.get key = _
      rw [hstore]
  | _ => trivial

end World

abbrev Stepped (colors : Nat → Nat) (s : Store) (index : Nat) (action : Action) (run : Tally) :
    List Happening → Flow → Tally → Prop :=
  PerformedIf colors (Request.Faithful s) index action run

namespace Stepped

variable {colors : Nat → Nat} {s : Store} {index : Nat} {action : Action} {run run' : Tally}
  {told : List Happening} {flow : Flow}

theorem foldl_afterHappening (h : Stepped colors s index action run told flow run') :
    told.foldl Store.afterHappening s = s.stepped action := by
  cases h with
  | @step answer asked hanswered _ =>
      have hasked : asked.foldl Store.afterHappening s = s.stepped action := by
        rw [← s.afterRequest_step]
        generalize action.step.request = r at answer hanswered
        cases hanswered <;> rfl
      rw [List.cons_append, List.foldl_cons, List.foldl_append, Store.foldl_afterHappening_eq_self]
      · exact hasked
      · exact Report.write_not_mem _ run.executionId index action

/-- A step that reads a key shows what the store has there. -/
theorem told_of_read? (h : Stepped colors s index action run told flow run') {key : String}
    (hread : action.read? = some key) (hreads : s.reads key = true) :
    told = [
      .event (.stepStarted run.executionId index action.id action.kind.tag),
      .read key,
      .event (.fragmentAdded run.executionId index (.status
        ("Retrieved from localStorage: " ++ key ++ " = " ++
          storedText (Dict.get? s.entries key))))] := by
  have hstep := Action.step_of_read? hread
  have hget := Store.get_of_reads hreads
  cases h with
  | @step answer asked hanswered hfaithful =>
      generalize action.step = step at answer hanswered hfaithful hstep
      subst hstep
      cases hanswered with
      | read =>
          have hresult : answer = s.get key := hfaithful
          subst hresult
          rw [hget]
          rfl

theorem fragments_eq (h : Stepped colors s index action run told flow run') :
    run'.fragments =
      run.fragments ++ (told.filterMap Happening.event?).filterMap Event.fragment? := by
  cases h with
  | @step answer asked hanswered _ =>
      rw [hanswered.events_append, List.filterMap_cons_none rfl]
      cases (action.step.react run.presentation answer).2 with
      | fragment f => rfl
      | _ => exact (List.append_nil _).symm

end Stepped

theorem exists_stepped {w : World} (hw : w.isCancelled = false) (hspared : w.Spared) (index : Nat)
    (action : Action) (run : Tally) :
    let performed := action.step.perform index action run (w.begin run index action)
    ∃ told, Stepped w.draws.color w.store index action run told performed.1 performed.2.1 ∧
      World.Adds w performed.2.2 told := by
  intro performed
  have hbegun : World.Adds w (w.begin run index action)
      [.event (.stepStarted run.executionId index action.id action.kind.tag)] :=
    World.Adds.tell w hw
  rcases hbegun.spared hspared with ⟨hspared', hstore⟩
  have hfaithful := World.faithful_ask hspared' action.step.request
  rw [hstore] at hfaithful
  exact exists_performedIf hw hfaithful

/-!
## Runs
-/

inductive Stretch (colors : Nat → Nat) :
    Store → Nat → List Action → Tally → List (List Happening) → Tally → Prop where
  | none {s : Store} {index : Nat} {run : Tally} : Stretch colors s index [] run [] run
  | step {s : Store} {index : Nat} {action : Action} {rest : List Action} {run run₁ run' : Tally}
      {told : List Happening} {flow : Flow} {later : List (List Happening)}
      (hstep : Stepped colors s index action run told flow run₁)
      (hlater : Stretch colors (s.stepped action) (index + 1) rest run₁ later run') :
      Stretch colors s index (action :: rest) run (told :: later) run'

namespace Stretch

variable {colors : Nat → Nat} {s : Store} {index : Nat} {actions : List Action} {run run' : Tally}
  {told : List (List Happening)}

theorem foldl_afterHappening (h : Stretch colors s index actions run told run') :
    told.flatten.foldl Store.afterHappening s = actions.foldl Store.stepped s := by
  induction h with
  | none => rfl
  | step hstep _ ih =>
      rw [List.flatten_cons, List.foldl_append, hstep.foldl_afterHappening, List.foldl_cons, ih]

theorem fragments_eq (h : Stretch colors s index actions run told run') :
    run'.fragments =
      run.fragments ++ (told.flatten.filterMap Happening.event?).filterMap Event.fragment? := by
  induction h with
  | none => exact (List.append_nil _).symm
  | step hstep _ ih =>
      rw [List.flatten_cons, List.filterMap_append, List.filterMap_append, ih, hstep.fragments_eq,
        List.append_assoc]

theorem exists_stepped (h : Stretch colors s index actions run told run') {i : Nat}
    {action : Action} (haction : actions[i]? = some action) :
    ∃ run₁ segment flow run₂, run₁.executionId = run.executionId ∧ told[i]? = some segment ∧
      Stepped colors ((actions.take i).foldl Store.stepped s) (index + i) action run₁ segment flow
        run₂ := by
  induction h generalizing i with
  | none => cases haction
  | @step s index first rest run run₁ run' told flow later hstep _ ih =>
      cases i with
      | zero =>
          cases haction
          exact ⟨run, told, flow, run₁, rfl, rfl, hstep⟩
      | succ i =>
          rcases ih haction with ⟨run₂, segment, flow', run₃, hid, hsegment, hstepped⟩
          rw [Nat.add_assoc, Nat.add_comm 1 i] at hstepped
          exact ⟨run₂, segment, flow', run₃, hid.trans hstep.performed.executionId_eq, hsegment,
            hstepped⟩

theorem length_eq (h : Stretch colors s index actions run told run') :
    told.length = actions.length := by
  induction h with
  | none => rfl
  | step _ _ ih => rw [List.length_cons, List.length_cons, ih]

end Stretch

def Unfolds (index : Nat) (actions : List Action) (run : Tally) (w : World)
    (ran : Outcome RunResult × World) : Prop :=
  ∃ started left told run', actions = started ++ left ∧
    Stretch w.draws.color w.store index started run told run' ∧
    World.Adds w ran.2
      (told.flatten ++ (ran.1.finalEvents run.executionId).map Happening.event) ∧
    ∀ r, ran.1 = .done r → r.fragments = run'.fragments

namespace Stepped

variable {w w₁ w₂ : World} {index : Nat} {action : Action} {rest : List Action}
  {run run₁ : Tally} {told : List Happening} {flow : Flow} {ran : Outcome RunResult × World}

theorem unfolds_cons (hstep : Stepped w.draws.color w.store index action run told flow run₁)
    (htold : World.Adds w w₁ told) (haside : World.Aside w₁ w₂) (hspared : w.Spared)
    (hlater : w₂.Spared → Unfolds (index + 1) rest run₁ w₂ ran) :
    Unfolds index (action :: rest) run w ran := by
  have hadds := htold.idle haside
  rcases hadds.spared hspared with ⟨hspared', hstore⟩
  rcases hlater hspared' with ⟨started, left, later, run', hactions, hstretch, hlaterAdds, hdone⟩
  rw [hadds.colors_eq, hstore, hstep.foldl_afterHappening] at hstretch
  rw [hstep.performed.executionId_eq] at hlaterAdds
  refine ⟨action :: started, left, told :: later, run', congrArg _ hactions,
    .step hstep hstretch, ?_, hdone⟩
  rw [List.flatten_cons, List.append_assoc]
  exact hadds.trans hlaterAdds

theorem unfolds_last (hstep : Stepped w.draws.color w.store index action run told flow run₁)
    (htold : World.Adds w w₁ told) (haside : World.Aside w₁ w₂)
    (hfinal : World.Adds w₂ ran.2
      ((ran.1.finalEvents run₁.executionId).map Happening.event))
    (hdone : ∀ r, ran.1 = .done r → r.fragments = run₁.fragments) :
    Unfolds index (action :: rest) run w ran := by
  rw [hstep.performed.executionId_eq] at hfinal
  refine ⟨[action], rest, [told], run₁, rfl, .step hstep .none, ?_, hdone⟩
  rw [List.flatten_singleton]
  exact (htold.idle haside).trans hfinal

theorem unfolds_cancelled
    (hstep : Stepped w.draws.color w.store index action run told flow run₁)
    (htold : World.Adds w w₁ told) (haside : World.Aside w₁ w₂) :
    Unfolds index (action :: rest) run w (run₁.cancel w₂) := by
  apply hstep.unfolds_last htold haside
  · exact World.Adds.tell w₂ trivial
  · rintro r ⟨⟩

theorem unfolds_stuck (hstep : Stepped w.draws.color w.store index action run told flow run₁)
    (htold : World.Adds w w₁ told) (haside : World.Aside w₁ w₂) :
    Unfolds index (action :: rest) run w (.stuck, w₂) := by
  apply hstep.unfolds_last htold haside
  · exact World.Adds.of_idle rfl rfl
  · rintro r ⟨⟩

end Stepped

/-- In every run the steps of the first actions begin, one after the other. -/
theorem unfolds_performFrom (delay index : Nat) (actions : List Action) (run : Tally) {w : World}
    (hspared : w.Spared) :
    Unfolds index actions run w (performFrom delay index actions run w) := by
  induction actions generalizing index run w with
  | nil =>
      refine ⟨[], [], [], run, rfl, .none, World.Adds.tell w trivial, ?_⟩
      rintro r ⟨⟩
      rfl
  | cons action rest ih =>
      by_cases hcancelled : w.isCancelled = true
      · rw [performFrom, if_pos hcancelled]
        refine ⟨[], action :: rest, [], run, rfl, .none, World.Adds.tell w trivial, ?_⟩
        rintro r ⟨⟩
      · have hw : w.isCancelled = false := Bool.eq_false_iff.mpr hcancelled
        rw [performFrom_cons hw]
        rcases exists_stepped hw hspared index action run with ⟨told, hstep, htold⟩
        generalize action.step.perform index action run (w.begin run index action) = performed
          at hstep htold ⊢
        rcases performed with ⟨flow, run₁, w₁⟩
        dsimp only at hstep htold
        have hproceeds := proceeds_proceed delay (performFrom delay (index + 1) rest) flow run₁ w₁
        generalize proceed delay _ (flow, run₁, w₁) = ran at hproceeds ⊢
        cases hproceeds with
        | wentOn _ hwaited =>
            exact hstep.unfolds_cons htold (hwaited _ World.whileWaiting_aside) hspared
              (ih (index + 1) run₁)
        | stopped =>
            apply hstep.unfolds_last htold (World.whileWaiting_aside.refl w₁)
            · exact World.Adds.tell w₁ trivial
            · rintro r ⟨⟩
              rfl
        | cancelled _ hwaited _ =>
            exact hstep.unfolds_cancelled htold (hwaited _ World.whileWaiting_aside)
        | stuck => exact hstep.unfolds_stuck htold (World.whileWaiting_aside.refl w₁)

/-!
## What is stored and shown
-/

/-- The steps of these actions began, and this happened in each of them. -/
structure Begun (executionId : String) (started : List Action) (told : List (List Happening)) :
    Prop where
  length_eq : told.length = started.length
  begun : ∀ (i : Nat) (action : Action), started[i]? = some action → ∃ later,
    told[i]? = some (.event (.stepStarted executionId i action.id action.kind.tag) :: later) ∧
      ∀ what ∈ later, what.isStart = false

/-- What these actions wrote is in the store afterwards, and what they read was there. -/
structure Storage (executionId : String) (s : Store) (started : List Action)
    (told : List (List Happening)) (s' : Store) : Prop where
  entries_eq : s'.entries =
    (s.written started).foldl (fun d pair => Dict.insert d pair.1 pair.2) s.entries
  value_eq : ∀ key, Dict.get? s'.entries key =
    (lastValue? key (s.written started)).or (Dict.get? s.entries key)
  written_eq : s.written started = started.filterMap Action.write? ∨
    ∃ entries faults, s = .memory entries faults ∧ s.written started =
      (started.filterMap Action.write?).filter fun pair => decide (pair.1 ∉ faults.writes)
  shown : ∀ (i : Nat) (action : Action) (key : String), started[i]? = some action →
    action.read? = some key → s.reads key = true → told[i]? = some [
      .event (.stepStarted executionId i action.id action.kind.tag),
      .read key,
      .event (.fragmentAdded executionId i (.status
        ("Retrieved from localStorage: " ++ key ++ " = " ++
          storedText ((lastValue? key (s.written (started.take i))).or
            (Dict.get? s.entries key)))))]

namespace Stretch

variable {colors : Nat → Nat} {s : Store} {started : List Action} {run run' : Tally}
  {told : List (List Happening)}

theorem begun (h : Stretch colors s 0 started run told run') :
    Begun run.executionId started told where
  length_eq := h.length_eq
  begun := by
    intro i action haction
    rcases h.exists_stepped haction with ⟨run₁, segment, flow, run₂, hid, hsegment, hstepped⟩
    rcases hstepped.exists_start with ⟨later, rfl, hlater⟩
    rw [hid, Nat.zero_add] at hsegment
    exact ⟨later, hsegment, hlater⟩

theorem storage (h : Stretch colors s 0 started run told run') (hkeeps : s.Keeps started) :
    Storage run.executionId s started told (started.foldl Store.stepped s) := by
  have hsteady := hkeeps.steady
  constructor
  case entries_eq => exact Store.entries_foldl_stepped hsteady
  case value_eq =>
    intro key
    rw [Store.entries_foldl_stepped hsteady]
    exact Dict.get?_foldl_insert key _ s.entries
  case written_eq =>
    rcases hkeeps with ⟨entries, faults, rfl⟩ | hall
    · exact Or.inr ⟨entries, faults, rfl, Store.written_memory entries faults started⟩
    · exact Or.inl (Store.written_of_writesAll hall)
  case shown =>
    intro i action key haction hread hreads
    rcases h.exists_stepped haction with ⟨run₁, segment, flow, run₂, hid, hsegment, hstepped⟩
    have hbefore : s.Steady (started.take i) := by
      rw [← List.take_append_drop i started] at hsteady
      exact hsteady.of_append
    rw [← Store.reads_foldl_stepped s (started.take i)] at hreads
    have htold := hstepped.told_of_read? hread hreads
    rw [Store.entries_foldl_stepped hbefore, Dict.get?_foldl_insert, hid, Nat.zero_add] at htold
    rw [hsegment, htold]

end Stretch

/-- Whatever becomes of a run, its store is left as the steps leave it that began, if the
visitor leaves it alone. If moreover no step leaves something there that it could not write,
then what is stored is what was written, and what was stored is shown. -/
theorem exists_storage (delay : Nat) (actions : List Action) (p : Presentation) {w : World}
    (hspared : w.Spared) :
    let ran := execute delay actions p w
    let id := w.drawRunId.1
    ∃ started left told, actions = started ++ left ∧
      ran.2.doings = w.doings ++ .event (.runStarted id actions.length) ::
        (told.flatten ++ (ran.1.finalEvents id).map Happening.event) ∧
      Begun id started told ∧ ran.2.store = started.foldl Store.stepped w.store ∧
      (w.store.Keeps started → Storage id w.store started told ran.2.store) ∧
      ∀ r, ran.1 = .done r →
        r.fragments = (told.flatten.filterMap Happening.event?).filterMap Event.fragment? := by
  intro ran id
  have hdrawn : World.Adds w w.drawRunId.2 [] := .of_idle rfl rfl
  have hbegun := hdrawn.trans
    (.tell w.drawRunId.2 (e := .runStarted w.drawRunId.1 actions.length) trivial)
  rcases hbegun.spared hspared with ⟨hspared', hstore⟩
  rcases unfolds_performFrom delay 0 actions (Tally.start id p) hspared' with
    ⟨started, left, told, run', hactions, hstretch, hadds, hdone⟩
  have hall : World.Adds w ran.2 (.event (.runStarted id actions.length) ::
      (told.flatten ++ (ran.1.finalEvents id).map Happening.event)) := hbegun.trans hadds
  rw [hbegun.colors_eq, hstore] at hstretch
  have hran : ran.2.store = started.foldl Store.stepped w.store := by
    have hsteps : told.flatten.foldl Store.afterHappening w.store = _ :=
      hstretch.foldl_afterHappening
    rw [(hall.spared hspared).2, List.foldl_cons, List.foldl_append,
      Store.foldl_afterHappening_eq_self]
    · exact hsteps
    · intro key value written hmem
      rcases List.mem_map.mp hmem with ⟨e, _, he⟩
      cases he
  refine ⟨started, left, told, hactions, hall.doings_eq, hstretch.begun, hran, ?_, ?_⟩
  · rw [hran]
    exact hstretch.storage
  · intro r hr
    rw [hdone r hr, hstretch.fragments_eq]
    rfl

def storing : List Action := [
  ⟨"a", .getLocalStorage, ⟨[("key", .string "k")]⟩⟩,
  ⟨"b", .setLocalStorage, ⟨[("key", .string "k"), ("value", .string "v")]⟩⟩,
  ⟨"c", .setLocalStorage, ⟨[("key", .string "full"), ("value", .string "v")]⟩⟩,
  ⟨"d", .setLocalStorage, ⟨[("value", .string "lost")]⟩⟩,
  ⟨"e", .setLocalStorage, ⟨[("key", .string "k")]⟩⟩,
  ⟨"f", .getLocalStorage, ⟨[("key", .string "k")]⟩⟩,
  ⟨"g", .setLocalStorage, ⟨[("key", .string "late"), ("value", .string "v")]⟩⟩]

theorem exists_storage_storing :
    let w := World.fresh
      (.memory [("buttonWorkflow", "x"), ("k", "old")] ⟨[], ["full"], .other "full"⟩)
      (Host.prompt [] false) [⟨1700, .cancel⟩]
    w.Spared ∧ ∃ w' started left told,
      (execute 300 storing .initial w).2 = w' ∧ w'.isCancelled = true ∧
      w'.store.entries = [("buttonWorkflow", "x"), ("k", "")] ∧
      storing = started ++ left ∧ w.store.Keeps started ∧
      Storage w.drawRunId.1 w.store started told w'.store := by
  intro w
  have hspared : w.Spared := by
    intro c hmem
    cases List.mem_singleton.mp hmem
  have hcancelled : (execute 300 storing .initial w).2.isCancelled = true := by decide +kernel
  have hentries : (execute 300 storing .initial w).2.store.entries =
      [("buttonWorkflow", "x"), ("k", "")] := by
    decide +kernel
  rcases exists_storage 300 storing .initial hspared with
    ⟨started, left, told, hactions, _, _, _, hstorage, _⟩
  have hkeeps : w.store.Keeps started := Or.inl ⟨_, _, rfl⟩
  exact ⟨hspared, _, started, left, told, rfl, hcancelled, hentries, hactions, hkeeps,
    hstorage hkeeps⟩

def rereading : List Action := [
  ⟨"a", .setLocalStorage, ⟨[("key", .string "x"), ("value", .string "1")]⟩⟩,
  ⟨"b", .getLocalStorage, ⟨[("key", .string "x")]⟩⟩]

/-- The write fails because there is no file that could be written. Still the value is in the
store afterwards, and it is what the read shows. -/
theorem not_storage_blocked :
    let w := World.fresh Store.blocked (Host.prompt [] false) []
    let ran := execute 0 rereading .initial w
    w.Spared ∧ w.store.written rereading = [] ∧ w.store.get "x" = .ok none ∧
      ran.1.result? = some ⟨"0", [.status "Retrieved from localStorage: x = 1"], .initial,
        [⟨0, "a", "failed to write 'x': io error: Is a directory (os error 21)"⟩], .completed⟩ ∧
      ran.2.store.entries = [("k", "v"), ("x", "1")] ∧
      ∀ told, ¬ Storage w.drawRunId.1 w.store rereading told ran.2.store := by
  intro w ran
  have hwritten : w.store.written rereading = [] := by decide +kernel
  have hentries : ran.2.store.entries = [("k", "v"), ("x", "1")] := by decide +kernel
  refine ⟨fun _ => List.not_mem_nil, hwritten, rfl, by decide +kernel, hentries, ?_⟩
  intro told h
  have hsame := h.entries_eq
  rw [hwritten, hentries] at hsame
  exact absurd hsame (by decide)

end ButtonFlow
