import ButtonFlow.Proofs.Dict
import ButtonFlow.Proofs.Run.Report
import ButtonFlow.Workflow.Edit
import Mathlib.Data.List.Forall2

/-!
# Which settings matter

The form of a kind lists the settings that its actions read, and the step and the description
of an action read them as texts. So two actions of one kind, under one id, are the same to a
run if their settings have the same texts in the form: whatever else is set, and whatever is
set to a value that does not count. Each entry of a form matters, so a user is told of exactly
those settings that never can.
-/

namespace ButtonFlow

/-!
## Values that do not count
-/

inductive Json.Value.Blank : Json.Value → Prop
  | null : Blank .null
  | no : Blank (.bool false)
  | zero (n : Json.Number) (h : n.nonzero = false) : Blank (.number n)
  | empty : Blank (.string "")
  | array (items : List Json.Value) : Blank (.array items)
  | object (entries : List (String × Json.Value)) : Blank (.object entries)

namespace Config

theorem truthyText?_eq_none_iff {value : Json.Value} : truthyText? value = none ↔ value.Blank := by
  constructor
  · intro h
    cases value with
    | null => exact .null
    | bool b =>
        cases b with
        | false => exact .no
        | true => cases h
    | number n =>
        cases hn : n.nonzero with
        | false => exact .zero n hn
        | true =>
            have htext : truthyText? (.number n) = some n.text := if_pos hn
            rw [htext] at h
            cases h
    | string s =>
        by_cases hs : s.isEmpty = true
        · rw [String.isEmpty_iff.mp hs]
          exact .empty
        · have htext : truthyText? (.string s) = some s := if_neg hs
          rw [htext] at h
          cases h
    | array items => exact .array items
    | object entries => exact .object entries
  · intro h
    cases h with
    | zero n hn => exact if_neg (by simp [hn])
    | _ => rfl

def DifferAt (key : String) (c d : Config) : Prop :=
  ∀ other, other ≠ key → c.get? other = d.get? other

theorem differAt_insert (config : Config) (key : String) (value : Json.Value) :
    DifferAt key config (config.insert key value) := by
  intro other hother
  exact ((Dict.get?_insert key value other config.entries).trans (if_neg hother.symm)).symm

theorem DifferAt.text?_eq {key : String} {c d : Config} (h : DifferAt key c d) {other : String}
    (hother : other ≠ key) : c.text? other = d.text? other :=
  congrArg (fun value? => value?.bind truthyText?) (h other hother)

theorem text?_insert_of_blank {value : Json.Value} (hvalue : value.Blank) (config : Config)
    (key other : String) :
    (config.insert key value).text? other = (config.erase key).text? other := by
  have hinsert := Dict.get?_insert key value other config.entries
  have herase := Dict.get?_erase key other config.entries
  unfold text? get? insert erase
  rw [hinsert, herase]
  by_cases hkey : key = other
  · rw [if_pos hkey, if_pos hkey]
    exact truthyText?_eq_none_iff.mpr hvalue
  · rw [if_neg hkey, if_neg hkey]

end Config

/-!
## Actions that are alike
-/

/-- Two actions of one kind under one id, with the same texts in the form of the kind. -/
structure Action.Alike (a b : Action) : Prop where
  id : a.id = b.id
  kind : a.kind = b.kind
  text : ∀ field ∈ a.kind.fields, a.config.text? field.key = b.config.text? field.key

namespace Action

theorem Alike.exists_configs {a b : Action} (h : a.Alike b) :
    ∃ kind c d, a = ⟨a.id, kind, c⟩ ∧ b = ⟨a.id, kind, d⟩ ∧
      (∀ key, kind.uses key = true → c.text? key = d.text? key) ∧
      ∀ key default, kind.uses key = true → c.textOr key default = d.textOr key default := by
  have htext : ∀ key, a.kind.uses key = true → a.config.text? key = b.config.text? key := by
    intro key hkey
    rcases List.any_eq_true.mp hkey with ⟨field, hfield, hname⟩
    rw [← beq_iff_eq.mp hname]
    exact h.text field hfield
  refine ⟨a.kind, a.config, b.config, rfl, ?_, htext, ?_⟩
  · rw [h.id, h.kind]
  · intro key default hkey
    exact congrArg (fun text? => text?.getD default) (htext key hkey)

theorem Alike.step_eq {a b : Action} (h : a.Alike b) : a.step = b.step := by
  rcases h.exists_configs with ⟨kind, c, d, ha, hb, htext, htextOr⟩
  rw [ha, hb]
  cases kind with
  | alert => exact congrArg Step.alert (htextOr "message" _ rfl)
  | showText => exact congrArg Step.showText (htextOr "text" _ rfl)
  | showImage => exact congrArg Step.showImage (htext "url" rfl)
  | setLocalStorage =>
      have hkey := htext "key" rfl
      have hvalue := htextOr "value" "" rfl
      simp only [step, hkey, hvalue]
  | getLocalStorage => exact congrArg Step.getStorage (htext "key" rfl)
  | promptAndShow =>
      have hmessage := htextOr "promptMessage" "Please enter a value:" rfl
      have hbefore := htextOr "prefix" "" rfl
      have hafter := htextOr "suffix" "" rfl
      simp only [step, hmessage, hbefore, hafter]
  | changeButtonColor => exact congrArg Step.changeButtonColor (htext "color" rfl)
  | refreshPage => rfl
  | increaseButtonSize => rfl
  | closeWindow => rfl
  | disableButton => rfl
  | other tag => rfl

theorem Alike.describe_eq {a b : Action} (h : a.Alike b) : a.describe = b.describe := by
  rcases h.exists_configs with ⟨kind, c, d, ha, hb, htext, htextOr⟩
  rw [ha, hb]
  cases kind with
  | alert => simp only [describe, htextOr "message" _ rfl]
  | showText => simp only [describe, htextOr "text" _ rfl]
  | showImage => simp only [describe, htext "url" rfl]
  | setLocalStorage =>
      simp only [describe, htextOr "key" _ rfl, htextOr "value" _ rfl]
  | getLocalStorage => simp only [describe, htextOr "key" _ rfl]
  | promptAndShow => simp only [describe, htextOr "promptMessage" _ rfl]
  | changeButtonColor => simp only [describe, htext "color" rfl]
  | refreshPage => rfl
  | increaseButtonSize => rfl
  | closeWindow => rfl
  | disableButton => rfl
  | other tag => rfl

end Action

/-!
## Runs of actions that are alike
-/

theorem Step.perform_congr {a b : Action} (hid : a.id = b.id) (hkind : a.kind = b.kind)
    (step : Step) (index : Nat) (run : Tally) (w : World) :
    step.perform index a run w = step.perform index b run w := by
  have htally : ∀ report : Report, report.tally index a run = report.tally index b run := by
    intro report
    cases report <;> simp only [Report.tally, hid]
  have hhappenings : ∀ report : Report,
      report.happenings run.executionId index a = report.happenings run.executionId index b := by
    intro report
    cases report <;> simp only [Report.happenings, hid, hkind]
  rw [perform_eq, perform_eq]
  dsimp only
  rw [htally, hhappenings]

theorem performFrom_alike {as bs : List Action} (h : List.Forall₂ Action.Alike as bs)
    (delay index : Nat) (run : Tally) (w : World) :
    performFrom delay index as run w = performFrom delay index bs run w := by
  induction h generalizing index run w with
  | nil => rfl
  | cons hfirst hrest ih =>
      rename_i a b as bs
      cases hw : w.isCancelled with
      | true => rw [performFrom, performFrom, if_pos hw, if_pos hw]
      | false =>
          have hnext : performFrom delay (index + 1) as = performFrom delay (index + 1) bs := by
            funext run w
            exact ih (index + 1) run w
          have hbegin : w.begin run index a = w.begin run index b := by
            unfold World.begin
            rw [hfirst.id, hfirst.kind]
          rw [performFrom_cons hw, performFrom_cons hw, hnext, hbegin, hfirst.step_eq,
            Step.perform_congr hfirst.id hfirst.kind]

theorem execute_alike {as bs : List Action} (h : List.Forall₂ Action.Alike as bs)
    (delay : Nat) (p : Presentation) (w : World) :
    execute delay as p w = execute delay bs p w := by
  unfold execute
  dsimp only
  rw [h.length_eq]
  exact performFrom_alike h _ _ _ _

/-!
## Settings that never matter
-/

namespace Kind

/-- Whatever an action of this kind has under the key, its step and description are the
same. -/
def Ignores (kind : Kind) (key : String) : Prop :=
  ∀ id (c d : Config), c.DifferAt key d →
    (Action.mk id kind c).step = (Action.mk id kind d).step ∧
      (Action.mk id kind c).describe = (Action.mk id kind d).describe

theorem uses_of_mem {kind : Kind} {field : FormField} (h : field ∈ kind.fields) :
    kind.uses field.key = true :=
  List.any_eq_true.mpr ⟨field, h, beq_self_eq_true _⟩

theorem step_ne_of_uses {kind : Kind} {key : String} (h : kind.uses key = true) (id : String) :
    (Action.blank id kind).step ≠
      (Action.mk id kind (Config.empty.insert key (.string "x"))).step := by
  rcases List.any_eq_true.mp h with ⟨field, hfield, hname⟩
  rw [← beq_iff_eq.mp hname]
  have hsteps : ∀ field ∈ kind.fields, (Action.blank "" kind).step ≠
      (Action.mk "" kind (Config.empty.insert field.key (.string "x"))).step := by
    cases kind with
    | other tag =>
        intro _ hmem
        cases hmem
    | _ => decide +kernel
  exact hsteps field hfield

theorem ignores_iff {kind : Kind} {key : String} : kind.Ignores key ↔ kind.uses key = false := by
  constructor
  · intro h
    cases huses : kind.uses key with
    | false => rfl
    | true =>
        have hsame := h "" _ _ (Config.empty.differAt_insert key (.string "x"))
        exact absurd hsame.1 (step_ne_of_uses huses "")
  · intro huses id c d hdiffer
    have halike : Action.Alike ⟨id, kind, c⟩ ⟨id, kind, d⟩ := by
      constructor
      · rfl
      · rfl
      · intro field hfield
        apply hdiffer.text?_eq
        rintro rfl
        rw [uses_of_mem hfield] at huses
        cases huses
    exact ⟨halike.step_eq, halike.describe_eq⟩

end Kind

/-!
## Warnings
-/

namespace Edit

/-- The settings that an edit gives, with the kind of the action, and its id unless it is
new. -/
def given? (w : Workflow) : Edit → Option (Option String × Kind × List Setting)
  | .add kind settings => some (none, kind, settings)
  | .configure target settings =>
      (w.resolve? target).bind fun id =>
        (w.find? id).map fun action => (some id, action.kind, settings)
  | _ => none

/-- The edit sets a key of an action for which the key can never matter. -/
def WastesOn (w : Workflow) (edit : Edit) (id : Option String) (tag key : String) : Prop :=
  ∃ kind settings, edit.given? w = some (id, kind, settings) ∧ kind.tag = tag ∧
    key ∈ settings.map (·.key) ∧ kind.Ignores key

theorem mem_unusedNotes {id id' : Option String} {kind : Kind} {settings : List Setting}
    {tag key : String} :
    EditNote.unusedSetting id' tag key ∈ unusedNotes id kind settings ↔
      id = id' ∧ kind.tag = tag ∧ key ∈ settings.map (·.key) ∧ kind.Ignores key := by
  unfold unusedNotes
  constructor
  · intro h
    rcases List.mem_map.mp h with ⟨setting, hsetting, hnote⟩
    rcases List.mem_filter.mp hsetting with ⟨hmem, hunused⟩
    cases hnote
    have hignores := Kind.ignores_iff.mpr (Bool.not_eq_true' _ ▸ hunused)
    exact ⟨rfl, rfl, List.mem_map_of_mem hmem, hignores⟩
  · rintro ⟨rfl, rfl, hkey, hignores⟩
    rcases List.mem_map.mp hkey with ⟨setting, hmem, rfl⟩
    have hunused : (!kind.uses setting.key) = true := by
      rw [Kind.ignores_iff.mp hignores]
      rfl
    exact List.mem_map.mpr ⟨setting, List.mem_filter.mpr ⟨hmem, hunused⟩, rfl⟩

theorem wastesOn_iff {w : Workflow} {edit : Edit} {id : Option String} {kind : Kind}
    {settings : List Setting} (h : edit.given? w = some (id, kind, settings)) {id' : Option String}
    {tag key : String} :
    edit.WastesOn w id' tag key ↔
      EditNote.unusedSetting id' tag key ∈ unusedNotes id kind settings := by
  rw [mem_unusedNotes]
  constructor
  · rintro ⟨kind', settings', hgiven, htag, hkey, hignores⟩
    cases h.symm.trans hgiven
    exact ⟨rfl, htag, hkey, hignores⟩
  · rintro ⟨rfl, htag, hkey, hignores⟩
    exact ⟨kind, settings, h, htag, hkey, hignores⟩

theorem not_wastesOn {w : Workflow} {edit : Edit} (h : edit.given? w = none) {id : Option String}
    {tag key : String} : ¬ edit.WastesOn w id tag key := by
  rintro ⟨kind, settings, hgiven, -⟩
  cases h.symm.trans hgiven

/-- A user is told of those settings that can never matter. -/
theorem mem_apply_iff_wastesOn (fresh : String) (w : Workflow) (edit : Edit) {id : Option String}
    {tag key : String} :
    EditNote.unusedSetting id tag key ∈ (edit.apply fresh w).1 ↔ edit.WastesOn w id tag key := by
  cases edit with
  | add kind settings =>
      have hgiven : (Edit.add kind settings).given? w = some (none, kind, settings) := rfl
      rw [wastesOn_iff hgiven]
      unfold apply
      dsimp only
      rw [List.mem_append, List.mem_append]
      constructor
      · rintro ((hunknown | hunused) | hadded)
        · split at hunknown
          · cases hunknown
          · cases List.mem_singleton.mp hunknown
        · exact hunused
        · cases List.mem_singleton.mp hadded
      · intro hunused
        exact .inl (.inr hunused)
  | configure target settings =>
      cases htarget : w.resolve? target with
      | none =>
          have hgiven : (Edit.configure target settings).given? w = none := by
            simp only [given?, htarget, Option.bind_none]
          simp only [apply, htarget, List.not_mem_nil, false_iff]
          exact not_wastesOn hgiven
      | some found =>
          cases hfind : w.find? found with
          | none =>
              have hgiven : (Edit.configure target settings).given? w = none := by
                simp only [given?, htarget, hfind, Option.bind_some, Option.map_none]
              simp only [apply, htarget, hfind, Option.toList_none, List.flatMap_nil,
                List.not_mem_nil, false_iff]
              exact not_wastesOn hgiven
          | some action =>
              have hgiven : (Edit.configure target settings).given? w =
                  some (some found, action.kind, settings) := by
                simp only [given?, htarget, hfind, Option.bind_some, Option.map_some]
              simp only [apply, htarget, hfind, Option.toList_some, List.flatMap_singleton]
              exact (wastesOn_iff hgiven).symm
  | remove target =>
      refine iff_of_false ?_ (not_wastesOn rfl)
      cases htarget : w.resolve? target with
      | none => simp [apply, htarget]
      | some found => simp [apply, htarget]
  | move source target =>
      refine iff_of_false ?_ (not_wastesOn rfl)
      unfold apply
      dsimp only
      split <;> exact List.not_mem_nil
  | relabel label => exact iff_of_false List.not_mem_nil (not_wastesOn rfl)
  | clear => exact iff_of_false List.not_mem_nil (not_wastesOn rfl)

end Edit

/-!
## The form decides
-/

/-- Nothing but the texts in its form decides what an action does, and each of them does. -/
theorem form_decides :
    (∀ a b : Action, a.Alike b → a.step = b.step ∧ a.describe = b.describe) ∧
    (∀ (a : Action) (key : String) (value : Json.Value), value.Blank →
      Action.Alike { a with config := a.config.insert key value }
        { a with config := a.config.erase key }) ∧
    (∀ as bs : List Action, List.Forall₂ Action.Alike as bs →
      ∀ delay p w, execute delay as p w = execute delay bs p w) ∧
    (∀ (kind : Kind) (id : String), ∀ field ∈ kind.fields, ∃ c d : Config,
      c.DifferAt field.key d ∧ (Action.mk id kind c).step ≠ (Action.mk id kind d).step) ∧
    (∀ (fresh : String) (w : Workflow) (edit : Edit) (id : Option String) (tag key : String),
      EditNote.unusedSetting id tag key ∈ (edit.apply fresh w).1 ↔
        edit.WastesOn w id tag key) := by
  refine ⟨?_, ?_, ?_, ?_, ?_⟩
  · intro a b h
    exact ⟨h.step_eq, h.describe_eq⟩
  · intro a key value hvalue
    constructor
    · rfl
    · rfl
    · intro field _
      exact Config.text?_insert_of_blank hvalue a.config key field.key
  · intro as bs h delay p w
    exact execute_alike h delay p w
  · intro kind id field hfield
    exact ⟨Config.empty, _, Config.empty.differAt_insert field.key (.string "x"),
      Kind.step_ne_of_uses (Kind.uses_of_mem hfield) id⟩
  · intro fresh w edit id tag key
    exact edit.mem_apply_iff_wastesOn fresh w

theorem form_decides_for_two_alerts :
    let plain := Action.mk "a" .alert (Config.ofList [("message", .string "Hi")])
    let cluttered := Action.mk "a" .alert
      (Config.ofList [("message", .string "Hi"), ("color", .string "red"), ("url", .array [])])
    plain.Alike cluttered ∧
      (∀ p w, execute 300 [plain] p w = execute 300 [cluttered] p w) ∧
      EditNote.unusedSetting (some "a") "alert" "color" ∈
        ((Edit.configure "1" [⟨"color", "red"⟩, ⟨"message", "Ho"⟩]).apply "b"
          ⟨"Go", [plain]⟩).1 := by
  intro plain cluttered
  have halike : plain.Alike cluttered := by
    refine ⟨rfl, rfl, ?_⟩
    intro field hfield
    cases List.mem_singleton.mp hfield
    decide +kernel
  rcases form_decides with ⟨-, -, hrun, -, hwarn⟩
  have hpair : List.Forall₂ Action.Alike [plain] [cluttered] := .cons halike .nil
  refine ⟨halike, hrun _ _ hpair 300, (hwarn _ _ _ _ _ _).mpr ?_⟩
  refine ⟨.alert, [⟨"color", "red"⟩, ⟨"message", "Ho"⟩], rfl, rfl, List.mem_cons_self, ?_⟩
  exact Kind.ignores_iff.mpr rfl

end ButtonFlow
