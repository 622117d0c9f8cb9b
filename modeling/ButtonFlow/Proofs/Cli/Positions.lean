import ButtonFlow.Proofs.Cli.EditRuns
import ButtonFlow.Proofs.Workflow.Merge

/-!
# Positions

An action can be meant by its position, counted from one. A position stands for the id of the
action that is found there, and so it means this action alone if no other one has the id. A
text that is neither an id nor a position means nothing, and an edit of what it means writes
nothing.
-/

namespace ButtonFlow

namespace Workflow

/-!
## What a text means
-/

/-- The text is no id, but the position of the action at an index. -/
structure Points (w : Workflow) (target : String) (i : Nat) : Prop where
  foreign : target ∉ w.ids
  position : Decimal.readNatural wordBound target = .ok (i + 1)
  lt : i < w.actions.length

def Means (w : Workflow) (target : String) : Prop :=
  target ∈ w.ids ∨ ∃ i, w.Points target i

theorem resolve?_of_foreign {w : Workflow} {target : String} (hforeign : target ∉ w.ids) :
    w.resolve? target =
      match Decimal.readNatural wordBound target with
      | .ok (i + 1) => w.actions[i]?.map (·.id)
      | _ => none := by
  unfold resolve?
  rw [find?_eq_none_iff.mpr hforeign]
  exact if_neg Bool.false_ne_true

theorem Points.resolve?_eq {w : Workflow} {target : String} {before after : List Action}
    {action : Action} (h : w.Points target before.length)
    (hactions : w.actions = before ++ action :: after) : w.resolve? target = some action.id := by
  have haction : w.actions[before.length]? = some action := by
    rw [hactions, List.getElem?_append_right (Nat.le_refl _), Nat.sub_self]
    rfl
  rw [resolve?_of_foreign h.foreign, h.position]
  dsimp only
  rw [haction]
  rfl

theorem resolve?_eq_none {w : Workflow} {target : String} (h : ¬ w.Means target) :
    w.resolve? target = none := by
  have hforeign : target ∉ w.ids := fun hid => h (.inl hid)
  rw [resolve?_of_foreign hforeign]
  split
  · rename_i i hposition
    cases haction : w.actions[i]? with
    | none => rfl
    | some action =>
        have hlt := (List.getElem?_eq_some_iff.mp haction).1
        exact absurd (.inr ⟨i, hforeign, hposition, hlt⟩) h
  · rfl

/-!
## Removing an action that has its id alone
-/

theorem remove_split {w : Workflow} {before after : List Action} {action : Action}
    (hactions : w.actions = before ++ action :: after)
    (halone : ∀ other ∈ before ++ after, other.id ≠ action.id) :
    w.remove action.id = { w with actions := before ++ after } := by
  have hkept : (before ++ after).filter (fun other => other.id != action.id) = before ++ after := by
    apply List.filter_eq_self.mpr
    intro other hother
    simpa using halone other hother
  unfold remove
  rw [hactions, List.filter_append, List.filter_cons_of_neg (by simp), ← List.filter_append, hkept]

/-!
## Edits of what a text means
-/

theorem apply_remove_of_resolve? {w : Workflow} {target id : String} (fresh : String)
    (h : w.resolve? target = some id) :
    ((Edit.remove target).apply fresh w).2 = .ok (w.remove id) := by
  simp only [Edit.apply, h]

theorem apply_configure_of_resolve? {w : Workflow} {target id : String} (fresh : String)
    (settings : List Setting) (h : w.resolve? target = some id) :
    ((Edit.configure target settings).apply fresh w).2 = .ok (w.merge id settings) := by
  simp only [Edit.apply, h]

theorem apply_of_not_means {w : Workflow} {target : String} {settings : List Setting} {e : Edit}
    (fresh : String) (he : e ∈ [Edit.remove target, .configure target settings])
    (h : ¬ w.Means target) : (e.apply fresh w).2 = .error (.noSuchAction target) := by
  have hresolve := resolve?_eq_none h
  rcases List.mem_pair.mp he with rfl | rfl
  · simp only [Edit.apply, hresolve]
  · simp only [Edit.apply, hresolve]

end Workflow

namespace Cli

/-- A position means the action that is found there: it alone is removed if no other action has
its id, and it alone is configured if no earlier one has it. With a text that means nothing,
nothing is written. -/
theorem position_means_one (w : Workflow) (target fresh : String) (settings : List Setting) :
    (∀ before action after, w.actions = before ++ action :: after →
      w.Points target before.length →
      ((∀ other ∈ before ++ after, other.id ≠ action.id) →
        ((Edit.remove target).apply fresh w).2 = .ok { w with actions := before ++ after }) ∧
      ((∀ earlier ∈ before, earlier.id ≠ action.id) →
        ((Edit.configure target settings).apply fresh w).2 =
          .ok { w with actions :=
            before ++ { action with config := action.config.merge settings } :: after })) ∧
    (¬ w.Means target → ∀ e ∈ [Edit.remove target, .configure target settings],
      (e.apply fresh w).2 = .error (.noSuchAction target) ∧
      ∀ s tree, Slot.load Slot.usual s = w →
        (editStore fresh e s tree).exitCode = 1 ∧ (editStore fresh e s tree).tree = tree) := by
  constructor
  · intro before action after hactions hpoints
    have hresolve := hpoints.resolve?_eq hactions
    constructor
    · intro halone
      rw [Workflow.apply_remove_of_resolve? fresh hresolve, Workflow.remove_split hactions halone]
    · intro hfirst
      rw [Workflow.apply_configure_of_resolve? fresh settings hresolve,
        Workflow.merge_split hactions hfirst]
  · intro hmeans e he
    have hrefused := Workflow.apply_of_not_means fresh he hmeans
    refine ⟨hrefused, ?_⟩
    rintro s tree rfl
    exact editStore_of_error tree hrefused

theorem exists_load? {w : Workflow} (hw : w.Storable) (slot : String) :
    ∃ s, Slot.load? slot s = .ok (some w) := by
  have hget : (Store.memory [(slot, Workflow.format.print w)] Faults.none).get slot =
      .ok (some (Workflow.format.print w)) := by
    simp [Store.get, Faults.none, Dict.get?_cons]
  refine ⟨_, (Slot.load?_of_get hget).trans ?_⟩
  rw [Workflow.parse_print_of_storable hw]

/-! A workflow can be saved in which two actions share an id. -/

def twins : Workflow :=
  ⟨"Go", [Action.blank "a" .showText, Action.blank "b" .showText, Action.blank "a" .showText]⟩

theorem storable_twins : twins.Storable := by
  have htag : Kind.ofTag "showText" = .showText := by decide
  have hnone : (Workflow.labelled "Go").Storable := fun _ h => nomatch h
  have hadded := Workflow.storable_add (Workflow.storable_add (Workflow.storable_add hnone
    "a" "showText") "b" "showText") "a" "showText"
  rw [htag] at hadded
  exact hadded

theorem points_twins : twins.Points "3" 2 where
  foreign := by decide
  position := by decide +kernel
  lt := by decide

/-- The action between the two has its id alone. There is no fourth action. -/
theorem position_means_one_between :
    twins.Points "2" 1 ∧ ¬ twins.Means "4" ∧
      ((Edit.remove "2").apply "" twins).2 =
        .ok ⟨"Go", [Action.blank "a" .showText, Action.blank "a" .showText]⟩ ∧
      ((Edit.configure "2" [⟨"text", "x"⟩]).apply "" twins).2 =
        .ok ⟨"Go", [Action.blank "a" .showText,
          ⟨"b", .showText, Config.empty.insert "text" (.string "x")⟩,
          Action.blank "a" .showText]⟩ ∧
      ((Edit.remove "4").apply "" twins).2 = .error (.noSuchAction "4") := by
  have hpoints : twins.Points "2" 1 := ⟨by decide, by decide +kernel, by decide⟩
  have hmeans : ¬ twins.Means "4" := by
    rintro (hid | ⟨i, hfourth⟩)
    · revert hid
      decide
    · have hread : Decimal.readNatural wordBound "4" = .ok (3 + 1) := by decide +kernel
      have hi : 3 + 1 = i + 1 := Except.ok.inj (hread.symm.trans hfourth.position)
      have hlt : i < 3 := hfourth.lt
      omega
  have hsecond := (position_means_one twins "2" "" [⟨"text", "x"⟩]).1
    [Action.blank "a" .showText] (Action.blank "b" .showText) [Action.blank "a" .showText] rfl
    hpoints
  have hfourth := (position_means_one twins "4" "" []).2 hmeans
  refine ⟨hpoints, hmeans, hsecond.1 (by decide), hsecond.2 (by decide), ?_⟩
  exact (hfourth _ List.mem_cons_self).1

/-- The position of the last action stands for the first one as well. -/
theorem position_means_twins :
    (∃ s, Slot.load? Slot.usual s = .ok (some twins)) ∧ twins.Points "3" 2 ∧
      ((Edit.remove "3").apply "" twins).2 = .ok ⟨"Go", [Action.blank "b" .showText]⟩ ∧
      ((Edit.remove "3").apply "" twins).2 ≠
        .ok { twins with actions := twins.actions.eraseIdx 2 } ∧
      ((Edit.configure "3" [⟨"text", "x"⟩]).apply "" twins).2 =
        .ok ⟨"Go", [⟨"a", .showText, Config.empty.insert "text" (.string "x")⟩,
          Action.blank "b" .showText, Action.blank "a" .showText]⟩ := by
  have hremove : ((Edit.remove "3").apply "" twins).2 =
      .ok ⟨"Go", [Action.blank "b" .showText]⟩ := rfl
  refine ⟨exists_load? storable_twins Slot.usual, points_twins, hremove, ?_, rfl⟩
  rw [hremove]
  intro hsame
  have hactions := congrArg Workflow.actions (Except.ok.inj hsame)
  exact absurd (congrArg List.length hactions) (by decide)

end Cli

end ButtonFlow
