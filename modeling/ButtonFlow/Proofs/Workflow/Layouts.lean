import ButtonFlow.Proofs.Json.Arranged
import ButtonFlow.Proofs.Workflow.Format
import Mathlib.Data.List.Basic
import Mathlib.Data.List.Forall2

/-!
# Layouts of workflows

A workflow can be written in many ways. The fields of the workflow and of its actions may stand
in any order among foreign ones, or in arrays, and those that hold their defaults may be left
out. Between the tokens there may be blanks, and texts may be spelled with any escapes. All
these texts are parsed as the workflow that is printed. A field that stands twice in an object
is refused.
-/

namespace ButtonFlow

open Json

namespace Json

theorem read_string_of_names {t : Tree} {s : String} (h : t.Names s) (room : Nat) :
    Format.string.read room t = .ok s := by
  rcases h with ⟨pieces, rfl, hread⟩
  exact hread

end Json

/-!
## Actions
-/

namespace Action

/-- The fields of an action, and what may stand for them. -/
def parts (action : Action) : List Part :=
  [⟨"id", (·.Names action.id), False⟩,
    ⟨"type", (·.Names action.kind.tag), False⟩,
    ⟨"config", (· = (Value.object action.config.entries).tree), action.config = Config.empty⟩]

theorem whole_of_parts {action : Action} (hexact : action.Exact) :
    ∀ part ∈ action.parts, ∀ t, part.Stands t → t.Whole := by
  intro part hpart t ht
  simp only [parts, List.mem_cons, List.not_mem_nil, or_false] at hpart
  rcases hpart with rfl | rfl | rfl
  · exact Tree.Names.whole ht
  · exact Tree.Names.whole ht
  · cases ht
    exact Value.whole_tree hexact.config.floatFree

theorem match_parts {action : Action} {room : Nat} (hexact : action.Exact)
    (hdepth : action.config.depth ≤ room) :
    fields.Match room (action.id, action.kind, action.config, ()) action.parts := by
  have htag : Kind.ofTag action.kind.tag = action.kind := by
    rcases hexact.kind with ⟨tag, hkind⟩
    rw [hkind]
    exact Kind.ofTag_tag_ofTag tag
  refine .field (by decide) ?_ (.field (by decide) ?_ (.field (by decide) ?_ .done))
  · exact ⟨rfl, fun _ ht => read_string_of_names ht room, False.elim, False.elim⟩
  · refine ⟨rfl, ?_, False.elim, False.elim⟩
    intro t ht
    change (Format.string.read room t).map Kind.ofTag = _
    rw [read_string_of_names ht]
    exact congrArg Except.ok htag
  · refine ⟨rfl, ?_, fun h => congrArg some h.symm, fun h => congrArg some h.symm⟩
    rintro t rfl
    exact ((Config.restores hexact.config).read_tree room).trans (if_pos hdepth)

theorem read_arranged {action : Action} {room : Nat} (hexact : action.Exact)
    (hdepth : action.config.depth ≤ room) {t : Tree} (ht : Arranged action.parts t) :
    format.read (room + 1) t = .ok action := by
  change (fields.read "struct Action" (room + 1) t).map _ = _
  rw [Fields.read_arranged (match_parts hexact hdepth) "struct Action" ht]
  rfl

theorem read_repeats {action : Action} {room : Nat} (hexact : action.Exact)
    (hdepth : action.config.depth ≤ room) {name : String} {t : Tree}
    (ht : Repeats action.parts name t) :
    format.read (room + 1) t = .error (.misfit (.duplicateField name)) := by
  change (fields.read "struct Action" (room + 1) t).map _ = _
  rw [Fields.read_repeats (match_parts hexact hdepth) "struct Action" ht]
  rfl

theorem chosen_entryTrees (action : Action) : Chosen action.parts
    (Value.entryTrees (fields.write (action.id, action.kind, action.config, ()))) :=
  .kept (Tree.names_spelled _) (Tree.names_spelled _)
    (.kept (Tree.names_spelled _) (Tree.names_spelled _)
      (.kept (Tree.names_spelled _) rfl .nil))

theorem arranged_tree (action : Action) : Arranged action.parts (format.write action).tree :=
  .object action.chosen_entryTrees.scattered

end Action

/-!
## Workflows
-/

/-- The items of an array begin with arrangements of these actions, until one of them has a
field twice. -/
inductive ActionsRepeat (name : String) : List Action → List Tree → Prop where
  | here {action : Action} {actions : List Action} {item : Tree} {items : List Tree}
      (hitem : Repeats action.parts name item) (hitems : ∀ other ∈ items, other.Whole) :
      ActionsRepeat name (action :: actions) (item :: items)
  | later {action : Action} {actions : List Action} {item : Tree} {items : List Tree}
      (hitem : Arranged action.parts item) (hitems : ActionsRepeat name actions items) :
      ActionsRepeat name (action :: actions) (item :: items)

namespace Workflow

/-- The fields of a workflow, where an array of such items may stand for the actions. -/
def partsWith (w : Workflow) (Items : List Tree → Prop) (Omissible : Prop) : List Part :=
  [⟨"label", (·.Names w.label), w.label = defaultLabel⟩,
    ⟨"actions", fun t => ∃ items, t = .array items none ∧ Items items, Omissible⟩]

def parts (w : Workflow) : List Part :=
  w.partsWith (List.Forall₂ (fun action item => Arranged action.parts item) w.actions)
    (w.actions = [])

def repeating (w : Workflow) (name : String) : Part :=
  ⟨"actions", fun t => ∃ items, t = .array items none ∧ ActionsRepeat name w.actions items, False⟩

/-- The documents in which a field of the workflow or of one of its actions stands twice. What
stands behind such an action in an object may be anything, also a field that stands twice. -/
inductive Repeats (w : Workflow) (name : String) : Tree → Prop where
  | field {t : Tree} (h : Json.Repeats w.parts name t) : Repeats w name t
  | action {t : Tree} (h : Arranged (w.partsWith (ActionsRepeat name w.actions) False) t) :
      Repeats w name t
  | upToAction {t : Tree} (h : UpTo (w.partsWith (ActionsRepeat name w.actions) False)
      (w.repeating name) t) : Repeats w name t

theorem whole_of_partsWith {w : Workflow} {Items : List Tree → Prop} {Omissible : Prop}
    (hitems : ∀ items, Items items → ∀ item ∈ items, item.Whole) :
    ∀ part ∈ w.partsWith Items Omissible, ∀ t, part.Stands t → t.Whole := by
  intro part hpart t ht
  rcases List.mem_pair.mp hpart with rfl | rfl
  · exact Tree.Names.whole ht
  · rcases ht with ⟨items, rfl, h⟩
    exact .array (hitems items h)

theorem whole_of_forall₂ {actions : List Action} (hexact : ∀ action ∈ actions, action.Exact)
    {items : List Tree}
    (h : List.Forall₂ (fun action item => Arranged action.parts item) actions items) :
    ∀ item ∈ items, item.Whole := by
  induction h with
  | nil => exact fun _ hitem => nomatch hitem
  | cons hitem _ ih =>
      rcases List.forall_mem_cons.mp hexact with ⟨haction, hothers⟩
      exact List.forall_mem_cons.mpr
        ⟨hitem.whole (Action.whole_of_parts haction), ih hothers⟩

theorem whole_of_actionsRepeat {actions : List Action} (hexact : ∀ action ∈ actions, action.Exact)
    {name : String} {items : List Tree} (h : ActionsRepeat name actions items) :
    ∀ item ∈ items, item.Whole := by
  induction h with
  | here hitem hitems =>
      have haction := hexact _ List.mem_cons_self
      exact List.forall_mem_cons.mpr ⟨hitem.whole (Action.whole_of_parts haction), hitems⟩
  | later hitem _ ih =>
      rcases List.forall_mem_cons.mp hexact with ⟨haction, hothers⟩
      exact List.forall_mem_cons.mpr
        ⟨hitem.whole (Action.whole_of_parts haction), ih hothers⟩

theorem whole_of_parts {w : Workflow} (hexact : w.Exact) :
    ∀ part ∈ w.parts, ∀ t, part.Stands t → t.Whole :=
  whole_of_partsWith fun _ h => whole_of_forall₂ hexact h

theorem Repeats.whole {w : Workflow} (hexact : w.Exact) {name : String} {t : Tree}
    (h : w.Repeats name t) : t.Whole := by
  cases h with
  | field h => exact h.whole (whole_of_parts hexact)
  | action h => exact h.whole (whole_of_partsWith fun _ h => whole_of_actionsRepeat hexact h)
  | upToAction h => exact h.whole (whole_of_partsWith fun _ h => whole_of_actionsRepeat hexact h)

/-!
## Reading layouts
-/

section

variable {actions : List Action} {items : List Tree} {room : Nat}
  (hactions : ∀ action ∈ actions, action.Exact ∧ action.config.depth ≤ room)

include hactions

theorem readAll_arranged
    (h : List.Forall₂ (fun action item => Arranged action.parts item) actions items) :
    Format.readAll (Action.format.read (room + 1)) items = .ok actions := by
  induction h with
  | nil => rfl
  | cons hitem _ ih =>
      rcases List.forall_mem_cons.mp hactions with ⟨⟨hexact, hdepth⟩, hothers⟩
      rw [Format.readAll, Action.read_arranged hexact hdepth hitem, ok_bind, ih hothers]
      rfl

theorem readAll_actionsRepeat {name : String} (h : ActionsRepeat name actions items) :
    Format.readAll (Action.format.read (room + 1)) items =
      .error (.misfit (.duplicateField name)) := by
  induction h with
  | here hitem _ =>
      rcases List.forall_mem_cons.mp hactions with ⟨⟨hexact, hdepth⟩, _⟩
      rw [Format.readAll, Action.read_repeats hexact hdepth hitem]
      rfl
  | later hitem _ ih =>
      rcases List.forall_mem_cons.mp hactions with ⟨⟨hexact, hdepth⟩, hothers⟩
      rw [Format.readAll, Action.read_arranged hexact hdepth hitem, ok_bind, ih hothers]
      rfl

end

theorem suits_label (w : Workflow) (room : Nat) :
    Part.Suits room ⟨"label", (·.Names w.label), w.label = defaultLabel⟩
      (.withDefault "label" .string defaultLabel) w.label where
  name_eq := rfl
  read_eq _ ht := read_string_of_names ht room
  absent h := congrArg some h.symm
  short h := congrArg some h.symm

section

variable {w : Workflow} {room : Nat}
  (hactions : ∀ action ∈ w.actions, action.Exact ∧ action.config.depth ≤ room)

include hactions

theorem match_parts : fields.Match (room + 2) (w.label, w.actions, ()) w.parts := by
  refine .field (by decide) (suits_label w _) (.field (by decide) ?_ .done)
  refine ⟨rfl, ?_, fun h => congrArg some h.symm, fun h => congrArg some h.symm⟩
  rintro t ⟨items, rfl, hitems⟩
  change (Format.readAll (Action.format.read (room + 1)) items >>= _) = _
  rw [readAll_arranged hactions hitems]
  rfl

theorem fails_partsWith (name : String) :
    fields.Fails (room + 2) (.misfit (.duplicateField name)) (w.repeating name)
      (w.partsWith (ActionsRepeat name w.actions) False) := by
  refine .later (by decide) (suits_label w _) (.here (by decide) rfl id ?_ .done)
  rintro t ⟨items, rfl, hitems⟩
  change (Format.readAll (Action.format.read (room + 1)) items >>= _) = _
  rw [readAll_actionsRepeat hactions hitems]
  rfl

theorem read_arranged {t : Tree} (ht : Arranged w.parts t) :
    format.read (room + 3) t = .ok w := by
  change (fields.read "struct Workflow" (room + 2 + 1) t).map _ = _
  rw [Fields.read_arranged (match_parts hactions) "struct Workflow" ht]
  rfl

theorem read_repeats {name : String} {t : Tree} (ht : w.Repeats name t) :
    format.read (room + 3) t = .error (.misfit (.duplicateField name)) := by
  change (fields.read "struct Workflow" (room + 2 + 1) t).map _ = _
  cases ht with
  | field ht =>
      rw [Fields.read_repeats (match_parts hactions) "struct Workflow" ht]
      rfl
  | action ht =>
      rw [Fields.read_of_fails (fails_partsWith hactions name) "struct Workflow" ht]
      rfl
  | upToAction ht =>
      rw [Fields.read_upTo (fails_partsWith hactions name) "struct Workflow" ht]
      rfl

end

theorem forall₂_itemTrees (actions : List Action) :
    List.Forall₂ (fun action item => Arranged action.parts item) actions
      (Value.itemTrees (actions.map Action.format.write)) := by
  induction actions with
  | nil => exact .nil
  | cons action actions ih => exact .cons action.arranged_tree ih

theorem chosen_entryTrees (w : Workflow) :
    Chosen w.parts (Value.entryTrees (fields.write (w.label, w.actions, ()))) :=
  .kept (Tree.names_spelled _) (Tree.names_spelled _)
    (.kept (Tree.names_spelled _) ⟨_, rfl, forall₂_itemTrees w.actions⟩ .nil)

theorem arranged_tree (w : Workflow) : Arranged w.parts (format.write w).tree :=
  .object w.chosen_entryTrees.scattered

/-- A workflow whose kinds are kinds of tags is parsed from every text of every arrangement of
its fields, of which the printed text is one, if that text is within the nesting limit. Every
text in which a field stands twice in an object is refused for that reason. -/
theorem parse_layouts {w : Workflow} (hexact : w.Exact)
    (hnesting : nesting (format.print w) ≤ 127) :
    (∀ t text, Arranged w.parts t → t.IsText text → format.parse text = .ok w) ∧
    (∀ name t text, w.Repeats name t → t.IsText text →
      format.parse text = .error (.misfit (.duplicateField name))) ∧
    Arranged w.parts (format.write w).tree ∧ (format.write w).tree.IsText (format.print w) := by
  rw [nesting_print hexact] at hnesting
  have hdepth := depth_write_le.mp hnesting
  have hactions : ∀ action ∈ w.actions, action.Exact ∧ action.config.depth ≤ 124 :=
    fun action haction => ⟨hexact action haction, hdepth action haction⟩
  refine ⟨?_, ?_, w.arranged_tree, Value.isText_text (restores hexact).floatFree⟩
  · intro t text ht htext
    rw [Format.parse_of_isText format (ht.whole (whole_of_parts hexact)) htext]
    exact read_arranged hactions ht
  · intro name t text ht htext
    rw [Format.parse_of_isText format (ht.whole hexact) htext]
    exact read_repeats hactions ht

/-- Only the tag of a kind is written. A kind that is made up of the tag of a known one is not
parsed again: it is the known kind that is parsed, also from the printed text. -/
theorem not_parse_layouts_made_up :
    let w : Workflow := ⟨"Go", [Action.blank "a" (.other "alert")]⟩
    (∀ action ∈ w.actions, action.config.Exact) ∧ nesting (format.print w) ≤ 127 ∧
      Arranged w.parts (format.write w).tree ∧ (format.write w).tree.IsText (format.print w) ∧
      format.parse (format.print w) = .ok ⟨"Go", [Action.blank "a" .alert]⟩ ∧
      format.parse (format.print w) ≠ .ok w := by
  intro w
  let known : Workflow := ⟨"Go", [Action.blank "a" .alert]⟩
  have hexact : known.Exact :=
    List.forall_mem_singleton.mpr ⟨⟨"alert", by decide⟩, Config.exact_empty⟩
  have hprint : format.print w = format.print known := rfl
  have hnesting : nesting (format.print known) ≤ 127 := by
    rw [nesting_print hexact]
    decide
  have hparse : format.parse (format.print known) = .ok known := by
    rw [parse_print hexact]
    exact if_pos hnesting
  rw [hprint, hparse]
  refine ⟨List.forall_mem_singleton.mpr Config.exact_empty, hnesting, w.arranged_tree,
    Value.isText_text (restores hexact).floatFree, rfl, ?_⟩
  intro hsame
  have hkinds := congrArg (fun v => v.actions.map Action.kind) (Except.ok.inj hsame)
  cases hkinds

/-- A workflow in an array, with one action in an object among foreign fields and another one
without its settings, and a workflow whose label stands twice. -/
theorem parse_layouts_shuffled :
    let config : List (String × Value) := [("n", .array [.number (.integer 1)])]
    let w : Workflow := ⟨"Click Me!", [⟨"a", .alert, ⟨config⟩⟩, Action.blank "b" .showText]⟩
    let shuffled : Value :=
      .array [.string "Click Me!",
        .array [.object [("x", .object [("id", .array [.null])]), ("config", .object config),
            ("type", .string "alert"), ("id", .string "a")],
          .array [.string "b", .string "showText"]]]
    let repeated : Value := .object [("label", .string "Click Me!"), ("x", .null), ("label", .null)]
    w.Exact ∧ nesting (format.print w) ≤ 127 ∧ format.parse shuffled.spreadText = .ok w ∧
      format.parse repeated.text = .error (.misfit (.duplicateField "label")) := by
  intro config w shuffled repeated
  have hconfig : Config.Exact ⟨config⟩ :=
    .object (List.pairwise_singleton _ _) (List.forall_mem_singleton.mpr
      (.array (List.forall_mem_singleton.mpr (.integer (by decide) (by decide)))))
  have hexact : w.Exact :=
    List.forall_mem_cons.mpr ⟨⟨⟨"alert", by decide⟩, hconfig⟩,
      List.forall_mem_singleton.mpr ⟨⟨"showText", by decide⟩, Config.exact_empty⟩⟩
  have hnesting : nesting (format.print w) ≤ 127 := by
    rw [nesting_print hexact]
    decide
  rcases parse_layouts hexact hnesting with ⟨hparse, hrefuse, _⟩
  refine ⟨hexact, hnesting, ?_, ?_⟩
  · apply hparse shuffled.tree
    · have hforeign : Foreign (Action.parts ⟨"a", .alert, ⟨config⟩⟩)
          (.quoted (Quoted.spelled "x"), (Value.object [("id", .array [.null])]).tree) :=
        ⟨⟨"x", Tree.names_spelled "x", by decide⟩, Value.whole_tree (by simp)⟩
      have hown := Action.chosen_entryTrees ⟨"a", .alert, ⟨config⟩⟩
      have hfirst : Arranged (Action.parts ⟨"a", .alert, ⟨config⟩⟩) _ :=
        .object (.perm hown (List.forall_mem_singleton.mpr hforeign) (List.reverse_perm _))
      have hsecond : Arranged (Action.parts (Action.blank "b" .showText))
          (Value.array [.string "b", .string "showText"]).tree :=
        .array (.item (Tree.names_spelled _) (.item (Tree.names_spelled _)
          (.stop (List.forall_mem_singleton.mpr rfl))))
      exact .array (.item (Tree.names_spelled _)
        (.item ⟨_, rfl, .cons hfirst (.cons hsecond .nil)⟩ (.stop fun _ h => nomatch h)))
    · exact Value.isText_spreadText (by simp [shuffled, config])
  · apply hrefuse "label" repeated.tree
    · have hforeign : Foreign w.parts (.quoted (Quoted.spelled "x"), .null) :=
        ⟨⟨"x", Tree.names_spelled "x", by decide⟩, .null⟩
      have hscattered : Scattered w.parts ([_, _] ++ [_]) :=
        .perm w.chosen_entryTrees (List.forall_mem_singleton.mpr hforeign) (.cons _ (.swap _ _ _))
      exact .field (.again hscattered (by decide)
        ⟨_, List.mem_cons_self, Tree.names_spelled _⟩ (Tree.names_spelled _)
        (Value.whole_tree (v := .object [("label", .null)]) (by simp)))
    · exact Value.isText_text (by simp [repeated])

end Workflow

end ButtonFlow
