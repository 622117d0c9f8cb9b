import ButtonFlow.Proofs.Json.Given
import ButtonFlow.Proofs.Json.ReadBack
import ButtonFlow.Workflow.Basic

/-!
# The saved form of a workflow

A workflow is exact if its kinds are kinds of tags and its settings hold no floats. Exact
workflows are restored by their format, and what the format gives is exact as soon as it holds
no floats.
-/

namespace ButtonFlow

open Json

/-!
## Kinds

The tags of the catalogue are told apart by `ofTag`.
-/

namespace Kind

theorem ofTag_tag_of_mem_catalogue {kind : Kind} (h : kind ∈ catalogue) :
    ofTag kind.tag = kind := by
  revert kind
  decide

theorem ofTag_tag_ofTag (tag : String) : ofTag (ofTag tag).tag = ofTag tag := by
  cases hfind : catalogue.find? fun kind => kind.tag == tag with
  | none =>
      have hother : ofTag tag = .other tag := by
        rw [ofTag, hfind]
        rfl
      rw [hother]
      exact hother
  | some kind =>
      have hkind : ofTag tag = kind := by
        rw [ofTag, hfind]
        rfl
      rw [hkind]
      exact ofTag_tag_of_mem_catalogue (List.mem_of_find?_eq_some hfind)

theorem restores_ofTag (tag : String) : format.Restores (ofTag tag) :=
  (Format.restores_string _).convert (ofTag_tag_ofTag tag)

theorem eq_ofTag_of_gives {room : Nat} {kind : Kind} (h : format.Gives room kind) :
    ∃ tag, kind = ofTag tag := by
  rcases h.of_convert with ⟨tag, _, htag⟩
  exact ⟨tag, htag.symm⟩

end Kind

/-!
## Settings
-/

namespace Config

def Exact (config : Config) : Prop :=
  (Value.object config.entries).Exact

def FloatFree (config : Config) : Prop :=
  (Value.object config.entries).FloatFree

/-- How many arrays and objects are open at once in the settings. -/
def depth (config : Config) : Nat :=
  (Value.object config.entries).depth

theorem exact_empty : Exact empty :=
  .object List.Pairwise.nil fun _ h => nomatch h

theorem restores {config : Config} (h : config.Exact) : format.Restores config :=
  (Format.restores_dict h).convert rfl

theorem readable_of_gives {room : Nat} {config : Config} (h : format.Gives room config) :
    Value.Readable room (.object config.entries) := by
  rcases h.of_convert with ⟨entries, ⟨t, hread⟩, rfl⟩
  exact Value.readable_of_readDict hread

end Config

/-!
## Actions
-/

namespace Action

structure Exact (action : Action) : Prop where
  kind : ∃ tag, action.kind = Kind.ofTag tag
  config : action.config.Exact

theorem restores {action : Action} (h : action.Exact) : format.Restores action := by
  rcases h with ⟨⟨tag, htag⟩, hconfig⟩
  have hkind : Kind.format.Restores action.kind := by
    rw [htag]
    exact Kind.restores_ofTag tag
  apply Format.Restores.convert
  · apply Fields.restores_format
    exact ⟨by decide, Format.restores_string _, by decide, hkind, by decide,
      Config.restores hconfig, trivial⟩
  · rfl

theorem floatFree_write {action : Action} (h : action.config.FloatFree) :
    (format.write action).FloatFree := by
  change (Value.object [("id", .string action.id), ("type", .string action.kind.tag),
    ("config", .object action.config.entries)]).FloatFree
  simpa [Config.FloatFree] using h

theorem depth_write_le {action : Action} {n : Nat} :
    (format.write action).depth ≤ n + 2 ↔ action.config.depth ≤ n + 1 := by
  change (Value.object [("id", .string action.id), ("type", .string action.kind.tag),
    ("config", .object action.config.entries)]).depth ≤ n + 1 + 1 ↔ _
  rw [Value.depth_object_le]
  simp only [List.forall_mem_cons, List.not_mem_nil, false_implies, implies_true, and_true,
    Value.depth, Nat.zero_le, true_and]
  rfl

structure Given (room : Nat) (action : Action) : Prop where
  kind : ∃ tag, action.kind = Kind.ofTag tag
  config : Value.Readable room (.object action.config.entries)

theorem Given.exact {room : Nat} {action : Action} (h : action.Given room)
    (hfree : action.config.FloatFree) : action.Exact :=
  ⟨h.kind, h.config.exact_of_floatFree hfree⟩

theorem given_of_gives {room : Nat} {action : Action}
    (h : format.Gives (room + 2) action) : action.Given (room + 1) := by
  rcases h.of_convert with ⟨⟨id, kind, config, ⟨⟩⟩, hrecord, rfl⟩
  rcases Fields.give_of_format hrecord with ⟨_, hkind, hconfig, _⟩
  constructor
  · cases hkind with
    | item hkind => exact Kind.eq_ofTag_of_gives hkind
    | absent h => cases h
    | short h => cases h
  · have hempty : Value.Readable (room + 1) (.object (Dict.ofList [])) :=
      Value.Readable.object fun _ h => nomatch h
    cases hconfig with
    | item hconfig => exact Config.readable_of_gives hconfig
    | absent h =>
        cases h
        exact hempty
    | short h =>
        cases h
        exact hempty

end Action

/-!
## Workflows
-/

namespace Workflow

def Exact (w : Workflow) : Prop :=
  ∀ action ∈ w.actions, action.Exact

theorem restores {w : Workflow} (h : w.Exact) : format.Restores w := by
  apply Format.Restores.convert
  · apply Fields.restores_format
    exact ⟨by decide, Format.restores_string _, by decide,
      Format.restores_list fun action haction => Action.restores (h action haction), trivial⟩
  · rfl

/-- A saved workflow is three levels deeper than its deepest settings. -/
theorem depth_write_le {w : Workflow} {n : Nat} :
    (format.write w).depth ≤ n + 4 ↔ ∀ action ∈ w.actions, action.config.depth ≤ n + 1 := by
  change (Value.object [("label", .string w.label),
    ("actions", .array (w.actions.map Action.format.write))]).depth ≤ n + 3 + 1 ↔ _
  rw [Value.depth_object_le]
  simp only [List.forall_mem_cons, List.not_mem_nil, false_implies, implies_true, and_true,
    Value.depth_array_le, List.forall_mem_map, Action.depth_write_le]
  simp only [Value.depth, Nat.zero_le, true_and]

theorem floatFree_write {w : Workflow} (h : ∀ action ∈ w.actions, action.config.FloatFree) :
    (format.write w).FloatFree := by
  change (Value.object [("label", .string w.label),
    ("actions", .array (w.actions.map Action.format.write))]).FloatFree
  simpa using fun action haction => Action.floatFree_write (h action haction)

theorem nesting_print {w : Workflow} (h : w.Exact) :
    nesting (format.print w) = (format.write w).depth :=
  Value.nesting_text (floatFree_write fun action haction => (h action haction).config.floatFree)

theorem parse_print {w : Workflow} (h : w.Exact) :
    format.parse (format.print w) = within 127 (nesting (format.print w)) w :=
  (restores h).parse_print

/-- All actions of a workflow that was parsed were read within the room of their settings. -/
theorem given_of_parse {text : String} {w : Workflow} (h : format.parse text = .ok w) :
    ∀ action ∈ w.actions, action.Given 124 := by
  rcases (Format.Gives.of_parse h).of_convert with ⟨⟨label, actions, ⟨⟩⟩, hrecord, rfl⟩
  rcases Fields.give_of_format hrecord with ⟨_, hactions, _⟩
  intro action haction
  cases hactions with
  | item hactions => exact Action.given_of_gives (hactions.of_list action haction)
  | absent h =>
      cases h
      cases haction
  | short h =>
      cases h
      cases haction

end Workflow

end ButtonFlow
