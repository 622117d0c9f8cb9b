import ButtonFlow.Proofs.Dict
import ButtonFlow.Proofs.Workflow.Format
import ButtonFlow.Workflow.Edit

/-!
# Edits keep a workflow storable

Edits only put texts into settings, and the kinds that they add are kinds of tags. So a
workflow that can be saved and read again can still be after any edit.
-/

namespace ButtonFlow

open Json

/-!
## Settings
-/

namespace Config

structure Storable (room : Nat) (config : Config) : Prop where
  exact : config.Exact
  depth_le : config.depth ≤ room

theorem storable_of_entries {room : Nat} {config : Config} (hsorted : Dict.Sorted config.entries)
    (hentries : ∀ entry ∈ config.entries, entry.2.Exact ∧ entry.2.depth ≤ room) :
    config.Storable (room + 1) where
  exact := .object hsorted fun entry hentry => (hentries entry hentry).1
  depth_le := Value.depth_object_le.mpr fun entry hentry => (hentries entry hentry).2

theorem Storable.sorted {room : Nat} {config : Config} (h : config.Storable room) :
    Dict.Sorted config.entries := by
  cases h.exact with
  | object hsorted _ => exact hsorted

theorem Storable.of_mem {room : Nat} {config : Config} (h : config.Storable (room + 1))
    {entry : String × Value} (hentry : entry ∈ config.entries) :
    entry.2.Exact ∧ entry.2.depth ≤ room := by
  constructor
  · cases h.exact with
    | object _ hentries => exact hentries entry hentry
  · exact Value.depth_object_le.mp h.depth_le entry hentry

theorem storable_empty (room : Nat) : empty.Storable (room + 1) :=
  storable_of_entries Dict.sorted_nil fun _ h => nomatch h

theorem storable_text {room : Nat} (key text : String) :
    (Value.string text).Exact ∧ (key, Value.string text).2.depth ≤ room :=
  ⟨.string text, Nat.zero_le room⟩

theorem storable_erase {room : Nat} {config : Config} (h : config.Storable (room + 1))
    (key : String) : (config.erase key).Storable (room + 1) := by
  apply storable_of_entries (Dict.sorted_erase key h.sorted)
  intro entry hentry
  exact h.of_mem (List.mem_filter.mp hentry).1

theorem storable_insert_text {room : Nat} {config : Config} (h : config.Storable (room + 1))
    (key text : String) : (config.insert key (.string text)).Storable (room + 1) := by
  apply storable_of_entries (Dict.sorted_insert key _ h.sorted)
  intro entry hentry
  rcases Dict.mem_of_mem_insert hentry with rfl | hentry
  · exact storable_text key text
  · exact h.of_mem hentry

theorem storable_set {room : Nat} {config : Config} (h : config.Storable (room + 1))
    (setting : Setting) : (config.set setting).Storable (room + 1) := by
  unfold set
  split
  · exact storable_erase h setting.key
  · exact storable_insert_text h setting.key setting.text

theorem storable_merge {room : Nat} (settings : List Setting) {config : Config}
    (h : config.Storable (room + 1)) : (config.merge settings).Storable (room + 1) := by
  induction settings generalizing config with
  | nil => exact h
  | cons setting settings ih => exact ih (storable_set h setting)

theorem storable_ofSettings (room : Nat) (settings : List Setting) :
    (ofSettings settings).Storable (room + 1) := by
  apply storable_of_entries (Dict.sorted_ofList _)
  intro entry hentry
  rcases List.mem_map.mp (Dict.mem_of_mem_ofList hentry) with ⟨setting, _, rfl⟩
  exact storable_text setting.key setting.text

end Config

/-!
## Workflows
-/

structure Action.Storable (action : Action) : Prop where
  kind : ∃ tag, action.kind = Kind.ofTag tag
  config : action.config.Storable 124

theorem Action.Storable.exact {action : Action} (h : action.Storable) : action.Exact :=
  ⟨h.kind, h.config.exact⟩

namespace Workflow

def Storable (w : Workflow) : Prop :=
  ∀ action ∈ w.actions, action.Storable

theorem Storable.exact {w : Workflow} (h : w.Storable) : w.Exact :=
  fun action haction => (h action haction).exact

theorem Storable.nesting_le {w : Workflow} (h : w.Storable) :
    nesting (format.print w) ≤ 127 := by
  rw [nesting_print h.exact]
  exact depth_write_le.mpr fun action haction => (h action haction).config.depth_le

theorem parse_print_of_storable {w : Workflow} (h : w.Storable) :
    format.parse (format.print w) = .ok w :=
  (parse_print h.exact).trans (if_pos h.nesting_le)

theorem storable_initial : initial.Storable :=
  fun _ h => nomatch h

theorem storable_of_parse {text : String} {w : Workflow} (h : format.parse text = .ok w)
    (hfree : ∀ action ∈ w.actions, action.config.FloatFree) : w.Storable := by
  intro action haction
  have hgiven := given_of_parse h action haction
  have hexact := hgiven.exact (hfree action haction)
  exact ⟨hgiven.kind, hexact.config, hgiven.config.depth_le⟩

theorem storable_add {w : Workflow} (h : w.Storable) (id tag : String) :
    (w.add id (Kind.ofTag tag)).Storable := by
  intro action haction
  rcases List.mem_append.mp haction with haction | haction
  · exact h action haction
  · cases List.mem_singleton.mp haction
    exact ⟨⟨tag, rfl⟩, Config.storable_empty 123⟩

theorem storable_remove {w : Workflow} (h : w.Storable) (id : String) :
    (w.remove id).Storable := by
  intro action haction
  exact h action (List.mem_filter.mp haction).1

theorem mem_of_mem_configureFirst {id : String} {config : Config} {action : Action}
    {actions : List Action} (h : action ∈ configure.configureFirst id config actions) :
    action ∈ actions ∨ ∃ old ∈ actions, action = { old with config := config } := by
  induction actions with
  | nil => exact nomatch h
  | cons first rest ih =>
      unfold configure.configureFirst at h
      split at h
      · rcases List.mem_cons.mp h with rfl | hrest
        · exact Or.inr ⟨first, List.mem_cons_self, rfl⟩
        · exact Or.inl (List.mem_cons_of_mem _ hrest)
      · rcases List.mem_cons.mp h with rfl | hrest
        · exact Or.inl List.mem_cons_self
        · rcases ih hrest with hrest | ⟨old, hold, rfl⟩
          · exact Or.inl (List.mem_cons_of_mem _ hrest)
          · exact Or.inr ⟨old, List.mem_cons_of_mem _ hold, rfl⟩

theorem storable_configure {w : Workflow} (h : w.Storable) (id : String) {config : Config}
    (hconfig : config.Storable 124) : (w.configure id config).Storable := by
  intro action haction
  rcases mem_of_mem_configureFirst haction with haction | ⟨old, hold, rfl⟩
  · exact h action haction
  · exact ⟨(h old hold).kind, hconfig⟩

theorem storable_addWith {w : Workflow} (h : w.Storable) (id tag : String)
    (settings : List Setting) : (w.addWith id (Kind.ofTag tag) settings).Storable := by
  have hadd := storable_add h id tag
  unfold addWith
  dsimp only
  split
  · exact hadd
  · exact storable_configure hadd id (Config.storable_ofSettings 123 settings)

theorem storable_merge {w : Workflow} (h : w.Storable) (id : String)
    (settings : List Setting) : (w.merge id settings).Storable := by
  unfold merge
  split
  · rename_i action hfind
    have haction := h action (List.mem_of_find?_eq_some hfind)
    exact storable_configure h id (Config.storable_merge settings haction.config)
  · exact h

theorem storable_move {w : Workflow} (h : w.Storable) (source target : Nat) :
    (w.move source target).Storable := by
  unfold move
  split
  · rename_i moved hsource
    split
    · rename_i htarget
      have hlength : (w.actions.eraseIdx source).length = w.actions.length - 1 := by
        rw [List.length_eraseIdx, if_pos (List.getElem?_eq_some_iff.mp hsource).1]
      intro action haction
      rcases (List.mem_insertIdx (by omega)).mp haction with rfl | haction
      · exact h action (List.mem_of_getElem? hsource)
      · exact h action (List.mem_of_mem_eraseIdx haction)
    · exact h
  · exact h

end Workflow

/-!
## Edits
-/

namespace Edit

/-- The kind that the edit adds, if any, is the kind of a tag. -/
def Tagged : Edit → Prop
  | .add kind _ => ∃ tag, kind = Kind.ofTag tag
  | _ => True

theorem storable_apply {e : Edit} (he : e.Tagged) {fresh : String} {w w' : Workflow}
    (hw : w.Storable) (happly : (e.apply fresh w).2 = .ok w') : w'.Storable := by
  -- One case for each edit.
  cases e with
  | add kind settings =>
      rcases he with ⟨tag, rfl⟩
      cases happly
      exact Workflow.storable_addWith hw fresh tag settings
  | remove target =>
      simp only [apply] at happly
      split at happly
      · cases happly
      · rename_i id _
        cases happly
        exact Workflow.storable_remove hw id
  | configure target settings =>
      simp only [apply] at happly
      split at happly
      · cases happly
      · rename_i id _
        cases happly
        exact Workflow.storable_merge hw id settings
  | move source target =>
      simp only [apply] at happly
      split at happly
      · cases happly
        exact Workflow.storable_move hw (source - 1) (target - 1)
      · cases happly
  | relabel label =>
      cases happly
      exact hw
  | clear =>
      cases happly
      exact fun _ h => nomatch h

end Edit

end ButtonFlow
