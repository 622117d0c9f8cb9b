import ButtonFlow.Proofs.Workflow.Changes
import ButtonFlow.Proofs.Workflow.Revision
import ButtonFlow.Workflow.Edit

/-!
# Merging settings

Settings are merged into those of an action one after the other. So the last setting of a key
decides what becomes of the key, and a key without a setting keeps the value that it had. Of
the workflow only the first action with the id changes, and only its settings.
-/

namespace ButtonFlow

open Json

/-!
## Settings of a key
-/

namespace Setting

def value? (setting : Setting) : Option Value :=
  if setting.text.isEmpty then none else some (.string setting.text)

/-- A setting as a change: the empty text removes its key. -/
def change (setting : Setting) : Config.Change :=
  if setting.text.isEmpty then .remove setting.key else .write setting.key (.string setting.text)

theorem key_change (setting : Setting) : setting.change.key = setting.key := by
  unfold change
  split
  · rfl
  · rfl

theorem value?_change (setting : Setting) : setting.change.value? = setting.value? := by
  unfold change value?
  split
  · rfl
  · rfl

theorem apply_change (setting : Setting) (config : Config) :
    setting.change.apply config = config.set setting := by
  unfold change Config.set
  split
  · rfl
  · rfl

end Setting

namespace Config

/-- Merging settings is changing one after the other. -/
theorem merge_eq_changed (config : Config) (settings : List Setting) :
    config.merge settings = config.changed (settings.map Setting.change) := by
  rw [merge, changed, List.foldl_map]
  simp only [Setting.apply_change]

theorem get?_merge_other (config : Config) {settings : List Setting} {key : String}
    (hkey : ∀ setting ∈ settings, setting.key ≠ key) :
    (config.merge settings).get? key = config.get? key := by
  rw [merge_eq_changed]
  apply get?_changed_other
  intro change hchange
  rcases List.mem_map.mp hchange with ⟨setting, hsetting, rfl⟩
  rw [setting.key_change]
  exact hkey setting hsetting

theorem get?_merge_last (config : Config) (before : List Setting) {setting : Setting}
    {after : List Setting} (hafter : ∀ later ∈ after, later.key ≠ setting.key) :
    (config.merge (before ++ setting :: after)).get? setting.key = setting.value? := by
  rw [merge_eq_changed, List.map_append, List.map_cons, ← setting.key_change,
    ← setting.value?_change]
  apply get?_changed_last
  intro change hchange
  rcases List.mem_map.mp hchange with ⟨later, hlater, rfl⟩
  rw [setting.key_change, later.key_change]
  exact hafter later hlater

/-- The settings after others were merged into those of `old`, told key by key. -/
structure Merged (old : Config) (settings : List Setting) (new : Config) : Prop where
  last : ∀ before setting after, settings = before ++ setting :: after →
    (∀ later ∈ after, later.key ≠ setting.key) → new.get? setting.key = setting.value?
  kept : ∀ key, (∀ setting ∈ settings, setting.key ≠ key) → new.get? key = old.get? key

theorem merged_merge (config : Config) (settings : List Setting) :
    config.Merged settings (config.merge settings) := by
  constructor
  · intro before setting after hsettings hafter
    subst hsettings
    exact get?_merge_last config before hafter
  · intro key hkey
    exact get?_merge_other config hkey

end Config

/-!
## The action that is meant
-/

namespace Workflow

theorem find?_of_split {w : Workflow} {before after : List Action} {action : Action}
    (hactions : w.actions = before ++ action :: after)
    (hbefore : ∀ earlier ∈ before, earlier.id ≠ action.id) : w.find? action.id = some action := by
  unfold find?
  rw [List.find?_eq_some_iff_append]
  refine ⟨beq_self_eq_true _, before, after, hactions, ?_⟩
  intro earlier hearlier
  simpa using hbefore earlier hearlier

theorem exists_split {w : Workflow} {id : String} (hid : id ∈ w.ids) :
    ∃ before action after, w.actions = before ++ action :: after ∧ action.id = id ∧
      ∀ earlier ∈ before, earlier.id ≠ id := by
  cases hfind : w.find? id with
  | none => exact absurd hid (find?_eq_none_iff.mp hfind)
  | some action =>
      rcases List.find?_eq_some_iff_append.mp hfind with ⟨hsame, before, after, hactions, hbefore⟩
      refine ⟨before, action, after, hactions, by simpa using hsame, ?_⟩
      intro earlier hearlier
      simpa using hbefore earlier hearlier

theorem configureFirst_split {before after : List Action} {action : Action}
    (hbefore : ∀ earlier ∈ before, earlier.id ≠ action.id) (config : Config) :
    configure.configureFirst action.id config (before ++ action :: after) =
      before ++ { action with config := config } :: after := by
  induction before with
  | nil => exact if_pos (beq_self_eq_true action.id)
  | cons first before ih =>
      rcases List.forall_mem_cons.mp hbefore with ⟨hfirst, hrest⟩
      rw [List.cons_append, configure.configureFirst, if_neg (by simpa using hfirst), ih hrest,
        List.cons_append]

theorem merge_split {w : Workflow} {before after : List Action} {action : Action}
    (hactions : w.actions = before ++ action :: after)
    (hbefore : ∀ earlier ∈ before, earlier.id ≠ action.id) (settings : List Setting) :
    w.merge action.id settings =
      { w with
        actions := before ++ { action with config := action.config.merge settings } :: after } := by
  unfold merge
  rw [find?_of_split hactions hbefore]
  unfold configure
  dsimp only
  rw [hactions, configureFirst_split hbefore]

theorem resolve?_of_mem {w : Workflow} {id : String} (hid : id ∈ w.ids) :
    w.resolve? id = some id := by
  rcases exists_split hid with ⟨before, action, after, hactions, rfl, hbefore⟩
  unfold resolve?
  rw [find?_of_split hactions hbefore]
  rfl

/-- Whoever configures the action with an id changes the settings of the first such action, key
by key, and nothing else. -/
theorem configure_merges {w : Workflow} {id : String} (hid : id ∈ w.ids) (fresh : String)
    (settings : List Setting) :
    ∃ before action after config, w.actions = before ++ action :: after ∧ action.id = id ∧
      (∀ earlier ∈ before, earlier.id ≠ id) ∧ action.config.Merged settings config ∧
      ((Edit.configure id settings).apply fresh w).2 =
        .ok { w with actions := before ++ { action with config := config } :: after } := by
  have hresolve := resolve?_of_mem hid
  rcases exists_split hid with ⟨before, action, after, hactions, rfl, hbefore⟩
  refine ⟨before, action, after, action.config.merge settings, hactions, rfl, hbefore,
    action.config.merged_merge settings, ?_⟩
  simp only [Edit.apply, hresolve]
  rw [merge_split hactions hbefore]

theorem configure_merges_repeated :
    let config : Config :=
      ⟨[("key", .string "k"), ("n", .number (.integer 3)), ("value", .string "v")]⟩
    let w : Workflow :=
      ⟨"Go", [Action.blank "a" .alert, ⟨"b", .setLocalStorage, config⟩, Action.blank "b" .alert]⟩
    let settings : List Setting := [⟨"value", "x"⟩, ⟨"key", ""⟩, ⟨"value", ""⟩, ⟨"key", "z"⟩]
    "b" ∈ w.ids ∧ ∃ config' : Config,
      ((Edit.configure "b" settings).apply "" w).2 =
        .ok ⟨"Go", [Action.blank "a" .alert, ⟨"b", .setLocalStorage, config'⟩,
          Action.blank "b" .alert]⟩ ∧
      config'.get? "key" = some (.string "z") ∧ config'.get? "value" = none ∧
      config'.get? "n" = some (.number (.integer 3)) := by
  intro config w settings
  have hid : "b" ∈ w.ids := by decide
  rcases configure_merges hid "" settings with
    ⟨before, action, after, config', hactions, haction, hbefore, hmerged, happly⟩
  rcases before with _ | ⟨first, _ | ⟨second, before⟩⟩
  · cases hactions
    exact absurd haction (by decide)
  · cases hactions
    refine ⟨hid, config', happly, ?_, ?_, ?_⟩
    · exact hmerged.last [⟨"value", "x"⟩, ⟨"key", ""⟩, ⟨"value", ""⟩] ⟨"key", "z"⟩ [] rfl (by simp)
    · exact hmerged.last [⟨"value", "x"⟩, ⟨"key", ""⟩] ⟨"value", ""⟩ [⟨"key", "z"⟩] rfl (by simp)
    · exact hmerged.kept "n" (by decide)
  · simp only [w, List.cons_append, List.cons.injEq] at hactions
    have hsecond := hbefore second (List.mem_cons_of_mem _ List.mem_cons_self)
    rw [← hactions.2.1] at hsecond
    exact absurd rfl hsecond

end Workflow

end ButtonFlow
