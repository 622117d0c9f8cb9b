import ButtonFlow.Proofs.Cli.EditRuns
import ButtonFlow.Proofs.Workflow.Merge

/-!
# Settings of a new action

A new action can be given its settings at once, or it is added without any and configured
afterwards. Settings that are given at once are first rid of the empty texts, but whoever
configures takes a setting back with an empty text. So the two ways agree except for the keys
that are given a text and then taken back: they keep the text if it is given at once.
-/

namespace ButtonFlow

open Json

/-!
## Settings that are given at once
-/

theorem exists_last {α : Type} {p : α → Prop} {as : List α} (h : ∃ a ∈ as, p a) :
    ∃ before a after, as = before ++ a :: after ∧ p a ∧ ∀ later ∈ after, ¬ p later := by
  induction as with
  | nil =>
      rcases h with ⟨a, ha, _⟩
      exact nomatch ha
  | cons first as ih =>
      by_cases hrest : ∃ a ∈ as, p a
      · rcases ih hrest with ⟨before, a, after, rfl, ha, hafter⟩
        exact ⟨first :: before, a, after, rfl, ha, hafter⟩
      · rcases h with ⟨a, hmem, ha⟩
        rcases List.mem_cons.mp hmem with rfl | hmem
        · exact ⟨[], a, as, rfl, ha, fun later hlater hp => hrest ⟨later, hlater, hp⟩⟩
        · exact absurd ⟨a, hmem, ha⟩ hrest

namespace Setting

def filled (setting : Setting) : Bool :=
  !setting.text.isEmpty

theorem isEmpty_text {setting : Setting} (h : setting.filled = true) :
    ¬ setting.text.isEmpty = true := by
  simpa [filled] using h

theorem value?_of_filled {setting : Setting} (h : setting.filled = true) :
    setting.value? = some (.string setting.text) :=
  if_neg (isEmpty_text h)

theorem value?_of_not_filled {setting : Setting} (h : ¬ setting.filled = true) :
    setting.value? = none :=
  if_pos (by simpa [filled] using h)

theorem change_of_filled {setting : Setting} (h : setting.filled = true) :
    setting.change = .write setting.key (.string setting.text) :=
  if_neg (isEmpty_text h)

end Setting

namespace Config

theorem ofSettings_eq_merge (settings : List Setting) :
    ofSettings settings = empty.merge (settings.filter Setting.filled) := by
  have hchanges : (settings.filter Setting.filled).map Setting.change =
      (settings.filter Setting.filled).map fun setting =>
        .write setting.key (.string setting.text) := by
    apply List.map_congr_left
    intro setting hsetting
    exact Setting.change_of_filled (List.mem_filter.mp hsetting).2
  rw [merge_eq_changed, hchanges, ofSettings, ofList_eq_changed, Change.writes, List.map_map]
  rfl

structure Given (settings : List Setting) (config : Config) : Prop where
  last : ∀ before setting after, settings = before ++ setting :: after → setting.filled →
    (∀ later ∈ after, later.filled → later.key ≠ setting.key) →
    config.get? setting.key = some (.string setting.text)
  unset : ∀ key, (∀ setting ∈ settings, setting.filled → setting.key ≠ key) →
    config.get? key = none

theorem given_ofSettings (settings : List Setting) : Given settings (ofSettings settings) := by
  rw [ofSettings_eq_merge]
  constructor
  · rintro before setting after rfl hfilled hafter
    rw [List.filter_append, List.filter_cons_of_pos hfilled,
      get?_merge_last, Setting.value?_of_filled hfilled]
    intro later hlater
    rcases List.mem_filter.mp hlater with ⟨hlater, hfilled⟩
    exact hafter later hlater hfilled
  · intro key hkey
    refine (get?_merge_other empty ?_).trans rfl
    intro setting hsetting
    rcases List.mem_filter.mp hsetting with ⟨hsetting, hfilled⟩
    exact hkey setting hsetting hfilled

/-!
## Keys that are taken back
-/

/-- The key is given a text, and the last of its settings has none. -/
def TakenBack (settings : List Setting) (key : String) : Prop :=
  ∃ before emptied after, settings = before ++ emptied :: after ∧ emptied.key = key ∧
    ¬ emptied.filled ∧ (∀ later ∈ after, later.key ≠ key) ∧
    ∃ earlier ∈ before, earlier.filled ∧ earlier.key = key

theorem Merged.get?_eq_none {settings : List Setting} {config : Config}
    (h : Merged empty settings config) {key : String} (hkey : TakenBack settings key) :
    config.get? key = none := by
  rcases hkey with ⟨before, emptied, after, hsettings, rfl, hemptied, hafter, _⟩
  rw [h.last before emptied after hsettings hafter, Setting.value?_of_not_filled hemptied]

theorem Given.get?_ne_none {settings : List Setting} {config : Config}
    (h : Given settings config) {key : String}
    (hkey : ∃ setting ∈ settings, setting.filled ∧ setting.key = key) :
    config.get? key ≠ none := by
  rcases exists_last hkey with ⟨before, setting, after, hsettings, ⟨hfilled, rfl⟩, hafter⟩
  have hget := h.last before setting after hsettings hfilled fun later hlater hfilled hsame =>
    hafter later hlater ⟨hfilled, hsame⟩
  rw [hget]
  exact Option.some_ne_none _

theorem TakenBack.exists_filled {settings : List Setting} {key : String}
    (h : TakenBack settings key) : ∃ setting ∈ settings, setting.filled ∧ setting.key = key := by
  rcases h with ⟨before, _, after, rfl, _, _, _, earlier, hearlier, hfilled, hkey⟩
  exact ⟨earlier, List.mem_append_left _ hearlier, hfilled, hkey⟩

/-- The last setting of a key either has a text, and then the two ways agree, or it takes back
whatever was given before. -/
theorem get?_eq_of_not_takenBack {settings : List Setting} {atOnce later : Config}
    (hgiven : Given settings atOnce) (hmerged : Merged empty settings later) {key : String}
    (hkey : ¬ TakenBack settings key) : atOnce.get? key = later.get? key := by
  by_cases hset : ∃ setting ∈ settings, setting.key = key
  · rcases exists_last hset with ⟨before, setting, after, hsettings, rfl, hafter⟩
    rw [hmerged.last before setting after hsettings hafter]
    by_cases hfilled : setting.filled
    · rw [hgiven.last before setting after hsettings hfilled fun other hother _ =>
        hafter other hother, Setting.value?_of_filled hfilled]
    · rw [Setting.value?_of_not_filled hfilled]
      apply hgiven.unset
      intro other hother hotherFilled hsame
      rw [hsettings] at hother
      apply hkey
      refine ⟨before, setting, after, hsettings, rfl, hfilled, hafter, other, ?_, hotherFilled,
        hsame⟩
      rcases List.mem_append.mp hother with hbefore | hrest
      · exact hbefore
      · rcases List.mem_cons.mp hrest with rfl | hrest
        · exact absurd hotherFilled hfilled
        · exact absurd hsame (hafter other hrest)
  · have hnone : ∀ setting ∈ settings, setting.key ≠ key :=
      fun setting hsetting hsame => hset ⟨setting, hsetting, hsame⟩
    rw [hgiven.unset key fun setting hsetting _ => hnone setting hsetting,
      hmerged.kept key hnone]
    rfl

theorem get?_ne_iff_takenBack {settings : List Setting} {atOnce later : Config}
    (hgiven : Given settings atOnce) (hmerged : Merged empty settings later) (key : String) :
    atOnce.get? key ≠ later.get? key ↔ TakenBack settings key := by
  constructor
  · intro hne
    by_contra hkey
    exact hne (get?_eq_of_not_takenBack hgiven hmerged hkey)
  · intro hkey
    rw [hmerged.get?_eq_none hkey]
    exact hgiven.get?_ne_none hkey.exists_filled

theorem sorted_merge {config : Config} (h : Dict.Sorted config.entries)
    (settings : List Setting) : Dict.Sorted (config.merge settings).entries := by
  rw [merge_eq_changed]
  exact sorted_changed h _

theorem ofSettings_eq_merge_iff (settings : List Setting) :
    ofSettings settings = empty.merge settings ↔ ∀ key, ¬ TakenBack settings key := by
  have hkeys := get?_ne_iff_takenBack (given_ofSettings settings) (empty.merged_merge settings)
  constructor
  · intro heq key hkey
    have hne := (hkeys key).mpr hkey
    rw [heq] at hne
    exact hne rfl
  · intro hnone
    apply eq_of_entries_eq
    apply Dict.ext_get? (Dict.sorted_ofList _) (sorted_merge Dict.sorted_nil settings)
    intro key
    by_contra hne
    exact hnone key ((hkeys key).mp hne)

end Config

/-!
## The workflow with the action
-/

namespace Workflow

theorem addWith_of_fresh {w : Workflow} {id : String} (hid : id ∉ w.ids) (kind : Kind)
    (settings : List Setting) :
    w.addWith id kind settings =
      { w with actions := w.actions ++ [⟨id, kind, .ofSettings settings⟩] } := by
  have hbefore : ∀ earlier ∈ w.actions, earlier.id ≠ (Action.blank id kind).id :=
    fun earlier hearlier hsame => hid (List.mem_map.mpr ⟨earlier, hearlier, hsame⟩)
  unfold addWith
  dsimp only
  split
  · rename_i hempty
    have hconfig : Config.ofSettings settings = Config.empty :=
      Config.eq_of_entries_eq (List.isEmpty_iff.mp hempty)
    rw [hconfig]
    rfl
  · have hconfigure : configure.configureFirst id (Config.ofSettings settings)
        (w.actions ++ [Action.blank id kind]) = _ :=
      configureFirst_split hbefore (Config.ofSettings settings)
    exact congrArg (Workflow.mk w.label) hconfigure

end Workflow

namespace Cli

/-- An edit of a workflow gives another one, and the command that asks for it saves that one
wherever the first one is loaded. What is saved in a file can be loaded again. -/
structure Saves (fresh : String) (e : Edit) (w result : Workflow) : Prop where
  applied : (e.apply fresh w).2 = .ok result
  saved : ∀ s tree, Slot.load Slot.usual s = w → (Slot.save Slot.usual s result).1 = .ok () →
    (editStore fresh e s tree).exitCode = 0 ∧
      (editStore fresh e s tree).tree = (Slot.save Slot.usual s result).2.treeOr tree
  loaded : e.Tagged → w.Storable → ∀ route s, Store.Agrees route s →
    (Slot.save Slot.usual s result).1 = .ok () →
    Slot.load? Slot.usual (Slot.save Slot.usual s result).2 = .ok (some result)

theorem saves_of_apply {fresh : String} {e : Edit} {w result : Workflow}
    (h : (e.apply fresh w).2 = .ok result) : Saves fresh e w result where
  applied := h
  saved := by
    rintro s tree rfl hsave
    exact editStore_of_ok tree h hsave
  loaded := by
    intro htagged hw route s hs hsave
    exact Slot.load?_save_of_storable hs (Edit.storable_apply htagged hw h) hsave

theorem saves_add {w : Workflow} {id : String} (hid : id ∉ w.ids) (kind : Kind)
    (settings : List Setting) :
    Saves id (.add kind settings) w
      { w with actions := w.actions ++ [⟨id, kind, .ofSettings settings⟩] } :=
  saves_of_apply (congrArg Except.ok (Workflow.addWith_of_fresh hid kind settings))

theorem saves_configure {w : Workflow} (action : Action) (hid : action.id ∉ w.ids)
    (fresh : String) (settings : List Setting) :
    Saves fresh (.configure action.id settings) { w with actions := w.actions ++ [action] }
      { w with
        actions := w.actions ++ [{ action with config := action.config.merge settings }] } := by
  apply saves_of_apply
  have hbefore : ∀ earlier ∈ w.actions, earlier.id ≠ action.id :=
    fun earlier hearlier hsame => hid (List.mem_map.mpr ⟨earlier, hearlier, hsame⟩)
  have hresolve : Workflow.resolve? { w with actions := w.actions ++ [action] } action.id =
      some action.id := by
    apply Workflow.resolve?_of_mem
    simp [Workflow.ids]
  simp only [Edit.apply, hresolve]
  rw [Workflow.merge_split rfl hbefore]

/-- Whether the settings of a new action are given at once or afterwards, the same workflow is
saved up to the new id, unless a key is taken back. Such a key, and no other, is then set if
its text was given at once, and not set otherwise. -/
theorem add_eq_add_configure (w : Workflow) (kind : Kind) (settings : List Setting) {a b : String}
    (ha : a ∉ w.ids) (hb : b ∉ w.ids) :
    ∃ atOnce later : Config,
      Saves a (.add kind settings) w { w with actions := w.actions ++ [⟨a, kind, atOnce⟩] } ∧
      Saves b (.add kind []) w { w with actions := w.actions ++ [Action.blank b kind] } ∧
      (∀ fresh, Saves fresh (.configure b settings)
        { w with actions := w.actions ++ [Action.blank b kind] }
        { w with actions := w.actions ++ [⟨b, kind, later⟩] }) ∧
      (atOnce = later ↔ ∀ key, ¬ Config.TakenBack settings key) ∧
      (∀ key, atOnce.get? key ≠ later.get? key ↔ Config.TakenBack settings key) ∧
      Config.Given settings atOnce ∧ Config.empty.Merged settings later := by
  have hgiven := Config.given_ofSettings settings
  have hmerged := Config.empty.merged_merge settings
  refine ⟨.ofSettings settings, Config.empty.merge settings, saves_add ha kind settings,
    saves_add hb kind [], ?_, Config.ofSettings_eq_merge_iff settings,
    Config.get?_ne_iff_takenBack hgiven hmerged, hgiven, hmerged⟩
  intro fresh
  exact saves_configure (Action.blank b kind) hb fresh settings

/-- One key is taken back, and another is set three times. -/
theorem add_eq_add_configure_emptied :
    let w : Workflow := ⟨"Go", [Action.blank "a" .alert]⟩
    let settings : List Setting :=
      [⟨"text", "x"⟩, ⟨"color", "red"⟩, ⟨"text", ""⟩, ⟨"color", ""⟩, ⟨"text", "y"⟩]
    "b" ∉ w.ids ∧ "c" ∉ w.ids ∧ ∃ atOnce later : Config,
      Saves "b" (.add .showText settings) w
        ⟨"Go", [Action.blank "a" .alert, ⟨"b", .showText, atOnce⟩]⟩ ∧
      Saves "c" (.configure "c" settings)
        ⟨"Go", [Action.blank "a" .alert, Action.blank "c" .showText]⟩
        ⟨"Go", [Action.blank "a" .alert, ⟨"c", .showText, later⟩]⟩ ∧
      atOnce.get? "text" = some (.string "y") ∧ later.get? "text" = some (.string "y") ∧
      atOnce.get? "color" = some (.string "red") ∧ later.get? "color" = none := by
  intro w settings
  have hb : "b" ∉ w.ids := by decide
  have hc : "c" ∉ w.ids := by decide
  rcases add_eq_add_configure w .showText settings hb hc with
    ⟨atOnce, later, hadd, _, hconfigure, _, _, hgiven, hmerged⟩
  refine ⟨hb, hc, atOnce, later, hadd, hconfigure "c", ?_, ?_, ?_, ?_⟩
  · exact hgiven.last [⟨"text", "x"⟩, ⟨"color", "red"⟩, ⟨"text", ""⟩, ⟨"color", ""⟩]
      ⟨"text", "y"⟩ []
      rfl (by decide) (by decide)
  · exact hmerged.last [⟨"text", "x"⟩, ⟨"color", "red"⟩, ⟨"text", ""⟩, ⟨"color", ""⟩] ⟨"text", "y"⟩
      [] rfl (by decide)
  · exact hgiven.last [⟨"text", "x"⟩] ⟨"color", "red"⟩ [⟨"text", ""⟩, ⟨"color", ""⟩, ⟨"text", "y"⟩]
      rfl (by decide) (by decide)
  · exact hmerged.last [⟨"text", "x"⟩, ⟨"color", "red"⟩, ⟨"text", ""⟩] ⟨"color", ""⟩ [⟨"text", "y"⟩]
      rfl (by decide)

/-- The two ways do not agree if the only key is taken back, not even in a workflow without any
actions. -/
theorem add_ne_add_configure :
    let settings : List Setting := [⟨"text", "x"⟩, ⟨"text", ""⟩]
    Workflow.initial.ids.Nodup ∧ "a" ∉ Workflow.initial.ids ∧ "b" ∉ Workflow.initial.ids ∧
      ¬ ∃ config added,
        Saves "a" (.add .showText settings) .initial
          ⟨Workflow.defaultLabel, [⟨"a", .showText, config⟩]⟩ ∧
        Saves "b" (.add .showText []) .initial added ∧
        Saves "c" (.configure "b" settings) added
          ⟨Workflow.defaultLabel, [⟨"b", .showText, config⟩]⟩ := by
  intro settings
  refine ⟨by decide, by decide, by decide, ?_⟩
  rintro ⟨config, added, hadd, hblank, hconfigure⟩
  have hadded : Workflow.mk Workflow.defaultLabel [Action.blank "b" .showText] = added :=
    Except.ok.inj hblank.applied
  subst hadded
  have hset : Workflow.mk Workflow.defaultLabel
      [⟨"a", .showText, ⟨[("text", .string "x")]⟩⟩] = ⟨_, [⟨"a", .showText, config⟩]⟩ :=
    Except.ok.inj hadd.applied
  have hunset : Workflow.mk Workflow.defaultLabel [⟨"b", .showText, ⟨[]⟩⟩] =
      ⟨_, [⟨"b", .showText, config⟩]⟩ :=
    Except.ok.inj hconfigure.applied
  cases hset
  cases hunset

end Cli

end ButtonFlow
