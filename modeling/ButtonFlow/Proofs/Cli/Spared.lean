import ButtonFlow.Proofs.Button.AfterCancel
import ButtonFlow.Proofs.Cli.EditRuns
import ButtonFlow.Proofs.Run.Writes

/-!
# Starts that leave the files alone

Looking at a store changes no file, even if the store is opened from a text that would be
written differently. Neither does an edit that is refused, the removal of a key that is not
there, or a session in which no step is performed that writes a key. No file is made, either.
-/

namespace ButtonFlow

namespace Store

theorem treeOr_of_ofFile {tree : FileTree} {route : Route} {s : Store}
    (h : ofFile tree route = .ok s) : s.treeOr tree = tree := by
  rcases eq_file_of_ofFile h with ⟨entries, rfl⟩
  rfl

theorem remove_of_missing {tree : FileTree} {route : Route} {s : Store} {key : String}
    (h : ofFile tree route = .ok s) (hkey : s.get key = .ok none) :
    s.remove key = (.ok (), s) := by
  rcases eq_file_of_ofFile h with ⟨entries, rfl⟩
  have hmissing : Dict.get? entries key = none := Except.ok.inj hkey
  simp [remove, Dict.contains, hmissing]

end Store

namespace Cli

/-!
## Clicks
-/

theorem exists_paced_served (delay : Nat) (w : World) :
    ∃ ds, World.Trail w ds (served delay w) ∧ Paced w.draws.color (doings ds) := by
  rcases w.exists_loads Slot.usual with ⟨loading, hloading, hloads⟩
  have hmade := hloading.trans (.withView _ (View.initial (w.loadWorkflow Slot.usual).1))
  rcases (Undertaking.session (Button.make Slot.usual delay w).1).exists_paced
      (Button.make Slot.usual delay w).2 with ⟨serving, hserving, hpaced⟩
  have hcolors : (Button.make Slot.usual delay w).2.draws.color = w.draws.color :=
    hmade.colors_eq
  rw [hcolors] at hpaced
  have hload : Paced w.draws.color
      (doings (loading ++ [.shown (View.initial (w.loadWorkflow Slot.usual).1)])) := by
    rw [doings_append, hloads.doings_eq]
    exact .single rfl rfl
  refine ⟨_, hmade.trans hserving, ?_⟩
  rw [doings_append]
  exact hload.append hpaced

theorem not_mem_clickPlan (times : Nat) (interruption : Option Interruption) (c : Change) :
    some c ∉ plannedErrands (clickPlan times interruption) := by
  cases interruption with
  | none => simp [clickPlan, plannedErrands, Act.errand?]
  | some interruption =>
      cases interruption <;> simp [clickPlan, plannedErrands, Act.errand?]

theorem store_served {schedule : Schedule} {times : Nat} {allowsClose : Bool} {delay : Nat}
    {s : Surroundings} {store : Store}
    (hnone : ∀ (action : Action) (key value : String),
      action.step = .setStorage (some key) value →
        ¬ Performs s.draws.color action
          (served delay (clickWorld schedule times allowsClose s store)).doings) :
    (served delay (clickWorld schedule times allowsClose s store)).store = store := by
  rcases exists_paced_served delay (clickWorld schedule times allowsClose s store) with
    ⟨ds, htrail, hpaced⟩
  have hdoings := htrail.doings_eq
  change _ = [] ++ doings ds at hdoings
  rw [hdoings] at hnone
  exact htrail.store_eq_self hpaced hnone (not_mem_clickPlan times s.interruption)

/-!
## All that leaves the files alone
-/

/-- The start asks for nothing that changes a file, or for something that comes to nothing
among these files. -/
inductive Start.Spares (start : Start) (schedule : Schedule) (tree : FileTree) : Prop where
  | unread {refusal : Refusal}
      (hread : Invocation.read start.environment start.words = .error refusal)
  | idle {inv : Invocation} (hread : start.Reads inv) (hcommand : inv.command? = none)
  | preview {inv : Invocation} {settings : Bool} (hread : start.Reads inv)
      (hcommand : inv.command? = some (.show settings))
  | kinds {inv : Invocation} (hread : start.Reads inv) (hcommand : inv.command? = some .kinds)
  | refused {inv : Invocation} {e : Edit} (hread : start.Reads inv)
      (hcommand : inv.command? = some (.edit e))
      (hrefused : ∀ s, start.Opens inv tree s → ∃ error, start.outcome e s = .error error)
  | unset {inv : Invocation} {key : String} (hread : start.Reads inv)
      (hcommand : inv.command? = some (.unset key))
      (hmissing : ∀ s, start.Opens inv tree s → s.get key = .ok none)
  | click {inv : Invocation} {times : Nat} {allowsClose : Bool} (hread : start.Reads inv)
      (hcommand : inv.command? = some (.click times allowsClose))
      (hnone : ∀ s, start.Opens inv tree s → ∀ (action : Action) (key value : String),
        action.step = .setStorage (some key) value →
          ¬ Performs start.draws.color action
            (served inv.stepDelay
              (clickWorld schedule times allowsClose (start.surroundings tree) s)).doings)

theorem tree_runBy_of_reads {start : Start} {schedule : Schedule} {tree : FileTree}
    {inv : Invocation} {command : Command} (hread : start.Reads inv)
    (hcommand : inv.command? = some command)
    (hperform : ∀ s, start.Opens inv tree s →
      (command.perform schedule inv.stepDelay (start.surroundings tree) s).tree = tree) :
    (start.runBy schedule tree).tree = tree := by
  rcases Start.runBy_cases schedule hread with hsame | ⟨command', s, hcommand', hopens, hrun⟩
  · exact hsame
  · rw [hcommand] at hcommand'
    cases hcommand'
    rw [hrun]
    exact hperform s hopens

/-- Such a start leaves every file and every directory as it was, whatever stands in the place
of the store, and makes none. -/
theorem tree_runBy_of_spares {start : Start} {schedule : Schedule} {tree : FileTree}
    (h : start.Spares schedule tree) : (start.runBy schedule tree).tree = tree := by
  cases h with
  | unread hread => exact Start.tree_runBy_of_error schedule hread
  | idle hread hcommand =>
      rcases Start.runBy_cases schedule hread with hsame | ⟨command, s, hsome, _, _⟩
      · exact hsame
      · rw [hcommand] at hsome
        cases hsome
  | preview hread hcommand => exact tree_runBy_of_reads hread hcommand fun _ _ => rfl
  | kinds hread hcommand => exact tree_runBy_of_reads hread hcommand fun _ _ => rfl
  | refused hread hcommand hrefused =>
      apply tree_runBy_of_reads hread hcommand
      intro s hopens
      rcases hrefused s hopens with ⟨error, herror⟩
      exact (editStore_of_error tree herror).2
  | unset hread hcommand hmissing =>
      apply tree_runBy_of_reads hread hcommand
      intro s hopens
      rcases hopens with ⟨route, hroute, hopen⟩
      have hremove := Store.remove_of_missing hopen (hmissing s ⟨route, hroute, hopen⟩)
      change (unsetKey _ s tree).tree = tree
      rw [unsetKey, hremove]
      exact Store.treeOr_of_ofFile hopen
  | click hread hcommand hnone =>
      apply tree_runBy_of_reads hread hcommand
      intro s hopens
      change (clickButton ..).tree = tree
      rw [tree_clickButton, store_served (hnone s hopens)]
      rcases hopens with ⟨route, _, hopen⟩
      exact Store.treeOr_of_ofFile hopen

/-! A file that no store has written holds no workflow, and an action is to be removed from it.
In another one there is a workflow whose second step has no key. It is to be clicked three
times, but Ctrl-C is pressed after the second step of the first run. -/

def removeStart : Start := rootStart ["--data-dir", "data", "remove", "blink"]

def keylessText : String :=
  "\x7b\"buttonWorkflow\": \x7b\"actions\": [\x7b\"id\": \"a\", \"type\": \"showText\"\x7d, " ++
  "\x7b\"id\": \"b\", \"type\": \"setLocalStorage\", " ++
  "\"config\": \x7b\"value\": \"v\"\x7d\x7d]\x7d\x7d"

def keylessTree : FileTree :=
  (FileTree.bare.put ["data"] .directory).put ["data", "local_storage.json"]
    (.file keylessText.toUTF8)

def clickStart : Start :=
  { rootStart ["click", "--data-dir=data", "--times", "3"] with
    interruption := some (.clicking 400 3) }

theorem spares_removeStart : removeStart.Spares Schedule.usual dataTree := by
  refine .refused (e := .remove "blink") rfl rfl ?_
  intro s hopens
  have hdata : removeStart.Opens ⟨some "data", 300, some (.edit (.remove "blink"))⟩ dataTree
      (.file [("b", "y"), ("n", "[1,2.5]")] dataRoute dataTree) := ⟨dataRoute, rfl, ofFile_dataTree⟩
  rw [hopens.unique hdata]
  exact ⟨_, rfl⟩

/-- The world in which the runs of the interrupted start take place. -/
def keylessWorld : World :=
  served 300 (clickWorld Schedule.usual 3 true (clickStart.surroundings keylessTree)
    (.file (StoreText.read keylessText) dataRoute keylessTree))

theorem effects_keylessWorld :
    keylessWorld.doings.filterMap Happening.effect? = [.fragment, .skip] := by
  decide +kernel

theorem spares_clickStart : clickStart.Spares Schedule.usual keylessTree := by
  have hread : clickStart.Reads ⟨some "data", 300, some (.click 3 true)⟩ := rfl
  refine .click hread rfl ?_
  intro s hopens action key value hstep hperforms
  have hkeyless : clickStart.Opens ⟨some "data", 300, some (.click 3 true)⟩ keylessTree
      (.file (StoreText.read keylessText) dataRoute keylessTree) :=
    ⟨dataRoute, rfl, Store.ofFile_of_readText (FileTree.readText_of_contents rfl)⟩
  rw [hopens.unique hkeyless] at hperforms
  rcases hperforms.exists_write hstep with ⟨written, hwrite⟩
  have heffect : Effect.write ∈ keylessWorld.doings.filterMap Happening.effect? :=
    List.mem_filterMap.mpr ⟨_, hwrite, rfl⟩
  rw [effects_keylessWorld] at heffect
  revert heffect
  decide

theorem tree_runBy_of_spares_foreign :
    (removeStart.runBy Schedule.usual dataTree).tree = dataTree ∧
      (clickStart.runBy Schedule.usual keylessTree).tree = keylessTree ∧
      keylessWorld.doings.filterMap Happening.effect? = [.fragment, .skip] :=
  ⟨tree_runBy_of_spares spares_removeStart, tree_runBy_of_spares spares_clickStart,
    effects_keylessWorld⟩

end Cli

end ButtonFlow
