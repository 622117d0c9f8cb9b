import ButtonFlow.Proofs.Cli.Given
import ButtonFlow.Proofs.Cli.Starts
import ButtonFlow.Proofs.Store.Agreement
import ButtonFlow.Proofs.Store.Saved

/-!
# Editing from the command line

A workflow is edited by one start of the program after the other, each of which opens the same
file. What each of them saves can be read by the next, and the other keys of the store keep
their values.
-/

namespace ButtonFlow

open Json

/-!
## Saving in a file
-/

namespace Store

theorem get_set_of_ne {route : Route} {s : Store} (hs : Agrees route s) {key other : String}
    (hne : other ≠ key) (value : String) : (s.set key value).2.get other = s.get other := by
  cases hs with
  | file _ _ =>
      rename_i entries tree _ _
      exact congrArg Except.ok (Dict.get?_insert_other hne.symm value entries)

theorem exists_get {route : Route} {s : Store} (hs : Agrees route s) (key : String) :
    ∃ result, s.get key = .ok result := by
  cases hs with
  | file _ _ => exact ⟨_, rfl⟩

end Store

namespace Slot

theorem load?_save_of_storable {route : Route} {slot : String} {s : Store} {w : Workflow}
    (hs : Store.Agrees route s) (hw : w.Storable) (hsave : (save slot s w).1 = .ok ()) :
    load? slot (save slot s w).2 = .ok (some w) := by
  rcases Store.exists_get (Store.agrees_set hs hsave) slot with ⟨result, hread⟩
  rw [load?_save hw.exact hsave hread, within, if_pos hw.nesting_le]

theorem storable_load {slot : String} {s : Store}
    (h : ∀ w, load? slot s = .ok (some w) → w.Storable) : (load slot s).Storable := by
  unfold load
  split
  · rename_i w hw
    exact h w hw
  · exact Workflow.storable_initial

theorem storable_of_load? {slot : String} {s : Store} {w : Workflow}
    (h : load? slot s = .ok (some w)) (hfree : ∀ action ∈ w.actions, action.config.FloatFree) :
    w.Storable := by
  unfold load? at h
  split at h
  · cases h
  · cases h
  · split at h
    · rename_i hparse
      cases h
      exact Workflow.storable_of_parse hparse hfree
    · cases h

end Slot

namespace Cli

/-!
## One edit
-/

theorem loadOrExplain_workflow (missing : List Line) (remark : String) (s : Store) :
    (loadOrExplain missing remark s).2 = Slot.load Slot.usual s := by
  unfold loadOrExplain Slot.load
  split
  · rename_i hload
    rw [hload]
  · rename_i hload
    rw [hload]
  · rename_i hload
    rw [hload]

theorem editStore_of_error {fresh : String} {e : Edit} {s : Store} {error : EditError}
    (tree : FileTree) (h : (e.apply fresh (Slot.load Slot.usual s)).2 = .error error) :
    (editStore fresh e s tree).exitCode = 1 ∧ (editStore fresh e s tree).tree = tree := by
  simp only [editStore, loadOrExplain_workflow, h]
  exact ⟨rfl, rfl⟩

theorem editStore_of_ok {fresh : String} {e : Edit} {s : Store} {w : Workflow}
    (tree : FileTree) (h : (e.apply fresh (Slot.load Slot.usual s)).2 = .ok w)
    (hsave : (Slot.save Slot.usual s w).1 = .ok ()) :
    (editStore fresh e s tree).exitCode = 0 ∧
      (editStore fresh e s tree).tree = (Slot.save Slot.usual s w).2.treeOr tree := by
  simp only [editStore, loadOrExplain_workflow, h]
  cases hpair : Slot.save Slot.usual s w with
  | mk result s' =>
      rw [hpair] at hsave
      cases hsave
      exact ⟨rfl, rfl⟩

/-!
## Starts that edit
-/

namespace Start

inductive Edits (start : Start) (route : Route) (e : Edit) : Prop where
  | read {inv : Invocation} (hread : Invocation.read start.environment start.words = .ok inv)
      (hcommand : inv.command? = some (.edit e))
      (hroute : inv.storeRoute? start.environment start.workingDirectory = some route)

def outcome (start : Start) (e : Edit) (s : Store) : Except EditError Workflow :=
  (e.apply start.freshId (Slot.load Slot.usual s)).2

/-- If the edit gives a workflow among these files, then saving it does not fail. -/
def Writes (start : Start) (route : Route) (e : Edit) (tree : FileTree) : Prop :=
  ∀ s w, Store.ofFile tree route = .ok s → start.outcome e s = .ok w →
    (Slot.save Slot.usual s w).1 = .ok ()

theorem Edits.tagged {start : Start} {route : Route} {e : Edit} (h : start.Edits route e) :
    e.Tagged := by
  cases h with
  | read hread hcommand _ => exact Invocation.tagged_of_read hread hcommand

theorem Edits.run_eq {start : Start} {route : Route} {e : Edit} (h : start.Edits route e)
    {tree : FileTree} {s : Store} (hopen : Store.ofFile tree route = .ok s) :
    start.run tree = editStore start.freshId e s tree := by
  cases h with
  | read hread hcommand hroute =>
      exact runBy_of_opens Schedule.usual hread hcommand ⟨route, hroute, hopen⟩

end Start

/-!
## Starts one after the other
-/

/-- Files that edits in the file of a route leave behind, where no writing fails. -/
inductive Edited (route : Route) (first : FileTree) : FileTree → Prop where
  | refl : Edited route first first
  | step {before : FileTree} {start : Start} {e : Edit} (hbefore : Edited route first before)
      (hedits : start.Edits route e) (hwrites : start.Writes route e before) :
      Edited route first (start.run before).tree

/-- The store of a route in these files differs from one that was opened at most in the usual
slot, and what can be read there can be saved again. -/
inductive Intact (route : Route) (opened : Store) (tree : FileTree) : Prop where
  | store {s : Store} (hopen : Store.ofFile tree route = .ok s)
      (hkeys : ∀ key, key ≠ Slot.usual → s.get key = opened.get key)
      (hstorable : ∀ w, Slot.load? Slot.usual s = .ok (some w) → w.Storable)

structure Kept (start : Start) (route : Route) (e : Edit) (opened : Store) (tree : FileTree)
    (s s' : Store) : Prop where
  reopen : Store.ofFile (start.run tree).tree route = .ok s'
  keys : ∀ key, key ≠ Slot.usual → s'.get key = opened.get key
  success : (start.run tree).exitCode = 0 ↔ ∃ w, start.outcome e s = .ok w
  saved : ∀ w, start.outcome e s = .ok w → w.Storable ∧ Slot.load? Slot.usual s' = .ok (some w)
  refused : ∀ error, start.outcome e s = .error error → s' = s

theorem exists_kept {start : Start} {route : Route} {e : Edit} {opened : Store}
    {tree : FileTree} {s : Store} (hopen : Store.ofFile tree route = .ok s)
    (hkeys : ∀ key, key ≠ Slot.usual → s.get key = opened.get key)
    (hstorable : ∀ w, Slot.load? Slot.usual s = .ok (some w) → w.Storable)
    (hedits : start.Edits route e) (hwrites : start.Writes route e tree) :
    ∃ s', Kept start route e opened tree s s' := by
  have hrun := hedits.run_eq hopen
  have hagrees := Store.agrees_of_ofFile hopen
  cases houtcome : start.outcome e s with
  | error error =>
      rcases editStore_of_error tree houtcome with ⟨hcode, htree⟩
      refine ⟨s, ?_, hkeys, ?_, ?_, fun _ _ => rfl⟩
      · rw [hrun, htree]
        exact hopen
      · rw [hrun, hcode]
        constructor
        · intro hzero
          cases hzero
        · rintro ⟨w, hw⟩
          rw [houtcome] at hw
          cases hw
      · intro w hw
        rw [houtcome] at hw
        cases hw
  | ok w =>
      have hsave := hwrites s w hopen houtcome
      have hw := Edit.storable_apply hedits.tagged (Slot.storable_load hstorable) houtcome
      rcases editStore_of_ok tree houtcome hsave with ⟨hcode, htree⟩
      refine ⟨(Slot.save Slot.usual s w).2, ?_, ?_, ?_, ?_, ?_⟩
      · rw [hrun, htree]
        exact (Store.agrees_set hagrees hsave).ofFile_treeOr tree
      · intro key hkey
        rw [← hkeys key hkey]
        exact Store.get_set_of_ne hagrees hkey _
      · rw [hrun, hcode]
        exact ⟨fun _ => ⟨w, houtcome⟩, fun _ => rfl⟩
      · intro w' hw'
        rw [houtcome] at hw'
        cases hw'
        exact ⟨hw, Slot.load?_save_of_storable hagrees hw hsave⟩
      · intro error herror
        rw [houtcome] at herror
        cases herror

theorem intact_step {start : Start} {route : Route} {e : Edit} {opened : Store}
    {tree : FileTree} (h : Intact route opened tree) (hedits : start.Edits route e)
    (hwrites : start.Writes route e tree) : Intact route opened (start.run tree).tree := by
  cases h with
  | store hopen hkeys hstorable =>
      rename_i s
      rcases exists_kept hopen hkeys hstorable hedits hwrites with ⟨s', hkept⟩
      apply Intact.store hkept.reopen hkept.keys
      intro w hw
      cases houtcome : start.outcome e s with
      | error error =>
          rw [hkept.refused error houtcome] at hw
          exact hstorable w hw
      | ok saved =>
          rcases hkept.saved saved houtcome with ⟨hsaved, hload⟩
          rw [hload] at hw
          cases hw
          exact hsaved

theorem intact_of_edited {route : Route} {first tree : FileTree} {opened : Store}
    (hfirst : Intact route opened first) (h : Edited route first tree) :
    Intact route opened tree := by
  induction h with
  | refl => exact hfirst
  | step _ hedits hwrites ih => exact intact_step ih hedits hwrites

/-- However often a store was edited before: the next edit succeeds exactly if it is not
refused, the workflow that it computes is what is then read from the file, and the other keys
have the values that they had in the beginning. -/
theorem edits_lose_nothing {route : Route} {first before : FileTree} {opened : Store}
    {start : Start} {e : Edit} (hopen : Store.ofFile first route = .ok opened)
    (hfree : ∀ w, Slot.load? Slot.usual opened = .ok (some w) →
      ∀ action ∈ w.actions, action.config.FloatFree)
    (hbefore : Edited route first before) (hedits : start.Edits route e)
    (hwrites : start.Writes route e before) :
    ∃ s s', Store.ofFile before route = .ok s ∧
      Store.ofFile (start.run before).tree route = .ok s' ∧
      ((start.run before).exitCode = 0 ↔ ∃ w, start.outcome e s = .ok w) ∧
      (∀ w, start.outcome e s = .ok w → Slot.load? Slot.usual s' = .ok (some w)) ∧
      ∀ key, key ≠ Slot.usual → s'.get key = opened.get key := by
  have hfirst : Intact route opened first :=
    .store hopen (fun _ _ => rfl) fun w hw => Slot.storable_of_load? hw (hfree w hw)
  cases intact_of_edited hfirst hbefore with
  | store hopened hkeys hstorable =>
      rename_i s
      rcases exists_kept hopened hkeys hstorable hedits hwrites with ⟨s', hkept⟩
      exact ⟨s, s', hopened, hkept.reopen, hkept.success,
        fun w hw => (hkept.saved w hw).2, hkept.keys⟩

/-! A file that no store has written is edited twice. -/

def dataRoute : Route := ⟨[], ["data", "local_storage.json"], false⟩

def dataTree : FileTree :=
  (FileTree.bare.put ["data"] .directory).put ["data", "local_storage.json"]
    (.file Store.foreignText.toUTF8)

def rootStart (words : List String) : Start :=
  ⟨words, ⟨none, none, none, none⟩, [], [], "action-1", ⟨toString, id, 0, 0⟩, none⟩

def addStart : Start := rootStart ["--data-dir", "data", "add", "blink", "size=big"]

def labelStart : Start := rootStart ["label", "--data-dir=data", "Go"]

def blinking (label : String) : Workflow :=
  ⟨label, [⟨"action-1", Kind.ofTag "blink", ⟨[("size", .string "big")]⟩⟩]⟩

theorem edits_addStart :
    addStart.Edits dataRoute (.add (Kind.ofTag "blink") [⟨"size", "big"⟩]) :=
  .read rfl rfl rfl

theorem edits_labelStart : labelStart.Edits dataRoute (.relabel "Go") :=
  .read rfl rfl rfl

theorem ofFile_dataTree :
    Store.ofFile dataTree dataRoute =
      .ok (.file [("b", "y"), ("n", "[1,2.5]")] dataRoute dataTree) := by
  rw [← Store.read_foreignText]
  exact Store.ofFile_of_readText (FileTree.readText_of_contents rfl)

theorem writes_addStart :
    addStart.Writes dataRoute (.add (Kind.ofTag "blink") [⟨"size", "big"⟩]) dataTree := by
  intro s w hopen _
  rcases Store.eq_file_of_ofFile hopen with ⟨entries, rfl⟩
  rfl

theorem writes_labelStart :
    labelStart.Writes dataRoute (.relabel "Go") (addStart.run dataTree).tree := by
  intro s w hopen _
  rcases Store.eq_file_of_ofFile hopen with ⟨entries, rfl⟩
  have hsave := writes_addStart _ (blinking "Click Me!") ofFile_dataTree rfl
  rw [edits_addStart.run_eq ofFile_dataTree, (editStore_of_ok dataTree rfl hsave).2]
  rfl

theorem edits_lose_nothing_foreign :
    ∃ s, Store.ofFile (labelStart.run (addStart.run dataTree).tree).tree dataRoute = .ok s ∧
      Slot.load? Slot.usual s = .ok (some (blinking "Go")) ∧
      s.get "b" = .ok (some "y") ∧ s.get "n" = .ok (some "[1,2.5]") := by
  have hfree : ∀ w,
      Slot.load? Slot.usual (.file [("b", "y"), ("n", "[1,2.5]")] dataRoute dataTree) =
        .ok (some w) → ∀ action ∈ w.actions, action.config.FloatFree := by
    intro w hw
    cases hw
  rcases edits_lose_nothing ofFile_dataTree hfree .refl edits_addStart writes_addStart with
    ⟨first, added, hfirst, hadded, _, hload, _⟩
  rw [ofFile_dataTree] at hfirst
  cases hfirst
  have hblinking := Slot.load_of_load? (hload (blinking "Click Me!") rfl)
  rcases edits_lose_nothing ofFile_dataTree hfree (.step .refl edits_addStart writes_addStart)
      edits_labelStart writes_labelStart with
    ⟨again, labelled, hagain, hlabelled, _, hload, hkeys⟩
  rw [hadded] at hagain
  cases hagain
  have houtcome : labelStart.outcome (.relabel "Go") added = .ok (blinking "Go") := by
    rw [Start.outcome, hblinking]
    rfl
  exact ⟨labelled, hlabelled, hload _ houtcome, hkeys "b" (by decide), hkeys "n" (by decide)⟩

end Cli
end ButtonFlow
