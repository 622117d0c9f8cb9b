import ButtonFlow.Proofs.Store.File

/-!
# The memory of a store and its file

Whatever calls a store in a file has answered, opening its file again gives the store that is
in memory, as long as no writing fails.
-/

namespace ButtonFlow
namespace Store

inductive Call where
  | get (key : String)
  | set (key value : String)
  | remove (key : String)
  | keys

/-- The store after a call; none if its writing fails. -/
def after? (s : Store) : Call → Option Store
  | .get _ => some s
  | .set key value =>
      match s.set key value with
      | (.ok (), s) => some s
      | (.error _, _) => none
  | .remove key =>
      match s.remove key with
      | (.ok (), s) => some s
      | (.error _, _) => none
  | .keys => some s

def afterAll? (s : Store) (calls : List Call) : Option Store :=
  calls.foldlM after? s

theorem agrees_of_after? {route : Route} {s s' : Store} {call : Call} (hs : Agrees route s)
    (h : s.after? call = some s') : Agrees route s' := by
  cases call with
  | get key =>
      cases h
      exact hs
  | set key value =>
      simp only [after?] at h
      split at h
      · rename_i hset
        cases h
        have hagrees := agrees_set hs (congrArg Prod.fst hset)
        rwa [hset] at hagrees
      · cases h
  | remove key =>
      simp only [after?] at h
      split at h
      · rename_i hremove
        cases h
        have hagrees := agrees_remove hs (congrArg Prod.fst hremove)
        rwa [hremove] at hagrees
      · cases h
  | keys =>
      cases h
      exact hs

theorem agrees_of_afterAll? {route : Route} {calls : List Call} {s s' : Store}
    (hs : Agrees route s) (h : s.afterAll? calls = some s') : Agrees route s' := by
  induction calls generalizing s with
  | nil =>
      cases h
      exact hs
  | cons call calls ih =>
      rw [afterAll?, List.foldlM_cons] at h
      rcases Option.bind_eq_some_iff.mp h with ⟨next, hnext, hrest⟩
      exact ih (agrees_of_after? hs hnext) hrest

/-- From any file that can be opened and after any calls whose writing succeeds, opening the
file gives the very store that answered them. -/
theorem ofFile_after_calls {tree : FileTree} {route : Route} {opened live : Store}
    {calls : List Call} (hopen : ofFile tree route = .ok opened)
    (hcalls : opened.afterAll? calls = some live) :
    ofFile (live.treeOr tree) route = .ok live :=
  (agrees_of_afterAll? (agrees_of_ofFile hopen) hcalls).ofFile_treeOr tree

/-- A text that no store has written: not every value is a text, and a key stands there
twice. -/
def foreignText : String := "\x7b\"n\": [1, 2.50], \"b\": \"x\", \"b\": \"y\"\x7d"

def foreignRoute : Route := ⟨[], ["store.json"], false⟩

def foreignTree : FileTree :=
  FileTree.bare.put ["store.json"] (.file foreignText.toUTF8)

def foreignCalls : List Call :=
  [.remove "c", .get "n", .set "a" "z", .remove "b", .keys]

theorem read_foreignText : StoreText.read foreignText = [("b", "y"), ("n", "[1,2.5]")] := by
  decide +kernel

theorem ofFile_foreignTree :
    ofFile foreignTree foreignRoute =
      .ok (.file [("b", "y"), ("n", "[1,2.5]")] foreignRoute foreignTree) := by
  rw [← read_foreignText]
  exact ofFile_of_readText (FileTree.readText_of_contents rfl)

theorem ofFile_after_foreignCalls :
    ∃ opened live, ofFile foreignTree foreignRoute = .ok opened ∧
      opened.afterAll? foreignCalls = some live ∧
      live.entries = [("a", "z"), ("n", "[1,2.5]")] ∧
      ofFile (live.treeOr foreignTree) foreignRoute = .ok live := by
  have hcalls : afterAll? (.file [("b", "y"), ("n", "[1,2.5]")] foreignRoute foreignTree)
      foreignCalls = some _ := rfl
  refine ⟨_, _, ofFile_foreignTree, hcalls, ?_, ofFile_after_calls ofFile_foreignTree hcalls⟩
  decide +kernel

end Store
end ButtonFlow
