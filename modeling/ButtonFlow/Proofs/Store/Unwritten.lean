import ButtonFlow.Proofs.Store.File

/-!
# Changes that could not be written

A store in a file changes its memory first. If the file cannot be written, the change is
reported as failed and nothing of it reaches the file, but the store itself answers from then
on as if the change had been made: the value can be read, and a key whose removal has failed is
gone. So the removal cannot be repeated, although the file still has the key.
-/

namespace ButtonFlow

theorem FileTree.writeText_of_error {t : FileTree} {r : Route} {old text : String} {e : IoError}
    (hread : t.readText r = .ok old) (h : (t.writeText r text).1 = .error e) :
    (t.writeText r text).2 = t := by
  rcases bind_eq_ok.mp hread with ⟨bytes, hcontents, _⟩
  exact writeBytes_of_error hcontents h

namespace Store

/-- Whatever is asked of one store, the other one answers the same. -/
structure AnswersAlike (s s' : Store) : Prop where
  get : ∀ key, s'.get key = s.get key
  keys : s'.keys = s.keys

/-- A key has got a value, or has lost it, in the memory of a store but not in its file. -/
structure Unwritten (s s' : Store) (key : String) (value? : Option String) : Prop where
  changed : s'.get key = .ok value?
  others : ∀ other, other ≠ key → s'.get other = s.get other
  files : ∀ entries route tree text, s = .file entries route tree →
    tree.readText route = .ok text → s'.treeOr tree = tree

variable {entries : Dict String} {route : Route} {tree : FileTree} {key : String} {e : IoError}

theorem treeOr_persist_of_error {entries' : Dict String} {text : String}
    (hread : tree.readText route = .ok text) (h : (persist entries' route tree).1 = .error e) :
    (persist entries' route tree).2.treeOr tree = tree :=
  FileTree.writeText_of_error hread h

theorem remove_of_contains (hkey : Dict.contains entries key = true) :
    (Store.file entries route tree).remove key =
      persist (Dict.erase entries key) route tree :=
  if_pos hkey

theorem remove_of_not_contains (hkey : Dict.contains entries key = false) :
    (Store.file entries route tree).remove key = (.ok (), .file entries route tree) := by
  rw [remove, hkey]
  rfl

theorem unwritten_insert {value : String}
    (h : (persist (Dict.insert entries key value) route tree).1 = .error e) :
    Unwritten (.file entries route tree) (persist (Dict.insert entries key value) route tree).2
      key (some value) := by
  constructor
  · exact congrArg Except.ok (Dict.get?_insert_self key value entries)
  · intro other hother
    exact congrArg Except.ok (Dict.get?_insert_other hother.symm value entries)
  · rintro _ _ _ text ⟨⟩ hread
    exact treeOr_persist_of_error hread h

theorem unwritten_erase (h : (persist (Dict.erase entries key) route tree).1 = .error e) :
    Unwritten (.file entries route tree) (persist (Dict.erase entries key) route tree).2
      key none := by
  constructor
  · exact congrArg Except.ok (Dict.get?_erase_self key entries)
  · intro other hother
    exact congrArg Except.ok (Dict.get?_erase_other hother.symm entries)
  · rintro _ _ _ text ⟨⟩ hread
    exact treeOr_persist_of_error hread h

theorem Unwritten.not_answersAlike {s s' : Store} {value value' : Option String}
    (h : Unwritten s s' key value') (hkey : s.get key = .ok value) (hne : value' ≠ value) :
    ¬ AnswersAlike s s' := by
  intro halike
  have hsame := (halike.get key).symm.trans h.changed
  rw [hkey] at hsame
  exact hne (Except.ok.inj hsame).symm

/-- Nobody notices that a value could not be written if it is the value that was there. -/
theorem answersAlike_set_iff (hsorted : Dict.Sorted entries) {value : String}
    (h : (persist (Dict.insert entries key value) route tree).1 = .error e) :
    AnswersAlike (.file entries route tree) ((Store.file entries route tree).set key value).2 ↔
      Dict.get? entries key = some value := by
  constructor
  · intro halike
    have hsame := (halike.get key).symm.trans (unwritten_insert h).changed
    exact Except.ok.inj hsame
  · intro hkey
    have hentries := Dict.insert_eq_self hsorted hkey
    constructor
    · intro other
      exact congrArg (fun d => Except.ok (Dict.get? d other)) hentries
    · exact congrArg Dict.keys hentries

/-- A change that could not be written is reported, and can be seen in the same store all the
same: always if a key was to be removed, and unless the value was there before if one was to be
set. The removal is not tried again. -/
theorem unwritten_change_seen (hsorted : Dict.Sorted entries) (route : Route) (tree : FileTree) :
    (∀ key value e, (persist (Dict.insert entries key value) route tree).1 = .error e →
      ∃ s', (Store.file entries route tree).set key value = (.error e, s') ∧
        Unwritten (.file entries route tree) s' key (some value) ∧
        (AnswersAlike (.file entries route tree) s' ↔ Dict.get? entries key = some value)) ∧
    ∀ key e, Dict.contains entries key = true →
      (persist (Dict.erase entries key) route tree).1 = .error e →
      ∃ s', (Store.file entries route tree).remove key = (.error e, s') ∧
        Unwritten (.file entries route tree) s' key none ∧
        ¬ AnswersAlike (.file entries route tree) s' ∧ s'.remove key = (.ok (), s') := by
  constructor
  · intro key value e h
    exact ⟨_, Prod.ext h rfl, unwritten_insert h, answersAlike_set_iff hsorted h⟩
  · intro key e hkey h
    have hunwritten := unwritten_erase h
    refine ⟨_, (remove_of_contains hkey).trans (Prod.ext h rfl), hunwritten, ?_, ?_⟩
    · rcases Option.isSome_iff_exists.mp hkey with ⟨value, hvalue⟩
      exact hunwritten.not_answersAlike (congrArg Except.ok hvalue) (Option.some_ne_none value).symm
    · apply remove_of_not_contains
      rw [Dict.contains, Dict.get?_erase_self]
      rfl

/-! The file of a store has become a directory. -/

def blockedTree : FileTree := FileTree.bare.put ["store.json"] .directory

def blocked : Store := .file [("k", "v")] ⟨[], ["store.json"], false⟩ blockedTree

theorem unwritten_change_seen_blocked :
    Dict.Sorted [("k", "v")] ∧
      (∃ s', blocked.set "a" "1" = (.error .isADirectory, s') ∧
        Unwritten blocked s' "a" (some "1") ∧ ¬ AnswersAlike blocked s') ∧
      ∃ s', blocked.remove "k" = (.error .isADirectory, s') ∧
        Unwritten blocked s' "k" none ∧ s'.remove "k" = (.ok (), s') := by
  have hsorted : Dict.Sorted [("k", "v")] := List.pairwise_singleton _ _
  have hseen := unwritten_change_seen hsorted ⟨[], ["store.json"], false⟩ blockedTree
  rcases hseen.1 "a" "1" .isADirectory rfl with ⟨written, hset, hvalue, halike⟩
  rcases hseen.2 "k" .isADirectory rfl rfl with ⟨s', hremove, hunwritten, _, hagain⟩
  refine ⟨hsorted, ⟨written, hset, hvalue, ?_⟩, s', hremove, hunwritten, hagain⟩
  intro hsame
  exact absurd (halike.mp hsame) (by decide)

/-- Neither a value that could not be written nor a removal that could not be leaves the
answers as they were. -/
theorem not_answersAlike_blocked :
    (blocked.set "a" "1").1 = .error .isADirectory ∧ blocked.get "a" = .ok none ∧
      (blocked.set "a" "1").2.get "a" = .ok (some "1") ∧
      (blocked.set "a" "1").2.keys ≠ blocked.keys ∧
      (blocked.remove "k").1 = .error .isADirectory ∧ blocked.get "k" = .ok (some "v") ∧
      (blocked.remove "k").2.get "k" = .ok none := by
  refine ⟨rfl, rfl, rfl, by decide, rfl, rfl, rfl⟩

end Store

end ButtonFlow
