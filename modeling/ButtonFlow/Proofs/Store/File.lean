import ButtonFlow.Proofs.Json.ReadBack
import ButtonFlow.Proofs.Store.FileTree
import ButtonFlow.Store.Basic

/-!
# Opening a file that a store has written

The entries of a store in a file are sorted, and opening the file again gives the store. This
holds when the store is opened, whatever the file was like, and after every change that is
written.
-/

namespace ButtonFlow

open Json

/-!
## The text of a store
-/

namespace StoreText

theorem sorted_read (text : String) : Dict.Sorted (read text) := by
  unfold read
  cases hparse : Format.dict.parse text with
  | error e => exact Dict.sorted_nil
  | ok entries =>
      rcases bind_eq_ok.mp hparse with ⟨d, hread, htrailing⟩
      have hd : d = entries := by
        split at htrailing
        · cases htrailing
        · exact Except.ok.inj htrailing
      rw [hd] at hread
      change Value.readDict "a map" deepest (Document.ofText text).root = .ok entries at hread
      exact Dict.sorted_mapValues valueText (Value.sorted_of_readDict hread)

theorem exact_texts {entries : Dict String} (h : Dict.Sorted entries) :
    (Value.object (Dict.mapValues .string entries)).Exact := by
  apply Value.Exact.object (Dict.sorted_mapValues _ h)
  intro entry hentry
  rcases List.mem_map.mp hentry with ⟨pair, _, rfl⟩
  exact .string pair.2

theorem depth_texts (entries : Dict String) :
    (Value.object (Dict.mapValues .string entries)).depth ≤ 127 := by
  rw [Value.depth_object_le]
  intro entry hentry
  rcases List.mem_map.mp hentry with ⟨pair, _, rfl⟩
  exact Nat.zero_le 126

theorem mapValues_valueText (entries : Dict String) :
    Dict.mapValues valueText (Dict.mapValues .string entries) = entries := by
  unfold Dict.mapValues
  rw [List.map_map]
  exact List.map_id entries

theorem read_write {entries : Dict String} (h : Dict.Sorted entries) :
    read (write entries) = entries := by
  have hexact := exact_texts h
  have hparse : Format.dict.parse (write entries) = .ok (Dict.mapValues .string entries) := by
    have hread : Format.dict.read 127 (Value.object (Dict.mapValues .string entries)).tree =
        .ok (Dict.mapValues .string entries) :=
      ((Format.restores_dict hexact).read_tree 127).trans (if_pos (depth_texts entries))
    rw [Format.parse, write, Value.ofText_spreadText hexact.floatFree, Document.read, deepest,
      hread]
    rfl
  rw [read, hparse]
  exact mapValues_valueText entries

end StoreText

/-!
## The store and its file
-/

namespace Store

/-- A store in the file of a route whose entries are sorted, and are those that the file
holds. -/
inductive Agrees (route : Route) : Store → Prop where
  | file {entries : Dict String} {tree : FileTree} (hsorted : Dict.Sorted entries)
      (hopen : ofFile tree route = .ok (.file entries route tree)) :
      Agrees route (.file entries route tree)

theorem eq_file_of_ofFile {tree : FileTree} {route : Route} {s : Store}
    (h : ofFile tree route = .ok s) : ∃ entries, s = .file entries route tree := by
  unfold ofFile at h
  split at h
  · cases h
    exact ⟨_, rfl⟩
  · cases h
    exact ⟨_, rfl⟩
  · cases h

theorem agrees_of_ofFile {tree : FileTree} {route : Route} {s : Store}
    (h : ofFile tree route = .ok s) : Agrees route s := by
  have hopen := h
  unfold ofFile at h
  split at h
  · rename_i text _
    cases h
    exact .file (StoreText.sorted_read text) hopen
  · cases h
    exact .file Dict.sorted_nil hopen
  · cases h

theorem Agrees.ofFile_treeOr {route : Route} {s : Store} (h : Agrees route s)
    (tree : FileTree) : ofFile (s.treeOr tree) route = .ok s := by
  cases h with
  | file _ hopen => exact hopen

theorem ofFile_of_readText {tree : FileTree} {route : Route} {text : String}
    (h : tree.readText route = .ok text) :
    ofFile tree route = .ok (.file (StoreText.read text) route tree) := by
  rw [ofFile, h]

theorem agrees_of_persist {entries : Dict String} {route : Route} {tree : FileTree}
    (hsorted : Dict.Sorted entries) (h : (persist entries route tree).1 = .ok ()) :
    Agrees route (persist entries route tree).2 := by
  have htext := FileTree.readText_of_writeText h
  change Agrees route (.file entries route (tree.writeText route (StoreText.write entries)).2)
  apply Agrees.file hsorted
  rw [ofFile_of_readText htext, StoreText.read_write hsorted]

theorem agrees_set {route : Route} {s : Store} {key value : String} (hs : Agrees route s)
    (h : (s.set key value).1 = .ok ()) : Agrees route (s.set key value).2 := by
  cases hs with
  | file hsorted _ => exact agrees_of_persist (Dict.sorted_insert key value hsorted) h

theorem agrees_remove {route : Route} {s : Store} {key : String} (hs : Agrees route s)
    (h : (s.remove key).1 = .ok ()) : Agrees route (s.remove key).2 := by
  cases hs with
  | file hsorted hopen =>
      rename_i entries tree
      by_cases hkey : Dict.contains entries key = true
      · simp only [remove, if_pos hkey] at h ⊢
        exact agrees_of_persist (Dict.sorted_erase key hsorted) h
      · simp only [remove, if_neg hkey]
        exact .file hsorted hopen

end Store

end ButtonFlow
