import ButtonFlow.Proofs.Except
import ButtonFlow.Store.FileTree

/-!
# Reading a file that was written

A file is only written where no directory stands. So the names of its route lead to the same
directory as before, and there the file is found. If the writing fails, a file that could be
read is still there, and nothing else has changed either.
-/

namespace ButtonFlow
namespace FileTree

def Free (t : FileTree) (path : Path) : Prop :=
  ∀ node, t.node? path = some node → node.isDirectory = false

theorem node?_put (t : FileTree) (path : Path) (node : Node) :
    (t.put path node).node? path = some node :=
  if_pos rfl

theorem node?_put_of_ne (t : FileTree) {path other : Path} (node : Node) (hne : other ≠ path) :
    (t.put path node).node? other = t.node? other :=
  if_neg hne

theorem lookUp_put (t : FileTree) (directory : Path) (name : String) (node : Node)
    (hname : ¬ Route.nameLimit < name.utf8ByteSize) :
    (t.put (directory ++ [name]) node).lookUp directory name = .ok (some node) := by
  rw [lookUp, if_neg hname, node?_put]

theorem walk_here (t : FileTree) (directory : Path) (names : List String) :
    t.walk directory (Route.here :: names) = t.walk directory names :=
  if_pos rfl

theorem walk_up (t : FileTree) (directory : Path) (names : List String) :
    t.walk directory (Route.up :: names) = t.walk directory.dropLast names := by
  rw [walk, if_neg (by decide), if_pos rfl]

theorem walk_into {t : FileTree} {directory : Path} {name : String} {names : List String}
    {node : Node} (hhere : name ≠ Route.here) (hup : name ≠ Route.up)
    (hfound : t.lookUp directory name = .ok (some node)) (hnode : node.isDirectory = true) :
    t.walk directory (name :: names) = t.walk (directory ++ [name]) names := by
  rw [walk, if_neg hhere, if_neg hup, hfound, ok_bind]
  exact if_pos hnode

theorem exists_of_walk_cons {t : FileTree} {directory arrived : Path} {name : String}
    {names : List String} (hhere : name ≠ Route.here) (hup : name ≠ Route.up)
    (h : t.walk directory (name :: names) = .ok arrived) :
    ∃ node, t.lookUp directory name = .ok (some node) ∧ node.isDirectory = true ∧
      t.walk (directory ++ [name]) names = .ok arrived := by
  unfold walk at h
  rw [if_neg hhere, if_neg hup] at h
  rcases bind_eq_ok.mp h with ⟨found, hfound, hrest⟩
  cases found with
  | none => cases hrest
  | some node =>
      by_cases hnode : node.isDirectory = true
      · simp only [if_pos hnode] at hrest
        exact ⟨node, hfound, hnode, hrest⟩
      · simp [hnode] at hrest

theorem lookUp_put_of_free {t : FileTree} {path : Path} (hfree : t.Free path) (node : Node)
    {directory : Path} {name : String} {step : Node}
    (hfound : t.lookUp directory name = .ok (some step)) (hstep : step.isDirectory = true) :
    (t.put path node).lookUp directory name = .ok (some step) := by
  have hlong : ¬ Route.nameLimit < name.utf8ByteSize := by
    intro hlong
    rw [lookUp, if_pos hlong] at hfound
    cases hfound
  rw [lookUp, if_neg hlong] at hfound
  have hnode := Except.ok.inj hfound
  have hne : directory ++ [name] ≠ path := by
    intro heq
    rw [heq] at hnode
    rw [hfree step hnode] at hstep
    cases hstep
  rw [lookUp, if_neg hlong, node?_put_of_ne t node hne, hnode]

theorem walk_put {t : FileTree} {path : Path} (hfree : t.Free path) (node : Node)
    {directory arrived : Path} {names : List String} (h : t.walk directory names = .ok arrived) :
    (t.put path node).walk directory names = .ok arrived := by
  induction names generalizing directory with
  | nil => exact h
  | cons name names ih =>
      by_cases hhere : name = Route.here
      · subst hhere
        rw [walk_here] at h ⊢
        exact ih h
      · by_cases hup : name = Route.up
        · subst hup
          rw [walk_up] at h ⊢
          exact ih h
        · rcases exists_of_walk_cons hhere hup h with ⟨step, hfound, hstep, hrest⟩
          rw [walk_into hhere hup (lookUp_put_of_free hfree node hfound hstep) hstep]
          exact ih hrest

structure Replaced (t : FileTree) (r : Route) (bytes : ByteArray) (after : FileTree) where
  directory : Path
  name : String
  approach : t.approach r = .ok (directory, some name)
  file : r.isDirectory = false
  short : ¬ Route.nameLimit < name.utf8ByteSize
  free : t.Free (directory ++ [name])
  after_eq : after = t.put (directory ++ [name]) (.file bytes)

theorem exists_replaced {t after : FileTree} {r : Route} {bytes : ByteArray}
    (h : t.replaceFile r bytes = .ok after) : Nonempty (Replaced t r bytes after) := by
  rcases bind_eq_ok.mp h with ⟨⟨directory, last⟩, happroach, h⟩
  cases last with
  | none => cases h
  | some name =>
      cases hfile : r.isDirectory with
      | true => simp [hfile] at h
      | false =>
          simp only [hfile, Bool.false_eq_true, if_false] at h
          rcases bind_eq_ok.mp h with ⟨found, hfound, h⟩
          have hshort : ¬ Route.nameLimit < name.utf8ByteSize := by
            intro hlong
            rw [lookUp, if_pos hlong] at hfound
            cases hfound
          rw [lookUp, if_neg hshort] at hfound
          have hnode := Except.ok.inj hfound
          have hfree : t.Free (directory ++ [name]) := by
            intro node hsome
            rw [← hnode, hsome] at h
            cases node with
            | directory => cases h
            | file bytes => rfl
            | locked cause => rfl
          have hmake : t.make (directory ++ [name]) (.file bytes) = .ok after := by
            split at h
            · cases h
            · exact h
          have hafter : t.put (directory ++ [name]) (.file bytes) = after := by
            unfold make at hmake
            split at hmake
            · cases hmake
            · exact Except.ok.inj hmake
          exact ⟨⟨directory, name, happroach, hfile, hshort, hfree, hafter.symm⟩⟩

theorem contents_of_replaced {t after : FileTree} {r : Route} {bytes : ByteArray}
    (h : Replaced t r bytes after) : after.contents r = .ok bytes := by
  rcases h with ⟨directory, name, happroach, hfile, hshort, hfree, rfl⟩
  rcases bind_eq_ok.mp happroach with ⟨arrived, hwalk, hlast⟩
  have hagain : (t.put (directory ++ [name]) (.file bytes)).approach r =
      .ok (directory, some name) := by
    rw [approach, walk_put hfree _ hwalk]
    exact hlast
  rw [contents, find, hagain, ok_bind]
  simp only [lookUp_put t directory name (.file bytes) hshort, ok_bind, hfile, Bool.false_and,
    Bool.false_eq_true, if_false]

theorem contents_of_writeBytes {t : FileTree} {r : Route} {bytes : ByteArray}
    (h : (t.writeBytes r bytes).1 = .ok ()) :
    (t.writeBytes r bytes).2.contents r = .ok bytes := by
  unfold writeBytes at h ⊢
  cases hdirectories : t.makeDirectories r.start r.parentNames with
  | mk result made =>
      rw [hdirectories] at h
      cases result with
      | error e => cases h
      | ok u =>
          cases hreplace : made.replaceFile r bytes with
          | error e =>
              simp only [hreplace] at h
              cases h
          | ok after =>
              rcases exists_replaced hreplace with ⟨hreplaced⟩
              simp only [hreplace]
              exact contents_of_replaced hreplaced

theorem fromUTF8?_toUTF8 (text : String) : String.fromUTF8? text.toUTF8 = some text :=
  dif_pos text.isValidUTF8

theorem readText_of_contents {t : FileTree} {r : Route} {text : String}
    (h : t.contents r = .ok text.toUTF8) : t.readText r = .ok text := by
  rw [readText, h, ok_bind, fromUTF8?_toUTF8]

/-- A text that was written without an error is read again. -/
theorem readText_of_writeText {t : FileTree} {r : Route} {text : String}
    (h : (t.writeText r text).1 = .ok ()) : (t.writeText r text).2.readText r = .ok text :=
  readText_of_contents (contents_of_writeBytes h)

/-!
## Writing that fails
-/

theorem makeDirectories_of_walk {t : FileTree} {directory arrived : Path} {names : List String}
    (h : t.walk directory names = .ok arrived) :
    t.makeDirectories directory (names.filter (· ≠ Route.here)) = (.ok (), t) := by
  induction names generalizing directory with
  | nil => rfl
  | cons name names ih =>
      by_cases hhere : name = Route.here
      · subst hhere
        rw [walk_here] at h
        rw [List.filter_cons_of_neg (by simp)]
        exact ih h
      · rw [List.filter_cons_of_pos (by simpa using hhere), makeDirectories]
        by_cases hup : name = Route.up
        · subst hup
          rw [walk_up] at h
          rw [if_pos rfl]
          exact ih h
        · rcases exists_of_walk_cons hhere hup h with ⟨node, hfound, hnode, hrest⟩
          rw [if_neg hup]
          simp only [hfound, if_pos hnode]
          exact ih hrest

theorem exists_walk_of_contents {t : FileTree} {r : Route} {bytes : ByteArray}
    (h : t.contents r = .ok bytes) :
    ∃ directory name, t.walk r.start r.names.dropLast = .ok directory ∧
      r.names.getLast? = some name ∧ name ≠ Route.here := by
  rcases bind_eq_ok.mp h with ⟨node, hfind, hnode⟩
  rcases bind_eq_ok.mp hfind with ⟨⟨directory, last⟩, happroach, hfound⟩
  rcases bind_eq_ok.mp happroach with ⟨arrived, hwalk, hlast⟩
  have hpair := Prod.mk.inj (Except.ok.inj hlast)
  cases last with
  | none =>
      cases hfound
      cases hnode
  | some name =>
      rcases Option.filter_eq_some_iff.mp hpair.2 with ⟨hname, hplain⟩
      have hhere : name ≠ Route.here := by
        intro hhere
        simp [hhere] at hplain
      exact ⟨arrived, name, hwalk, hname, hhere⟩

theorem parentNames_of_getLast? {r : Route} {name : String} (hlast : r.names.getLast? = some name)
    (hhere : name ≠ Route.here) :
    r.parentNames = r.names.dropLast.filter (· ≠ Route.here) := by
  rcases List.getLast?_eq_some_iff.mp hlast with ⟨earlier, hnames⟩
  unfold Route.parentNames
  rw [hnames, List.filter_append, List.filter_cons_of_pos (by simpa using hhere), List.filter_nil,
    List.dropLast_concat, List.dropLast_concat]

theorem makeDirectories_of_contents {t : FileTree} {r : Route} {bytes : ByteArray}
    (h : t.contents r = .ok bytes) : t.makeDirectories r.start r.parentNames = (.ok (), t) := by
  rcases exists_walk_of_contents h with ⟨directory, name, hwalk, hlast, hhere⟩
  rw [parentNames_of_getLast? hlast hhere]
  exact makeDirectories_of_walk hwalk

/-- If a file could be read before, then a failure of writing leaves all files as they are. -/
theorem writeBytes_of_error {t : FileTree} {r : Route} {old bytes : ByteArray} {e : IoError}
    (hread : t.contents r = .ok old) (h : (t.writeBytes r bytes).1 = .error e) :
    (t.writeBytes r bytes).2 = t := by
  unfold writeBytes at h ⊢
  simp only [makeDirectories_of_contents hread] at h ⊢
  cases hreplace : t.replaceFile r bytes with
  | error e => rfl
  | ok after =>
      rw [hreplace] at h
      cases h

end FileTree
end ButtonFlow
