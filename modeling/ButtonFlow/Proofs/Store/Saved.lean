import ButtonFlow.Proofs.Dict
import ButtonFlow.Proofs.Workflow.Format
import ButtonFlow.Store.Slot

/-!
# Loading what was saved

A store gives back what it was given under a key. So a workflow that was saved is loaded again
exactly if its text does not open more arrays and objects at once than a reader follows.
-/

namespace ButtonFlow

open Json

namespace Store

theorem get_of_set {s : Store} {key value : String} {result : Option String}
    (hset : (s.set key value).1 = .ok ()) (hget : (s.set key value).2.get key = .ok result) :
    result = some value := by
  cases s with
  | memory entries faults =>
      by_cases hwrite : key ∈ faults.writes
      · simp only [set, if_pos hwrite] at hset
        cases hset
      · simp only [set, if_neg hwrite, get] at hget
        by_cases hread : key ∈ faults.reads
        · rw [if_pos hread] at hget
          cases hget
        · rw [if_neg hread, Dict.get?_insert_self] at hget
          cases hget
          rfl
  | file entries route tree =>
      change Except.ok (Dict.get? (Dict.insert entries key value) key) = _ at hget
      rw [Dict.get?_insert_self] at hget
      cases hget
      rfl

end Store

namespace Slot

theorem load?_of_get {slot text : String} {s : Store} (h : s.get slot = .ok (some text)) :
    load? slot s =
      match Workflow.format.parse text with
      | .ok w => .ok (some w)
      | .error f => .error (.unreadable f) := by
  unfold load?
  split
  · rename_i hget
    rw [h] at hget
    cases hget
  · rename_i hget
    rw [h] at hget
    cases hget
  · rename_i hget
    rw [h] at hget
    cases hget
    rfl

theorem load_of_load? {slot : String} {s : Store} {w : Workflow}
    (h : load? slot s = .ok (some w)) : load slot s = w := by
  rw [load, h]

theorem load_of_error {slot : String} {s : Store} {e : LoadError}
    (h : load? slot s = .error e) : load slot s = .initial := by
  rw [load, h]

/-- What is loaded after a workflow was saved depends only on how many arrays and objects its
text opens at once. -/
theorem load?_save {slot : String} {s : Store} {w : Workflow} {result : Option String}
    (hexact : w.Exact) (hsave : (save slot s w).1 = .ok ())
    (hread : (save slot s w).2.get slot = .ok result) :
    load? slot (save slot s w).2 =
      match within 127 (nesting (Workflow.format.print w)) w with
      | .ok w => .ok (some w)
      | .error f => .error (.unreadable f) := by
  rw [Store.get_of_set hsave hread] at hread
  rw [load?_of_get hread, Workflow.parse_print hexact]

/-- An exact workflow that was saved is loaded again if its text opens at most 127 arrays and
objects at once. If it opens more, then it counts as malformed, and the initial workflow takes
its place. -/
theorem loaded_after_save {slot : String} {s : Store} {w : Workflow} {result : Option String}
    (hexact : w.Exact) (hsave : (save slot s w).1 = .ok ())
    (hread : (save slot s w).2.get slot = .ok result) :
    (nesting (Workflow.format.print w) ≤ 127 →
      load? slot (save slot s w).2 = .ok (some w) ∧ load slot (save slot s w).2 = w) ∧
    (127 < nesting (Workflow.format.print w) →
      load? slot (save slot s w).2 = .error (.unreadable .malformed) ∧
        load slot (save slot s w).2 = .initial) := by
  have hload := load?_save hexact hsave hread
  constructor
  · intro hnesting
    rw [within, if_pos hnesting] at hload
    exact ⟨hload, load_of_load? hload⟩
  · intro hnesting
    rw [within, if_neg (Nat.not_le.mpr hnesting)] at hload
    exact ⟨hload, load_of_error hload⟩

def nested : Nat → Value
  | 0 => .null
  | n + 1 => .array [nested n]

def boxed (n : Nat) : Workflow :=
  ⟨"Go \"on\"", [⟨"a1", Kind.ofTag "unbox\n", ⟨[("box", nested n)]⟩⟩]⟩

theorem exact_nested (n : Nat) : (nested n).Exact := by
  induction n with
  | zero => exact .null
  | succ n ih => exact .array (List.forall_mem_singleton.mpr ih)

theorem exact_boxed (n : Nat) : (boxed n).Exact := by
  intro action haction
  cases List.mem_singleton.mp haction
  constructor
  · exact ⟨"unbox\n", rfl⟩
  · exact .object (List.pairwise_singleton _ _)
      (List.forall_mem_singleton.mpr (exact_nested n))

theorem depth_nested (n : Nat) : (nested n).depth = n := by
  induction n with
  | zero => rfl
  | succ n ih =>
      change max (nested n).depth 0 + 1 = n + 1
      rw [ih, Nat.max_zero]

theorem nesting_boxed (n : Nat) : nesting (Workflow.format.print (boxed n)) = n + 4 := by
  rw [Workflow.nesting_print (exact_boxed n)]
  change max 0 (max (max (max 0 (max 0 (max (max (nested n).depth 0 + 1) 0)) + 1) 0 + 1) 0) + 1
    = n + 4
  rw [depth_nested]
  omega

/-- The limit is sharp. -/
theorem loaded_after_save_at_limit :
    load? usual (save usual (.memory [] Faults.none) (boxed 123)).2 = .ok (some (boxed 123)) ∧
    load? usual (save usual (.memory [] Faults.none) (boxed 124)).2 =
      .error (.unreadable .malformed) := by
  have hwithin : nesting (Workflow.format.print (boxed 123)) ≤ 127 :=
    Nat.le_of_eq (nesting_boxed 123)
  have hbeyond : 127 < nesting (Workflow.format.print (boxed 124)) :=
    Nat.lt_of_lt_of_eq (Nat.lt_succ_self 127) (nesting_boxed 124).symm
  constructor
  · exact ((loaded_after_save (exact_boxed 123) rfl rfl).1 hwithin).1
  · exact ((loaded_after_save (exact_boxed 124) rfl rfl).2 hbeyond).1

end Slot

end ButtonFlow
