import ButtonFlow.Json.Variant
import ButtonFlow.Proofs.Json.ReadBack

/-!
# Reading variants back

A variant is known by its name if no other variant has that name. Then a variant without
content is read back from its name, and a variant with content is read back from the object
that holds it, as soon as its content is read back.
-/

namespace ButtonFlow
namespace Json
namespace Variant

variable {α β : Type}

theorem select_name {name : α → String} {all : List α} {a : α} (hmem : a ∈ all)
    (hname : ∀ b ∈ all, name b = name a → b = a) :
    select (all.map fun b => (name b, b)) (name a) = .ok a := by
  have hfind : (all.map fun b => (name b, b)).find? (fun variant => variant.1 == name a) =
      some (name a, a) := by
    cases h : (all.map fun b => (name b, b)).find? (fun variant => variant.1 == name a) with
    | none =>
        have hnone := List.find?_eq_none.mp h (name a, a) (List.mem_map_of_mem hmem)
        exact absurd (beq_self_eq_true (name a)) hnone
    | some variant =>
        have hsame := List.find?_some h
        rcases List.mem_map.mp (List.mem_of_find?_eq_some h) with ⟨b, hb, rfl⟩
        rw [hname b hb (eq_of_beq hsame)]
  rw [select, hfind]

theorem restores_plain {name : α → String} {all : List α} {a : α} (hmem : a ∈ all)
    (hname : ∀ b ∈ all, name b = name a → b = a) : (plain name all).Restores a where
  floatFree := .string (name a)
  read_tree room := by
    change (Quoted.spelled (name a)).read >>= _ = within room 0 a
    rw [Quoted.read_spelled, ok_bind, select_name hmem hname, within_zero]
    rfl

theorem read_filled {known : List (String × α)} {bare : α → Except Failure β}
    {filled : α → Nat → Tree → Except Failure β} {name : String} {a : α}
    (hselect : select known name = .ok a) {content : Value} {b : β}
    (hread : ∀ room, filled a room content.tree = within room content.depth b) (room : Nat) :
    read known bare filled room (Value.object [(name, content)]).tree =
      within room (Value.object [(name, content)]).depth b := by
  change read known bare filled room
    (.object [(.quoted (Quoted.spelled name), content.tree)] none) = _
  rw [Value.depth, Value.depthOfEntries, Value.depthOfEntries, Nat.max_zero]
  cases room with
  | zero =>
      rw [within_no_room]
      rfl
  | succ room =>
      rw [within_succ]
      change (Quoted.spelled name).read >>= _ = _
      rw [Quoted.read_spelled, ok_bind, hselect, ok_bind, hread]
      exact within_bind_ok room _ b b rfl

end Variant
end Json
end ButtonFlow
