import ButtonFlow.Json.Value
import ButtonFlow.Proofs.Dict
import ButtonFlow.Proofs.Except

/-!
# Exact values

A value is exact if it holds no floats, its integers are in range, and its objects are
dictionaries all the way down. Whatever is read fits into the room that it was given, and is
exact as soon as it holds no floats.
-/

namespace ButtonFlow
namespace Json

theorem Number.inRange_iff {i : Int} :
    Number.inRange i = true ↔ -9223372036854775808 ≤ i ∧ i ≤ 18446744073709551615 := by
  have hsigned : (signedBound : Int) = 9223372036854775808 := by decide
  have hword : (wordBound : Int) = 18446744073709551616 := by decide
  simp only [Number.inRange, Bool.and_eq_true, decide_eq_true_eq, hsigned, hword]
  omega

namespace Value

inductive FloatFree : Value → Prop where
  | null : FloatFree .null
  | bool (b : Bool) : FloatFree (.bool b)
  | integer (i : Int) : FloatFree (.number (.integer i))
  | string (s : String) : FloatFree (.string s)
  | array {items : List Value} (hitems : ∀ item ∈ items, FloatFree item) :
      FloatFree (.array items)
  | object {entries : List (String × Value)} (hentries : ∀ entry ∈ entries, FloatFree entry.2) :
      FloatFree (.object entries)

/-- Values without floats, with integers from `-2 ^ 63` to `2 ^ 64 - 1` and with objects that
list their keys in ascending order. -/
inductive Exact : Value → Prop where
  | null : Exact .null
  | bool (b : Bool) : Exact (.bool b)
  | integer {i : Int} (hlow : -9223372036854775808 ≤ i) (hhigh : i ≤ 18446744073709551615) :
      Exact (.number (.integer i))
  | string (s : String) : Exact (.string s)
  | array {items : List Value} (hitems : ∀ item ∈ items, Exact item) : Exact (.array items)
  | object {entries : List (String × Value)} (hsorted : Dict.Sorted entries)
      (hentries : ∀ entry ∈ entries, Exact entry.2) : Exact (.object entries)

theorem FloatFree.of_mem_items {items : List Value} (h : FloatFree (.array items))
    {item : Value} (hitem : item ∈ items) : FloatFree item := by
  cases h with
  | array hitems => exact hitems item hitem

theorem FloatFree.of_mem_entries {entries : List (String × Value)}
    (h : FloatFree (.object entries)) {entry : String × Value} (hentry : entry ∈ entries) :
    FloatFree entry.2 := by
  cases h with
  | object hentries => exact hentries entry hentry

@[simp] theorem floatFree_null : FloatFree .null := .null

@[simp] theorem floatFree_bool (b : Bool) : FloatFree (.bool b) := .bool b

@[simp] theorem floatFree_integer (i : Int) : FloatFree (.number (.integer i)) := .integer i

@[simp] theorem floatFree_string (s : String) : FloatFree (.string s) := .string s

@[simp] theorem floatFree_array {items : List Value} :
    FloatFree (.array items) ↔ ∀ item ∈ items, item.FloatFree :=
  ⟨fun h _ hitem => h.of_mem_items hitem, .array⟩

@[simp] theorem floatFree_object {entries : List (String × Value)} :
    FloatFree (.object entries) ↔ ∀ entry ∈ entries, entry.2.FloatFree :=
  ⟨fun h _ hentry => h.of_mem_entries hentry, .object⟩

theorem Exact.floatFree {v : Value} (h : Exact v) : FloatFree v := by
  induction h with
  | null => exact .null
  | bool b => exact .bool b
  | integer hlow hhigh => exact .integer _
  | string s => exact .string s
  | array hitems ih => exact .array ih
  | object hsorted hentries ih => exact .object ih

/-!
## Depth
-/

theorem depthOfItems_le {items : List Value} {n : Nat} :
    depthOfItems items ≤ n ↔ ∀ item ∈ items, item.depth ≤ n := by
  induction items with
  | nil =>
      simp [depthOfItems]
  | cons item items ih =>
      simp only [depthOfItems, List.forall_mem_cons, Nat.max_le, ih]

theorem depthOfEntries_le {entries : List (String × Value)} {n : Nat} :
    depthOfEntries entries ≤ n ↔ ∀ entry ∈ entries, entry.2.depth ≤ n := by
  induction entries with
  | nil =>
      simp [depthOfEntries]
  | cons entry entries ih =>
      simp only [depthOfEntries, List.forall_mem_cons, Nat.max_le, ih]

theorem depth_array_le {items : List Value} {n : Nat} :
    (Value.array items).depth ≤ n + 1 ↔ ∀ item ∈ items, item.depth ≤ n := by
  rw [depth, Nat.add_le_add_iff_right, depthOfItems_le]

theorem depth_object_le {entries : List (String × Value)} {n : Nat} :
    (Value.object entries).depth ≤ n + 1 ↔ ∀ entry ∈ entries, entry.2.depth ≤ n := by
  rw [depth, Nat.add_le_add_iff_right, depthOfEntries_le]

/-!
## Equality
-/

mutual

/-- Values without floats only count as equal if they are. -/
theorem same_iff_eq : ∀ {v w : Value}, v.FloatFree → (same v w = true ↔ v = w)
  | .null, w, _ => by
      cases w <;> simp [same]
  | .bool b, w, _ => by
      cases w <;> simp [same]
  | .number n, w, hfree => by
      cases hfree with
      | integer i =>
          cases w with
          | number m => cases m <;> simp [same, Number.same]
          | _ => simp [same]
  | .string s, w, _ => by
      cases w <;> simp [same]
  | .array items, w, hfree => by
      cases w with
      | array others =>
          rw [same, sameItems_iff_eq fun _ hitem => hfree.of_mem_items hitem, Value.array.injEq]
      | _ => simp [same]
  | .object entries, w, hfree => by
      cases w with
      | object others =>
          rw [same, sameEntries_iff_eq fun _ hentry => hfree.of_mem_entries hentry,
            Value.object.injEq]
      | _ => simp [same]
termination_by structural v => v

theorem sameItems_iff_eq : ∀ {items others : List Value}, (∀ item ∈ items, item.FloatFree) →
    (sameItems items others = true ↔ items = others)
  | [], others, _ => by
      cases others <;> simp [sameItems]
  | item :: items, others, hfree => by
      rcases List.forall_mem_cons.mp hfree with ⟨hhead, hrest⟩
      cases others with
      | nil => simp [sameItems]
      | cons other others =>
          rw [sameItems, Bool.and_eq_true, same_iff_eq hhead, sameItems_iff_eq hrest,
            List.cons.injEq]
termination_by structural items => items

theorem sameEntries_iff_eq : ∀ {entries others : List (String × Value)},
    (∀ entry ∈ entries, entry.2.FloatFree) →
      (sameEntries entries others = true ↔ entries = others)
  | [], others, _ => by
      cases others <;> simp [sameEntries]
  | (key, value) :: entries, others, hfree => by
      rcases List.forall_mem_cons.mp hfree with ⟨hhead, hrest⟩
      cases others with
      | nil => simp [sameEntries]
      | cons other others =>
          rw [sameEntries, Bool.and_eq_true, Bool.and_eq_true, beq_iff_eq, same_iff_eq hhead,
            sameEntries_iff_eq hrest, List.cons.injEq, Prod.ext_iff]
termination_by structural entries => entries

end

end Value

/-!
## What is read

Numerals give integers in range, or floats. The claim about a value goes through an array or
object by going through all of its parts, and collecting the entries of an object in a
dictionary only drops entries.
-/

theorem Numeral.readFloat_ne_integer (n : Numeral) (i : Int) :
    n.readFloat ≠ .ok (.integer i) := by
  intro h
  unfold readFloat at h
  dsimp only at h
  split at h
  · cases h
  · cases h

theorem Numeral.inRange_of_read {n : Numeral} {i : Int} (h : n.read = .ok (.integer i)) :
    Number.inRange i = true := by
  unfold read at h
  split at h
  · dsimp only at h
    split at h
    · split at h
      · exact absurd h (n.readFloat_ne_integer i)
      · rename_i hcond
        cases h
        simp only [Bool.or_eq_true, not_or, Bool.not_eq_true', Bool.not_eq_false] at hcond
        exact hcond.2
    · split at h
      · rename_i hrange
        cases h
        exact hrange
      · exact absurd h (n.readFloat_ne_integer i)
  · exact absurd h (n.readFloat_ne_integer i)

namespace Value

structure Readable (room : Nat) (v : Value) : Prop where
  depth_le : v.depth ≤ room
  exact_of_floatFree : v.FloatFree → v.Exact

theorem Readable.array {room : Nat} {items : List Value}
    (h : ∀ item ∈ items, Readable room item) : Readable (room + 1) (.array items) where
  depth_le := depth_array_le.mpr fun item hitem => (h item hitem).depth_le
  exact_of_floatFree hfree :=
    .array fun item hitem => (h item hitem).exact_of_floatFree (hfree.of_mem_items hitem)

theorem Readable.object {room : Nat} {pairs : List (String × Value)}
    (h : ∀ pair ∈ pairs, Readable room pair.2) :
    Readable (room + 1) (.object (Dict.ofList pairs)) where
  depth_le := by
    apply depth_object_le.mpr
    intro entry hentry
    exact (h entry (Dict.mem_of_mem_ofList hentry)).depth_le
  exact_of_floatFree hfree :=
    .object (Dict.sorted_ofList pairs) fun entry hentry =>
      (h entry (Dict.mem_of_mem_ofList hentry)).exact_of_floatFree (hfree.of_mem_entries hentry)

theorem Readable.scalar {room : Nat} {v : Value} (hdepth : v.depth = 0)
    (hexact : v.FloatFree → v.Exact) : Readable room v where
  depth_le := by rw [hdepth]; exact Nat.zero_le room
  exact_of_floatFree := hexact

mutual

theorem readable_of_read (room : Nat) :
    ∀ (t : Tree) {v : Value}, read room t = .ok v → Readable room v
  | .missing f, v, h => by
      simp [read] at h
  | .damaged reading skipping, v, h => by
      simp [read] at h
  | .null, v, h => by
      cases h
      exact .scalar rfl fun _ => .null
  | .bool b, v, h => by
      cases h
      exact .scalar rfl fun _ => .bool b
  | .numeral n, v, h => by
      rw [read] at h
      rcases map_eq_ok.mp h with ⟨x, hx, rfl⟩
      apply Readable.scalar rfl
      intro hfree
      cases hfree with
      | integer i =>
          rcases Number.inRange_iff.mp (Numeral.inRange_of_read hx) with ⟨hlow, hhigh⟩
          exact .integer hlow hhigh
  | .quoted q, v, h => by
      rw [read] at h
      rcases map_eq_ok.mp h with ⟨s, _, rfl⟩
      exact .scalar rfl fun _ => .string s
  | .array items ending, v, h => by
      cases room with
      | zero => simp [read] at h
      | succ room =>
          simp only [read] at h
          rcases bind_eq_ok.mp h with ⟨values, hvalues, h⟩
          rcases bind_eq_ok.mp h with ⟨_, _, h⟩
          cases h
          exact .array (readable_of_readItems room items hvalues)
  | .object entries ending, v, h => by
      cases room with
      | zero => simp [read] at h
      | succ room =>
          simp only [read] at h
          rcases bind_eq_ok.mp h with ⟨pairs, hpairs, h⟩
          rcases bind_eq_ok.mp h with ⟨_, _, h⟩
          cases h
          exact .object (readable_of_readEntries room entries hpairs)
termination_by structural t => t

theorem readable_of_readItems (room : Nat) :
    ∀ (items : List Tree) {values : List Value}, readItems room items = .ok values →
      ∀ v ∈ values, Readable room v
  | [], values, h, v, hv => by
      cases h
      cases hv
  | item :: items, values, h, v, hv => by
      rw [readItems] at h
      rcases bind_eq_ok.mp h with ⟨first, hfirst, h⟩
      rcases bind_eq_ok.mp h with ⟨others, hothers, h⟩
      cases h
      rcases List.mem_cons.mp hv with rfl | hv
      · exact readable_of_read room item hfirst
      · exact readable_of_readItems room items hothers v hv
termination_by structural items => items

theorem readable_of_readEntries (room : Nat) :
    ∀ (entries : List (Tree × Tree)) {pairs : List (String × Value)},
      readEntries room entries = .ok pairs → ∀ pair ∈ pairs, Readable room pair.2
  | [], pairs, h, pair, hpair => by
      cases h
      cases hpair
  | (key, value) :: entries, pairs, h, pair, hpair => by
      rw [readEntries] at h
      rcases bind_eq_ok.mp h with ⟨name, _, h⟩
      rcases bind_eq_ok.mp h with ⟨first, hfirst, h⟩
      rcases bind_eq_ok.mp h with ⟨others, hothers, h⟩
      cases h
      rcases List.mem_cons.mp hpair with rfl | hpair
      · exact readable_of_read room value hfirst
      · exact readable_of_readEntries room entries hothers pair hpair
termination_by structural entries => entries

end

theorem sorted_of_readDict {wanted : String} {room : Nat} {t : Tree} {d : Dict Value}
    (h : readDict wanted room t = .ok d) : Dict.Sorted d := by
  unfold readDict at h
  split at h
  · split at h
    · cases h
    · rcases bind_eq_ok.mp h with ⟨pairs, _, h⟩
      rcases bind_eq_ok.mp h with ⟨_, _, h⟩
      cases h
      exact Dict.sorted_ofList pairs
  · cases h

theorem readable_of_readDict {wanted : String} {room : Nat} {t : Tree} {d : Dict Value}
    (h : readDict wanted room t = .ok d) : Readable room (.object d) := by
  unfold readDict at h
  split at h
  · split at h
    · cases h
    · rcases bind_eq_ok.mp h with ⟨pairs, hpairs, h⟩
      rcases bind_eq_ok.mp h with ⟨_, _, h⟩
      cases h
      exact .object (readable_of_readEntries _ _ hpairs)
  · cases h

end Value

end Json
end ButtonFlow
