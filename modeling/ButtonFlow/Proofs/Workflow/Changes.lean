import ButtonFlow.Proofs.Text.ByteOrder
import ButtonFlow.Proofs.Workflow.Format
import Mathlib.Data.Set.Card

/-!
# Settings under changes

Settings come about by writing and removing keys, one after the other: settings that are read
or collected are the entries of a list, written in their order. So the last change of a key
decides what is found under it. Since the keys are listed in ascending order, nothing else
about the past of the settings can be told from them.
-/

namespace ButtonFlow

open Json

/-!
## Changes
-/

inductive Config.Change where
  | write (key : String) (value : Value)
  | remove (key : String)

namespace Config.Change

def key : Change → String
  | .write key _ => key
  | .remove key => key

def value? : Change → Option Value
  | .write _ value => some value
  | .remove _ => none

def apply (config : Config) : Change → Config
  | .write key value => config.insert key value
  | .remove key => config.erase key

def writes (pairs : List (String × Value)) : List Change :=
  pairs.map fun pair => .write pair.1 pair.2

end Config.Change

namespace Config

theorem eq_of_entries_eq {a b : Config} (h : a.entries = b.entries) : a = b := by
  rw [← Config.mk.injEq] at h
  exact h

def changed (config : Config) (changes : List Change) : Config :=
  changes.foldl Change.apply config

@[simp] theorem changed_append (config : Config) (changes later : List Change) :
    config.changed (changes ++ later) = (config.changed changes).changed later :=
  List.foldl_append

theorem get?_apply_self (config : Config) (change : Change) :
    (change.apply config).get? change.key = change.value? := by
  cases change with
  | write key value => exact Dict.get?_insert_self key value config.entries
  | remove key => exact Dict.get?_erase_self key config.entries

theorem get?_apply_other (config : Config) {change : Change} {key : String}
    (hkey : change.key ≠ key) : (change.apply config).get? key = config.get? key := by
  cases change with
  | write _ value => exact Dict.get?_insert_other hkey value config.entries
  | remove _ => exact Dict.get?_erase_other hkey config.entries

theorem get?_changed_other (config : Config) {changes : List Change} {key : String}
    (hkey : ∀ change ∈ changes, change.key ≠ key) :
    (config.changed changes).get? key = config.get? key := by
  induction changes generalizing config with
  | nil => rfl
  | cons change changes ih =>
      rcases List.forall_mem_cons.mp hkey with ⟨hfirst, hrest⟩
      have hlater := ih (change.apply config) hrest
      exact hlater.trans (get?_apply_other config hfirst)

theorem get?_changed_last (config : Config) (before : List Change) {change : Change}
    {after : List Change} (hafter : ∀ later ∈ after, later.key ≠ change.key) :
    (config.changed (before ++ change :: after)).get? change.key = change.value? := by
  have hsplit : config.changed (before ++ change :: after) =
      (change.apply (config.changed before)).changed after :=
    config.changed_append before (change :: after)
  rw [hsplit, get?_changed_other _ hafter, get?_apply_self]

theorem sorted_changed {config : Config} (h : Dict.Sorted config.entries)
    (changes : List Change) : Dict.Sorted (config.changed changes).entries := by
  induction changes generalizing config with
  | nil => exact h
  | cons change changes ih =>
      apply ih
      cases change with
      | write key value => exact Dict.sorted_insert key value h
      | remove key => exact Dict.sorted_erase key h

/-!
## How settings come about
-/

/-- A list is collected by writing its entries one after the other. -/
theorem ofList_eq_changed (pairs : List (String × Value)) :
    ofList pairs = empty.changed (Change.writes pairs) := by
  have hfold : ∀ d : Dict Value,
      (⟨pairs.foldl (fun d pair => d.insert pair.1 pair.2) d⟩ : Config) =
        (⟨d⟩ : Config).changed (Change.writes pairs) := by
    induction pairs with
    | nil => exact fun _ => rfl
    | cons pair pairs ih => exact fun d => ih (d.insert pair.1 pair.2)
  exact hfold []

theorem ofList_eq_foldl (pairs : List (String × Value)) :
    ofList pairs = pairs.foldl (fun config pair => config.insert pair.1 pair.2) empty := by
  rw [ofList_eq_changed, changed, Change.writes, List.foldl_map]
  rfl

/-- Settings that were read, collected or changed, and all changes that made them. -/
inductive Built : List Change → Config → Prop where
  | empty : Built [] empty
  /-- The pairs are the entries of the object that is read, in their order. -/
  | read {room : Nat} {entries : List (Tree × Tree)} {ending : Option Failure}
      {pairs : List (String × Value)} {config : Config}
      (hpairs : Value.readEntries room entries = .ok pairs)
      (hread : format.read (room + 1) (.object entries ending) = .ok config) :
      Built (Change.writes pairs) config
  | collected (pairs : List (String × Value)) : Built (Change.writes pairs) (ofList pairs)
  | insert {history : List Change} {config : Config} (key : String) (value : Value)
      (h : Built history config) : Built (history ++ [.write key value]) (config.insert key value)
  | erase {history : List Change} {config : Config} (key : String) (h : Built history config) :
      Built (history ++ [.remove key]) (config.erase key)

theorem eq_ofList_of_read {room : Nat} {entries : List (Tree × Tree)} {ending : Option Failure}
    {config : Config} (h : format.read (room + 1) (.object entries ending) = .ok config) :
    ∃ pairs, Value.readEntries room entries = .ok pairs ∧ config = ofList pairs := by
  rcases map_eq_ok.mp h with ⟨d, hd, rfl⟩
  rcases bind_eq_ok.mp hd with ⟨pairs, hpairs, hd⟩
  rcases bind_eq_ok.mp hd with ⟨_, _, hd⟩
  cases hd
  exact ⟨pairs, hpairs, rfl⟩

/-- Whatever is read, alone or as part of a document, is read from the entries of an object. -/
theorem exists_built_of_gives {room : Nat} {config : Config} (h : format.Gives room config) :
    ∃ pairs, Built (Change.writes pairs) config := by
  rcases h with ⟨t, h⟩
  cases t with
  | object entries ending =>
      cases room with
      | zero => cases h
      | succ room =>
          rcases eq_ofList_of_read h with ⟨pairs, hpairs, _⟩
          exact ⟨pairs, .read hpairs h⟩
  | _ => cases h

theorem Built.eq_changed {history : List Change} {config : Config} (h : Built history config) :
    config = Config.empty.changed history := by
  induction h with
  | empty => rfl
  | read hpairs hread =>
      rcases eq_ofList_of_read hread with ⟨pairs, hsame, rfl⟩
      rw [hpairs] at hsame
      cases hsame
      exact ofList_eq_changed _
  | collected pairs => exact ofList_eq_changed pairs
  | insert key value _ ih =>
      rw [changed_append, ← ih]
      rfl
  | erase key _ ih =>
      rw [changed_append, ← ih]
      rfl

theorem Built.sorted {history : List Change} {config : Config} (h : Built history config) :
    Dict.Sorted config.entries := by
  rw [h.eq_changed]
  exact sorted_changed Dict.sorted_nil history

/-!
## The canonical form
-/

/-- Settings as a map with one way of being listed: their entries ascend in the bytes of their
keys, and what is found under a key was left there by its last change. -/
structure Canonical (history : List Change) (config : Config) : Prop where
  ascending : config.entries.Pairwise fun a b => a.1.toUTF8.toList < b.1.toUTF8.toList
  listed : ∀ key value, (key, value) ∈ config.entries ↔ config.get? key = some value
  size_eq : config.size = {key | config.get? key ≠ none}.ncard
  last : ∀ before change after, history = before ++ change :: after →
    (∀ later ∈ after, later.key ≠ change.key) → config.get? change.key = change.value?
  untouched : ∀ key, (∀ change ∈ history, change.key ≠ key) → config.get? key = none

theorem ncard_keys {config : Config} (h : Dict.Sorted config.entries) :
    {key | config.get? key ≠ none}.ncard = config.size := by
  have hnodup : (config.entries.map (·.1)).Nodup :=
    List.pairwise_map.mpr (h.imp fun hlt => String.ne_of_lt hlt)
  have hkeys : {key | config.get? key ≠ none} = (config.entries.map (·.1)).toFinset := by
    ext key
    simp [Option.ne_none_iff_exists', get?, Dict.get?_eq_some_iff h]
  rw [hkeys, Set.ncard_coe_finset, List.toFinset_card_of_nodup hnodup, List.length_map, size]

theorem Built.canonical {history : List Change} {config : Config} (h : Built history config) :
    Canonical history config where
  ascending := h.sorted.imp Text.toUTF8_lt_iff.mpr
  listed key value := (Dict.get?_eq_some_iff h.sorted).symm
  size_eq := (ncard_keys h.sorted).symm
  last := by
    intro before change after hhistory hafter
    rw [h.eq_changed, hhistory]
    exact get?_changed_last Config.empty before hafter
  untouched := by
    intro key hkey
    rw [h.eq_changed]
    exact get?_changed_other Config.empty hkey

/-!
## Settings in which the same is found
-/

def SameAt (a b : Config) (key : String) : Prop :=
  Option.Rel (fun v w => v.same w = true) (a.get? key) (b.get? key)

theorem get?_eq_of_sameAt {a b : Config} (hfree : a.FloatFree) {key : String}
    (h : a.SameAt b key) : a.get? key = b.get? key := by
  unfold SameAt at h
  generalize hkey : a.get? key = found at h ⊢
  generalize b.get? key = other at h ⊢
  cases h with
  | none => rfl
  | some hsame =>
      rcases Option.map_eq_some_iff.mp hkey with ⟨entry, hentry, rfl⟩
      have hvalue := hfree.of_mem_entries (List.mem_of_find?_eq_some hentry)
      rw [(Value.same_iff_eq hvalue).mp hsame]

theorem Built.eq_of_sameAt {history history' : List Change} {a b : Config}
    (ha : Built history a) (hb : Built history' b) (hfree : a.FloatFree)
    (h : ∀ key, a.SameAt b key) : a = b := by
  apply eq_of_entries_eq
  exact Dict.ext_get? ha.sorted hb.sorted fun key => get?_eq_of_sameAt hfree (h key)

theorem same_self {config : Config} (hfree : config.FloatFree) : config.same config = true :=
  (Value.sameEntries_iff_eq fun _ hentry => hfree.of_mem_entries hentry).mpr rfl

/-- Whatever is read is built, and collecting is writing one entry after the other. All
settings that are built are canonical. If the same is found in two of them that hold no floats,
then they are equal and have one text, whatever their pasts are. -/
theorem canonical_of_built :
    (∀ {room config}, format.Gives room config → ∃ pairs, Built (Change.writes pairs) config) ∧
    (∀ pairs, ofList pairs =
      pairs.foldl (fun config pair => config.insert pair.1 pair.2) Config.empty) ∧
    (∀ {history config}, Built history config → Canonical history config) ∧
    ∀ {history history' a b}, Built history a → Built history' b → a.FloatFree →
      (∀ key, a.SameAt b key) → a = b ∧ a.same b = true ∧ format.print a = format.print b := by
  refine ⟨exists_built_of_gives, ofList_eq_foldl, Built.canonical, ?_⟩
  intro history history' a b ha hb hfree hsame
  have heq := ha.eq_of_sameAt hb hfree hsame
  subst heq
  exact ⟨rfl, same_self hfree, rfl⟩

/-- The object of a text in which a key stands twice, and settings that were made with fewer
writes and a removal. -/
theorem canonical_of_built_twice :
    let pairs : List (String × Value) := [("b", .null), ("a", .array []), ("b", .string "y")]
    let changed := ((ofList [("c", .null), ("b", .string "y")]).erase "c").insert "a" (.array [])
    ∃ read : Config, format.read 127 (Value.object pairs).tree = .ok read ∧
      Canonical (Change.writes pairs) read ∧ read.get? "b" = some (.string "y") ∧
      read = changed ∧ format.print read = format.print changed := by
  intro pairs changed
  have hpairs : Value.readEntries 126 (Value.entryTrees pairs) = .ok pairs := rfl
  have hread : format.read 127 (Value.object pairs).tree = .ok (ofList pairs) := rfl
  have hbuilt : Built (Change.writes pairs) (ofList pairs) := .read hpairs hread
  have hchanged := ((Built.collected [("c", .null), ("b", .string "y")]).erase "c").insert "a"
    (.array [])
  have hfree : Value.FloatFree (.object [("a", .array []), ("b", .string "y")]) := by simp
  have hcanonical := canonical_of_built.2.2.1 hbuilt
  have hsame : ∀ key, (ofList pairs).SameAt changed key := by
    intro key
    have hfound : (ofList pairs).get? key =
        Dict.get? [("a", Value.array []), ("b", Value.string "y")] key := rfl
    have hfound' : changed.get? key =
        Dict.get? [("a", Value.array []), ("b", Value.string "y")] key := rfl
    rw [SameAt, hfound, hfound', Dict.get?_cons, Dict.get?_cons, Dict.get?_nil]
    split
    · exact .some rfl
    · split
      · exact .some rfl
      · exact .none
  rcases canonical_of_built.2.2.2 hbuilt hchanged hfree hsame with ⟨heq, _, hprint⟩
  refine ⟨_, hread, hcanonical, ?_, heq, hprint⟩
  exact hcanonical.last [.write "b" .null, .write "a" (.array [])] (.write "b" (.string "y")) [] rfl
    (fun _ h => nomatch h)

end Config

end ButtonFlow
