import ButtonFlow.Dict

/-!
# Laws of dictionaries

Every dictionary that is built by insertion and removal is sorted, and a sorted list of entries
is the dictionary of itself. Looking a key up sees the latest change of that key and no change
of another one.
-/

namespace ButtonFlow

namespace Dict

variable {α β : Type}

/-!
## Sorted dictionaries
-/

theorem sorted_nil : Sorted ([] : Dict α) := List.Pairwise.nil

theorem sorted_cons {entry : String × α} {d : Dict α} :
    Sorted (entry :: d) ↔ (∀ other ∈ d, entry.1 < other.1) ∧ Sorted d :=
  List.pairwise_cons

theorem lt_of_not_lt_of_ne {a b : String} (hlt : ¬ a < b) (hne : ¬ a = b) : b < a := by
  apply Decidable.byContradiction
  intro hnot
  exact hne (String.le_antisymm (String.not_lt.mp hnot) (String.not_lt.mp hlt))

theorem mem_of_mem_insert
    {key : String} {value : α} {entry : String × α} {d : Dict α}
    (h : entry ∈ d.insert key value) : entry = (key, value) ∨ entry ∈ d := by
  induction d with
  | nil =>
      exact Or.inl (List.mem_singleton.mp h)
  | cons pair rest ih =>
      unfold insert at h
      split at h
      · exact List.mem_cons.mp h
      · split at h
        · rcases List.mem_cons.mp h with hnew | hold
          · exact Or.inl hnew
          · exact Or.inr (List.mem_cons_of_mem _ hold)
        · rcases List.mem_cons.mp h with hhead | hrest
          · exact Or.inr (List.mem_cons.mpr (Or.inl hhead))
          · rcases ih hrest with hnew | hold
            · exact Or.inl hnew
            · exact Or.inr (List.mem_cons_of_mem _ hold)

theorem sorted_insert (key : String) (value : α) {d : Dict α} (h : Sorted d) :
    Sorted (d.insert key value) := by
  induction d with
  | nil =>
      simp [insert, Sorted]
  | cons pair rest ih =>
      rcases sorted_cons.mp h with ⟨hhead, hrest⟩
      unfold insert
      split
      case isTrue hlt =>
        apply sorted_cons.mpr
        constructor
        · intro other hother
          rcases List.mem_cons.mp hother with hother | hother
          · rw [hother]
            exact hlt
          · exact String.lt_trans hlt (hhead other hother)
        · exact h
      case isFalse hnot =>
        split
        case isTrue heq =>
          rw [heq]
          exact sorted_cons.mpr ⟨hhead, hrest⟩
        case isFalse hne =>
          apply sorted_cons.mpr
          constructor
          · intro other hother
            rcases mem_of_mem_insert hother with hother | hother
            · rw [hother]
              exact lt_of_not_lt_of_ne hnot hne
            · exact hhead other hother
          · exact ih hrest

theorem sorted_erase (key : String) {d : Dict α} (h : Sorted d) :
    Sorted (d.erase key) :=
  List.Pairwise.filter _ h

theorem sorted_mapValues (f : α → β) {d : Dict α} (h : Sorted d) :
    Sorted (d.mapValues f) :=
  List.Pairwise.map _ (fun _ _ hlt => hlt) h

/-!
## Dictionaries of lists
-/

theorem sorted_foldl_insert (pairs : List (String × α)) {d : Dict α} (h : Sorted d) :
    Sorted (pairs.foldl (fun d pair => d.insert pair.1 pair.2) d) := by
  induction pairs generalizing d with
  | nil => exact h
  | cons pair rest ih => exact ih (sorted_insert pair.1 pair.2 h)

theorem sorted_ofList (pairs : List (String × α)) : Sorted (ofList pairs) :=
  sorted_foldl_insert pairs sorted_nil

theorem mem_of_mem_foldl_insert {entry : String × α} {pairs : List (String × α)} {d : Dict α}
    (h : entry ∈ pairs.foldl (fun d pair => d.insert pair.1 pair.2) d) :
    entry ∈ d ∨ entry ∈ pairs := by
  induction pairs generalizing d with
  | nil => exact Or.inl h
  | cons pair rest ih =>
      rcases ih h with hd | hrest
      · rcases mem_of_mem_insert hd with hpair | hold
        · exact Or.inr (List.mem_cons.mpr (Or.inl hpair))
        · exact Or.inl hold
      · exact Or.inr (List.mem_cons_of_mem _ hrest)

theorem mem_of_mem_ofList {entry : String × α} {pairs : List (String × α)}
    (h : entry ∈ ofList pairs) : entry ∈ pairs := by
  rcases mem_of_mem_foldl_insert h with hnil | hpairs
  · cases hnil
  · exact hpairs

theorem insert_eq_append {key : String} {value : α} {d : Dict α}
    (h : ∀ entry ∈ d, entry.1 < key) : d.insert key value = d ++ [(key, value)] := by
  induction d with
  | nil => rfl
  | cons pair rest ih =>
      have hk : pair.1 < key := h pair List.mem_cons_self
      have hrest : insert rest key value = rest ++ [(key, value)] := by
        apply ih
        intro entry hentry
        exact h entry (List.mem_cons_of_mem _ hentry)
      unfold insert
      rw [if_neg (String.lt_asymm hk), if_neg (Ne.symm (String.ne_of_lt hk)), hrest]
      rfl

theorem foldl_insert_eq_append (rest d : Dict α) (h : Sorted (d ++ rest)) :
    rest.foldl (fun d pair => d.insert pair.1 pair.2) d = d ++ rest := by
  induction rest generalizing d with
  | nil =>
      simp
  | cons entry rest ih =>
      have hsmaller : ∀ other ∈ d, other.1 < entry.1 := by
        intro other hother
        exact (List.pairwise_append.mp h).2.2 other hother entry List.mem_cons_self
      have hstep : insert d entry.1 entry.2 = d ++ [entry] := insert_eq_append hsmaller
      have hsorted : Sorted (d ++ [entry] ++ rest) := by
        simpa using h
      rw [List.foldl_cons, hstep, ih (d ++ [entry]) hsorted]
      simp

theorem ofList_eq_self {d : Dict α} (h : Sorted d) : ofList d = d := by
  have hd := foldl_insert_eq_append d [] (by simpa using h)
  simpa [ofList] using hd

/-!
## Looking keys up
-/

@[simp, grind =] theorem get?_nil (key : String) : get? ([] : Dict α) key = none := rfl

@[grind =] theorem get?_cons (k : String) (v : α) (d : Dict α) (key : String) :
    get? ((k, v) :: d) key = if k = key then some v else d.get? key := by
  unfold get?
  rw [List.find?_cons]
  by_cases hk : k = key
  · simp [hk]
  · have hbeq : (k == key) = false := beq_eq_false_iff_ne.mpr hk
    simp [hk, hbeq]

@[grind =] theorem get?_insert (key : String) (value : α) (other : String) (d : Dict α) :
    (d.insert key value).get? other = if key = other then some value else d.get? other := by
  induction d with
  | nil => exact get?_cons key value [] other
  | cons pair rest ih =>
      rcases pair with ⟨k, v⟩
      unfold insert
      split
      · rw [get?_cons]
      · split
        case isTrue heq =>
          rw [get?_cons, get?_cons, heq]
          split
          · rfl
          · rfl
        case isFalse hne =>
          rw [get?_cons, get?_cons, ih]
          grind

@[grind =] theorem get?_erase (key other : String) (d : Dict α) :
    (d.erase key).get? other = if key = other then none else d.get? other := by
  induction d with
  | nil =>
      simp [erase, get?]
  | cons pair rest ih =>
      rcases pair with ⟨k, v⟩
      unfold erase at ih ⊢
      by_cases hk : k = key
      · rw [List.filter_cons_of_neg (by simp [hk]), ih, get?_cons, hk]
        split
        · rfl
        · rfl
      · rw [List.filter_cons_of_pos (by simp [hk]), get?_cons, get?_cons, ih]
        grind

@[simp] theorem get?_insert_self (key : String) (value : α) (d : Dict α) :
    (d.insert key value).get? key = some value :=
  (get?_insert key value key d).trans (if_pos rfl)

theorem get?_insert_other {key other : String} (hne : key ≠ other) (value : α) (d : Dict α) :
    (d.insert key value).get? other = d.get? other :=
  (get?_insert key value other d).trans (if_neg hne)

@[simp] theorem get?_erase_self (key : String) (d : Dict α) : (d.erase key).get? key = none :=
  (get?_erase key key d).trans (if_pos rfl)

theorem get?_erase_other {key other : String} (hne : key ≠ other) (d : Dict α) :
    (d.erase key).get? other = d.get? other :=
  (get?_erase key other d).trans (if_neg hne)

theorem get?_eq_some_iff {d : Dict α} (hd : Sorted d) {key : String} {value : α} :
    d.get? key = some value ↔ (key, value) ∈ d := by
  induction d with
  | nil => simp
  | cons pair rest ih =>
      rcases pair with ⟨k, v⟩
      rcases sorted_cons.mp hd with ⟨hhead, hrest⟩
      rw [get?_cons, List.mem_cons, Prod.mk.injEq, ← ih hrest]
      by_cases hk : k = key
      · have hbehind : ¬ get? rest key = some value := by
          intro hget
          exact String.lt_irrefl key (hk ▸ hhead _ ((ih hrest).mp hget))
        simp [hk, hbehind, eq_comm]
      · simp [hk, Ne.symm hk]

/-!
## Equal dictionaries
-/

theorem get?_eq_none_of_lt {key : String} {d : Dict α} (h : ∀ entry ∈ d, key < entry.1) :
    d.get? key = none := by
  induction d with
  | nil => rfl
  | cons pair rest ih =>
      rcases List.forall_mem_cons.mp h with ⟨hpair, hrest⟩
      rw [get?_cons, if_neg (Ne.symm (String.ne_of_lt hpair))]
      exact ih hrest

theorem not_lt_of_get?_eq_some {k : String} {v : α} {rest : Dict α} (h : Sorted ((k, v) :: rest))
    {key : String} {value : α} (hkey : get? ((k, v) :: rest) key = some value) : ¬ key < k := by
  intro hlt
  have hnone : get? ((k, v) :: rest) key = none := by
    apply get?_eq_none_of_lt
    intro entry hentry
    rcases List.mem_cons.mp hentry with rfl | hentry
    · exact hlt
    · exact String.lt_trans hlt ((sorted_cons.mp h).1 entry hentry)
  rw [hnone] at hkey
  cases hkey

/-- A sorted dictionary is known by what is found under each key. -/
theorem ext_get? {d d' : Dict α} (hd : Sorted d) (hd' : Sorted d')
    (h : ∀ key, d.get? key = d'.get? key) : d = d' := by
  induction d generalizing d' with
  | nil =>
      cases d' with
      | nil => rfl
      | cons pair rest =>
          have hpair := h pair.1
          grind
  | cons pair rest ih =>
      rcases pair with ⟨k, v⟩
      have hfound : get? ((k, v) :: rest) k = some v := by grind
      cases d' with
      | nil =>
          grind
      | cons pair' rest' =>
          rcases pair' with ⟨k', v'⟩
          have hfound' : get? ((k', v') :: rest') k' = some v' := by grind
          have hkeys : k = k' := by
            apply Decidable.byContradiction
            intro hne
            have hlt := lt_of_not_lt_of_ne (not_lt_of_get?_eq_some hd' (h k ▸ hfound)) hne
            exact not_lt_of_get?_eq_some hd (h k' ▸ hfound') hlt
          subst hkeys
          rw [h k, hfound'] at hfound
          cases hfound
          have hrest : rest = rest' := by
            apply ih (sorted_cons.mp hd).2 (sorted_cons.mp hd').2
            intro key
            by_cases hkey : k = key
            · subst hkey
              rw [get?_eq_none_of_lt (sorted_cons.mp hd).1,
                get?_eq_none_of_lt (sorted_cons.mp hd').1]
            · have hother := h key
              grind
          rw [hrest]

theorem insert_eq_self {key : String} {value : α} {d : Dict α} (hd : Sorted d)
    (h : d.get? key = some value) : d.insert key value = d := by
  apply ext_get? (sorted_insert key value hd) hd
  intro other
  grind

end Dict

end ButtonFlow
