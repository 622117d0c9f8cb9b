import ButtonFlow.Json.Record
import ButtonFlow.Proofs.Json.Assembly

/-!
# Reading back what was written

An exact value is read back from its own tree exactly if there is room for its arrays and
objects; if there is not, the text counts as malformed. The same holds for the format of a
list, of a dictionary and of a record, as soon as it holds for the parts.
-/

namespace ButtonFlow
namespace Json

/-- What reading something leads to that is as deep as `depth`, if nothing but the room can be
missing. -/
def within {α : Type} (room depth : Nat) (a : α) : Except Failure α :=
  if depth ≤ room then .ok a else .error .malformed

section

variable {α β : Type}

theorem within_zero (room : Nat) (a : α) : within room 0 a = .ok a :=
  if_pos (Nat.zero_le room)

theorem within_no_room (depth : Nat) (a : α) : within 0 (depth + 1) a = .error .malformed :=
  if_neg (Nat.not_succ_le_zero depth)

theorem within_succ (room depth : Nat) (a : α) :
    within (room + 1) (depth + 1) a = within room depth a := by
  simp [within]

@[simp] theorem within_map (f : α → β) (room depth : Nat) (a : α) :
    (within room depth a).map f = within room depth (f a) := by
  unfold within
  split
  · rfl
  · rfl

theorem within_bind (room depth depth' : Nat) (a : α) (b : β) {f : α → Except Failure β}
    (h : f a = within room depth' b) :
    (within room depth a >>= f) = within room (max depth depth') b := by
  unfold within at h ⊢
  by_cases hdepth : depth ≤ room
  · rw [if_pos hdepth, ok_bind, h]
    by_cases hdepth' : depth' ≤ room
    · rw [if_pos hdepth', if_pos (Nat.max_le.mpr ⟨hdepth, hdepth'⟩)]
    · rw [if_neg hdepth', if_neg fun hmax => hdepth' (Nat.max_le.mp hmax).2]
  · rw [if_neg hdepth, error_bind, if_neg fun hmax => hdepth (Nat.max_le.mp hmax).1]

theorem within_bind_ok (room depth : Nat) (a : α) (b : β) {f : α → Except Failure β}
    (h : f a = .ok b) : (within room depth a >>= f) = within room depth b := by
  have hbind := within_bind room depth 0 a b (h.trans (within_zero room b).symm)
  rwa [Nat.max_zero] at hbind

end

namespace Value

/-!
## Values
-/

theorem key_quoted_spelled (s : String) : Tree.key (.quoted (Quoted.spelled s)) = .ok s :=
  Quoted.read_spelled s

mutual

theorem read_tree (room : Nat) :
    ∀ (v : Value), v.Exact → read room (tree v) = within room v.depth v
  | .null, _ => (within_zero room _).symm
  | .bool b, _ => (within_zero room _).symm
  | .number n, hexact => by
      cases hexact with
      | integer hlow hhigh =>
          rename_i i
          have hread := Numeral.read_ofInteger (Number.inRange_iff.mpr ⟨hlow, hhigh⟩)
          rw [tree_integer]
          change (Numeral.ofInteger i).read.map Value.number = within room 0 _
          rw [hread, within_zero]
          rfl
  | .string s, _ => by
      change (Quoted.spelled s).read.map Value.string = within room 0 _
      rw [Quoted.read_spelled, within_zero]
      rfl
  | .array items, hexact => by
      cases hexact with
      | array hitems =>
          cases room with
          | zero => rw [tree, read, depth, within_no_room]
          | succ room =>
              rw [tree, read, depth, within_succ, readItems_itemTrees room items hitems]
              exact within_bind_ok room _ items _ rfl
  | .object entries, hexact => by
      cases hexact with
      | object hsorted hentries =>
          cases room with
          | zero => rw [tree, read, depth, within_no_room]
          | succ room =>
              rw [tree, read, depth, within_succ, readEntries_entryTrees room entries hentries]
              apply within_bind_ok room _ entries
              change Except.ok (Value.object (Dict.ofList entries)) = _
              rw [Dict.ofList_eq_self hsorted]
termination_by structural v => v

theorem readItems_itemTrees (room : Nat) :
    ∀ (items : List Value), (∀ item ∈ items, item.Exact) →
      readItems room (itemTrees items) = within room (depthOfItems items) items
  | [], _ => by
      rw [itemTrees, readItems, depthOfItems, within_zero]
  | item :: items, hexact => by
      rcases List.forall_mem_cons.mp hexact with ⟨hhead, hrest⟩
      have hitem := read_tree room item hhead
      have hothers := readItems_itemTrees room items hrest
      rw [itemTrees, readItems, depthOfItems, hitem]
      apply within_bind
      rw [hothers]
      exact within_bind_ok room _ items _ rfl
termination_by structural items => items

theorem readEntries_entryTrees (room : Nat) :
    ∀ (entries : List (String × Value)), (∀ entry ∈ entries, entry.2.Exact) →
      readEntries room (entryTrees entries) = within room (depthOfEntries entries) entries
  | [], _ => by
      rw [entryTrees, readEntries, depthOfEntries, within_zero]
  | (key, value) :: entries, hexact => by
      rcases List.forall_mem_cons.mp hexact with ⟨hhead, hrest⟩
      have hvalue := read_tree room value hhead
      have hothers := readEntries_entryTrees room entries hrest
      rw [entryTrees, readEntries, depthOfEntries, key_quoted_spelled, ok_bind, hvalue]
      apply within_bind
      rw [hothers]
      exact within_bind_ok room _ entries _ rfl
termination_by structural entries => entries

end

def forms (v : Value) : List String :=
  [v.text, v.spreadText]

theorem ofText_forms {v : Value} (h : v.FloatFree) :
    ∀ text ∈ v.forms, Document.ofText text = ⟨v.tree, false⟩ := by
  intro text htext
  rcases List.mem_cons.mp htext with rfl | htext
  · exact ofText_text h
  · rw [List.mem_singleton.mp htext]
    exact ofText_spreadText h

end Value

namespace Format

/-!
## Formats
-/

variable {α β : Type}

/-- What is written for a value holds no floats, and the value is read back from it exactly if
there is room. -/
structure Restores (format : Format α) (a : α) : Prop where
  floatFree : (format.write a).FloatFree
  read_tree : ∀ room, format.read room (format.write a).tree = within room (format.write a).depth a

theorem restores_string (s : String) : string.Restores s where
  floatFree := .string s
  read_tree room := by
    change (Quoted.spelled s).read = within room 0 s
    rw [Quoted.read_spelled, within_zero]

theorem restores_bool (b : Bool) : bool.Restores b where
  floatFree := .bool b
  read_tree room := (within_zero room b).symm

theorem restores_natural {name : String} {bound n : Nat} (hbound : bound ≤ wordBound)
    (hn : n < bound) : (natural name bound).Restores n where
  floatFree := .integer n
  read_tree room := by
    have hword : wordBound = 18446744073709551616 := rfl
    have hrange : Number.inRange n = true := by
      apply Number.inRange_iff.mpr
      constructor
      · omega
      · omega
    change (natural name bound).read room (Value.tree (.number (.integer n))) = within room 0 n
    rw [Value.tree_integer, within_zero]
    change (Numeral.ofInteger n).read >>= _ = _
    rw [Numeral.read_ofInteger hrange, ok_bind]
    exact if_pos ⟨Int.natCast_nonneg n, Int.ofNat_lt.mpr hn⟩

theorem restores_none (format : Format α) : format.optional.Restores none where
  floatFree := .null
  read_tree room := (within_zero room none).symm

theorem restores_some {format : Format α} {a : α} (h : format.Restores a)
    (hnull : (format.write a).tree ≠ .null) : format.optional.Restores (some a) where
  floatFree := h.floatFree
  read_tree room := by
    have hread : format.optional.read room (format.write a).tree =
        (format.read room (format.write a).tree).map some := by
      unfold optional
      dsimp only
      split
      · rename_i hisNull
        exact absurd hisNull hnull
      · rfl
    change format.optional.read room (format.write a).tree =
      within room (format.write a).depth (some a)
    rw [hread, h.read_tree, within_map]

theorem restores_dict {d : Dict Value} (h : (Value.object d).Exact) : dict.Restores d where
  floatFree := h.floatFree
  read_tree room := by
    cases h with
    | object hsorted hentries =>
        change Value.readDict "a map" room (.object (Value.entryTrees d) none) =
          within room (Value.object d).depth d
        cases room with
        | zero =>
            rw [Value.depth, within_no_room]
            rfl
        | succ room =>
            rw [Value.depth, within_succ]
            change (Value.readEntries room (Value.entryTrees d) >>= _) = _
            rw [Value.readEntries_entryTrees room d hentries]
            apply within_bind_ok room _ d
            change Except.ok (Dict.ofList d) = _
            rw [Dict.ofList_eq_self hsorted]

theorem Restores.convert {format : Format α} {ofα : α → β} {toα : β → α} {b : β}
    (h : format.Restores (toα b)) (hinverse : ofα (toα b) = b) :
    (format.convert ofα toα).Restores b where
  floatFree := h.floatFree
  read_tree room := by
    change (format.read room (format.write (toα b)).tree).map ofα =
      within room (format.write (toα b)).depth b
    rw [h.read_tree, within_map, hinverse]

theorem readAll_itemTrees (item : Format α) (room : Nat) (as : List α)
    (h : ∀ a ∈ as, item.Restores a) :
    readAll (item.read room) (Value.itemTrees (as.map item.write)) =
      within room (Value.depthOfItems (as.map item.write)) as := by
  induction as with
  | nil => exact (within_zero room _).symm
  | cons a as ih =>
      rcases List.forall_mem_cons.mp h with ⟨hhead, hrest⟩
      have hothers := ih hrest
      rw [List.map_cons, Value.itemTrees, Value.depthOfItems, readAll, hhead.read_tree]
      apply within_bind
      rw [hothers]
      exact within_bind_ok room _ as _ rfl

theorem restores_list {item : Format α} {as : List α} (h : ∀ a ∈ as, item.Restores a) :
    item.list.Restores as where
  floatFree := by
    apply Value.FloatFree.array
    intro v hv
    rcases List.mem_map.mp hv with ⟨a, ha, rfl⟩
    exact (h a ha).floatFree
  read_tree room := by
    change item.list.read room (.array (Value.itemTrees (as.map item.write)) none) =
      within room (Value.array (as.map item.write)).depth as
    cases room with
    | zero =>
        rw [Value.depth, within_no_room]
        rfl
    | succ room =>
        rw [Value.depth, within_succ]
        change (readAll (item.read room) (Value.itemTrees (as.map item.write)) >>= _) = _
        rw [readAll_itemTrees item room as h]
        exact within_bind_ok room _ as as rfl

/-- What is printed within the nesting limit is parsed again, and nothing else that is
printed. -/
theorem Restores.parse_print {format : Format α} {a : α} (h : format.Restores a) :
    format.parse (format.print a) = within 127 (nesting (format.print a)) a := by
  unfold parse print
  rw [Value.ofText_text h.floatFree, Value.nesting_text h.floatFree]
  change (format.read 127 (format.write a).tree >>= _) = _
  rw [h.read_tree]
  exact within_bind_ok 127 _ a a rfl

def Reparses (format : Format α) (a : α) : Prop :=
  ∀ text ∈ (format.write a).forms, format.parse text = .ok a

theorem Restores.reparses {format : Format α} {a : α} (h : format.Restores a)
    (hdepth : (format.write a).depth ≤ 127) : format.Reparses a := by
  intro text htext
  rw [parse, Value.ofText_forms h.floatFree text htext]
  change (format.read 127 (format.write a).tree >>= _) = _
  rw [h.read_tree, within, if_pos hdepth]
  rfl

end Format

theorem exists_amid {α : Type} {a : α} {as others : List α} (h : as.Perm (a :: others)) :
    ∃ before after, as = before ++ a :: after ∧ (before ++ after).Perm others := by
  rcases List.append_of_mem (h.mem_iff.mpr List.mem_cons_self) with ⟨before, after, rfl⟩
  exact ⟨before, after, rfl, (List.perm_middle.symm.trans h).cons_inv⟩

namespace Fields

/-!
## Records

While the entries of a written record are read, a field that was met keeps its slot.
-/

def names {σ ρ : Type} : Fields σ ρ → List String
  | .done => []
  | .field first rest => first.name :: rest.names

def filled {σ ρ : Type} : Fields σ ρ → ρ → σ
  | .done, () => ()
  | .field _ rest, (a, others) => (some a, rest.filled others)

/-- Every field has a name of its own and restores its part of a record. -/
def Restore {σ ρ : Type} : Fields σ ρ → ρ → Prop
  | .done, () => True
  | .field first rest, (a, others) =>
      first.name ∉ rest.names ∧ first.format.Restores a ∧ rest.Restore others

theorem write_names {σ ρ : Type} (fields : Fields σ ρ) (record : ρ) :
    (fields.write record).map (·.1) = fields.names := by
  induction fields with
  | done => rfl
  | field first rest ih => exact congrArg (first.name :: ·) (ih record.2)

theorem floatFree_of_restore {σ ρ : Type} (fields : Fields σ ρ) (record : ρ)
    (h : fields.Restore record) : ∀ entry ∈ fields.write record, entry.2.FloatFree := by
  induction fields with
  | done =>
      intro entry hentry
      cases hentry
  | field first rest ih =>
      rcases record with ⟨a, others⟩
      intro entry hentry
      rcases List.mem_cons.mp hentry with rfl | hentry
      · exact h.2.1.floatFree
      · exact ih others h.2.2 entry hentry

theorem fill_vacant {α σ ρ : Type} (room : Nat) (first : Field α) (rest : Fields σ ρ)
    (value : Tree) (slots : σ) :
    (Fields.field first rest).fill room first.name value (none, slots) =
      some ((first.format.read room value).map fun a => (some a, slots)) :=
  if_pos rfl

theorem fill_other {α σ ρ : Type} (room : Nat) (first : Field α) (rest : Fields σ ρ)
    {key : String} (hne : first.name ≠ key) (value : Tree) (slot : Option α) (slots : σ) :
    (Fields.field first rest).fill room key value (slot, slots) =
      (rest.fill room key value slots).map (·.map (slot, ·)) :=
  if_neg hne

theorem fillAll_other {α σ ρ : Type} (room : Nat) (first : Field α) (rest : Fields σ ρ)
    {key value : Tree} {name : String} (hkey : key.key = .ok name) (hne : name ≠ first.name)
    (slot : Option α) (slots : σ) {entries others : List (Tree × Tree)} {put : σ → Option α × σ}
    (h : ∀ slots, (Fields.field first rest).fillAll room entries (slot, slots) =
      (rest.fillAll room others slots).map put) :
    (Fields.field first rest).fillAll room ((key, value) :: entries) (slot, slots) =
      (rest.fillAll room ((key, value) :: others) slots).map put := by
  rw [fillAll, fillAll, hkey, ok_bind, ok_bind, fill_other room first rest (Ne.symm hne)]
  cases hfill : rest.fill room name value slots with
  | none =>
      simp only [Option.map_none]
      cases hskip : value.skip with
      | error e => rfl
      | ok u => exact h slots
  | some result =>
      simp only [Option.map_some]
      cases result with
      | error e => rfl
      | ok slots => exact h slots

/-- The key of the entry is a text, but not this one. -/
def OtherKey (name : String) (entry : Tree × Tree) : Prop :=
  ∃ key, entry.1.key = .ok key ∧ key ≠ name

theorem otherKey_of_mem_entryTrees {name : String} {entries : List (String × Value)}
    (hname : name ∉ entries.map (·.1)) :
    ∀ entry ∈ Value.entryTrees entries, OtherKey name entry := by
  intro entry hentry
  rcases Value.mem_entryTrees hentry with ⟨pair, hpair, rfl⟩
  refine ⟨pair.1, Value.key_quoted_spelled pair.1, ?_⟩
  rintro rfl
  exact hname (List.mem_map_of_mem hpair)

theorem fillAll_skip_first {α σ ρ : Type} (room : Nat) (first : Field α) (rest : Fields σ ρ)
    (slot : Option α) (entries : List (Tree × Tree)) (slots : σ)
    (h : ∀ entry ∈ entries, OtherKey first.name entry) :
    (Fields.field first rest).fillAll room entries (slot, slots) =
      (rest.fillAll room entries slots).map (slot, ·) := by
  induction entries generalizing slots with
  | nil => rfl
  | cons entry entries ih =>
      rcases List.forall_mem_cons.mp h with ⟨⟨name, hkey, hne⟩, hothers⟩
      exact fillAll_other room first rest hkey hne slot slots fun slots => ih slots hothers

/-- The first field may stand anywhere among the entries of the others. -/
theorem fillAll_amid {α σ ρ : Type} (room : Nat) (first : Field α) (rest : Fields σ ρ)
    {key value : Tree} {a : α} (hkey : key.key = .ok first.name)
    (hread : first.format.read room value = .ok a) (before after : List (Tree × Tree)) (slots : σ)
    (h : ∀ entry ∈ before ++ after, OtherKey first.name entry) :
    (Fields.field first rest).fillAll room (before ++ (key, value) :: after) (none, slots) =
      (rest.fillAll room (before ++ after) slots).map (some a, ·) := by
  induction before generalizing slots with
  | nil =>
      rw [List.nil_append, List.nil_append, fillAll, hkey, ok_bind, fill_vacant, hread]
      exact fillAll_skip_first room first rest (some a) after slots h
  | cons entry before ih =>
      rcases List.forall_mem_cons.mp h with ⟨⟨name, hname, hne⟩, hothers⟩
      exact fillAll_other room first rest hname hne none slots fun slots => ih slots hothers

theorem fillAll_done (room : Nat) {entries : List (Tree × Tree)}
    (h : ∀ entry ∈ entries, (∃ key, entry.1.key = .ok key) ∧ entry.2.skip = .ok ()) :
    Fields.done.fillAll room entries () = .ok () := by
  induction entries with
  | nil => rfl
  | cons entry entries ih =>
      rcases List.forall_mem_cons.mp h with ⟨⟨⟨key, hkey⟩, hskip⟩, hothers⟩
      rw [fillAll, hkey, ok_bind]
      change entry.2.skip >>= _ = _
      rw [hskip]
      exact ih hothers

theorem fillAll_write {σ ρ : Type} (room : Nat) (fields : Fields σ ρ) (record : ρ)
    (h : fields.Restore record) :
    fields.fillAll room (Value.entryTrees (fields.write record)) fields.vacant =
      within room (Value.depthOfEntries (fields.write record)) (fields.filled record) := by
  induction fields with
  | done => exact (within_zero room _).symm
  | field first rest ih =>
      rcases record with ⟨a, others⟩
      rcases h with ⟨hname, hfirst, hrest⟩
      rw [write, Value.entryTrees, fillAll, Value.key_quoted_spelled, ok_bind, vacant,
        fill_vacant, Value.depthOfEntries]
      change ((first.format.read room (first.format.write a).tree).map _ >>= _) = _
      rw [hfirst.read_tree, within_map]
      apply within_bind
      have hnames : ∀ entry ∈ Value.entryTrees (rest.write others), OtherKey first.name entry := by
        apply otherKey_of_mem_entryTrees
        rw [write_names]
        exact hname
      rw [fillAll_skip_first room first rest (some a) _ rest.vacant hnames, ih others hrest,
        within_map]
      rfl

theorem complete_filled {σ ρ : Type} (fields : Fields σ ρ) (record : ρ) :
    fields.complete (fields.filled record) = .ok record := by
  induction fields with
  | done => rfl
  | field first rest ih =>
      rcases record with ⟨a, others⟩
      change (rest.complete (rest.filled others)).map _ = _
      rw [ih]
      rfl

theorem restores_format {σ ρ : Type} (title : String) (fields : Fields σ ρ) {record : ρ}
    (h : fields.Restore record) : (fields.format title).Restores record where
  floatFree := .object (floatFree_of_restore fields record h)
  read_tree room := by
    change fields.read title room (.object (Value.entryTrees (fields.write record)) none) =
      within room (Value.object (fields.write record)).depth record
    cases room with
    | zero =>
        rw [Value.depth, within_no_room]
        rfl
    | succ room =>
        rw [Value.depth, within_succ]
        change (fields.fillAll room (Value.entryTrees (fields.write record)) fields.vacant
          >>= _) = _
        rw [fillAll_write room fields record h]
        apply within_bind_ok
        exact complete_filled fields record

end Fields

end Json
end ButtonFlow
