import ButtonFlow.Proofs.Json.ReadBack

/-!
# Records in any arrangement

The fields of a record may stand in any order among others that nobody wants, or in their own
order in an array, and some may be left out. A record is read alike from all these
arrangements. If the value of a field cannot be read, or a field stands twice in an object,
then that is the failure of the whole record.
-/

namespace ButtonFlow
namespace Json

/-!
## Arrangements
-/

/-- The tree is a key that spells this name in some way. -/
def Tree.Names (t : Tree) (name : String) : Prop :=
  ∃ pieces, t = .quoted ⟨pieces, none⟩ ∧ Quoted.read ⟨pieces, none⟩ = .ok name

/-- A field that is to be arranged: its name, the trees that may stand for its value, and
whether it may be left out. -/
structure Part where
  name : String
  Stands : Tree → Prop
  Omissible : Prop

inductive Chosen : List Part → List (Tree × Tree) → Prop where
  | nil : Chosen [] []
  | kept {part : Part} {parts : List Part} {key value : Tree} {entries : List (Tree × Tree)}
      (hkey : key.Names part.name) (hvalue : part.Stands value) (hrest : Chosen parts entries) :
      Chosen (part :: parts) ((key, value) :: entries)
  | dropped {part : Part} {parts : List Part} {entries : List (Tree × Tree)}
      (hpart : part.Omissible) (hrest : Chosen parts entries) : Chosen (part :: parts) entries

/-- An entry with another name and any value that does not break off. -/
structure Foreign (parts : List Part) (entry : Tree × Tree) : Prop where
  names : ∃ name, entry.1.Names name ∧ name ∉ parts.map Part.name
  whole : entry.2.Whole

/-- Items for the fields in their order, where the last ones may be left out. -/
inductive InOrder : List Part → List Tree → Prop where
  | stop {parts : List Part} (h : ∀ part ∈ parts, part.Omissible) : InOrder parts []
  | item {part : Part} {parts : List Part} {item : Tree} {items : List Tree}
      (hitem : part.Stands item) (hrest : InOrder parts items) :
      InOrder (part :: parts) (item :: items)

inductive Scattered (parts : List Part) (entries : List (Tree × Tree)) : Prop where
  | perm {own foreign : List (Tree × Tree)} (hown : Chosen parts own)
      (hforeign : ∀ entry ∈ foreign, Foreign parts entry) (hperm : entries.Perm (own ++ foreign))

inductive Arranged (parts : List Part) : Tree → Prop where
  | object {entries : List (Tree × Tree)} (hentries : Scattered parts entries) :
      Arranged parts (.object entries none)
  | array {items : List Tree} (hitems : InOrder parts items) : Arranged parts (.array items none)

/-- The objects that begin like an arrangement and go on with a field that they already have.
What stands behind it may be anything that does not break off. -/
inductive Repeats (parts : List Part) (name : String) : Tree → Prop where
  | again {before after rest : List (Tree × Tree)} {key value : Tree}
      (hscattered : Scattered parts (before ++ after))
      (hname : name ∈ parts.map Part.name) (hmet : ∃ entry ∈ before, entry.1.Names name)
      (hkey : key.Names name) (hrest : Tree.Whole (.object ((key, value) :: rest) none)) :
      Repeats parts name (.object (before ++ (key, value) :: rest) none)

/-- The objects that begin like an arrangement, up to one of its fields. What stands behind it
may be anything that does not break off. -/
inductive UpTo (parts : List Part) (last : Part) : Tree → Prop where
  | field {before after rest : List (Tree × Tree)} {key value : Tree}
      (hscattered : Scattered parts (before ++ (key, value) :: after))
      (hkey : key.Names last.name) (hvalue : last.Stands value)
      (hrest : Tree.Whole (.object rest none)) :
      UpTo parts last (.object (before ++ (key, value) :: rest) none)

theorem Tree.Names.key_eq {t : Tree} {name : String} (h : t.Names name) : t.key = .ok name := by
  rcases h with ⟨pieces, rfl, hread⟩
  exact hread

theorem Tree.Names.isKey {t : Tree} {name : String} (h : t.Names name) : t.IsKey := by
  rcases h with ⟨pieces, rfl, _⟩
  exact ⟨pieces, rfl⟩

theorem Tree.Names.whole {t : Tree} {name : String} (h : t.Names name) : t.Whole := by
  rcases h with ⟨pieces, rfl, _⟩
  exact .quoted pieces

theorem Tree.names_spelled (name : String) : (Tree.quoted (Quoted.spelled name)).Names name :=
  ⟨_, rfl, Quoted.read_spelled name⟩

/-!
## Arrangements are whole
-/

theorem Chosen.exists_name {parts : List Part} {own : List (Tree × Tree)} (h : Chosen parts own) :
    ∀ entry ∈ own, ∃ name, entry.1.Names name ∧ name ∈ parts.map Part.name := by
  induction h with
  | nil => exact fun _ hentry => nomatch hentry
  | kept hkey _ _ ih =>
      intro entry hentry
      rcases List.mem_cons.mp hentry with rfl | hentry
      · exact ⟨_, hkey, List.mem_cons_self⟩
      · rcases ih entry hentry with ⟨name, hname, hmem⟩
        exact ⟨name, hname, List.mem_cons_of_mem _ hmem⟩
  | dropped _ _ ih =>
      intro entry hentry
      rcases ih entry hentry with ⟨name, hname, hmem⟩
      exact ⟨name, hname, List.mem_cons_of_mem _ hmem⟩

theorem Foreign.tail {part : Part} {parts : List Part} {entry : Tree × Tree}
    (h : Foreign (part :: parts) entry) : Foreign parts entry where
  names := by
    rcases h.names with ⟨name, hname, hmem⟩
    exact ⟨name, hname, fun hother => hmem (List.mem_cons_of_mem _ hother)⟩
  whole := h.whole

theorem Tree.Whole.left {before after : List (Tree × Tree)} {ending : Option Failure}
    (h : Tree.Whole (.object (before ++ after) ending)) : Tree.Whole (.object before none) := by
  cases h with
  | object hkeys hvalues =>
      exact .object (fun entry hentry => hkeys entry (List.mem_append_left _ hentry))
        fun entry hentry => hvalues entry (List.mem_append_left _ hentry)

theorem Tree.Whole.append {before after : List (Tree × Tree)}
    (hbefore : Tree.Whole (.object before none)) (hafter : Tree.Whole (.object after none)) :
    Tree.Whole (.object (before ++ after) none) := by
  cases hbefore with
  | object hkeys hvalues =>
      cases hafter with
      | object hkeys' hvalues' =>
          apply Tree.Whole.object
          · exact List.forall_mem_append.mpr ⟨hkeys, hkeys'⟩
          · exact List.forall_mem_append.mpr ⟨hvalues, hvalues'⟩

theorem Chosen.scattered {parts : List Part} {own : List (Tree × Tree)} (h : Chosen parts own) :
    Scattered parts own := by
  have hperm : own.Perm (own ++ []) := by
    rw [List.append_nil]
  refine .perm h ?_ hperm
  exact fun _ hentry => nomatch hentry

section

variable {parts : List Part} (hparts : ∀ part ∈ parts, ∀ t, part.Stands t → t.Whole)

include hparts

theorem Chosen.whole {own : List (Tree × Tree)} (h : Chosen parts own) :
    ∀ entry ∈ own, entry.2.Whole := by
  induction h with
  | nil => exact fun _ hentry => nomatch hentry
  | kept _ hvalue _ ih =>
      rcases List.forall_mem_cons.mp hparts with ⟨hpart, hothers⟩
      exact List.forall_mem_cons.mpr ⟨hpart _ hvalue, ih hothers⟩
  | dropped _ _ ih => exact ih (List.forall_mem_cons.mp hparts).2

theorem InOrder.whole {items : List Tree} (h : InOrder parts items) :
    ∀ item ∈ items, item.Whole := by
  induction h with
  | stop _ => exact fun _ hitem => nomatch hitem
  | item hitem _ ih =>
      rcases List.forall_mem_cons.mp hparts with ⟨hpart, hothers⟩
      exact List.forall_mem_cons.mpr ⟨hpart _ hitem, ih hothers⟩

theorem Scattered.whole {entries : List (Tree × Tree)} (h : Scattered parts entries) :
    Tree.Whole (.object entries none) := by
  cases h with
  | perm hown hforeign hperm =>
      apply Tree.Whole.object
      · intro entry hentry
        rcases List.mem_append.mp (hperm.mem_iff.mp hentry) with hentry | hentry
        · rcases hown.exists_name entry hentry with ⟨_, hname, _⟩
          exact hname.isKey
        · rcases (hforeign entry hentry).names with ⟨_, hname, _⟩
          exact hname.isKey
      · intro entry hentry
        rcases List.mem_append.mp (hperm.mem_iff.mp hentry) with hentry | hentry
        · exact hown.whole hparts entry hentry
        · exact (hforeign entry hentry).whole

theorem Arranged.whole {t : Tree} (h : Arranged parts t) : t.Whole := by
  cases h with
  | object hentries => exact hentries.whole hparts
  | array hitems => exact .array (hitems.whole hparts)

theorem Repeats.whole {name : String} {t : Tree} (h : Repeats parts name t) : t.Whole := by
  cases h with
  | again hscattered _ _ _ hrest => exact (hscattered.whole hparts).left.append hrest

theorem UpTo.whole {last : Part} {t : Tree} (h : UpTo parts last t) : t.Whole := by
  cases h with
  | field hscattered _ _ hrest =>
      rw [List.append_cons] at hscattered ⊢
      exact (hscattered.whole hparts).left.append hrest

end

/-!
## The first of the fields
-/

open Fields (OtherKey)

inductive Front (part : Part) (parts : List Part) : List (Tree × Tree) → Prop where
  | met {before after : List (Tree × Tree)} {key value : Tree} (hkey : key.Names part.name)
      (hvalue : part.Stands value) (hscattered : Scattered parts (before ++ after))
      (hothers : ∀ entry ∈ before ++ after, OtherKey part.name entry) :
      Front part parts (before ++ (key, value) :: after)
  | dropped {entries : List (Tree × Tree)} (hpart : part.Omissible)
      (hscattered : Scattered parts entries)
      (hothers : ∀ entry ∈ entries, OtherKey part.name entry) : Front part parts entries

theorem otherKey_of_chosen {part : Part} {parts : List Part} {own foreign : List (Tree × Tree)}
    (hname : part.name ∉ parts.map Part.name) (hown : Chosen parts own)
    (hforeign : ∀ entry ∈ foreign, Foreign (part :: parts) entry) :
    ∀ entry ∈ own ++ foreign, OtherKey part.name entry := by
  intro entry hentry
  rcases List.mem_append.mp hentry with hentry | hentry
  · rcases hown.exists_name entry hentry with ⟨other, hother, hmem⟩
    refine ⟨other, hother.key_eq, ?_⟩
    rintro rfl
    exact hname hmem
  · rcases (hforeign entry hentry).names with ⟨other, hother, hmem⟩
    refine ⟨other, hother.key_eq, ?_⟩
    rintro rfl
    exact hmem List.mem_cons_self

theorem Scattered.front {part : Part} {parts : List Part} {entries : List (Tree × Tree)}
    (hname : part.name ∉ parts.map Part.name) (h : Scattered (part :: parts) entries) :
    Front part parts entries := by
  cases h with
  | perm hown hforeign hperm =>
      have htail := fun entry hentry => (hforeign entry hentry).tail
      cases hown with
      | kept hkey hvalue hown =>
          rcases exists_amid hperm with ⟨before, after, rfl, hothers⟩
          apply Front.met hkey hvalue (.perm hown htail hothers)
          intro entry hentry
          exact otherKey_of_chosen hname hown hforeign entry (hothers.mem_iff.mp hentry)
      | dropped hpart hown =>
          apply Front.dropped hpart (.perm hown htail hperm)
          intro entry hentry
          exact otherKey_of_chosen hname hown hforeign entry (hperm.mem_iff.mp hentry)

theorem Scattered.passed {entries : List (Tree × Tree)} (h : Scattered [] entries) :
    ∀ entry ∈ entries, (∃ key, entry.1.key = .ok key) ∧ entry.2.skip = .ok () := by
  cases h with
  | perm hown hforeign hperm =>
      cases hown
      intro entry hentry
      have hother := hforeign entry (hperm.mem_iff.mp hentry)
      rcases hother.names with ⟨name, hname, _⟩
      exact ⟨⟨name, hname.key_eq⟩, hother.whole.skip_eq⟩

/-!
## Reading arrangements
-/

/-- Whatever stands for the part is read as the value of the field, and where the part may be
left out, its absence means the same. -/
structure Part.Suits {α : Type} (room : Nat) (part : Part) (first : Field α) (a : α) : Prop where
  name_eq : part.name = first.name
  read_eq : ∀ t, part.Stands t → first.format.read room t = .ok a
  absent : part.Omissible → first.ifAbsent = some a
  short : part.Omissible → first.ifShort = some a

namespace Fields

inductive Match (room : Nat) : {σ ρ : Type} → Fields σ ρ → ρ → List Part → Prop where
  | done : Match room .done () []
  | field {α σ ρ : Type} {first : Field α} {rest : Fields σ ρ} {a : α} {others : ρ} {part : Part}
      {parts : List Part} (hname : first.name ∉ rest.names) (hpart : part.Suits room first a)
      (hrest : Match room rest others parts) :
      Match room (.field first rest) (a, others) (part :: parts)

variable {room : Nat} {σ ρ : Type} {fields : Fields σ ρ} {record : ρ} {parts : List Part}

theorem Match.names_eq (h : fields.Match room record parts) :
    parts.map Part.name = fields.names := by
  induction h with
  | done => rfl
  | field _ hpart _ ih => rw [List.map_cons, names, hpart.name_eq, ih]

theorem exists_slots (h : fields.Match room record parts) {entries : List (Tree × Tree)}
    (hentries : Scattered parts entries) :
    ∃ slots, fields.fillAll room entries fields.vacant = .ok slots ∧
      fields.complete slots = .ok record := by
  -- One case for each field: its entry is taken out from among the others, or it is left out.
  induction h generalizing entries with
  | done => exact ⟨(), fillAll_done room hentries.passed, rfl⟩
  | @field _ _ _ first rest a others part parts hname hpart hrest ih =>
      rw [← hrest.names_eq, ← hpart.name_eq] at hname
      cases hentries.front hname with
      | met hkey hvalue hscattered hothers =>
          rename_i before after key value
          rcases ih hscattered with ⟨slots, hfill, hcomplete⟩
          rw [hpart.name_eq] at hkey hothers
          refine ⟨(some a, slots), ?_, ?_⟩
          · rw [vacant,
              fillAll_amid room first rest hkey.key_eq (hpart.read_eq _ hvalue) before after
              rest.vacant hothers, hfill]
            rfl
          · rw [complete, Option.some_or, hcomplete]
            rfl
      | dropped homissible hscattered hothers =>
          rcases ih hscattered with ⟨slots, hfill, hcomplete⟩
          rw [hpart.name_eq] at hothers
          refine ⟨(none, slots), ?_, ?_⟩
          · rw [vacant, fillAll_skip_first room first rest none entries rest.vacant hothers, hfill]
            rfl
          · rw [complete, Option.none_or, hpart.absent homissible, hcomplete]
            rfl

theorem readItems_inOrder (h : fields.Match room record parts) {items : List Tree}
    (hitems : InOrder parts items) (wanted : String) (met : Nat) :
    fields.readItems room wanted none met items = .ok (record, []) := by
  induction h generalizing items met with
  | done =>
      cases hitems
      rfl
  | field _ hpart _ ih =>
      cases hitems with
      | stop homissible =>
          rcases List.forall_mem_cons.mp homissible with ⟨hfirst, hothers⟩
          rw [readItems, Tree.closed, ok_bind, hpart.short hfirst]
          dsimp only
          rw [ih (.stop hothers) (met + 1)]
          rfl
      | item hitem hitems =>
          rw [readItems, hpart.read_eq _ hitem, ok_bind, ih hitems (met + 1)]
          rfl

/-- A record is read from all its arrangements. -/
theorem read_arranged (h : fields.Match room record parts) (title : String) {t : Tree}
    (ht : Arranged parts t) : fields.read title (room + 1) t = .ok record := by
  cases ht with
  | object hentries =>
      rcases exists_slots h hentries with ⟨slots, hfill, hcomplete⟩
      change (fields.fillAll room _ fields.vacant >>= _) = _
      rw [hfill, ok_bind]
      exact hcomplete
  | array hitems =>
      change (fields.readItems room _ none 0 _ >>= _) = _
      rw [readItems_inOrder h hitems]
      rfl

/-!
## Fields that cannot be read
-/

theorem fillAll_append (room : Nat) (fields : Fields σ ρ) (before after : List (Tree × Tree))
    (slots : σ) :
    fields.fillAll room (before ++ after) slots =
      fields.fillAll room before slots >>= fields.fillAll room after := by
  induction before generalizing slots with
  | nil => rfl
  | cons entry before ih =>
      rcases entry with ⟨key, value⟩
      rw [List.cons_append, fillAll, fillAll]
      cases hkey : key.key with
      | error e => rfl
      | ok name =>
          simp only [ok_bind]
          cases hfill : fields.fill room name value slots with
          | none =>
              dsimp only
              cases hskip : value.skip with
              | error e => rfl
              | ok u => exact ih slots
          | some result =>
              dsimp only
              cases result with
              | error e => rfl
              | ok slots => exact ih slots

theorem fill_ne_none {name : String} (hname : name ∈ fields.names) (value : Tree) (slots : σ) :
    fields.fill room name value slots ≠ none := by
  induction fields with
  | done => exact nomatch hname
  | field first rest ih =>
      rcases slots with ⟨slot, slots⟩
      unfold fill
      split
      · cases slot with
        | none => exact Option.some_ne_none _
        | some a => exact Option.some_ne_none _
      · rename_i hne
        rcases List.mem_cons.mp hname with rfl | hname
        · exact absurd rfl hne
        · intro hnone
          exact ih hname slots (Option.map_eq_none_iff.mp hnone)

/-- What stands for one of the parts cannot be read, and it is not left out. The other parts
suit their fields. -/
inductive Fails (room : Nat) (f : Failure) (failing : Part) :
    {σ ρ : Type} → Fields σ ρ → List Part → Prop where
  | here {α σ ρ : Type} {first : Field α} {rest : Fields σ ρ} {others : ρ} {parts : List Part}
      (hname : first.name ∉ rest.names) (hpart : failing.name = first.name)
      (hkept : ¬ failing.Omissible)
      (hread : ∀ t, failing.Stands t → first.format.read room t = .error f)
      (hrest : Match room rest others parts) :
      Fails room f failing (.field first rest) (failing :: parts)
  | later {α σ ρ : Type} {first : Field α} {rest : Fields σ ρ} {a : α} {part : Part}
      {parts : List Part} (hname : first.name ∉ rest.names) (hpart : part.Suits room first a)
      (hrest : Fails room f failing rest parts) :
      Fails room f failing (.field first rest) (part :: parts)

variable {f : Failure} {failing : Part}

theorem Fails.names_eq (h : Fails room f failing fields parts) :
    parts.map Part.name = fields.names := by
  induction h with
  | here _ hpart _ _ hrest => rw [List.map_cons, names, hpart, hrest.names_eq]
  | later _ hpart _ ih => rw [List.map_cons, names, hpart.name_eq, ih]

theorem Fails.name_mem (h : Fails room f failing fields parts) : failing.name ∈ fields.names := by
  induction h with
  | here _ hpart _ _ _ => exact hpart ▸ List.mem_cons_self
  | later _ _ _ ih => exact List.mem_cons_of_mem _ ih

theorem fillAll_of_fails (h : Fails room f failing fields parts) {entries : List (Tree × Tree)}
    (hentries : Scattered parts entries) :
    fields.fillAll room entries fields.vacant = .error f := by
  induction h generalizing entries with
  | @here _ _ _ first rest others parts hname hpart hkept hread hrest =>
      rw [← hrest.names_eq, ← hpart] at hname
      cases hentries.front hname with
      | met hkey hvalue hscattered hothers =>
          rename_i before after key value
          rcases exists_slots hrest hscattered with ⟨slots, hfill, _⟩
          rw [fillAll_append] at hfill
          rcases bind_eq_ok.mp hfill with ⟨filled, hbefore, _⟩
          rw [hpart] at hkey hothers
          rw [fillAll_append, vacant, fillAll_skip_first room first rest none before rest.vacant
            fun entry hentry => hothers entry (List.mem_append_left _ hentry), hbefore]
          change (Fields.field first rest).fillAll room _ (none, filled) = _
          rw [fillAll, hkey.key_eq, ok_bind, fill_vacant, hread _ hvalue]
          rfl
      | dropped homissible _ _ => exact absurd homissible hkept
  | @later _ _ _ first rest a part parts hname hpart hrest ih =>
      rw [← hrest.names_eq, ← hpart.name_eq] at hname
      cases hentries.front hname with
      | met hkey hvalue hscattered hothers =>
          rename_i before after key value
          rw [hpart.name_eq] at hkey hothers
          rw [vacant, fillAll_amid room first rest hkey.key_eq (hpart.read_eq _ hvalue) before after
            rest.vacant hothers, ih hscattered]
          rfl
      | dropped _ hscattered hothers =>
          rw [hpart.name_eq] at hothers
          rw [vacant, fillAll_skip_first room first rest none entries rest.vacant hothers,
            ih hscattered]
          rfl

theorem fill_ne_ok_of_fails (h : Fails room f failing fields parts) {value : Tree}
    (hvalue : failing.Stands value) (slots filled : σ) :
    fields.fill room failing.name value slots ≠ some (.ok filled) := by
  induction h with
  | @here _ _ _ first rest others parts hname hpart hkept hread hrest =>
      rcases slots with ⟨slot, slots⟩
      unfold fill
      rw [if_pos hpart.symm]
      cases slot with
      | none =>
          rw [hread _ hvalue]
          nofun
      | some a => nofun
  | @later _ _ _ first rest a part parts hname hpart hrest ih =>
      rcases slots with ⟨slot, slots⟩
      have hother : first.name ≠ failing.name := fun hsame => hname (hsame ▸ hrest.name_mem)
      rw [fill_other room first rest hother]
      intro hfill
      rcases Option.map_eq_some_iff.mp hfill with ⟨result, hresult, hok⟩
      rcases map_eq_ok.mp hok with ⟨others, rfl, _⟩
      exact ih slots others hresult

theorem fillAll_upTo (h : Fails room f failing fields parts) {before after : List (Tree × Tree)}
    {key value : Tree} (hscattered : Scattered parts (before ++ (key, value) :: after))
    (hkey : key.Names failing.name) (hvalue : failing.Stands value) (rest : List (Tree × Tree)) :
    fields.fillAll room (before ++ (key, value) :: rest) fields.vacant = .error f := by
  have hall := fillAll_of_fails h hscattered
  rw [fillAll_append] at hall ⊢
  cases hbefore : fields.fillAll room before fields.vacant with
  | error e =>
      rw [hbefore] at hall
      exact hall
  | ok filled =>
      rw [hbefore, ok_bind, fillAll, hkey.key_eq, ok_bind] at hall
      rw [ok_bind, fillAll, hkey.key_eq, ok_bind]
      cases hfill : fields.fill room failing.name value filled with
      | none => exact absurd hfill (fill_ne_none h.name_mem value filled)
      | some result =>
          rw [hfill] at hall
          cases result with
          | error e => exact hall
          | ok next => exact absurd hfill (fill_ne_ok_of_fails h hvalue filled next)

theorem readItems_of_fails (h : Fails room f failing fields parts) {items : List Tree}
    (hitems : InOrder parts items) (wanted : String) (met : Nat) :
    fields.readItems room wanted none met items = .error f := by
  induction h generalizing items met with
  | here _ _ hkept hread _ =>
      cases hitems with
      | stop homissible => exact absurd (homissible _ List.mem_cons_self) hkept
      | item hitem _ =>
          rw [readItems, hread _ hitem]
          rfl
  | later _ hpart _ ih =>
      cases hitems with
      | stop homissible =>
          rcases List.forall_mem_cons.mp homissible with ⟨hfirst, hothers⟩
          rw [readItems, Tree.closed, ok_bind, hpart.short hfirst]
          dsimp only
          rw [ih (.stop hothers) (met + 1)]
          rfl
      | item hitem hitems =>
          rw [readItems, hpart.read_eq _ hitem, ok_bind, ih hitems (met + 1)]
          rfl

theorem read_of_fails (h : Fails room f failing fields parts) (title : String) {t : Tree}
    (ht : Arranged parts t) : fields.read title (room + 1) t = .error f := by
  cases ht with
  | object hentries =>
      change (fields.fillAll room _ fields.vacant >>= _) = _
      rw [fillAll_of_fails h hentries]
      rfl
  | array hitems =>
      change (fields.readItems room _ none 0 _ >>= _) = _
      rw [readItems_of_fails h hitems]
      rfl

theorem read_upTo (h : Fails room f failing fields parts) (title : String) {t : Tree}
    (ht : UpTo parts failing t) : fields.read title (room + 1) t = .error f := by
  cases ht with
  | @field before after rest key value hscattered hkey hvalue _ =>
      change (fields.fillAll room (before ++ (key, value) :: rest) fields.vacant >>= _) = _
      rw [fillAll_upTo h hscattered hkey hvalue]
      rfl

/-!
## Fields that stand twice
-/

def Met (name : String) {σ ρ : Type} : Fields σ ρ → σ → Prop
  | .done, () => False
  | .field first rest, (slot, slots) =>
      (first.name = name ∧ slot ≠ none) ∨ (first.name ≠ name ∧ rest.Met name slots)

theorem fill_of_met {name : String} {slots : σ} (h : fields.Met name slots) (room : Nat)
    (value : Tree) :
    fields.fill room name value slots = some (.error (.misfit (.duplicateField name))) := by
  induction fields with
  | done => exact h.elim
  | field first rest ih =>
      rcases slots with ⟨slot, slots⟩
      rcases h with ⟨hname, hslot⟩ | ⟨hname, hmet⟩
      · unfold fill
        rw [if_pos hname]
        cases slot with
        | none => exact absurd rfl hslot
        | some a => rfl
      · rw [fill_other room first rest hname, ih hmet]
        rfl

theorem met_of_fill {name : String} {value : Tree} {slots filled : σ}
    (h : fields.fill room name value slots = some (.ok filled)) : fields.Met name filled := by
  induction fields with
  | done => cases h
  | field first rest ih =>
      rcases slots with ⟨slot, slots⟩
      unfold fill at h
      split at h
      · rename_i hname
        cases slot with
        | some a => cases h
        | none =>
            rcases map_eq_ok.mp (Option.some.inj h) with ⟨a, _, rfl⟩
            exact .inl ⟨hname, Option.some_ne_none a⟩
      · rename_i hname
        rcases Option.map_eq_some_iff.mp h with ⟨result, hfill, hresult⟩
        rcases map_eq_ok.mp hresult with ⟨others, rfl, rfl⟩
        exact .inr ⟨hname, ih hfill⟩

theorem met_fill {name key : String} {value : Tree} {slots filled : σ}
    (hmet : fields.Met name slots) (h : fields.fill room key value slots = some (.ok filled)) :
    fields.Met name filled := by
  induction fields with
  | done => cases h
  | field first rest ih =>
      rcases slots with ⟨slot, slots⟩
      unfold fill at h
      split at h
      · cases slot with
        | some a => cases h
        | none =>
            rcases map_eq_ok.mp (Option.some.inj h) with ⟨a, _, rfl⟩
            rcases hmet with ⟨_, hslot⟩ | hmet
            · exact absurd rfl hslot
            · exact .inr hmet
      · rcases Option.map_eq_some_iff.mp h with ⟨result, hfill, hresult⟩
        rcases map_eq_ok.mp hresult with ⟨others, rfl, rfl⟩
        rcases hmet with hslot | ⟨hname, hmet⟩
        · exact .inl hslot
        · exact .inr ⟨hname, ih hmet hfill⟩

theorem fillAll_cons_eq_ok {key value : Tree} {entries : List (Tree × Tree)} {slots filled : σ}
    (h : fields.fillAll room ((key, value) :: entries) slots = .ok filled) :
    ∃ name next, key.key = .ok name ∧ fields.fillAll room entries next = .ok filled ∧
      (fields.fill room name value slots = some (.ok next) ∨
        fields.fill room name value slots = none ∧ next = slots) := by
  rcases bind_eq_ok.mp h with ⟨name, hkey, h⟩
  split at h
  · rename_i result hfill
    rcases bind_eq_ok.mp h with ⟨next, hnext, h⟩
    exact ⟨name, next, hkey, h, .inl (hfill.trans (congrArg some hnext))⟩
  · rename_i hfill
    rcases bind_eq_ok.mp h with ⟨_, _, h⟩
    exact ⟨name, slots, hkey, h, .inr ⟨hfill, rfl⟩⟩

theorem met_fillAll {name : String} {entries : List (Tree × Tree)} {slots filled : σ}
    (hmet : fields.Met name slots) (h : fields.fillAll room entries slots = .ok filled) :
    fields.Met name filled := by
  induction entries generalizing slots with
  | nil =>
      cases h
      exact hmet
  | cons entry entries ih =>
      rcases fillAll_cons_eq_ok h with ⟨key, next, _, hrest, hfill | ⟨_, rfl⟩⟩
      · exact ih (met_fill hmet hfill) hrest
      · exact ih hmet hrest

theorem met_of_mem {name : String} (hname : name ∈ fields.names) {entries : List (Tree × Tree)}
    {slots filled : σ} (hmem : ∃ entry ∈ entries, entry.1.Names name)
    (h : fields.fillAll room entries slots = .ok filled) : fields.Met name filled := by
  induction entries generalizing slots with
  | nil =>
      rcases hmem with ⟨_, hentry, _⟩
      exact nomatch hentry
  | cons first entries ih =>
      rcases fillAll_cons_eq_ok h with ⟨key, next, hkey, hrest, hfill⟩
      rcases hmem with ⟨entry, hentry, hentryName⟩
      rcases List.mem_cons.mp hentry with rfl | hentry
      · rw [hentryName.key_eq] at hkey
        cases hkey
        rcases hfill with hfill | ⟨hfill, _⟩
        · exact met_fillAll (met_of_fill hfill) hrest
        · exact absurd hfill (fill_ne_none hname _ _)
      · exact ih ⟨entry, hentry, hentryName⟩ hrest

/-- An object in which a field stands twice is read up to the second one. -/
theorem read_repeats (h : fields.Match room record parts) (title : String) {name : String}
    {t : Tree} (ht : Repeats parts name t) :
    fields.read title (room + 1) t = .error (.misfit (.duplicateField name)) := by
  cases ht with
  | @again before after rest key value hscattered hname hmet hkey _ =>
      rcases exists_slots h hscattered with ⟨slots, hfill, _⟩
      rw [fillAll_append] at hfill
      rcases bind_eq_ok.mp hfill with ⟨filled, hbefore, _⟩
      rw [h.names_eq] at hname
      have hdouble := fill_of_met (met_of_mem hname hmet hbefore) room value
      change (fields.fillAll room (before ++ (key, value) :: rest) fields.vacant >>= _) = _
      rw [fillAll_append, hbefore, ok_bind, fillAll, hkey.key_eq, ok_bind, hdouble]
      rfl

end Fields

/-- The texts of a whole tree are read like the tree. -/
theorem Format.parse_of_isText {α : Type} (format : Format α) {t : Tree} (h : t.Whole)
    {text : String} (htext : t.IsText text) : format.parse text = format.read deepest t := by
  rw [parse, h.ofText_eq htext, Document.read]
  cases format.read deepest t with
  | error e => rfl
  | ok a => rfl

end Json
end ButtonFlow
