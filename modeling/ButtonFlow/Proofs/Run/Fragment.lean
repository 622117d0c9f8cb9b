import ButtonFlow.Proofs.Json.Variant
import ButtonFlow.Run.Fragment

/-!
# Reading fragments back

A fragment is written as two entries, one for its tag and one for its content. It is read from
an object in which these two stand anywhere among other entries, because the first round takes
the tag out of the entries and the second round passes over what is no content.
-/

namespace ButtonFlow

open Json

namespace Fragment

def tag : Fragment → Tag
  | .text _ => .text
  | .image _ => .image
  | .status _ => .status

def content : Fragment → String
  | .text s => s
  | .image url => url
  | .status s => s

def Tag.name : Tag → String
  | .text => "text"
  | .image => "image"
  | .status => "status"

def Tag.contentName : Tag → String
  | .text => "text"
  | .image => "url"
  | .status => "text"

def tagEntry (f : Fragment) : String × Value := ("type", .string f.tag.name)

def contentEntry (f : Fragment) : String × Value := (f.tag.contentName, .string f.content)

theorem write_eq (f : Fragment) : f.write = .object [f.tagEntry, f.contentEntry] := by
  cases f with
  | text s => rfl
  | image url => rfl
  | status s => rfl

theorem fragment_content (f : Fragment) : f.tag.fragment (f.content, ()) = f := by
  cases f with
  | text s => rfl
  | image url => rfl
  | status s => rfl

theorem Tag.select_name (tag : Tag) : Variant.select Tag.all tag.name = .ok tag := by
  cases tag with
  | text => rfl
  | image => rfl
  | status => rfl

theorem Tag.fields_eq (tag : Tag) :
    tag.fields = .field (.required tag.contentName .string) .done := by
  cases tag with
  | text => rfl
  | image => rfl
  | status => rfl

theorem Tag.contentName_ne_type (tag : Tag) : tag.contentName ≠ "type" := by
  cases tag with
  | text => decide
  | image => decide
  | status => decide

/-!
## The first round
-/

structure Aside (room : Nat) (entry : String × Value) : Prop where
  notTag : entry.1 ≠ "type"
  exact : entry.2.Exact
  depth_le : entry.2.depth ≤ room

theorem Aside.findTag_cons {room : Nat} {key : String} {value : Value}
    (h : Aside room (key, value)) (entries : List (Tree × Tree)) (tag : Option Tag) :
    findTag room ((.quoted (Quoted.spelled key), value.tree) :: entries) tag =
      (findTag room entries tag).map
        fun found => (found.1, (.quoted (Quoted.spelled key), value.tree) :: found.2) := by
  rw [findTag.eq_def]
  dsimp only
  rw [Value.key_quoted_spelled, ok_bind, if_neg h.notTag, Value.read_tree room value h.exact,
    within,
    if_pos h.depth_le, ok_bind]
  cases findTag room entries tag with
  | error e => rfl
  | ok found => rfl

theorem findTag_aside {room : Nat} {entries : List (String × Value)}
    (h : ∀ entry ∈ entries, Aside room entry) (tag : Option Tag) :
    findTag room (Value.entryTrees entries) tag = .ok (tag, Value.entryTrees entries) := by
  induction entries with
  | nil => rfl
  | cons entry entries ih =>
      rcases List.forall_mem_cons.mp h with ⟨hhead, hrest⟩
      rw [Value.entryTrees, hhead.findTag_cons, ih hrest]
      rfl

/-- The tag is found wherever it stands, and all other entries are put aside in their order. -/
theorem findTag_amid {room : Nat} (tag : Tag) {before after : List (String × Value)}
    (h : ∀ entry ∈ before ++ after, Aside room entry) :
    findTag room (Value.entryTrees (before ++ ("type", .string tag.name) :: after)) none =
      .ok (some tag, Value.entryTrees (before ++ after)) := by
  induction before with
  | nil =>
      rw [List.nil_append, Value.entryTrees, findTag, Value.key_quoted_spelled, ok_bind, if_pos rfl]
      change (Variant.readName Tag.all (.quoted (Quoted.spelled tag.name)) >>= _) = _
      rw [Variant.readName, Quoted.read_spelled, ok_bind, tag.select_name, ok_bind]
      exact findTag_aside h (some tag)
  | cons entry before ih =>
      rcases List.forall_mem_cons.mp h with ⟨hhead, hrest⟩
      rw [List.cons_append, Value.entryTrees, hhead.findTag_cons, ih hrest]
      rfl

/-!
## Both rounds
-/

structure Beside (f : Fragment) (room : Nat) (entry : String × Value) : Prop where
  aside : Aside room entry
  notContent : entry.1 ≠ f.tag.contentName

theorem aside_contentEntry (f : Fragment) (room : Nat) : Aside room f.contentEntry where
  notTag := f.tag.contentName_ne_type
  exact := .string f.content
  depth_le := Nat.zero_le room

theorem fillAll_amid {f : Fragment} {room : Nat} {before after : List (String × Value)}
    (h : ∀ entry ∈ before ++ after, f.Beside room entry) :
    f.tag.fields.fillAll room (Value.entryTrees (before ++ f.contentEntry :: after))
      f.tag.fields.vacant = .ok (some f.content, ()) := by
  have hname : f.tag.contentName ∉ (before ++ after).map (·.1) := by
    intro hmem
    rcases List.mem_map.mp hmem with ⟨entry, hentry, heq⟩
    exact (h entry hentry).notContent heq
  have hothers := Fields.otherKey_of_mem_entryTrees hname
  have hpassed : ∀ entry ∈ Value.entryTrees (before ++ after),
      (∃ key, entry.1.key = .ok key) ∧ entry.2.skip = .ok () := by
    intro entry hentry
    rcases Value.mem_entryTrees hentry with ⟨pair, hpair, rfl⟩
    have hwhole := Value.whole_tree (h pair hpair).aside.exact.floatFree
    exact ⟨⟨pair.1, Value.key_quoted_spelled pair.1⟩, hwhole.skip_eq⟩
  have hcontent : Format.string.read room (Value.string f.content).tree = .ok f.content :=
    Quoted.read_spelled f.content
  rw [Value.entryTrees_append] at hothers hpassed ⊢
  have hfill := Fields.fillAll_amid room (.required f.tag.contentName .string) .done
    (Value.key_quoted_spelled _) hcontent _ _ () hothers
  rw [Fields.fillAll_done room hpassed] at hfill
  rw [f.tag.fields_eq]
  exact hfill

theorem read_of_perm {f : Fragment} {room : Nat} {entries others : List (String × Value)}
    (hperm : entries.Perm (f.tagEntry :: f.contentEntry :: others))
    (hbeside : ∀ entry ∈ others, f.Beside room entry) :
    read (room + 1) (Value.object entries).tree = .ok f := by
  rcases exists_amid hperm with ⟨before, after, rfl, hfields⟩
  have haside : ∀ entry ∈ before ++ after, Aside room entry := by
    intro entry hentry
    rcases List.mem_cons.mp (hfields.mem_iff.mp hentry) with rfl | hother
    · exact f.aside_contentEntry room
    · exact (hbeside entry hother).aside
  rcases exists_amid hfields with ⟨left, right, hsplit, hothers⟩
  have hfill : f.tag.fields.fillAll room (Value.entryTrees (before ++ after))
      f.tag.fields.vacant = .ok (some f.content, ()) := by
    rw [hsplit]
    apply fillAll_amid
    intro entry hentry
    exact hbeside entry (hothers.mem_iff.mp hentry)
  have hcomplete : f.tag.fields.complete (some f.content, ()) = .ok (f.content, ()) := by
    rw [f.tag.fields_eq]
    rfl
  change (findTag room (Value.entryTrees (before ++ f.tagEntry :: after)) none >>= _) = _
  rw [tagEntry, findTag_amid f.tag haside, ok_bind]
  change (f.tag.fields.fillAll room (Value.entryTrees (before ++ after)) _ >>= _) = _
  rw [hfill, ok_bind, hcomplete]
  exact congrArg Except.ok f.fragment_content

theorem depth_write (f : Fragment) : (format.write f).depth = 1 := by
  change f.write.depth = 1
  rw [write_eq]
  rfl

theorem restores (f : Fragment) : format.Restores f where
  floatFree := by
    change f.write.FloatFree
    rw [write_eq]
    apply Value.FloatFree.object
    intro entry hentry
    rcases List.mem_cons.mp hentry with rfl | hentry
    · exact .string _
    · rw [List.mem_singleton.mp hentry]
      exact .string _
  read_tree room := by
    rw [depth_write]
    change read room f.write.tree = _
    rw [write_eq]
    cases room with
    | zero => rfl
    | succ room =>
        rw [within_succ, within_zero]
        exact read_of_perm (List.Perm.refl _) fun entry hentry => nomatch hentry

/-- Both texts of an object with the two entries of a fragment are parsed as the fragment,
wherever the two stand among others. -/
theorem parse_of_perm {f : Fragment} {entries others : List (String × Value)}
    (hperm : entries.Perm (f.tagEntry :: f.contentEntry :: others))
    (hbeside : ∀ entry ∈ others, f.Beside 126 entry) :
    ∀ text ∈ (Value.object entries).forms, format.parse text = .ok f := by
  have hfree : (Value.object entries).FloatFree := by
    apply Value.FloatFree.object
    intro entry hentry
    rcases List.mem_cons.mp (hperm.mem_iff.mp hentry) with rfl | hentry
    · exact .string _
    · rcases List.mem_cons.mp hentry with rfl | hentry
      · exact .string _
      · exact (hbeside entry hentry).aside.exact.floatFree
  intro text htext
  rw [Format.parse, Value.ofText_forms hfree text htext]
  change (read 127 (Value.object entries).tree >>= _) = _
  rw [read_of_perm hperm hbeside]
  rfl

end Fragment

end ButtonFlow
