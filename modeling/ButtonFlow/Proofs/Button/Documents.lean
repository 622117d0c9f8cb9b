import ButtonFlow.Button.View
import ButtonFlow.Proofs.Run.Fragment
import ButtonFlow.Run.Event

/-!
# Reading back what a button tells

Presentations, fragments, the ways in which a run ends, notes, results, events and views are
read back from both of their texts. The numbers in them must be in the range of their fields,
and the texts in them may be any texts.
-/

namespace ButtonFlow

open Json

/-!
## Presentations
-/

namespace Presentation

def InRange (p : Presentation) : Prop :=
  p.sizeSteps < countBound

instance (p : Presentation) : Decidable p.InRange :=
  inferInstanceAs (Decidable (p.sizeSteps < countBound))

theorem restores_color (color : Option String) :
    (Format.optional .string).Restores color := by
  cases color with
  | none => exact Format.restores_none .string
  | some s =>
      apply Format.restores_some (Format.restores_string s)
      intro hnull
      cases hnull

theorem restores {p : Presentation} (h : p.InRange) : format.Restores p := by
  apply Format.Restores.convert
  · apply Fields.restores_format
    exact ⟨by decide, Format.restores_natural (by decide) h, by decide, restores_color _,
      by decide, Format.restores_bool _, trivial⟩
  · rfl

theorem depth_write (p : Presentation) : (format.write p).depth = 1 := by
  rcases p with ⟨sizeSteps, color, disabled⟩
  cases color with
  | none => rfl
  | some s => rfl

end Presentation

/-!
## Results
-/

namespace Termination

theorem restores (t : Termination) : format.Restores t := by
  apply Variant.restores_plain
  · cases t with
    | completed => decide
    | reloaded => decide
    | windowClosed => decide
  · cases t with
    | completed => decide
    | reloaded => decide
    | windowClosed => decide

theorem depth_write (t : Termination) : (format.write t).depth = 0 := rfl

end Termination

namespace Diagnostic

def InRange (d : Diagnostic) : Prop :=
  d.index < wordBound

instance (d : Diagnostic) : Decidable d.InRange :=
  inferInstanceAs (Decidable (d.index < wordBound))

theorem restores {d : Diagnostic} (h : d.InRange) : format.Restores d := by
  apply Format.Restores.convert
  · apply Fields.restores_format
    exact ⟨by decide, Format.restores_natural (Nat.le_refl _) h, by decide,
      Format.restores_string _, by decide, Format.restores_string _, trivial⟩
  · rfl

theorem depth_write (d : Diagnostic) : (format.write d).depth = 1 := rfl

end Diagnostic

namespace RunResult

structure InRange (r : RunResult) : Prop where
  presentation : r.presentation.InRange
  diagnostics : ∀ d ∈ r.diagnostics, d.InRange

theorem restores {r : RunResult} (h : r.InRange) : format.Restores r := by
  have hfragments : Fragment.format.list.Restores r.fragments :=
    Format.restores_list fun f _ => f.restores
  have hdiagnostics : Diagnostic.format.list.Restores r.diagnostics :=
    Format.restores_list fun d hd => Diagnostic.restores (h.diagnostics d hd)
  apply Format.Restores.convert
  · apply Fields.restores_format
    exact ⟨by decide, Format.restores_string _, by decide, hfragments, by decide,
      Presentation.restores h.presentation, by decide, hdiagnostics, by decide,
      Termination.restores _, trivial⟩
  · rfl

end RunResult

theorem Fragment.depth_writeAll (fragments : List Fragment) :
    (Fragment.format.list.write fragments).depth ≤ 2 := by
  apply Value.depth_array_le.mpr
  intro item hitem
  rcases List.mem_map.mp hitem with ⟨f, _, rfl⟩
  exact Nat.le_of_eq f.depth_write

theorem Diagnostic.depth_writeAll (diagnostics : List Diagnostic) :
    (Diagnostic.format.list.write diagnostics).depth ≤ 2 := by
  apply Value.depth_array_le.mpr
  intro item hitem
  rcases List.mem_map.mp hitem with ⟨d, _, rfl⟩
  exact Nat.le_of_eq d.depth_write

theorem RunResult.depth_write (r : RunResult) : (format.write r).depth ≤ 3 := by
  apply Value.depth_object_le.mpr
  intro entry hentry
  simp only [fields, Fields.write, List.mem_cons, List.not_mem_nil, or_false] at hentry
  rcases hentry with rfl | rfl | rfl | rfl | rfl
  · exact Nat.zero_le 2
  · exact Fragment.depth_writeAll r.fragments
  · exact Nat.le_succ_of_le (Nat.le_of_eq r.presentation.depth_write)
  · exact Diagnostic.depth_writeAll r.diagnostics
  · exact Nat.zero_le 2

/-!
## Events
-/

namespace Event

def InRange : Event → Prop
  | .runStarted _ actions => actions < wordBound
  | .stepStarted _ index _ _ => index < wordBound
  | .fragmentAdded _ index _ => index < wordBound
  | .presentationChanged _ index p => index < wordBound ∧ p.InRange
  | .stepSkipped _ index _ _ => index < wordBound
  | .runCompleted _ _ => True
  | .runCancelled _ => True

theorem restores_index {index : Nat} (h : index < wordBound) : indexField.format.Restores index :=
  Format.restores_natural (Nat.le_refl _) h

structure ContentRestored (e : Event) : Prop where
  floatFree : ∀ entry ∈ e.writeContent, entry.2.FloatFree
  read_content : ∀ room, readContent e.tag room (Value.object e.writeContent).tree =
    within room (Value.object e.writeContent).depth e

theorem contentRestored_of_restore {σ ρ : Type} {e : Event} {fields : Fields σ ρ} {record : ρ}
    (hrecord : fields.Restore record) (hwrite : e.writeContent = fields.write record)
    {make : ρ → Except Failure Event} (hmake : make record = .ok e)
    (hread : ∀ room t, readContent e.tag room t = fields.read e.tag.title room t >>= make) :
    e.ContentRestored where
  floatFree := by
    rw [hwrite]
    exact Fields.floatFree_of_restore fields record hrecord
  read_content room := by
    have hfields : fields.read e.tag.title room (Value.object (fields.write record)).tree =
        within room (Value.object (fields.write record)).depth record :=
      (Fields.restores_format e.tag.title fields hrecord).read_tree room
    rw [hread, hwrite, hfields]
    exact within_bind_ok room _ record e hmake

theorem contentRestored {e : Event} (h : e.InRange) : e.ContentRestored := by
  cases e with
  | runStarted id actions =>
      have hrecord : runStartedFields.Restore (id, actions, ()) :=
        ⟨by decide, Format.restores_string id, by decide,
          Format.restores_natural (Nat.le_refl _) h, trivial⟩
      exact contentRestored_of_restore hrecord rfl rfl fun _ _ => rfl
  | stepStarted id index actionId kind =>
      have hrecord : stepStartedFields.Restore (id, index, actionId, kind, ()) :=
        ⟨by decide, Format.restores_string id, by decide, restores_index h, by decide,
          Format.restores_string actionId, by decide, Format.restores_string kind, trivial⟩
      exact contentRestored_of_restore hrecord rfl rfl fun _ _ => rfl
  | fragmentAdded id index f =>
      have hrecord : fragmentAddedFields.Restore (id, index, f, ()) :=
        ⟨by decide, Format.restores_string id, by decide, restores_index h, by decide,
          f.restores, trivial⟩
      exact contentRestored_of_restore hrecord rfl rfl fun _ _ => rfl
  | presentationChanged id index p =>
      have hrecord : presentationChangedFields.Restore (id, index, p, ()) :=
        ⟨by decide, Format.restores_string id, by decide, restores_index h.1, by decide,
          Presentation.restores h.2, trivial⟩
      exact contentRestored_of_restore hrecord rfl rfl fun _ _ => rfl
  | stepSkipped id index actionId reason =>
      have hrecord : stepSkippedFields.Restore (id, index, actionId, reason, ()) :=
        ⟨by decide, Format.restores_string id, by decide, restores_index h, by decide,
          Format.restores_string actionId, by decide, Format.restores_string reason, trivial⟩
      exact contentRestored_of_restore hrecord rfl rfl fun _ _ => rfl
  | runCompleted id t =>
      have hrecord : runCompletedFields.Restore (id, t, ()) :=
        ⟨by decide, Format.restores_string id, by decide, t.restores, trivial⟩
      exact contentRestored_of_restore hrecord rfl rfl fun _ _ => rfl
  | runCancelled id =>
      have hrecord : runCancelledFields.Restore (id, ()) :=
        ⟨by decide, Format.restores_string id, trivial⟩
      exact contentRestored_of_restore hrecord rfl rfl fun _ _ => rfl

theorem Tag.select_name (tag : Tag) :
    Variant.select (Tag.all.map fun tag => (tag.name, tag)) tag.name = .ok tag := by
  cases tag with
  | runStarted => rfl
  | stepStarted => rfl
  | fragmentAdded => rfl
  | presentationChanged => rfl
  | stepSkipped => rfl
  | runCompleted => rfl
  | runCancelled => rfl

theorem restores {e : Event} (h : e.InRange) : format.Restores e where
  floatFree := by
    apply Value.FloatFree.object
    intro entry hentry
    rw [List.mem_singleton.mp hentry]
    exact .object (contentRestored h).floatFree
  read_tree := Variant.read_filled e.tag.select_name (contentRestored h).read_content

theorem depth_write (e : Event) : (format.write e).depth ≤ 3 := by
  apply Value.depth_object_le.mpr
  intro entry hentry
  rw [List.mem_singleton.mp hentry]
  apply Value.depth_object_le.mpr
  -- Only a fragment and a presentation are deeper than a number or a text.
  cases e with
  | fragmentAdded id index f =>
      intro entry hentry
      simp only [writeContent, fragmentAddedFields, Fields.write, List.mem_cons, List.not_mem_nil,
        or_false] at hentry
      rcases hentry with rfl | rfl | rfl
      · exact Nat.zero_le 1
      · exact Nat.zero_le 1
      · exact Nat.le_of_eq f.depth_write
  | presentationChanged id index p =>
      intro entry hentry
      simp only [writeContent, presentationChangedFields, Fields.write, List.mem_cons,
        List.not_mem_nil, or_false] at hentry
      rcases hentry with rfl | rfl | rfl
      · exact Nat.zero_le 1
      · exact Nat.zero_le 1
      · exact Nat.le_of_eq p.depth_write
  | _ => exact Value.depthOfEntries_le.mp (Nat.zero_le 1)

end Event

/-!
## Views
-/

namespace View

structure InRange (v : View) : Prop where
  presentation : v.presentation.InRange
  runs : v.runs < wordBound

theorem restores {v : View} (h : v.InRange) : format.Restores v := by
  have hfragments : Fragment.format.list.Restores v.fragments :=
    Format.restores_list fun f _ => f.restores
  apply Format.Restores.convert
  · apply Fields.restores_format
    exact ⟨by decide, Format.restores_string _, by decide,
      Presentation.restores h.presentation, by decide, hfragments, by decide,
      Format.restores_bool _, by decide, Format.restores_natural (Nat.le_refl _) h.runs, trivial⟩
  · rfl

theorem depth_write (v : View) : (format.write v).depth ≤ 3 := by
  apply Value.depth_object_le.mpr
  intro entry hentry
  simp only [fields, Fields.write, List.mem_cons, List.not_mem_nil, or_false] at hentry
  rcases hentry with rfl | rfl | rfl | rfl | rfl
  · exact Nat.zero_le 2
  · exact Nat.le_succ_of_le (Nat.le_of_eq v.presentation.depth_write)
  · exact Fragment.depth_writeAll v.fragments
  · exact Nat.zero_le 2
  · exact Nat.zero_le 2

end View

/-!
## All documents
-/

/-- Every document that a button tells is parsed as itself, and a fragment is also parsed from
an object in which its tag and its content stand anywhere among other entries. -/
theorem documents_reparse :
    (∀ p : Presentation, p.InRange → Presentation.format.Reparses p) ∧
    (∀ f : Fragment, Fragment.format.Reparses f) ∧
    (∀ t : Termination, Termination.format.Reparses t) ∧
    (∀ d : Diagnostic, d.InRange → Diagnostic.format.Reparses d) ∧
    (∀ r : RunResult, r.InRange → RunResult.format.Reparses r) ∧
    (∀ e : Event, e.InRange → Event.format.Reparses e) ∧
    (∀ v : View, v.InRange → View.format.Reparses v) ∧
    ∀ (f : Fragment) (entries others : List (String × Value)),
      entries.Perm (f.tagEntry :: f.contentEntry :: others) →
        (∀ entry ∈ others, f.Beside 126 entry) →
          ∀ text ∈ (Value.object entries).forms, Fragment.format.parse text = .ok f := by
  refine ⟨?_, ?_, ?_, ?_, ?_, ?_, ?_, ?_⟩
  · intro p h
    have hdepth := p.depth_write
    exact (Presentation.restores h).reparses (by omega)
  · intro f
    have hdepth := f.depth_write
    exact f.restores.reparses (by omega)
  · intro t
    have hdepth := t.depth_write
    exact t.restores.reparses (by omega)
  · intro d h
    have hdepth := d.depth_write
    exact (Diagnostic.restores h).reparses (by omega)
  · intro r h
    have hdepth := r.depth_write
    exact (RunResult.restores h).reparses (by omega)
  · intro e h
    have hdepth := e.depth_write
    exact (Event.restores h).reparses (by omega)
  · intro v h
    have hdepth := v.depth_write
    exact (View.restores h).reparses (by omega)
  · intro f entries others hperm hbeside
    exact Fragment.parse_of_perm hperm hbeside

theorem documents_reparse_extreme :
    let p : Presentation := ⟨4294967295, some "#00ff00", true⟩
    let f : Fragment := .text "a \"b\"\n\u0001é"
    let d : Diagnostic := ⟨18446744073709551615, "a1", "\\"⟩
    Presentation.format.Reparses p ∧ Diagnostic.format.Reparses d ∧
      RunResult.format.Reparses ⟨"e", [f, .image ""], p, [d], .windowClosed⟩ ∧
      Event.format.Reparses (.presentationChanged "e" 18446744073709551615 p) ∧
      View.format.Reparses ⟨"", p, [f], true, 18446744073709551615⟩ ∧
      ∀ text ∈ (Value.object [f.contentEntry, ("note", .array [.null]), f.tagEntry]).forms,
        Fragment.format.parse text = .ok f := by
  intro p f d
  have hp : p.InRange := by decide
  have hd : d.InRange := by decide
  rcases documents_reparse with
    ⟨hpresentation, _, _, hdiagnostic, hresult, hevent, hview, hfragment⟩
  refine ⟨hpresentation p hp, hdiagnostic d hd, hresult _ ⟨hp, ?_⟩, hevent _ ⟨by decide, hp⟩,
    hview _ ⟨hp, by decide⟩, hfragment f _ [("note", .array [.null])] ?_ ?_⟩
  · intro other hother
    rw [List.mem_singleton.mp hother]
    exact hd
  · exact @List.perm_append_comm _ [f.contentEntry, ("note", .array [.null])] [f.tagEntry]
  · intro entry hentry
    rw [List.mem_singleton.mp hentry]
    have hexact : (Value.array [.null]).Exact := by
      apply Value.Exact.array
      intro item hitem
      rw [List.mem_singleton.mp hitem]
      exact .null
    exact ⟨⟨by decide, hexact, by decide⟩, by decide⟩

end ButtonFlow
