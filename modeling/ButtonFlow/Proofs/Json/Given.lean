import ButtonFlow.Json.Record
import ButtonFlow.Proofs.Except

/-!
# What reading gives

Whatever stands in a text, every part of what is read from it was read by the format of that
part, with the room that the parts around it leave, or is what the absence of a field means.
-/

namespace ButtonFlow
namespace Json

namespace Format

variable {α β : Type}

/-- Something that a format reads from some tree. -/
def Gives (format : Format α) (room : Nat) (a : α) : Prop :=
  ∃ t, format.read room t = .ok a

theorem Gives.of_parse {format : Format α} {text : String} {a : α}
    (h : format.parse text = .ok a) : format.Gives 127 a := by
  rcases bind_eq_ok.mp h with ⟨b, hread, htrailing⟩
  split at htrailing
  · cases htrailing
  · cases htrailing
    exact ⟨_, hread⟩

theorem Gives.of_convert {ofα : α → β} {toα : β → α} {format : Format α} {room : Nat} {b : β}
    (h : (format.convert ofα toα).Gives room b) : ∃ a, format.Gives room a ∧ ofα a = b := by
  rcases h with ⟨t, h⟩
  rcases map_eq_ok.mp h with ⟨a, hread, hb⟩
  exact ⟨a, ⟨t, hread⟩, hb⟩

theorem gives_of_readAll {item : Format α} {room : Nat} {items : List Tree} {as : List α}
    (h : readAll (item.read room) items = .ok as) : ∀ a ∈ as, item.Gives room a := by
  induction items generalizing as with
  | nil =>
      cases h
      intro a ha
      cases ha
  | cons t items ih =>
      rcases bind_eq_ok.mp h with ⟨first, hfirst, h⟩
      rcases bind_eq_ok.mp h with ⟨others, hothers, h⟩
      cases h
      intro a ha
      rcases List.mem_cons.mp ha with rfl | ha
      · exact ⟨t, hfirst⟩
      · exact ih hothers a ha

theorem Gives.of_list {item : Format α} {room : Nat} {as : List α}
    (h : item.list.Gives (room + 1) as) : ∀ a ∈ as, item.Gives room a := by
  rcases h with ⟨t, h⟩
  cases t with
  | array items ending =>
      rcases bind_eq_ok.mp h with ⟨others, hread, h⟩
      rcases bind_eq_ok.mp h with ⟨_, _, h⟩
      cases h
      exact gives_of_readAll hread
  | _ => cases h

end Format

inductive Field.Gives {α : Type} (field : Field α) (room : Nat) (a : α) : Prop where
  | item (h : field.format.Gives room a)
  | absent (h : field.ifAbsent = some a)
  | short (h : field.ifShort = some a)

namespace Fields

def Give {σ ρ : Type} (room : Nat) : Fields σ ρ → ρ → Prop
  | .done, () => True
  | .field first rest, (a, others) => first.Gives room a ∧ rest.Give room others

def GiveSlots {σ ρ : Type} (room : Nat) : Fields σ ρ → σ → Prop
  | .done, () => True
  | .field first rest, (slot, slots) =>
      (∀ a, slot = some a → first.format.Gives room a) ∧ rest.GiveSlots room slots

theorem giveSlots_vacant {σ ρ : Type} (room : Nat) (fields : Fields σ ρ) :
    fields.GiveSlots room fields.vacant := by
  induction fields with
  | done => trivial
  | field first rest ih =>
      constructor
      · intro a ha
        cases ha
      · exact ih

theorem giveSlots_of_fill {σ ρ : Type} {room : Nat} {key : String} {value : Tree}
    {fields : Fields σ ρ} {slots filled : σ} (hslots : fields.GiveSlots room slots)
    (h : fields.fill room key value slots = some (.ok filled)) :
    fields.GiveSlots room filled := by
  induction fields with
  | done => exact nomatch h
  | field first rest ih =>
      rcases slots with ⟨slot, slots⟩
      rcases hslots with ⟨hslot, hslots⟩
      unfold fill at h
      split at h
      · cases slot with
        | some a => cases h
        | none =>
            rcases map_eq_ok.mp (Option.some.inj h) with ⟨a, hread, rfl⟩
            constructor
            · intro b hb
              cases hb
              exact ⟨value, hread⟩
            · exact hslots
      · rcases Option.map_eq_some_iff.mp h with ⟨result, hfill, hresult⟩
        rcases map_eq_ok.mp hresult with ⟨others, rfl, rfl⟩
        exact ⟨hslot, ih hslots hfill⟩

theorem giveSlots_of_fillAll {σ ρ : Type} {room : Nat} {fields : Fields σ ρ}
    {entries : List (Tree × Tree)} {slots filled : σ} (hslots : fields.GiveSlots room slots)
    (h : fields.fillAll room entries slots = .ok filled) : fields.GiveSlots room filled := by
  induction entries generalizing slots with
  | nil =>
      cases h
      exact hslots
  | cons entry entries ih =>
      rcases bind_eq_ok.mp h with ⟨name, _, h⟩
      split at h
      · rename_i result hfill
        rcases bind_eq_ok.mp h with ⟨next, hnext, h⟩
        rw [hnext] at hfill
        exact ih (giveSlots_of_fill hslots hfill) h
      · rcases bind_eq_ok.mp h with ⟨_, _, h⟩
        exact ih hslots h

theorem give_of_complete {σ ρ : Type} {room : Nat} {fields : Fields σ ρ} {slots : σ} {record : ρ}
    (hslots : fields.GiveSlots room slots) (h : fields.complete slots = .ok record) :
    fields.Give room record := by
  induction fields with
  | done => trivial
  | field first rest ih =>
      rcases slots with ⟨slot, slots⟩
      rcases hslots with ⟨hslot, hslots⟩
      unfold complete at h
      split at h
      · cases h
      · rename_i a ha
        rcases map_eq_ok.mp h with ⟨others, hothers, rfl⟩
        constructor
        · cases slot with
          | none => exact .absent ha
          | some b =>
              cases ha
              exact .item (hslot _ rfl)
        · exact ih hslots hothers

theorem give_of_readItems {σ ρ : Type} {room : Nat} {wanted : String} {ending : Option Failure}
    {fields : Fields σ ρ} {items left : List Tree} {met : Nat} {record : ρ}
    (h : fields.readItems room wanted ending met items = .ok (record, left)) :
    fields.Give room record := by
  induction fields generalizing items left met with
  | done => trivial
  | field first rest ih =>
      cases items with
      | nil =>
          unfold readItems at h
          rcases bind_eq_ok.mp h with ⟨_, _, h⟩
          split at h
          · cases h
          · rename_i a hshort
            rcases bind_eq_ok.mp h with ⟨⟨others, left⟩, hothers, h⟩
            cases h
            exact ⟨.short hshort, ih hothers⟩
      | cons item items =>
          unfold readItems at h
          rcases bind_eq_ok.mp h with ⟨a, hread, h⟩
          rcases bind_eq_ok.mp h with ⟨⟨others, left⟩, hothers, h⟩
          cases h
          exact ⟨.item ⟨item, hread⟩, ih hothers⟩

theorem give_of_format {σ ρ : Type} {room : Nat} {title : String} {fields : Fields σ ρ}
    {record : ρ} (h : (fields.format title).Gives (room + 1) record) :
    fields.Give room record := by
  rcases h with ⟨t, h⟩
  cases t with
  | object entries ending =>
      rcases bind_eq_ok.mp h with ⟨slots, hslots, h⟩
      rcases bind_eq_ok.mp h with ⟨_, _, h⟩
      exact give_of_complete (giveSlots_of_fillAll (giveSlots_vacant room fields) hslots) h
  | array items ending =>
      rcases bind_eq_ok.mp h with ⟨⟨given, left⟩, hitems, h⟩
      have hrecord : given = record := by
        cases left with
        | cons item left => cases h
        | nil =>
            rcases bind_eq_ok.mp h with ⟨_, _, h⟩
            exact Except.ok.inj h
      rw [← hrecord]
      exact give_of_readItems hitems
  | _ => cases h

end Fields

end Json
end ButtonFlow
