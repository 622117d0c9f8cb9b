import ButtonFlow.Cli.Screen
import ButtonFlow.Proofs.Text.ByteOrder

/-!
# Answers in the input

If the input is a text, its lines are the answers, one each, without the line feed or the
carriage return and line feed that ends them. No line is lost, and a carriage return anywhere
else belongs to its answer.
-/

namespace ButtonFlow

namespace Cli

/-!
## The lines of a text
-/

/-- The lines of a text, without what ends them. A text that ends with a line feed has no
further line behind it. -/
def linesOf : List Char → List (List Char)
  | [] => []
  | '\n' :: rest => [] :: linesOf rest
  | '\r' :: '\n' :: rest => [] :: linesOf rest
  | c :: rest =>
      match linesOf rest with
      | [] => [[c]]
      | line :: lines => (c :: line) :: lines

def lines (text : String) : List String :=
  (linesOf text.toList).map String.ofList

/-!
## The bytes of characters
-/

def bytesOf (cs : List Char) : List UInt8 :=
  cs.flatMap String.utf8EncodeChar

theorem toNat_of_mem_utf8EncodeChar {c : Char} {b : UInt8} (h : b ∈ String.utf8EncodeChar c)
    (hb : b.toNat < 128) : c.toNat = b.toNat := by
  change c.val.toNat = b.toNat
  unfold String.utf8EncodeChar at h
  dsimp only at h
  split at h
  · rename_i hascii
    rw [List.mem_singleton.mp h, UInt8.toNat_ofNat']
    exact (Nat.mod_eq_of_lt (by omega)).symm
  · -- Every byte of a longer character is at least 128.
    exfalso
    split at h
    · simp only [List.mem_cons, List.not_mem_nil, or_false] at h
      rcases h with rfl | rfl <;> simp at hb <;> omega
    · split at h
      · simp only [List.mem_cons, List.not_mem_nil, or_false] at h
        rcases h with rfl | rfl | rfl <;> simp at hb <;> omega
      · simp only [List.mem_cons, List.not_mem_nil, or_false] at h
        rcases h with rfl | rfl | rfl | rfl <;> simp at hb <;> omega

theorem toList_utf8 (text : String) : text.toUTF8.toList = bytesOf text.toList :=
  Text.toList_toUTF8 text

theorem fromUTF8?_bytesOf (cs : List Char) :
    String.fromUTF8? ⟨(bytesOf cs).toArray⟩ = some (String.ofList cs) := by
  have hbytes : (⟨(bytesOf cs).toArray⟩ : ByteArray) = cs.utf8Encode := by
    apply ByteArray.ext
    rw [← Array.toList_inj, List.utf8Encode, List.toList_data_toByteArray]
    rfl
  rw [hbytes, String.fromUTF8?, dif_pos ByteArray.isValidUTF8_utf8Encode]
  rfl

/-!
## The lines of the bytes
-/

def before (front : List UInt8) : List (List UInt8) → List (List UInt8)
  | [] => [front]
  | line :: lines => (front ++ line) :: lines

theorem inputLines_append {front : List UInt8} (hne : front ≠ [])
    (hfeed : ∀ b ∈ front, b ≠ 10) (rest : List UInt8) :
    inputLines (front ++ rest) = before front (inputLines rest) := by
  induction front with
  | nil => exact absurd rfl hne
  | cons b front ih =>
      rcases List.forall_mem_cons.mp hfeed with ⟨hb, hfront⟩
      rw [List.cons_append, inputLines, if_neg hb]
      cases front with
      | nil =>
          rw [List.nil_append]
          cases inputLines rest <;> rfl
      | cons c front =>
          rw [ih (List.cons_ne_nil _ _) hfront]
          cases inputLines rest <;> rfl

theorem ne_nil_of_mem_inputLines {bytes line : List UInt8} (h : line ∈ inputLines bytes) :
    line ≠ [] := by
  induction bytes generalizing line with
  | nil => cases h
  | cons b rest ih =>
      unfold inputLines at h
      split at h
      · rcases List.mem_cons.mp h with rfl | h
        · exact List.cons_ne_nil _ _
        · exact ih h
      · split at h
        · rw [List.mem_singleton.mp h]
          exact List.cons_ne_nil _ _
        · rename_i other lines hlines
          rw [hlines] at ih
          rcases List.mem_cons.mp h with rfl | h
          · exact List.cons_ne_nil _ _
          · exact ih (List.mem_cons_of_mem _ h)

theorem withoutEnd_append {front line : List UInt8} (hne : line ≠ [])
    (hreturn : line = [10] → ∀ b ∈ front, b ≠ 13) :
    withoutEnd (front ++ line) = front ++ withoutEnd line := by
  have hlast : line.reverse ≠ [] := fun h => hne (List.reverse_eq_nil_iff.mp h)
  have hline := List.reverse_reverse line
  unfold withoutEnd
  rw [List.reverse_append]
  generalize line.reverse = ending at hlast hline ⊢
  subst hline
  match ending with
  | [] => exact absurd rfl hlast
  | [b] =>
      by_cases hb : b = 10
      · subst hb
        have hfront : ∀ b ∈ front.reverse, b ≠ 13 :=
          fun b hb => hreturn rfl b (List.mem_reverse.mp hb)
        have hreverse := List.reverse_reverse front
        generalize front.reverse = back at hfront hreverse ⊢
        subst hreverse
        cases back with
        | nil => rfl
        | cons c back =>
            have hc : c ≠ 13 := (List.forall_mem_cons.mp hfront).1
            simp [hc]
      · simp [hb]
  | b :: c :: ending =>
      by_cases hb : b = 10
      · subst hb
        by_cases hc : c = 13
        · subst hc
          simp
        · simp [hc]
      · simp [hb]

theorem withoutEnd_of_forall_ne {line : List UInt8} (h : ∀ b ∈ line, b ≠ 10) :
    withoutEnd line = line := by
  have hback : ∀ b ∈ line.reverse, b ≠ 10 := fun b hb => h b (List.mem_reverse.mp hb)
  unfold withoutEnd
  generalize line.reverse = back at hback
  cases back with
  | nil => rfl
  | cons b back =>
      have hb : b ≠ 10 := (List.forall_mem_cons.mp hback).1
      simp [hb]

theorem ne_of_mem_utf8EncodeChar {c : Char} {b : UInt8} (hc : c ≠ '\n')
    (hb : b ∈ String.utf8EncodeChar c) : b ≠ 10 := by
  rintro rfl
  exact hc (Char.toNat_inj.mp (toNat_of_mem_utf8EncodeChar hb (by decide)))

theorem exists_of_inputLines_bytesOf {cs : List Char} {lines : List (List UInt8)}
    (h : inputLines (bytesOf cs) = [10] :: lines) : ∃ rest, cs = '\n' :: rest := by
  cases cs with
  | nil => cases h
  | cons c rest =>
      by_cases hc : c = '\n'
      · exact ⟨rest, by rw [hc]⟩
      · have hfeed : ∀ b ∈ String.utf8EncodeChar c, b ≠ 10 := fun _ => ne_of_mem_utf8EncodeChar hc
        change inputLines (String.utf8EncodeChar c ++ bytesOf rest) = _ at h
        rw [inputLines_append String.utf8EncodeChar_ne_nil hfeed] at h
        have hne := String.utf8EncodeChar_ne_nil (c := c)
        generalize String.utf8EncodeChar c = front at h hfeed hne
        cases front with
        | nil => exact absurd rfl hne
        | cons b front =>
            have hb : b = 10 := by
              cases hlines : inputLines (bytesOf rest) with
              | nil =>
                  rw [hlines] at h
                  exact (List.cons.inj (List.cons.inj h).1).1
              | cons line lines =>
                  rw [hlines] at h
                  exact (List.cons.inj (List.cons.inj h).1).1
            exact absurd hb (hfeed b List.mem_cons_self)

theorem withoutEnd_inputLines_cons {c : Char} {rest : List Char} (hfeed : c ≠ '\n')
    (hreturn : ∀ later, c = '\r' → rest ≠ '\n' :: later) :
    (inputLines (bytesOf (c :: rest))).map withoutEnd =
      before (String.utf8EncodeChar c) ((inputLines (bytesOf rest)).map withoutEnd) := by
  have hfront : ∀ b ∈ String.utf8EncodeChar c, b ≠ 10 := fun _ => ne_of_mem_utf8EncodeChar hfeed
  change (inputLines (String.utf8EncodeChar c ++ bytesOf rest)).map withoutEnd = _
  rw [inputLines_append String.utf8EncodeChar_ne_nil hfront]
  cases hlines : inputLines (bytesOf rest) with
  | nil => exact congrArg (· :: []) (withoutEnd_of_forall_ne hfront)
  | cons line lines =>
      have hne : line ≠ [] := ne_nil_of_mem_inputLines (hlines ▸ List.mem_cons_self)
      apply congrArg (· :: lines.map withoutEnd)
      apply withoutEnd_append hne
      rintro rfl b hb rfl
      rcases exists_of_inputLines_bytesOf hlines with ⟨later, hrest⟩
      exact hreturn later (Char.toNat_inj.mp (toNat_of_mem_utf8EncodeChar hb (by decide))) hrest

theorem withoutEnd_inputLines (cs : List Char) :
    (inputLines (bytesOf cs)).map withoutEnd = (linesOf cs).map bytesOf := by
  fun_induction linesOf cs with
  | case1 => rfl
  | case2 rest ih => exact congrArg (List.cons []) ih
  | case3 rest ih => exact congrArg (List.cons []) ih
  | case4 c rest hfeed hreturn hlines ih =>
      rw [withoutEnd_inputLines_cons hfeed hreturn, ih, hlines]
      exact congrArg (· :: []) (List.append_nil _).symm
  | case5 c rest hfeed hreturn line lines hlines ih =>
      rw [withoutEnd_inputLines_cons hfeed hreturn, ih, hlines]
      rfl

/-- The answers in a text are its lines. -/
theorem answersOf_toUTF8 (text : String) : answersOf text.toUTF8 = lines text := by
  have hanswers : (inputLines (bytesOf text.toList)).map answer? = (lines text).map some := by
    have hdecode : answer? = (fun line => String.fromUTF8? ⟨line.toArray⟩) ∘ withoutEnd := rfl
    rw [hdecode, ← List.map_map, withoutEnd_inputLines, List.map_map, lines, List.map_map]
    exact List.map_congr_left fun cs _ => fromUTF8?_bytesOf cs
  have hall : ((lines text).map some).takeWhile Option.isSome = (lines text).map some := by
    induction lines text with
    | nil => rfl
    | cons line lines ih => exact congrArg (List.cons (some line)) ih
  rw [answersOf, toList_utf8, hanswers, hall]
  simp

example : lines "Ada\x0d\n\nBob\x0d" = ["Ada", "", "Bob\x0d"] := by decide +kernel

end Cli

end ButtonFlow
