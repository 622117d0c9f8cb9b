import ButtonFlow.Proofs.Dict
import Mathlib.Algebra.Ring.Nat
import Mathlib.Data.List.Lex

/-!
# The order of texts and of their bytes

Texts are ordered by their code points, and UTF-8 keeps this order: of two different characters
the smaller one has the smaller byte where their bytes first differ.
-/

namespace ButtonFlow

namespace Text

/-!
## The bytes of a text
-/

theorem toList_loop (bytes : ByteArray) (i : Nat) (front : List UInt8) :
    ByteArray.toList.loop bytes i front = front.reverse ++ bytes.data.toList.drop i := by
  fun_induction ByteArray.toList.loop bytes i front with
  | case1 i front hi ih =>
      have hlength : i < bytes.data.toList.length := hi
      rw [ih, List.drop_eq_getElem_cons hlength]
      simp [ByteArray.get!, hi]
  | case2 i front hi =>
      have hlength : bytes.data.toList.length ≤ i := Nat.le_of_not_lt hi
      rw [List.drop_eq_nil_of_le hlength, List.append_nil]

theorem toList_toUTF8 (text : String) :
    text.toUTF8.toList = text.toList.flatMap String.utf8EncodeChar := by
  have hbytes : text.toUTF8 = (text.toList.flatMap String.utf8EncodeChar).toByteArray :=
    String.utf8Encode_toList.symm
  rw [hbytes, ByteArray.toList, toList_loop, List.reverse_nil, List.nil_append, List.drop_zero,
    List.toList_data_toByteArray]

/-!
## The bytes of a character

The first byte tells how many bytes are behind it. More bytes belong to larger characters and
to larger first bytes, so that only characters of equally many bytes need a closer look.
-/

def laterBytes : Nat → Nat → List UInt8
  | 0, _ => []
  | count + 1, n => UInt8.ofNat (n / 64 ^ count % 64 + 128) :: laterBytes count n

/-- How a code point is written: its first byte, and the number of bytes behind it. -/
inductive Lead (n : Nat) : Nat → Nat → Prop where
  | one (hhigh : n < 128) : Lead n n 0
  | two (hlow : 128 ≤ n) (hhigh : n < 2048) : Lead n (n / 64 + 192) 1
  | three (hlow : 2048 ≤ n) (hhigh : n < 65536) : Lead n (n / 4096 + 224) 2
  | four (hlow : 65536 ≤ n) (hhigh : n < 1114112) : Lead n (n / 262144 + 240) 3

theorem exists_lead (c : Char) :
    ∃ lead count, Lead c.val.toNat lead count ∧
      String.utf8EncodeChar c = UInt8.ofNat lead :: laterBytes count c.val.toNat := by
  have hmax : c.val.toNat < 1114112 := by
    rcases c.valid with hlow | ⟨_, hhigh⟩
    · exact Nat.lt_trans hlow (by decide)
    · exact hhigh
  unfold String.utf8EncodeChar
  dsimp only
  generalize c.val.toNat = n at hmax
  split
  · exact ⟨_, _, .one (by omega), rfl⟩
  · split
    · refine ⟨_, _, .two (by omega) (by omega), ?_⟩
      rw [Nat.mod_eq_of_lt (by omega : n / 64 < 32)]
      simp [laterBytes]
    · split
      · refine ⟨_, _, .three (by omega) (by omega), ?_⟩
        rw [Nat.mod_eq_of_lt (by omega : n / 4096 < 16)]
        simp [laterBytes]
      · refine ⟨_, _, .four (by omega) (by omega), ?_⟩
        rw [Nat.mod_eq_of_lt (by omega : n / 262144 < 8)]
        simp [laterBytes]

/-- The smaller code point has the smaller first byte, or the same first byte and less in the
bytes behind it. -/
theorem Lead.lt_or_eq {m n lead lead' count count' : Nat} (hlt : m < n) (h : Lead m lead count)
    (h' : Lead n lead' count') :
    lead' < 256 ∧
      (lead < lead' ∨ lead = lead' ∧ count = count' ∧ m % 64 ^ count < n % 64 ^ count) := by
  cases h with
  | one hhigh => cases h' <;> omega
  | two hlow hhigh => cases h' <;> omega
  | three hlow hhigh => cases h' <;> omega
  | four hlow hhigh => cases h' <;> omega

/-!
## Comparing bytes
-/

theorem ofNat_cons_lt {x y : Nat} (hy : y < 256) {s t : List UInt8}
    (h : x < y ∨ x = y ∧ s < t) : UInt8.ofNat x :: s < UInt8.ofNat y :: t := by
  apply List.cons_lt_cons_iff.mpr
  rcases h with hlt | ⟨rfl, hrest⟩
  · left
    rw [UInt8.lt_iff_toNat_lt, UInt8.toNat_ofNat', UInt8.toNat_ofNat']
    omega
  · exact Or.inr ⟨rfl, hrest⟩

theorem laterBytes_append_lt {count m n : Nat} (h : m % 64 ^ count < n % 64 ^ count)
    (s t : List UInt8) : laterBytes count m ++ s < laterBytes count n ++ t := by
  induction count with
  | zero => omega
  | succ count ih =>
      have hm := Nat.mod_mul (x := m) (a := 64 ^ count) (b := 64)
      have hn := Nat.mod_mul (x := n) (a := 64 ^ count) (b := 64)
      rw [← Nat.pow_succ] at hm hn
      rw [hm, hn] at h
      apply ofNat_cons_lt (by omega)
      rcases Nat.lt_trichotomy (m / 64 ^ count % 64) (n / 64 ^ count % 64) with hlt | heq | hgt
      · exact .inl (by omega)
      · refine .inr ⟨by omega, ih ?_⟩
        rw [heq] at h
        omega
      · -- A larger digit outweighs all digits behind it.
        have hdigit := Nat.mul_le_mul_left (64 ^ count) hgt
        have hrest := Nat.mod_lt n (Nat.pow_pos (n := count) (by decide : 0 < 64))
        rw [Nat.mul_succ] at hdigit
        omega

theorem utf8EncodeChar_append_lt {c d : Char} (h : c < d) (s t : List UInt8) :
    String.utf8EncodeChar c ++ s < String.utf8EncodeChar d ++ t := by
  rcases exists_lead c with ⟨lead, count, hlead, hc⟩
  rcases exists_lead d with ⟨lead', count', hlead', hd⟩
  rw [hc, hd]
  rcases hlead.lt_or_eq h hlead' with ⟨hbyte, hlt | ⟨rfl, rfl, hlater⟩⟩
  · exact ofNat_cons_lt hbyte (.inl hlt)
  · exact ofNat_cons_lt hbyte (.inr ⟨rfl, laterBytes_append_lt hlater s t⟩)

theorem flatMap_utf8EncodeChar_lt {cs ds : List Char} (h : cs < ds) :
    cs.flatMap String.utf8EncodeChar < ds.flatMap String.utf8EncodeChar := by
  induction h with
  | nil =>
      rename_i d ds
      rcases exists_lead d with ⟨lead, count, _, hd⟩
      rw [List.flatMap_nil, List.flatMap_cons, hd]
      exact List.nil_lt_cons _ _
  | rel hlt =>
      rw [List.flatMap_cons, List.flatMap_cons]
      exact utf8EncodeChar_append_lt hlt _ _
  | cons _ ih =>
      rw [List.flatMap_cons, List.flatMap_cons]
      exact List.append_left_lt ih

/-- A text is smaller than another exactly if its bytes are. -/
theorem toUTF8_lt_iff {s t : String} : s.toUTF8.toList < t.toUTF8.toList ↔ s < t := by
  rw [toList_toUTF8, toList_toUTF8]
  constructor
  · intro h
    apply Decidable.byContradiction
    intro hnot
    by_cases heq : s = t
    · rw [heq] at h
      exact List.lt_irrefl _ h
    · have hgt : t < s := Dict.lt_of_not_lt_of_ne hnot heq
      exact List.lt_asymm h (flatMap_utf8EncodeChar_lt hgt)
  · exact flatMap_utf8EncodeChar_lt

end Text

end ButtonFlow
