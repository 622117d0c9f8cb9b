import ButtonFlow.Proofs.Json.Grammar

/-!
# The spelling of written texts and integers

What is written for a text is a spelling that names the text, and what is written for an
integer spells a numeral that has the value of the integer.
-/

namespace ButtonFlow
namespace Json

namespace Quoted

/-!
## Quoted texts

A control character without a short escape is spelled by its unit, and every other character is
read as itself, whether it is escaped or not.
-/

def isWrittenAsUnit (c : Char) : Bool :=
  c.toNat < 0x20 && c ≠ '\x08' && c ≠ '\t' && c ≠ '\n' && c ≠ '\x0c' && c ≠ '\r'

def pieceOf (c : Char) : Piece :=
  if isWrittenAsUnit c then .unit c.toNat else .char c

def spelled (s : String) : Quoted := ⟨s.toList.map pieceOf, none⟩

theorem hexValue?_digitChar {n : Nat} (h : n < 16) :
    hexValue? (Nat.digitChar n) = some n := by
  have hall : ∀ m : Fin 16, hexValue? (Nat.digitChar m.val) = some m.val := by
    decide
  exact hall ⟨n, h⟩

theorem unit?_digitChars {n : Nat} (h : n < 0x20) :
    unit? '0' '0' (Nat.digitChar (n / 16)) (Nat.digitChar (n % 16)) = some n := by
  have hzero : hexValue? '0' = some 0 := hexValue?_digitChar (n := 0) (by omega)
  have hhigh : hexValue? (Nat.digitChar (n / 16)) = some (n / 16) :=
    hexValue?_digitChar (by omega)
  have hlow : hexValue? (Nat.digitChar (n % 16)) = some (n % 16) :=
    hexValue?_digitChar (by omega)
  unfold unit?
  rw [hzero, hhigh, hlow]
  have hvalue : ((0 * 16 + 0) * 16 + n / 16) * 16 + n % 16 = n := by
    omega
  exact congrArg some hvalue

theorem spellsPiece_escape (c : Char) : SpellsPiece (pieceOf c) (escape c) := by
  by_cases hquote : c = '"'
  · subst hquote
    exact .short (by decide)
  by_cases hbackslash : c = '\\'
  · subst hbackslash
    exact .short (by decide)
  by_cases hb : c = '\x08'
  · subst hb
    exact .short (by decide)
  by_cases ht : c = '\t'
  · subst ht
    exact .short (by decide)
  by_cases hn : c = '\n'
  · subst hn
    exact .short (by decide)
  by_cases hf : c = '\x0c'
  · subst hf
    exact .short (by decide)
  by_cases hr : c = '\r'
  · subst hr
    exact .short (by decide)
  by_cases hlt : c.toNat < 0x20
  · have hpiece : pieceOf c = .unit c.toNat := by
      simp [pieceOf, isWrittenAsUnit, hlt, hb, ht, hn, hf, hr]
    simp only [escape, hquote, hbackslash, hb, ht, hn, hf, hr, hlt, if_true, if_false]
    rw [hpiece]
    exact .unit (unit?_digitChars hlt)
  · have hpiece : pieceOf c = .char c := by
      simp [pieceOf, isWrittenAsUnit, hlt]
    simp only [escape, hquote, hbackslash, hb, ht, hn, hf, hr, hlt, if_false]
    rw [hpiece]
    exact .plain hquote hbackslash (Nat.not_lt.mp hlt)

theorem scan_escape_append (c : Char) (rest : List Char) :
    scan (escape c ++ rest) = ((scan rest).1.cons (pieceOf c), (scan rest).2) :=
  scan_spellsPiece_append (spellsPiece_escape c) rest

theorem spells_flatMap_escape (cs : List Char) :
    Spells (cs.map pieceOf) (cs.flatMap escape ++ ['"']) := by
  induction cs with
  | nil => exact .close
  | cons c cs ih =>
      rw [List.flatMap_cons, List.append_assoc]
      exact .piece (spellsPiece_escape c) ih

theorem spells_written (s : String) :
    Spells (spelled s).pieces (s.toList.flatMap escape ++ ['"']) :=
  spells_flatMap_escape s.toList

theorem readPieces_pieceOf (c : Char) (pieces : List Piece) :
    readPieces none (pieceOf c :: pieces) = (readPieces none pieces).map (c :: ·) := by
  by_cases hunit : isWrittenAsUnit c = true
  · have hlt : c.toNat < 0x20 := by
      simp only [isWrittenAsUnit, Bool.and_eq_true, decide_eq_true_eq] at hunit
      exact hunit.1.1.1.1.1
    have hleading : isLeading c.toNat = false := by
      simp only [isLeading, Bool.and_eq_false_iff, decide_eq_false_iff_not]
      omega
    have htrailing : isTrailing c.toNat = false := by
      simp only [isTrailing, Bool.and_eq_false_iff, decide_eq_false_iff_not]
      omega
    rw [readPieces.eq_def]
    simp [pieceOf, hunit, hleading, htrailing]
  · simp [pieceOf, hunit, readPieces]

theorem read_spelled (s : String) : (spelled s).read = .ok s := by
  have hpieces : ∀ cs : List Char, readPieces none (cs.map pieceOf) = .ok cs := by
    intro cs
    induction cs with
    | nil => rfl
    | cons c cs ih =>
        rw [List.map_cons, readPieces_pieceOf, ih]
        rfl
  change (readPieces none (s.toList.map pieceOf)).map String.ofList = .ok s
  rw [hpieces]
  exact congrArg Except.ok String.ofList_toList

end Quoted

namespace Numeral

/-!
## Integers
-/

def ofInteger (i : Int) : Numeral := ⟨decide (i < 0), Nat.toDigits 10 i.natAbs, none, none⟩

theorem toDigits_of_pos (n : Nat) (hn : 0 < n) :
    ∃ c cs, Nat.toDigits 10 n = c :: cs ∧ c ≠ '0' := by
  induction n using Nat.strongRecOn with
  | ind n ih =>
      by_cases hlt : n < 10
      · refine ⟨Nat.digitChar n, [], Nat.toDigits_of_lt_base hlt, ?_⟩
        have hall : ∀ m : Fin 10, 0 < m.val → Nat.digitChar m.val ≠ '0' := by
          decide
        exact hall ⟨n, hlt⟩ hn
      · rcases ih (n / 10) (by omega) (by omega) with ⟨c, cs, hcs, hc⟩
        refine ⟨c, cs ++ [Nat.digitChar (n % 10)], ?_, hc⟩
        rw [Nat.toDigits_of_base_le (by omega) (by omega), hcs]
        rfl

theorem isDigit_of_mem_digits {n : Nat} {c : Char} (hc : c ∈ Nat.toDigits 10 n) :
    c.isDigit = true :=
  Nat.isDigit_of_mem_toDigits (by omega) (by omega) hc

theorem digits_toDigits (n : Nat) : Digits (Nat.toDigits 10 n) where
  ne_nil := Nat.toDigits_ne_nil
  digit _ hd := isDigit_of_mem_digits hd

theorem whole_toDigits (n : Nat) : Whole (Nat.toDigits 10 n) := by
  have hdigits := digits_toDigits n
  cases n with
  | zero => exact .zero
  | succ n =>
      rcases toDigits_of_pos (n + 1) (Nat.succ_pos n) with ⟨c, cs, hcs, hc⟩
      rw [hcs] at hdigits ⊢
      exact .positive hdigits hc

theorem spells_ofInteger (i : Int) : Spells (ofInteger i) (Number.integerText i).toList := by
  have hunsigned : SpellsUnsigned (ofInteger i) (Nat.toDigits 10 i.natAbs ++ ([] ++ [])) :=
    .parts (whole_toDigits i.natAbs) .none .none
  rw [List.append_nil, List.append_nil] at hunsigned
  unfold Number.integerText
  rw [String.toList_ofList]
  by_cases hneg : i < 0
  · rw [if_pos hneg]
    exact .negative (decide_eq_true hneg) hunsigned
  · rw [if_neg hneg]
    exact .positive (decide_eq_false hneg) hunsigned

theorem read_ofInteger {i : Int} (h : Number.inRange i = true) :
    (ofInteger i).read = .ok (.integer i) := by
  unfold ofInteger read
  simp only [Nat.ofDigitChars_ten_toDigits]
  by_cases hneg : i < 0
  · have habs : -(i.natAbs : Int) = i := by omega
    have hne : ¬ (i.natAbs : Int) = 0 := by omega
    rw [if_pos (decide_eq_true hneg), habs, h, decide_eq_false hne, if_neg (by decide)]
  · have habs : (i.natAbs : Int) = i := by omega
    rw [if_neg (ne_true_of_eq_false (decide_eq_false hneg)), habs, if_pos h]

end Numeral

end Json
end ButtonFlow
