import ButtonFlow.Json.Token

/-!
# The spellings of tokens

The language tells which characters spell a token, and that tokens are written one behind the
other with any blanks around them. A text that is written so is cut up into these tokens again,
if behind each numeral stands a token that can follow it in a document.
-/

namespace ButtonFlow
namespace Json

namespace Quoted

/-!
## Quoted texts
-/

inductive SpellsPiece : Piece → List Char → Prop where
  | plain {c : Char} (hquote : c ≠ '"') (hbackslash : c ≠ '\\') (hlow : 0x20 ≤ c.toNat) :
      SpellsPiece (.char c) [c]
  | short {e c : Char} (h : shortEscape? e = some c) : SpellsPiece (.char c) ['\\', e]
  | unit {w x y z : Char} {code : Nat} (h : unit? w x y z = some code) :
      SpellsPiece (.unit code) ['\\', 'u', w, x, y, z]

inductive Spells : List Piece → List Char → Prop where
  | close : Spells [] ['"']
  | piece {piece : Piece} {pieces : List Piece} {cs rest : List Char}
      (hpiece : SpellsPiece piece cs) (hrest : Spells pieces rest) :
      Spells (piece :: pieces) (cs ++ rest)

theorem scan_spellsPiece_append {piece : Piece} {cs : List Char} (h : SpellsPiece piece cs)
    (rest : List Char) : scan (cs ++ rest) = ((scan rest).1.cons piece, (scan rest).2) := by
  cases h with
  | plain hquote hbackslash hlow =>
      rw [List.singleton_append, scan.eq_def]
      simp only [if_neg hquote, if_neg hbackslash, if_neg (Nat.not_lt.mpr hlow)]
  | @short e c h =>
      have hu : e ≠ 'u' := by
        rintro rfl
        cases h
      rw [List.cons_append, List.singleton_append, scan.eq_def]
      simp [hu, h]
  | unit h =>
      rw [List.cons_append, scan.eq_def]
      simp [h]

theorem scan_spells_append {pieces : List Piece} {cs : List Char} (h : Spells pieces cs)
    (rest : List Char) : scan (cs ++ rest) = (⟨pieces, none⟩, rest) := by
  induction h with
  | close =>
      rw [List.singleton_append, scan.eq_def]
      rfl
  | piece hpiece _ ih =>
      rw [List.append_assoc, scan_spellsPiece_append hpiece, ih]
      rfl

end Quoted

namespace Numeral

/-!
## Numerals
-/

structure Digits (ds : List Char) : Prop where
  ne_nil : ds ≠ []
  digit : ∀ d ∈ ds, d.isDigit = true

/-- The digits in front of the point do not begin with a zero, unless it is the only one. -/
inductive Whole : List Char → Prop where
  | zero : Whole ['0']
  | positive {d : Char} {ds : List Char} (h : Digits (d :: ds)) (hd : d ≠ '0') : Whole (d :: ds)

inductive SpellsFraction : Option (List Char) → List Char → Prop where
  | none : SpellsFraction none []
  | some {ds : List Char} (h : Digits ds) : SpellsFraction (some ds) ('.' :: ds)

inductive SpellsSign : Bool → List Char → Prop where
  | none : SpellsSign false []
  | plus : SpellsSign false ['+']
  | minus : SpellsSign true ['-']

inductive SpellsExponent : Option (Bool × List Char) → List Char → Prop where
  | none : SpellsExponent none []
  | some {letter : Char} {negative : Bool} {sign ds : List Char}
      (hletter : letter = 'e' ∨ letter = 'E') (hsign : SpellsSign negative sign)
      (h : Digits ds) : SpellsExponent (some (negative, ds)) (letter :: (sign ++ ds))

inductive SpellsUnsigned : Numeral → List Char → Prop where
  | parts {negative : Bool} {whole : List Char} {fraction : Option (List Char)}
      {exponent : Option (Bool × List Char)} {behindPoint behindLetter : List Char}
      (hwhole : Whole whole) (hfraction : SpellsFraction fraction behindPoint)
      (hexponent : SpellsExponent exponent behindLetter) :
      SpellsUnsigned ⟨negative, whole, fraction, exponent⟩ (whole ++ (behindPoint ++ behindLetter))

inductive Spells : Numeral → List Char → Prop where
  | positive {n : Numeral} {cs : List Char} (hsign : n.negative = false)
      (h : SpellsUnsigned n cs) : Spells n cs
  | negative {n : Numeral} {cs : List Char} (hsign : n.negative = true)
      (h : SpellsUnsigned n cs) : Spells n ('-' :: cs)

/-!
What follows a numeral, or a part of it, must not begin with a character that goes on with it.
-/

def Stops (cs : List Char) : Prop :=
  ∀ c ∈ cs.head?, c.isDigit = false

def Passes (cs : List Char) : Prop :=
  ∀ c ∈ cs.head?, c.isDigit = false ∧ c ≠ '.'

/-- What can follow a numeral: nothing that begins it goes on with the numeral. -/
def Ends (cs : List Char) : Prop :=
  ∀ c ∈ cs.head?, c.isDigit = false ∧ c ≠ '.' ∧ c ≠ 'e' ∧ c ≠ 'E'

theorem ends_nil : Ends [] := by
  intro c hc
  cases hc

theorem ends_cons {c : Char} {cs : List Char}
    (h : c.isDigit = false ∧ c ≠ '.' ∧ c ≠ 'e' ∧ c ≠ 'E') : Ends (c :: cs) := by
  intro d hd
  cases hd
  exact h

theorem Passes.stops {cs : List Char} (h : Passes cs) : Stops cs :=
  fun c hc => (h c hc).1

theorem Ends.passes {cs : List Char} (h : Ends cs) : Passes cs :=
  fun c hc => ⟨(h c hc).1, (h c hc).2.1⟩

theorem passes_exponent_append {exponent : Option (Bool × List Char)} {cs rest : List Char}
    (h : SpellsExponent exponent cs) (hrest : Ends rest) : Passes (cs ++ rest) := by
  cases h with
  | none => exact hrest.passes
  | some hletter _ _ =>
      intro c hc
      cases hc
      rcases hletter with rfl | rfl
      · exact ⟨rfl, by decide⟩
      · exact ⟨rfl, by decide⟩

theorem stops_fraction_append {fraction : Option (List Char)} {cs rest : List Char}
    (h : SpellsFraction fraction cs) (hrest : Passes rest) : Stops (cs ++ rest) := by
  cases h with
  | none => exact hrest.stops
  | some _ =>
      intro c hc
      cases hc
      rfl

/-!
Each part of a numeral is cut off in front of whatever can follow it.
-/

theorem digits_of_stops {cs : List Char} (h : Stops cs) : digits cs = ([], cs) := by
  cases cs with
  | nil => rfl
  | cons c cs =>
      have hc := h c rfl
      simp [digits, hc]

theorem digits_append {ds cs : List Char} (hds : ∀ d ∈ ds, d.isDigit = true) (h : Stops cs) :
    digits (ds ++ cs) = (ds, cs) := by
  have hrest := digits_of_stops h
  unfold digits at hrest ⊢
  rw [List.takeWhile_append_of_pos hds, List.dropWhile_append_of_pos hds]
  rcases Prod.mk.inj hrest with ⟨htake, hdrop⟩
  rw [htake, hdrop, List.append_nil]

theorem scanWhole_append {whole rest : List Char} (h : Whole whole) (hrest : Stops rest) :
    scanWhole (whole ++ rest) = .ok (whole, rest) := by
  cases h with
  | zero =>
      have hempty : (digits rest).1 = [] := by
        rw [digits_of_stops hrest]
      simp [scanWhole, hempty]
  | positive h hd =>
      rcases List.forall_mem_cons.mp h.digit with ⟨hfirst, hlater⟩
      have hdigits := digits_append hlater hrest
      rw [List.cons_append]
      simp [scanWhole, hd, hfirst, hdigits]

theorem scanFraction_append {fraction : Option (List Char)} {cs rest : List Char}
    (h : SpellsFraction fraction cs) (hrest : Passes rest) :
    scanFraction (cs ++ rest) = .ok (fraction, rest) := by
  cases h with
  | none =>
      cases rest with
      | nil => rfl
      | cons c rest =>
          have hc := (hrest c rfl).2
          rw [List.nil_append]
          unfold scanFraction
          split
          · rename_i heq
            exact absurd (List.cons.inj heq).1 hc
          · rfl
  | some h =>
      have hdigits := digits_append h.digit hrest.stops
      have hsome := List.isEmpty_eq_false_iff.mpr h.ne_nil
      rw [List.cons_append, scanFraction, hdigits]
      simp [hsome]

theorem scanSign_append {negative : Bool} {sign ds : List Char} (h : SpellsSign negative sign)
    (hds : Digits ds) (rest : List Char) :
    scanSign (sign ++ (ds ++ rest)) = (negative, ds ++ rest) := by
  cases h with
  | none =>
      cases ds with
      | nil => exact absurd rfl hds.ne_nil
      | cons d ds =>
          have hd := hds.digit d List.mem_cons_self
          rw [List.nil_append, List.cons_append]
          unfold scanSign
          split
          · rename_i heq
            rw [(List.cons.inj heq).1] at hd
            cases hd
          · rename_i heq
            rw [(List.cons.inj heq).1] at hd
            cases hd
          · rfl
  | plus => rfl
  | minus => rfl

theorem scanExponent_append {exponent : Option (Bool × List Char)} {cs rest : List Char}
    (h : SpellsExponent exponent cs) (hrest : Ends rest) :
    scanExponent (cs ++ rest) = .ok (exponent, rest) := by
  cases h with
  | none =>
      cases rest with
      | nil => rfl
      | cons c rest =>
          have hc := (hrest c rfl).2.2
          simp [scanExponent, hc.1, hc.2]
  | @some letter negative sign ds hletter hsign h =>
      have hsign := scanSign_append hsign h rest
      have hdigits := digits_append h.digit hrest.passes.stops
      have hsome := List.isEmpty_eq_false_iff.mpr h.ne_nil
      rw [List.cons_append, List.append_assoc]
      unfold scanExponent
      simp only [hsign, hdigits, hsome]
      rcases hletter with rfl | rfl
      · rfl
      · rfl

theorem Whole.eq_cons {whole : List Char} (h : Whole whole) :
    ∃ d ds, whole = d :: ds ∧ d.isDigit = true := by
  cases h with
  | zero => exact ⟨'0', [], rfl, rfl⟩
  | positive h _ => exact ⟨_, _, rfl, h.digit _ List.mem_cons_self⟩

theorem SpellsUnsigned.ne_minus {n : Numeral} {cs : List Char} (h : SpellsUnsigned n cs)
    (rest others : List Char) : cs ++ rest ≠ '-' :: others := by
  cases h with
  | parts hwhole _ _ =>
      rcases hwhole.eq_cons with ⟨d, ds, rfl, hd⟩
      intro heq
      rw [(List.cons.inj heq).1] at hd
      cases hd

theorem SpellsUnsigned.scan_parts {n : Numeral} {cs rest : List Char} (h : SpellsUnsigned n cs)
    (hrest : Ends rest) :
    ∃ behindWhole behindPoint, scanWhole (cs ++ rest) = .ok (n.whole, behindWhole) ∧
      scanFraction behindWhole = .ok (n.fraction, behindPoint) ∧
      scanExponent behindPoint = .ok (n.exponent, rest) := by
  cases h with
  | parts hwhole hfraction hexponent =>
      have hpasses := passes_exponent_append hexponent hrest
      rw [List.append_assoc, List.append_assoc]
      exact ⟨_, _, scanWhole_append hwhole (stops_fraction_append hfraction hpasses),
        scanFraction_append hfraction hpasses, scanExponent_append hexponent hrest⟩

theorem scan_spells_append {n : Numeral} {cs rest : List Char} (h : Spells n cs)
    (hrest : Ends rest) : scan (cs ++ rest) = .ok (n, rest) := by
  cases h with
  | positive hsign h =>
      rcases h.scan_parts hrest with ⟨behindWhole, behindPoint, hwhole, hfraction, hexponent⟩
      unfold scan
      split
      rename_i negative cs heq
      split at heq
      case h_1 hcs => exact absurd hcs (h.ne_minus rest _)
      case h_2 =>
        cases heq
        simp [hwhole, hfraction, hexponent, ← hsign]
  | negative hsign h =>
      rcases h.scan_parts hrest with ⟨behindWhole, behindPoint, hwhole, hfraction, hexponent⟩
      rw [List.cons_append]
      simp [scan, hwhole, hfraction, hexponent, ← hsign]

theorem Spells.eq_cons {n : Numeral} {cs : List Char} (h : Spells n cs) :
    ∃ c others, cs = c :: others ∧ (c = '-' ∨ c.isDigit = true) := by
  cases h with
  | positive _ h =>
      cases h with
      | parts hwhole _ _ =>
          rcases hwhole.eq_cons with ⟨d, ds, rfl, hd⟩
          exact ⟨d, _, rfl, .inr hd⟩
  | negative _ _ => exact ⟨'-', _, rfl, .inl rfl⟩

end Numeral

namespace Token

/-!
## Tokens
-/

inductive Spells : Token → List Char → Prop where
  | mark {c : Char} {t : Token} (h : mark? c = some t) : Spells t [c]
  | word {c : Char} {letters : List Char} {t : Token} (h : word? c = some (t, letters)) :
      Spells t (c :: letters)
  | numeral {n : Numeral} {cs : List Char} (h : Numeral.Spells n cs) : Spells (.numeral n) cs
  | quoted {pieces : List Piece} {cs : List Char} (h : Quoted.Spells pieces cs) :
      Spells (.quoted ⟨pieces, none⟩) ('"' :: cs)

/-- The ways to write tokens behind each other, with blanks anywhere between them. -/
inductive Lays : List Token → List Char → Prop where
  | done : Lays [] []
  | blank {ts : List Token} {c : Char} {cs : List Char} (hc : isBlank c = true)
      (hrest : Lays ts cs) : Lays ts (c :: cs)
  | token {t : Token} {ts : List Token} {cs rest : List Char} (ht : Spells t cs)
      (hrest : Lays ts rest) : Lays (t :: ts) (cs ++ rest)

theorem Lays.append {ts others : List Token} {cs rest : List Char} (h : Lays ts cs)
    (hrest : Lays others rest) : Lays (ts ++ others) (cs ++ rest) := by
  induction h with
  | done => exact hrest
  | blank hc _ ih => exact .blank hc ih
  | token ht _ ih =>
      rw [List.append_assoc]
      exact .token ht ih

theorem lays_singleton {t : Token} {cs : List Char} (h : Spells t cs) : Lays [t] cs := by
  have hlays := Lays.token h .done
  rwa [List.append_nil] at hlays

theorem lays_blanks {cs : List Char} (h : ∀ c ∈ cs, isBlank c = true) : Lays [] cs := by
  induction cs with
  | nil => exact .done
  | cons c cs ih =>
      rcases List.forall_mem_cons.mp h with ⟨hc, hcs⟩
      exact .blank hc (ih hcs)

def closes : Token → Bool
  | .comma | .closeBracket | .closeBrace => true
  | _ => false

def Follows (ts : List Token) : Prop :=
  ∀ t ∈ ts.head?, t.closes = true

/-- Behind every numeral stands what can follow it. -/
inductive Apart : List Token → Prop where
  | nil : Apart []
  | cons {t : Token} {ts : List Token} (hnumeral : ∀ n, t = .numeral n → Follows ts)
      (hrest : Apart ts) : Apart (t :: ts)

/-!
A text in which tokens are laid out is cut up into them.
-/

theorem mem_of_mark? {c : Char} {t : Token} (h : mark? c = some t) :
    c ∈ ['[', ']', '{', '}', ',', ':'] := by
  apply Decidable.byContradiction
  intro hc
  simp only [List.mem_cons, List.not_mem_nil, not_or] at hc
  simp [mark?, hc] at h

theorem mem_of_word? {c : Char} {t : Token} {letters : List Char}
    (h : word? c = some (t, letters)) : c ∈ ['n', 't', 'f'] := by
  apply Decidable.byContradiction
  intro hc
  simp only [List.mem_cons, List.not_mem_nil, not_or] at hc
  simp [word?, hc] at h

theorem scanWord_append (letters rest : List Char) :
    scanWord letters (letters ++ rest) = .ok rest := by
  induction letters with
  | nil => cases rest <;> rfl
  | cons c letters ih =>
      rw [List.cons_append, scanWord, if_pos rfl]
      exact ih

theorem first_of_numeral {c : Char} (h : c = '-' ∨ c.isDigit = true) :
    isBlank c = false ∧ mark? c = none ∧ c ≠ '"' := by
  have hother : ∀ d : Char, d ≠ '-' → d.isDigit = false → c ≠ d := by
    rintro d hminus hdigit rfl
    rcases h with rfl | hc
    · exact hminus rfl
    · rw [hdigit] at hc
      cases hc
  refine ⟨?_, ?_, hother '"' (by decide) rfl⟩
  · simp [isBlank, hother ' ' (by decide) rfl, hother '\t' (by decide) rfl,
      hother '\n' (by decide) rfl, hother '\r' (by decide) rfl]
  · simp [mark?, hother '[' (by decide) rfl, hother ']' (by decide) rfl,
      hother '{' (by decide) rfl, hother '}' (by decide) rfl, hother ',' (by decide) rfl,
      hother ':' (by decide) rfl]

theorem Spells.scan {t : Token} {cs rest : List Char} (h : Spells t cs)
    (hnumeral : ∀ n, t = .numeral n → Numeral.Ends rest) :
    ∃ c others, cs = c :: others ∧ isBlank c = false ∧
      Token.scan c (others ++ rest) = (t, rest) := by
  -- One case for each sort of token.
  cases h with
  | @mark c _ h =>
      have hblank : ∀ d ∈ ['[', ']', '{', '}', ',', ':'], isBlank d = false := by
        simp [isBlank]
      refine ⟨c, [], rfl, hblank c (mem_of_mark? h), ?_⟩
      rw [Token.scan, h]
      rfl
  | @word c letters _ h =>
      have hfirst : ∀ d ∈ ['n', 't', 'f'],
          isBlank d = false ∧ mark? d = none ∧ d ≠ '"' ∧ (d = '-' || d.isDigit) = false := by
        simp [isBlank, mark?, Char.isDigit]
      rcases hfirst c (mem_of_word? h) with ⟨hblank, hmark, hquote, hother⟩
      refine ⟨c, letters, rfl, hblank, ?_⟩
      rw [Token.scan, hmark, h, hother]
      simp only [if_neg hquote, scanWord_append]
      rfl
  | numeral h =>
      have hscan := Numeral.scan_spells_append h (hnumeral _ rfl)
      rcases h.eq_cons with ⟨c, others, rfl, hc⟩
      rcases first_of_numeral hc with ⟨hblank, hmark, hquote⟩
      refine ⟨c, others, rfl, hblank, ?_⟩
      rw [List.cons_append] at hscan
      rw [Token.scan, hmark]
      dsimp only
      rw [if_neg hquote, if_pos (by simpa using hc), hscan]
  | quoted h =>
      have hmark : mark? '"' = none := by decide
      refine ⟨'"', _, rfl, by decide, ?_⟩
      rw [Token.scan, hmark]
      dsimp only
      rw [if_pos rfl, Quoted.scan_spells_append h rest]

theorem Spells.of_closes {t : Token} {cs : List Char} (h : Spells t cs) (ht : t.closes = true) :
    ∃ c ∈ [',', ']', '}'], cs = [c] := by
  cases h with
  | @mark c _ h =>
      have hmarks : ∀ d ∈ ['[', ']', '{', '}', ',', ':'],
          (mark? d).any closes = true → d ∈ [',', ']', '}'] := by
        simp [mark?, closes]
      refine ⟨c, hmarks c (mem_of_mark? h) ?_, rfl⟩
      rw [h]
      exact ht
  | @word c _ _ h =>
      have hwords : ∀ d ∈ ['n', 't', 'f'], (word? d).any (fun word => word.1.closes) = false := by
        simp [word?, closes]
      have hword := hwords c (mem_of_word? h)
      rw [h] at hword
      exact absurd ht (ne_true_of_eq_false hword)
  | numeral _ => cases ht
  | quoted _ => cases ht

theorem ends_of_lays {ts : List Token} {cs : List Char} (h : Lays ts cs) (hts : Follows ts) :
    Numeral.Ends cs := by
  cases h with
  | done => exact Numeral.ends_nil
  | @blank _ c cs hc _ =>
      apply Numeral.ends_cons
      simp only [isBlank, Bool.or_eq_true, decide_eq_true_eq] at hc
      rcases hc with ((rfl | rfl) | rfl) | rfl
      · decide
      · decide
      · decide
      · decide
  | token ht _ =>
      rcases ht.of_closes (hts _ rfl) with ⟨c, hc, rfl⟩
      have hmarks : ∀ d ∈ [',', ']', '}'], d.isDigit = false ∧ d ≠ '.' ∧ d ≠ 'e' ∧ d ≠ 'E' := by
        simp [Char.isDigit]
      exact Numeral.ends_cons (hmarks c hc)

theorem listUpTo_of_lays {ts : List Token} {cs : List Char} (h : Lays ts cs) (hapart : Apart ts)
    {fuel : Nat} (hfuel : cs.length ≤ fuel) : listUpTo fuel cs = ts := by
  induction h generalizing fuel with
  | done =>
      cases fuel with
      | zero => rfl
      | succ fuel => rfl
  | blank hc _ ih =>
      cases fuel with
      | zero => exact absurd hfuel (Nat.not_succ_le_zero _)
      | succ fuel =>
          rw [listUpTo, if_pos hc]
          exact ih hapart (Nat.le_of_succ_le_succ hfuel)
  | token ht hrest ih =>
      cases hapart with
      | cons hnumeral hapart =>
          have hends := fun n hn => ends_of_lays hrest (hnumeral n hn)
          rcases ht.scan hends with ⟨c, others, rfl, hblank, hscan⟩
          cases fuel with
          | zero => exact absurd hfuel (Nat.not_succ_le_zero _)
          | succ fuel =>
              rw [List.cons_append, List.length_cons, List.length_append] at hfuel
              rw [List.cons_append, listUpTo, if_neg (ne_true_of_eq_false hblank), hscan]
              dsimp only
              rw [ih hapart (by omega)]

/-- A layout is cut up into its tokens. -/
theorem list_of_lays {ts : List Token} {cs : List Char} (h : Lays ts cs) (hapart : Apart ts) :
    list cs = ts :=
  listUpTo_of_lays h hapart (Nat.le_refl _)

end Token
end Json
end ButtonFlow
