import ButtonFlow.Json.Format
import ButtonFlow.Proofs.Except
import ButtonFlow.Proofs.Json.Spelling

/-!
# The brace that closes an object

An object is read only from a text in which a closing brace stands as a token. A brace between
quotes is no such token, and a text that is cut off between quotes has no more tokens. Hence
the written form of an object of texts, cut off anywhere before its last character, is read as
no object.
-/

namespace ButtonFlow
namespace Json

/-!
## Objects that are read

Putting tokens together only takes them off the front, so that a token that is left over was
there before.
-/

namespace Tree

theorem itemsOfTokens_cases (fuel : Nat) (ts : List Token) :
    (itemsOfTokens (fuel + 1) ts).2.2 = [] ∨
      .closeBracket :: (itemsOfTokens (fuel + 1) ts).2.2 = (ofTokens fuel ts).2 ∨
      ∃ rest, (ofTokens fuel ts).2 = .comma :: rest ∧
        (itemsOfTokens (fuel + 1) ts).2.2 = (itemsOfTokens fuel rest).2.2 := by
  rw [itemsOfTokens]
  rcases ofTokens fuel ts with ⟨item, _ | ⟨mark, rest⟩⟩
  · exact Or.inl rfl
  · cases mark with
    | closeBracket => exact Or.inr (Or.inl rfl)
    | comma => exact Or.inr (Or.inr ⟨rest, rfl, rfl⟩)
    | _ => exact Or.inl rfl

theorem entriesOfTokens_cases (fuel : Nat) (ts : List Token) :
    (∃ f, (entriesOfTokens (fuel + 1) ts).2 = (some f, [])) ∨
      ∃ rest, (ofTokens fuel ts).2 = .colon :: rest ∧
        ((∃ left, (ofTokens fuel rest).2 = .closeBrace :: left ∧
            (entriesOfTokens (fuel + 1) ts).2 = (none, left)) ∨
          ∃ left, (ofTokens fuel rest).2 = .comma :: left ∧
            (entriesOfTokens (fuel + 1) ts).2 = (entriesOfTokens fuel left).2) := by
  rw [entriesOfTokens]
  rcases ofTokens fuel ts with ⟨key, _ | ⟨mark, rest⟩⟩
  · cases key with
    | _ => exact Or.inl ⟨_, rfl⟩
  · cases key with
    | quoted q =>
        cases mark with
        | colon =>
            dsimp only
            rcases hvalue : ofTokens fuel rest with ⟨value, _ | ⟨mark, left⟩⟩
            · exact Or.inl ⟨_, rfl⟩
            · cases mark with
              | closeBrace =>
                  exact Or.inr ⟨rest, rfl, Or.inl ⟨left, congrArg Prod.snd hvalue, rfl⟩⟩
              | comma =>
                  exact Or.inr ⟨rest, rfl, Or.inr ⟨left, congrArg Prod.snd hvalue, rfl⟩⟩
              | _ => exact Or.inl ⟨_, rfl⟩
        | _ => exact Or.inl ⟨_, rfl⟩
    | _ => exact Or.inl ⟨_, rfl⟩

mutual

theorem ofTokens_suffix : ∀ (fuel : Nat) (ts : List Token), (ofTokens fuel ts).2 <:+ ts
  | 0, ts => List.nil_suffix
  | fuel + 1, [] => List.nil_suffix
  | fuel + 1, token :: ts => by
      have htail : ∀ {rest : List Token}, rest <:+ ts → rest <:+ token :: ts :=
        fun h => h.trans (List.suffix_cons token ts)
      cases token with
      | openBracket =>
          have hitems := itemsOfTokens_suffix fuel ts
          cases ts with
          | nil => exact List.nil_suffix
          | cons first ts =>
              cases first with
              | closeBracket => exact htail (List.suffix_cons _ _)
              | _ => exact htail hitems
      | openBrace =>
          have hentries := entriesOfTokens_suffix fuel ts
          cases ts with
          | nil => exact List.nil_suffix
          | cons first ts =>
              cases first with
              | closeBrace => exact htail (List.suffix_cons _ _)
              | _ => exact htail hentries
      | _ =>
          first
          | exact List.nil_suffix
          | exact htail (List.suffix_refl ts)
termination_by structural fuel => fuel

theorem itemsOfTokens_suffix :
    ∀ (fuel : Nat) (ts : List Token), (itemsOfTokens fuel ts).2.2 <:+ ts
  | 0, ts => List.nil_suffix
  | fuel + 1, ts => by
      have hitem := ofTokens_suffix fuel ts
      rcases itemsOfTokens_cases fuel ts with hnil | hclose | ⟨rest, hcomma, hitems⟩
      · rw [hnil]
        exact List.nil_suffix
      · rw [← hclose] at hitem
        exact (List.suffix_cons _ _).trans hitem
      · rw [hcomma] at hitem
        rw [hitems]
        exact ((itemsOfTokens_suffix fuel rest).trans (List.suffix_cons _ rest)).trans hitem
termination_by structural fuel => fuel

theorem entriesOfTokens_suffix :
    ∀ (fuel : Nat) (ts : List Token), (entriesOfTokens fuel ts).2.2 <:+ ts
  | 0, ts => List.nil_suffix
  | fuel + 1, ts => by
      have hkey := ofTokens_suffix fuel ts
      rcases entriesOfTokens_cases fuel ts with ⟨f, hentries⟩ | ⟨rest, hcolon, hbehind⟩
      · rw [hentries]
        exact List.nil_suffix
      · rw [hcolon] at hkey
        have hvalue := ((ofTokens_suffix fuel rest).trans (List.suffix_cons _ rest)).trans hkey
        rcases hbehind with ⟨left, hclose, hentries⟩ | ⟨left, hcomma, hentries⟩
        · rw [hclose] at hvalue
          rw [hentries]
          exact (List.suffix_cons _ left).trans hvalue
        · rw [hcomma] at hvalue
          rw [hentries]
          exact ((entriesOfTokens_suffix fuel left).trans (List.suffix_cons _ left)).trans hvalue
termination_by structural fuel => fuel

end

theorem closeBrace_mem_of_entriesOfTokens (fuel : Nat) (ts : List Token)
    (h : (entriesOfTokens fuel ts).2.1 = none) : Token.closeBrace ∈ ts := by
  induction fuel generalizing ts with
  | zero => cases h
  | succ fuel ih =>
      have hkey := ofTokens_suffix fuel ts
      rcases entriesOfTokens_cases fuel ts with ⟨f, hentries⟩ | ⟨rest, hcolon, hbehind⟩
      · rw [hentries] at h
        cases h
      · rw [hcolon] at hkey
        have hvalue := ((ofTokens_suffix fuel rest).trans (List.suffix_cons _ rest)).trans hkey
        rcases hbehind with ⟨left, hclose, _⟩ | ⟨left, hcomma, hentries⟩
        · rw [hclose] at hvalue
          exact hvalue.mem List.mem_cons_self
        · rw [hcomma] at hvalue
          rw [hentries] at h
          exact hvalue.mem (List.mem_cons_of_mem _ (ih left h))

theorem closeBrace_mem_of_ofTokens {fuel : Nat} {ts : List Token} {entries : List (Tree × Tree)}
    (h : (ofTokens fuel ts).1 = .object entries none) : Token.closeBrace ∈ ts := by
  cases fuel with
  | zero => cases h
  | succ fuel =>
      rcases ts with _ | ⟨token, _ | ⟨first, ts⟩⟩
      · cases h
      · cases token with
        | _ => cases h
      · cases token with
        | openBrace =>
            cases first with
            | closeBrace => exact List.mem_cons_of_mem _ List.mem_cons_self
            | _ =>
                injection h with _ hending
                exact List.mem_cons_of_mem _ (closeBrace_mem_of_entriesOfTokens fuel _ hending)
        | openBracket =>
            cases first with
            | _ => cases h
        | _ => cases h

end Tree

theorem closeBrace_mem_of_parse {text : String} {entries : Dict Value}
    (h : Format.dict.parse text = .ok entries) : Token.closeBrace ∈ Token.list text.toList := by
  rcases bind_eq_ok.mp h with ⟨d, hread, _⟩
  change Value.readDict "a map" deepest (Document.ofText text).root = .ok d at hread
  cases hroot : (Document.ofText text).root with
  | object entries ending =>
      rw [hroot] at hread
      rcases bind_eq_ok.mp hread with ⟨pairs, _, hclosed⟩
      rcases bind_eq_ok.mp hclosed with ⟨_, hending, _⟩
      cases ending with
      | some f => cases hending
      | none =>
          have hobject : (Tree.ofTokens (2 * (Token.list text.toList).length + 2)
              (Token.list text.toList)).1 = .object entries none := hroot
          exact Tree.closeBrace_mem_of_ofTokens hobject
  | _ =>
      rw [hroot] at hread
      cases hread

/-!
## Texts that are cut off

A text is unclosed if no beginning of it has a closing brace among its tokens.
-/

theorem prefix_append {front cs rest : List Char} (h : front <+: cs ++ rest) :
    (front <+: cs ∧ front ≠ cs) ∨ ∃ tail, front = cs ++ tail ∧ tail <+: rest := by
  rcases List.prefix_or_prefix_of_prefix h (List.prefix_append cs rest) with hcut | ⟨tail, rfl⟩
  · by_cases heq : front = cs
    · exact Or.inr ⟨[], by rw [heq, List.append_nil], List.nil_prefix⟩
    · exact Or.inl ⟨hcut, heq⟩
  · exact Or.inr ⟨tail, rfl, (List.prefix_append_right_inj cs).mp h⟩

namespace Quoted

theorem escape_forms (c : Char) :
    escape c = [c] ∨ (∃ e, escape c = ['\\', e]) ∨
      ∃ w x y z, escape c = ['\\', 'u', w, x, y, z] := by
  unfold escape
  repeat' split
  all_goals
    first
    | exact Or.inl rfl
    | exact Or.inr (Or.inl ⟨_, rfl⟩)
    | exact Or.inr (Or.inr ⟨_, _, _, _, rfl⟩)

theorem scan_of_cut_escape {front : List Char} {c : Char} (h : front <+: escape c)
    (hne : front ≠ escape c) : (scan front).2 = [] := by
  have hlt : front.length < (escape c).length := by
    apply Nat.lt_of_le_of_ne h.length_le
    intro heq
    exact hne (h.eq_of_length heq)
  have htake := List.prefix_iff_eq_take.mp h
  generalize front.length = n at htake hlt
  subst htake
  rcases escape_forms c with hform | ⟨e, hform⟩ | ⟨w, x, y, z, hform⟩
  all_goals
    rw [hform] at hlt ⊢
    rcases n with _ | _ | _ | _ | _ | _ | n
  all_goals
    first
    | rfl
    | exact absurd hlt (by simp)

theorem scan_of_prefix {cs rest front : List Char}
    (h : front <+: cs.flatMap escape ++ '"' :: rest) : (scan front).2 <+: rest := by
  induction cs generalizing front with
  | nil =>
      rcases List.prefix_cons_iff.mp h with rfl | ⟨tail, rfl, htail⟩
      · exact List.nil_prefix
      · rw [scan.eq_def]
        exact htail
  | cons c cs ih =>
      rw [List.flatMap_cons, List.append_assoc] at h
      rcases prefix_append h with ⟨hcut, hne⟩ | ⟨tail, rfl, htail⟩
      · rw [scan_of_cut_escape hcut hne]
        exact List.nil_prefix
      · rw [scan_escape_append]
        exact ih htail

end Quoted

namespace Token

/-- No beginning of a text has a closing brace among its tokens. -/
def Unclosed (cs : List Char) : Prop :=
  ∀ front, front <+: cs → ∀ fuel, Token.closeBrace ∉ listUpTo fuel front

theorem unclosed_nil : Unclosed [] := by
  intro front hfront fuel
  rw [List.prefix_nil.mp hfront]
  cases fuel with
  | zero => exact List.not_mem_nil
  | succ fuel => exact List.not_mem_nil

theorem unclosed_blank {c : Char} {cs : List Char} (hc : isBlank c = true) (h : Unclosed cs) :
    Unclosed (c :: cs) := by
  intro front hfront fuel
  cases fuel with
  | zero => exact List.not_mem_nil
  | succ fuel =>
      rcases List.prefix_cons_iff.mp hfront with rfl | ⟨tail, rfl, htail⟩
      · exact List.not_mem_nil
      · rw [listUpTo, if_pos hc]
        exact h tail htail fuel

theorem unclosed_token {c : Char} {cs rest : List Char} (hc : isBlank c = false)
    (hscan : ∀ front, front <+: cs →
      (scan c front).1 ≠ .closeBrace ∧ (scan c front).2 <+: rest)
    (h : Unclosed rest) : Unclosed (c :: cs) := by
  intro front hfront fuel
  cases fuel with
  | zero => exact List.not_mem_nil
  | succ fuel =>
      rcases List.prefix_cons_iff.mp hfront with rfl | ⟨tail, rfl, htail⟩
      · exact List.not_mem_nil
      · rcases hscan tail htail with ⟨hother, hleft⟩
        rw [listUpTo, if_neg (by rw [hc]; exact Bool.false_ne_true)]
        intro hmem
        rcases List.mem_cons.mp hmem with hfirst | hlater
        · exact hother hfirst.symm
        · exact h _ hleft fuel hlater

theorem unclosed_mark {c : Char} {t : Token} {cs : List Char} (hc : isBlank c = false)
    (hmark : mark? c = some t) (ht : t ≠ .closeBrace) (h : Unclosed cs) :
    Unclosed (c :: cs) := by
  apply unclosed_token hc _ h
  intro front hfront
  unfold scan
  rw [hmark]
  exact ⟨ht, hfront⟩

theorem unclosed_quoted (s : String) {rest : List Char} (h : Unclosed rest) :
    Unclosed (Quoted.write s ++ rest) := by
  have hwrite : Quoted.write s ++ rest =
      '"' :: (s.toList.flatMap Quoted.escape ++ '"' :: rest) := by
    simp [Quoted.write]
  rw [hwrite]
  apply unclosed_token (by decide) _ h
  intro front hfront
  have hmark : mark? '"' = none := by decide
  unfold scan
  rw [hmark]
  dsimp only
  rw [if_pos rfl]
  constructor
  · intro heq
    cases heq
  · exact Quoted.scan_of_prefix hfront

theorem unclosed_newLine (indent : Nat) {rest : List Char} (h : Unclosed rest) :
    Unclosed (Value.newLine indent ++ rest) := by
  apply unclosed_blank rfl
  generalize 2 * indent = n
  induction n with
  | zero => exact h
  | succ n ih => exact unclosed_blank rfl ih

/-!
## Objects of texts
-/

theorem unclosed_entry (indent : Nat) (key s : String) {rest : List Char} (h : Unclosed rest) :
    Unclosed (Value.newLine indent ++ Quoted.write key ++ [':', ' ']
      ++ Value.spread indent (.string s) ++ rest) := by
  have hvalue := unclosed_blank (c := ' ') rfl (unclosed_quoted s h)
  have hcolon := unclosed_mark (c := ':') rfl rfl (by intro heq; cases heq) hvalue
  have hentry := unclosed_newLine indent (unclosed_quoted key hcolon)
  simp only [Value.spread, List.append_assoc, List.cons_append, List.nil_append]
  exact hentry

theorem unclosed_spreadEntries (indent : Nat) (entries : Dict String) {rest : List Char}
    (h : Unclosed rest) :
    Unclosed (Value.spreadEntries indent (Dict.mapValues .string entries) ++ rest) := by
  induction entries with
  | nil => exact h
  | cons entry entries ih =>
      have hcomma := unclosed_mark (c := ',') rfl rfl (by intro heq; cases heq)
        (unclosed_entry indent entry.1 entry.2 ih)
      simp only [Dict.mapValues, List.map_cons, Value.spreadEntries, List.append_assoc,
        List.cons_append] at hcomma ⊢
      exact hcomma

theorem exists_unclosed (entries : Dict String) :
    ∃ cs, Value.spread 0 (.object (Dict.mapValues .string entries)) = cs ++ ['}'] ∧
      Unclosed cs := by
  cases entries with
  | nil =>
      refine ⟨['{'], rfl, ?_⟩
      exact unclosed_mark rfl rfl (by intro heq; cases heq) unclosed_nil
  | cons entry entries =>
      have hlater := unclosed_spreadEntries 1 entries (unclosed_newLine 0 unclosed_nil)
      have hfirst := unclosed_entry 1 entry.1 entry.2 hlater
      have hopen := unclosed_mark (c := '{') rfl rfl (by intro heq; cases heq) hfirst
      refine ⟨_, ?_, hopen⟩
      simp only [Dict.mapValues, List.map_cons, Value.spread, List.append_assoc,
        List.cons_append, List.append_nil, Nat.zero_add]

end Token

/-- The written form of an object of texts is read as no object when it is cut off. -/
theorem not_parse_of_cut {entries : Dict String} {text : String} {read : Dict Value}
    (hcut : text.toList <+: Value.spread 0 (.object (Dict.mapValues .string entries)))
    (hne : text.toList ≠ Value.spread 0 (.object (Dict.mapValues .string entries))) :
    Format.dict.parse text ≠ .ok read := by
  intro hread
  rcases Token.exists_unclosed entries with ⟨cs, hcs, hunclosed⟩
  rw [hcs] at hcut hne
  rcases List.prefix_concat_iff.mp hcut with heq | hfront
  · exact hne heq
  · exact hunclosed _ hfront _ (closeBrace_mem_of_parse hread)

end Json
end ButtonFlow
