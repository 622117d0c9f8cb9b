import ButtonFlow.Json.Tree
import ButtonFlow.Proofs.Except
import ButtonFlow.Proofs.Json.Grammar

/-!
# Whole trees

A tree is whole if no place of it breaks off. Its tokens are put together to the tree again,
with nothing left over, and a value that is whole can be passed over. So every text that lays
out the tokens of a whole tree is a document with this tree.
-/

namespace ButtonFlow
namespace Json

namespace Tree

def IsKey (t : Tree) : Prop :=
  ∃ pieces, t = .quoted ⟨pieces, none⟩

/-- No place of the tree breaks off, and the keys of objects are keys. -/
inductive Whole : Tree → Prop where
  | null : Whole .null
  | bool (b : Bool) : Whole (.bool b)
  | numeral (n : Numeral) : Whole (.numeral n)
  | quoted (pieces : List Piece) : Whole (.quoted ⟨pieces, none⟩)
  | array {items : List Tree} (hitems : ∀ item ∈ items, Whole item) : Whole (.array items none)
  | object {entries : List (Tree × Tree)}
      (hkeys : ∀ entry ∈ entries, entry.1.IsKey) (hvalues : ∀ entry ∈ entries, Whole entry.2) :
      Whole (.object entries none)

/-!
## The tokens of a tree
-/

mutual

def tokens : Tree → List Token
  | .missing _ => []
  | .damaged _ _ => []
  | .null => [.null]
  | .bool b => [.bool b]
  | .numeral n => [.numeral n]
  | .quoted q => [.quoted q]
  | .array items _ => .openBracket :: itemTokens items ++ [.closeBracket]
  | .object entries _ => .openBrace :: entryTokens entries ++ [.closeBrace]
termination_by structural t => t

def itemTokens : List Tree → List Token
  | [] => []
  | [item] => tokens item
  | item :: next :: items => tokens item ++ .comma :: itemTokens (next :: items)
termination_by structural ts => ts

def entryTokens : List (Tree × Tree) → List Token
  | [] => []
  | [(key, value)] => tokens key ++ .colon :: tokens value
  | (key, value) :: next :: entries =>
      tokens key ++ .colon :: tokens value ++ .comma :: entryTokens (next :: entries)
termination_by structural ts => ts

end

theorem tokens_array_append (items : List Tree) (ending : Option Failure) (ts : List Token) :
    tokens (.array items ending) ++ ts =
      .openBracket :: (itemTokens items ++ .closeBracket :: ts) := by
  simp [tokens]

theorem tokens_object_append (entries : List (Tree × Tree)) (ending : Option Failure)
    (ts : List Token) :
    tokens (.object entries ending) ++ ts =
      .openBrace :: (entryTokens entries ++ .closeBrace :: ts) := by
  simp [tokens]

theorem Whole.tokens_eq_cons {t : Tree} (h : t.Whole) :
    ∃ first ts, t.tokens = first :: ts ∧ first ≠ .closeBracket := by
  cases h with
  | null => exact ⟨.null, [], rfl, by simp⟩
  | bool b => exact ⟨.bool b, [], rfl, by simp⟩
  | numeral n => exact ⟨.numeral n, [], rfl, by simp⟩
  | quoted pieces => exact ⟨.quoted ⟨pieces, none⟩, [], rfl, by simp⟩
  | array _ => exact ⟨.openBracket, _, rfl, by simp⟩
  | object _ _ => exact ⟨.openBrace, _, rfl, by simp⟩

theorem itemTokens_eq_cons {item : Tree} {items : List Tree}
    (h : ∀ other ∈ item :: items, other.Whole) :
    ∃ first ts, itemTokens (item :: items) = first :: ts ∧ first ≠ .closeBracket := by
  rcases (h item List.mem_cons_self).tokens_eq_cons with ⟨first, ts, hts, hfirst⟩
  cases items with
  | nil => exact ⟨first, ts, hts, hfirst⟩
  | cons next items =>
      refine ⟨first, ts ++ .comma :: itemTokens (next :: items), ?_, hfirst⟩
      rw [itemTokens, hts, List.cons_append]

theorem entryTokens_eq_cons {entry : Tree × Tree} (h : entry.1.IsKey)
    (entries : List (Tree × Tree)) :
    ∃ q ts, entryTokens (entry :: entries) = .quoted q :: ts := by
  rcases entry with ⟨key, value⟩
  rcases h with ⟨pieces, hkey⟩
  dsimp only at hkey
  subst hkey
  cases entries with
  | nil => exact ⟨_, _, rfl⟩
  | cons next entries => exact ⟨_, _, rfl⟩

/-!
Behind an item or entry stands a mark that can follow a numeral.
-/

section

open Token

variable {ts : List Token}

/-- Whatever can follow the tokens of a tree can follow its last numeral. -/
def TokensApart (t : Tree) : Prop :=
  ∀ ts : List Token, Follows ts → Apart ts → Apart (t.tokens ++ ts)

theorem apart_cons {t : Token} (ht : ∀ n, t ≠ .numeral n) (h : Apart ts) : Apart (t :: ts) :=
  .cons (fun n hn => absurd hn (ht n)) h

theorem follows_cons {t : Token} (ht : t.closes = true) (ts : List Token) : Follows (t :: ts) := by
  intro next hnext
  cases hnext
  exact ht

theorem apart_itemTokens_append {items : List Tree} (h : ∀ item ∈ items, item.TokensApart)
    (hfollows : Follows ts) (hts : Apart ts) : Apart (itemTokens items ++ ts) := by
  induction items with
  | nil => exact hts
  | cons item items ih =>
      rcases List.forall_mem_cons.mp h with ⟨hitem, hitems⟩
      cases items with
      | nil => exact hitem ts hfollows hts
      | cons next items =>
          rw [itemTokens, List.append_assoc]
          exact hitem _ (follows_cons rfl _) (apart_cons (by simp) (ih hitems))

theorem apart_entryTokens_append {entries : List (Tree × Tree)}
    (hkeys : ∀ entry ∈ entries, entry.1.IsKey)
    (h : ∀ entry ∈ entries, entry.2.TokensApart) (hfollows : Follows ts) (hts : Apart ts) :
    Apart (entryTokens entries ++ ts) := by
  induction entries with
  | nil => exact hts
  | cons entry entries ih =>
      rcases entry with ⟨key, value⟩
      rcases List.forall_mem_cons.mp hkeys with ⟨⟨pieces, hkey⟩, hothers⟩
      rcases List.forall_mem_cons.mp h with ⟨hvalue, hvalues⟩
      dsimp only at hkey hvalue
      subst hkey
      cases entries with
      | nil => exact apart_cons (by simp) (apart_cons (by simp) (hvalue ts hfollows hts))
      | cons next entries =>
          have hrest := apart_cons (t := .comma) (by simp) (ih hothers hvalues)
          have hentry := hvalue _ (follows_cons rfl _) hrest
          rw [entryTokens, List.append_assoc]
          exact apart_cons (by simp) (apart_cons (by simp) hentry)

theorem Whole.tokensApart {t : Tree} (h : t.Whole) : t.TokensApart := by
  induction h with
  | null => exact fun _ _ hts => apart_cons (by simp) hts
  | bool b => exact fun _ _ hts => apart_cons (by simp) hts
  | numeral n => exact fun _ hfollows hts => .cons (fun _ _ => hfollows) hts
  | quoted pieces => exact fun _ _ hts => apart_cons (by simp) hts
  | array _ ih =>
      intro ts _ hts
      rw [tokens_array_append]
      apply apart_cons (by simp)
      exact apart_itemTokens_append ih (follows_cons rfl ts) (apart_cons (by simp) hts)
  | object hkeys _ ih =>
      intro ts _ hts
      rw [tokens_object_append]
      apply apart_cons (by simp)
      exact apart_entryTokens_append hkeys ih (follows_cons rfl ts) (apart_cons (by simp) hts)

theorem Whole.apart {t : Tree} (h : t.Whole) : Apart t.tokens := by
  have hapart := h.tokensApart [] (fun _ hnext => nomatch hnext) .nil
  rwa [List.append_nil] at hapart

end

/-!
## Putting tokens together

Two steps for each token are enough. The items of an array need one more, to begin the first of
them.
-/

/-- The tokens of the tree are put together to it, whatever stands behind them. -/
def Assembled (t : Tree) : Prop :=
  ∀ (fuel : Nat) (rest : List Token), 2 * t.tokens.length ≤ fuel →
    ofTokens fuel (t.tokens ++ rest) = (t, rest)

theorem assembled_single {t : Tree} {token : Token} (htokens : t.tokens = [token])
    (h : ∀ fuel rest, ofTokens (fuel + 1) (token :: rest) = (t, rest)) : t.Assembled := by
  intro fuel rest hfuel
  rw [htokens] at hfuel ⊢
  cases fuel with
  | zero => simp at hfuel
  | succ fuel => exact h fuel rest

theorem ofTokens_openBracket {fuel : Nat} {t : Token} {ts : List Token} (h : t ≠ .closeBracket) :
    ofTokens (fuel + 1) (.openBracket :: t :: ts) =
      (.array (itemsOfTokens fuel (t :: ts)).1 (itemsOfTokens fuel (t :: ts)).2.1,
        (itemsOfTokens fuel (t :: ts)).2.2) := by
  cases t with
  | closeBracket => exact absurd rfl h
  | _ => rfl

theorem ofTokens_openBrace (fuel : Nat) (q : Quoted) (ts : List Token) :
    ofTokens (fuel + 1) (.openBrace :: .quoted q :: ts) =
      (.object (entriesOfTokens fuel (.quoted q :: ts)).1
          (entriesOfTokens fuel (.quoted q :: ts)).2.1,
        (entriesOfTokens fuel (.quoted q :: ts)).2.2) := rfl

theorem entriesOfTokens_last {fuel : Nat} {q : Quoted} {ts rest : List Token} {value : Tree}
    (h : ofTokens (fuel + 1) ts = (value, .closeBrace :: rest)) :
    entriesOfTokens (fuel + 2) (.quoted q :: .colon :: ts) =
      ([(.quoted q, value)], none, rest) := by
  rw [entriesOfTokens, ofTokens]
  dsimp only
  rw [h]

theorem entriesOfTokens_comma {fuel : Nat} {q : Quoted} {ts rest left : List Token} {value : Tree}
    {entries : List (Tree × Tree)}
    (h : ofTokens (fuel + 1) ts = (value, .comma :: rest))
    (hrest : entriesOfTokens (fuel + 1) rest = (entries, none, left)) :
    entriesOfTokens (fuel + 2) (.quoted q :: .colon :: ts) =
      ((.quoted q, value) :: entries, none, left) := by
  rw [entriesOfTokens, ofTokens]
  dsimp only
  rw [h]
  dsimp only
  rw [hrest]

theorem itemsOfTokens_append {items : List Tree} (hne : items ≠ [])
    (h : ∀ item ∈ items, item.Assembled) (fuel : Nat) (rest : List Token)
    (hfuel : 2 * (itemTokens items).length + 1 ≤ fuel) :
    itemsOfTokens fuel (itemTokens items ++ .closeBracket :: rest) = (items, none, rest) := by
  induction items generalizing fuel with
  | nil => exact absurd rfl hne
  | cons item items ih =>
      rcases List.forall_mem_cons.mp h with ⟨hitem, hitems⟩
      cases fuel with
      | zero => simp at hfuel
      | succ fuel =>
          cases items with
          | nil =>
              rw [itemTokens, itemsOfTokens, hitem fuel _ (by simpa [itemTokens] using hfuel)]
          | cons next items =>
              simp only [itemTokens, List.length_append, List.length_cons] at hfuel
              have hothers := ih (List.cons_ne_nil _ _) hitems fuel (by omega)
              rw [itemTokens, List.append_assoc, List.cons_append, itemsOfTokens,
                hitem fuel _ (by omega)]
              dsimp only
              rw [hothers]

theorem entriesOfTokens_append {entries : List (Tree × Tree)} (hne : entries ≠ [])
    (hkeys : ∀ entry ∈ entries, entry.1.IsKey)
    (h : ∀ entry ∈ entries, entry.2.Assembled) (fuel : Nat) (rest : List Token)
    (hfuel : 2 * (entryTokens entries).length + 1 ≤ fuel) :
    entriesOfTokens fuel (entryTokens entries ++ .closeBrace :: rest) = (entries, none, rest) := by
  induction entries generalizing fuel with
  | nil => exact absurd rfl hne
  | cons entry entries ih =>
      rcases entry with ⟨key, value⟩
      rcases List.forall_mem_cons.mp hkeys with ⟨⟨pieces, hkey⟩, hothers⟩
      rcases List.forall_mem_cons.mp h with ⟨hvalue, hvalues⟩
      dsimp only at hkey hvalue
      subst hkey
      cases entries with
      | nil =>
          simp [entryTokens, tokens] at hfuel
          rcases Nat.exists_eq_add_of_le (by omega : 2 ≤ fuel) with ⟨fuel, rfl⟩
          rw [Nat.add_comm] at hfuel ⊢
          exact entriesOfTokens_last (hvalue (fuel + 1) (.closeBrace :: rest) (by omega))
      | cons next entries =>
          simp [entryTokens, tokens] at hfuel
          rcases Nat.exists_eq_add_of_le (by omega : 2 ≤ fuel) with ⟨fuel, rfl⟩
          rw [Nat.add_comm] at hfuel ⊢
          have hrest := ih (List.cons_ne_nil _ _) hothers hvalues (fuel + 1) (by omega)
          rw [entryTokens, List.append_assoc]
          exact entriesOfTokens_comma (hvalue (fuel + 1) _ (by omega)) hrest

theorem Whole.assembled {t : Tree} (h : t.Whole) : t.Assembled := by
  induction h with
  | null => exact assembled_single rfl fun _ _ => rfl
  | bool b => exact assembled_single rfl fun _ _ => rfl
  | numeral n => exact assembled_single rfl fun _ _ => rfl
  | quoted pieces => exact assembled_single rfl fun _ _ => rfl
  | @array items hitems ih =>
      intro fuel rest hfuel
      cases fuel with
      | zero => simp [tokens] at hfuel
      | succ fuel =>
          cases items with
          | nil => rfl
          | cons item items =>
              simp only [tokens, List.length_append, List.length_cons] at hfuel
              have hparts := itemsOfTokens_append (List.cons_ne_nil item items) ih fuel rest
                (by omega)
              rcases itemTokens_eq_cons hitems with ⟨first, ts, hts, hfirst⟩
              rw [hts, List.cons_append] at hparts
              rw [tokens_array_append, hts, List.cons_append, ofTokens_openBracket hfirst, hparts]
  | @object entries hkeys hvalues ih =>
      intro fuel rest hfuel
      cases fuel with
      | zero => simp [tokens] at hfuel
      | succ fuel =>
          cases entries with
          | nil => rfl
          | cons entry entries =>
              simp only [tokens, List.length_append, List.length_cons] at hfuel
              have hparts := entriesOfTokens_append (List.cons_ne_nil entry entries) hkeys ih fuel
                rest (by omega)
              rcases entryTokens_eq_cons (hkeys entry List.mem_cons_self) entries with ⟨q, ts, hts⟩
              rw [hts, List.cons_append] at hparts
              rw [tokens_object_append, hts, List.cons_append, ofTokens_openBrace, hparts]

/-!
## Passing over a whole tree
-/

theorem skipItems_of_skip {items : List Tree} (h : ∀ item ∈ items, item.skip = .ok ()) :
    skipItems items = .ok () := by
  induction items with
  | nil => rfl
  | cons item items ih =>
      rcases List.forall_mem_cons.mp h with ⟨hitem, hitems⟩
      rw [skipItems, hitem, ok_bind, ih hitems]

theorem skipEntries_of_skip {entries : List (Tree × Tree)}
    (hkeys : ∀ entry ∈ entries, entry.1.IsKey)
    (h : ∀ entry ∈ entries, entry.2.skip = .ok ()) : skipEntries entries = .ok () := by
  induction entries with
  | nil => rfl
  | cons entry entries ih =>
      rcases entry with ⟨key, value⟩
      rcases List.forall_mem_cons.mp hkeys with ⟨⟨pieces, hkey⟩, hothers⟩
      rcases List.forall_mem_cons.mp h with ⟨hvalue, hvalues⟩
      dsimp only at hkey hvalue
      subst hkey
      rw [skipEntries, Quoted.skip, ok_bind, hvalue, ok_bind, ih hothers hvalues]

theorem Whole.skip_eq {t : Tree} (h : t.Whole) : t.skip = .ok () := by
  induction h with
  | null => rfl
  | bool b => rfl
  | numeral n => rfl
  | quoted pieces => rfl
  | array _ ih => rw [skip, skipItems_of_skip ih, ok_bind, closed]
  | object hkeys _ ih => rw [skip, skipEntries_of_skip hkeys ih, ok_bind, closed]

/-!
## Texts
-/

/-- The text lays out the tokens of the tree. -/
def IsText (t : Tree) (text : String) : Prop :=
  Token.Lays t.tokens text.toList

/-- The text of a whole tree is a document with this tree. -/
theorem Whole.ofText_eq {t : Tree} (h : t.Whole) {text : String} (htext : t.IsText text) :
    Document.ofText text = ⟨t, false⟩ := by
  have hassembled := h.assembled (2 * t.tokens.length + 2) [] (Nat.le_add_right _ 2)
  rw [List.append_nil] at hassembled
  unfold Document.ofText
  rw [Token.list_of_lays htext h.apart]
  dsimp only
  rw [hassembled]
  rfl

end Tree
end Json
end ButtonFlow
