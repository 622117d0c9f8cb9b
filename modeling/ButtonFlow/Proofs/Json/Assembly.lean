import ButtonFlow.Proofs.Json.Layout
import ButtonFlow.Proofs.Json.Whole

/-!
# Trees of written values

A value has a whole tree with the tokens that are written for it, so both written forms of a
value are documents with the same tree. The arrays and objects that are open at once in the
middle of such a text are as many as the value is deep.
-/

namespace ButtonFlow
namespace Json

namespace Value

mutual

def tree : Value → Tree
  | .null => .null
  | .bool b => .bool b
  | .number n => (Document.ofText n.text).root
  | .string s => .quoted (Quoted.spelled s)
  | .array items => .array (itemTrees items) none
  | .object entries => .object (entryTrees entries) none
termination_by structural v => v

def itemTrees : List Value → List Tree
  | [] => []
  | item :: items => tree item :: itemTrees items
termination_by structural vs => vs

def entryTrees : List (String × Value) → List (Tree × Tree)
  | [] => []
  | (key, value) :: entries => (.quoted (Quoted.spelled key), tree value) :: entryTrees entries
termination_by structural vs => vs

end

theorem tree_integer (i : Int) : tree (.number (.integer i)) = .numeral (Numeral.ofInteger i) := by
  have htokens :
      Token.list (Number.text (.integer i)).toList = [.numeral (Numeral.ofInteger i)] := by
    have h := tokens_integer i
    rwa [tokens] at h
  rw [tree]
  unfold Document.ofText
  rw [htokens]
  rfl

theorem mem_itemTrees {items : List Value} {t : Tree} (h : t ∈ itemTrees items) :
    ∃ item ∈ items, t = tree item := by
  induction items with
  | nil => exact nomatch h
  | cons item items ih =>
      rcases List.mem_cons.mp h with rfl | h
      · exact ⟨item, List.mem_cons_self, rfl⟩
      · rcases ih h with ⟨other, hother, ht⟩
        exact ⟨other, List.mem_cons_of_mem _ hother, ht⟩

theorem mem_entryTrees {entries : List (String × Value)} {t : Tree × Tree}
    (h : t ∈ entryTrees entries) :
    ∃ entry ∈ entries, t = (.quoted (Quoted.spelled entry.1), tree entry.2) := by
  induction entries with
  | nil => exact nomatch h
  | cons entry entries ih =>
      rcases List.mem_cons.mp h with rfl | h
      · exact ⟨entry, List.mem_cons_self, rfl⟩
      · rcases ih h with ⟨other, hother, ht⟩
        exact ⟨other, List.mem_cons_of_mem _ hother, ht⟩

theorem entryTrees_append (before after : List (String × Value)) :
    entryTrees (before ++ after) = entryTrees before ++ entryTrees after := by
  induction before with
  | nil => rfl
  | cons entry before ih => exact congrArg (_ :: ·) ih

theorem isKey_spelled (key : String) : (Tree.quoted (Quoted.spelled key)).IsKey :=
  ⟨_, rfl⟩

/-!
## Tokens and trees
-/

theorem whole_tree {v : Value} (h : v.FloatFree) : v.tree.Whole := by
  induction h with
  | null => exact .null
  | bool b => exact .bool b
  | integer i =>
      rw [tree_integer]
      exact .numeral _
  | string s => exact .quoted _
  | array _ ih =>
      apply Tree.Whole.array
      intro t ht
      rcases mem_itemTrees ht with ⟨item, hitem, rfl⟩
      exact ih item hitem
  | object _ ih =>
      apply Tree.Whole.object
      · intro t ht
        rcases mem_entryTrees ht with ⟨entry, _, rfl⟩
        exact isKey_spelled entry.1
      · intro t ht
        rcases mem_entryTrees ht with ⟨entry, hentry, rfl⟩
        exact ih entry hentry

theorem tokens_itemTrees {items : List Value}
    (h : ∀ item ∈ items, (tree item).tokens = tokens item) :
    Tree.itemTokens (itemTrees items) = itemTokens items := by
  induction items with
  | nil => rfl
  | cons item items ih =>
      rcases List.forall_mem_cons.mp h with ⟨hitem, hitems⟩
      have hothers := ih hitems
      cases items with
      | nil => exact hitem
      | cons next items =>
          rw [itemTrees] at hothers
          rw [itemTrees, itemTrees, Tree.itemTokens, itemTokens, hitem, hothers]

theorem tokens_entryTrees {entries : List (String × Value)}
    (h : ∀ entry ∈ entries, (tree entry.2).tokens = tokens entry.2) :
    Tree.entryTokens (entryTrees entries) = entryTokens entries := by
  induction entries with
  | nil => rfl
  | cons entry entries ih =>
      rcases entry with ⟨key, value⟩
      rcases List.forall_mem_cons.mp h with ⟨hvalue, hvalues⟩
      dsimp only at hvalue
      have hothers := ih hvalues
      cases entries with
      | nil =>
          rw [entryTrees, entryTrees, Tree.entryTokens, entryTokens, hvalue]
          rfl
      | cons next entries =>
          rw [entryTrees] at hothers
          rw [entryTrees, entryTrees, Tree.entryTokens, entryTokens, hvalue, hothers]
          rfl

theorem tokens_tree {v : Value} (h : v.FloatFree) : v.tree.tokens = v.tokens := by
  induction h with
  | null => rfl
  | bool b => rfl
  | integer i =>
      rw [tree_integer, tokens_integer]
      rfl
  | string s => rfl
  | array _ ih => rw [tree, Tree.tokens, tokens, tokens_itemTrees ih]
  | object _ ih => rw [tree, Tree.tokens, tokens, tokens_entryTrees ih]

theorem list_text {v : Value} (h : v.FloatFree) : Token.list v.text.toList = v.tokens := by
  rw [text, String.toList_ofList]
  apply Token.list_of_lays (lays_compact v h)
  rw [← tokens_tree h]
  exact (whole_tree h).apart

theorem isText_text {v : Value} (h : v.FloatFree) : v.tree.IsText v.text := by
  unfold Tree.IsText
  rw [tokens_tree h, text, String.toList_ofList]
  exact lays_compact v h

theorem isText_spreadText {v : Value} (h : v.FloatFree) : v.tree.IsText v.spreadText := by
  unfold Tree.IsText
  rw [tokens_tree h, spreadText, String.toList_ofList]
  exact lays_spread 0 v h

theorem ofText_text {v : Value} (h : v.FloatFree) : Document.ofText v.text = ⟨v.tree, false⟩ :=
  (whole_tree h).ofText_eq (isText_text h)

theorem ofText_spreadText {v : Value} (h : v.FloatFree) :
    Document.ofText v.spreadText = ⟨v.tree, false⟩ :=
  (whole_tree h).ofText_eq (isText_spreadText h)

end Value

/-!
## Nesting
-/

/-- How many arrays and objects are open behind a token, if `opened` are open before it. -/
def Token.openedBehind (opened : Nat) : Token → Nat
  | .openBracket | .openBrace => opened + 1
  | .closeBracket | .closeBrace => opened - 1
  | _ => opened

/-- How many arrays and objects are open at once, at most, in a row of tokens, if `opened` are
open before it. -/
def Token.nesting (opened : Nat) : List Token → Nat
  | [] => opened
  | t :: ts => max opened (nesting (t.openedBehind opened) ts)

/-- How many arrays and objects are open at once, at most, in a text. -/
def nesting (text : String) : Nat :=
  Token.nesting 0 (Token.list text.toList)

theorem Token.le_nesting (opened : Nat) (ts : List Token) : opened ≤ nesting opened ts := by
  cases ts with
  | nil => exact Nat.le_refl opened
  | cons t ts => exact Nat.le_max_left _ _

namespace Value

open Token

theorem tokens_array_append (items : List Value) (ts : List Token) :
    tokens (.array items) ++ ts = .openBracket :: (itemTokens items ++ .closeBracket :: ts) := by
  simp [tokens]

theorem tokens_object_append (entries : List (String × Value)) (ts : List Token) :
    tokens (.object entries) ++ ts = .openBrace :: (entryTokens entries ++ .closeBrace :: ts) := by
  simp [tokens]

mutual

theorem nesting_tokens_append :
    ∀ (v : Value), v.FloatFree → ∀ (opened : Nat) (ts : List Token),
      Token.nesting opened (tokens v ++ ts) = max (opened + v.depth) (Token.nesting opened ts)
  | .null, _, opened, ts => rfl
  | .bool b, _, opened, ts => rfl
  | .number n, hfree, opened, ts => by
      cases hfree with
      | integer i =>
          rw [tokens_integer]
          rfl
  | .string s, _, opened, ts => rfl
  | .array items, hfree, opened, ts => by
      have hitems :=
        nesting_itemTokens_append items (fun _ hitem => hfree.of_mem_items hitem) (opened + 1)
          (.closeBracket :: ts)
      have hle := le_nesting opened ts
      rw [tokens_array_append, Token.nesting]
      change max opened (Token.nesting (opened + 1) _) = _
      rw [hitems, Token.nesting, depth]
      change max opened (max _ (max (opened + 1) (Token.nesting opened ts))) = _
      omega
  | .object entries, hfree, opened, ts => by
      have hentries :=
        nesting_entryTokens_append entries (fun _ hentry => hfree.of_mem_entries hentry)
          (opened + 1) (.closeBrace :: ts)
      have hle := le_nesting opened ts
      rw [tokens_object_append, Token.nesting]
      change max opened (Token.nesting (opened + 1) _) = _
      rw [hentries, Token.nesting, depth]
      change max opened (max _ (max (opened + 1) (Token.nesting opened ts))) = _
      omega
termination_by structural v => v

theorem nesting_itemTokens_append :
    ∀ (items : List Value), (∀ item ∈ items, item.FloatFree) → ∀ (opened : Nat) (ts : List Token),
      Token.nesting opened (itemTokens items ++ ts) =
        max (opened + depthOfItems items) (Token.nesting opened ts)
  | [], _, opened, ts => by
      have hle := le_nesting opened ts
      simp [itemTokens, depthOfItems, hle]
  | [item], hfree, opened, ts => by
      have hitem := nesting_tokens_append item (hfree item List.mem_cons_self) opened ts
      rw [itemTokens, hitem]
      simp [depthOfItems]
  | item :: next :: items, hfree, opened, ts => by
      rcases List.forall_mem_cons.mp hfree with ⟨hhead, hrest⟩
      have hothers := nesting_itemTokens_append (next :: items) hrest opened ts
      have hitem :=
        nesting_tokens_append item hhead opened (.comma :: (itemTokens (next :: items) ++ ts))
      have hle := le_nesting opened ts
      rw [itemTokens, List.append_assoc, List.cons_append, hitem, Token.nesting]
      change max _ (max opened (Token.nesting opened _)) = _
      have hdepth : depthOfItems (item :: next :: items) =
          max item.depth (depthOfItems (next :: items)) := rfl
      rw [hothers, hdepth]
      omega
termination_by structural items => items

theorem nesting_entryTokens_append :
    ∀ (entries : List (String × Value)), (∀ entry ∈ entries, entry.2.FloatFree) →
      ∀ (opened : Nat) (ts : List Token),
        Token.nesting opened (entryTokens entries ++ ts) =
          max (opened + depthOfEntries entries) (Token.nesting opened ts)
  | [], _, opened, ts => by
      have hle := le_nesting opened ts
      simp [entryTokens, depthOfEntries, hle]
  | [(key, value)], hfree, opened, ts => by
      have hvalue := nesting_tokens_append value (hfree (key, value) List.mem_cons_self) opened ts
      have hle := le_nesting opened ts
      change max opened (max opened (Token.nesting opened (tokens value ++ ts))) = _
      rw [hvalue]
      simp only [depthOfEntries]
      omega
  | (key, value) :: next :: entries, hfree, opened, ts => by
      rcases List.forall_mem_cons.mp hfree with ⟨hhead, hrest⟩
      have hothers := nesting_entryTokens_append (next :: entries) hrest opened ts
      have hvalue :=
        nesting_tokens_append value hhead opened (.comma :: (entryTokens (next :: entries) ++ ts))
      have hle := le_nesting opened ts
      rw [entryTokens, List.append_assoc, List.cons_append]
      change max opened (max opened (Token.nesting opened
        (tokens value ++ .comma :: (entryTokens (next :: entries) ++ ts)))) = _
      rw [hvalue, Token.nesting]
      change max opened (max opened (max _ (max opened (Token.nesting opened _)))) = _
      have hdepth : depthOfEntries ((key, value) :: next :: entries) =
          max value.depth (depthOfEntries (next :: entries)) := rfl
      rw [hothers, hdepth]
      omega
termination_by structural entries => entries

end

theorem nesting_text {v : Value} (h : v.FloatFree) : nesting v.text = v.depth := by
  have htokens := nesting_tokens_append v h 0 []
  rw [List.append_nil] at htokens
  rw [nesting, list_text h, htokens]
  simp [Token.nesting]

end Value

end Json
end ButtonFlow
