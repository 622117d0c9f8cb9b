import ButtonFlow.Json.Printer
import ButtonFlow.Proofs.Json.Exact
import ButtonFlow.Proofs.Json.Spelling

/-!
# Layouts of written values

Both written forms of a value lay out the same tokens.
-/

namespace ButtonFlow
namespace Json

namespace Token

/-!
## Single tokens
-/

theorem lays_mark {c : Char} {t : Token} (h : mark? c = some t) {ts : List Token}
    {cs : List Char} (hrest : Lays ts cs) : Lays (t :: ts) (c :: cs) :=
  .token (.mark h) hrest

theorem spells_bool (b : Bool) : Spells (.bool b) (Value.boolText b) := by
  cases b with
  | true => exact .word rfl
  | false => exact .word rfl

theorem spells_quoted (s : String) : Spells (.quoted (Quoted.spelled s)) (Quoted.write s) :=
  .quoted (Quoted.spells_written s)

theorem lays_newLine (indent : Nat) : Lays [] (Value.newLine indent) := by
  apply lays_blanks
  intro c hc
  rcases List.mem_cons.mp hc with rfl | hspace
  · rfl
  · rw [List.eq_of_mem_replicate hspace]
    rfl

end Token

namespace Value

open Token

/-!
## The tokens of a value
-/

mutual

/-- The tokens that the written forms of a value lay out. -/
def tokens : Value → List Token
  | .null => [.null]
  | .bool b => [.bool b]
  | .number n => Token.list n.text.toList
  | .string s => [.quoted (Quoted.spelled s)]
  | .array items => .openBracket :: itemTokens items ++ [.closeBracket]
  | .object entries => .openBrace :: entryTokens entries ++ [.closeBrace]
termination_by structural v => v

def itemTokens : List Value → List Token
  | [] => []
  | [item] => tokens item
  | item :: next :: items => tokens item ++ .comma :: itemTokens (next :: items)
termination_by structural vs => vs

def entryTokens : List (String × Value) → List Token
  | [] => []
  | [(key, value)] => .quoted (Quoted.spelled key) :: .colon :: tokens value
  | (key, value) :: next :: entries =>
      .quoted (Quoted.spelled key) :: .colon :: tokens value
        ++ .comma :: entryTokens (next :: entries)
termination_by structural vs => vs

end

theorem tokens_integer (i : Int) :
    tokens (.number (.integer i)) = [.numeral (Numeral.ofInteger i)] := by
  apply list_of_lays (lays_singleton (.numeral (Numeral.spells_ofInteger i)))
  exact .cons (fun _ _ _ hnext => nomatch hnext) .nil

theorem lays_integer (i : Int) :
    Lays (tokens (.number (.integer i))) (Number.integerText i).toList := by
  rw [tokens_integer]
  exact lays_singleton (.numeral (Numeral.spells_ofInteger i))

theorem lays_entry (key : String) {ts : List Token} {cs : List Char} (h : Lays ts cs) :
    Lays (.quoted (Quoted.spelled key) :: .colon :: ts) (Quoted.write key ++ ':' :: cs) :=
  .token (spells_quoted key) (lays_mark rfl h)

mutual

theorem lays_compact : ∀ (v : Value), v.FloatFree → Lays (tokens v) (compact v)
  | .null, _ => lays_singleton (.word rfl)
  | .bool b, _ => lays_singleton (spells_bool b)
  | .number n, hfree => by
      cases hfree with
      | integer i => exact lays_integer i
  | .string s, _ => lays_singleton (spells_quoted s)
  | .array items, hfree => by
      have hitems := lays_compactItems items fun _ hitem => hfree.of_mem_items hitem
      exact (lays_mark (c := '[') rfl hitems).append (lays_mark (c := ']') rfl .done)
  | .object entries, hfree => by
      have hentries := lays_compactEntries entries fun _ hentry => hfree.of_mem_entries hentry
      exact (lays_mark (c := '{') rfl hentries).append (lays_mark (c := '}') rfl .done)
termination_by structural v => v

theorem lays_compactItems :
    ∀ (items : List Value), (∀ item ∈ items, item.FloatFree) →
      Lays (itemTokens items) (compactItems items)
  | [], _ => .done
  | [item], hfree => lays_compact item (hfree item List.mem_cons_self)
  | item :: next :: items, hfree => by
      rcases List.forall_mem_cons.mp hfree with ⟨hhead, hrest⟩
      have hothers := lays_compactItems (next :: items) hrest
      exact (lays_compact item hhead).append (lays_mark (c := ',') rfl hothers)
termination_by structural items => items

theorem lays_compactEntries :
    ∀ (entries : List (String × Value)), (∀ entry ∈ entries, entry.2.FloatFree) →
      Lays (entryTokens entries) (compactEntries entries)
  | [], _ => .done
  | [(key, value)], hfree =>
      lays_entry key (lays_compact value (hfree (key, value) List.mem_cons_self))
  | (key, value) :: next :: entries, hfree => by
      rcases List.forall_mem_cons.mp hfree with ⟨hhead, hrest⟩
      have hothers := lays_compactEntries (next :: entries) hrest
      have hentry := lays_entry key (lays_compact value hhead)
      exact hentry.append (lays_mark (c := ',') rfl hothers)
termination_by structural entries => entries

end

/-!
The spread form treats the first item or entry apart from those behind it.
-/

def laterItemTokens : List Value → List Token
  | [] => []
  | item :: items => .comma :: itemTokens (item :: items)

def laterEntryTokens : List (String × Value) → List Token
  | [] => []
  | entry :: entries => .comma :: entryTokens (entry :: entries)

theorem itemTokens_cons (item : Value) (items : List Value) :
    itemTokens (item :: items) = tokens item ++ laterItemTokens items := by
  cases items with
  | nil => simp [itemTokens, laterItemTokens]
  | cons next items => rw [itemTokens, laterItemTokens]

theorem entryTokens_cons (key : String) (value : Value) (entries : List (String × Value)) :
    entryTokens ((key, value) :: entries) =
      .quoted (Quoted.spelled key) :: .colon :: (tokens value ++ laterEntryTokens entries) := by
  cases entries with
  | nil => simp [entryTokens, laterEntryTokens]
  | cons next entries => simp [entryTokens, laterEntryTokens]

theorem lays_spreadEntry (key : String) {ts : List Token} {cs : List Char} (h : Lays ts cs) :
    Lays (.quoted (Quoted.spelled key) :: .colon :: ts) (Quoted.write key ++ ':' :: ' ' :: cs) :=
  lays_entry key (.blank rfl h)

mutual

theorem lays_spread (indent : Nat) :
    ∀ (v : Value), v.FloatFree → Lays (tokens v) (spread indent v)
  | .null, _ => lays_singleton (.word rfl)
  | .bool b, _ => lays_singleton (spells_bool b)
  | .number n, hfree => by
      cases hfree with
      | integer i => exact lays_integer i
  | .string s, _ => lays_singleton (spells_quoted s)
  | .array [], _ => lays_mark (c := '[') rfl (lays_mark (c := ']') rfl .done)
  | .array (item :: items), hfree => by
      have hfirst := lays_spread (indent + 1) item (hfree.of_mem_items List.mem_cons_self)
      have hlater := lays_spreadItems (indent + 1) items fun _ hother =>
        hfree.of_mem_items (List.mem_cons_of_mem _ hother)
      have hclose := (lays_newLine indent).append (lays_mark (c := ']') rfl .done)
      have hitems := (lays_newLine (indent + 1)).append (hfirst.append (hlater.append hclose))
      simpa [spread, tokens, itemTokens_cons] using lays_mark (c := '[') rfl hitems
  | .object [], _ => lays_mark (c := '{') rfl (lays_mark (c := '}') rfl .done)
  | .object ((key, value) :: entries), hfree => by
      have hvalue := lays_spread (indent + 1) value (hfree.of_mem_entries List.mem_cons_self)
      have hlater := lays_spreadEntries (indent + 1) entries fun _ hother =>
        hfree.of_mem_entries (List.mem_cons_of_mem _ hother)
      have hclose := (lays_newLine indent).append (lays_mark (c := '}') rfl .done)
      have hfirst := lays_spreadEntry key (hvalue.append (hlater.append hclose))
      have hentries := (lays_newLine (indent + 1)).append hfirst
      simpa [spread, tokens, entryTokens_cons] using lays_mark (c := '{') rfl hentries
termination_by structural v => v

theorem lays_spreadItems (indent : Nat) :
    ∀ (items : List Value), (∀ item ∈ items, item.FloatFree) →
      Lays (laterItemTokens items) (spreadItems indent items)
  | [], _ => .done
  | item :: items, hfree => by
      rcases List.forall_mem_cons.mp hfree with ⟨hhead, hrest⟩
      have hitem := (lays_newLine indent).append (lays_spread indent item hhead)
      have hitems := hitem.append (lays_spreadItems indent items hrest)
      rw [laterItemTokens, itemTokens_cons, spreadItems]
      exact lays_mark (c := ',') rfl hitems
termination_by structural items => items

theorem lays_spreadEntries (indent : Nat) :
    ∀ (entries : List (String × Value)), (∀ entry ∈ entries, entry.2.FloatFree) →
      Lays (laterEntryTokens entries) (spreadEntries indent entries)
  | [], _ => .done
  | (key, value) :: entries, hfree => by
      rcases List.forall_mem_cons.mp hfree with ⟨hhead, hrest⟩
      have hlater := lays_spreadEntries indent entries hrest
      have hentry := lays_spreadEntry key ((lays_spread indent value hhead).append hlater)
      have hentries := lays_mark (c := ',') rfl ((lays_newLine indent).append hentry)
      rw [laterEntryTokens, entryTokens_cons, spreadEntries]
      simpa using hentries
termination_by structural entries => entries

end

end Value

end Json
end ButtonFlow
