import ButtonFlow.Json.Token

/-!
# The tree of a text

Tokens are put together to arrays and objects as far as they go. Nothing fails here either: the
place where a text breaks off becomes a leaf of the tree, or the ending of an array or object.
Readers walk the tree from left to right and report the first thing that is wrong, be it a
damaged place or a value of the wrong shape, so that a text is judged as if it were read while
it comes in.
-/

namespace ButtonFlow
namespace Json

inductive Tree where
  | missing (f : Failure)
  | damaged (reading skipping : Failure)
  | null
  | bool (b : Bool)
  | numeral (n : Numeral)
  | quoted (q : Quoted)
  /-- The items, and what is wrong behind the last of them. -/
  | array (items : List Tree) (ending : Option Failure)
  | object (entries : List (Tree × Tree)) (ending : Option Failure)

namespace Tree

mutual

/-- The value at the front of the tokens, and the tokens behind it. Nothing is left behind a
place where the text breaks off. -/
def ofTokens : Nat → List Token → Tree × List Token
  | 0, _ => (.missing .cutShort, [])
  | _ + 1, [] => (.missing .cutShort, [])
  | fuel + 1, token :: ts =>
      match token with
      | .null => (.null, ts)
      | .bool b => (.bool b, ts)
      | .numeral n => (.numeral n, ts)
      | .quoted q => (.quoted q, ts)
      | .damaged reading skipping => (.damaged reading skipping, [])
      | .openBracket =>
          match ts with
          | [] => (.array [] (some .cutShort), [])
          | .closeBracket :: ts => (.array [] none, ts)
          | ts =>
              let (items, ending, rest) := itemsOfTokens fuel ts
              (.array items ending, rest)
      | .openBrace =>
          match ts with
          | [] => (.object [] (some .cutShort), [])
          | .closeBrace :: ts => (.object [] none, ts)
          | ts =>
              let (entries, ending, rest) := entriesOfTokens fuel ts
              (.object entries ending, rest)
      | _ => (.missing .malformed, [])

def itemsOfTokens : Nat → List Token → List Tree × Option Failure × List Token
  | 0, _ => ([], some .cutShort, [])
  | fuel + 1, ts =>
      let (item, rest) := ofTokens fuel ts
      match rest with
      | [] => ([item], some .cutShort, [])
      | .closeBracket :: rest => ([item], none, rest)
      | .comma :: rest =>
          let (items, ending, rest) := itemsOfTokens fuel rest
          (item :: items, ending, rest)
      | _ => ([item], some .malformed, [])

/-- The entries of an object from the next one on. A key that is no text is the end of it. -/
def entriesOfTokens : Nat → List Token → List (Tree × Tree) × Option Failure × List Token
  | 0, _ => ([], some .cutShort, [])
  | fuel + 1, ts =>
      let (key, rest) := ofTokens fuel ts
      match key, rest with
      | .quoted _, .colon :: rest =>
          let (value, rest) := ofTokens fuel rest
          match rest with
          | [] => ([(key, value)], some .cutShort, [])
          | .closeBrace :: rest => ([(key, value)], none, rest)
          | .comma :: rest =>
              let (entries, ending, rest) := entriesOfTokens fuel rest
              ((key, value) :: entries, ending, rest)
          | _ => ([(key, value)], some .malformed, [])
      | .quoted _, [] => ([(key, .missing .cutShort)], some .cutShort, [])
      | _, _ => ([(key, .missing .malformed)], some .malformed, [])

end

/-! ## Passing over a value -/

def closed : Option Failure → Except Failure Unit
  | none => .ok ()
  | some f => .error f

mutual

/-- Passes over a value that nobody wants. Only its spelling is looked at: how deep it nests,
how large its numbers are and what text its escapes name does not matter. -/
def skip : Tree → Except Failure Unit
  | .missing f => .error f
  | .damaged _ skipping => .error skipping
  | .null => .ok ()
  | .bool _ => .ok ()
  | .numeral _ => .ok ()
  | .quoted q => q.skip
  | .array items ending => do
      skipItems items
      closed ending
  | .object entries ending => do
      skipEntries entries
      closed ending
termination_by structural t => t

def skipItems : List Tree → Except Failure Unit
  | [] => .ok ()
  | item :: items => do
      skip item
      skipItems items
termination_by structural ts => ts

def skipEntries : List (Tree × Tree) → Except Failure Unit
  | [] => .ok ()
  | (key, value) :: entries => do
      match key with
      | .quoted q => q.skip
      | .missing f => .error f
      | _ => .error .malformed
      skip value
      skipEntries entries
termination_by structural ts => ts

end

/-! ## Parts of a value -/

def key : Tree → Except Failure String
  | .quoted q => q.read
  | .missing f => .error f
  | _ => .error .malformed

/-- The failure of reading a value where something else was wanted. What is wrong with the
value itself comes first, except inside of an array or object. -/
def unfit (wanted : String) : Tree → Failure
  | .missing f => f
  | .damaged reading _ => reading
  | .null => .misfit (.wrongKind .null wanted)
  | .bool b => .misfit (.wrongKind (.boolean b) wanted)
  | .numeral n =>
      match n.read with
      | .ok n => .misfit (.wrongKind (.number n) wanted)
      | .error f => f
  | .quoted q =>
      match q.read with
      | .ok s => .misfit (.wrongKind (.string s) wanted)
      | .error f => f
  | .array _ _ => .misfit (.wrongKind .sequence wanted)
  | .object _ _ => .misfit (.wrongKind .map wanted)

end Tree

/-! ## Documents -/

/-- A text as one value, and whether anything but blanks stands behind it. -/
structure Document where
  root : Tree
  trailing : Bool

/-- The document of a text. Two steps for each token are enough: one to begin a value, and one
to go on behind it. -/
def Document.ofText (text : String) : Document :=
  let tokens := Token.list text.toList
  let (root, rest) := Tree.ofTokens (2 * tokens.length + 2) tokens
  ⟨root, !rest.isEmpty⟩

/-- How many arrays and objects may be open at once. -/
def deepest : Nat := 127

def Document.read {α : Type} (reader : Nat → Tree → Except Failure α) (d : Document) :
    Except Failure α := do
  let a ← reader deepest d.root
  if d.trailing then .error .malformed else .ok a

end Json
end ButtonFlow
