import ButtonFlow.Json.Numeral
import ButtonFlow.Json.Quoted

/-!
# Tokens

A text is cut into punctuation, words, numerals and quoted spellings; blanks between them are
dropped. Cutting never fails: what cannot be a token becomes a token that says so, and is the
last one.

A damaged word or numeral keeps two failures, because a value that nobody wants is only passed
over, and passing over is less exact about where a numeral ends.
-/

namespace ButtonFlow
namespace Json

inductive Token where
  | openBracket
  | closeBracket
  | openBrace
  | closeBrace
  | comma
  | colon
  | null
  | bool (b : Bool)
  | numeral (n : Numeral)
  | quoted (q : Quoted)
  /-- A word or numeral that breaks off: the failure of reading it and of passing it over. -/
  | damaged (reading skipping : Failure)
  | stray

namespace Token

def isBlank (c : Char) : Bool :=
  c = ' ' || c = '\t' || c = '\n' || c = '\r'

def scanWord : List Char → List Char → Except Failure (List Char)
  | [], cs => .ok cs
  | _ :: _, [] => .error .cutShort
  | w :: ws, c :: cs => if w = c then scanWord ws cs else .error .malformed

def word? (c : Char) : Option (Token × List Char) :=
  if c = 'n' then some (.null, ['u', 'l', 'l'])
  else if c = 't' then some (.bool true, ['r', 'u', 'e'])
  else if c = 'f' then some (.bool false, ['a', 'l', 's', 'e'])
  else none

def mark? (c : Char) : Option Token :=
  if c = '[' then some .openBracket
  else if c = ']' then some .closeBracket
  else if c = '{' then some .openBrace
  else if c = '}' then some .closeBrace
  else if c = ',' then some .comma
  else if c = ':' then some .colon
  else none

/-- The token at the front of a text that begins with the character `c`, and what is left of
the text. Nothing is left after a token that breaks off. -/
def scan (c : Char) (cs : List Char) : Token × List Char :=
  match mark? c with
  | some mark => (mark, cs)
  | none =>
      if c = '"' then
        let (q, rest) := Quoted.scan cs
        (.quoted q, rest)
      else if c = '-' || c.isDigit then
        match Numeral.scan (c :: cs) with
        | .ok (n, rest) => (.numeral n, rest)
        | .error f => (.damaged f .malformed, [])
      else
        match word? c with
        | some (token, letters) =>
            match scanWord letters cs with
            | .ok rest => (token, rest)
            | .error f => (.damaged f f, [])
        | none => (.stray, [])

def listUpTo : Nat → List Char → List Token
  | 0, _ => []
  | _, [] => []
  | fuel + 1, c :: cs =>
      if isBlank c then listUpTo fuel cs
      else
        let (token, rest) := scan c cs
        token :: listUpTo fuel rest

/-- The tokens of a text. Every token takes at least one character. -/
def list (cs : List Char) : List Token :=
  listUpTo cs.length cs

end Token

end Json
end ButtonFlow
