import ButtonFlow.Json.Failure

/-!
# Quoted text

What stands between two quotes is kept as it is spelled: characters that stand for themselves,
short escapes such as `\n`, and escapes that name a unit of 16 bits. A spelling can be well
formed and still name no text, because two of those units belong together and one of them may
be missing. `Quoted.scan` cuts a spelling off the front of a text and `Quoted.read` gives the
text that it names.

The written form of a text escapes the quote, the backslash and the control characters below
the space, and nothing else.
-/

namespace ButtonFlow
namespace Json

inductive Piece where
  /-- A character, written as itself or by a short escape. -/
  | char (c : Char)
  /-- A unit of 16 bits, written by its four hexadecimal digits. -/
  | unit (code : Nat)

/-- A spelling up to its closing quote, or up to the place where it breaks off. -/
structure Quoted where
  pieces : List Piece
  damage : Option Failure

namespace Quoted

/-! ## Reading the text -/

def isLeading (code : Nat) : Bool := 0xD800 ≤ code && code ≤ 0xDBFF

def isTrailing (code : Nat) : Bool := 0xDC00 ≤ code && code ≤ 0xDFFF

def pairedChar (leading trailing : Nat) : Char :=
  Char.ofNat (0x10000 + (leading - 0xD800) * 0x400 + (trailing - 0xDC00))

def unpaired : Option Failure → Failure
  | some .cutShort => .cutShort
  | _ => .malformed

/-- The text that a spelling names. A unit that is half of a pair must stand beside the other
half. -/
def readPieces (damage : Option Failure) : List Piece → Except Failure (List Char)
  | [] =>
      match damage with
      | none => .ok []
      | some f => .error f
  | .char c :: rest => (readPieces damage rest).map (c :: ·)
  | .unit code :: rest =>
      if isTrailing code then .error .malformed
      else if isLeading code then
        match rest with
        | [] => .error (unpaired damage)
        | .char _ :: _ => .error .malformed
        | .unit next :: rest =>
            if isTrailing next then (readPieces damage rest).map (pairedChar code next :: ·)
            else .error .malformed
      else (readPieces damage rest).map (Char.ofNat code :: ·)

def read (q : Quoted) : Except Failure String :=
  (readPieces q.damage q.pieces).map String.ofList

/-- Whether a spelling is well formed, whatever its units name. -/
def skip (q : Quoted) : Except Failure Unit :=
  match q.damage with
  | none => .ok ()
  | some f => .error f

/-! ## Cutting a spelling off a text -/

def hexValue? (c : Char) : Option Nat :=
  if '0' ≤ c ∧ c ≤ '9' then some (c.toNat - '0'.toNat)
  else if 'a' ≤ c ∧ c ≤ 'f' then some (c.toNat - 'a'.toNat + 10)
  else if 'A' ≤ c ∧ c ≤ 'F' then some (c.toNat - 'A'.toNat + 10)
  else none

def unit? (a b c d : Char) : Option Nat :=
  match hexValue? a, hexValue? b, hexValue? c, hexValue? d with
  | some w, some x, some y, some z => some (((w * 16 + x) * 16 + y) * 16 + z)
  | _, _, _, _ => none

def shortEscape? (c : Char) : Option Char :=
  if c = '"' then some '"'
  else if c = '\\' then some '\\'
  else if c = '/' then some '/'
  else if c = 'b' then some '\x08'
  else if c = 'f' then some '\x0c'
  else if c = 'n' then some '\n'
  else if c = 'r' then some '\r'
  else if c = 't' then some '\t'
  else none

/-- The failure of a unit escape with fewer than four characters behind it: the text is cut
short if they do not even take four bytes. -/
def shortUnit (cs : List Char) : Failure :=
  if (String.ofList cs).utf8ByteSize < 4 then .cutShort else .malformed

def broken (f : Failure) : Quoted := ⟨[], some f⟩

def cons (p : Piece) (q : Quoted) : Quoted := ⟨p :: q.pieces, q.damage⟩

/-- Cuts a spelling off the front of a text that follows an opening quote. Nothing is left of
the text when the spelling breaks off. -/
def scan : List Char → Quoted × List Char
  | [] => (broken .cutShort, [])
  | c :: cs =>
      if c = '"' then (⟨[], none⟩, cs)
      else if c = '\\' then
        match cs with
        | [] => (broken .cutShort, [])
        | e :: cs =>
            if e = 'u' then
              match cs with
              | w :: x :: y :: z :: cs =>
                  match unit? w x y z with
                  | some code => let (q, rest) := scan cs; (q.cons (.unit code), rest)
                  | none => (broken .malformed, [])
              | short => (broken (shortUnit short), [])
            else
              match shortEscape? e with
              | some d => let (q, rest) := scan cs; (q.cons (.char d), rest)
              | none => (broken .malformed, [])
      else if c.toNat < 0x20 then (broken .malformed, [])
      else let (q, rest) := scan cs; (q.cons (.char c), rest)

/-! ## Writing a text -/

def escape (c : Char) : List Char :=
  if c = '"' then ['\\', '"']
  else if c = '\\' then ['\\', '\\']
  else if c = '\x08' then ['\\', 'b']
  else if c = '\t' then ['\\', 't']
  else if c = '\n' then ['\\', 'n']
  else if c = '\x0c' then ['\\', 'f']
  else if c = '\r' then ['\\', 'r']
  else if c.toNat < 0x20 then
    ['\\', 'u', '0', '0', Nat.digitChar (c.toNat / 16), Nat.digitChar (c.toNat % 16)]
  else [c]

def write (s : String) : List Char :=
  '"' :: s.toList.flatMap escape ++ ['"']

end Quoted

end Json
end ButtonFlow
