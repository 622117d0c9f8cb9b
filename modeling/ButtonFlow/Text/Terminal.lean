/-!
# Text without control sequences

A terminal takes some characters as orders: control characters, and the sequences that an
escape character begins. Where a message is not meant for a terminal, they are left out. Of the
control characters only white space is shown; it also ends a sequence that stands in front of
it, unless that is a control string.

A message is made of parts. A marked part stands between two sequences that set it off, and so
no sequence that it holds reaches beyond it, and none reaches into it.
-/

namespace ButtonFlow
namespace Text

/-- Where in a text with control sequences a character stands. -/
inductive Place where
  | outside
  | escape
  | escapeMarks
  /-- In a sequence that sets something, such as a color. -/
  | setting
  /-- In a string for the system, such as the title of a window. -/
  | title
  | deviceHead
  | deviceParameters
  | deviceMarks
  | controlString
  deriving DecidableEq

def isControlSpace (c : Char) : Bool :=
  c = '\t' || c = '\n' || c = '\x0c' || c = '\r'

def holdsTerminator (c : Char) : Bool :=
  (String.utf8EncodeChar c).contains 0x9c

namespace Place

def shows (place : Place) (c : Char) : Bool :=
  match place with
  | outside => isControlSpace c || (' ' ≤ c && c ≠ '\x7f')
  | escape | escapeMarks | setting => isControlSpace c
  | title | deviceHead | deviceParameters | deviceMarks | controlString => false

def afterEscape (c : Char) : Place :=
  if c < ' ' then escape
  else if c ≤ '/' then escapeMarks
  else if c = '[' then setting
  else if c = ']' then title
  else if c = 'P' then deviceHead
  else if c = 'X' || c = '^' || c = '_' then controlString
  else if c ≤ '~' then outside
  else escape

/-- The place behind a character that neither begins nor breaks off a sequence. -/
def along (place : Place) (c : Char) : Place :=
  match place with
  | outside => outside
  | escape => afterEscape c
  | escapeMarks => if '0' ≤ c && c ≤ '~' then outside else escapeMarks
  | setting => if '@' ≤ c && c ≤ '~' then outside else setting
  | title => if c = '\x07' then outside else title
  | deviceHead =>
      if c < ' ' || '~' < c then deviceHead
      else if c ≤ '/' then deviceMarks
      else if c ≤ '?' then deviceParameters
      else controlString
  | deviceParameters =>
      if c < ' ' || '~' < c then deviceParameters
      else if c ≤ '/' then deviceMarks
      else if c ≤ ';' then deviceParameters
      else controlString
  | deviceMarks => if '0' ≤ c && c ≤ '~' then controlString else deviceMarks
  | controlString => if holdsTerminator c then outside else controlString

def next (place : Place) (c : Char) : Place :=
  if c = '\x1b' then escape
  else if c = '\x18' || c = '\x1a' || place.shows c then outside
  else place.along c

def shown (place : Place) : List Char → List Char
  | [] => []
  | c :: cs => if place.shows c then c :: (place.next c).shown cs else (place.next c).shown cs

def behind (place : Place) (cs : List Char) : Place :=
  cs.foldl next place

end Place

inductive Part where
  | plain (text : String)
  | marked (text : String)

def shownFrom : Place → List Part → String
  | _, [] => ""
  | place, .plain text :: parts =>
      String.ofList (place.shown text.toList) ++ shownFrom (place.behind text.toList) parts
  | _, .marked text :: parts =>
      String.ofList (Place.outside.shown text.toList) ++ shownFrom .outside parts

/-- A message as it is shown where there is no terminal. -/
def shownParts (parts : List Part) : String :=
  shownFrom .outside parts

end Text
end ButtonFlow
