import ButtonFlow.Store.IoError

/-!
# Routes

A path in words is a route: it leads from a directory along names that are parted by slashes.
Two names are special: `.` stays where it is, and `..` goes up. Where a route leads depends on
what stands on its way, and so it is kept as it is written.
-/

namespace ButtonFlow

/-- The names that lead from the root to a place. -/
abbrev Path := List String

/-- A path in words. -/
structure Route where
  start : Path
  names : List String
  /-- Whether it ends in a slash, and so means a directory. -/
  isDirectory : Bool

namespace Route

def here : String := "."

def up : String := ".."

def nameLimit : Nat := 255

/-- How many bytes a path in words can have. -/
def textLimit : Nat := 4095

def ofText (workingDirectory : Path) (text : String) : Except IoError Route :=
  if text.toList.contains '\x00' then .error .badName
  else if text.isEmpty then .error .notFound
  else if textLimit < text.utf8ByteSize then .error .nameTooLong
  else
    .ok {
      start := if text.toList.head? = some '/' then [] else workingDirectory
      names := ((text.toList.splitOn '/').map String.ofList).filter (· ≠ "")
      isDirectory := text.toList.getLast? = some '/' }

def join (text name : String) : String :=
  if text.toList.getLast? = some '/' then text ++ name else text ++ "/" ++ name

def parentNames (r : Route) : List String :=
  (r.names.filter (· ≠ here)).dropLast

/-- The place to which a route leads if every name on it leads to a directory. -/
def place (r : Route) : Path :=
  r.names.foldl (fun path name =>
    if name = here then path else if name = up then path.dropLast else path ++ [name]) r.start

end Route

end ButtonFlow
