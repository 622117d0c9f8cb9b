import ButtonFlow.Store.Route

/-!
# Directories and files

The part of a file system that a store needs: what stands in each place, reading a file,
writing a file, and making the directories above it. A place is named by the names that lead to
it from the root.

Every name of a route but the last must lead to a directory that exists, also the ones that a
later `..` takes back. A name is looked up only in a directory that exists, and only then it
matters whether it is too long.

Some places cannot be written, and it is known why.
-/

namespace ButtonFlow

inductive Node where
  | file (bytes : ByteArray)
  | directory
  | locked (cause : IoError)

def Node.isDirectory : Node → Bool
  | .file _ | .locked _ => false
  | .directory => true

structure FileTree where
  node? : Path → Option Node
  /-- Why nothing can be made or written under a path, if so. -/
  refusal? : Path → Option IoError

namespace FileTree

def bare : FileTree := ⟨fun path => if path = [] then some .directory else none, fun _ => none⟩

def put (t : FileTree) (path : Path) (node : Node) : FileTree :=
  { t with node? := fun p => if p = path then some node else t.node? p }

/-- Removes what stands under a path, and everything below it. -/
def erase (t : FileTree) (path : Path) : FileTree :=
  { t with node? := fun p => if path.isPrefixOf p then none else t.node? p }

/-- Refuses every change at a path and below it. -/
def refuse (t : FileTree) (path : Path) (cause : IoError) : FileTree :=
  { t with refusal? := fun p => if path.isPrefixOf p then some cause else t.refusal? p }

def bytes? (t : FileTree) (path : Path) : Option ByteArray :=
  match t.node? path with
  | some (.file bytes) => some bytes
  | _ => none

def make (t : FileTree) (path : Path) (node : Node) : Except IoError FileTree :=
  match t.refusal? path with
  | some cause => .error cause
  | none => .ok (t.put path node)

/-! ## Following routes -/

def lookUp (t : FileTree) (directory : Path) (name : String) : Except IoError (Option Node) :=
  if Route.nameLimit < name.utf8ByteSize then .error .nameTooLong
  else .ok (t.node? (directory ++ [name]))

def walk (t : FileTree) (directory : Path) : List String → Except IoError Path
  | [] => .ok directory
  | name :: names =>
      if name = Route.here then t.walk directory names
      else if name = Route.up then t.walk directory.dropLast names
      else do
        match ← t.lookUp directory name with
        | none => .error .notFound
        | some node =>
            if node.isDirectory then t.walk (directory ++ [name]) names
            else .error .notADirectory

/-- The directory in which a route ends and its last name there; no name if it leads to a
directory whatever stands in it. -/
def approach (t : FileTree) (r : Route) : Except IoError (Path × Option String) := do
  let directory ← t.walk r.start r.names.dropLast
  return (directory, r.names.getLast?.filter fun name => name ≠ Route.here && name ≠ Route.up)

def find (t : FileTree) (r : Route) : Except IoError Node := do
  match ← t.approach r with
  | (_, none) => .ok .directory
  | (directory, some name) =>
      match ← t.lookUp directory name with
      | none => .error .notFound
      | some node => if r.isDirectory && !node.isDirectory then .error .notADirectory else .ok node

def contents (t : FileTree) (r : Route) : Except IoError ByteArray := do
  match ← t.find r with
  | .file bytes => .ok bytes
  | .directory => .error .isADirectory
  | .locked cause => .error cause

def readText (t : FileTree) (r : Route) : Except IoError String := do
  match String.fromUTF8? (← t.contents r) with
  | some text => .ok text
  | none => .error .invalidText

def replaceFile (t : FileTree) (r : Route) (bytes : ByteArray) : Except IoError FileTree := do
  match ← t.approach r with
  | (_, none) => .error .isADirectory
  | (directory, some name) =>
      if r.isDirectory then .error .isADirectory
      else
        match ← t.lookUp directory name with
        | some .directory => .error .isADirectory
        | _ => t.make (directory ++ [name]) (.file bytes)

/-! ## Making directories -/

/-- Makes the directories along names, where they are missing. Those that were made before
something goes wrong stay. -/
def makeDirectories (t : FileTree) (directory : Path) : List String → Except IoError Unit × FileTree
  | [] => (.ok (), t)
  | name :: names =>
      if name = Route.up then t.makeDirectories directory.dropLast names
      else
        let path := directory ++ [name]
        match t.lookUp directory name with
        | .error e => (.error e, t)
        | .ok (some node) =>
            if node.isDirectory then t.makeDirectories path names
            else (.error (if names.isEmpty then .alreadyExists else .notADirectory), t)
        | .ok none =>
            match t.make path .directory with
            | .error e => (.error e, t)
            | .ok t => t.makeDirectories path names

/-- Writes bytes to a file, after making the directories above it. These stay if the file
cannot be written. -/
def writeBytes (t : FileTree) (r : Route) (bytes : ByteArray) : Except IoError Unit × FileTree :=
  match t.makeDirectories r.start r.parentNames with
  | (.error e, t) => (.error e, t)
  | (.ok (), t) =>
      match t.replaceFile r bytes with
      | .error e => (.error e, t)
      | .ok t => (.ok (), t)

def writeText (t : FileTree) (r : Route) (text : String) : Except IoError Unit × FileTree :=
  t.writeBytes r text.toUTF8

end FileTree

end ButtonFlow
