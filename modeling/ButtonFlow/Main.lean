import ButtonFlow.Cli.Program

/-!
# The command line program

Looks at what the program needs of the system, carries the command line out, writes the file of
the store if it has changed, and shows the lines at their time. At a question the program is
carried out anew as soon as the answer is known: what came before the question stays the same.

A file that could not be written is known to be so when the command line is carried out again.
Ctrl-C ends the program at once here: what it does to clicks is only told by the runs of a start
that is interrupted.
-/

namespace ButtonFlow
namespace Cli

def systemPath (path : Path) : String :=
  "/" ++ String.intercalate "/" path

def ioErrorOf : IO.Error → IoError
  | .noFileOrDirectory .. => .notFound
  | .alreadyExists .. => .alreadyExists
  | .inappropriateType _ code _ => if code = 21 then .isADirectory else .notADirectory
  | .permissionDenied _ code _ =>
      .other ("Permission denied (os error " ++ toString code.toNat ++ ")")
  | e => .other (toString e)

def lookAt (path : Path) : IO (Option Node) := do
  try
    let bytes ← IO.FS.readBinFile (systemPath path)
    return some (.file bytes)
  catch e =>
    match ioErrorOf e with
    | .isADirectory => return some .directory
    | .notFound | .notADirectory => return none
    | cause => return some (.locked cause)

def lookAlong (tree : FileTree) (directory : Path) : List String → IO FileTree
  | [] => return tree
  | name :: names =>
      if name = Route.here then lookAlong tree directory names
      else if name = Route.up then lookAlong tree directory.dropLast names
      else do
        let path := directory ++ [name]
        match ← lookAt path with
        | some node => lookAlong (tree.put path node) path names
        | none => lookAlong tree path names

def makeAlong (before after : FileTree) (directory : Path) : List String → IO Unit
  | [] => return
  | name :: names =>
      if name = Route.here then makeAlong before after directory names
      else if name = Route.up then makeAlong before after directory.dropLast names
      else do
        let path := directory ++ [name]
        match before.node? path, after.node? path with
        | none, some .directory => IO.FS.createDir (systemPath path)
        | _, _ => pure ()
        makeAlong before after path names

/-- Makes what is new along a route, and writes the file in which it ends if that is another
one than before. -/
def writeBack (route : Route) (before after : FileTree) : IO Unit := do
  makeAlong before after route.start route.names
  match after.bytes? route.place with
  | some bytes =>
      if (before.bytes? route.place).any (· == bytes) then return
      IO.FS.writeBinFile (systemPath route.place) bytes
  | none => return

def parts (mark : String) (line : String) : List String :=
  (line.splitOn mark).filter (· ≠ "")

def lookUpAccountHome : IO (Option String) := do
  try
    let status ← IO.FS.readFile "/proc/self/status"
    let user? := (status.splitOn "\n").findSome? fun line =>
      match parts "\t" line with
      | "Uid:" :: user :: _ => some user
      | _ => none
    let accounts ← IO.FS.readFile "/etc/passwd"
    return (accounts.splitOn "\n").findSome? fun line =>
      match line.splitOn ":" with
      | [_, _, user, _, _, home, _] => if user? = some user then some home else none
      | _ => none
  catch _ => return none

def runWriting (words : List String) (route? : Option Route) (s : Surroundings) : IO Ended := do
  let ended := run words s
  match route? with
  | none => return ended
  | some route =>
      try
        writeBack route s.tree ended.tree
        return ended
      catch e => return run words { s with tree := s.tree.refuse route.place (ioErrorOf e) }

def showLines (clock : Nat) : List (Nat × Line) → IO Unit
  | [] => return
  | (time, line) :: lines => do
      IO.sleep (time - clock).toUInt32
      match line with
      | .output text => IO.println text
      | .notice text | .question text | .log text => IO.eprintln text
      showLines (max clock time) lines

partial def readLine (input : IO.FS.Stream) (line : ByteArray) : IO ByteArray := do
  let byte ← input.read 1
  if byte.isEmpty then return line
  let line := line ++ byte
  if byte == ⟨#[10]⟩ then return line else readLine input line

/-- Carries a command line out and shows what it leads to, of which so many lines are shown
already. -/
partial def converse (words : List String) (route? : Option Route) (s : Surroundings)
    (shown clock : Nat) : IO Ended := do
  let ended := run words s
  match ended.linesToQuestion? s.answers.length with
  | none => finish shown clock
  | some count =>
      let lines := (ended.lines.take count).drop shown
      showLines clock lines
      let clock := lines.foldl (fun clock (time, _) => max clock time) clock
      match answersOf (← readLine (← IO.getStdin) ⟨#[]⟩) with
      | [answer] =>
          converse words route? { s with answers := s.answers ++ [answer] } count clock
      | _ => finish count clock
where
  finish (shown clock : Nat) : IO Ended := do
    let ended ← runWriting words route? s
    showLines clock (ended.lines.drop shown)
    return ended

end Cli
end ButtonFlow

open ButtonFlow in
def main (words : List String) : IO UInt32 := do
  let env : Cli.Environment :=
    ⟨← IO.getEnv "CLICKFLOW_DATA_DIR", ← IO.getEnv "CLICKFLOW_STEP_DELAY_MS",
      ← IO.getEnv "HOME", ← Cli.lookUpAccountHome⟩
  let workingDirectory := Cli.parts "/" (toString (← IO.currentDir))
  let route? :=
    match Cli.Invocation.read env words with
    | .ok inv => inv.storeRoute? env workingDirectory
    | .error _ => none
  let tree ← Cli.lookAlong FileTree.bare [] workingDirectory
  let tree ←
    match route? with
    | some route => Cli.lookAlong tree route.start route.names
    | none => pure tree
  let seed := hash (← IO.getRandomBytes 8).toList
  let color (n : Nat) : Nat := (mixHash seed (hash n)).toNat % Nat.pow 2 24
  let ended ← Cli.converse words route?
    { environment := env
      workingDirectory := workingDirectory
      tree := tree
      answers := []
      freshId := Action.idOf (← IO.getRandomBytes 16).toList
      draws := ⟨toString, color, 0, 0⟩ } 0 0
  return ended.exitCode.toUInt32
