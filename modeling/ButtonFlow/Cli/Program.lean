import ButtonFlow.Cli.Preview
import ButtonFlow.Cli.Screen

/-!
# The program

A command line is carried out on the file of a data directory. What the program shows, its exit
code and the files that it leaves behind are a function of what it finds when it is started.

An edit takes the saved workflow, or an empty one if there is none that can be read, and saves
the result. Nothing is saved if the edit is refused.
-/

namespace ButtonFlow

namespace Cli

/-- Ctrl-C, which is pressed at a time or later: after so many of the clicks were queued, or
when the program has let go of the button. -/
inductive Interruption where
  | clicking (time clicks : Nat)
  | left (time : Nat)

structure Surroundings where
  environment : Environment
  workingDirectory : Path
  tree : FileTree
  answers : List String
  freshId : String
  draws : Draws
  interruption : Option Interruption := none

structure Ended where
  lines : List (Nat × Line)
  exitCode : Nat
  tree : FileTree

namespace Ended

def now (lines : List Line) (exitCode : Nat) (tree : FileTree) : Ended :=
  ⟨lines.map fun line => (0, line), exitCode, tree⟩

def failed (lines : List Line) (message : String) (causes : List String) (tree : FileTree) :
    Ended :=
  now (lines ++ (errorLines message causes).map .notice) 1 tree

/-- How many lines come up to question number `n`, counted from zero, and with it; `none` if
there is no such question. -/
def linesToQuestion? (n : Nat) (ended : Ended) : Option Nat :=
  let questions := ended.lines.zipIdx.filterMap fun (line, index) =>
    match line.2 with
    | .question _ => some (index + 1)
    | _ => none
  questions[n]?

end Ended

/-! ## Words that ask for nothing -/

def CommandName.summary : CommandName → String
  | .show => "Preview the saved workflow and the stored values"
  | .kinds => "List the available action types and their settings"
  | .add => "Append an action to the workflow"
  | .remove => "Remove an action"
  | .configure => "Change an action's settings (an empty value removes the setting)"
  | .move => "Move an action to another position (1-based)"
  | .label => "Set the button label"
  | .clear => "Remove every action"
  | .unset => "Delete a stored value"
  | .click => "Click the button"

def Level.helpLines (l : Level) : List String :=
  (l.places ++ l.options).map fun p => "  " ++ p.shown

def helpLines : Option CommandName → List String
  | none =>
      ["Clickflow - build a button workflow and click it", "",
        "Usage: clickflow [OPTIONS] [COMMAND]", "", "Commands:"]
        ++ (CommandName.all.map fun name => "  " ++ name.word ++ ": " ++ name.summary)
        ++ ["", "Options:"] ++ Level.outer.helpLines
  | some name =>
      [name.summary, "", "Usage: clickflow " ++ name.word ++ " [OPTIONS]", "", "Arguments:"]
        ++ (Level.inner name).helpLines

def UsageError.message (e : UsageError) : List Text.Part :=
  [.marked "error:", .plain " "] ++ e.parts
    ++ [.plain "\n\nFor more information, try '", .marked "--help", .plain "'."]

def Refusal.ended (tree : FileTree) : Refusal → Ended
  | .usage e => .now (((Text.shownParts e.message).splitOn "\n").map .notice) 2 tree
  | .version => .now [.output "clickflow 0.0.1-alpha.0"] 0 tree
  | .help name => .now ((helpLines name).map .output) 0 tree

/-! ## Commands -/

/-- The saved workflow, or the initial one and a notice why. `remark` ends the notice. -/
def loadOrExplain (missing : List Line) (remark : String) (store : Store) :
    List Line × Workflow :=
  match Slot.load? Slot.usual store with
  | .ok (some w) => ([], w)
  | .ok none => (missing, .initial)
  | .error e =>
      ([.notice ("Saved workflow is unreadable (" ++ e.message ++ "), " ++ remark)], .initial)

def showStore (settings : Bool) (store : Store) : List Line :=
  let (lines, w) :=
    loadOrExplain [.notice "No saved workflow, showing the default"] "showing the default" store
  lines ++ (w.preview settings ++ storedPreview store.entries).map .output

def editStore (fresh : String) (e : Edit) (store : Store) (tree : FileTree) : Ended :=
  let (lines, w) := loadOrExplain [] "starting from an empty one" store
  let (notes, result) := e.apply fresh w
  let lines := lines ++ notes.map fun note => .notice (noteText note)
  match result with
  | .error e => .failed lines (editErrorText e) [] tree
  | .ok w =>
      match Slot.save Slot.usual store w with
      | (.error e, store) =>
        .failed lines "failed to save workflow" (ioCauses e) (store.treeOr tree)
      | (.ok (), store) =>
          .now (lines ++ (w.preview false).map .output) 0 (store.treeOr tree)

def unsetKey (key : String) (store : Store) (tree : FileTree) : Ended :=
  match store.remove key with
  | (.ok (), store) => .now [.notice ("Removed '" ++ key ++ "'")] 0 (store.treeOr tree)
  | (.error e, store) =>
      .failed [] ("failed to remove '" ++ key ++ "'") (ioCauses e) (store.treeOr tree)

def queueCapacity : Nat := 16

/-- The button is clicked some times and then left alone. Ctrl-C cancels the token. -/
def clickPlan (times : Nat) : Option Interruption → List Cue
  | none => [⟨0, .click times⟩, ⟨0, .leave⟩]
  | some (.clicking time clicks) =>
      [⟨0, .click (min clicks times)⟩, ⟨time, .cancel⟩, ⟨0, .click (times - clicks)⟩, ⟨0, .leave⟩]
  | some (.left time) => [⟨0, .click times⟩, ⟨0, .leave⟩, ⟨time, .cancel⟩]

def clickWorld (schedule : Schedule) (times : Nat) (allowsClose : Bool) (s : Surroundings)
    (store : Store) : World :=
  let host := Host.prompt (s.answers.map some) allowsClose
  { World.fresh store host (clickPlan times s.interruption) with
    draws := s.draws
    queue := ⟨0, queueCapacity, true, true⟩
    schedule := schedule }

def clickButton (schedule : Schedule) (times : Nat) (allowsClose : Bool) (delay : Nat)
    (s : Surroundings) (store : Store) : Ended :=
  let (button, w) := Button.make Slot.usual delay (clickWorld schedule times allowsClose s store)
  let loaded := Line.notice ("Loaded button: " ++ button.workflow.label)
  let (_, _, w) := Session.run button w
  let lines := w.history.filterMap fun moment =>
    (happeningLine? allowsClose moment.what).map fun line => (moment.time, line)
  ⟨(0, loaded) :: lines ++ [(w.clock, .notice (viewText w.view))], 0, w.store.treeOr s.tree⟩

def Command.perform (schedule : Schedule) (delay : Nat) (s : Surroundings) (store : Store) :
    Command → Ended
  | .show settings => .now (showStore settings store) 0 s.tree
  | .kinds => .now ((Kind.catalogue.flatMap Kind.preview).map .output) 0 s.tree
  | .edit e => editStore s.freshId e store s.tree
  | .unset key => unsetKey key store s.tree
  | .click times allowsClose => clickButton schedule times allowsClose delay s store

namespace Invocation

def storeFile (directory : String) : String :=
  Route.join directory "local_storage.json"

def storeRoute? (inv : Invocation) (env : Environment) (workingDirectory : Path) : Option Route :=
  (inv.directory? env).bind fun directory =>
    (Route.ofText workingDirectory (storeFile directory)).toOption

def perform (inv : Invocation) (schedule : Schedule) (s : Surroundings) : Ended :=
  match inv.directory? s.environment, inv.command? with
  | none, _ => .failed [] "could not determine home directory" [] s.tree
  | some _, none =>
      .now [.output "clickflow - use --help to see available commands"] 0 s.tree
  | some directory, some command =>
      let file := storeFile directory
      match (Route.ofText s.workingDirectory file).bind (Store.ofFile s.tree) with
      | .error e => .failed [] ("failed to open store: " ++ file) (ioCauses e) s.tree
      | .ok store => command.perform schedule inv.stepDelay s store

end Invocation

/-- Carries a command line out. A schedule decides how clicks and runs take turns. -/
def runBy (schedule : Schedule) (words : List String) (s : Surroundings) : Ended :=
  match Invocation.read s.environment words with
  | .error refusal => refusal.ended s.tree
  | .ok inv => inv.perform schedule s

def run (words : List String) (s : Surroundings) : Ended :=
  runBy Schedule.usual words s

end Cli
end ButtonFlow
