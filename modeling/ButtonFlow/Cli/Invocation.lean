import ButtonFlow.Cli.Words
import ButtonFlow.Run.Execute

/-!
# Invocations

What a command line and the environment ask for. The options that every command takes may be
given before and behind the name of the command, on each level once. The value behind the name
counts first, then the one before it, then the one in the environment.

A value of the environment is checked on each level on which the option is not given. The level
behind the name of a command is checked before the rest of the level before it.
-/

namespace ButtonFlow
namespace Cli

inductive Command where
  | show (settings : Bool)
  | kinds
  | edit (e : Edit)
  | unset (key : String)
  | click (times : Nat) (allowsClose : Bool)

structure Environment where
  dataDirectory? : Option String
  stepDelay? : Option String
  home? : Option String
  accountHome? : Option String

def Environment.text? (env : Environment) : Parameter → Option String
  | .dataDirectory => env.dataDirectory?
  | .stepDelay => env.stepDelay?
  | _ => none

/-- Why a command line asks for nothing. -/
inductive Refusal where
  | usage (e : UsageError)
  | version
  | help (name : Option CommandName)

/-- Parameters with the values that are given for them, in order. -/
abbrev Given := List ((p : Parameter) × p.Value)

namespace Given

def values (given : Given) (p : Parameter) : List p.Value :=
  given.filterMap fun ⟨q, value⟩ => if h : q = p then some (h ▸ value) else none

def value? (given : Given) (p : Parameter) : Option p.Value :=
  (given.values p).head?

def holds (given : Given) (p : Parameter) : Bool :=
  given.any fun ⟨q, _⟩ => q = p

def require (given : Given) (p : Parameter) : Except Refusal p.Value :=
  match given.value? p with
  | some value => .ok value
  | none => .error (.usage (.notGiven p))

def addWord (p : Parameter) (given : Given) (word : String) : Except Refusal Given :=
  match p.read word with
  | .ok value => .ok (given ++ [⟨p, value⟩])
  | .error e => .error (.usage e)

/-- Checks and adds an item. `name` is the command on whose level it stands, if it stands
behind one. -/
def addItem (name : Option CommandName) (given : Given) (item : Item) : Except Refusal Given :=
  let p := item.parameter
  if p = .help then .error (.help name)
  else if p = .version then .error .version
  else if item.words.isEmpty then .error (.usage (.noValue p))
  else if p.isOption && given.holds p then .error (.usage (.givenTwice p))
  else item.words.foldlM (addWord p) given

/-- Checks the environment for the options that are not given. -/
def checkEnvironment (given : Given) (env : Environment) : Except Refusal Unit :=
  [Parameter.dataDirectory, .stepDelay].forM fun p =>
    match env.text? p with
    | some word =>
        if given.holds p then .ok ()
        else
          match p.read word with
          | .ok _ => .ok ()
          | .error e => .error (.usage e)
    | none => .ok ()

def command (given : Given) : CommandName → Except Refusal Command
  | .show => .ok (.show (given.holds .settings))
  | .kinds => .ok .kinds
  | .add => do
      return .edit (.add (← given.require .kind) (given.values .newSettings))
  | .remove => do
      return .edit (.remove (← given.require .action))
  | .configure => do
      let action ← given.require .action
      let _ ← given.require .mergedSettings
      return .edit (.configure action (given.values .mergedSettings))
  | .move => do
      return .edit (.move (← given.require .source) (← given.require .target))
  | .label => do
      return .edit (.relabel (← given.require .label))
  | .clear => .ok (.edit .clear)
  | .unset => do
      return .unset (← given.require .key)
  | .click => .ok (.click ((given.value? .times).getD 1) (!given.holds .denyClose))

end Given

def helpTopic : List String → Refusal
  | [] => .help none
  | word :: words =>
      match CommandName.ofWord? word, words with
      | some name, [] => .help name
      | some _, word :: _ => .usage (.unknownCommand word)
      | none, [] => if word = helpWord then .help none else .usage (.unknownCommand word)
      | none, next :: _ =>
          .usage (.unknownCommand (if word = helpWord then next else word))

def CommandName.read (name : CommandName) (env : Environment) (words : List String) :
    Except Refusal (Given × Command) := do
  let scan := (Level.inner name).scan words
  let given ← scan.complete.foldlM (Given.addItem name) []
  match scan.ending with
  | .wrong e => .error (.usage e)
  | _ => do
      let given ← scan.last.toList.foldlM (Given.addItem name) given
      given.checkEnvironment env
      return (given, ← given.command name)

structure Invocation where
  dataDirectory? : Option String
  stepDelay : Nat
  command? : Option Command

namespace Invocation

def read (env : Environment) (words : List String) : Except Refusal Invocation := do
  let scan := Level.outer.scan words
  let outer ← scan.complete.foldlM (Given.addItem none) []
  let (inner, command) ←
    match scan.ending with
    | .wrong e => .error (.usage e)
    | .help words => .error (helpTopic words)
    | .command name words => do
        let (given, command) ← name.read env words
        pure (given, some command)
    | .finished => pure ([], none)
  let outer ← scan.last.toList.foldlM (Given.addItem none) outer
  outer.checkEnvironment env
  let value? (p : Parameter) : Option p.Value :=
    inner.value? p <|> outer.value? p <|> (env.text? p).bind fun word => (p.read word).toOption
  return ⟨value? .dataDirectory, (value? .stepDelay).getD usualDelay, command⟩

/-- The data directory: the usual one is `.clickflow` in the home directory. -/
def directory? (inv : Invocation) (env : Environment) : Option String :=
  inv.dataDirectory? <|>
    (env.home?.filter (!·.isEmpty) <|> env.accountHome?).map fun home =>
      Route.join home ".clickflow"

end Invocation

end Cli
end ButtonFlow
