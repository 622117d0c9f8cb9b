import ButtonFlow.Text.Terminal
import ButtonFlow.Workflow.Edit

/-!
# Parameters of the command line

Everything that can be given on the command line besides the name of a command. A parameter is
given by its name, as an option, or by its place behind the command. Each parameter has its own
sort of value, and reads it from a word.
-/

namespace ButtonFlow
namespace Cli

inductive Parameter where
  | dataDirectory
  | stepDelay
  | settings
  | times
  | denyClose
  | help
  | version
  | kind
  | newSettings
  | action
  | mergedSettings
  | source
  | target
  | label
  | key
  deriving DecidableEq

namespace Parameter

/-- The values of a parameter. An option without a value is either given or not. -/
abbrev Value : Parameter → Type
  | .dataDirectory | .action | .label | .key => String
  | .stepDelay | .times | .source | .target => Nat
  | .kind => Kind
  | .newSettings | .mergedSettings => Setting
  | .settings | .denyClose | .help | .version => Unit

/-- The name of an option; `none` if the parameter is given by its place. -/
def optionName? : Parameter → Option String
  | .dataDirectory => some "data-dir"
  | .stepDelay => some "step-delay-ms"
  | .settings => some "settings"
  | .times => some "times"
  | .denyClose => some "deny-close"
  | .help => some "help"
  | .version => some "version"
  | _ => none

def letter? : Parameter → Option Char
  | .help => some 'h'
  | .version => some 'V'
  | _ => none

/-- What stands for the value of a parameter in messages; `none` if it has no value. -/
def valueName? : Parameter → Option String
  | .dataDirectory => some "<DATA_DIR>"
  | .stepDelay => some "<STEP_DELAY_MS>"
  | .times => some "<TIMES>"
  | .kind => some "<KIND>"
  | .newSettings => some "[SETTINGS]..."
  | .action => some "<ACTION>"
  | .mergedSettings => some "<SETTINGS>..."
  | .source => some "<FROM>"
  | .target => some "<TO>"
  | .label => some "<LABEL>"
  | .key => some "<KEY>"
  | .settings | .denyClose | .help | .version => none

def isOption (p : Parameter) : Bool :=
  p.optionName?.isSome

/-- Whether a parameter that is given by its place takes all the words that follow. -/
def isRepeated : Parameter → Bool
  | .newSettings | .mergedSettings => true
  | _ => false

def shown (p : Parameter) : String :=
  match p.optionName?, p.valueName? with
  | some name, some value => "--" ++ name ++ " " ++ value
  | some name, none => "--" ++ name
  | none, value => value.getD ""

end Parameter

inductive ValueError where
  | whole (e : Decimal.WholeError)
  /-- A number that is not between zero and `last`. -/
  | outOfRange (n : Int) (last : Nat)
  | noEquals (word : String)
  | emptyKey (word : String)

def ValueError.message : ValueError → String
  | .whole e => e.message
  | .outOfRange n last => toString n ++ " is not in 0..=" ++ toString last
  | .noEquals word => "expected key=value, got '" ++ word ++ "'"
  | .emptyKey word => "empty key in '" ++ word ++ "'"

inductive UsageError where
  | unexpected (word : String)
  | unknownCommand (word : String)
  | badValue (p : Parameter) (word : String) (e : ValueError)
  | noValue (p : Parameter)
  | surplusValue (p : Parameter) (value : String)
  | givenTwice (p : Parameter)
  | notGiven (p : Parameter)

/-- The wording of an error. What the user wrote and the names of parameters are marked. -/
def UsageError.parts : UsageError → List Text.Part
  | .unexpected word => [.plain "unexpected argument '", .marked word, .plain "' found"]
  | .unknownCommand word => [.plain "unrecognized subcommand '", .marked word, .plain "'"]
  | .badValue p word e =>
      [.plain "invalid value '", .marked word, .plain "' for '", .marked p.shown,
        .plain ("': " ++ e.message)]
  | .noValue p =>
      [.plain "a value is required for '", .marked p.shown,
        .plain "' but none was supplied"]
  | .surplusValue p value =>
      [.plain "unexpected value '", .marked value, .plain "' for '", .marked p.shown,
        .plain "' found; no more were expected"]
  | .givenTwice p =>
      [.plain "the argument '", .marked p.shown, .plain "' cannot be used multiple times"]
  | .notGiven p =>
      [.plain "the following required arguments were not provided:\n  ", .marked p.shown]

/-- Reads a setting: the first equals sign ends the key. -/
def readSetting (word : String) : Except ValueError Setting :=
  let key := word.toList.takeWhile (· ≠ '=')
  match word.toList.dropWhile (· ≠ '=') with
  | [] => .error (.noEquals word)
  | _ :: text =>
      if key.isEmpty then .error (.emptyKey word)
      else .ok ⟨String.ofList key, String.ofList text⟩

def readUpTo (last : Nat) (word : String) : Except ValueError Nat :=
  match Decimal.readInteger signedBound word with
  | .error e => .error (.whole e)
  | .ok n => if 0 ≤ n ∧ n ≤ last then .ok n.toNat else .error (.outOfRange n last)

def readCount (word : String) : Except ValueError Nat :=
  (Decimal.readNatural wordBound word).mapError .whole

def Parameter.read (p : Parameter) (word : String) : Except UsageError p.Value :=
  match p with
  | .dataDirectory => if word.isEmpty then .error (.noValue .dataDirectory) else .ok word
  | .stepDelay => (readCount word).mapError (.badValue .stepDelay word)
  | .times => (readUpTo (countBound - 1) word).mapError (.badValue .times word)
  | .source => (readCount word).mapError (.badValue .source word)
  | .target => (readCount word).mapError (.badValue .target word)
  | .newSettings => (readSetting word).mapError (.badValue .newSettings word)
  | .mergedSettings => (readSetting word).mapError (.badValue .mergedSettings word)
  | .kind => .ok (Kind.ofTag word)
  | .action | .label | .key => .ok word
  | .settings | .denyClose | .help | .version => .ok ()

end Cli
end ButtonFlow
