import ButtonFlow.Cli.Parameter

/-!
# Words of the command line

The words behind the program's name, and those behind the name of a command, form two levels.
Each level knows its own options, the parameters that it takes by place, and the commands that
may follow. Reading the words of a level from the left finds the parameters that are given, up
to a word that begins a command, or that nothing takes.

A word that begins with two hyphens is an option, whose value follows after an equals sign or
as the next word. A word that begins with one hyphen holds letters of options. After the word
`--` every word is taken as it is.

The values of a parameter are checked when the next parameter begins. Only an unexpected word
is reported before what is wrong with the value in front of it.
-/

namespace ButtonFlow
namespace Cli

inductive CommandName where
  | show
  | kinds
  | add
  | remove
  | configure
  | move
  | label
  | clear
  | unset
  | click
  deriving DecidableEq

namespace CommandName

def word : CommandName → String
  | .show => "show"
  | .kinds => "kinds"
  | .add => "add"
  | .remove => "remove"
  | .configure => "configure"
  | .move => "move"
  | .label => "label"
  | .clear => "clear"
  | .unset => "unset"
  | .click => "click"

def all : List CommandName :=
  [.show, .kinds, .add, .remove, .configure, .move, .label, .clear, .unset, .click]

def ofWord? (word : String) : Option CommandName :=
  all.find? fun name => name.word == word

end CommandName

def helpWord : String := "help"

structure Level where
  options : List Parameter
  places : List Parameter
  hasCommands : Bool

namespace Level

/-- The options that can be given before and behind the name of a command. -/
def common : List Parameter := [.dataDirectory, .stepDelay, .help]

def outer : Level := ⟨.version :: common, [], true⟩

def inner : CommandName → Level
  | .show => ⟨.settings :: common, [], false⟩
  | .kinds => ⟨common, [], false⟩
  | .add => ⟨common, [.kind, .newSettings], false⟩
  | .remove => ⟨common, [.action], false⟩
  | .configure => ⟨common, [.action, .mergedSettings], false⟩
  | .move => ⟨common, [.source, .target], false⟩
  | .label => ⟨common, [.label], false⟩
  | .clear => ⟨common, [], false⟩
  | .unset => ⟨common, [.key], false⟩
  | .click => ⟨[.times, .denyClose] ++ common, [], false⟩

end Level

/-! ## The role of a word -/

inductive Role where
  | command (name : CommandName)
  | help
  /-- The word after which every word is taken as it is. -/
  | divider
  | option (p : Parameter) (value : Option String)
  | plain
  | wrong (e : UsageError)

namespace Level

def roleOfName (l : Level) (rest : List Char) : Role :=
  let name := String.ofList (rest.takeWhile (· ≠ '='))
  let value :=
    match rest.dropWhile (· ≠ '=') with
    | [] => none
    | _ :: value => some (String.ofList value)
  match l.options.find? fun p => p.optionName? == some name with
  | none => .wrong (.unexpected ("--" ++ name))
  | some p =>
      match p.valueName?, value with
      | none, some value => .wrong (.surplusValue p value)
      | none, none => .option p (some "")
      | some _, value => .option p value

def roleOfLetter (l : Level) (letter : Char) : Role :=
  match l.options.find? fun p => p.letter? == some letter with
  | none => .wrong (.unexpected (String.ofList ['-', letter]))
  | some p => .option p (some "")

def roleOfOther (l : Level) (word : String) : Role :=
  match word.toList with
  | ['-', '-'] => .divider
  | '-' :: '-' :: rest => l.roleOfName rest
  | '-' :: letter :: _ => l.roleOfLetter letter
  | _ => .plain

/-- The role of a word. A word that may be the value of the option before it names no
command. -/
def roleOf (l : Level) (isValue : Bool) (word : String) : Role :=
  if l.hasCommands && !isValue then
    if word = helpWord then .help
    else
      match CommandName.ofWord? word with
      | some name => .command name
      | none => l.roleOfOther word
  else l.roleOfOther word

def surplus (l : Level) (divided : Bool) (word : String) : UsageError :=
  if !l.hasCommands then .unexpected word
  else if divided && (word = helpWord || (CommandName.ofWord? word).isSome) then .unexpected word
  else .unknownCommand word

end Level

/-! ## The items of a level -/

structure Item where
  parameter : Parameter
  words : List String

def Item.waits (item : Item) : Bool :=
  item.parameter.isOption && item.words.isEmpty

inductive Ending where
  | finished
  | command (name : CommandName) (words : List String)
  | help (words : List String)
  | wrong (e : UsageError)

/-- What is found on a level: the items that are complete, the last one, which nothing has
completed, and the ending. -/
structure Scan where
  complete : List Item
  last : Option Item
  ending : Ending

def Scan.behind (items : List Item) (s : Scan) : Scan :=
  { s with complete := items ++ s.complete }

namespace Level

/-- Reads words on a level. `divided` says whether `--` stands before them, `last` is the item
that is not yet complete, and `places` are the places that are still to come. -/
def scanFrom (l : Level) (divided : Bool) (last : Option Item) (places : List Parameter) :
    List String → Scan
  | [] => ⟨[], last, .finished⟩
  | word :: words =>
      let isValue := last.any Item.waits
      match if divided then .plain else l.roleOf isValue word with
      | .command name => ⟨[], last, .command name words⟩
      | .help => ⟨[], last, .help words⟩
      | .wrong e => ⟨[], last, .wrong e⟩
      | .divider => l.scanFrom true last places words
      | .option p none => (l.scanFrom divided (some ⟨p, []⟩) places words).behind last.toList
      | .option p (some value) =>
          (l.scanFrom divided none places words).behind (last.toList ++ [⟨p, [value]⟩])
      | .plain =>
          match if divided then none else last.filter Item.waits, places with
          | some item, _ => l.scanFrom divided (some { item with words := [word] }) places words
          | none, [] => ⟨[], last, .wrong (l.surplus divided word)⟩
          | none, p :: later =>
              match if p.isRepeated then last.filter (·.parameter = p) else none with
              | some item =>
                  l.scanFrom divided (some ⟨p, item.words ++ [word]⟩) places words
              | none =>
                  let places := if p.isRepeated then places else later
                  (l.scanFrom divided (some ⟨p, [word]⟩) places words).behind last.toList

def scan (l : Level) (words : List String) : Scan :=
  l.scanFrom false none l.places words

end Level

end Cli
end ButtonFlow
