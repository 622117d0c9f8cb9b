import ButtonFlow.Button.Session
import ButtonFlow.Cli.Invocation

/-!
# The screen

What the program shows, line by line: results go to the output, and everything else is a notice
beside it. A question is a notice after which the user types an answer, and what goes wrong in
a run is an entry of the log.

An answer is one line of the input. Where the input ends, or is no UTF-8, there are no more
answers.
-/

namespace ButtonFlow
namespace Cli

inductive Line where
  | output (text : String)
  | notice (text : String)
  | question (text : String)
  | log (text : String)
  deriving DecidableEq

def Line.text : Line → String
  | .output text | .notice text | .question text | .log text => text

/-! ## Lines about edits -/

def noteText : EditNote → String
  | .unknownKind tag =>
      "Warning: '" ++ tag ++ "' is not a known action type, it will be skipped when run"
  | .unusedSetting id tag key =>
      let id :=
        match id with
        | some id => "Some(" ++ Text.debug id ++ ")"
        | none => "None"
      "WARN clickflow: setting not used by this action type action_id=" ++ id ++ " kind=" ++ tag
        ++ " key=" ++ key
  | .added id => "Added " ++ id
  | .removed position id => "Removed action " ++ toString position ++ " (" ++ id ++ ")"

def editErrorText : EditError → String
  | .noSuchAction target => "no action with id or position '" ++ target ++ "'"
  | .noSuchPosition count => "positions must be between 1 and " ++ toString count

/-! ## Lines about runs -/

def boolText : Bool → String
  | true => "true"
  | false => "false"

def eventLine? : Event → Option Line
  | .runStarted _ actions =>
      some (.notice ("--- click (" ++ toString actions ++ " actions) ---"))
  | .fragmentAdded _ _ fragment => some (.output fragment.display)
  | .presentationChanged _ _ p =>
      some (.notice ("[button] scale=" ++ p.scaleText ++ " color=" ++ p.colorText
        ++ " disabled=" ++ boolText p.disabled))
  | .stepSkipped _ index _ reason =>
      some (.notice ("[skip] step " ++ toString (index + 1) ++ ": " ++ reason))
  | .runCancelled _ => some (.notice "--- cancelled ---")
  | .stepStarted .. | .runCompleted .. => none

def happeningLine? (allowsClose : Bool) : Happening → Option Line
  | .event e => eventLine? e
  | .alert message => some (.notice ("[alert] " ++ message))
  | .prompt message => some (.question ("[prompt] " ++ message))
  | .diagnosed d tag =>
      some (.log ("WARN clickflow: step went wrong action_id=" ++ d.actionId ++ " kind=" ++ tag
        ++ " " ++ d.message))
  | .reload => some (.notice "[reload] reloading saved workflow")
  | .closeRequest =>
      some (.notice
        (if allowsClose then "[close] window closed" else "[close] close request denied"))
  | _ => none

def viewText (v : View) : String :=
  "Button '" ++ v.label ++ "': " ++ toString v.runs ++ " run(s), scale="
    ++ v.presentation.scaleText ++ ", color=" ++ v.presentation.colorText ++ ", disabled="
    ++ boolText v.presentation.disabled

/-! ## Errors -/

/-- The lines for an error and its causes, the nearest first. -/
def errorLines (message : String) (causes : List String) : List String :=
  let numbered :=
    match causes with
    | [cause] => ["    " ++ cause]
    | _ => causes.zipIdx.map fun (cause, n) => "    " ++ toString n ++ ": " ++ cause
  ("Error: " ++ message) :: if causes.isEmpty then [] else "" :: "Caused by:" :: numbered

def ioCauses (e : IoError) : List String :=
  ["io error: " ++ e.message, e.message]

/-! ## Answers of the user -/

/-- The lines of an input, each with what ends it. -/
def inputLines : List UInt8 → List (List UInt8)
  | [] => []
  | b :: rest =>
      if b = 10 then [b] :: inputLines rest
      else
        match inputLines rest with
        | [] => [[b]]
        | line :: lines => (b :: line) :: lines

def withoutEnd (line : List UInt8) : List UInt8 :=
  match line.reverse with
  | 10 :: 13 :: rest => rest.reverse
  | 10 :: rest => rest.reverse
  | _ => line

def answer? (line : List UInt8) : Option String :=
  String.fromUTF8? ⟨(withoutEnd line).toArray⟩

def answersOf (input : ByteArray) : List String :=
  (((inputLines input.toList).map answer?).takeWhile Option.isSome).filterMap id

end Cli
end ButtonFlow
