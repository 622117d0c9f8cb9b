import ButtonFlow.Decimal.Whole
import ButtonFlow.Workflow.Basic

/-!
# Edits

The ways in which a user changes a workflow. An action is meant by its id, or by its position
counted from one if no action has the text as its id. A setting is given as a key and a text,
where the empty text means that the key is not to be set.

Besides the new workflow an edit has notes for the user, also about settings that the kind of
the action does not use. They are kept all the same.
-/

namespace ButtonFlow

structure Setting where
  key : String
  text : String
  deriving DecidableEq

inductive Edit where
  | add (kind : Kind) (settings : List Setting)
  | remove (target : String)
  | configure (target : String) (settings : List Setting)
  /-- Moves an action from one position to another, both counted from one. -/
  | move (source target : Nat)
  | relabel (label : String)
  | clear

inductive EditNote where
  | unknownKind (tag : String)
  /-- A setting that a kind does not use; the id is missing for a new action. -/
  | unusedSetting (id : Option String) (tag key : String)
  | added (id : String)
  | removed (position : Nat) (id : String)
  deriving DecidableEq

inductive EditError where
  | noSuchAction (target : String)
  | noSuchPosition (count : Nat)
  deriving DecidableEq

namespace Config

/-- Sets a key to a text, or removes it for the empty text. -/
def set (config : Config) (setting : Setting) : Config :=
  if setting.text.isEmpty then config.erase setting.key
  else config.insert setting.key (.string setting.text)

def merge (config : Config) (settings : List Setting) : Config :=
  settings.foldl set config

/-- The settings of a new action: those whose text is not empty. -/
def ofSettings (settings : List Setting) : Config :=
  ofList ((settings.filter fun setting => !setting.text.isEmpty).map fun setting =>
    (setting.key, .string setting.text))

end Config

def Kind.uses (kind : Kind) (key : String) : Bool :=
  kind.fields.any fun field => field.key == key

def unusedNotes (id : Option String) (kind : Kind) (settings : List Setting) : List EditNote :=
  (settings.filter fun setting => !kind.uses setting.key).map fun setting =>
    .unusedSetting id kind.tag setting.key

namespace Workflow

/-- The id of the action that a text means. -/
def resolve? (w : Workflow) (target : String) : Option String :=
  if (w.find? target).isSome then some target
  else
    match Decimal.readNatural wordBound target with
    | .ok (n + 1) => w.actions[n]?.map (·.id)
    | _ => none

def addWith (w : Workflow) (id : String) (kind : Kind) (settings : List Setting) : Workflow :=
  let w := w.add id kind
  let config := Config.ofSettings settings
  if config.isEmpty then w else w.configure id config

/-- Merges settings into those of the first action with an id. -/
def merge (w : Workflow) (id : String) (settings : List Setting) : Workflow :=
  match w.find? id with
  | some action => w.configure id (action.config.merge settings)
  | none => w

end Workflow

namespace Edit

/-- The notes of an edit and the workflow after it. `fresh` is the id of an action that is
added. -/
def apply (fresh : String) (w : Workflow) : Edit → List EditNote × Except EditError Workflow
  | .add kind settings =>
      let unknown := if kind.isKnown then [] else [EditNote.unknownKind kind.tag]
      (unknown ++ unusedNotes none kind settings ++ [.added fresh],
        .ok (w.addWith fresh kind settings))
  | .remove target =>
      match w.resolve? target with
      | none => ([], .error (.noSuchAction target))
      | some id =>
          ((w.position? id).toList.map fun n => .removed (n + 1) id, .ok (w.remove id))
  | .configure target settings =>
      match w.resolve? target with
      | none => ([], .error (.noSuchAction target))
      | some id =>
          let notes := (w.find? id).toList.flatMap fun action =>
            unusedNotes (some id) action.kind settings
          (notes, .ok (w.merge id settings))
  | .move source target =>
      let count := w.actions.length
      if 1 ≤ source ∧ source ≤ count ∧ 1 ≤ target ∧ target ≤ count then
        ([], .ok (w.move (source - 1) (target - 1)))
      else ([], .error (.noSuchPosition count))
  | .relabel label => ([], .ok (w.relabel label))
  | .clear => ([], .ok w.clear)

end Edit

end ButtonFlow
