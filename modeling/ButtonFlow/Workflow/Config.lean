import ButtonFlow.Json.Format

/-!
# Settings of an action

The settings are a dictionary of JSON values, usually texts. Whoever uses a setting sees it as
text, and only if it is truthy: the empty text, zero, `false`, `null`, arrays and objects count
as not set, so that the defaults of the action apply to them.
-/

namespace ButtonFlow

structure Config where
  entries : Dict Json.Value

namespace Config

def empty : Config := ⟨[]⟩

/-- A value as text, if it is truthy. -/
def truthyText? : Json.Value → Option String
  | .string s => if s.isEmpty then none else some s
  | .number n => if n.nonzero then some n.text else none
  | .bool true => some "true"
  | _ => none

def get? (config : Config) (key : String) : Option Json.Value :=
  Dict.get? config.entries key

def text? (config : Config) (key : String) : Option String :=
  (config.get? key).bind truthyText?

def textOr (config : Config) (key default : String) : String :=
  (config.text? key).getD default

def insert (config : Config) (key : String) (value : Json.Value) : Config :=
  ⟨Dict.insert config.entries key value⟩

def erase (config : Config) (key : String) : Config :=
  ⟨Dict.erase config.entries key⟩

/-- The settings of a list of pairs, where the last value of a key counts. -/
def ofList (pairs : List (String × Json.Value)) : Config :=
  ⟨Dict.ofList pairs⟩

def size (config : Config) : Nat :=
  config.entries.length

def isEmpty (config : Config) : Bool :=
  config.entries.isEmpty

def same (a b : Config) : Bool :=
  Json.Value.sameEntries a.entries b.entries

def format : Json.Format Config :=
  Json.Format.dict.convert Config.mk Config.entries

end Config

end ButtonFlow
