import ButtonFlow.Json.Format
import ButtonFlow.Store.FileTree

/-!
# Stores

A store keeps texts under keys. It lives in memory, or in memory and in one file: such a store
is read once when it is opened, and written as a whole on every change. The file holds one
object in spread form whose values are texts. A file that is no object counts as an empty
store; a value in it that is no text is kept as its compact text.

The memory is changed before the file is written, and stays changed if the writing fails.
Removing a key that is not there changes nothing and writes nothing.
-/

namespace ButtonFlow

open Json

/-- The keys on which a store in memory fails, and how. -/
structure Faults where
  reads : List String
  writes : List String
  cause : IoError

def Faults.none : Faults := ⟨[], [], .other ""⟩

inductive Store where
  | memory (entries : Dict String) (faults : Faults)
  | file (entries : Dict String) (route : Route) (tree : FileTree)

/-! ## The text of a store -/

namespace StoreText

/-- The text under which a value of the file is kept. -/
def valueText : Value → String
  | .string s => s
  | other => other.text

def write (entries : Dict String) : String :=
  (Value.object (Dict.mapValues .string entries)).spreadText

/-- The entries that a text holds; none if it is no object. -/
def read (text : String) : Dict String :=
  match Format.dict.parse text with
  | .ok entries => Dict.mapValues valueText entries
  | .error _ => []

end StoreText

namespace Store

def ofFile (tree : FileTree) (route : Route) : Except IoError Store :=
  match tree.readText route with
  | .ok text => .ok (.file (StoreText.read text) route tree)
  | .error .notFound => .ok (.file [] route tree)
  | .error e => .error e

/-- The files after the use of a store that lives in them; `tree` if it lives in memory. -/
def treeOr (tree : FileTree) : Store → FileTree
  | .memory .. => tree
  | .file _ _ tree => tree

def entries : Store → Dict String
  | .memory entries _ => entries
  | .file entries _ _ => entries

def keys (s : Store) : List String :=
  Dict.keys s.entries

def get (s : Store) (key : String) : Except IoError (Option String) :=
  match s with
  | .memory entries faults =>
      if key ∈ faults.reads then .error faults.cause else .ok (Dict.get? entries key)
  | .file entries _ _ => .ok (Dict.get? entries key)

def persist (entries : Dict String) (route : Route) (tree : FileTree) :
    Except IoError Unit × Store :=
  let (result, tree) := tree.writeText route (StoreText.write entries)
  (result, .file entries route tree)

def set (s : Store) (key value : String) : Except IoError Unit × Store :=
  match s with
  | .memory entries faults =>
      if key ∈ faults.writes then (.error faults.cause, s)
      else (.ok (), .memory (Dict.insert entries key value) faults)
  | .file entries route tree => persist (Dict.insert entries key value) route tree

def remove (s : Store) (key : String) : Except IoError Unit × Store :=
  match s with
  | .memory entries faults => (.ok (), .memory (Dict.erase entries key) faults)
  | .file entries route tree =>
      if Dict.contains entries key then persist (Dict.erase entries key) route tree
      else (.ok (), s)

end Store

end ButtonFlow
