/-!
# Dictionaries

A dictionary lists its keys in ascending order, each key once. Strings are ordered by their
code points, which is the order of their UTF-8 bytes. Every dictionary is built by `insert` and
`erase`, which keep the order.
-/

namespace ButtonFlow

/-- Keys with their values, in ascending order of the keys. -/
abbrev Dict (α : Type) := List (String × α)

namespace Dict

variable {α β : Type}

/-- Each key stands before all larger keys, and only once. -/
def Sorted (d : Dict α) : Prop :=
  d.Pairwise fun a b => a.1 < b.1

def insert (d : Dict α) (key : String) (value : α) : Dict α :=
  match d with
  | [] => [(key, value)]
  | (k, v) :: rest =>
      if key < k then (key, value) :: (k, v) :: rest
      else if key = k then (key, value) :: rest
      else (k, v) :: insert rest key value

def erase (d : Dict α) (key : String) : Dict α :=
  d.filter fun entry => entry.1 != key

def get? (d : Dict α) (key : String) : Option α :=
  (d.find? fun entry => entry.1 == key).map (·.2)

def contains (d : Dict α) (key : String) : Bool :=
  (d.get? key).isSome

def keys (d : Dict α) : List String :=
  d.map (·.1)

/-- The dictionary of a list of pairs, where the last value of a key counts. -/
def ofList (pairs : List (String × α)) : Dict α :=
  pairs.foldl (fun d pair => d.insert pair.1 pair.2) []

def mapValues (f : α → β) (d : Dict α) : Dict β :=
  d.map fun entry => (entry.1, f entry.2)

end Dict

end ButtonFlow
