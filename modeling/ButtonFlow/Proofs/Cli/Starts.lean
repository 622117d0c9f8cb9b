import ButtonFlow.Cli.Program
import ButtonFlow.Proofs.Except

/-!
# Starts of the program

A start carries out one command of its words, if it gets that far: the words may be wrong, the
store may have no place, and the file in that place may be no store. Whatever stops it shows
lines and leaves the files as they are.
-/

namespace ButtonFlow

namespace Cli

structure Start where
  words : List String
  environment : Environment
  workingDirectory : Path
  answers : List String
  freshId : String
  draws : Draws
  interruption : Option Interruption := none

namespace Start

def surroundings (start : Start) (tree : FileTree) : Surroundings :=
  ⟨start.environment, start.workingDirectory, tree, start.answers, start.freshId, start.draws,
    start.interruption⟩

def run (start : Start) (tree : FileTree) : Ended :=
  Cli.run start.words (start.surroundings tree)

def runBy (start : Start) (schedule : Schedule) (tree : FileTree) : Ended :=
  Cli.runBy schedule start.words (start.surroundings tree)

def Reads (start : Start) (inv : Invocation) : Prop :=
  Invocation.read start.environment start.words = .ok inv

/-- The store that an invocation opens among these files. -/
def Opens (start : Start) (inv : Invocation) (tree : FileTree) (s : Store) : Prop :=
  ∃ route, inv.storeRoute? start.environment start.workingDirectory = some route ∧
    Store.ofFile tree route = .ok s

variable {start : Start} {inv : Invocation} {tree : FileTree} {s : Store}

theorem Opens.unique {s' : Store} (h : start.Opens inv tree s) (h' : start.Opens inv tree s') :
    s = s' := by
  rcases h with ⟨route, hroute, hopen⟩
  rcases h' with ⟨route', hroute', hopen'⟩
  rw [hroute] at hroute'
  cases hroute'
  rw [hopen] at hopen'
  exact Except.ok.inj hopen'

theorem tree_runBy_of_error {refusal : Refusal} (schedule : Schedule)
    (hread : Invocation.read start.environment start.words = .error refusal) :
    (start.runBy schedule tree).tree = tree := by
  have hrun : start.runBy schedule tree = refusal.ended tree := by
    rw [runBy, Cli.runBy, surroundings, hread]
  rw [hrun]
  cases refusal <;> rfl

theorem runBy_of_reads (schedule : Schedule) (tree : FileTree) (hread : start.Reads inv) :
    start.runBy schedule tree = inv.perform schedule (start.surroundings tree) := by
  rw [runBy, Cli.runBy, surroundings, hread]

theorem runBy_of_opens {command : Command} (schedule : Schedule) (hread : start.Reads inv)
    (hcommand : inv.command? = some command) (hopens : start.Opens inv tree s) :
    start.runBy schedule tree =
      command.perform schedule inv.stepDelay (start.surroundings tree) s := by
  rcases hopens with ⟨route, hroute, hopen⟩
  rcases Option.bind_eq_some_iff.mp hroute with ⟨directory, hdirectory, hroute⟩
  have hroute := toOption_eq_some.mp hroute
  rw [runBy_of_reads schedule tree hread, Invocation.perform]
  simp only [surroundings, hdirectory, hcommand, hroute, Except.bind, hopen]

theorem runBy_cases (schedule : Schedule) (hread : start.Reads inv) :
    (start.runBy schedule tree).tree = tree ∨
      ∃ command s, inv.command? = some command ∧ start.Opens inv tree s ∧
        start.runBy schedule tree =
          command.perform schedule inv.stepDelay (start.surroundings tree) s := by
  rw [runBy_of_reads schedule tree hread, Invocation.perform]
  split
  · exact Or.inl rfl
  · exact Or.inl rfl
  · rename_i directory command hdirectory hcommand
    dsimp only
    split
    · exact Or.inl rfl
    · rename_i s hopen
      rcases bind_eq_ok.mp hopen with ⟨route, hroute, hstore⟩
      have hplace : inv.storeRoute? start.environment start.workingDirectory = some route :=
        Option.bind_eq_some_iff.mpr ⟨directory, hdirectory, toOption_eq_some.mpr hroute⟩
      exact Or.inr ⟨command, s, hcommand, ⟨route, hplace, hstore⟩, rfl⟩

end Start

/-!
## Clicks
-/

/-- The world after the button of the usual slot was loaded and its clicks were served. -/
def served (delay : Nat) (w : World) : World :=
  let made := Button.make Slot.usual delay w
  (Session.run made.1 made.2).2.2

theorem tree_clickButton (schedule : Schedule) (times : Nat) (allowsClose : Bool) (delay : Nat)
    (s : Surroundings) (store : Store) :
    (clickButton schedule times allowsClose delay s store).tree =
      (served delay (clickWorld schedule times allowsClose s store)).store.treeOr s.tree := by
  unfold clickButton served
  generalize Button.make Slot.usual delay (clickWorld schedule times allowsClose s store) = made
  rcases made with ⟨button, w⟩
  dsimp only

end Cli

end ButtonFlow
