import ButtonFlow.Proofs.Button.Results
import ButtonFlow.Proofs.Button.ServedClicks
import ButtonFlow.Proofs.Cli.EditRuns
import ButtonFlow.Proofs.Cli.Reader

/-!
# Clicks from the command line

Clicks that are queued from the command line come to the same as direct clicks on the same
store, in which the prompts are answered with the lines of the input. The fragments of the
results are what is written to the output, and the file of the store is left as the direct
clicks leave it.
-/

namespace ButtonFlow

/-!
## The output
-/

theorem World.fragments_eq_of_scene_eq {w w' : World} (h : w.scene = w'.scene) :
    w.fragments = w'.fragments := by
  have hdoings : ∀ w : World, w.doings = w.scene.history.map Moment.what := by
    intro w
    rw [World.history_scene]
    exact List.filter_map
  unfold World.fragments
  rw [hdoings, hdoings, h]

theorem World.filterMap_history (w : World) :
    w.history.filterMap (fun m => m.what.fragment?) = w.fragments := by
  rw [World.fragments, filterMap_fragment?, World.doings, ← eventsOf_eq, eventsOf,
    List.filterMap_filterMap]
  rfl

namespace Cli

def Line.output? : Line → Option String
  | .output text => some text
  | _ => none

/-- What is written to the output, every line of it with a line feed. -/
def Ended.written (ended : Ended) : String :=
  String.join ((ended.lines.filterMap fun line => line.2.output?).map (· ++ "\n"))

theorem output?_happeningLine? (allowsClose : Bool) (what : Happening) :
    (happeningLine? allowsClose what).bind Line.output? =
      what.fragment?.map Fragment.display := by
  cases what with
  | event e => cases e <;> rfl
  | _ => rfl

theorem output?_lines (allowsClose : Bool) (w : World) :
    (w.history.filterMap fun moment =>
        (happeningLine? allowsClose moment.what).map fun line => (moment.time, line)).filterMap
          (fun line => line.2.output?) =
      w.fragments.map Fragment.display := by
  rw [← w.filterMap_history, List.filterMap_filterMap, List.map_filterMap]
  congr 1
  funext moment
  rw [← output?_happeningLine? allowsClose, Option.bind_map]
  rfl

theorem written_clickButton (schedule : Schedule) (times : Nat) (allowsClose : Bool) (delay : Nat)
    (s : Surroundings) (store : Store) :
    (clickButton schedule times allowsClose delay s store).written =
      String.join ((served delay (clickWorld schedule times allowsClose s store)).fragments.map
        fun f => f.display ++ "\n") := by
  unfold clickButton served Ended.written
  generalize Button.make Slot.usual delay (clickWorld schedule times allowsClose s store) = made
  rcases made with ⟨button, w⟩
  dsimp only
  generalize (Session.run button w).2.2 = w'
  rw [List.cons_append, List.filterMap_cons_none rfl, List.filterMap_append, output?_lines,
    List.filterMap_cons_none rfl, List.filterMap_nil, List.append_nil, List.map_map]
  rfl

/-!
## Direct clicks
-/

/-- The world in which somebody clicks directly. The prompts are answered with the lines of a
text, and dismissed after the last one. -/
def directWorld (text : String) (allowsClose : Bool) (draws : Draws) (store : Store) : World :=
  { World.fresh store
      { Host.prompt [] allowsClose with answer := fun prompt => (lines text)[prompt]? } [] with
    draws := draws }

/-- Whether the session comes to its end in which the button of the usual slot is clicked. -/
def sessionEnds (delay : Nat) (w : World) : Bool :=
  let made := Button.make Slot.usual delay w
  (Session.run made.1 made.2).1

theorem shows_directWorld (text : String) (allowsClose : Bool) (draws : Draws) (store : Store) :
    World.Shows
      (fun plan queue => plan = [] ∧ queue = (directWorld text allowsClose draws store).queue)
      (directWorld text allowsClose draws store).scene
      (directWorld text allowsClose draws store) :=
  ⟨rfl, rfl, fun _ => rfl, fun _ => rfl, rfl, rfl⟩

theorem shows_clickWorld {text : String} (schedule : Schedule) (times : Nat) (allowsClose : Bool)
    (s : Surroundings) (store : Store) (hinput : Reader.Feeds text.toUTF8 s.answers)
    (hcalm : s.interruption = none) :
    World.Shows (Clicking times) (directWorld text allowsClose s.draws store).scene
      (clickWorld schedule times allowsClose s store) := by
  have hanswers : (Host.prompt (s.answers.map some) allowsClose).answer =
      fun prompt => (lines text)[prompt]? := by
    funext prompt
    change (s.answers.map some)[prompt]?.join = _
    rw [← hinput.getElem?_eq, List.getElem?_map]
    cases s.answers[prompt]? <;> rfl
  have hscene : (clickWorld schedule times allowsClose s store).scene =
      (directWorld text allowsClose s.draws store).scene :=
    congrArg (fun answer => Scene.mk 0 store { Host.prompt [] allowsClose with answer := answer }
      s.draws (View.initial .initial) []) hanswers
  have hroom : 1 ≤ queueCapacity := by decide
  have hclicking : Clicking times (clickWorld schedule times allowsClose s store).plan
      ⟨0, queueCapacity, true, true⟩ := by
    have hplan : (clickWorld schedule times allowsClose s store).plan =
        [⟨0, .click times⟩, ⟨0, .leave⟩] := congrArg (clickPlan times) hcalm
    rw [hplan]
    exact .clicking (Nat.zero_add times) hroom
  exact ⟨hscene, rfl, fun _ => rfl, fun _ => rfl, hclicking⟩

theorem exists_direct (delay : Nat) {times : Nat} {w direct : World}
    (hclicking : World.Shows (Clicking times) direct.scene w)
    (hdirect : World.Shows (fun plan queue => plan = [] ∧ queue = direct.queue) direct.scene
      direct) :
    let made := Button.make Slot.usual delay direct
    ∃ b last, made.1.clicks times made.2 = some (b, last) ∧
      sessionEnds delay w = true ∧ (served delay w).scene = last.scene := by
  intro made
  have hidle := World.harmless_idle direct.queue
  rcases hclicking.make (World.harmless_clicking times) Slot.usual delay with ⟨hbutton, hmade⟩
  rcases hdirect.make hidle Slot.usual delay with ⟨hdirectButton, hdirectMade⟩
  rcases Session.exists_run hidle made.1 (.showing hmade hdirectMade) with
    ⟨b, w', last, hrun, hlast, htogether⟩
  have hsession :
      Session.run (Button.make Slot.usual delay w).1 (Button.make Slot.usual delay w).2 =
        (true, b, w') := by
    rw [hbutton, ← hdirectButton]
    exact hrun
  refine ⟨b, last, hlast, ?_, ?_⟩
  · unfold sessionEnds
    dsimp only
    rw [hsession]
  · unfold served
    dsimp only
    rw [hsession]
    exact htogether.scene_eq

/-!
## The command
-/

/-- Whatever turns visitor, runs and reader take, the command ends well if it is not
interrupted. It writes the fragments of the direct clicks, and leaves the files that they
leave. -/
theorem runBy_click {start : Start} {inv : Invocation} {times : Nat} {allowsClose : Bool}
    {tree : FileTree} {s : Store} {text : String} (schedule : Schedule)
    (hread : start.Reads inv) (hcommand : inv.command? = some (.click times allowsClose))
    (hopens : start.Opens inv tree s) (hinput : Reader.Feeds text.toUTF8 start.answers)
    (hcalm : start.interruption = none) :
    let ended := start.runBy schedule tree
    let made := Button.make Slot.usual inv.stepDelay (directWorld text allowsClose start.draws s)
    ∃ results direct, made.1.results times made.2 = some (results, direct) ∧
      sessionEnds inv.stepDelay
        (clickWorld schedule times allowsClose (start.surroundings tree) s) = true ∧
      ended.exitCode = 0 ∧
      ended.written =
        String.join ((results.flatMap RunResult.fragments).map fun f => f.display ++ "\n") ∧
      ended.tree = direct.store.treeOr tree := by
  intro ended made
  have hclicking : World.Shows (Clicking times) (directWorld text allowsClose start.draws s).scene
      (clickWorld schedule times allowsClose (start.surroundings tree) s) :=
    shows_clickWorld schedule times allowsClose (start.surroundings tree) s hinput hcalm
  rcases exists_direct inv.stepDelay hclicking
      (shows_directWorld text allowsClose start.draws s) with
    ⟨b, direct, hclicks, hends, hlast⟩
  rcases Button.exists_results hclicks with ⟨results, hresults⟩
  have hended : ended = clickButton schedule times allowsClose inv.stepDelay
      (start.surroundings tree) s := Start.runBy_of_opens schedule hread hcommand hopens
  have hfragments : direct.fragments = results.flatMap RunResult.fragments := by
    rw [Button.fragments_results hresults, Button.fragments_make]
    rfl
  refine ⟨results, direct, hresults, hends, ?_, ?_, ?_⟩
  · rw [hended]
    rfl
  · rw [hended, written_clickButton, World.fragments_eq_of_scene_eq hlast, hfragments]
  · rw [hended, tree_clickButton]
    exact congrArg (fun scene : Scene => scene.store.treeOr tree) hlast

/-! A button that asks for a name and wants to close the window is clicked more often than
clicks can wait. There are two answers in the input, and the window may not be closed. -/

def askingText : String :=
  "\x7b\"buttonWorkflow\": \x7b\"actions\": " ++
  "[\x7b\"id\": \"a\", \"type\": \"promptAndShow\"\x7d, " ++
  "\x7b\"id\": \"b\", \"type\": \"closeWindow\"\x7d]\x7d\x7d"

def askingTree : FileTree :=
  (FileTree.bare.put ["data"] .directory).put ["data", "local_storage.json"]
    (.file askingText.toUTF8)

def askingStart : Start :=
  { rootStart ["click", "--data-dir=data", "--times", "18", "--deny-close"] with
    answers := ["Ada", "Bob"] }

def askingInvocation : Invocation := ⟨some "data", 300, some (.click 18 false)⟩

theorem opens_askingStart :
    askingStart.Opens askingInvocation askingTree
      (.file (StoreText.read askingText) dataRoute askingTree) :=
  ⟨dataRoute, rfl, Store.ofFile_of_readText (FileTree.readText_of_contents rfl)⟩

theorem feeds_askingStart : Reader.Feeds "Ada\x0d\nBob".toUTF8 askingStart.answers := by
  rw [Reader.feeds_iff, answersOf_toUTF8]
  decide +kernel

theorem runBy_click_asking :
    let ended := askingStart.runBy Schedule.usual askingTree
    ended.exitCode = 0 ∧ ended.written = "Ada\nBob\n" := by
  have hread : askingStart.Reads askingInvocation := rfl
  rcases runBy_click Schedule.usual hread rfl opens_askingStart feeds_askingStart rfl with
    ⟨results, direct, hresults, _, hcode, hwritten, _⟩
  have hdirect :
      let made := Button.make Slot.usual 300 (directWorld "Ada\x0d\nBob" false askingStart.draws
        (.file (StoreText.read askingText) dataRoute askingTree))
      (made.1.results 18 made.2).map (fun found => found.1.flatMap RunResult.fragments) =
        some [.text "Ada", .text "Bob"] := by
    decide +kernel
  have hfound := congrArg (Option.map fun found => found.1.flatMap RunResult.fragments) hresults
  have hfragments : results.flatMap RunResult.fragments = [.text "Ada", .text "Bob"] :=
    Option.some.inj (hfound.symm.trans hdirect)
  refine ⟨hcode, hwritten.trans ?_⟩
  rw [hfragments]
  rfl

end Cli

end ButtonFlow
