import ButtonFlow.Proofs.Run.Grammar
import ButtonFlow.Proofs.Run.Quiet

/-!
# Runs one after the other

A run of two lists of actions, one behind the other, is a run of the first list and then a run
of the second, which finds the presentation, the store and the host as the first has left them.
If the first list ends the run early, the second does not matter. The time at which a run
starts does not matter either, nor what had been told before.
-/

namespace ButtonFlow

/-!
## Results
-/

/-- The same note about the same action, which stands so much further back. -/
def Diagnostic.shift (steps : Nat) (d : Diagnostic) : Diagnostic :=
  { d with index := steps + d.index }

/-- The result of a run of so many steps, and then of another run. -/
def RunResult.followedBy (first : RunResult) (steps : Nat) (last : RunResult) : RunResult :=
  ⟨first.executionId, first.fragments ++ last.fragments, last.presentation,
    first.diagnostics ++ last.diagnostics.map (Diagnostic.shift steps), last.termination⟩

/-- What a run has gathered that goes on after a run of so many steps. -/
def Tally.after (first : RunResult) (steps : Nat) (run : Tally) : Tally :=
  ⟨first.executionId, first.fragments ++ run.fragments, run.presentation,
    first.diagnostics ++ run.diagnostics.map (Diagnostic.shift steps)⟩

def Outcome.map {α β : Type} (f : α → β) : Outcome α → Outcome β
  | .done a => .done (f a)
  | .cancelled => .cancelled
  | .stuck => .stuck

theorem Tally.after_start (run : Tally) (t : Termination) (executionId : String) (steps : Nat) :
    (Tally.start executionId run.presentation).after (run.result t) steps = run := by
  simp only [Tally.after, Tally.start, Tally.result, List.map_nil, List.append_nil]

theorem Report.tally_after (report : Report) (index : Nat) (action : Action) (first : RunResult)
    (steps : Nat) (run : Tally) :
    report.tally (steps + index) action (run.after first steps) =
      (report.tally index action run).after first steps := by
  cases report <;>
    simp only [Report.tally, Tally.after, Diagnostic.shift, List.map_append, List.map_cons,
      List.map_nil, List.append_assoc]

/-!
## Scenes that are alike
-/

def Happening.isCall : Happening → Bool
  | .alert _ | .prompt _ | .reload | .closeRequest => true
  | _ => false

namespace Scene

def calls (s : Scene) : List Happening :=
  (s.history.map Moment.what).filter Happening.isCall

/-- The store and the host are the same, the host was asked for the same, and the same colors
will be drawn. -/
structure Alike (s t : Scene) : Prop where
  store_eq : s.store = t.store
  host_eq : s.host = t.host
  color_eq : s.draws.color = t.draws.color
  colors_eq : s.draws.colors = t.draws.colors
  calls_eq : s.calls = t.calls

theorem calls_note (s : Scene) (what : Happening) :
    (s.note what).calls = s.calls ++ [what].filter Happening.isCall := by
  simp only [calls, history, note, List.reverse_cons, List.map_append, List.map_cons, List.map_nil,
    List.filter_append]

namespace Alike

variable {s t u : Scene}

theorem refl (s : Scene) : Alike s s :=
  ⟨rfl, rfl, rfl, rfl, rfl⟩

theorem trans (h : Alike s t) (h' : Alike t u) : Alike s u where
  store_eq := h.store_eq.trans h'.store_eq
  host_eq := h.host_eq.trans h'.host_eq
  color_eq := h.color_eq.trans h'.color_eq
  colors_eq := h.colors_eq.trans h'.colors_eq
  calls_eq := h.calls_eq.trans h'.calls_eq

theorem atTime (h : Alike s t) (time time' : Nat) : Alike (s.atTime time) (t.atTime time') :=
  ⟨h.store_eq, h.host_eq, h.color_eq, h.colors_eq, h.calls_eq⟩

theorem note (h : Alike s t) (what : Happening) : Alike (s.note what) (t.note what) where
  store_eq := h.store_eq
  host_eq := h.host_eq
  color_eq := h.color_eq
  colors_eq := h.colors_eq
  calls_eq := by rw [calls_note, calls_note, h.calls_eq]

theorem note_left (h : Alike s t) {what : Happening} (hwhat : what.isCall = false) :
    Alike (s.note what) t where
  store_eq := h.store_eq
  host_eq := h.host_eq
  color_eq := h.color_eq
  colors_eq := h.colors_eq
  calls_eq := by
    rw [calls_note, List.filter_cons_of_neg (by simp [hwhat]), List.filter_nil, List.append_nil,
      h.calls_eq]

theorem symm (h : Alike s t) : Alike t s :=
  ⟨h.store_eq.symm, h.host_eq.symm, h.color_eq.symm, h.colors_eq.symm, h.calls_eq.symm⟩

theorem note_both (h : Alike s t) {what what' : Happening} (hwhat : what.isCall = false)
    (hwhat' : what'.isCall = false) : Alike (s.note what) (t.note what') :=
  ((h.note_left hwhat).symm.note_left hwhat').symm

theorem foldl_note_left (h : Alike s t) (hs : List Happening)
    (hcalls : ∀ what ∈ hs, what.isCall = false) : Alike (hs.foldl Scene.note s) t := by
  induction hs generalizing s with
  | nil => exact h
  | cons what hs ih =>
      exact ih (h.note_left (hcalls what (List.mem_cons_self ..)))
        fun other hother => hcalls other (List.mem_cons_of_mem _ hother)

theorem withHost (h : Alike s t) (host : Host) :
    Alike { s with host := host } { t with host := host } :=
  ⟨h.store_eq, rfl, h.color_eq, h.colors_eq, h.calls_eq⟩

theorem withStore (h : Alike s t) (store : Store) :
    Alike { s with store := store } { t with store := store } :=
  ⟨rfl, h.host_eq, h.color_eq, h.colors_eq, h.calls_eq⟩

theorem drawRunId (h : Alike s t) : Alike s.drawRunId.2 t :=
  ⟨h.store_eq, h.host_eq, h.color_eq, h.colors_eq, h.calls_eq⟩

theorem ask (h : Alike s t) (r : Request) :
    (s.ask r).1 = (t.ask r).1 ∧ Alike (s.ask r).2 (t.ask r).2 := by
  cases r with
  | nothing => exact ⟨rfl, h⟩
  | alert message =>
      unfold Scene.ask Scene.alert
      rw [h.host_eq]
      exact ⟨rfl, ((h.withHost _).note _).atTime _ _⟩
  | prompt message =>
      unfold Scene.ask Scene.prompt
      rw [h.host_eq]
      exact ⟨rfl, ((h.withHost _).note _).atTime _ _⟩
  | reload => exact ⟨rfl, h.note _⟩
  | close =>
      unfold Scene.ask Scene.requestClose
      rw [h.host_eq]
      exact ⟨rfl, (h.withHost _).note _⟩
  | write key value =>
      unfold Scene.ask Scene.writeKey
      rw [h.store_eq]
      exact ⟨rfl, (h.withStore _).note _⟩
  | read key =>
      unfold Scene.ask Scene.readKey
      rw [h.store_eq]
      exact ⟨rfl, h.note _⟩
  | color =>
      unfold Scene.ask Scene.drawColor
      rw [h.color_eq, h.colors_eq]
      exact ⟨rfl, h.store_eq, h.host_eq, h.color_eq, rfl, h.calls_eq⟩

end Alike

end Scene

/-!
## Runs in alike worlds
-/

theorem Report.isCall_of_mem {report : Report} {executionId : String} {index : Nat}
    {action : Action} {what : Happening}
    (h : what ∈ report.happenings executionId index action) : what.isCall = false := by
  cases report <;> simp [happenings] at h <;> rcases h with rfl | rfl <;> rfl

theorem Scene.Alike.report {s t : Scene} (h : Alike s t) (report : Report)
    (executionId executionId' : String) (index index' : Nat) (action : Action) :
    Alike ((report.happenings executionId index action).foldl Scene.note s)
      ((report.happenings executionId' index' action).foldl Scene.note t) := by
  have hleft := h.foldl_note_left (report.happenings executionId index action)
    fun _ => Report.isCall_of_mem
  exact (hleft.symm.foldl_note_left (report.happenings executionId' index' action)
    fun _ => Report.isCall_of_mem).symm

open World (Quiet)
open Scene (Alike)

theorem exists_rest_alike {u v : World} (hu : Quiet none u) (hv : Quiet none v)
    (halike : Alike u.scene v.scene) (delay : Nat) :
    ∃ u' v', u.rest (some (u.clock + delay)) = (.elapsed, u') ∧
      v.rest (some (v.clock + delay)) = (.elapsed, v') ∧
      Quiet none u' ∧ Quiet none v' ∧ Alike u'.scene v'.scene := by
  rcases hu.exists_rest (Nat.le_add_right _ delay) nofun with ⟨u', hrest, hu', hscene⟩
  rcases hv.exists_rest (Nat.le_add_right _ delay) nofun with ⟨v', hrest', hv', hscene'⟩
  refine ⟨u', v', hrest, hrest', hu', hv', ?_⟩
  rw [hscene, hscene']
  exact halike.atTime _ _

theorem exists_perform_alike {u v : World} (hu : Quiet none u) (hv : Quiet none v)
    (halike : Alike u.scene v.scene) (step : Step) (index index' : Nat) (action : Action)
    (run run' : Tally) (hpresentation : run.presentation = run'.presentation) :
    ∃ (flow : Flow) (report : Report) (u' v' : World),
      step.perform index action run u = (flow, report.tally index action run, u') ∧
      step.perform index' action run' v = (flow, report.tally index' action run', v') ∧
      Quiet none u' ∧ Quiet none v' ∧ Alike u'.scene v'.scene := by
  rcases hu.exists_perform step nofun index action run with ⟨u', hperform, hu', hscene⟩
  rcases hv.exists_perform step nofun index' action run' with
    ⟨v', hperform', hv', hscene'⟩
  rcases halike.ask step.request with ⟨hanswer, hasked⟩
  rw [← hpresentation, ← hanswer] at hperform' hscene'
  refine ⟨_, _, u', v', hperform, hperform', hu', hv', ?_⟩
  rw [hscene, hscene']
  exact hasked.report ..

theorem alike_tell {u v : World} (halike : Alike u.scene v.scene) (e e' : Event) :
    Alike (u.tell e).scene (v.tell e').scene := by
  rw [World.scene_tell, World.scene_tell]
  exact halike.note_both rfl rfl

/-!
## Running the second list
-/

/-- The actions behind a first run do what they do in a run of their own. -/
theorem performFrom_after {u v : World} (hu : Quiet none u) (hv : Quiet none v)
    (halike : Alike u.scene v.scene) (delay index : Nat) (actions : List Action) (run : Tally)
    (first : RunResult) (steps : Nat) :
    let whole := performFrom delay (steps + index) actions (run.after first steps) u
    let second := performFrom delay index actions run v
    whole.1 = second.1.map (first.followedBy steps) ∧ Alike whole.2.scene second.2.scene := by
  -- The tally of the one run stays that of the other, with the first result in front of it.
  induction actions generalizing index run u v with
  | nil => exact ⟨rfl, alike_tell halike _ _⟩
  | cons action rest ih =>
      rcases exists_perform_alike (hu.tell _) (hv.tell _) (alike_tell halike _ _) action.step
        (steps + index) index action (run.after first steps) run rfl with
        ⟨flow, report, u', v', hperform, hperform', hu', hv', halike'⟩
      rw [report.tally_after] at hperform
      rw [performFrom_cons hu.notCancelled, performFrom_cons hv.notCancelled]
      unfold World.begin
      rw [hperform, hperform']
      cases flow with
      | settle =>
          rcases exists_rest_alike hu' hv' halike' delay with
            ⟨u'', v'', hrest, hrest', hu'', hv'', halike''⟩
          simp only [proceed, hrest, hrest']
          exact ih hu'' hv'' halike'' (index + 1) _
      | skip => exact ih hu' hv' halike' (index + 1) _
      | stop t => exact ⟨rfl, alike_tell halike' _ _⟩
      | cancelled => exact ⟨rfl, alike_tell halike' _ _⟩
      | stuck => exact ⟨rfl, halike'⟩

/-!
## Running the first list
-/

theorem Step.ne_completed_of_perform {step : Step} {index : Nat} {action : Action} {run : Tally}
    {w : World} {t : Termination} (h : (step.perform index action run w).1 = .stop t) :
    t ≠ .completed := by
  rw [step.perform_eq] at h
  rcases Step.eq_of_react_stop h with ⟨rfl, _⟩ | ⟨rfl, _⟩
  · nofun
  · nofun

/-- With more actions behind it, a run goes on as it does alone. Where it would be completed,
the other actions follow. -/
theorem performFrom_append {u v v₁ : World} (hu : Quiet none u) (hv : Quiet none v)
    (halike : Alike u.scene v.scene) {delay index : Nat} {xs : List Action} {run : Tally}
    {first : RunResult} (hfirst : performFrom delay index xs run v = (.done first, v₁))
    (ys : List Action) (executionId : String) (steps : Nat) :
    let whole := performFrom delay index (xs ++ ys) run u
    (first.termination = .completed → ∃ u₁, Quiet none u₁ ∧ Alike u₁.scene v₁.scene ∧
      whole = performFrom delay (index + xs.length) ys
        ((Tally.start executionId first.presentation).after first steps) u₁) ∧
    (first.termination ≠ .completed → whole.1 = .done first ∧ Alike whole.2.scene v₁.scene) := by
  -- The two worlds stay alike from step to step, and the tally and the position stay the same.
  induction xs generalizing index run u v with
  | nil =>
      cases hfirst
      refine ⟨fun _ => ⟨u, hu, ?_, ?_⟩, fun hstopped => absurd rfl hstopped⟩
      · rw [World.scene_tell]
        exact (halike.symm.note_left rfl).symm
      · exact congrArg (fun run => performFrom delay index ys run u)
          (run.after_start .completed executionId steps).symm
  | cons action rest ih =>
      rcases exists_perform_alike (hu.tell _) (hv.tell _) (alike_tell halike _ _) action.step index
        index action run run rfl with
        ⟨flow, report, u', v', hperform, hperform', hu', hv', halike'⟩
      have hlength : index + (action :: rest).length = index + 1 + rest.length := by
        rw [List.length_cons, Nat.add_comm rest.length, Nat.add_assoc]
      rw [performFrom_cons hv.notCancelled] at hfirst
      rw [List.cons_append, performFrom_cons hu.notCancelled, hlength]
      unfold World.begin at hfirst ⊢
      rw [hperform'] at hfirst
      rw [hperform]
      cases flow with
      | settle =>
          rcases exists_rest_alike hu' hv' halike' delay with
            ⟨u'', v'', hrest, hrest', hu'', hv'', halike''⟩
          simp only [proceed, hrest'] at hfirst
          simp only [proceed, hrest]
          exact ih hu'' hv'' halike'' hfirst
      | skip => exact ih hu' hv' halike' hfirst
      | stop t =>
          cases hfirst
          have hstopped : t ≠ .completed :=
            Step.ne_completed_of_perform (congrArg Prod.fst hperform)
          exact ⟨fun hcompleted => absurd hcompleted hstopped,
            fun _ => ⟨rfl, alike_tell halike' _ _⟩⟩
      | cancelled => cases hfirst
      | stuck => cases hfirst

/-!
## Runs of both lists
-/

/-- A run of two lists does what a run of the first and then a run of the second do. The second
run may take place in any quiet world that is like the one the first has left. -/
theorem execute_append {delay : Nat} {xs : List Action} {p : Presentation} {w w₁ : World}
    {first : RunResult} (hquiet : Quiet none w)
    (hfirst : execute delay xs p w = (.done first, w₁)) (ys : List Action) :
    let whole := execute delay (xs ++ ys) p w
    (first.termination = .completed → ∀ v : World, Quiet none v → Alike w₁.scene v.scene →
      let second := execute delay ys first.presentation v
      whole.1 = second.1.map (first.followedBy xs.length) ∧ Alike whole.2.scene second.2.scene) ∧
    (first.termination ≠ .completed → whole.1 = .done first ∧ Alike whole.2.scene w₁.scene) := by
  intro whole
  have hdrawn : Quiet none w.drawRunId.2 := hquiet.withDraws _
  have hstarted : Alike (w.drawRunId.2.tell (.runStarted w.drawRunId.1 (xs ++ ys).length)).scene
      (w.drawRunId.2.tell (.runStarted w.drawRunId.1 xs.length)).scene :=
    alike_tell (Alike.refl _) _ _
  have happend := performFrom_append (hdrawn.tell _) (hdrawn.tell _) hstarted hfirst ys
  refine ⟨?_, (happend "" 0).2⟩
  intro ht v hv halike
  rcases (happend v.drawRunId.1 xs.length).1 ht with ⟨u₁, hu₁, halike₁, hwhole⟩
  have hv₁ : Quiet none v.drawRunId.2 := hv.withDraws _
  have hgone : Alike u₁.scene (v.drawRunId.2.tell (.runStarted v.drawRunId.1 ys.length)).scene := by
    rw [World.scene_tell]
    exact ((halike₁.trans halike).symm.drawRunId.note_left rfl).symm
  have hafter := performFrom_after hu₁ (hv₁.tell _) hgone delay 0 ys
    (Tally.start v.drawRunId.1 first.presentation) first xs.length
  rw [Nat.zero_add] at hwhole
  change whole = _ at hwhole
  rw [hwhole]
  exact hafter

/-- The first three of these actions go wrong, and only the third without a pause. -/
def mishaps : List Action := [
  ⟨"a", .closeWindow, .empty⟩,
  ⟨"b", .setLocalStorage, ⟨[("key", .string "k"), ("value", .string "v")]⟩⟩,
  ⟨"c", .other "mystery", .empty⟩,
  ⟨"d", .promptAndShow, .empty⟩,
  ⟨"e", .changeButtonColor, .empty⟩]

def farewell : List Action := [
  ⟨"f", .changeButtonColor, .empty⟩,
  ⟨"g", .promptAndShow, .empty⟩,
  ⟨"h", .other "riddle", .empty⟩,
  ⟨"i", .refreshPage, .empty⟩,
  ⟨"j", .showText, .empty⟩]

/-- A world like one that a run has left, in which no time has passed. -/
def World.resumed (w : World) : World :=
  { World.fresh w.store w.host [] with draws := w.draws, past := w.past }

theorem World.quiet_resumed (w : World) : Quiet none w.resumed :=
  ⟨rfl, nofun, rfl, fun _ => rfl⟩

theorem World.alike_resumed (w : World) : Alike w.scene w.resumed.scene :=
  ⟨rfl, rfl, rfl, rfl, rfl⟩

theorem execute_append_mishaps :
    let w := World.fresh (.memory [] ⟨[], ["k"], .other "full"⟩) (Host.prompt [some "Ann"] false) []
    ∃ first w₁ last, execute 300 mishaps .initial w = (.done first, w₁) ∧
      (execute 300 farewell first.presentation w₁.resumed).1 = .done last ∧
      last.diagnostics = [⟨2, "h", "unknown action type: riddle"⟩] ∧
      (execute 300 (mishaps ++ farewell) .initial w).1 = .done (first.followedBy 5 last) ∧
      (execute 300 (farewell ++ mishaps) .initial w).1 = (execute 300 farewell .initial w).1 := by
  intro w
  have hran : (execute 300 mishaps .initial w).1.result? = some ⟨"0", [.text "Ann"],
      ⟨0, some "#000000", false⟩, [⟨0, "a", "close request denied by host"⟩,
        ⟨1, "b", "failed to write 'k': io error: full"⟩,
        ⟨2, "c", "unknown action type: mystery"⟩], .completed⟩ := by
    decide +kernel
  have hresumed : (execute 300 farewell ⟨0, some "#000000", false⟩
      (execute 300 mishaps .initial w).2.resumed).1.result? = some ⟨"1", [],
        ⟨0, some "#000001", false⟩, [⟨2, "h", "unknown action type: riddle"⟩], .reloaded⟩ := by
    decide +kernel
  have hstopped : (execute 300 farewell .initial w).1.result? = some ⟨"0", [.text "Ann"],
      ⟨0, some "#000000", false⟩, [⟨2, "h", "unknown action type: riddle"⟩], .reloaded⟩ := by
    decide +kernel
  have hquiet : Quiet none w := ⟨rfl, nofun, rfl, fun _ => rfl⟩
  have hfirst := Outcome.eq_done_of_result? hran
  have hreloaded := Outcome.eq_done_of_result? hstopped
  have hlast := congrArg Prod.fst (Outcome.eq_done_of_result? hresumed)
  have hwhole := ((execute_append hquiet hfirst farewell).1 rfl _ (World.quiet_resumed _)
    (World.alike_resumed _)).1
  have halone := ((execute_append hquiet hreloaded mishaps).2 nofun).1
  rw [hlast] at hwhole
  exact ⟨_, _, _, hfirst, hlast, rfl, hwhole, halone.trans (congrArg Prod.fst hreloaded).symm⟩

end ButtonFlow
