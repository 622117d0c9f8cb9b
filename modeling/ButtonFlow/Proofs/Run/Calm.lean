import ButtonFlow.Proofs.Run.Report

/-!
# Runs that nobody interferes with

While nothing is cancelled and every prompt ends, a run only depends on the scene. It never
hangs, and neither the visitor nor the schedule can change what it does or when it does it. So
a run comes to the same in two worlds that show the same scene, and they show the same scene
again afterwards.
-/

namespace ButtonFlow

/-!
## Requests
-/

/-- How the wait for an answer ends. What needs no wait is there at once. -/
def Request.waking : (r : Request) → r.Answer → World.Waking
  | .alert _, waking => waking
  | .prompt _, (waking, _) => waking
  | .nothing, _ => .elapsed
  | .reload, _ => .elapsed
  | .close, _ => .elapsed
  | .write _ _, _ => .elapsed
  | .read _, _ => .elapsed
  | .color, _ => .elapsed

namespace Scene

def alert (message : String) (s : Scene) : Scene :=
  let shown := { s with host := { s.host with alerts := s.host.alerts + 1 } }.note (.alert message)
  shown.atTime (s.clock + s.host.alertTime s.host.alerts)

def prompt (message : String) (s : Scene) : Option String × Scene :=
  let number := s.host.prompts
  let asked := { s with host := { s.host with prompts := number + 1 } }.note (.prompt message)
  (s.host.answer number, asked.atTime (s.clock + (s.host.promptTime number).getD 0))

def requestClose (s : Scene) : Bool × Scene :=
  let number := s.host.closeRequests
  (s.host.allowsClose number,
    { s with host := { s.host with closeRequests := number + 1 } }.note .closeRequest)

def writeKey (key value : String) (s : Scene) : Except IoError Unit × Scene :=
  let (result, store) := s.store.set key value
  (result, { s with store := store }.note (.write key value result.isOk))

def readKey (key : String) (s : Scene) : Except IoError (Option String) × Scene :=
  (s.store.get key, s.note (.read key))

def drawRunId (s : Scene) : String × Scene :=
  (s.draws.runId s.draws.runs, { s with draws := { s.draws with runs := s.draws.runs + 1 } })

def drawColor (s : Scene) : String × Scene :=
  (colorCode (s.draws.color s.draws.colors),
    { s with draws := { s.draws with colors := s.draws.colors + 1 } })

/-- What comes of a request that is not cancelled. A prompt may stay open for ever. -/
def ask (s : Scene) : (r : Request) → r.Answer × Scene
  | .nothing => ((), s)
  | .alert message => (.elapsed, s.alert message)
  | .prompt message =>
      let isAnswered := (s.host.promptTime s.host.prompts).isSome
      ((if isAnswered then .elapsed else .never, (s.prompt message).1), (s.prompt message).2)
  | .reload => ((), s.note .reload)
  | .close => s.requestClose
  | .write key value => s.writeKey key value
  | .read key => s.readKey key
  | .color => s.drawColor

end Scene

namespace Step

variable {p : Presentation} {step : Step} {answer : step.request.Answer}

theorem react_of_elapsed (h : step.request.waking answer = .elapsed) :
    (step.react p answer).1 ≠ .cancelled ∧ (step.react p answer).1 ≠ .stuck := by
  unfold react
  split <;> simp_all [Request.waking, request]

theorem react_of_cancelled (h : step.request.waking answer = .cancelled) :
    step.react p answer = (.cancelled, .nothing) := by
  unfold react
  split <;> simp_all [Request.waking, request]

theorem react_of_never (h : step.request.waking answer = .never) :
    step.react p answer = (.stuck, .nothing) := by
  unfold react
  split <;> simp_all [Request.waking, request]

end Step

/-!
## Steps in a world that shows a scene
-/

namespace World
namespace Shows

variable {V : List Cue → Queue → Prop} {s : Scene} {w : World}

theorem withStore (h : Shows V s w) (store : Store) :
    Shows V { s with store := store } { w with store := store } := by
  rcases h with ⟨rfl, hcancelled, htrips, hanswers, hvisitor⟩
  exact ⟨rfl, hcancelled, htrips, hanswers, hvisitor⟩

theorem exists_alert (hV : Harmless V) (h : Shows V s w) (message : String) :
    ∃ w', w.alert message = (.elapsed, w') ∧ Shows V (s.alert message) w' := by
  have hdecided := (h.pause hV 1).decide false
  unfold World.alert
  dsimp only
  generalize (World.decide false (w.pause 1)).2 = decided at hdecided ⊢
  rw [if_neg (by simp [hdecided.notCancelled]), hdecided.host_eq]
  have hshown := (hdecided.withHost { s.host with alerts := s.host.alerts + 1 }
    (by rw [hdecided.host_eq])).note (.alert message) rfl
  by_cases hzero : s.host.alertTime s.host.alerts = 0
  · rw [if_pos hzero]
    refine ⟨_, rfl, ?_⟩
    unfold Scene.alert
    rw [hzero]
    exact hshown.pause hV 0
  · rw [if_neg hzero, hshown.clock_eq]
    exact hshown.exists_rest hV (Nat.le_add_right _ _)

theorem exists_prompt (hV : Harmless V) (h : Shows V s w) (message : String) :
    ∃ w', w.prompt message = (.elapsed, (s.prompt message).1, w') ∧
      Shows V (s.prompt message).2 w' := by
  have hdecided := (h.pause hV 1).decide false
  unfold World.prompt
  dsimp only
  generalize (World.decide false (w.pause 1)).2 = decided at hdecided ⊢
  rw [if_neg (by simp [hdecided.notCancelled]), hdecided.host_eq]
  have hasked := ((hdecided.withHost { s.host with prompts := s.host.prompts + 1 }
    (by rw [hdecided.host_eq])).note (.prompt message) rfl).pause hV 1
  generalize World.pause 1 _ = paused at hasked ⊢
  rw [hasked.host_eq]
  have hanswer := h.answers s.host.prompts
  rw [h.host_eq] at hanswer
  unfold Scene.prompt
  dsimp only [Scene.note] at hasked ⊢
  cases htime : s.host.promptTime s.host.prompts with
  | none =>
      rw [htime] at hanswer
      cases hanswer
  | some time =>
      cases time with
      | zero =>
          have hanswered := hasked.decide false
          refine ⟨_, ?_, hanswered⟩
          rw [if_neg (by simp [hanswered.notCancelled])]
          rfl
      | succ time =>
          rcases hasked.exists_rest hV (Nat.le_add_right _ (time + 1)) with ⟨w', hrest, hshows⟩
          dsimp only at hrest
          refine ⟨w', ?_, hshows⟩
          simp only [Option.map_some, hasked.clock_eq, hrest]

/-- Every request is answered as the scene says. -/
theorem ask (hV : Harmless V) (h : Shows V s w) (r : Request) :
    (w.ask r).1 = (s.ask r).1 ∧ r.waking (s.ask r).1 = .elapsed ∧
      Shows V (s.ask r).2 (w.ask r).2 := by
  have hpaused := h.pause hV 1
  cases r with
  | nothing => exact ⟨rfl, rfl, h⟩
  | alert message =>
      rcases h.exists_alert hV message with ⟨w', halert, hshows⟩
      simp only [World.ask, halert]
      exact ⟨rfl, rfl, hshows⟩
  | prompt message =>
      rcases h.exists_prompt hV message with ⟨w', hprompt, hshows⟩
      have hanswered : (s.host.promptTime s.host.prompts).isSome = true := by
        rw [← h.host_eq]
        exact h.answers _
      have hask : s.ask (.prompt message) =
          ((.elapsed, (s.prompt message).1), (s.prompt message).2) := by
        rw [Scene.ask, hanswered]
        rfl
      rw [World.ask, hprompt, hask]
      exact ⟨rfl, rfl, hshows⟩
  | reload => exact ⟨rfl, rfl, (hpaused.note .reload rfl).pause hV 0⟩
  | close =>
      unfold World.ask Scene.ask World.requestClose Scene.requestClose
      dsimp only
      rw [hpaused.host_eq]
      have hasked := hpaused.withHost { s.host with closeRequests := s.host.closeRequests + 1 }
        (by rw [hpaused.host_eq])
      exact ⟨rfl, rfl, (hasked.note .closeRequest rfl).pause hV 0⟩
  | write key value =>
      unfold World.ask Scene.ask World.writeKey Scene.writeKey
      dsimp only
      rw [hpaused.store_eq]
      exact ⟨rfl, rfl, ((hpaused.withStore _).note _ rfl).pause hV 0⟩
  | read key =>
      unfold World.ask Scene.ask World.readKey Scene.readKey
      dsimp only
      rw [hpaused.store_eq]
      exact ⟨rfl, rfl, (hpaused.note _ rfl).pause hV 0⟩
  | color =>
      rcases h with ⟨rfl, hcancelled, htrips, hanswers, hvisitor⟩
      exact ⟨rfl, rfl, rfl, hcancelled, htrips, hanswers, hvisitor⟩

theorem foldl_happen (h : Shows V s w) (hs : List Happening)
    (hrun : ∀ what ∈ hs, what.isOfRun = true) :
    Shows V (hs.foldl Scene.note s) (hs.foldl World.happen w) := by
  induction hs generalizing s w with
  | nil => exact h
  | cons what hs ih =>
      rcases List.forall_mem_cons.mp hrun with ⟨hwhat, hothers⟩
      have hfirst : Shows V (s.note what) (w.happen what) := by
        cases what with
        | event e => exact h.tell e
        | _ => exact h.note _ hwhat
      exact ih hfirst hothers

theorem exists_perform (hV : Harmless V) (h : Shows V s w) (step : Step) (index : Nat)
    (action : Action) (run : Tally) :
    let asked := s.ask step.request
    let reaction := step.react run.presentation asked.1
    (reaction.1 ≠ .cancelled ∧ reaction.1 ≠ .stuck) ∧
      ∃ w', step.perform index action run w =
          (reaction.1, reaction.2.tally index action run, w') ∧
        Shows V ((reaction.2.happenings run.executionId index action).foldl Scene.note asked.2)
          w' := by
  intro asked reaction
  rcases h.ask hV step.request with ⟨hanswer, hwaking, hasked⟩
  have hreported := hasked.foldl_happen
    (reaction.2.happenings run.executionId index action) fun _ => Report.isOfRun_of_mem
  refine ⟨Step.react_of_elapsed hwaking, _, ?_, hreported⟩
  rw [step.perform_eq]
  dsimp only
  rw [hanswer]

theorem drawRunId (h : Shows V s w) :
    w.drawRunId.1 = s.drawRunId.1 ∧ Shows V s.drawRunId.2 w.drawRunId.2 := by
  rcases h with ⟨rfl, hcancelled, htrips, hanswers, hvisitor⟩
  exact ⟨rfl, rfl, hcancelled, htrips, hanswers, hvisitor⟩

end Shows

/-!
## Runs in two worlds
-/

/-- Two worlds, each with a visitor of its own, show the same scene. -/
inductive Together (V V' : List Cue → Queue → Prop) (w v : World) : Prop where
  | showing {s : Scene} (h : Shows V s w) (h' : Shows V' s v) : Together V V' w v

namespace Together

variable {V V' : List Cue → Queue → Prop} (hV : Harmless V) (hV' : Harmless V') {w v : World}

theorem scene_eq (h : Together V V' w v) : w.scene = v.scene := by
  rcases h with ⟨h, h'⟩
  exact h.scene_eq.trans h'.scene_eq.symm

include hV hV'

theorem exists_performFrom (delay : Nat) {index : Nat} {actions : List Action} {run : Tally}
    {w v : World} (h : Together V V' w v) :
    ∃ result w' v', performFrom delay index actions run w = (.done result, w') ∧
      performFrom delay index actions run v = (.done result, v') ∧ Together V V' w' v' := by
  induction actions generalizing index run w v with
  | nil =>
      rcases h with ⟨h, h'⟩
      exact ⟨_, _, _, rfl, rfl, .showing (h.tell _) (h'.tell _)⟩
  | cons action rest ih =>
      rcases h with @⟨s, h, h'⟩
      rw [performFrom_cons h.notCancelled, performFrom_cons h'.notCancelled]
      have hbegun := h.tell (.stepStarted run.executionId index action.id action.kind.tag)
      have hbegun' := h'.tell (.stepStarted run.executionId index action.id action.kind.tag)
      rcases hbegun.exists_perform hV action.step index action run with
        ⟨⟨hcancelled, hstuck⟩, w₁, hperform, hshows⟩
      rcases hbegun'.exists_perform hV' action.step index action run with
        ⟨_, v₁, hperform', hshows'⟩
      unfold World.begin
      rw [hperform, hperform']
      generalize action.step.react run.presentation _ = reaction at *
      rcases reaction with ⟨flow, report⟩
      cases flow with
      | settle =>
          rcases hshows.exists_rest hV (Nat.le_add_right _ delay) with ⟨w₂, hrest, hrested⟩
          rcases hshows'.exists_rest hV' (Nat.le_add_right _ delay) with ⟨v₂, hrest', hrested'⟩
          simp only [proceed, hshows.clock_eq, hshows'.clock_eq, hrest, hrest']
          exact ih (.showing hrested hrested')
      | skip => exact ih (.showing hshows hshows')
      | stop t => exact ⟨_, _, _, rfl, rfl, .showing (hshows.tell _) (hshows'.tell _)⟩
      | cancelled => exact absurd rfl hcancelled
      | stuck => exact absurd rfl hstuck

/-- A run that nobody interferes with comes to its end, and to the same in both worlds. -/
theorem exists_execute (h : Together V V' w v) (delay : Nat) (actions : List Action)
    (p : Presentation) :
    ∃ result w' v', execute delay actions p w = (.done result, w') ∧
      execute delay actions p v = (.done result, v') ∧ Together V V' w' v' := by
  rcases h with ⟨h, h'⟩
  rcases h.drawRunId with ⟨hid, hdrawn⟩
  rcases h'.drawRunId with ⟨hid', hdrawn'⟩
  unfold execute
  dsimp only
  rw [hid, hid']
  exact exists_performFrom hV hV' delay (.showing (hdrawn.tell _) (hdrawn'.tell _))

end Together
end World

end ButtonFlow
