import ButtonFlow.Proofs.Run.Cancelled
import ButtonFlow.Proofs.Run.Quiet

/-!
# Runs that are not cancelled

If the token is not cancelled by the end of a run, then it was not at any point of the run. So
every alert and every prompt has come to its end, provided that the user answers or dismisses
every prompt, and the run ends as well. What comes of the other requests is up to the host and
the store: the host decides by itself which request to close the window it grants, and a key
that cannot be read at one time can never be.
-/

namespace ButtonFlow

/-!
## The token
-/

namespace World

theorem isCancelled_eq_false {w w' : World}
    (hstays : w.isCancelled = true → w'.isCancelled = true) (hend : w'.isCancelled = false) :
    w.isCancelled = false := by
  apply Bool.eq_false_iff.mpr
  intro hcancelled
  rw [hstays hcancelled] at hend
  cases hend

end World

theorem isCancelled_performFrom {w : World} (hw : w.isCancelled = true) (delay index : Nat)
    (actions : List Action) (run : Tally) :
    (performFrom delay index actions run w).2.isCancelled = true := by
  rcases exists_course delay index actions run w with ⟨hs, _, hadds⟩
  exact hadds.isCancelled hw

theorem isCancelled_proceed {w : World} (hw : w.isCancelled = true) (delay index : Nat)
    (rest : List Action) (flow : Flow) (run : Tally) :
    (proceed delay (performFrom delay index rest) (flow, run, w)).2.isCancelled = true := by
  have hproceeds := proceeds_proceed delay (performFrom delay index rest) flow run w
  generalize proceed delay _ (flow, run, w) = ran at hproceeds ⊢
  have hwaits : ∀ {w' : World}, w.Waited w' → w'.isCancelled = true := fun hwaited =>
    (World.Adds.of_aside (hwaited _ World.whileWaiting_aside)).isCancelled hw
  cases hproceeds with
  | wentOn _ hwaited => exact isCancelled_performFrom (hwaits hwaited) delay index rest run
  | stopped => exact World.isCancelled_tell hw trivial
  | cancelled _ hwaited _ => exact World.isCancelled_tell (hwaits hwaited) trivial
  | stuck => exact hw

/-!
## The host of a run
-/

def Happening.isCloseRequest : Happening → Bool
  | .closeRequest => true
  | _ => false

def Request.closes : Request → Nat
  | .close => 1
  | _ => 0

theorem Answered.countP_isCloseRequest {colors : Nat → Nat} {r : Request} {answer : r.Answer}
    {asked : List Happening} (h : Answered colors r answer asked) :
    asked.countP Happening.isCloseRequest = r.closes := by
  cases h <;> rfl

theorem Report.countP_isCloseRequest (report : Report) (executionId : String) (index : Nat)
    (action : Action) :
    (report.happenings executionId index action).countP Happening.isCloseRequest = 0 := by
  cases report <;> rfl

namespace World

structure Consulted (requests : Nat) (w w' : World) : Prop where
  promptTime_eq : w'.host.promptTime = w.host.promptTime
  allowsClose_eq : w'.host.allowsClose = w.host.allowsClose
  closeRequests_eq : w'.host.closeRequests = w.host.closeRequests + requests

namespace Consulted

variable {w w₁ w' : World} {m n : Nat}

theorem of_host_eq (h : w'.host = w.host) : Consulted 0 w w' where
  promptTime_eq := by rw [h]
  allowsClose_eq := by rw [h]
  closeRequests_eq := by rw [h, Nat.add_zero]

theorem trans (h : Consulted m w w₁) (h' : Consulted n w₁ w') : Consulted (m + n) w w' where
  promptTime_eq := h'.promptTime_eq.trans h.promptTime_eq
  allowsClose_eq := h'.allowsClose_eq.trans h.allowsClose_eq
  closeRequests_eq := by rw [h'.closeRequests_eq, h.closeRequests_eq, Nat.add_assoc]

theorem between {w₂ : World} (hbefore : w₁.host = w.host) (h : Consulted n w₁ w₂)
    (hafter : w'.host = w₂.host) : Consulted n w w' := by
  have hall := ((of_host_eq hbefore).trans h).trans (of_host_eq hafter)
  rwa [Nat.zero_add, Nat.add_zero] at hall

end Consulted

@[simp] theorem host_pause (effort : Nat) (w : World) : (w.pause effort).host = w.host :=
  whileWaiting_host.pause effort w

theorem host_decided (w : World) : (decide false (w.pause 1)).2.host = w.host :=
  (whileWaiting_host.decide false _).trans (host_pause 1 w)

theorem consulted_alert (w : World) (message : String) :
    Consulted 0 w (w.alert message).2 := by
  unfold alert
  dsimp only
  have hdecided := w.host_decided
  generalize decide false (w.pause 1) = decided at hdecided ⊢
  split
  · exact .of_host_eq hdecided
  · have hshown : Consulted 0 decided.2 ({ decided.2 with
        host := { decided.2.host with alerts := decided.2.host.alerts + 1 } }.note
          (.alert message)) := ⟨rfl, rfl, rfl⟩
    split
    · exact .between hdecided hshown (host_pause 0 _)
    · exact .between hdecided hshown (whileWaiting_host.rest _ _)

theorem consulted_prompt (w : World) (message : String) :
    Consulted 0 w (w.prompt message).2.2 := by
  unfold prompt
  dsimp only
  have hdecided := w.host_decided
  generalize decide false (w.pause 1) = decided at hdecided ⊢
  split
  · exact .of_host_eq hdecided
  · have hshown : Consulted 0 decided.2 ({ decided.2 with
        host := { decided.2.host with prompts := decided.2.host.prompts + 1 } }.note
          (.prompt message)) := ⟨rfl, rfl, rfl⟩
    split
    · exact .between hdecided hshown ((whileWaiting_host.decide false _).trans (host_pause 1 _))
    · exact .between hdecided hshown ((whileWaiting_host.rest _ _).trans (host_pause 1 _))

theorem consulted_ask (w : World) (r : Request) : Consulted r.closes w (w.ask r).2 := by
  cases r with
  | nothing => exact .of_host_eq rfl
  | alert message => exact w.consulted_alert message
  | prompt message => exact w.consulted_prompt message
  | reload => exact .of_host_eq ((host_pause 0 _).trans (host_pause 1 w))
  | close =>
      have hasked : Consulted 1 (w.pause 1) { w.pause 1 with
          host := { (w.pause 1).host with
            closeRequests := (w.pause 1).host.closeRequests + 1 } } := ⟨rfl, rfl, rfl⟩
      exact .between (host_pause 1 w) hasked (host_pause 0 _)
  | write key value => exact .of_host_eq ((host_pause 0 _).trans (host_pause 1 w))
  | read key => exact .of_host_eq ((host_pause 0 _).trans (host_pause 1 w))
  | color => exact .of_host_eq rfl

end World

/-!
## The keys that can be read
-/

namespace Store

def reads (s : Store) (key : String) : Bool :=
  (s.get key).isOk

@[simp] theorem reads_memory (entries : Dict String) (faults : Faults) :
    (memory entries faults).reads = fun key => decide (key ∉ faults.reads) := by
  funext key
  unfold reads get
  by_cases hkey : key ∈ faults.reads
  · simp [hkey, Except.isOk, Except.toBool]
  · simp [hkey, Except.isOk, Except.toBool]

@[simp]
theorem reads_set (s : Store) (key value : String) : (s.set key value).2.reads = s.reads := by
  cases s with
  | memory entries faults =>
      unfold set
      dsimp only
      split
      · rfl
      · rw [reads_memory, reads_memory]
  | file entries route tree => rfl

theorem reads_remove (s : Store) (key : String) : (s.remove key).2.reads = s.reads := by
  cases s with
  | memory entries faults =>
      unfold remove
      rw [reads_memory, reads_memory]
  | file entries route tree =>
      unfold remove
      dsimp only
      split
      · rfl
      · rfl

theorem reads_change (s : Store) (c : Change) : (s.change c).reads = s.reads := by
  cases c with
  | set key value => exact s.reads_set key value
  | remove key => exact s.reads_remove key

theorem reads_after (s : Store) (d : Deed) : (s.after d).reads = s.reads := by
  cases d with
  | noted m =>
      rcases m with ⟨time, view, what⟩
      cases what with
      | write key value written => exact s.reads_set key value
      | _ => rfl
  | acted touch time view reply =>
      cases touch with
      | change c => exact s.reads_change c
      | leave => rfl
  | shown view => rfl

theorem reads_foldl_after (s : Store) (ds : List Deed) :
    (ds.foldl after s).reads = s.reads := by
  induction ds generalizing s with
  | nil => rfl
  | cons d ds ih => exact (ih _).trans (s.reads_after d)

end Store

theorem World.Adds.reads_eq {w w' : World} {hs : List Happening} (h : Adds w w' hs) :
    w'.store.reads = w.store.reads := by
  rcases h with ⟨ds, htrail, _, _⟩
  rw [htrail.store_eq]
  exact w.store.reads_foldl_after ds

/-!
## Answers
-/

/-- What comes of a request that is not cut short, if the window may be closed or not, and
these keys can be read. -/
def Request.Right (granted : Bool) (reads : String → Bool) : (r : Request) → r.Answer → Prop
  | .nothing, _ => True
  | .alert _, waking => waking = .elapsed
  | .prompt _, (waking, _) => waking = .elapsed
  | .reload, _ => True
  | .close, answer => answer = granted
  | .write _ _, _ => True
  | .read key, result => result.isOk = reads key
  | .color, _ => True

theorem Request.Right.waking_eq {granted : Bool} {reads : String → Bool} {r : Request}
    {answer : r.Answer} (h : r.Right granted reads answer) : r.waking answer = .elapsed := by
  cases r with
  | alert message => exact h
  | prompt message => exact h
  | _ => rfl

namespace World

theorem alert_eq_elapsed (w : World) (message : String)
    (hend : (w.alert message).2.isCancelled = false) : (w.alert message).1 = .elapsed := by
  have htoken := w.isCancelled_of_alert message
  rw [hend] at htoken
  have hcancelled : (w.alert message).1 ≠ .cancelled := fun h => Bool.false_ne_true (htoken h)
  clear htoken hend
  unfold alert at hcancelled ⊢
  dsimp only at hcancelled ⊢
  split
  · rename_i hnoticed
    rw [if_pos hnoticed] at hcancelled
    exact absurd rfl hcancelled
  · rename_i hnoticed
    rw [if_neg hnoticed] at hcancelled
    split
    · rfl
    · rename_i htime
      rw [if_neg htime] at hcancelled
      exact rest_eq_elapsed hcancelled

theorem prompt_eq_elapsed (w : World) (message : String)
    (hanswers : ∀ n, (w.host.promptTime n).isSome = true)
    (hend : (w.prompt message).2.2.isCancelled = false) : (w.prompt message).1 = .elapsed := by
  have htoken := w.isCancelled_of_prompt message
  rw [hend] at htoken
  have hcancelled : (w.prompt message).1 ≠ .cancelled := fun h => Bool.false_ne_true (htoken h)
  clear htoken hend
  have hdecided := w.host_decided
  unfold prompt at hcancelled ⊢
  dsimp only at hcancelled ⊢
  generalize decide false (w.pause 1) = decided at hcancelled hdecided ⊢
  split
  · rename_i hnoticed
    rw [if_pos hnoticed] at hcancelled
    exact absurd rfl hcancelled
  · rename_i hnoticed
    rw [if_neg hnoticed] at hcancelled
    -- The user has been asked, and answers in time.
    have hasked := host_pause 1 ({ decided.2 with
      host := { decided.2.host with prompts := decided.2.host.prompts + 1 } }.note
        (.prompt message))
    generalize World.pause 1 _ = asked at hasked hcancelled ⊢
    have hanswered : (asked.host.promptTime decided.2.host.prompts).isSome = true := by
      rw [hasked]
      change (decided.2.host.promptTime _).isSome = true
      rw [hdecided]
      exact hanswers _
    split
    · rename_i htime
      rw [htime] at hcancelled
      dsimp only at hcancelled ⊢
      split
      · rename_i hlate
        rw [if_pos hlate] at hcancelled
        exact absurd rfl hcancelled
      · rfl
    · rename_i htime
      rcases Option.isSome_iff_exists.mp hanswered with ⟨time, hsome⟩
      rw [hsome] at hcancelled htime ⊢
      cases time with
      | zero => exact absurd rfl htime
      | succ time => exact rest_eq_elapsed hcancelled

theorem right_ask {w : World} (r : Request)
    (hanswers : ∀ n, (w.host.promptTime n).isSome = true)
    (hend : (w.ask r).2.isCancelled = false) :
    r.Right (w.host.allowsClose w.host.closeRequests) w.store.reads (w.ask r).1 := by
  cases r with
  | alert message => exact w.alert_eq_elapsed message hend
  | prompt message => exact w.prompt_eq_elapsed message hanswers hend
  | close =>
      change (w.pause 1).host.allowsClose (w.pause 1).host.closeRequests = _
      rw [host_pause]
  | read key =>
      have hreads := (Adds.of_aside (aside_pause 1 w)).reads_eq
      exact congrFun hreads key
  | _ => trivial

end World

/-!
## Steps
-/

abbrev Settled (colors : Nat → Nat) (granted : Bool) (reads : String → Bool) (index : Nat)
    (action : Action) (run : Tally) : List Happening → Flow → Tally → Prop :=
  PerformedIf colors (Request.Right granted reads) index action run

namespace Settled

variable {colors : Nat → Nat} {granted : Bool} {reads : String → Bool} {index : Nat}
  {action : Action} {run run' : Tally} {told : List Happening} {flow : Flow}

theorem flow_ne (h : Settled colors granted reads index action run told flow run') :
    flow ≠ .cancelled ∧ flow ≠ .stuck := by
  cases h with
  | step _ hright => exact Step.react_of_elapsed hright.waking_eq

theorem countP_isCloseRequest (h : Settled colors granted reads index action run told flow run') :
    told.countP Happening.isCloseRequest = action.step.request.closes := by
  cases h with
  | step hanswered _ =>
      rw [List.countP_append, List.countP_cons_of_neg Bool.false_ne_true,
        hanswered.countP_isCloseRequest, Report.countP_isCloseRequest, Nat.add_zero]

end Settled

theorem exists_settled {w : World} (hw : w.isCancelled = false)
    (hanswers : ∀ n, (w.host.promptTime n).isSome = true) (index : Nat) (action : Action)
    (run : Tally) :
    let performed := action.step.perform index action run (w.begin run index action)
    performed.2.2.isCancelled = false →
    ∃ told, Settled w.draws.color (w.host.allowsClose w.host.closeRequests) w.store.reads index
        action run told performed.1 performed.2.1 ∧
      World.Adds w performed.2.2 told ∧
      World.Consulted (told.countP Happening.isCloseRequest) w performed.2.2 := by
  intro performed hend
  have hbegun : World.Adds w (w.begin run index action)
      [.event (.stepStarted run.executionId index action.id action.kind.tag)] :=
    World.Adds.tell w hw
  have hhost : (w.begin run index action).host = w.host :=
    World.untouched_host.tell w _
  have hright := (w.begin run index action).right_ask action.step.request
  have hconsulted := (w.begin run index action).consulted_ask action.step.request
  have hperform := action.step.perform_eq index action run (w.begin run index action)
  rw [hhost, hbegun.reads_eq] at hright
  simp only [performed, hperform] at hend
  have htoken := World.isCancelled_eq_false (World.Adds.report ..).isCancelled hend
  rcases exists_performedIf hw (hright hanswers htoken) with ⟨told, hstep, hadds⟩
  refine ⟨told, hstep, hadds, ?_⟩
  rw [Settled.countP_isCloseRequest hstep]
  simp only [performed, hperform]
  exact .between hhost hconsulted (World.untouched_host.foldl_happen _ _)

/-!
## Runs
-/

/-- What happens to a run that goes on with the action at `index` and is not cancelled, step by
step, and what it leaves. The host was asked before so often to close the window. -/
inductive Uncut (colors : Nat → Nat) (allows : Nat → Bool) (reads : String → Bool) :
    Nat → Nat → List Action → Tally → List (List Happening) → RunResult → Prop where
  | completed {requests index : Nat} {run : Tally} :
      Uncut colors allows reads requests index [] run [] (run.result .completed)
  | wentOn {requests index : Nat} {action : Action} {rest : List Action} {run run' : Tally}
      {told : List Happening} {flow : Flow} {later : List (List Happening)} {r : RunResult}
      (hstep : Settled colors (allows requests) reads index action run told flow run')
      (hflow : flow = .settle ∨ flow = .skip)
      (hlater : Uncut colors allows reads (requests + told.countP Happening.isCloseRequest)
        (index + 1) rest run' later r) :
      Uncut colors allows reads requests index (action :: rest) run (told :: later) r
  | stopped {requests index : Nat} {action : Action} {rest : List Action} {run run' : Tally}
      {told : List Happening} {t : Termination}
      (hstep : Settled colors (allows requests) reads index action run told (.stop t) run') :
      Uncut colors allows reads requests index (action :: rest) run [told] (run'.result t)

theorem Settled.uncut_cons {w w₁ w₂ w' : World} {index : Nat} {action : Action}
    {rest : List Action} {run run' : Tally} {told : List Happening} {flow : Flow}
    {later : List (List Happening)} {r : RunResult}
    (hstep : Settled w.draws.color (w.host.allowsClose w.host.closeRequests) w.store.reads index
      action run told flow run')
    (htold : World.Adds w w₁ told)
    (hconsulted : World.Consulted (told.countP Happening.isCloseRequest) w w₁)
    (haside : World.Aside w₁ w₂) (hhost : w₂.host = w₁.host)
    (hflow : flow = .settle ∨ flow = .skip)
    (huncut : Uncut w₂.draws.color w₂.host.allowsClose w₂.store.reads w₂.host.closeRequests
      (index + 1) rest run' later r)
    (hlater : World.Adds w₂ w'
      (later.flatten ++ [.event (.runCompleted run'.executionId r.termination)])) :
    Uncut w.draws.color w.host.allowsClose w.store.reads w.host.closeRequests index
        (action :: rest) run (told :: later) r ∧
      World.Adds w w'
        ((told :: later).flatten ++ [.event (.runCompleted run.executionId r.termination)]) := by
  have hadds := htold.idle haside
  have hboth := World.Consulted.between rfl hconsulted hhost
  rw [hadds.colors_eq, hboth.allowsClose_eq, hadds.reads_eq, hboth.closeRequests_eq] at huncut
  rw [hstep.performed.executionId_eq] at hlater
  rw [List.flatten_cons, List.append_assoc]
  exact ⟨.wentOn hstep hflow huncut, hadds.trans hlater⟩

theorem exists_elapsed_of_settle {delay : Nat} {next : Tally → World → Outcome RunResult × World}
    {run : Tally} {w : World}
    (hend : (proceed delay next (.settle, run, w)).2.isCancelled = false) :
    ∃ w', w.rest (some (w.clock + delay)) = (.elapsed, w') ∧
      proceed delay next (.settle, run, w) = next run w' := by
  have hcancels := w.isCancelled_of_rest (some (w.clock + delay))
  have hnever := w.rest_ne_never (w.clock + delay)
  unfold proceed at hend ⊢
  dsimp only at hend ⊢
  generalize w.rest (some (w.clock + delay)) = rested at hcancels hnever hend ⊢
  rcases rested with ⟨waking, w'⟩
  cases waking with
  | elapsed => exact ⟨w', rfl, rfl⟩
  | cancelled =>
      have hcancelled := World.isCancelled_tell (e := .runCancelled run.executionId)
        (hcancels rfl) trivial
      change (w'.tell (.runCancelled run.executionId)).isCancelled = false at hend
      rw [hcancelled] at hend
      cases hend
  | never => exact absurd rfl hnever

theorem exists_uncut (delay index : Nat) (actions : List Action) (run : Tally) {w : World}
    (hanswers : ∀ n, (w.host.promptTime n).isSome = true)
    (hend : (performFrom delay index actions run w).2.isCancelled = false) :
    ∃ told r, (performFrom delay index actions run w).1 = .done r ∧
      Uncut w.draws.color w.host.allowsClose w.store.reads w.host.closeRequests index actions run
        told r ∧
      World.Adds w (performFrom delay index actions run w).2
        (told.flatten ++ [.event (.runCompleted run.executionId r.termination)]) := by
  induction actions generalizing index run w with
  | nil => exact ⟨[], _, rfl, .completed, World.Adds.tell w trivial⟩
  | cons action rest ih =>
      have hw : w.isCancelled = false :=
        World.isCancelled_eq_false (isCancelled_performFrom · delay index _ run) hend
      rw [performFrom_cons hw] at hend ⊢
      have hsettled := exists_settled hw hanswers index action run
      generalize action.step.perform index action run (w.begin run index action) = performed
        at hend hsettled ⊢
      rcases performed with ⟨flow, run', w₁⟩
      have htoken : w₁.isCancelled = false :=
        World.isCancelled_eq_false (isCancelled_proceed · delay (index + 1) rest flow run') hend
      rcases hsettled htoken with ⟨told, hstep, htold, hconsulted⟩
      dsimp only at hstep htold hconsulted
      have hproceeds := proceeds_proceed delay (performFrom delay (index + 1) rest) flow run' w₁
      generalize proceed delay _ (flow, run', w₁) = ran at hend hproceeds ⊢
      cases hproceeds with
      | wentOn hflow hwaited =>
          have haside := hwaited _ World.whileWaiting_aside
          have hhost := hwaited _ World.whileWaiting_host
          rw [← hconsulted.promptTime_eq, ← hhost] at hanswers
          rcases ih (index + 1) run' hanswers hend with ⟨later, r, hdone, huncut, hlater⟩
          exact ⟨told :: later, r, hdone,
            hstep.uncut_cons htold hconsulted haside hhost hflow huncut hlater⟩
      | stopped =>
          refine ⟨[told], _, rfl, .stopped hstep, ?_⟩
          rw [← hstep.performed.executionId_eq, List.flatten_cons, List.flatten_nil,
            List.append_nil]
          exact htold.trans (World.Adds.tell w₁ trivial)
      | @cancelled _ w₂ hflow _ hrested =>
          rcases hflow with rfl | rfl
          · have hcancelled := World.isCancelled_tell (hrested rfl)
              (show w₂.ledger.Admits (.event (.runCancelled run'.executionId)) from trivial)
            exact absurd (hend.symm.trans hcancelled) Bool.false_ne_true
          · exact absurd rfl hstep.flow_ne.1
      | stuck => exact absurd rfl hstep.flow_ne.2

end ButtonFlow
