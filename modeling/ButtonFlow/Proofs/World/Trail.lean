import ButtonFlow.Proofs.World.Deeds

/-!
# Trails

Whatever the visitor and the runs do leaves a trail of deeds behind. What the visitor does, and
what happens while a run waits, leaves only asides. So every point at which a run lets the
visitor go first is such an aside, whoever the visitor is and whatever the schedule decides.
-/

namespace ButtonFlow

def Act.errand? : Act → Option (Option Change)
  | .click _ => none
  | .set key value => some (some (.set key value))
  | .remove key => some (some (.remove key))
  | _ => some none

/-- What the visitor still plans besides its clicks. -/
def plannedErrands (plan : List Cue) : List (Option Change) :=
  plan.filterMap fun cue => cue.act.errand?

def eventsOf (ms : List Moment) : List Event :=
  ms.filterMap (·.what.event?)

theorem eventsOf_eq (ms : List Moment) :
    eventsOf ms = ((ms.map Moment.what).filter Happening.isOfRun).filterMap Happening.event? := by
  unfold eventsOf
  rw [List.filter_map, List.filterMap_map, List.filterMap_filter]
  congr 1
  funext m
  cases hwhat : m.what <;> simp [hwhat, Happening.isOfRun, Happening.event?]

theorem eventsOf_eq_doings (ds : List Deed) :
    eventsOf (moments ds) = (doings ds).filterMap Happening.event? :=
  eventsOf_eq (moments ds)

namespace World

def ledger (w : World) : Ledger :=
  ⟨w.store, w.view, w.isCancelled, w.queue, w.past, w.draws.color⟩

def doings (w : World) : List Happening :=
  (w.history.map Moment.what).filter Happening.isOfRun

theorem events_eq_doings (w : World) : w.events = w.doings.filterMap Happening.event? :=
  eventsOf_eq w.history

theorem ledger_note (w : World) {what : Happening} (hplain : what.isPlain = true) :
    (w.note what).ledger = w.ledger.note ⟨w.clock, w.view, what⟩ := by
  have hcancelled : (w.isCancelled || what.cancels) = w.isCancelled := by
    cases what <;> simp_all [Happening.isPlain, Happening.cancels]
  have hqueue : w.queue.after what = w.queue := by
    unfold Queue.after
    split <;> simp_all [Happening.isPlain]
  have hstore : w.store.afterHappening what = w.store := by
    cases what <;> simp_all [Happening.isPlain, Store.afterHappening]
  simp only [ledger, note, Ledger.note, hcancelled, hqueue, hstore]

theorem ledger_reply (w : World) {reply : Reply}
    (hqueued : (Happening.visitor reply).isQueued = false) :
    (w.note (.visitor reply)).ledger = w.ledger.note ⟨w.clock, w.view, .visitor reply⟩ := by
  have hqueue : w.queue.after (.visitor reply) = w.queue := by
    cases reply with
    | queued => cases hqueued
    | _ => rfl
  simp [ledger, note, Store.afterHappening, Happening.cancels, hqueue]

/-- These deeds lead from one world to another. The visitor does what it has planned. -/
structure Trail (w : World) (ds : List Deed) (w' : World) : Prop where
  lawful : w.ledger.Lawful ds
  ledger_eq : w'.ledger = ds.foldl Ledger.after w.ledger
  errands_eq : plannedErrands w.plan = errands ds ++ plannedErrands w'.plan
  clicks_le : (moments ds).countP (·.what.isQueued) + plannedClicks w'.plan ≤ plannedClicks w.plan

namespace Trail

variable {w w₁ w' : World} {ds ds' : List Deed}

theorem idle (hledger : w'.ledger = w.ledger) (hplan : w'.plan = w.plan) : Trail w [] w' where
  lawful := trivial
  ledger_eq := hledger
  errands_eq := by rw [hplan]; rfl
  clicks_le := by rw [hplan]; exact Nat.le_of_eq (Nat.zero_add _)

theorem refl (w : World) : Trail w [] w :=
  idle rfl rfl

theorem trans (h : Trail w ds w₁) (h' : Trail w₁ ds' w') : Trail w (ds ++ ds') w' where
  lawful := by
    rw [Ledger.lawful_append, ← h.ledger_eq]
    exact ⟨h.lawful, h'.lawful⟩
  ledger_eq := by rw [List.foldl_append, ← h.ledger_eq, h'.ledger_eq]
  errands_eq := by
    rw [h.errands_eq, h'.errands_eq, errands_append, List.append_assoc]
  clicks_le := by
    have hfirst := h.clicks_le
    have hlater := h'.clicks_le
    rw [moments_append, List.countP_append]
    omega

theorem one {d : Deed} (hallows : w.ledger.Allows d) (hledger : w'.ledger = w.ledger.after d)
    (herrand : d.errand? = none)
    (hqueued : (moments [d]).countP (·.what.isQueued) = 0) (hplan : w'.plan = w.plan) :
    Trail w [d] w' where
  lawful := ⟨hallows, trivial⟩
  ledger_eq := hledger
  errands_eq := by
    have hnone : errands [d] = [] := List.filterMap_cons_none herrand
    rw [hplan, hnone, List.nil_append]
  clicks_le := by
    rw [hplan, hqueued]
    exact Nat.le_of_eq (Nat.zero_add _)

theorem note {what : Happening} (hplain : what.isPlain = true) (hadmits : w.ledger.Admits what) :
    Trail w [.noted ⟨w.clock, w.view, what⟩] (w.note what) := by
  refine one ⟨rfl, hadmits⟩ (ledger_note w hplain) (Deed.errand?_of_isPlain hplain) ?_ rfl
  exact List.countP_cons_of_neg (by simp [Happening.isQueued_of_isPlain hplain])

theorem plannedClicks_le {due : Nat} {act : Act} {later : List Cue} :
    plannedClicks later ≤ plannedClicks (⟨due, act⟩ :: later) := by
  cases act with
  | click times => exact Nat.le_add_left _ _
  | _ => exact Nat.le_refl _

theorem act {due : Nat} {act : Act} {later : List Cue} {d : Deed}
    (hplan : w.plan = ⟨due, act⟩ :: later) (hallows : w.ledger.Allows d)
    (hledger : w'.ledger = w.ledger.after d) (hlater : w'.plan = later)
    (herrand : d.errand? = act.errand?)
    (hqueued : (moments [d]).countP (·.what.isQueued) = 0) : Trail w [d] w' where
  lawful := ⟨hallows, trivial⟩
  ledger_eq := hledger
  errands_eq := by
    rw [hplan, hlater]
    unfold plannedErrands errands
    rw [List.filterMap_cons, List.filterMap_cons, herrand]
    cases act.errand? with
    | none => rfl
    | some errand => rfl
  clicks_le := by
    rw [hplan, hlater, hqueued, Nat.zero_add]
    exact plannedClicks_le

theorem drop {due times : Nat} {later : List Cue} (hplan : w.plan = ⟨due, .click times⟩ :: later)
    (hledger : w'.ledger = w.ledger) (hlater : w'.plan = later) : Trail w [] w' where
  lawful := trivial
  ledger_eq := hledger
  errands_eq := by
    rw [hplan, hlater]
    rfl
  clicks_le := by
    rw [hplan, hlater]
    exact Nat.le_trans (Nat.le_of_eq (Nat.zero_add _)) plannedClicks_le

theorem queued {due times : Nat} {later : List Cue} {m : Moment}
    (hplan : w.plan = ⟨due, .click (times + 1)⟩ :: later) (hm : m.what = .visitor .queued)
    (hallows : w.ledger.Allows (.noted m)) (hledger : w'.ledger = w.ledger.note m)
    (hlater : w'.plan = if times = 0 then later else ⟨due, .click times⟩ :: later) :
    Trail w [.noted m] w' where
  lawful := ⟨hallows, trivial⟩
  ledger_eq := hledger
  errands_eq := by
    rcases m with ⟨time, view, what⟩
    cases hm
    rw [hplan, hlater]
    split
    · rfl
    · rfl
  clicks_le := by
    have hone : (moments [.noted m]).countP (·.what.isQueued) ≤ 1 := List.countP_le_length
    have hleft : plannedClicks w'.plan = times + plannedClicks later := by
      rw [hlater]
      split
      · rename_i hlast
        rw [hlast, Nat.zero_add]
      · rfl
    have hplanned : plannedClicks w.plan = times + 1 + plannedClicks later := by
      rw [hplan]
      rfl
    omega

theorem store_eq (h : Trail w ds w') : w'.store = ds.foldl Store.after w.store :=
  (congrArg Ledger.store h.ledger_eq).trans (Ledger.foldl_store w.ledger ds)

theorem view_eq (h : Trail w ds w') (hshown : ∀ d ∈ ds, d.isShown = false) : w'.view = w.view :=
  (congrArg Ledger.view h.ledger_eq).trans (Ledger.foldl_view hshown)

theorem colors_eq (h : Trail w ds w') : w'.draws.color = w.draws.color :=
  (congrArg Ledger.colors h.ledger_eq).trans (Ledger.foldl_colors w.ledger ds)

theorem isCancelled (h : Trail w ds w') (hw : w.isCancelled = true) : w'.isCancelled = true := by
  have htoken : w'.isCancelled = (w.isCancelled || _) :=
    (congrArg Ledger.isCancelled h.ledger_eq).trans (Ledger.foldl_isCancelled w.ledger ds)
  rw [htoken, hw, Bool.true_or]

theorem history_eq (h : Trail w ds w') : w'.history = w.history ++ moments ds := by
  have hpast : w'.past = (moments ds).reverse ++ w.past :=
    (congrArg Ledger.past h.ledger_eq).trans (Ledger.foldl_past w.ledger ds)
  unfold history
  rw [hpast, List.reverse_append, List.reverse_reverse]

theorem doings_eq (h : Trail w ds w') : w'.doings = w.doings ++ ButtonFlow.doings ds := by
  unfold World.doings ButtonFlow.doings
  rw [h.history_eq, List.map_append, List.filter_append]

end Trail

/-- Only the visitor does something. -/
def Aside (w w' : World) : Prop :=
  ∃ ds, Trail w ds w' ∧ ∀ d ∈ ds, d.isAside = true

namespace Aside

variable {w w₁ w' : World}

theorem idle (hledger : w'.ledger = w.ledger) (hplan : w'.plan = w.plan) : Aside w w' :=
  ⟨[], .idle hledger hplan, List.forall_mem_nil _⟩

theorem one {d : Deed} (h : Trail w [d] w') (haside : d.isAside = true) : Aside w w' :=
  ⟨[d], h, List.forall_mem_singleton.mpr haside⟩

theorem trans (h : Aside w w₁) (h' : Aside w₁ w') : Aside w w' := by
  rcases h with ⟨ds, htrail, haside⟩
  rcases h' with ⟨ds', htrail', haside'⟩
  exact ⟨ds ++ ds', htrail.trans htrail', List.forall_mem_append.mpr ⟨haside, haside'⟩⟩

theorem cancel (w : World) : Aside w w.cancel := by
  unfold World.cancel
  split
  · exact idle rfl rfl
  · rename_i hnot
    have hledger : ({ w.note .cancelled with isCancelled := true } : World).ledger =
        w.ledger.after (.noted ⟨w.clock, w.view, .cancelled⟩) := by
      simp [World.ledger, World.note, Ledger.after, Store.afterHappening,
        Queue.after, Happening.cancels]
    have hallows : w.ledger.Allows (.noted ⟨w.clock, w.view, .cancelled⟩) :=
      ⟨rfl, Bool.eq_false_iff.mpr hnot⟩
    exact one (.one hallows hledger rfl rfl rfl) rfl

theorem reply {w w' : World} {due : Nat} {act : Act} {later : List Cue} {reply : Reply}
    (hplan : w.plan = ⟨due, act⟩ :: later) (hadmits : w.ledger.Admits (.visitor reply))
    (hledger : w'.ledger = w.ledger) (hview : w'.view = w.view) (hlater : w'.plan = later)
    (herrand : (Deed.noted ⟨w'.clock, w'.view, .visitor reply⟩).errand? = act.errand?)
    (hqueued : (Happening.visitor reply).isQueued = false) :
    Aside w (w'.note (.visitor reply)) := by
  have hnoted := ledger_reply w' hqueued
  rw [hledger] at hnoted
  refine one (.act (d := .noted ⟨w'.clock, w'.view, .visitor reply⟩) hplan ⟨hview, hadmits⟩ hnoted
    hlater herrand ?_) rfl
  exact List.countP_cons_of_neg (by simp [hqueued])

theorem touch {due : Nat} {act : Act} {later : List Cue} {reply : Reply} (touch : Touch)
    (hplan : w.plan = ⟨due, act⟩ :: later) (hreply : reply = .done ∨ ∃ e, reply = .failed e)
    (hledger : w'.ledger = w.ledger.touch touch) (hlater : w'.plan = later)
    (herrand : (Deed.acted touch w'.clock w.view reply).errand? = act.errand?)
    (hview : w'.view = w.view) :
    Aside w (w'.note (.visitor reply)) := by
  have hadmits : (w.ledger.touch touch).Admits (.visitor reply) := by
    rcases hreply with rfl | ⟨e, rfl⟩ <;> trivial
  have hqueued : (Happening.visitor reply).isQueued = false := by
    rcases hreply with rfl | ⟨e, rfl⟩ <;> rfl
  have hnoted := ledger_reply w' hqueued
  rw [hledger, hview] at hnoted
  refine one (.act (d := .acted touch w'.clock w.view reply) hplan ⟨rfl, hadmits⟩ hnoted hlater
    herrand ?_) rfl
  exact List.countP_cons_of_neg (by simp [hqueued])

end Aside

/-!
## Acts of the visitor
-/

theorem ledger_cancel (w : World) (effort : Nat) (later : List Cue) :
    ({ w.exertVisitor effort with plan := later }.cancel).ledger = w.cancel.ledger := by
  unfold cancel
  by_cases hcancelled : w.isCancelled = true
  · have hsame : (w.exertVisitor effort).isCancelled = true := hcancelled
    rw [if_pos hcancelled, if_pos hsame]
    rfl
  · have hsame : ¬ (w.exertVisitor effort).isCancelled = true := hcancelled
    rw [if_neg hcancelled, if_neg hsame]
    rfl

theorem aside_act? {w w' : World} (h : w.act? = some w') : Aside w w' := by
  rcases exists_acts h with ⟨cue, later, hplan, _, hacts⟩
  -- Each act takes its cue off the plan, unless there are more clicks to come.
  cases hacts with
  | clicked => exact ⟨[], .drop hplan rfl rfl, List.forall_mem_nil _⟩
  | gone hheld => exact .reply hplan hheld rfl rfl rfl rfl rfl
  | refused _ hopen => exact .reply hplan hopen rfl rfl rfl rfl rfl
  | queued hheld hopen hroom =>
      have hallows : w.ledger.Allows (.noted ⟨w.clock, w.view, .visitor .queued⟩) :=
        ⟨rfl, hheld, hopen, hroom⟩
      refine .one (.queued hplan rfl hallows ?_ rfl) rfl
      simp [advanced, ledger, World.note, Store.afterHappening, Queue.after, Happening.cancels]
  | cancel =>
      have hcancel := plan_cancel w
      rw [hplan] at hcancel
      exact (Aside.cancel w).trans (.reply hcancel trivial (ledger_cancel w 0 later)
        (congrArg Ledger.view (ledger_cancel w 0 later)) (plan_cancel _) rfl rfl)
  | leave => exact .touch .leave hplan (Or.inl rfl) rfl rfl rfl rfl
  | look => exact .reply hplan trivial rfl rfl rfl rfl rfl
  | wait => exact .reply hplan trivial rfl rfl rfl rfl rfl
  | @set _ key value =>
      exact .touch (.change (.set key value)) hplan (changeReply_cases _) rfl rfl rfl rfl
  | @remove _ key =>
      exact .touch (.change (.remove key)) hplan (changeReply_cases _) rfl rfl rfl rfl

/-- Where the runs do nothing there are only asides. -/
theorem whileWaiting_aside : WhileWaiting Aside where
  trans := Aside.trans
  act := aside_act?
  idle _ _ _ _ := .idle rfl rfl

theorem aside_giveWay (isVisitors : Bool) (w : World) : Aside w (w.giveWay isVisitors) :=
  whileWaiting_aside.giveWay isVisitors w

theorem aside_pause (effort : Nat) (w : World) : Aside w (w.pause effort) :=
  whileWaiting_aside.pause effort w

theorem aside_decide (isVisitors : Bool) (w : World) : Aside w (w.decide isVisitors).2 :=
  whileWaiting_aside.decide isVisitors w

theorem aside_waitUntil {ready : World → Bool} {due : Option Nat} {w w' : World}
    (h : w.waitUntil ready due = some w') : Aside w w' :=
  whileWaiting_aside.waitUntil h

theorem aside_rest (due : Option Nat) (w : World) : Aside w (w.rest due).2 :=
  whileWaiting_aside.rest due w

theorem Aside.view_eq {w w' : World} (h : Aside w w') : w'.view = w.view := by
  rcases h with ⟨ds, htrail, hds⟩
  exact htrail.view_eq fun d hd => Deed.isShown_of_isAside (hds d hd)

theorem Aside.events_eq {w w' : World} (h : Aside w w') : w'.events = w.events := by
  rcases h with ⟨ds, htrail, hds⟩
  rw [events_eq_doings, events_eq_doings, htrail.doings_eq, doings_eq_nil hds, List.append_nil]

end World

end ButtonFlow
