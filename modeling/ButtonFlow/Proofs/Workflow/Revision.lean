import ButtonFlow.Workflow.Basic
import Mathlib.Data.List.Nodup
import Mathlib.Data.List.Perm.Basic

/-!
# Revisions of a workflow

A workflow is revised by adding, removing, configuring and moving actions, and by changes of
its label. If every action is added under an id that no other action has at that time, then the
ids stay distinct. So each revision touches the one action that it names and no other: an
action stays what it is until it is removed, except that its settings are those that it was
given last. Only moves change the order.
-/

namespace ButtonFlow

/-!
## Revisions
-/

/-- One change of a workflow. An action is added under an id that was made for it. -/
inductive Revision where
  | add (id : String) (kind : Kind)
  | remove (id : String)
  | configure (id : String) (config : Config)
  | move (source target : Nat)
  | relabel (label : String)
  | clear

namespace Revision

def apply (w : Workflow) : Revision → Workflow
  | .add id kind => w.add id kind
  | .remove id => w.remove id
  | .configure id config => w.configure id config
  | .move source target => w.move source target
  | .relabel label => w.relabel label
  | .clear => w.clear

def drops (id : String) : Revision → Bool
  | .remove other => other == id
  | .clear => true
  | _ => false

def settings? (id : String) : Revision → Option Config
  | .configure other config => if other = id then some config else none
  | _ => none

def label? : Revision → Option String
  | .relabel label => some label
  | _ => none

/-- An action is only added under an id that no action has. -/
def Afresh (w : Workflow) : Revision → Prop
  | .add id _ => id ∉ w.ids
  | _ => True

instance decidableAfresh (w : Workflow) : (r : Revision) → Decidable (r.Afresh w)
  | .add id _ => inferInstanceAs (Decidable (id ∉ w.ids))
  | .remove _ => inferInstanceAs (Decidable True)
  | .configure _ _ => inferInstanceAs (Decidable True)
  | .move _ _ => inferInstanceAs (Decidable True)
  | .relabel _ => inferInstanceAs (Decidable True)
  | .clear => inferInstanceAs (Decidable True)

/-- An id is named that no action has, or an index at which there is none. -/
def Misses (w : Workflow) : Revision → Prop
  | .remove id => id ∉ w.ids
  | .configure id _ => id ∉ w.ids
  | .move source target => w.actions.length ≤ source ∨ w.actions.length ≤ target
  | _ => False

/-- The settings after revisions of an action that has `config` before them. -/
def lastSettings (id : String) (config : Config) (rs : List Revision) : Config :=
  (rs.filterMap (settings? id)).getLast?.getD config

def spares (rs : List Revision) (id : String) : Bool :=
  rs.all fun r => !r.drops id

/-- The ids of the actions that are added and not taken away again, in order. -/
def arrivals : List Revision → List String
  | [] => []
  | .add id _ :: rs => [id].filter (spares rs) ++ arrivals rs
  | _ :: rs => arrivals rs

@[simp]
theorem lastSettings_cons (id : String) (config : Config) (r : Revision) (rs : List Revision) :
    lastSettings id config (r :: rs) = lastSettings id ((r.settings? id).getD config) rs := by
  unfold lastSettings
  cases hr : r.settings? id with
  | none => rw [List.filterMap_cons_none hr, Option.getD_none]
  | some given =>
      rw [List.filterMap_cons_some hr, List.getLast?_cons]
      rfl

end Revision

namespace Workflow

def revised (w : Workflow) (rs : List Revision) : Workflow :=
  rs.foldl Revision.apply w

/-- Each action is added under an id that no action has at that time. -/
def Fresh (w : Workflow) (rs : List Revision) : Prop :=
  ∀ before r after, rs = before ++ r :: after → r.Afresh (w.revised before)

@[simp] theorem revised_append (w : Workflow) (rs rs' : List Revision) :
    w.revised (rs ++ rs') = (w.revised rs).revised rs' :=
  List.foldl_append

@[simp] theorem fresh_nil (w : Workflow) : w.Fresh [] := by
  intro before r after hrs
  cases before <;> cases hrs

theorem fresh_cons_iff {w : Workflow} {r : Revision} {rs : List Revision} :
    w.Fresh (r :: rs) ↔ r.Afresh w ∧ (r.apply w).Fresh rs := by
  constructor
  · intro h
    constructor
    · exact h [] r rs rfl
    · intro before later after hrs
      exact h (r :: before) later after (congrArg (List.cons r) hrs)
  · rintro ⟨hhead, htail⟩ before later after hrs
    cases before with
    | nil =>
        cases hrs
        exact hhead
    | cons first before =>
        cases hrs
        exact htail before later after rfl

theorem fresh_append_iff {w : Workflow} {rs rs' : List Revision} :
    w.Fresh (rs ++ rs') ↔ w.Fresh rs ∧ (w.revised rs).Fresh rs' := by
  induction rs generalizing w with
  | nil => exact ⟨fun h => ⟨w.fresh_nil, h⟩, fun h => h.2⟩
  | cons r rs ih =>
      rw [List.cons_append, fresh_cons_iff, fresh_cons_iff, ih, and_assoc]
      rfl

instance decidableFresh (w : Workflow) : (rs : List Revision) → Decidable (w.Fresh rs)
  | [] => isTrue w.fresh_nil
  | r :: rs =>
      have := decidableFresh (r.apply w) rs
      decidable_of_iff _ fresh_cons_iff.symm

/-!
## Ids
-/

theorem ids_add (w : Workflow) (id : String) (kind : Kind) : (w.add id kind).ids = w.ids ++ [id] :=
  List.map_append

theorem ids_remove (w : Workflow) (id : String) :
    (w.remove id).ids = w.ids.filter fun other => other != id := by
  unfold ids remove
  rw [List.filter_map]
  rfl

theorem ids_configure (w : Workflow) (id : String) (config : Config) :
    (w.configure id config).ids = w.ids := by
  unfold ids configure
  dsimp only
  induction w.actions with
  | nil => rfl
  | cons action rest ih =>
      unfold configure.configureFirst
      split
      · rfl
      · rw [List.map_cons, List.map_cons, ih]

theorem perm_move (w : Workflow) (source target : Nat) :
    (w.move source target).actions.Perm w.actions := by
  unfold move
  split
  · rename_i action hsource
    split
    · rename_i htarget
      rcases List.getElem?_eq_some_iff.mp hsource with ⟨hlt, haction⟩
      have hroom : target ≤ (w.actions.eraseIdx source).length := by
        rw [List.length_eraseIdx_of_lt hlt]
        omega
      have hinsert := List.perm_insertIdx action (w.actions.eraseIdx source) hroom
      have herase := List.getElem_cons_eraseIdx_perm hlt
      rw [haction] at herase
      exact hinsert.trans herase
    · exact List.Perm.refl _
  · exact List.Perm.refl _

theorem ids_move (w : Workflow) (source target : Nat) :
    (w.move source target).ids.Perm w.ids :=
  (w.perm_move source target).map _

theorem nodup_apply {w : Workflow} (hids : w.ids.Nodup) {r : Revision} (hr : r.Afresh w) :
    (r.apply w).ids.Nodup := by
  -- One case for each revision.
  cases r with
  | add id kind =>
      change (w.add id kind).ids.Nodup
      rw [ids_add]
      apply List.nodup_append.mpr
      refine ⟨hids, List.nodup_singleton id, ?_⟩
      intro other hother added hadded
      rw [List.mem_singleton.mp hadded]
      rintro rfl
      exact hr hother
  | remove id =>
      change (w.remove id).ids.Nodup
      rw [ids_remove]
      exact hids.filter _
  | configure id config =>
      change (w.configure id config).ids.Nodup
      rw [ids_configure]
      exact hids
  | move source target => exact (w.ids_move source target).nodup_iff.mpr hids
  | relabel label => exact hids
  | clear => exact List.nodup_nil

theorem nodup_revised {w : Workflow} (hids : w.ids.Nodup) {rs : List Revision}
    (hfresh : w.Fresh rs) : (w.revised rs).ids.Nodup := by
  induction rs generalizing w with
  | nil => exact hids
  | cons r rs ih =>
      rcases fresh_cons_iff.mp hfresh with ⟨hr, hrs⟩
      exact ih (nodup_apply hids hr) hrs

/-!
## Looking an action up
-/

/-- Whoever looks for the id of the action finds this action, at the index that belongs to
it. -/
def Holds (w : Workflow) (action : Action) : Prop :=
  ∃ i, w.position? action.id = some i ∧ w.actions[i]? = some action ∧
    w.find? action.id = some action

theorem holds_of_find? {w : Workflow} {action : Action} (h : w.find? action.id = some action) :
    w.Holds action := by
  have hindex : w.find? action.id =
      (w.position? action.id).bind fun i => w.actions[i]? :=
    List.find?_eq_bind_findIdx?_getElem?
  rcases Option.bind_eq_some_iff.mp (hindex.symm.trans h) with ⟨i, hi, haction⟩
  exact ⟨i, hi, haction, h⟩

theorem id_of_find? {w : Workflow} {id : String} {action : Action}
    (h : w.find? id = some action) : action.id = id := by
  simpa using List.find?_some h

theorem find?_eq_none_iff {w : Workflow} {id : String} : w.find? id = none ↔ id ∉ w.ids := by
  unfold find? ids
  rw [List.find?_eq_none]
  simp

theorem position?_eq_none_iff {w : Workflow} {id : String} :
    w.position? id = none ↔ id ∉ w.ids := by
  unfold position? ids
  rw [List.findIdx?_eq_none_iff]
  simp

theorem find?_eq_some_iff {w : Workflow} (hids : w.ids.Nodup) {id : String} {action : Action} :
    w.find? id = some action ↔ action ∈ w.actions ∧ action.id = id := by
  constructor
  · intro h
    exact ⟨List.mem_of_find?_eq_some h, id_of_find? h⟩
  · rintro ⟨hmem, rfl⟩
    cases hfind : w.find? action.id with
    | none => exact absurd (List.mem_map_of_mem hmem) (find?_eq_none_iff.mp hfind)
    | some other =>
        have hother := List.mem_of_find?_eq_some hfind
        rw [List.inj_on_of_nodup_map hids hother hmem (id_of_find? hfind)]

theorem find?_remove_other (w : Workflow) {id other : String} (hother : id ≠ other) :
    (w.remove id).find? other = w.find? other := by
  unfold find? remove
  rw [List.find?_filter]
  apply congrArg (fun p => w.actions.find? p)
  funext action
  by_cases haction : action.id = other
  · simp [haction, hother.symm]
  · simp [haction]

theorem find?_configure_self {w : Workflow} {id : String} {action : Action}
    (h : w.find? id = some action) (config : Config) :
    (w.configure id config).find? id = some { action with config := config } := by
  unfold find? at h ⊢
  unfold configure
  revert h
  dsimp only
  induction w.actions with
  | nil =>
      intro h
      cases h
  | cons first rest ih =>
      intro h
      unfold configure.configureFirst
      rw [List.find?_cons] at h
      cases hfirst : first.id == id with
      | true =>
          rw [hfirst] at h
          cases h
          rw [if_pos rfl, List.find?_cons, hfirst]
      | false =>
          rw [hfirst] at h
          rw [if_neg Bool.false_ne_true, List.find?_cons, hfirst]
          exact ih h

theorem find?_configure_other (w : Workflow) {id other : String} (hother : id ≠ other)
    (config : Config) : (w.configure id config).find? other = w.find? other := by
  unfold find? configure
  dsimp only
  induction w.actions with
  | nil => rfl
  | cons first rest ih =>
      unfold configure.configureFirst
      by_cases hfirst : first.id = id
      · have hnot : first.id ≠ other := by
          rw [hfirst]
          exact hother
        rw [if_pos (by simpa using hfirst), List.find?_cons_of_neg (by simpa using hnot),
          List.find?_cons_of_neg (by simpa using hnot)]
      · rw [if_neg (by simpa using hfirst), List.find?_cons, List.find?_cons, ih]

/-!
## One revision
-/

theorem find?_apply {w : Workflow} (hids : w.ids.Nodup) {r : Revision} {id : String}
    {action : Action} (hdrops : r.drops id = false) (h : w.find? id = some action) :
    (r.apply w).find? id =
      some { action with config := (r.settings? id).getD action.config } := by
  cases r with
  | add other kind =>
      change (w.actions ++ [Action.blank other kind]).find? _ = _
      have hfound : w.actions.find? (fun action => action.id == id) = some action := h
      rw [List.find?_append, hfound]
      rfl
  | remove other =>
      have hne : other ≠ id := by
        intro hsame
        simp [Revision.drops, hsame] at hdrops
      exact (find?_remove_other w hne).trans h
  | configure other config =>
      by_cases hsame : other = id
      · subst hsame
        have hsettings : (Revision.configure other config).settings? other = some config :=
          if_pos rfl
        rw [hsettings]
        exact find?_configure_self h config
      · have hsettings : (Revision.configure other config).settings? id = none := if_neg hsame
        rw [hsettings]
        exact (find?_configure_other w hsame config).trans h
  | move source target =>
      have hmoved := (w.ids_move source target).nodup_iff.mpr hids
      rcases (find?_eq_some_iff hids).mp h with ⟨hmem, hid⟩
      exact (find?_eq_some_iff hmoved).mpr ⟨(w.perm_move source target).mem_iff.mpr hmem, hid⟩
  | relabel label => exact h
  | clear => cases hdrops

theorem remove_eq_self {w : Workflow} {id : String} (h : id ∉ w.ids) : w.remove id = w := by
  have hkept : w.actions.filter (fun action => action.id != id) = w.actions := by
    apply List.filter_eq_self.mpr
    intro action hmem
    simp only [bne_iff_ne, ne_eq]
    rintro rfl
    exact h (List.mem_map_of_mem hmem)
  unfold remove
  rw [hkept]

theorem configure_eq_self {w : Workflow} {id : String} (h : id ∉ w.ids) (config : Config) :
    w.configure id config = w := by
  have hkept : configure.configureFirst id config w.actions = w.actions := by
    unfold ids at h
    revert h
    induction w.actions with
    | nil =>
        intro _
        rfl
    | cons first rest ih =>
        intro h
        have hfirst : first.id ≠ id := by
          rintro rfl
          exact h List.mem_cons_self
        unfold configure.configureFirst
        rw [if_neg (by simpa using hfirst), ih fun hmem => h (List.mem_cons_of_mem _ hmem)]
  unfold configure
  rw [hkept]

theorem move_eq_self {w : Workflow} {source target : Nat}
    (h : w.actions.length ≤ source ∨ w.actions.length ≤ target) : w.move source target = w := by
  unfold move
  split
  · rename_i action hsource
    have hlt := (List.getElem?_eq_some_iff.mp hsource).1
    rw [if_neg (by omega)]
  · rfl

theorem apply_of_misses {w : Workflow} {r : Revision} (h : r.Misses w) : r.apply w = w := by
  cases r with
  | remove id => exact remove_eq_self h
  | configure id config => exact configure_eq_self h config
  | move source target => exact move_eq_self h
  | add _ _ => cases h
  | relabel _ => cases h
  | clear => cases h

/-!
## Histories of revisions
-/

/-- What is done to an action between two revisions that take it away. -/
theorem find?_revised {w : Workflow} (hids : w.ids.Nodup) {rs : List Revision}
    (hfresh : w.Fresh rs) {id : String} {action : Action}
    (hdrops : ∀ r ∈ rs, r.drops id = false) (h : w.find? id = some action) :
    (w.revised rs).find? id =
      some { action with config := Revision.lastSettings id action.config rs } := by
  induction rs generalizing w action with
  | nil => exact h
  | cons r rs ih =>
      rcases fresh_cons_iff.mp hfresh with ⟨hr, hrs⟩
      rcases List.forall_mem_cons.mp hdrops with ⟨hspared, hlater⟩
      have hnext := ih (nodup_apply hids hr) hrs hlater (find?_apply hids hspared h)
      rw [Revision.lastSettings_cons]
      exact hnext

theorem mem_ids_apply {w : Workflow} {r : Revision} {id : String} :
    id ∈ (r.apply w).ids ↔ (id ∈ w.ids ∧ r.drops id = false) ∨ ∃ kind, r = .add id kind := by
  cases r with
  | add other kind =>
      have hids : (Revision.apply w (.add other kind)).ids = w.ids ++ [other] :=
        w.ids_add other kind
      rw [hids, List.mem_append, List.mem_singleton]
      simp [Revision.drops, eq_comm]
  | remove other =>
      have hids : (Revision.apply w (.remove other)).ids = w.ids.filter (· != other) :=
        w.ids_remove other
      rw [hids, List.mem_filter]
      simp only [Revision.drops, bne_iff_ne, ne_eq, beq_eq_false_iff_ne, reduceCtorEq, exists_false,
        or_false]
      exact and_congr_right fun _ => not_congr eq_comm
  | configure other config =>
      have hids : (Revision.apply w (.configure other config)).ids = w.ids :=
        w.ids_configure other config
      rw [hids]
      simp [Revision.drops]
  | move source target =>
      have hids : id ∈ (Revision.apply w (.move source target)).ids ↔ id ∈ w.ids :=
        (w.ids_move source target).mem_iff
      rw [hids]
      simp [Revision.drops]
  | relabel label => simp [Revision.drops, Revision.apply, relabel, ids]
  | clear => simp [Revision.drops, Revision.apply, clear, ids]

theorem not_mem_ids_of_drops (w : Workflow) {r : Revision} {id : String}
    (hdrops : r.drops id = true) : id ∉ (r.apply w).ids := by
  intro hmem
  rcases mem_ids_apply.mp hmem with ⟨_, hspared⟩ | ⟨kind, rfl⟩
  · rw [hdrops] at hspared
    cases hspared
  · cases hdrops

theorem not_mem_ids_revised {w : Workflow} {id : String} (h : id ∉ w.ids) {rs : List Revision}
    (hadds : ∀ kind, Revision.add id kind ∉ rs) : id ∉ (w.revised rs).ids := by
  induction rs generalizing w with
  | nil => exact h
  | cons r rs ih =>
      have hfirst : id ∉ (r.apply w).ids := by
        intro hmem
        rcases mem_ids_apply.mp hmem with ⟨hthere, _⟩ | ⟨kind, rfl⟩
        · exact h hthere
        · exact hadds kind List.mem_cons_self
      exact ih hfirst fun kind hmem => hadds kind (List.mem_cons_of_mem r hmem)

/-- Without moves, those that stay keep their order and come before those that are added. -/
theorem ids_revised (w : Workflow) {rs : List Revision} (hmoves : ∀ source target,
    Revision.move source target ∉ rs) :
    (w.revised rs).ids = w.ids.filter (Revision.spares rs) ++ Revision.arrivals rs := by
  induction rs generalizing w with
  | nil =>
      have hall : w.ids.filter (Revision.spares []) = w.ids :=
        List.filter_eq_self.mpr fun _ _ => rfl
      rw [hall, Revision.arrivals, List.append_nil]
      rfl
  | cons r rs ih =>
      have hlater : ∀ source target, Revision.move source target ∉ rs := by
        intro source target hmem
        exact hmoves source target (List.mem_cons_of_mem r hmem)
      have hrest : (w.revised (r :: rs)).ids = _ := ih (r.apply w) hlater
      rw [hrest]
      cases r with
      | add id kind =>
          have hids : (Revision.apply w (.add id kind)).ids = w.ids ++ [id] := w.ids_add id kind
          rw [hids, List.filter_append, List.append_assoc]
          rfl
      | remove id =>
          have hids : (Revision.apply w (.remove id)).ids = w.ids.filter (· != id) :=
            w.ids_remove id
          rw [hids, List.filter_filter]
          apply congrArg (· ++ Revision.arrivals rs)
          apply List.filter_congr
          intro other _
          exact (congrArg _ bne_comm).trans (Bool.and_comm _ _)
      | configure id config =>
          have hids : (Revision.apply w (.configure id config)).ids = w.ids :=
            w.ids_configure id config
          rw [hids]
          rfl
      | move source target => exact absurd List.mem_cons_self (hmoves source target)
      | relabel label => rfl
      | clear =>
          have hnone : w.ids.filter (Revision.spares (.clear :: rs)) = [] :=
            List.filter_eq_nil_iff.mpr fun _ _ => Bool.false_ne_true
          rw [hnone]
          rfl

theorem label_move (w : Workflow) (source target : Nat) :
    (w.move source target).label = w.label := by
  unfold move
  split
  · split <;> rfl
  · rfl

theorem label_revised (w : Workflow) (rs : List Revision) :
    (w.revised rs).label = (rs.filterMap Revision.label?).getLast?.getD w.label := by
  induction rs generalizing w with
  | nil => rfl
  | cons r rs ih =>
      have hrest : (w.revised (r :: rs)).label = _ := ih (r.apply w)
      rw [hrest]
      cases r with
      | relabel label =>
          have hhead : (Revision.relabel label).label? = some label := rfl
          rw [List.filterMap_cons_some hhead, List.getLast?_cons]
          rfl
      | move source target => rw [List.filterMap_cons_none rfl, Revision.apply, label_move]
      | add _ _ => rfl
      | remove _ => rfl
      | configure _ _ => rfl
      | clear => rfl

/-!
## What a history leaves
-/

/-- A workflow after revisions, told from the workflow before them and from the revisions. -/
structure Account (w : Workflow) (rs : List Revision) : Prop where
  distinct : (w.revised rs).ids.Nodup
  /-- An action that was there is found with the settings that it was given last. -/
  stays : ∀ action ∈ w.actions, (∀ r ∈ rs, r.drops action.id = false) →
    (w.revised rs).Holds { action with config := Revision.lastSettings action.id action.config rs }
  /-- So is one that was added, with no settings at first. -/
  added : ∀ before id kind after, rs = before ++ .add id kind :: after →
    (∀ r ∈ after, r.drops id = false) →
    (w.revised rs).Holds ⟨id, kind, Revision.lastSettings id Config.empty after⟩
  /-- One that was taken away is not found, unless its id comes back. -/
  dropped : ∀ before r after id, rs = before ++ r :: after → r.drops id = true →
    (∀ kind, .add id kind ∉ after) →
    (w.revised rs).find? id = none ∧ (w.revised rs).position? id = none
  /-- Between moves those that stay keep their order, and new ones come last. -/
  ordered : ∀ before after, rs = before ++ after → (∀ source target, .move source target ∉ after) →
    (w.revised rs).ids =
      (w.revised before).ids.filter (Revision.spares after) ++ Revision.arrivals after
  /-- Whatever names no action leaves everything as it is. -/
  missed : ∀ before r after, rs = before ++ r :: after → r.Misses (w.revised before) →
    w.revised (before ++ [r]) = w.revised before
  label : (w.revised rs).label = (rs.filterMap Revision.label?).getLast?.getD w.label

theorem account_of_fresh {w : Workflow} (hids : w.ids.Nodup) {rs : List Revision}
    (hfresh : w.Fresh rs) : w.Account rs := by
  constructor
  · exact nodup_revised hids hfresh
  · intro action hmem hdrops
    have hfind := (find?_eq_some_iff hids).mpr ⟨hmem, rfl⟩
    exact holds_of_find? (find?_revised hids hfresh hdrops hfind)
  · intro before id kind after hrs hdrops
    subst hrs
    rcases fresh_append_iff.mp hfresh with ⟨hfirst, hrest⟩
    rcases fresh_cons_iff.mp hrest with ⟨hnew, hafter⟩
    have hthere := nodup_apply (nodup_revised hids hfirst) hnew
    have hfind : ((w.revised before).add id kind).find? id = some (Action.blank id kind) := by
      apply (find?_eq_some_iff hthere).mpr
      exact ⟨List.mem_append_right _ List.mem_cons_self, rfl⟩
    have hlast := find?_revised hthere hafter hdrops hfind
    rw [revised_append]
    exact holds_of_find? hlast
  · intro before r after id hrs hdrops hadds
    subst hrs
    rw [revised_append]
    have hgone := not_mem_ids_revised (not_mem_ids_of_drops (w.revised before) hdrops) hadds
    exact ⟨find?_eq_none_iff.mpr hgone, position?_eq_none_iff.mpr hgone⟩
  · intro before after hrs hmoves
    subst hrs
    rw [revised_append]
    exact ids_revised _ hmoves
  · intro before r after _ hmisses
    rw [revised_append]
    exact apply_of_misses hmisses
  · exact label_revised w rs

theorem account_of_two_actions :
    let w : Workflow := ⟨"Go", [Action.blank "a" .alert, Action.blank "b" .closeWindow]⟩
    let color := Config.empty.insert "color" (.string "red")
    let rs : List Revision :=
      [.add "c" .changeButtonColor, .configure "c" color, .move 0 2, .remove "b", .relabel "Stop",
        .configure "b" color, .move 7 0, .add "b" (.other "wait")]
    w.ids.Nodup ∧ w.Fresh rs ∧ w.Account rs ∧ (w.revised rs).ids = ["c", "a", "b"] := by
  intro w color rs
  have hids : w.ids.Nodup := by decide +kernel
  have hfresh : w.Fresh rs := by decide +kernel
  exact ⟨hids, hfresh, account_of_fresh hids hfresh, by decide +kernel⟩

end Workflow

end ButtonFlow
