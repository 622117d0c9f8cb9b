import ButtonFlow.Cli.Invocation
import ButtonFlow.Proofs.Except
import ButtonFlow.Proofs.Workflow.Edit

/-!
# What the values of a command line are read from

Every value that is given on a command line was read from a word. So the kind of an action that
is to be added is the kind of a tag.
-/

namespace ButtonFlow
namespace Cli

namespace Given

def Read (given : Given) : Prop :=
  ∀ entry ∈ given, ∃ word, entry.1.read word = .ok entry.2

theorem read_nil : Read [] :=
  fun _ h => nomatch h

theorem read_addWord {p : Parameter} {given given' : Given} {word : String} (h : given.Read)
    (hadd : addWord p given word = .ok given') : given'.Read := by
  unfold addWord at hadd
  split at hadd
  · rename_i value hvalue
    cases hadd
    intro entry hentry
    rcases List.mem_append.mp hentry with hentry | hentry
    · exact h entry hentry
    · cases List.mem_singleton.mp hentry
      exact ⟨word, hvalue⟩
  · cases hadd

theorem read_addItem {name : Option CommandName} {given given' : Given} {item : Item}
    (h : given.Read) (hadd : addItem name given item = .ok given') : given'.Read := by
  simp only [addItem] at hadd
  split at hadd
  · cases hadd
  · split at hadd
    · cases hadd
    · split at hadd
      · cases hadd
      · split at hadd
        · cases hadd
        · exact foldlM_invariant read_addWord h hadd

theorem read_addItems {name : Option CommandName} {given given' : Given} {items : List Item}
    (h : given.Read) (hadd : items.foldlM (addItem name) given = .ok given') : given'.Read :=
  foldlM_invariant read_addItem h hadd

theorem mem_of_mem_values {p : Parameter} {value : p.Value} {given : Given}
    (h : value ∈ given.values p) : ⟨p, value⟩ ∈ given := by
  rcases List.mem_filterMap.mp h with ⟨⟨q, other⟩, hmem, hvalue⟩
  dsimp only at hvalue
  split at hvalue
  · rename_i hq
    cases hq
    cases hvalue
    exact hmem
  · cases hvalue

theorem mem_of_require {p : Parameter} {value : p.Value} {given : Given}
    (h : given.require p = .ok value) : ⟨p, value⟩ ∈ given := by
  unfold require at h
  split at h
  · rename_i first hfirst
    cases h
    exact mem_of_mem_values (List.mem_of_head? hfirst)
  · cases h

theorem eq_ofTag_of_require {given : Given} (hread : given.Read) {kind : Kind}
    (h : given.require .kind = .ok kind) : ∃ tag, kind = Kind.ofTag tag := by
  rcases hread _ (mem_of_require h) with ⟨tag, htag⟩
  exact ⟨tag, (Except.ok.inj htag).symm⟩

theorem tagged_of_command {given : Given} (hread : given.Read) {name : CommandName} {e : Edit}
    (h : given.command name = .ok (.edit e)) : e.Tagged := by
  cases name with
  | add =>
      rcases bind_eq_ok.mp h with ⟨kind, hkind, h⟩
      cases h
      exact eq_ofTag_of_require hread hkind
  | remove =>
      rcases bind_eq_ok.mp h with ⟨action, _, h⟩
      cases h
      trivial
  | configure =>
      rcases bind_eq_ok.mp h with ⟨action, _, h⟩
      rcases bind_eq_ok.mp h with ⟨_, _, h⟩
      cases h
      trivial
  | move =>
      rcases bind_eq_ok.mp h with ⟨source, _, h⟩
      rcases bind_eq_ok.mp h with ⟨target, _, h⟩
      cases h
      trivial
  | label =>
      rcases bind_eq_ok.mp h with ⟨label, _, h⟩
      cases h
      trivial
  | clear =>
      cases h
      trivial
  | unset =>
      rcases bind_eq_ok.mp h with ⟨key, _, h⟩
      cases h
  | «show» => cases h
  | kinds => cases h
  | click => cases h

end Given

theorem CommandName.tagged_of_read {name : CommandName} {env : Environment}
    {words : List String} {given : Given} {e : Edit}
    (h : name.read env words = .ok (given, .edit e)) : e.Tagged := by
  rcases bind_eq_ok.mp h with ⟨complete, hcomplete, h⟩
  have hread := Given.read_addItems Given.read_nil hcomplete
  split at h
  · cases h
  · rcases bind_eq_ok.mp h with ⟨all, hall, h⟩
    rcases bind_eq_ok.mp h with ⟨_, _, h⟩
    rcases bind_eq_ok.mp h with ⟨command, hcommand, h⟩
    cases h
    exact Given.tagged_of_command (Given.read_addItems hread hall) hcommand

theorem Invocation.tagged_of_read {env : Environment} {words : List String} {inv : Invocation}
    {e : Edit} (h : Invocation.read env words = .ok inv) (he : inv.command? = some (.edit e)) :
    e.Tagged := by
  rcases bind_eq_ok.mp h with ⟨outer, _, h⟩
  dsimp only at h
  split at h
  · cases h
  · cases h
  · rcases bind_eq_ok.mp h with ⟨⟨given, command⟩, hname, h⟩
    rcases bind_eq_ok.mp h with ⟨_, hpair, h⟩
    cases hpair
    rcases bind_eq_ok.mp h with ⟨_, _, h⟩
    rcases bind_eq_ok.mp h with ⟨_, _, h⟩
    cases h
    cases he
    exact CommandName.tagged_of_read hname
  · rcases bind_eq_ok.mp h with ⟨_, hpair, h⟩
    cases hpair
    rcases bind_eq_ok.mp h with ⟨_, _, h⟩
    rcases bind_eq_ok.mp h with ⟨_, _, h⟩
    cases h
    cases he

end Cli
end ButtonFlow
