import ButtonFlow.Proofs.Cli.Answers

/-!
# The reader of the input

Somebody reads the input line by line, while the clicks are served, and puts the answers into a
place that holds one of them. A prompt takes the answer that is there, or waits for one; when
the reader has left and nothing is there, it is dismissed. However the two take turns, every
prompt gets an answer of its own, in the order of the lines.
-/

namespace ButtonFlow

namespace Cli

/-!
## Reader and prompts
-/

inductive Stage where
  | reading
  | holding (answer : String)
  | gone

structure Reader where
  /-- The lines that are not read yet, each with what ends it. -/
  unread : List (List UInt8)
  stage : Stage
  slot : Option String

namespace Reader

def start (input : ByteArray) : Reader :=
  ⟨inputLines input.toList, .reading, none⟩

inductive Step : Reader → Reader → Prop where
  | read {line : List UInt8} {unread : List (List UInt8)} {answer : String} {slot : Option String}
      (hanswer : answer? line = some answer) :
      Step ⟨line :: unread, .reading, slot⟩ ⟨unread, .holding answer, slot⟩
  | put {unread : List (List UInt8)} {answer : String} :
      Step ⟨unread, .holding answer, none⟩ ⟨unread, .reading, some answer⟩
  | giveUp {line : List UInt8} {unread : List (List UInt8)} {slot : Option String}
      (hanswer : answer? line = none) :
      Step ⟨line :: unread, .reading, slot⟩ ⟨unread, .gone, slot⟩
  | finish {slot : Option String} : Step ⟨[], .reading, slot⟩ ⟨[], .gone, slot⟩

inductive Answers : Reader → Option String → Reader → Prop where
  | taken {unread : List (List UInt8)} {stage : Stage} {answer : String} :
      Answers ⟨unread, stage, some answer⟩ (some answer) ⟨unread, stage, none⟩
  | dismissed {unread : List (List UInt8)} :
      Answers ⟨unread, .gone, none⟩ none ⟨unread, .gone, none⟩

/-- What prompts get, one after the other, while the reader goes on. -/
inductive Receives : Reader → List (Option String) → Reader → Prop where
  | nothing (r : Reader) : Receives r [] r
  | step {r r₁ r' : Reader} {answers : List (Option String)} (hstep : Step r r₁)
      (hlater : Receives r₁ answers r') : Receives r answers r'
  | prompt {r r₁ r' : Reader} {answer : Option String} {answers : List (Option String)}
      (hanswer : Answers r answer r₁) (hlater : Receives r₁ answers r') :
      Receives r (answer :: answers) r'

/-- The prompts can get these answers of an input, and after them no more. -/
def Feeds (input : ByteArray) (answers : List String) : Prop :=
  ∀ n, ∃ r, Receives (start input) ((List.range n).map fun k => answers[k]?) r

/-!
## The answers that are left
-/

/-- The answers up to the first line that is no text. -/
def texts (lines : List (List UInt8)) : List String :=
  ((lines.map answer?).takeWhile Option.isSome).filterMap id

theorem texts_cons_some {line : List UInt8} {answer : String} (h : answer? line = some answer)
    (lines : List (List UInt8)) : texts (line :: lines) = answer :: texts lines := by
  simp [texts, h]

theorem texts_cons_none {line : List UInt8} (h : answer? line = none)
    (lines : List (List UInt8)) : texts (line :: lines) = [] := by
  simp [texts, h]

def ahead (r : Reader) : List String :=
  match r.stage with
  | .reading => texts r.unread
  | .holding answer => answer :: texts r.unread
  | .gone => []

def left (r : Reader) : List String :=
  r.slot.toList ++ r.ahead

theorem left_start (input : ByteArray) : (start input).left = answersOf input := rfl

theorem Step.left_eq {r r' : Reader} (h : Step r r') : r'.left = r.left := by
  cases h with
  | read hanswer =>
      unfold left ahead
      rw [texts_cons_some hanswer]
  | put => rfl
  | giveUp hanswer =>
      unfold left ahead
      rw [texts_cons_none hanswer]
  | finish => rfl

theorem Answers.left_eq {r r' : Reader} {answer : Option String} (h : Answers r answer r') :
    answer = r.left.head? ∧ r'.left = r.left.tail := by
  cases h with
  | taken => exact ⟨rfl, rfl⟩
  | dismissed => exact ⟨rfl, rfl⟩

theorem Receives.eq_map {r r' : Reader} {answers : List (Option String)}
    (h : Receives r answers r') :
    answers = (List.range answers.length).map fun k => r.left[k]? := by
  -- The reader leaves the answers that are left alone, and a prompt takes the first of them.
  induction h with
  | nothing r => rfl
  | step hstep _ ih => rwa [hstep.left_eq] at ih
  | prompt hanswer _ ih =>
      rcases hanswer.left_eq with ⟨hhead, htail⟩
      rw [htail] at ih
      rw [List.length_cons, List.range_succ_eq_map, List.map_cons, List.map_map, hhead,
        List.head?_eq_getElem?]
      apply congrArg (List.cons _)
      rw [ih]
      simp

theorem exists_answers (r : Reader) :
    ∃ answer r', Receives r [answer] r' := by
  rcases r with ⟨unread, stage, slot⟩
  cases slot with
  | some answer => exact ⟨_, _, .prompt .taken (.nothing _)⟩
  | none =>
      cases stage with
      | gone => exact ⟨_, _, .prompt .dismissed (.nothing _)⟩
      | holding answer => exact ⟨_, _, .step .put (.prompt .taken (.nothing _))⟩
      | reading =>
          cases unread with
          | nil => exact ⟨_, _, .step .finish (.prompt .dismissed (.nothing _))⟩
          | cons line unread =>
              cases hanswer : answer? line with
              | none =>
                  exact ⟨_, _, .step (.giveUp hanswer) (.prompt .dismissed (.nothing _))⟩
              | some answer =>
                  exact ⟨_, _, .step (.read hanswer) (.step .put (.prompt .taken (.nothing _)))⟩

theorem Receives.append {r r₁ r' : Reader} {answers later : List (Option String)}
    (h : Receives r answers r₁) (hlater : Receives r₁ later r') :
    Receives r (answers ++ later) r' := by
  induction h with
  | nothing r => exact hlater
  | step hstep _ ih => exact .step hstep (ih hlater)
  | prompt hanswer _ ih => exact .prompt hanswer (ih hlater)

theorem exists_receives (r : Reader) (n : Nat) :
    ∃ answers r', Receives r answers r' ∧ answers.length = n := by
  induction n with
  | zero => exact ⟨[], r, .nothing r, rfl⟩
  | succ n ih =>
      rcases ih with ⟨answers, r₁, hanswers, hlength⟩
      rcases exists_answers r₁ with ⟨answer, r', hanswer⟩
      refine ⟨_, r', hanswers.append hanswer, ?_⟩
      rw [List.length_append, hlength, List.length_singleton]

/-- However reader and prompts take turns, the prompts get the answers of the input. -/
theorem feeds_iff {input : ByteArray} {answers : List String} :
    Feeds input answers ↔ answers = answersOf input := by
  constructor
  · intro h
    apply List.ext_getElem?
    intro k
    rcases h (k + 1) with ⟨r, hreceives⟩
    have hall := hreceives.eq_map
    rw [left_start, List.length_map, List.length_range, List.map_inj_left] at hall
    exact hall k (List.mem_range.mpr (Nat.lt_succ_self k))
  · rintro rfl n
    rcases exists_receives (start input) n with ⟨answers, r, hreceives, hlength⟩
    have hall := hreceives.eq_map
    rw [left_start, hlength] at hall
    exact ⟨r, hall ▸ hreceives⟩

theorem Feeds.getElem?_eq {text : String} {answers : List String} (h : Feeds text.toUTF8 answers)
    (k : Nat) : answers[k]? = (lines text)[k]? := by
  rw [feeds_iff.mp h, answersOf_toUTF8]

end Reader

end Cli

end ButtonFlow
