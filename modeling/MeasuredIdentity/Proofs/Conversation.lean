import MeasuredIdentity.Enrollment.Dialogue
import MeasuredIdentity.Proofs.Sequencing
import MeasuredIdentity.Proofs.WordsAndLines

/-!
Conversations line by line. A question that the output takes is answered by the next line of the
input, and this line is used up whether it can be read or not; a question that the output does not
take leaves the input as it is. So what the questions of a run use up are the next pieces of the
input, and nothing of it is lost between them.
-/
namespace MeasuredIdentity.Enrollment

/-- The two streams of a conversation as parts of a state. The output is of any kind: it takes a text
or does not, and changes as it likes, but writing leaves the input alone. -/
structure Streams (σ : Type) where
  input : σ → Bytes
  withInput : Bytes → σ → σ
  write : String → σ → Bool × σ
  input_withInput : ∀ b s, input (withInput b s) = b
  input_write : ∀ text s, input (write text s).2 = input s

def Streams.terminal {σ : Type} (k : Streams σ) : Terminal (StateM σ) where
  write text := modifyGet (k.write text)
  readLine := modifyGet fun s =>
    let (line, rest) := splitLine (k.input s)
    (Text.Utf8.decode? line, k.withInput rest s)

/-- The output takes every text, now and after whatever is written and read. -/
def Streams.Writable {σ : Type} (k : Streams σ) (s : σ) : Prop :=
  ∃ Takes : σ → Prop, Takes s ∧ ∀ t, Takes t →
    (∀ text, (k.write text t).1 = true ∧ Takes (k.write text t).2) ∧ ∀ b, Takes (k.withInput b t)

/-- Asks questions one after the other, whatever becomes of each. -/
def Terminal.askAll {m : Type → Type} [Monad m] (t : Terminal m) (questions : List String) :
    m (List (Except DialogueError String)) :=
  questions.mapM fun question => (t.ask question).run

/-- The next line of an input and what is behind it. The line feed belongs to the line; the last line
may have none. -/
inductive IsNextLine : Bytes → Bytes → Bytes → Prop
  | ended {front : Bytes} (rest : Bytes) (h : 0x0a ∉ front) :
      IsNextLine (front ++ 0x0a :: rest) (front ++ [0x0a]) rest
  | last {input : Bytes} (h : 0x0a ∉ input) : IsNextLine input input []

/-- So many lines are the front of an input, and the second byte string is behind them. -/
inductive TakesLines : Nat → Bytes → Bytes → Prop
  | zero (input : Bytes) : TakesLines 0 input input
  | succ {n : Nat} {input line rest rest' : Bytes} (hline : IsNextLine input line rest)
      (hlines : TakesLines n rest rest') : TakesLines (n + 1) input rest'

/-- What a line answers. -/
inductive Answers : Bytes → Except DialogueError String → Prop
  | word {line : String} {word : List Char} {more : List (List Char)}
      (h : Text.Spells line.toList (word :: more)) :
      Answers (Text.Utf8.encode line) (.ok (String.ofList word))
  | blank {line : String} (h : Text.Spells line.toList []) : Answers (Text.Utf8.encode line) (.ok "")
  | unreadable {b : Bytes} (h : ∀ line, b ≠ Text.Utf8.encode line) : Answers b (.error .unreadable)

/-- A question, what it used up of the input, and how it was answered. -/
structure Turn where
  question : String
  consumed : Bytes
  answer : Except DialogueError String

variable {σ : Type} {k : Streams σ} {s s' : σ}

/-- What may become of a question in a state, and the state after it. -/
inductive IsTurn (k : Streams σ) (s : σ) : Turn → σ → Prop
  | refused {question : String} {s' : σ} (hwrite : k.write question s = (false, s')) :
      IsTurn k s ⟨question, [], .error .outputFull⟩ s'
  | heard {question : String} {line rest : Bytes} {answer : Except DialogueError String} {s' : σ}
      (hwrite : k.write question s = (true, s')) (hline : IsNextLine (k.input s) line rest)
      (hanswer : Answers line answer) : IsTurn k s ⟨question, line, answer⟩ (k.withInput rest s')

inductive Conversation (k : Streams σ) : σ → List Turn → σ → Prop
  | done (s : σ) : Conversation k s [] s
  | turn {s s₁ s₂ : σ} {t : Turn} {turns : List Turn} (h : IsTurn k s t s₁)
      (hrest : Conversation k s₁ turns s₂) : Conversation k s (t :: turns) s₂

namespace IsNextLine

variable {input line rest : Bytes}

theorem splitLine_eq (h : IsNextLine input line rest) : splitLine input = (line, rest) := by
  cases h with
  | @ended front rest h =>
    induction front with
    | nil => rw [List.nil_append, splitLine_cons, if_pos rfl, List.nil_append]
    | cons x front ih =>
      rw [List.mem_cons, not_or] at h
      rw [List.cons_append, splitLine_cons, if_neg (Ne.symm h.1), ih h.2, List.cons_append]
  | last h =>
    induction input with
    | nil => rfl
    | cons x input ih =>
      rw [List.mem_cons, not_or] at h
      rw [splitLine_cons, if_neg (Ne.symm h.1), ih h.2]

theorem append_eq (h : IsNextLine input line rest) : line ++ rest = input := by
  have hsplit := splitLine_append input
  rwa [h.splitLine_eq] at hsplit

end IsNextLine

theorem exists_isNextLine (input : Bytes) : ∃ line rest, IsNextLine input line rest := by
  by_cases h : 0x0a ∈ input
  · obtain ⟨front, rest, rfl, hfront⟩ := List.eq_append_cons_of_mem h
    exact ⟨_, rest, .ended rest hfront⟩
  · exact ⟨input, [], .last h⟩

theorem takesLines_zero_iff {input rest : Bytes} : TakesLines 0 input rest ↔ input = rest := by
  constructor
  · rintro ⟨⟩
    rfl
  · rintro rfl
    exact .zero input

theorem takesLines_succ_iff {n : Nat} {input rest : Bytes} :
    TakesLines (n + 1) input rest ↔ TakesLines n (splitLine input).2 rest := by
  constructor
  · rintro (_ | ⟨hline, hlines⟩)
    rwa [hline.splitLine_eq]
  · intro hlines
    obtain ⟨line, rest', hline⟩ := exists_isNextLine input
    rw [hline.splitLine_eq] at hlines
    exact .succ hline hlines

/-- A text is answered by its first word. -/
theorem answers_firstWord (line : String) :
    Answers (Text.Utf8.encode line) (.ok (firstWord line)) := by
  have hspells : Text.Spells line.toList (Text.words line.toList) := Text.spells_iff.2 rfl
  unfold firstWord
  cases hwords : Text.words line.toList with
  | nil =>
    rw [hwords] at hspells
    exact .blank hspells
  | cons word more =>
    rw [hwords] at hspells
    exact .word hspells

theorem exists_answers (line : Bytes) : ∃ answer, Answers line answer := by
  by_cases h : ∃ text, line = Text.Utf8.encode text
  · obtain ⟨text, rfl⟩ := h
    exact ⟨_, answers_firstWord text⟩
  · exact ⟨_, .unreadable (not_exists.1 h)⟩

theorem Answers.eq {line : Bytes} {answer : Except DialogueError String} (h : Answers line answer) :
    answer = match Text.Utf8.decode? line with
      | some text => .ok (firstWord text)
      | none => .error .unreadable := by
  cases h with
  | word h => simp only [Text.Utf8.decode?_encode, firstWord, Text.spells_iff.1 h]; rfl
  | blank h => simp only [Text.Utf8.decode?_encode, firstWord, Text.spells_iff.1 h]; rfl
  | unreadable h =>
    have hnone : Text.Utf8.decode? line = none :=
      Option.eq_none_iff_forall_ne_some.2 fun text htext =>
        h text (Text.Utf8.decode?_eq_some_iff.1 htext)
    rw [hnone]

/-- An answer is missing only for a line that is not a text. -/
theorem Answers.of_error {line : Bytes} {e : DialogueError} (h : Answers line (.error e)) :
    e = .unreadable ∧ ∀ text, line ≠ Text.Utf8.encode text := by
  cases h with
  | unreadable h => exact ⟨rfl, h⟩

/-- Nothing is left to be read, so it reads as a blank line. -/
theorem Answers.eq_of_nil {answer : Except DialogueError String} (h : Answers [] answer) :
    answer = .ok "" := by
  rw [h.eq]
  rfl

theorem exists_isTurn (k : Streams σ) (s : σ) (question : String) :
    ∃ turn s', turn.question = question ∧ IsTurn k s turn s' := by
  rcases hwrite : k.write question s with ⟨_ | _, s'⟩
  · exact ⟨_, s', rfl, .refused hwrite⟩
  · obtain ⟨line, rest, hline⟩ := exists_isNextLine (k.input s)
    obtain ⟨answer, hanswer⟩ := exists_answers line
    exact ⟨⟨question, line, answer⟩, _, rfl, .heard hwrite hline hanswer⟩

/-- One question asks for one turn. -/
theorem IsTurn.run_ask {turn : Turn} (h : IsTurn k s turn s') :
    (k.terminal.ask turn.question).run.run s = (turn.answer, s') := by
  cases h with
  | @refused question s' hwrite =>
    have hrun : (k.terminal.write question).run s = (false, s') := hwrite
    rw [Terminal.ask, run_liftM_bind, StateM.run_bind_of hrun]
    rfl
  | @heard question line rest answer s' hwrite hline hanswer =>
    have hrun : (k.terminal.write question).run s = (true, s') := hwrite
    have hinput : k.input s' = k.input s := by
      rw [← k.input_write question s, hwrite]
    have hread : k.terminal.readLine.run s' = (Text.Utf8.decode? line, k.withInput rest s') := by
      show (Text.Utf8.decode? (splitLine (k.input s')).1, k.withInput (splitLine (k.input s')).2 s') = _
      rw [hinput, hline.splitLine_eq]
    rw [Terminal.ask, run_liftM_bind, StateM.run_bind_of hrun]
    simp only [if_true]
    rw [run_liftM_bind, StateM.run_bind_of hread, hanswer.eq]
    cases Text.Utf8.decode? line <;> rfl

/-- What a turn uses up is the next piece of the input. -/
theorem IsTurn.consumed_append {turn : Turn} (h : IsTurn k s turn s') :
    turn.consumed ++ k.input s' = k.input s := by
  cases h with
  | @refused question s' hwrite => rw [List.nil_append, ← k.input_write question s, hwrite]
  | heard _ hline _ => rw [k.input_withInput, hline.append_eq]

theorem IsTurn.answer_of_nil {turn : Turn} (h : IsTurn k s turn s') (hinput : k.input s = []) :
    turn.answer = .ok "" ∨ turn.answer = .error .outputFull := by
  cases h with
  | refused _ => exact .inr rfl
  | @heard _ line _ _ _ _ hline hanswer =>
    have hnil : line = [] := (List.append_eq_nil_iff.1 (hline.append_eq.trans hinput)).1
    exact .inl (Answers.eq_of_nil (hnil ▸ hanswer))

/-- A question that the output takes is answered by the next line. -/
theorem IsTurn.heard_of_taken {turn : Turn} (h : IsTurn k s turn s')
    (htaken : (k.write turn.question s).1 = true) : ∃ rest,
      IsNextLine (k.input s) turn.consumed rest ∧ Answers turn.consumed turn.answer ∧
        s' = k.withInput rest (k.write turn.question s).2 := by
  cases h with
  | refused hwrite =>
    rw [hwrite] at htaken
    cases htaken
  | @heard question line rest answer s' hwrite hline hanswer =>
    exact ⟨rest, hline, hanswer, by rw [hwrite]⟩

theorem exists_conversation (k : Streams σ) (s : σ) (questions : List String) :
    ∃ turns s', turns.map Turn.question = questions ∧ Conversation k s turns s' := by
  induction questions generalizing s with
  | nil => exact ⟨[], s, rfl, .done s⟩
  | cons question questions ih =>
    obtain ⟨turn, s₁, rfl, hturn⟩ := exists_isTurn k s question
    obtain ⟨turns, s₂, rfl, hrest⟩ := ih s₁
    exact ⟨turn :: turns, s₂, rfl, .turn hturn hrest⟩

namespace Conversation

variable {turns : List Turn}

/-- Questions lead their conversation. -/
theorem run_askAll (h : Conversation k s turns s') :
    (k.terminal.askAll (turns.map Turn.question)).run s = (turns.map Turn.answer, s') := by
  unfold Terminal.askAll
  induction h with
  | done s => rfl
  | turn h _ ih =>
    rw [List.map_cons, List.mapM_cons, StateM.run_bind_of h.run_ask, StateM.run_bind_of ih]
    rfl

/-- What the turns use up are the next pieces of the input. -/
theorem consumed_append (h : Conversation k s turns s') :
    turns.flatMap Turn.consumed ++ k.input s' = k.input s := by
  induction h with
  | done s => rfl
  | turn h _ ih => rw [List.flatMap_cons, List.append_assoc, ih, h.consumed_append]

theorem append {turns' : List Turn} {s₁ : σ} (h : Conversation k s turns s₁)
    (h' : Conversation k s₁ turns' s') : Conversation k s (turns ++ turns') s' := by
  induction h with
  | done s => exact h'
  | turn h _ ih => exact .turn h (ih h')

theorem of_append {earlier later : List Turn} (h : Conversation k s (earlier ++ later) s') :
    ∃ s₁, Conversation k s earlier s₁ ∧ Conversation k s₁ later s' := by
  induction earlier generalizing s with
  | nil => exact ⟨s, .done s, h⟩
  | cons turn earlier ih =>
    cases h with
    | turn h hrest =>
      obtain ⟨s₁, hearlier, hlater⟩ := ih hrest
      exact ⟨s₁, .turn h hearlier, hlater⟩

/-- Behind the end of the input the answers are empty. -/
theorem answer_at_end {earlier later : List Turn} {turn : Turn}
    (h : Conversation k s (earlier ++ turn :: later) s')
    (hend : earlier.flatMap Turn.consumed = k.input s) :
    turn.answer = .ok "" ∨ turn.answer = .error .outputFull := by
  obtain ⟨s₁, hearlier, hlater⟩ := h.of_append
  have hnil : k.input s₁ = [] := by
    have happend := hearlier.consumed_append
    rwa [hend, List.append_right_eq_self] at happend
  cases hlater with
  | turn h _ => exact h.answer_of_nil hnil

/-- Questions that the output takes use up a line each. -/
theorem takesLines (h : Conversation k s turns s') (hwritable : k.Writable s) :
    TakesLines turns.length (k.input s) (k.input s') := by
  obtain ⟨Takes, hs, htakes⟩ := hwritable
  -- `Takes` holds in each state on the way, since neither writing nor reading breaks it.
  induction h with
  | done s => exact .zero _
  | @turn s s₁ s₂ turn turns hturn _ ih =>
    obtain ⟨hquestion, hnext⟩ := (htakes s hs).1 turn.question
    obtain ⟨rest, hline, -, rfl⟩ := hturn.heard_of_taken hquestion
    have hlines := ih ((htakes _ hnext).2 rest)
    rw [k.input_withInput] at hlines
    exact .succ hline hlines

/-- Questions that the output takes are answered by what they use up. -/
theorem answers (h : Conversation k s turns s') (hwritable : k.Writable s) {turn : Turn}
    (hmem : turn ∈ turns) : Answers turn.consumed turn.answer := by
  obtain ⟨Takes, hs, htakes⟩ := hwritable
  induction h with
  | done s => cases hmem
  | @turn s s₁ s₂ first turns hturn _ ih =>
    obtain ⟨hquestion, hnext⟩ := (htakes s hs).1 first.question
    obtain ⟨rest, -, hanswer, rfl⟩ := hturn.heard_of_taken hquestion
    rcases List.mem_cons.1 hmem with rfl | hmem
    · exact hanswer
    · exact ih hmem ((htakes _ hnext).2 rest)

end Conversation

namespace Dialogue

theorem input_write (text : String) (d : Dialogue) : (d.write text).2.input = d.input := by
  unfold write
  split <;> rfl

def streams : Streams Dialogue where
  input := input
  withInput b d := { d with input := b }
  write text d := d.write text
  input_withInput _ _ := rfl
  input_write := input_write

theorem terminal_eq : streams.terminal = terminal := rfl

theorem write_of_room {d : Dialogue} (h : d.room = none) (text : String) :
    d.write text = (true, { d with output := d.output ++ Text.Utf8.encode text }) := by
  rw [write, h]

theorem writable_of_room {d : Dialogue} (h : d.room = none) : streams.Writable d := by
  refine ⟨fun d => d.room = none, h, fun d hroom => ⟨fun text => ?_, fun b => hroom⟩⟩
  show (d.write text).1 = true ∧ (d.write text).2.room = none
  rw [write_of_room hroom]
  exact ⟨rfl, hroom⟩

/-- An output without a limit shows the questions, one behind the other. -/
theorem output_of_conversation {d d' : Dialogue} {turns : List Turn}
    (h : Conversation streams d turns d') (hroom : d.room = none) :
    d'.output = d.output ++ (turns.map Turn.question).flatMap Text.Utf8.encode := by
  induction h with
  | done d => exact (List.append_nil _).symm
  | @turn d d₁ d₂ turn turns hturn _ ih =>
    have hwrite : streams.write turn.question d =
        (true, { d with output := d.output ++ Text.Utf8.encode turn.question }) :=
      write_of_room hroom turn.question
    obtain ⟨rest, -, -, rfl⟩ := hturn.heard_of_taken (by rw [hwrite])
    rw [hwrite] at ih
    rw [ih hroom, List.map_cons, List.flatMap_cons, ← List.append_assoc]
    rfl

end Dialogue

/-- Questions take the input line by line. Each of them is refused by the output and uses up nothing,
or it uses up the next line and is answered by its first word, if it can be read. What they use up is
the front of the input, in order, and where that is all of it the answers are empty. A dialogue in
memory is a conversation over its two streams. -/
theorem asks_line_by_line :
    (∀ {σ : Type} (k : Streams σ) (s : σ) (questions : List String), ∃ turns s',
      (k.terminal.askAll questions).run s = (turns.map Turn.answer, s') ∧
        turns.map Turn.question = questions ∧ Conversation k s turns s' ∧
        turns.flatMap Turn.consumed ++ k.input s' = k.input s ∧
        ∀ earlier turn later, turns = earlier ++ turn :: later →
          earlier.flatMap Turn.consumed = k.input s →
          turn.answer = .ok "" ∨ turn.answer = .error .outputFull) ∧
    Dialogue.streams.terminal = Dialogue.terminal := by
  refine ⟨fun k s questions => ?_, Dialogue.terminal_eq⟩
  obtain ⟨turns, s', rfl, h⟩ := exists_conversation k s questions
  refine ⟨turns, s', h.run_askAll, rfl, h, h.consumed_append, ?_⟩
  rintro earlier turn later rfl hend
  exact h.answer_at_end hend

/-- The first line cannot be read, the second has no line feed, and the third question has no room. -/
example :
    let questions := Dialogue.terminal.askAll ["a", "b", "c"]
    let r : List (Except DialogueError String) × Dialogue :=
      questions.run { input := [0xff, 0x0a, 0x78, 0x20, 0x79], room := some 2 }
    r.1.map Except.toOption = [none, some "x", none] ∧
      r.2 = { input := [], output := [0x61, 0x62], room := some 0 } := by
  decide +kernel

end MeasuredIdentity.Enrollment
