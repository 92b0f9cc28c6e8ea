import MeasuredIdentity.Proofs.Conversation
import MeasuredIdentity.Proofs.GeneratedIds

/-!
The registration id of a device, picked in a conversation. An id that is given counts, then a MAC
address or a version that is given stands for the wish to have one made, and else the user is asked.
Only where the id that counts is empty is there a need for the address and the version, and what is
not given of them is asked for before either is looked at. A line that cannot be read ends the
conversation.
-/
namespace MeasuredIdentity.Enrollment

open Terminal

section Programs

variable {σ α β : Type} {k : Streams σ}

/-- Each run of a program is a conversation, and the result is related to its turns. -/
def Converses (k : Streams σ) (x : ExceptT DialogueError (StateM σ) α)
    (Outcome : List Turn → Except DialogueError α → Prop) : Prop :=
  ∀ s, ∃ turns s' result,
    x.run.run s = (result, s') ∧ Conversation k s turns s' ∧ Outcome turns result

theorem converses_result {result : Except DialogueError α}
    {Outcome : List Turn → Except DialogueError α → Prop} (h : Outcome [] result) :
    Converses k (ExceptT.mk (pure result)) Outcome :=
  fun s => ⟨[], s, result, rfl, .done s, h⟩

theorem converses_ask {question : String} {Outcome : List Turn → Except DialogueError String → Prop}
    (h : ∀ turn : Turn, turn.question = question → Outcome [turn] turn.answer) :
    Converses k (k.terminal.ask question) Outcome := by
  intro s
  obtain ⟨turn, s', hquestion, hturn⟩ := exists_isTurn k s question
  refine ⟨[turn], s', turn.answer, ?_, .turn hturn (.done s'), h turn hquestion⟩
  rw [← hquestion, hturn.run_ask]

/-- A program and another one behind it: the first one fails, or the turns of both are made. -/
theorem Converses.bind {x : ExceptT DialogueError (StateM σ) α}
    {f : α → ExceptT DialogueError (StateM σ) β} {First : List Turn → Except DialogueError α → Prop}
    {Outcome : List Turn → Except DialogueError β → Prop} (hx : Converses k x First)
    (herror : ∀ turns e, First turns (.error e) → Outcome turns (.error e))
    (hf : ∀ first a, First first (.ok a) →
      Converses k (f a) fun second result => Outcome (first ++ second) result) :
    Converses k (x >>= f) Outcome := by
  intro s
  obtain ⟨first, s₁, result, hrun, hturns, hfirst⟩ := hx s
  cases result with
  | error e =>
    refine ⟨first, s₁, .error e, ?_, hturns, herror first e hfirst⟩
    rw [run_bind_state, hrun]
  | ok a =>
    obtain ⟨second, s', result, hrun', hturns', houtcome⟩ := hf first a hfirst s₁
    refine ⟨first ++ second, s', result, ?_, hturns.append hturns', houtcome⟩
    rw [run_bind_state, hrun]
    exact hrun'

end Programs

/-- A value that is given takes no turn; one that is not is the answer to its question. -/
inductive Obtained (question : String) :
    Option String → List Turn → Except DialogueError String → Prop
  | given (value : String) : Obtained question (some value) [] (.ok value)
  | asked {turn : Turn} (h : turn.question = question) :
      Obtained question none [turn] turn.answer

/-- The id that counts: the given one, the empty one if the address or the version is given, or else
the answer to a question. -/
inductive EffectiveId : Option String → Option String → Option String → List Turn →
    Except DialogueError String → Prop
  | given (id : String) (mac version : Option String) :
      EffectiveId (some id) mac version [] (.ok id)
  | implied {mac version : Option String} (h : mac.isSome ∨ version.isSome) :
      EffectiveId none mac version [] (.ok "")
  | asked {turn : Turn} (h : turn.question = idQuestion) :
      EffectiveId none none none [turn] turn.answer

/-- The id that counts is empty, and there are an address and a version: the turns for all of them,
in this order. -/
inductive DeviceValues (id mac version : Option String) : List Turn → String → String → Prop
  | mk {first second third : List Turn} {address number : String}
      (hid : EffectiveId id mac version first (.ok ""))
      (hmac : Obtained macQuestion mac second (.ok address))
      (hversion : Obtained versionQuestion version third (.ok number)) :
      DeviceValues id mac version (first ++ second ++ third) address number

/-- A question is not answered, and no other one is asked. -/
inductive BrokenOff (id mac version : Option String) : List Turn → DialogueError → Prop
  | id {turns : List Turn} {e : DialogueError} (hid : EffectiveId id mac version turns (.error e)) :
      BrokenOff id mac version turns e
  | mac {first second : List Turn} {e : DialogueError}
      (hid : EffectiveId id mac version first (.ok ""))
      (hmac : Obtained macQuestion mac second (.error e)) :
      BrokenOff id mac version (first ++ second) e
  | version {first second third : List Turn} {address : String} {e : DialogueError}
      (hid : EffectiveId id mac version first (.ok ""))
      (hmac : Obtained macQuestion mac second (.ok address))
      (hversion : Obtained versionQuestion version third (.error e)) :
      BrokenOff id mac version (first ++ second ++ third) e

/-- How a registration id comes about in some turns, or does not. -/
inductive PicksId (id mac version : Option String) :
    List Turn → Except DialogueError RegistrationId → Prop
  | wished {turns : List Turn} {wish : String} (hid : EffectiveId id mac version turns (.ok wish))
      (hne : wish ≠ "") :
      PicksId id mac version turns ((RegistrationId.parse wish).mapError .invalidId)
  | generated {turns : List Turn} {address number : String}
      (h : DeviceValues id mac version turns address number) :
      PicksId id mac version turns
        ((RegistrationId.resolve none address number).mapError .noGeneratedId)
  | brokenOff {turns : List Turn} {e : DialogueError} (h : BrokenOff id mac version turns e) :
      PicksId id mac version turns (.error e)

def questionUnless (given : Bool) (question : String) : List String :=
  if given then [] else [question]

/-- The questions that there are to ask, by which values are given and by whether the id that counts
is empty. -/
def neededQuestions (idGiven macGiven versionGiven emptyId : Bool) : List String :=
  questionUnless (idGiven || macGiven || versionGiven) idQuestion ++
    if emptyId then questionUnless macGiven macQuestion ++ questionUnless versionGiven versionQuestion
    else []

variable {σ : Type} {k : Streams σ} {id mac version : Option String} {turns : List Turn}

theorem Obtained.questions {question : String} {value : Option String}
    {answer : Except DialogueError String} (h : Obtained question value turns answer) :
    turns.map Turn.question = questionUnless value.isSome question := by
  cases h with
  | given value => rfl
  | asked h => rw [List.map_singleton, h]; rfl

theorem EffectiveId.questions {answer : Except DialogueError String}
    (h : EffectiveId id mac version turns answer) : turns.map Turn.question =
      questionUnless (id.isSome || mac.isSome || version.isSome) idQuestion := by
  cases h with
  | given id mac version => rfl
  | implied h =>
    have hgiven : (mac.isSome || version.isSome) = true := by rwa [Bool.or_eq_true]
    rw [Option.isSome_none, Bool.false_or, hgiven]
    rfl
  | asked h => rw [List.map_singleton, h]; rfl

theorem DeviceValues.questions {address number : String}
    (h : DeviceValues id mac version turns address number) : turns.map Turn.question =
      neededQuestions id.isSome mac.isSome version.isSome true := by
  cases h with
  | mk hid hmac hversion =>
    rw [List.map_append, List.map_append, hid.questions, hmac.questions, hversion.questions,
      List.append_assoc, neededQuestions, if_pos rfl]

/-- A question that was not answered is the last one. -/
theorem Obtained.exists_last {question : String} {value : Option String}
    {answer : Except DialogueError String} {e : DialogueError}
    (h : Obtained question value turns answer) (hanswer : answer = .error e) :
    ∃ turn, turns = [turn] ∧ turn.answer = .error e := by
  cases h with
  | given value => cases hanswer
  | @asked turn _ => exact ⟨turn, rfl, hanswer⟩

theorem EffectiveId.exists_last {answer : Except DialogueError String} {e : DialogueError}
    (h : EffectiveId id mac version turns answer) (hanswer : answer = .error e) :
    ∃ turn, turns = [turn] ∧ turn.answer = .error e := by
  cases h with
  | given id mac version => cases hanswer
  | implied _ => cases hanswer
  | @asked turn _ => exact ⟨turn, rfl, hanswer⟩

theorem BrokenOff.exists_last {e : DialogueError} (h : BrokenOff id mac version turns e) :
    ∃ front turn, turns = front ++ [turn] ∧ turn.answer = .error e := by
  cases h with
  | id hid =>
    obtain ⟨turn, rfl, hanswer⟩ := hid.exists_last rfl
    exact ⟨[], turn, rfl, hanswer⟩
  | mac hid hmac =>
    obtain ⟨turn, rfl, hanswer⟩ := hmac.exists_last rfl
    exact ⟨_, turn, rfl, hanswer⟩
  | version hid hmac hversion =>
    obtain ⟨turn, rfl, hanswer⟩ := hversion.exists_last rfl
    exact ⟨_, turn, rfl, hanswer⟩

theorem converses_valueOrAsk (k : Streams σ) (value : Option String) (question : String) :
    Converses k (k.terminal.valueOrAsk value question) (Obtained question value) := by
  cases value with
  | none => exact converses_ask fun turn hquestion => .asked hquestion
  | some value => exact converses_result (.given value)

theorem converses_wishedId (k : Streams σ) (id mac version : Option String) :
    Converses k (k.terminal.wishedId id mac version) (EffectiveId id mac version) := by
  unfold wishedId
  split
  next h =>
    obtain rfl := Option.isNone_iff_eq_none.1 h.1
    exact converses_result (.implied h.2)
  next h =>
    cases id with
    | some id => exact converses_result (.given id mac version)
    | none =>
      rw [not_and, not_or, Option.not_isSome_iff_eq_none, Option.not_isSome_iff_eq_none] at h
      obtain ⟨rfl, rfl⟩ := h rfl
      exact converses_ask fun turn hquestion => .asked hquestion

/-- A registration id is picked in a conversation. -/
theorem converses_registrationId (k : Streams σ) (id mac version : Option String) :
    Converses k (k.terminal.registrationId id mac version) (PicksId id mac version) := by
  refine (converses_wishedId k id mac version).bind
    (fun turns e hid => .brokenOff (.id hid)) fun first wish hid => ?_
  by_cases hwish : wish = ""
  · subst hwish
    rw [if_neg (not_not_intro rfl)]
    refine (converses_valueOrAsk k mac macQuestion).bind
      (fun second e hmac => .brokenOff (.mac hid hmac)) fun second address hmac => ?_
    refine (converses_valueOrAsk k version versionQuestion).bind (fun third e hversion => ?_)
      fun third number hversion => converses_result ?_
    · rw [← List.append_assoc]
      exact .brokenOff (.version hid hmac hversion)
    · rw [List.append_nil, ← List.append_assoc]
      exact .generated (.mk hid hmac hversion)
  · rw [if_pos hwish]
    refine converses_result ?_
    rw [List.append_nil]
    exact .wished hid hwish

theorem root_mapError {α : Type} (x : Except Error α) {wrap : Error → DialogueError}
    (hwrap : ∀ e, (wrap e).report.root? = some e) :
    (x.mapError wrap).mapError (·.report.root?) = x.mapError some := by
  cases x with
  | error e => exact congrArg Except.error (hwrap e)
  | ok a => rfl

/-- The id of a device by the id that counts. If this is not empty, nothing more is asked for and it is
taken as it is. If it is empty, what is not given of the address and the version is asked for, and the
id is made of them. So the result is that of `resolve`, up to the words around an error, and the
questions depend only on which values are given and on whether the id that counts is empty. An output
that takes every question shows them one behind the other, and each of them uses up a line. A line that
is not a text is used up as well, and ends the conversation. -/
theorem registrationId_by_effective_id :
    (∀ {σ : Type} (k : Streams σ) (s : σ) (id mac version : Option String), ∃ turns s' result,
      (k.terminal.registrationId id mac version).run.run s = (result, s') ∧
      Conversation k s turns s' ∧
      (k.Writable s → TakesLines turns.length (k.input s) (k.input s')) ∧
      ((∃ wish, EffectiveId id mac version turns (.ok wish) ∧ wish ≠ "" ∧
          result = (RegistrationId.parse wish).mapError .invalidId ∧
          (∀ address number, result.mapError (·.report.root?) =
            (RegistrationId.resolve (some wish) address number).mapError some) ∧
          turns.map Turn.question =
            neededQuestions id.isSome mac.isSome version.isSome false) ∨
        (∃ address number, DeviceValues id mac version turns address number ∧
          result = (RegistrationId.resolve none address number).mapError .noGeneratedId ∧
          result.mapError (·.report.root?) =
            (RegistrationId.resolve (some "") address number).mapError some ∧
          turns.map Turn.question =
            neededQuestions id.isSome mac.isSome version.isSome true) ∨
        ∃ e, BrokenOff id mac version turns e ∧ result = .error e ∧
          (k.Writable s → e = .unreadable ∧
            ∃ turn ∈ turns, ∀ text, turn.consumed ≠ Text.Utf8.encode text))) ∧
    Dialogue.streams.terminal = Dialogue.terminal ∧
    ∀ d : Dialogue, d.room = none → Dialogue.streams.Writable d ∧
      ∀ turns d', Conversation Dialogue.streams d turns d' →
        d'.output = d.output ++ (turns.map Turn.question).flatMap Text.Utf8.encode := by
  refine ⟨fun k s id mac version => ?_, Dialogue.terminal_eq, fun d hroom =>
    ⟨Dialogue.writable_of_room hroom, fun turns d' h => Dialogue.output_of_conversation h hroom⟩⟩
  obtain ⟨turns, s', result, hrun, hturns, hpicks⟩ := converses_registrationId k id mac version s
  refine ⟨turns, s', result, hrun, hturns, hturns.takesLines, ?_⟩
  cases hpicks with
  | @wished wish hid hne =>
    refine .inl ⟨wish, hid, hne, rfl, fun address number => ?_, ?_⟩
    · rw [root_mapError _ fun e => rfl, RegistrationId.resolve_of_supplied hne]
    · rw [hid.questions, neededQuestions, if_neg Bool.false_ne_true, List.append_nil]
  | @generated address number h =>
    refine .inr (.inl ⟨address, number, h, rfl, ?_, h.questions⟩)
    rw [root_mapError _ fun e => rfl, RegistrationId.resolve_of_absent (.inl rfl),
      RegistrationId.resolve_of_absent (.inr rfl)]
  | @brokenOff e h =>
    refine .inr (.inr ⟨e, h, rfl, fun hwritable => ?_⟩)
    obtain ⟨front, turn, rfl, hanswer⟩ := h.exists_last
    have hmem : turn ∈ front ++ [turn] := List.mem_append_right _ List.mem_cons_self
    have hanswers := hturns.answers hwritable hmem
    rw [hanswer] at hanswers
    exact ⟨hanswers.of_error.1, turn, hmem, hanswers.of_error.2⟩

/-- The address cannot be read, so the version is not asked for, and its line is left. -/
theorem registrationId_unreadable_address :
    let d : Dialogue := { input := 0xff :: 0x0a :: Text.Utf8.encode "1.2.3\n" }
    let d' := ((Dialogue.terminal.registrationId (some "") none none).run.run d).2
    Dialogue.streams.Writable d ∧ d'.input = Text.Utf8.encode "1.2.3\n" ∧
      ¬ TakesLines 2 d.input d'.input ∧
      d'.output ≠ (neededQuestions true false false true).flatMap Text.Utf8.encode := by
  refine ⟨Dialogue.writable_of_room rfl, by decide +kernel, ?_, by decide +kernel⟩
  rw [takesLines_succ_iff, takesLines_succ_iff, takesLines_zero_iff]
  decide +kernel

end MeasuredIdentity.Enrollment
