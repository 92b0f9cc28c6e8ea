import MeasuredIdentity.Enrollment.CommandLine
import MeasuredIdentity.Proofs.EnrollmentReplay
import Mathlib.Tactic.ByContra

/-!
The interview of the enrolment tool. What the tool does next depends on the values that it has: it
asks for one, or it has come to a conclusion. An answer counts like a value from the command line,
so a run of questions and answers ends where the arguments with the answers in them end at once.
-/
namespace MeasuredIdentity.Enrollment

open FileTree

/-- What the tool may ask for, in the order of its questions. -/
inductive Question where
  | project
  | secret
  | registrationId
  | mac
  | firmwareVersion
  deriving DecidableEq

namespace Question

def text : Question → String
  | project => Tool.projectQuestion
  | secret => Tool.secretQuestion
  | registrationId => Terminal.idQuestion
  | mac => Terminal.macQuestion
  | firmwareVersion => Terminal.versionQuestion

/-- The place of a question in the order. -/
def rank : Question → Nat
  | project => 0
  | secret => 1
  | registrationId => 2
  | mac => 3
  | firmwareVersion => 4

theorem rank_injective {q q' : Question} (h : q.rank = q'.rank) : q = q' := by
  cases q <;> cases q' <;> first | rfl | cases h

end Question

namespace Arguments

/-- The arguments with an answer among them. -/
def supply (a : Arguments) (q : Question) (value : String) : Arguments :=
  match q with
  | .project => { a with project := some value }
  | .secret => { a with secret := some value }
  | .registrationId => { a with registrationId := some value }
  | .mac => { a with mac := some value }
  | .firmwareVersion => { a with firmwareVersion := some value }

/-- The registration id that is wished for, as far as it is known. The empty text is the wish for an
id that is made from the address and the version, and naming either of these is that wish. -/
def wish (a : Arguments) : Option String :=
  if a.registrationId.isNone ∧ (a.mac.isSome ∨ a.firmwareVersion.isSome) then some ""
  else a.registrationId

/-- The value that answers a question, as far as it is known. -/
def value? (a : Arguments) : Question → Option String
  | .project => a.project
  | .secret => a.secret
  | .registrationId => a.wish
  | .mac => a.mac
  | .firmwareVersion => a.firmwareVersion

theorem wish_eq_none_iff {a : Arguments} : a.wish = none ↔
    a.registrationId = none ∧ a.mac = none ∧ a.firmwareVersion = none := by
  unfold wish
  rcases a.registrationId with _ | id <;> rcases a.mac with _ | mac <;>
    rcases a.firmwareVersion with _ | version <;> simp

def policy (a : Arguments) : IssuePolicy :=
  { deviceCertificate := if a.request then .request else .selfSigned }

/-- The project is named and its files are there. -/
def HasInputs (a : Arguments) (t : FileTree) (project : String) : Prop :=
  a.project = some project ∧ project ≠ "" ∧ t.isFile (binaryPath project) = true ∧
    t.isFile (mapPath project) = true

/-- The secret is given in a form that can be read. -/
def HasSecret (a : Arguments) (secret : DeviceSecret) : Prop :=
  ∃ text, a.secret = some text ∧ parseSecret text = .ok secret

/-- What comes next is a question. -/
inductive Asks (a : Arguments) (t : FileTree) : Question → Prop
  | project (h : a.project = none) : Asks a t .project
  | secret {project : String} (hinputs : a.HasInputs t project) (h : a.secret = none) :
      Asks a t .secret
  | registrationId {project : String} {secret : DeviceSecret} (hinputs : a.HasInputs t project)
      (hsecret : a.HasSecret secret) (hid : a.registrationId = none) (hmac : a.mac = none)
      (hversion : a.firmwareVersion = none) : Asks a t .registrationId
  | mac {project : String} {secret : DeviceSecret} (hinputs : a.HasInputs t project)
      (hsecret : a.HasSecret secret) (hwish : a.wish = some "") (h : a.mac = none) : Asks a t .mac
  | firmwareVersion {project mac : String} {secret : DeviceSecret} (hinputs : a.HasInputs t project)
      (hsecret : a.HasSecret secret) (hwish : a.wish = some "") (hmac : a.mac = some mac)
      (h : a.firmwareVersion = none) : Asks a t .firmwareVersion

/-- The registration id that the values give, or what is wrong with them. -/
inductive GivesId (a : Arguments) : Except DialogueError RegistrationId → Prop
  | wished {wish : String} (h : a.wish = some wish) (hne : wish ≠ "") :
      GivesId a ((RegistrationId.parse wish).mapError .invalidId)
  | generated {mac version : String} (hwish : a.wish = some "") (hmac : a.mac = some mac)
      (hversion : a.firmwareVersion = some version) :
      GivesId a ((RegistrationId.resolve none mac version).mapError .noGeneratedId)

/-- What comes next is the end: a value is wrong, or there is all that an enrolment needs. -/
inductive Concludes (a : Arguments) (t : FileTree) : Except ToolError Plan → Prop
  | emptyProject (h : a.project = some "") : Concludes a t (.error .emptyProject)
  | missingBinary {project : String} (h : a.project = some project) (hne : project ≠ "")
      (hfile : t.isFile (binaryPath project) = false) :
      Concludes a t (.error (.enrollment (.missingFile (binaryPath project))))
  | missingMap {project : String} (h : a.project = some project) (hne : project ≠ "")
      (hbinary : t.isFile (binaryPath project) = true) (hfile : t.isFile (mapPath project) = false) :
      Concludes a t (.error (.enrollment (.missingFile (mapPath project))))
  | wrongSecret {project text : String} {cause : SecretTextError}
      (hinputs : a.HasInputs t project) (h : a.secret = some text)
      (hparse : parseSecret text = .error cause) : Concludes a t (.error (.secret cause))
  | wrongId {project : String} {secret : DeviceSecret} {cause : DialogueError}
      (hinputs : a.HasInputs t project) (hsecret : a.HasSecret secret)
      (h : a.GivesId (.error cause)) : Concludes a t (.error (.dialogue cause))
  | plan {project : String} {secret : DeviceSecret} {id : RegistrationId}
      (hinputs : a.HasInputs t project) (hsecret : a.HasSecret secret) (h : a.GivesId (.ok id)) :
      Concludes a t (.ok ⟨project, secret, id, a.outDirectory, a.policy⟩)

end Arguments

/-- A question and the line that was read for it, if that could be read. -/
abbrev Exchange := Question × Option String

/-- The exchanges from some arguments on, and what they come to. -/
inductive Interview (t : FileTree) : Arguments → List Exchange → Except ToolError Plan → Prop
  | concluded {a : Arguments} {result : Except ToolError Plan} (h : a.Concludes t result) :
      Interview t a [] result
  | unreadable {a : Arguments} {q : Question} (h : a.Asks t q) :
      Interview t a [(q, none)] (.error (.dialogue .unreadable))
  | answered {a : Arguments} {q : Question} (h : a.Asks t q) (line : String) {talk : List Exchange}
      {result : Except ToolError Plan}
      (hrest : Interview t (a.supply q (firstWord line)) talk result) :
      Interview t a ((q, some line) :: talk) result

/-- The lines of the exchanges are the next lines of the input, and the second byte string is what
is left of it. -/
inductive ReadsLines : Bytes → List Exchange → Bytes → Prop
  | nil (input : Bytes) : ReadsLines input [] input
  | cons {input rest : Bytes} (q : Question) {talk : List Exchange}
      (h : ReadsLines (splitLine input).2 talk rest) :
      ReadsLines input ((q, Text.Utf8.decode? (splitLine input).1) :: talk) rest

namespace Tool

section Lift

variable {m : Type → Type} [Monad m] [LawfulMonad m] {ε α β : Type} (wrap : ε → ToolError)

theorem lift_bind (x : ExceptT ε m α) (f : α → ExceptT ε m β) :
    lift wrap (x >>= f) = lift wrap x >>= fun a => lift wrap (f a) := by
  apply ExceptT.ext
  simp only [lift, ExceptT.run_bind, ExceptT.run_mk, bind_assoc, pure_bind]
  congr 1
  funext r
  rcases r with e | a <;> simp [Except.mapError]

theorem lift_pure (x : Except ε α) :
    lift wrap (ExceptT.mk (pure x) : ExceptT ε m α) = ExceptT.mk (pure (x.mapError wrap)) := by
  apply ExceptT.ext
  simp [lift]

end Lift

end Tool

namespace Station

/-- A station whose output has room for everything. -/
def unlimited (t : FileTree) (input output : Bytes) : Station := ⟨t, ⟨input, output, none⟩⟩

theorem run_write (t : FileTree) (input output : Bytes) (text : String) :
    (terminal.write text).run (unlimited t input output) =
      (true, unlimited t input (output ++ Text.Utf8.encode text)) := rfl

theorem run_readLine (t : FileTree) (input output : Bytes) :
    terminal.readLine.run (unlimited t input output) =
      (Text.Utf8.decode? (splitLine input).1, unlimited t (splitLine input).2 output) := rfl

theorem run_ask (t : FileTree) (input output : Bytes) (question : String) :
    (terminal.ask question).run.run (unlimited t input output) =
      (match Text.Utf8.decode? (splitLine input).1 with
        | some line => .ok (firstWord line)
        | none => .error .unreadable,
      unlimited t (splitLine input).2 (output ++ Text.Utf8.encode question)) := by
  unfold Terminal.ask
  rw [run_liftM_bind, StateM.run_bind_of (run_write t input output question)]
  simp only [if_true]
  rw [run_liftM_bind, StateM.run_bind_of (run_readLine t input _)]
  cases Text.Utf8.decode? (splitLine input).1 <;> rfl

/-- Lifted errors are wrapped. -/
theorem run_lift {ε α : Type} (wrap : ε → ToolError) (x : ExceptT ε (StateM Station) α)
    (s : Station) : (Tool.lift wrap x).run.run s =
      ((x.run.run s).1.mapError wrap, (x.run.run s).2) := rfl

end Station

namespace Tool

section Stages

variable {m : Type → Type} [Monad m] [LawfulMonad m] (terminal : Terminal m) (a : Arguments)
  (project : String) (secret : DeviceSecret)

/-- The plan for a registration id, or what is wrong with the values for it. -/
def planFor (id : Except DialogueError RegistrationId) : ExceptT ToolError m Plan := do
  let id ← ExceptT.mk (pure (id.mapError .dialogue))
  return ⟨project, secret, id, a.outDirectory, a.policy⟩

/-- The last stage of the interview, once the MAC address is there. -/
def gatherVersion (mac : String) : ExceptT ToolError m Plan := do
  let version ← lift .dialogue (terminal.valueOrAsk a.firmwareVersion Terminal.versionQuestion)
  planFor a project secret ((RegistrationId.resolve none mac version).mapError .noGeneratedId)

/-- The stage for a wish, the empty one leads to the MAC address. -/
def gatherWish (wish : String) : ExceptT ToolError m Plan :=
  if wish ≠ "" then planFor a project secret ((RegistrationId.parse wish).mapError .invalidId)
  else lift .dialogue (terminal.valueOrAsk a.mac Terminal.macQuestion) >>=
    gatherVersion terminal a project secret

/-- The stage from the registration id on. -/
def gatherId : ExceptT ToolError m Plan :=
  lift .dialogue (terminal.valueOrAsk a.wish Terminal.idQuestion) >>=
    gatherWish terminal a project secret

/-- The stage from the secret on. -/
def gatherSecret : ExceptT ToolError m Plan := do
  let text ← lift .dialogue (terminal.valueOrAsk a.secret secretQuestion)
  let secret ← lift .secret (ExceptT.mk (pure (parseSecret text)))
  gatherId terminal a project secret

/-- The stage from the name of the project on. -/
def gatherFor (files : Files m) : ExceptT ToolError m Plan := do
  if project = "" then throw .emptyProject
  lift .enrollment (checkInputs files project)
  gatherSecret terminal a project

theorem lift_given_bind {α : Type} (value question : String) (f : String → ExceptT ToolError m α) :
    lift .dialogue (terminal.valueOrAsk (some value) question) >>= f = f value := by
  have hgiven : lift .dialogue (terminal.valueOrAsk (some value) question) =
      (pure value : ExceptT ToolError m String) := lift_pure .dialogue (.ok value)
  rw [hgiven, pure_bind]

omit [LawfulMonad m] in
theorem wishedId_eq : terminal.wishedId a.registrationId a.mac a.firmwareVersion =
    terminal.valueOrAsk a.wish Terminal.idQuestion := by
  unfold Terminal.wishedId Arguments.wish
  split_ifs <;> rfl

theorem lift_registrationId_bind : (do
      let id ← lift .dialogue (terminal.registrationId a.registrationId a.mac a.firmwareVersion)
      return ⟨project, secret, id, a.outDirectory, a.policy⟩) =
    gatherId terminal a project secret := by
  unfold Terminal.registrationId gatherId
  rw [wishedId_eq, lift_bind, bind_assoc]
  refine bind_congr fun wish => ?_
  unfold gatherWish
  split_ifs
  · rw [lift_pure]
    rfl
  · rw [lift_bind, bind_assoc]
    refine bind_congr fun mac => ?_
    rw [lift_bind, bind_assoc]
    refine bind_congr fun version => ?_
    rw [lift_pure]
    rfl

theorem gather_eq (files : Files m) : gather terminal files a =
    lift .dialogue (terminal.valueOrAsk a.project projectQuestion) >>= fun project =>
      gatherFor terminal a project files := by
  unfold gather gatherFor gatherSecret
  simp only [← lift_registrationId_bind]
  rfl

end Stages

end Tool

namespace Station

variable {t : FileTree} {a : Arguments} {project : String} {secret : DeviceSecret}
  (input output : Bytes)

theorem run_lift_bind {ε α β : Type} (wrap : ε → ToolError) (x : ExceptT ε (StateM Station) α)
    (f : α → ExceptT ToolError (StateM Station) β) (s : Station) :
    (Tool.lift wrap x >>= f).run.run s =
      match x.run.run s with
      | (.ok a, s') => (f a).run.run s'
      | (.error e, s') => (.error (wrap e), s') := by
  rw [run_bind_state, run_lift]
  rcases x.run.run s with ⟨_ | a, s'⟩ <;> rfl

/-- Goes on after an answer, or ends where there is none. -/
theorem run_lift_ask_bind {α : Type} (question : String)
    (f : String → ExceptT ToolError (StateM Station) α) :
    (Tool.lift .dialogue (terminal.valueOrAsk none question) >>= f).run.run (unlimited t input output) =
      match Text.Utf8.decode? (splitLine input).1 with
      | some line => (f (firstWord line)).run.run
          (unlimited t (splitLine input).2 (output ++ Text.Utf8.encode question))
      | none => (.error (.dialogue .unreadable),
          unlimited t (splitLine input).2 (output ++ Text.Utf8.encode question)) := by
  have hask : terminal.valueOrAsk none question = terminal.ask question := rfl
  rw [run_lift_bind, hask, run_ask]
  cases Text.Utf8.decode? (splitLine input).1 <;> rfl

theorem readsFrom_access : ReadsFrom access Station.files := ⟨fun _ _ => rfl, fun _ _ => rfl⟩

theorem run_gather_of_project (h : a.project = some project) :
    (Tool.gather terminal access a).run.run (unlimited t input output) =
      (Tool.gatherFor terminal a project access).run.run (unlimited t input output) := by
  rw [Tool.gather_eq, h, Tool.lift_given_bind]

theorem run_gather_of_hasInputs (h : a.HasInputs t project) :
    (Tool.gather terminal access a).run.run (unlimited t input output) =
      (Tool.gatherSecret terminal a project).run.run (unlimited t input output) := by
  obtain ⟨hproject, hne, hfiles⟩ := h
  have hcheck : (checkInputs access project).run.run (unlimited t input output) =
      (.ok (), unlimited t input output) := by
    rw [readsFrom_access.run_checkInputs]
    exact congrArg (·, _) (checkInputs_eq_ok_iff.2 hfiles)
  rw [run_gather_of_project input output hproject, Tool.gatherFor]
  simp only [if_neg hne]
  rw [run_lift_bind, hcheck]

theorem run_gather_of_hasSecret (h : a.HasInputs t project) (hsecret : a.HasSecret secret) :
    (Tool.gather terminal access a).run.run (unlimited t input output) =
      (Tool.gatherId terminal a project secret).run.run (unlimited t input output) := by
  obtain ⟨text, htext, hparse⟩ := hsecret
  rw [run_gather_of_hasInputs input output h, Tool.gatherSecret, htext, Tool.lift_given_bind, hparse]
  rfl

theorem run_gather_of_wish {wish : String} (h : a.HasInputs t project) (hsecret : a.HasSecret secret)
    (hwish : a.wish = some wish) :
    (Tool.gather terminal access a).run.run (unlimited t input output) =
      (Tool.gatherWish terminal a project secret wish).run.run (unlimited t input output) := by
  rw [run_gather_of_hasSecret input output h hsecret, Tool.gatherId, hwish, Tool.lift_given_bind]

theorem run_gather_of_mac {mac : String} (h : a.HasInputs t project) (hsecret : a.HasSecret secret)
    (hwish : a.wish = some "") (hmac : a.mac = some mac) :
    (Tool.gather terminal access a).run.run (unlimited t input output) =
      (Tool.gatherVersion terminal a project secret mac).run.run (unlimited t input output) := by
  rw [run_gather_of_wish input output h hsecret hwish, Tool.gatherWish, if_neg (not_not_intro rfl),
    hmac, Tool.lift_given_bind]

/-- A wish for an id that is made stays one when the address or the version comes in. -/
theorem wish_supply {q : Question} (hwish : a.wish = some "") (hq : q = .mac ∨ q = .firmwareVersion)
    (value : String) : (a.supply q value).wish = some "" := by
  unfold Arguments.wish at hwish ⊢
  rcases hq with rfl | rfl <;> cases hid : a.registrationId <;> simp_all [Arguments.supply]

/-- A question takes a line, and its answer counts like an argument. -/
theorem run_gather_of_asks {q : Question} (h : a.Asks t q) :
    (Tool.gather terminal access a).run.run (unlimited t input output) =
      match Text.Utf8.decode? (splitLine input).1 with
      | some line => (Tool.gather terminal access (a.supply q (firstWord line))).run.run
          (unlimited t (splitLine input).2 (output ++ Text.Utf8.encode q.text))
      | none => (.error (.dialogue .unreadable),
          unlimited t (splitLine input).2 (output ++ Text.Utf8.encode q.text)) := by
  cases h with
  | project h =>
    rw [Tool.gather_eq, h, run_lift_ask_bind]
    rcases Text.Utf8.decode? (splitLine input).1 with _ | line
    · rfl
    · exact (run_gather_of_project (a := a.supply .project (firstWord line)) _ _ rfl).symm
  | @secret project hinputs h =>
    rw [run_gather_of_hasInputs input output hinputs, Tool.gatherSecret, h, run_lift_ask_bind]
    rcases Text.Utf8.decode? (splitLine input).1 with _ | line
    · rfl
    · have hinputs' : (a.supply .secret (firstWord line)).HasInputs t project := hinputs
      dsimp only
      rw [run_gather_of_hasInputs _ _ hinputs', Tool.gatherSecret]
      rfl
  | @registrationId project secret hinputs hsecret hid hmac hversion =>
    rw [run_gather_of_hasSecret input output hinputs hsecret, Tool.gatherId,
      Arguments.wish_eq_none_iff.2 ⟨hid, hmac, hversion⟩, run_lift_ask_bind]
    rcases Text.Utf8.decode? (splitLine input).1 with _ | line
    · rfl
    · have hinputs' : (a.supply .registrationId (firstWord line)).HasInputs t project := hinputs
      have hwish : (a.supply .registrationId (firstWord line)).wish = some (firstWord line) := rfl
      dsimp only
      rw [run_gather_of_hasSecret _ _ hinputs' hsecret, Tool.gatherId, hwish, Tool.lift_given_bind]
      rfl
  | @mac project secret hinputs hsecret hwish h =>
    rw [run_gather_of_wish input output hinputs hsecret hwish, Tool.gatherWish,
      if_neg (not_not_intro rfl), h, run_lift_ask_bind]
    rcases Text.Utf8.decode? (splitLine input).1 with _ | line
    · rfl
    · have hinputs' : (a.supply .mac (firstWord line)).HasInputs t project := hinputs
      exact (run_gather_of_mac _ _ hinputs' hsecret (wish_supply hwish (Or.inl rfl) _) rfl).symm
  | @firmwareVersion project mac secret hinputs hsecret hwish hmac h =>
    rw [run_gather_of_mac input output hinputs hsecret hwish hmac, Tool.gatherVersion, h,
      run_lift_ask_bind]
    rcases Text.Utf8.decode? (splitLine input).1 with _ | line
    · rfl
    · have hinputs' : (a.supply .firmwareVersion (firstWord line)).HasInputs t project := hinputs
      have hmac' : (a.supply .firmwareVersion (firstWord line)).mac = some mac := hmac
      dsimp only
      rw [run_gather_of_mac _ _ hinputs' hsecret (wish_supply hwish (Or.inr rfl) _) hmac',
        Tool.gatherVersion]
      rfl

theorem run_gather_of_givesId {id : Except DialogueError RegistrationId}
    (h : a.HasInputs t project) (hsecret : a.HasSecret secret) (hid : a.GivesId id) :
    (Tool.gather terminal access a).run.run (unlimited t input output) =
      (Tool.planFor (m := StateM Station) a project secret id).run.run (unlimited t input output) := by
  cases hid with
  | wished hwish hne =>
    rw [run_gather_of_wish input output h hsecret hwish, Tool.gatherWish, if_pos hne]
  | generated hwish hmac hversion =>
    rw [run_gather_of_mac input output h hsecret hwish hmac, Tool.gatherVersion, hversion,
      Tool.lift_given_bind]

theorem run_gather_of_missing {cause : EnrollmentError} (h : a.project = some project)
    (hne : project ≠ "") (hcheck : (checkInputs t.snapshot project).run = .error cause) :
    (Tool.gather terminal access a).run.run (unlimited t input output) =
      (.error (.enrollment cause), unlimited t input output) := by
  have hrun : (checkInputs access project).run.run (unlimited t input output) =
      (.error cause, unlimited t input output) := by
    rw [readsFrom_access.run_checkInputs]
    exact congrArg (·, _) hcheck
  rw [run_gather_of_project input output h, Tool.gatherFor]
  simp only [if_neg hne]
  rw [run_lift_bind, hrun]

/-- A conclusion takes no line. -/
theorem run_gather_of_concludes {result : Except ToolError Plan} (h : a.Concludes t result) :
    (Tool.gather terminal access a).run.run (unlimited t input output) =
      (result, unlimited t input output) := by
  cases h with
  | emptyProject h =>
    rw [run_gather_of_project input output h]
    rfl
  | missingBinary h hne hfile =>
    exact run_gather_of_missing input output h hne (checkInputs_of_missingBinary hfile)
  | missingMap h hne hbinary hfile =>
    exact run_gather_of_missing input output h hne (checkInputs_of_missingMap hbinary hfile)
  | wrongSecret hinputs h hparse =>
    rw [run_gather_of_hasInputs input output hinputs, Tool.gatherSecret, h, Tool.lift_given_bind,
      hparse]
    rfl
  | wrongId hinputs hsecret h => exact run_gather_of_givesId input output hinputs hsecret h
  | plan hinputs hsecret h => exact run_gather_of_givesId input output hinputs hsecret h

end Station

namespace Arguments

variable (a : Arguments) (t : FileTree)

theorem asks_or_givesId {project : String} {secret : DeviceSecret} (hinputs : a.HasInputs t project)
    (hsecret : a.HasSecret secret) : (∃ q, a.Asks t q) ∨ ∃ id, a.GivesId id := by
  rcases hwish : a.wish with _ | wish
  · obtain ⟨hid, hmac, hversion⟩ := wish_eq_none_iff.1 hwish
    exact Or.inl ⟨_, .registrationId hinputs hsecret hid hmac hversion⟩
  · by_cases hne : wish = ""
    · subst hne
      rcases hmac : a.mac with _ | mac
      · exact Or.inl ⟨_, .mac hinputs hsecret hwish hmac⟩
      · rcases hversion : a.firmwareVersion with _ | version
        · exact Or.inl ⟨_, .firmwareVersion hinputs hsecret hwish hmac hversion⟩
        · exact Or.inr ⟨_, .generated hwish hmac hversion⟩
    · exact Or.inr ⟨_, .wished hwish hne⟩

/-- There is always something to do next. -/
theorem asks_or_concludes : (∃ q, a.Asks t q) ∨ ∃ result, a.Concludes t result := by
  rcases hproject : a.project with _ | project
  · exact Or.inl ⟨_, .project hproject⟩
  by_cases hne : project = ""
  · subst hne
    exact Or.inr ⟨_, .emptyProject hproject⟩
  cases hbinary : t.isFile (binaryPath project) with
  | false => exact Or.inr ⟨_, .missingBinary hproject hne hbinary⟩
  | true =>
    cases hmap : t.isFile (mapPath project) with
    | false => exact Or.inr ⟨_, .missingMap hproject hne hbinary hmap⟩
    | true =>
      have hinputs : a.HasInputs t project := ⟨hproject, hne, hbinary, hmap⟩
      rcases hsecret : a.secret with _ | text
      · exact Or.inl ⟨_, .secret hinputs hsecret⟩
      rcases hparse : parseSecret text with cause | secret
      · exact Or.inr ⟨_, .wrongSecret hinputs hsecret hparse⟩
      rcases a.asks_or_givesId t hinputs ⟨text, hsecret, hparse⟩ with hasks | ⟨_ | id, hid⟩
      · exact Or.inl hasks
      · exact Or.inr ⟨_, .wrongId hinputs ⟨text, hsecret, hparse⟩ hid⟩
      · exact Or.inr ⟨_, .plan hinputs ⟨text, hsecret, hparse⟩ hid⟩

/-- How many values are missing. -/
def missing : Nat :=
  [a.project, a.secret, a.registrationId, a.mac, a.firmwareVersion].countP Option.isNone

variable {a t}

theorem missing_supply_lt {q : Question} (h : a.Asks t q) (value : String) :
    (a.supply q value).missing < a.missing := by
  cases h <;> simp_all [missing, supply, List.countP_cons]

/-- Arguments have one conclusion. -/
theorem Concludes.unique {result result' : Except ToolError Plan} (h : a.Concludes t result)
    (h' : a.Concludes t result') : result = result' := by
  have hrun := Station.run_gather_of_concludes [] [] h
  rw [Station.run_gather_of_concludes [] [] h'] at hrun
  exact (Prod.mk.inj hrun).1.symm

/-- Where there is a conclusion there is no question. -/
theorem Asks.not_concludes {q : Question} {result : Except ToolError Plan} (h : a.Asks t q) :
    ¬a.Concludes t result := by
  intro hconcludes
  -- A question takes a line, here one that cannot be read.
  have hrun := Station.run_gather_of_asks [0xff] [] h
  rw [Station.run_gather_of_concludes [0xff] [] hconcludes,
    show Text.Utf8.decode? (splitLine [0xff]).1 = none by decide +kernel] at hrun
  have hinput : ([0xff] : Bytes) = (splitLine [0xff]).2 :=
    congrArg (fun r => r.2.dialogue.input) hrun
  exact absurd hinput (by decide +kernel)

end Arguments

/-- The questions as they are written. -/
def questionTexts (talk : List Exchange) : Bytes :=
  talk.flatMap fun exchange => Text.Utf8.encode exchange.1.text

/-- There is an interview for every input. -/
theorem exists_interview (t : FileTree) (a : Arguments) (input : Bytes) :
    ∃ talk result rest, Interview t a talk result ∧ ReadsLines input talk rest := by
  -- The induction is on the number of values that are missing: each answer is one less.
  induction hn : a.missing using Nat.strongRecOn generalizing a input with
  | ind n ih =>
    subst hn
    obtain ⟨q, hq⟩ | ⟨result, hresult⟩ := a.asks_or_concludes t
    · have hlines {talk : List Exchange} {rest : Bytes}
          (h : ReadsLines (splitLine input).2 talk rest) := ReadsLines.cons q h
      rcases hline : Text.Utf8.decode? (splitLine input).1 with _ | line <;> rw [hline] at hlines
      · exact ⟨_, _, _, .unreadable hq, hlines (.nil _)⟩
      · obtain ⟨talk, result, rest, hinterview, hreads⟩ :=
          ih _ (Arguments.missing_supply_lt hq (firstWord line)) (a.supply q (firstWord line))
            (splitLine input).2 rfl
        exact ⟨_, _, _, .answered hq line hinterview, hlines hreads⟩
    · exact ⟨[], result, input, .concluded hresult, .nil input⟩

/-- The tool leads the interview for its input. It takes one line for each question and writes
nothing else. -/
theorem Interview.run_gather {t : FileTree} {a : Arguments} {talk : List Exchange}
    {result : Except ToolError Plan} (h : Interview t a talk result) (input rest output : Bytes)
    (hlines : ReadsLines input talk rest) :
    (Tool.gather Station.terminal Station.access a).run.run (Station.unlimited t input output) =
      (result, Station.unlimited t rest (output ++ questionTexts talk)) := by
  induction h generalizing input output with
  | concluded h =>
    cases hlines
    rw [Station.run_gather_of_concludes _ output h]
    simp only [questionTexts, List.flatMap_nil, List.append_nil]
  | @unreadable a q h =>
    have hrun := Station.run_gather_of_asks input output h
    generalize hline : (none : Option String) = line at hlines
    cases hlines with
    | cons _ hrest =>
      cases hrest
      rw [← hline] at hrun
      simpa only [questionTexts, List.flatMap_cons, List.flatMap_nil, List.append_nil] using hrun
  | @answered a q h line talk result _ ih =>
    have hrun := Station.run_gather_of_asks input output h
    generalize hline : some line = line' at hlines
    cases hlines with
    | cons _ hrest =>
      rw [← hline] at hrun
      refine hrun.trans ((ih _ (output ++ Text.Utf8.encode q.text) hrest).trans ?_)
      simp only [questionTexts, List.flatMap_cons, List.append_assoc]

/-- With all values that it takes there are no exchanges. -/
theorem Interview.eq_nil_of_concludes {t : FileTree} {a : Arguments} {talk : List Exchange}
    {result result' : Except ToolError Plan} (h : Interview t a talk result)
    (h' : a.Concludes t result') : talk = [] := by
  cases h with
  | concluded _ => rfl
  | unreadable h | answered h => exact absurd h' h.not_concludes

namespace Arguments

variable {a : Arguments} {t : FileTree}

/-- A question is asked when the values for the earlier ones are there and its own is not. -/
theorem Asks.value? {q : Question} (h : a.Asks t q) :
    a.value? q = none ∧ ∀ q', q'.rank < q.rank → a.value? q' ≠ none := by
  have hinputs {project : String} (h : a.HasInputs t project) : a.project ≠ none :=
    h.1 ▸ Option.some_ne_none project
  have hsecret {secret : DeviceSecret} (h : a.HasSecret secret) : a.secret ≠ none := by
    obtain ⟨text, htext, -⟩ := h
    exact htext ▸ Option.some_ne_none text
  constructor
  · cases h with
    | registrationId _ _ hid hmac hversion => exact wish_eq_none_iff.2 ⟨hid, hmac, hversion⟩
    | project h | secret _ h | mac _ _ _ h | firmwareVersion _ _ _ _ h => exact h
  · intro q' hlt
    cases h with
    | project => exact absurd hlt (Nat.not_lt_zero _)
    | secret h => cases q' <;> first | exact hinputs h | exact absurd hlt (by decide)
    | registrationId h h' =>
      cases q' <;> first | exact hinputs h | exact hsecret h' | exact absurd hlt (by decide)
    | mac h h' hwish =>
      have hwish : a.wish ≠ none := hwish ▸ Option.some_ne_none _
      cases q' <;> first | exact hinputs h | exact hsecret h' | exact hwish | exact absurd hlt (by decide)
    | firmwareVersion h h' hwish hmac =>
      have hwish : a.wish ≠ none := hwish ▸ Option.some_ne_none _
      have hmac : a.mac ≠ none := hmac ▸ Option.some_ne_none _
      cases q' <;> first
        | exact hinputs h | exact hsecret h' | exact hwish | exact hmac | exact absurd hlt (by decide)

theorem value?_supply_self (a : Arguments) (q : Question) (value : String) :
    (a.supply q value).value? q = some value := by
  cases q <;> rfl

/-- An answer takes no value away. -/
theorem value?_supply_ne_none {q' : Question} (h : a.value? q' ≠ none) (q : Question)
    (value : String) : (a.supply q value).value? q' ≠ none := by
  cases q' with
  | registrationId =>
    rw [ne_eq, Arguments.value?, wish_eq_none_iff] at h ⊢
    cases q <;> simp_all [supply]
  | project | secret | mac | firmwareVersion => cases q <;> first | exact h | exact Option.some_ne_none _

end Arguments

/-- Only values that are missing are asked for, and in order. -/
theorem Interview.questions {t : FileTree} {a : Arguments} {talk : List Exchange}
    {result : Except ToolError Plan} (h : Interview t a talk result) :
    (∀ exchange ∈ talk, a.value? exchange.1 = none) ∧
      talk.Pairwise fun exchange later => exchange.1.rank < later.1.rank := by
  induction h with
  | concluded _ => exact ⟨by simp, .nil⟩
  | unreadable h => exact ⟨by simpa using h.value?.1, List.pairwise_singleton _ _⟩
  | @answered a q h line talk result _ ih =>
    obtain ⟨hmissing, hordered⟩ := ih
    obtain ⟨hnone, hearlier⟩ := h.value?
    have hkept {q' : Question} (hlater : (a.supply q (firstWord line)).value? q' = none) :
        a.value? q' = none := by
      by_contra hne
      exact Arguments.value?_supply_ne_none hne q (firstWord line) hlater
    refine ⟨List.forall_mem_cons.2 ⟨hnone, fun later hlater => hkept (hmissing later hlater)⟩,
      List.pairwise_cons.2 ⟨fun later hlater => ?_, hordered⟩⟩
    -- A later question that is no later would have its value already.
    by_contra hle
    have hvalue := hmissing later hlater
    rcases Nat.lt_or_eq_of_le (Nat.le_of_not_lt hle) with hlt | heq
    · exact hearlier later.1 hlt (hkept hvalue)
    · rw [Question.rank_injective heq, Arguments.value?_supply_self] at hvalue
      cases hvalue

end MeasuredIdentity.Enrollment
