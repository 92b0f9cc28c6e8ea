import MeasuredIdentity.Proofs.BootStages
import MeasuredIdentity.Proofs.Interview
import MeasuredIdentity.Proofs.StableIdentity

/-!
What the enrolment tool comes to. Once the interview is over, the tool ends as the enrolment with the
values from it does, so it makes no difference which of them are arguments and which are answers.
-/
namespace MeasuredIdentity.Enrollment

open FileTree

/-- How the tool ends, and the files that it leaves, for what the interview comes to. -/
def outcome (t : FileTree) : Except ToolError Plan → Tool.Ending × FileTree
  | .error e => (⟨1, e.report.render⟩, t)
  | .ok plan =>
    match (plan.run FileTree.access).run.run t with
    | (.ok _, u) => (⟨0, ""⟩, u)
    | (.error e, u) => (⟨1, (ToolError.enrollment e).report.render⟩, u)

/-- What the tool prints behind its questions: the path of the certificate, if there is one. -/
def printed (t : FileTree) : Except ToolError Plan → Bytes
  | .error _ => []
  | .ok plan =>
    match ((plan.run FileTree.access).run.run t).1 with
    | .ok path => Text.Utf8.encode (path ++ "\n")
    | .error _ => []

/-- The tool ends well exactly where an enrolment with the values from its interview does. -/
theorem ends_well_iff {t : FileTree} {result : Except ToolError Plan} :
    (outcome t result).1.exitCode = 0 ↔ ∃ plan path, result = .ok plan ∧
      (plan.run FileTree.access).run.run t = (.ok path, (outcome t result).2) := by
  rcases result with e | plan
  · refine iff_of_false (show (1 : UInt32) ≠ 0 by decide) ?_
    rintro ⟨_, _, ⟨⟩, -⟩
  · rw [outcome]
    rcases hrun : (plan.run FileTree.access).run.run t with ⟨e | path, u⟩
    · refine iff_of_false (show (1 : UInt32) ≠ 0 by decide) ?_
      rintro ⟨_, path, ⟨⟩, hpath⟩
      rw [hrun] at hpath
      cases hpath
    · exact iff_of_true rfl ⟨plan, path, rfl, hrun⟩

namespace Station

variable (s : Station) (p : Plan)

theorem run_store (c : Credentials) : (p.store access c).run.run s =
    (((p.store FileTree.access c).run.run s.files).1,
      { s with files := ((p.store FileTree.access c).run.run s.files).2 }) := by
  rw [Plan.run_store, Plan.store, run_liftM_bind, StateT.run_bind]
  rcases hwrite : s.files.write p.outPath c.aliasCertificate.text with cause | u
  · have hrun : (access.write p.outPath c.aliasCertificate.text).run s = (.error cause, s) := by
      simp only [access, StateT.run_modifyGet, hwrite]
      rfl
    rw [hrun]
    rfl
  · have hrun : (access.write p.outPath c.aliasCertificate.text).run s =
        (.ok (), { s with files := u }) := by
      simp only [access, StateT.run_modifyGet, hwrite]
      rfl
    rw [hrun]
    rfl

/-- An enrolment is the same among the files of a station, and leaves its dialogue alone. -/
theorem run_plan : (p.run access).run.run s =
    (((p.run FileTree.access).run.run s.files).1,
      { s with files := ((p.run FileTree.access).run.run s.files).2 }) := by
  rw [Plan.run_eq_prepare_store, run_bind_state, p.run_prepare readsFrom_access, Plan.run_eq]
  rcases (p.prepare s.files.snapshot).run with e | c
  · rfl
  · exact run_store s p c

variable {s}

/-- The run of the tool once the interview is over. -/
theorem run_eq {arguments : List String} {a : Arguments} (hparse : Arguments.parse arguments = some a)
    {t : FileTree} {result : Except ToolError Plan} {rest output : Bytes}
    (hgather : (Tool.gather terminal access a).run.run s = (result, unlimited t rest output)) :
    s.run arguments = ((outcome t result).1,
      unlimited (outcome t result).2 rest (output ++ printed t result)) := by
  have hrun : s.run arguments =
      (match (Tool.run terminal access a).run.run s with
        | (.ok (), s') => (⟨0, ""⟩, s')
        | (.error e, s') => (⟨1, e.report.render⟩, s')) := by
    unfold Station.run Tool.runArguments
    rw [hparse]
    dsimp only
    rw [StateT.run_bind]
    rcases (Tool.run terminal access a).run.run s with ⟨e | ⟨⟩, s'⟩ <;> rfl
  rw [hrun, Tool.run, run_bind_state, hgather]
  rcases result with e | plan
  · show (_, unlimited t rest output) = (_, unlimited t rest (output ++ []))
    rw [List.append_nil]
    rfl
  · dsimp only [outcome, printed]
    have hfiles : (unlimited t rest output).files = t := rfl
    rw [run_lift_bind, run_plan, hfiles]
    rcases (plan.run FileTree.access).run.run t with ⟨e | path, u⟩
    · show (_, unlimited u rest output) = (_, unlimited u rest (output ++ []))
      rw [List.append_nil]
    · rfl

end Station

namespace Arguments

variable {a b : Arguments} {t : FileTree} {project : String} {secret : DeviceSecret}
  {result result' : Except ToolError Plan}

/-- No value is one thing here and another there, and the output directory is the same. -/
structure Agree (a b : Arguments) : Prop where
  values : ∀ q x y, a.value? q = some x → b.value? q = some y → x = y
  outDirectory : a.outDirectory = b.outDirectory

theorem GivesId.eq_of_agree {id id' : Except DialogueError RegistrationId} (hagree : a.Agree b)
    (h : a.GivesId id) (h' : b.GivesId id') : id = id' := by
  cases h with
  | wished hwish hne =>
    cases h' with
    | wished hwish' hne' => rw [hagree.values .registrationId _ _ hwish hwish']
    | generated hwish' => exact absurd (hagree.values .registrationId _ _ hwish hwish') hne
  | generated hwish hmac hversion =>
    cases h' with
    | wished hwish' hne' => exact absurd (hagree.values .registrationId _ _ hwish hwish').symm hne'
    | generated hwish' hmac' hversion' =>
      rw [hagree.values .mac _ _ hmac hmac', hagree.values .firmwareVersion _ _ hversion hversion']

/-- Only named projects lead to a conclusion. -/
theorem Concludes.exists_project (h : a.Concludes t result) : ∃ project, a.project = some project := by
  cases h with
  | emptyProject h | missingBinary h | missingMap h => exact ⟨_, h⟩
  | wrongSecret h | wrongId h | plan h => exact ⟨_, h.1⟩

/-- Past the project it takes a secret, and past that a registration id. -/
theorem Concludes.past_project (h : a.Concludes t result) (hinputs : a.HasInputs t project) :
    ∃ text, a.secret = some text ∧
      ((∃ cause, parseSecret text = .error cause) ∨ ∃ id, a.GivesId id) := by
  obtain ⟨hproject, hne, hbinary, hmap⟩ := hinputs
  cases h with
  | emptyProject h =>
    rw [h] at hproject
    exact absurd (Option.some.inj hproject).symm hne
  | missingBinary h _ hfile =>
    obtain rfl := Option.some.inj (h.symm.trans hproject)
    rw [hfile] at hbinary
    cases hbinary
  | missingMap h _ _ hfile =>
    obtain rfl := Option.some.inj (h.symm.trans hproject)
    rw [hfile] at hmap
    cases hmap
  | wrongSecret _ h hparse => exact ⟨_, h, Or.inl ⟨_, hparse⟩⟩
  | wrongId _ hsecret h | plan _ hsecret h =>
    obtain ⟨text, htext, -⟩ := hsecret
    exact ⟨text, htext, Or.inr ⟨_, h⟩⟩

theorem Concludes.exists_givesId (h : a.Concludes t result) (hinputs : a.HasInputs t project)
    (hsecret : a.HasSecret secret) : ∃ id, a.GivesId id := by
  obtain ⟨text, htext, hparse⟩ := hsecret
  obtain ⟨text', htext', ⟨cause, hwrong⟩ | hid⟩ := h.past_project hinputs
  · obtain rfl := Option.some.inj (htext.symm.trans htext')
    rw [hwrong] at hparse
    cases hparse
  · exact hid

theorem HasInputs.of_agree (hagree : a.Agree b) (h : a.HasInputs t project)
    (h' : b.Concludes t result) : b.HasInputs t project := by
  obtain ⟨project', hproject'⟩ := h'.exists_project
  obtain rfl := hagree.values .project _ _ h.1 hproject'
  exact ⟨hproject', h.2⟩

theorem secret_of_agree {text : String} (hagree : a.Agree b) (h : a.HasInputs t project)
    (hsecret : a.secret = some text) (h' : b.Concludes t result) : b.secret = some text := by
  obtain ⟨text', htext', -⟩ := h'.past_project (h.of_agree hagree h')
  obtain rfl := hagree.values .secret _ _ hsecret htext'
  exact htext'

/-- Arguments that agree come to the same conclusion, up to the policy. -/
theorem Concludes.eq_of_agree (hagree : a.Agree b) (h : a.Concludes t result)
    (h' : b.Concludes t result') : result' = result.map fun p => { p with policy := b.policy } := by
  apply h'.unique
  cases h with
  | emptyProject h =>
    obtain ⟨project', hproject'⟩ := h'.exists_project
    obtain rfl := hagree.values .project _ _ h hproject'
    exact .emptyProject hproject'
  | missingBinary h hne hfile =>
    obtain ⟨project', hproject'⟩ := h'.exists_project
    obtain rfl := hagree.values .project _ _ h hproject'
    exact .missingBinary hproject' hne hfile
  | missingMap h hne hbinary hfile =>
    obtain ⟨project', hproject'⟩ := h'.exists_project
    obtain rfl := hagree.values .project _ _ h hproject'
    exact .missingMap hproject' hne hbinary hfile
  | wrongSecret hinputs h hparse =>
    exact .wrongSecret (hinputs.of_agree hagree h') (secret_of_agree hagree hinputs h h') hparse
  | wrongId hinputs hsecret h =>
    obtain ⟨text, htext, hparse⟩ := hsecret
    have hinputs' := hinputs.of_agree hagree h'
    have hsecret' : b.HasSecret _ := ⟨text, secret_of_agree hagree hinputs htext h', hparse⟩
    obtain ⟨id, hid⟩ := h'.exists_givesId hinputs' hsecret'
    obtain rfl := h.eq_of_agree hagree hid
    exact .wrongId hinputs' hsecret' hid
  | plan hinputs hsecret h =>
    obtain ⟨text, htext, hparse⟩ := hsecret
    have hinputs' := hinputs.of_agree hagree h'
    have hsecret' : b.HasSecret _ := ⟨text, secret_of_agree hagree hinputs htext h', hparse⟩
    obtain ⟨id, hid⟩ := h'.exists_givesId hinputs' hsecret'
    obtain rfl := h.eq_of_agree hagree hid
    have hplan := Concludes.plan hinputs' hsecret' hid
    rw [← hagree.outDirectory] at hplan
    exact hplan

theorem Concludes.map_policy (h : a.Concludes t result) :
    (result.map fun p => { p with policy := a.policy }) = result := by
  cases h <;> rfl

/-- The arguments with all answers of an interview. -/
def answered (a : Arguments) (talk : List Exchange) : Arguments :=
  talk.foldl (fun a exchange =>
    match exchange.2 with
    | some line => a.supply exchange.1 (firstWord line)
    | none => a) a

end Arguments

/-- An interview whose lines can be read comes to what the arguments with its answers come to. -/
theorem Interview.concludes {t : FileTree} {a : Arguments} {talk : List Exchange}
    {result : Except ToolError Plan} (h : Interview t a talk result)
    (hread : ∀ exchange ∈ talk, exchange.2 ≠ none) : (a.answered talk).Concludes t result := by
  induction h with
  | concluded h => exact h
  | unreadable _ => exact absurd rfl (hread _ List.mem_cons_self)
  | answered _ line _ ih => exact ih fun exchange hmem => hread exchange (List.mem_cons_of_mem _ hmem)

/-- A boot in memory that succeeds has issued its credentials with keys that the policy has no part
in. -/
theorem issue_of_bootInMemory {secret : DeviceSecret} {core firmware : Bytes} {id : RegistrationId}
    {policy : IssuePolicy} {c : Credentials} :
    bootInMemory secret core firmware id policy = .ok c ↔ secret.validate = .ok () ∧
      ∃ cdi keys, cdiOf core secret = .ok cdi ∧ LayerKeys.ofCdi cdi firmware = .ok keys ∧
        keys.issue id policy = .ok c := by
  rw [bootInMemory, Platform.run_boot, Platform.stages, id_bind]
  dsimp only [Platform.inMemory]
  rcases secret.validate with e | ⟨⟩
  · refine iff_of_false ?_ ?_
    · rintro ⟨⟩
    · rintro ⟨⟨⟩, -⟩
  · dsimp only
    rw [id_bind]
    rcases cdiOf core secret with e | cdi
    · refine iff_of_false ?_ ?_
      · rintro ⟨⟩
      · rintro ⟨-, _, _, ⟨⟩, -⟩
    · have hissue : credentialsOf cdi id firmware policy = .ok c ↔
          ∃ keys, LayerKeys.ofCdi cdi firmware = .ok keys ∧ keys.issue id policy = .ok c :=
        bind_eq_ok_iff
      refine hissue.trans ?_
      constructor
      · rintro ⟨keys, hkeys, hc⟩
        exact ⟨rfl, cdi, keys, rfl, hkeys, hc⟩
      · rintro ⟨-, _, keys, ⟨⟩, hkeys, hc⟩
        exact ⟨keys, hkeys, hc⟩

/-- Enrolments that differ in the form of the device's own document alone write the same file. -/
theorem Plan.files_eq_of_policy {p : Plan} {policy : IssuePolicy} {t u u' : FileTree}
    {path path' : String} (h : (p.run FileTree.access).run.run t = (.ok path, u))
    (h' : (({ p with policy } : Plan).run FileTree.access).run.run t = (.ok path', u'))
    (hpolicy : p.policy.AgreeOnAlias policy) : u' = u := by
  obtain ⟨-, c, ⟨images, hbuild, hboot⟩, hwrite⟩ := p.run_eq_ok_iff.1 h
  obtain ⟨-, c', ⟨images', hbuild', hboot'⟩, hwrite'⟩ := (Plan.run_eq_ok_iff _).1 h'
  obtain rfl : images = images' :=
    Except.ok.inj ((readImages_eq_ok_iff.2 hbuild).symm.trans (readImages_eq_ok_iff.2 hbuild'))
  obtain ⟨-, cdi, keys, hcdi, hkeys, hissue⟩ := issue_of_bootInMemory.1 hboot
  obtain ⟨-, cdi', keys', hcdi', hkeys', hissue'⟩ := issue_of_bootInMemory.1 hboot'
  obtain rfl := Except.ok.inj (hcdi.symm.trans hcdi')
  obtain rfl := Except.ok.inj (hkeys.symm.trans hkeys')
  obtain ⟨hcertificate, -⟩ := LayerKeys.alias_texts_eq hissue hissue' hpolicy
  rw [← hcertificate] at hwrite'
  exact Except.ok.inj (hwrite'.symm.trans hwrite)

/-- A run of the tool leads an interview over the lines of its input, asks for what is missing and in
order, writes its questions and the path of the certificate, and ends with the outcome of the
interview. -/
structure Station.Interviews (s : Station) (arguments : List String) (a : Arguments)
    (talk : List Exchange) (result : Except ToolError Plan) : Prop where
  interview : Interview s.files a talk result
  lines : ReadsLines s.dialogue.input talk (s.run arguments).2.dialogue.input
  output : (s.run arguments).2.dialogue.output =
    s.dialogue.output ++ questionTexts talk ++ printed s.files result
  missing : ∀ exchange ∈ talk, a.value? exchange.1 = none
  ordered : talk.Pairwise fun exchange later => exchange.1.rank < later.1.rank
  outcome_eq : ((s.run arguments).1, (s.run arguments).2.files) = outcome s.files result

theorem Interview.interviews {t : FileTree} {arguments : List String} {a : Arguments}
    {talk : List Exchange} {result : Except ToolError Plan} (h : Interview t a talk result)
    (hparse : Arguments.parse arguments = some a) {input rest : Bytes}
    (hlines : ReadsLines input talk rest) (output : Bytes) :
    (Station.unlimited t input output).Interviews arguments a talk result := by
  have hrun := Station.run_eq hparse (h.run_gather input rest output hlines)
  obtain ⟨hmissing, hordered⟩ := h.questions
  constructor <;> first | assumption | rw [hrun]
  · exact hlines
  · rfl
  · rfl

theorem Station.exists_interviews {s : Station} {arguments : List String} {a : Arguments}
    (hparse : Arguments.parse arguments = some a) (hroom : s.dialogue.room = none) :
    ∃ talk result, s.Interviews arguments a talk result := by
  obtain ⟨t, input, output, room⟩ := s
  obtain rfl : room = none := hroom
  obtain ⟨talk, result, rest, h, hlines⟩ := exists_interview t a input
  exact ⟨talk, result, h.interviews hparse hlines output⟩

theorem Arguments.request_answered (a : Arguments) (talk : List Exchange) :
    (a.answered talk).request = a.request := by
  induction talk generalizing a with
  | nil => rfl
  | cons exchange talk ih =>
    obtain ⟨q, line⟩ := exchange
    rw [answered, List.foldl_cons]
    refine (ih _).trans ?_
    cases line with
    | none => rfl
    | some line => cases q <;> rfl

namespace Station.Interviews

variable {s s' : Station} {arguments arguments' : List String} {a a' : Arguments}
  {talk talk' : List Exchange} {result result' : Except ToolError Plan}
  (h : s.Interviews arguments a talk result) (h' : s'.Interviews arguments' a' talk' result')
  (hfiles : s'.files = s.files) (hread : ∀ exchange ∈ talk ++ talk', exchange.2 ≠ none)
  (hagree : (a.answered talk).Agree (a'.answered talk'))

include h h' hfiles hread hagree

/-- Interviews that agree come to the same, up to the policy. -/
theorem result_eq : result' = result.map fun p => { p with policy := (a'.answered talk').policy } := by
  have hconclusion := h.interview.concludes fun exchange hmem =>
    hread exchange (List.mem_append_left _ hmem)
  have hconclusion' := h'.interview.concludes fun exchange hmem =>
    hread exchange (List.mem_append_right _ hmem)
  rw [hfiles] at hconclusion'
  exact hconclusion.eq_of_agree hagree hconclusion'

theorem same_outcome (hrequest : a.request = a'.request) :
    (s'.run arguments').1 = (s.run arguments).1 ∧
      (s'.run arguments').2.files = (s.run arguments).2.files := by
  have hpolicy : (a'.answered talk').policy = (a.answered talk).policy := by
    rw [Arguments.policy, Arguments.policy, Arguments.request_answered, Arguments.request_answered,
      hrequest]
  have hresult := h.result_eq h' hfiles hread hagree
  rw [hpolicy, (h.interview.concludes fun exchange hmem =>
    hread exchange (List.mem_append_left _ hmem)).map_policy] at hresult
  have houtcome := h'.outcome_eq
  rw [hfiles, hresult, ← h.outcome_eq] at houtcome
  exact Prod.mk.inj houtcome

theorem same_files (hend : (s.run arguments).1.exitCode = 0)
    (hend' : (s'.run arguments').1.exitCode = 0) :
    (s'.run arguments').2.files = (s.run arguments).2.files := by
  have hresult := h.result_eq h' hfiles hread hagree
  have hpolicy := (h.interview.concludes fun exchange hmem =>
    hread exchange (List.mem_append_left _ hmem)).map_policy
  obtain ⟨hout, hout'⟩ := And.intro h.outcome_eq h'.outcome_eq
  rw [hfiles] at hout'
  have hwell : (outcome s.files result).1.exitCode = 0 := by rwa [← hout]
  have hwell' : (outcome s.files result').1.exitCode = 0 := by rwa [← hout']
  obtain ⟨plan, path, rfl, hrun⟩ := ends_well_iff.1 hwell
  obtain ⟨plan', path', rfl, hrun'⟩ := ends_well_iff.1 hwell'
  rw [← hout] at hrun
  rw [← hout'] at hrun'
  obtain rfl := Except.ok.inj hresult
  have hsame : plan.policy = (a.answered talk).policy :=
    (congrArg Plan.policy (Except.ok.inj hpolicy)).symm
  refine Plan.files_eq_of_policy hrun hrun' ?_
  rw [hsame]
  exact ⟨rfl, rfl, rfl, rfl⟩

end Station.Interviews

/-- The run of the tool on a command line, with all output taken. It leads one interview over the
lines of its input, asks only for what is missing and in order, and ends with the outcome of the
interview. Runs over the same files whose values agree have the same outcome, whichever values are
answers; where they differ in the request for the device alone, they leave the same files, if both
succeed. -/
theorem Station.run_interviews {s : Station} {arguments : List String} {a : Arguments}
    (hparse : Arguments.parse arguments = some a) (hroom : s.dialogue.room = none) :
    ∃ talk result, s.Interviews arguments a talk result ∧
      ∀ s' arguments' a' talk' result', Station.Interviews s' arguments' a' talk' result' →
        s'.files = s.files → (∀ exchange ∈ talk ++ talk', exchange.2 ≠ none) →
        (a.answered talk).Agree (a'.answered talk') →
        (a.request = a'.request → (s'.run arguments').1 = (s.run arguments).1 ∧
          (s'.run arguments').2.files = (s.run arguments).2.files) ∧
        ((s.run arguments).1.exitCode = 0 → (s'.run arguments').1.exitCode = 0 →
          (s'.run arguments').2.files = (s.run arguments).2.files) := by
  obtain ⟨talk, result, h⟩ := Station.exists_interviews hparse hroom
  refine ⟨talk, result, h, ?_⟩
  intro s' arguments' a' talk' result' h' hfiles hread hagree
  exact ⟨h.same_outcome h' hfiles hread hagree, h.same_files h' hfiles hread hagree⟩

/-- Runs that get the project in these two ways end in the same way, here for want of its files. -/
theorem Station.run_interviews_sample :
    let told := Station.unlimited {} [] []
    let asked := Station.unlimited {} (Text.Utf8.encode "blink now\n") []
    told.dialogue.room = none ∧
      Arguments.parse ["--project", "blink"] = some { project := some "blink" } ∧
      (asked.run []).1 = (told.run ["--project", "blink"]).1 := by
  intro told asked
  have hparse : Arguments.parse ["--project", "blink"] = some { project := some "blink" } := by
    decide +kernel
  have hconcludes : Arguments.Concludes { project := some "blink" } {} _ :=
    .missingBinary rfl (by decide) (by decide +kernel)
  have hinterview : Interview {} {} [(.project, some "blink now\n")] _ :=
    .answered (.project rfl) _ <| by
      rw [show firstWord "blink now\n" = "blink" by decide +kernel]
      exact .concluded hconcludes
  have hlines := ReadsLines.cons .project (.nil (splitLine (Text.Utf8.encode "blink now\n")).2)
  rw [show Text.Utf8.decode? (splitLine (Text.Utf8.encode "blink now\n")).1 = some "blink now\n"
    by decide +kernel] at hlines
  have hasked : asked.Interviews [] {} _ _ := hinterview.interviews rfl hlines []
  have hagree : Arguments.Agree { project := some "blink" }
      (Arguments.answered {} [(.project, some "blink now\n")]) := by
    refine ⟨fun q x y hx hy => ?_, rfl⟩
    cases q with
    | project =>
      rw [← Option.some.inj hx, ← Option.some.inj hy]
      decide +kernel
    | secret | registrationId | mac | firmwareVersion => cases hx
  obtain ⟨talk, result, htold, hother⟩ := Station.run_interviews (s := told) hparse rfl
  obtain rfl := htold.interview.eq_nil_of_concludes hconcludes
  obtain ⟨hsame, -⟩ := hother asked [] {} _ _ hasked rfl (by decide) hagree
  exact ⟨rfl, hparse, (hsame rfl).1⟩

end MeasuredIdentity.Enrollment
