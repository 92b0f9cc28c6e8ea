import MeasuredIdentity.Enrollment.Dialogue
import MeasuredIdentity.Proofs.EncodingSize
import MeasuredIdentity.Proofs.EnrollmentReplay
import MeasuredIdentity.Proofs.JoinedPaths

/-!
The file of a certificate. A registration id is a short plain word however it is obtained, so the
certificate of an enrolment goes directly into the output directory, and no two ids share a file.
-/
namespace MeasuredIdentity

open Enrollment

namespace RegistrationId

/-- The ways to a registration id: a text, the address and the version of a device, either of
them, or a dialogue with any input. -/
inductive Obtained (id : RegistrationId) : Prop
  | parsed (s : String) (h : parse s = .ok id)
  | generated (mac : MacAddress) (version : FirmwareVersion) (h : fromDevice mac version = .ok id)
  | resolved (supplied : Option String) (mac version : String)
      (h : resolve supplied mac version = .ok id)
  | asked (dialogue : Dialogue) (wish mac version : Option String)
      (h : ((Dialogue.terminal.registrationId wish mac version).run.run dialogue).1 = .ok id)

/-- The name of the file for the certificate. -/
def fileName (id : RegistrationId) : String := id.text ++ ".pem"

theorem toList_fileName (id : RegistrationId) :
    id.fileName.toList = id.text.toList ++ ['.', 'p', 'e', 'm'] := by
  rw [fileName, String.toList_append]
  rfl

theorem fileName_injective : Function.Injective fileName := by
  intro id id' h
  have htext : id.text = id'.text := by
    have hlist := congrArg String.toList h
    rw [toList_fileName, toList_fileName] at hlist
    exact String.toList_inj.1 (List.append_cancel_right hlist)
  exact ext htext

/-- The only character of the name that is not one of the id is the dot. -/
theorem notMem_fileName {id : RegistrationId} {c : Char} (hid : isIdChar c = false)
    (hsuffix : c ∉ ['.', 'p', 'e', 'm']) : c ∉ id.fileName.toList := by
  rw [toList_fileName, List.mem_append]
  rintro (h | h)
  · rw [List.all_eq_true.1 id.all_chars c h] at hid
    cases hid
  · exact hsuffix h

theorem utf8ByteSize_fileName_le (id : RegistrationId) : id.fileName.utf8ByteSize ≤ 132 := by
  have htext : (Text.Utf8.encode id.text).length = id.text.utf8ByteSize := rfl
  have hsuffix : ".pem".utf8ByteSize = 4 := by decide
  have hle := id.length_encode_le
  rw [fileName, String.utf8ByteSize_append]
  omega

theorem isFileName (id : RegistrationId) : IsFileName id.fileName := by
  have hne (s : String) (hs : s.toList.length < 4) : id.fileName ≠ s := by
    intro h
    rw [← h, toList_fileName, List.length_append] at hs
    exact absurd hs (Nat.not_lt.2 (Nat.le_add_left _ _))
  exact ⟨notMem_fileName (by decide) (by decide), notMem_fileName (by decide) (by decide),
    hne _ (by decide), hne _ (by decide), hne _ (by decide),
    id.utf8ByteSize_fileName_le.trans (by decide)⟩

end RegistrationId

namespace Enrollment

/-- The path of a file directly inside a directory: it has one component more than the directory,
and where it leads to, in any tree, is the place with that name in the directory. -/
structure IsDirectChild (directory name path : String) : Prop where
  isFileName : IsFileName name
  components : pathComponents path = directoryComponents directory ++ [name]
  located : ∀ (t : FileTree) location, t.locate path = .ok location →
    ∃ parent, t.LeadsTo directory parent ∧ location = parent ++ [name]

theorem isDirectChild_joinPath (directory : String) {name : String} (h : IsFileName name) :
    IsDirectChild directory name (joinPath directory name) where
  isFileName := h
  components := pathComponents_joinPath directory h
  located := by
    intro t location hlocation
    obtain ⟨-, parent, hparent, -, hparts⟩ := (t.locate_joinPath_eq_ok_iff h).1 hlocation
    exact ⟨parent, hparent, hparts⟩

/-- What an enrolment writes is one entry of the output directory. -/
theorem Plan.writes_direct_child {p : Plan} {t u : FileTree} {path : String}
    (h : (p.run FileTree.access).run.run t = (.ok path, u)) :
    path = joinPath p.outDirectory p.registrationId.fileName ∧
      ∃ parent content, t.LeadsTo p.outDirectory parent ∧
        u.at? (parent ++ [p.registrationId.fileName]) = some (.file content) ∧
        ∀ other ≠ parent ++ [p.registrationId.fileName], u.at? other = t.at? other := by
  obtain ⟨rfl, c, -, hwrite⟩ := p.run_eq_ok_iff.1 h
  have hwrites := FileTree.writes_of_write hwrite
  obtain ⟨location, hlocation, hat⟩ := hwrites.holds
  rw [hwrites.located] at hlocation
  obtain ⟨-, parent, hparent, -, rfl⟩ :=
    (t.locate_joinPath_eq_ok_iff p.registrationId.isFileName).1 hlocation
  refine ⟨rfl, parent, _, hparent, hat, fun other hother => hwrites.unchanged other ?_⟩
  intro heq
  exact hother (Except.ok.inj (heq.symm.trans hlocation))

/-- The texts of the registration ids that can be obtained are the short plain words. Whatever the
output directory, the path for the certificate of an id is directly inside it, different ids have
different files, and an enrolment writes nothing else. -/
theorem certificate_in_output_directory :
    (∀ s : String, IsIdText s ↔ ∃ id : RegistrationId, id.Obtained ∧ id.text = s) ∧
    (∀ id : RegistrationId, id.Obtained → ∀ out : String,
      IsDirectChild out id.fileName (joinPath out id.fileName)) ∧
    (∀ id id' : RegistrationId, id.Obtained → id'.Obtained → id.fileName = id'.fileName → id = id') ∧
    ∀ p : Plan, p.registrationId.Obtained → ∀ t path u,
      (p.run FileTree.access).run.run t = (.ok path, u) →
        path = joinPath p.outDirectory p.registrationId.fileName ∧
        ∃ parent content, t.LeadsTo p.outDirectory parent ∧
          u.at? (parent ++ [p.registrationId.fileName]) = some (.file content) ∧
          ∀ other ≠ parent ++ [p.registrationId.fileName], u.at? other = t.at? other := by
  refine ⟨fun s => ⟨fun h => ?_, ?_⟩, fun id _ out => isDirectChild_joinPath out id.isFileName,
    fun id id' _ _ h => RegistrationId.fileName_injective h, fun p _ t path u h =>
      p.writes_direct_child h⟩
  · obtain ⟨id, hparse, htext⟩ := RegistrationId.parse_eq_ok_of_isIdText h
    exact ⟨id, .parsed s hparse, htext⟩
  · rintro ⟨id, -, rfl⟩
    exact id.isIdText

/-- The file for an id that is asked for goes into the directory that a slash ends. -/
theorem certificate_in_output_directory_sample : ∃ id : RegistrationId, id.Obtained ∧
    id.text = "a-1" ∧ pathComponents (joinPath "../x/" id.fileName) = ["..", "x", id.fileName] := by
  obtain ⟨-, hpaths, -⟩ := certificate_in_output_directory
  have hid : RegistrationId.parse "a-1" = .ok ⟨"a-1", by decide, by decide, by decide⟩ := rfl
  have hout : directoryComponents "../x/" = ["..", "x"] := by decide +kernel
  have hpath := (hpaths _ (.parsed _ hid) "../x/").components
  rw [hout] at hpath
  exact ⟨_, .parsed _ hid, rfl, hpath⟩

end Enrollment

end MeasuredIdentity
