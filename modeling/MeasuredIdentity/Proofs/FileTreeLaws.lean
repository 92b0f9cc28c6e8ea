import MeasuredIdentity.Enrollment.Files
import MeasuredIdentity.Proofs.Sequencing
import Mathlib.Tactic.SplitIfs

/-!
The laws of a file tree. A file is read where its path leads to, if it can be read, and writing
changes the one file that the path leads to. The path leads there afterwards as well, since no
directory is replaced.
-/
namespace MeasuredIdentity.Enrollment.FileTree

variable {t u : FileTree} {location other : List String} {entry : Entry} {path : String}
  {content : Bytes}

theorem lookup_filter_ne {entries : List (List String × Entry)} (h : other ≠ location) :
    (entries.filter (·.1 ≠ location)).lookup other = entries.lookup other := by
  induction entries with
  | nil => rfl
  | cons first rest ih =>
    obtain ⟨at₀, entry₀⟩ := first
    by_cases hat : at₀ = location
    · have hother : (other == at₀) = false := by simpa [hat] using h
      rw [List.filter_cons_of_neg (by simpa using hat), ih, List.lookup_cons, hother]
    · rw [List.filter_cons_of_pos (by simpa using hat), List.lookup_cons, List.lookup_cons, ih]

theorem at?_put_self (h : location ≠ []) : (t.put location entry).at? location = some entry := by
  rw [at?, if_neg h]
  exact List.lookup_cons_self

theorem at?_put_of_ne (h : other ≠ location) : (t.put location entry).at? other = t.at? other := by
  have hfirst : (other == location) = false := by simpa using h
  rw [at?, at?, put, List.lookup_cons, hfirst]
  dsimp only
  rw [lookup_filter_ne h]

/-- The path leads to a file with this content. -/
def Holds (t : FileTree) (path : String) (content : Bytes) : Prop :=
  ∃ location, t.locate path = .ok location ∧ t.at? location = some (.file content)

/-- The path leads to a file with this content, and the file can be read. -/
def Reads (t : FileTree) (path : String) (content : Bytes) : Prop :=
  ∃ location, t.locate path = .ok location ∧ t.at? location = some (.file content) ∧
    t.allow .read location = .ok ()

theorem read_eq_ok_iff : t.read path = .ok content ↔ t.Reads path content := by
  simp only [read, Reads, bind_eq_ok_iff]
  refine exists_congr fun location => and_congr_right fun _ => ?_
  rcases t.at? location with _ | ⟨_ | _⟩
  · simp
  · simp only [check_bind_eq_ok_iff, pure_eq_ok_iff, Option.some.injEq, Entry.file.injEq, and_comm]
  · simp [check_bind_eq_ok_iff]

theorem Reads.holds (h : t.Reads path content) : t.Holds path content := by
  obtain ⟨location, hlocation, hat, -⟩ := h
  exact ⟨location, hlocation, hat⟩

theorem isFile_iff : t.isFile path = true ↔ ∃ content, t.Holds path content := by
  unfold isFile Holds
  rcases t.locate path with cause | location
  · simp [Except.toOption]
  · simp only [Except.toOption, Option.bind_some, Except.ok.injEq, exists_eq_left']
    rcases t.at? location with _ | ⟨_ | _⟩ <;> simp [Entry.isFile]

/-- A file can be there without being readable. -/
example : ∃ t : FileTree, t.isFile "a" = true ∧ t.read "a" = .error .permissionDenied :=
  ⟨{ entries := [(["a"], .file [])], refusals := [((["a"], .read), .permissionDenied)] }, by cbv, by cbv⟩

theorem ne_directory_of_allowPut (h : t.allowPut location = .ok ()) :
    t.at? location ≠ some .directory := by
  intro hat
  rw [allowPut, hat] at h
  cases h

theorem write_eq_ok_iff : t.write path content = .ok u ↔
    ∃ location, t.locate path = .ok location ∧ t.allowPut location = .ok () ∧
      u = t.put location (.file content) := by
  rw [write, bind_eq_ok_iff]
  simp only [check_bind_eq_ok_iff, pure_eq_ok_iff, @eq_comm _ u]

theorem directory_of_step {start stop : List String} {name : String}
    (h : t.step start name = .ok stop) : t.at? start = some .directory := by
  rw [step] at h
  rcases hstart : t.at? start with _ | ⟨_ | _⟩
  · rw [hstart] at h
    cases h
  · rw [hstart] at h
    cases h
  · rfl

/-- A step is one from a directory, and a put keeps directories. -/
theorem step_put (hat : t.at? location ≠ some .directory) {start stop : List String} {name : String}
    (h : t.step start name = .ok stop) : (t.put location entry).step start name = .ok stop := by
  have hstart := directory_of_step h
  have hne : start ≠ location := by
    rintro rfl
    exact hat hstart
  rw [step] at h ⊢
  rwa [at?_put_of_ne hne]

theorem walk_put (hat : t.at? location ≠ some .directory) {names start stop : List String}
    (h : t.walk start names = .ok stop) : (t.put location entry).walk start names = .ok stop := by
  induction names generalizing start with
  | nil => exact h
  | cons name rest ih =>
    obtain ⟨next, hstep, hrest⟩ := bind_eq_ok_iff.1 h
    exact bind_eq_ok_iff.2 ⟨next, step_put hat hstep, ih hrest⟩

theorem locate_put (hat : t.at? location ≠ some .directory) {stop : List String}
    (h : t.locate path = .ok stop) : (t.put location entry).locate path = .ok stop := by
  unfold locate at h ⊢
  split_ifs at h ⊢
  · exact walk_put hat h
  · exact walk_put hat h

/-- The second tree is the first one with this content in the file that the path leads to. -/
structure Writes (t u : FileTree) (path : String) (content : Bytes) : Prop where
  located : u.locate path = t.locate path
  holds : u.Holds path content
  unchanged : ∀ location, t.locate path ≠ .ok location → u.at? location = t.at? location
  workingDirectory : u.workingDirectory = t.workingDirectory
  refusals : u.refusals = t.refusals

theorem writes_of_write (h : t.write path content = .ok u) : t.Writes u path content := by
  obtain ⟨location, hlocation, hallow, rfl⟩ := write_eq_ok_iff.1 h
  have hat : t.at? location ≠ some .directory := ne_directory_of_allowPut hallow
  have hlocated : (t.put location (.file content)).locate path = .ok location :=
    locate_put hat hlocation
  have hne : location ≠ [] := by
    rintro rfl
    exact hat rfl
  refine ⟨hlocated.trans hlocation.symm, ⟨location, hlocated, at?_put_self hne⟩, ?_, rfl, rfl⟩
  intro other hother
  refine at?_put_of_ne ?_
  rintro rfl
  exact hother hlocation

end MeasuredIdentity.Enrollment.FileTree
