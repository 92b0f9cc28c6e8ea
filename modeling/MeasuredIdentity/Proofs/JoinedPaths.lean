import MeasuredIdentity.Proofs.FileTreeLaws
import Mathlib.Tactic.Basic

/-!
Paths of files in a directory. Joined to a directory, a plain file name is one more component behind
those of the directory, so the path leads to the place with that name in the directory, whatever the
directory is called and whatever else the tree holds.
-/
namespace MeasuredIdentity.Enrollment

/-- A name that a directory can hold: it has no slash, does not stand for the directory or its
parent, and is not too long. -/
structure IsFileName (name : String) : Prop where
  no_slash : '/' ∉ name.toList
  no_nul : '\x00' ∉ name.toList
  ne_empty : name ≠ ""
  ne_dot : name ≠ "."
  ne_dot_dot : name ≠ ".."
  size_le : name.utf8ByteSize ≤ maxNameSize

/-- The components of a directory's path. Behind a slash at the end there is none. -/
def directoryComponents (directory : String) : List String :=
  if directory = "" then []
  else if directory.endsWith "/" then (pathComponents directory).dropLast
  else pathComponents directory

theorem pathComponents_append_slash (front back : String) :
    pathComponents (front ++ "/" ++ back) = pathComponents front ++ pathComponents back := by
  have h := @Text.pieces_append _ (· == '/') '/' rfl front.toList back.toList
  simp only [pathComponents, String.toList_append, List.append_assoc, ← List.map_append, ← h]
  rfl

theorem pathComponents_append_empty (front : String) :
    pathComponents (front ++ "/") = pathComponents front ++ [""] := by
  have h := pathComponents_append_slash front ""
  rwa [String.append_empty] at h

theorem IsFileName.pathComponents_eq {name : String} (h : IsFileName name) :
    pathComponents name = [name] := by
  have hpieces : Text.pieces (· == '/') name.toList = [name.toList] := by
    apply Text.pieces_of_forall_not
    intro c hc
    rw [beq_eq_false_iff_ne]
    rintro rfl
    exact h.no_slash hc
  rw [pathComponents, hpieces, List.map_singleton, String.ofList_toList]

theorem IsFileName.not_startsWith {name : String} (h : IsFileName name) :
    name.startsWith "/" = false := by
  rw [Bool.eq_false_iff, ne_eq, String.startsWith_string_iff]
  rintro ⟨rest, hrest⟩
  apply h.no_slash
  rw [← hrest]
  exact List.mem_cons_self

/-- A path that ends with a slash, without it. -/
theorem exists_eq_append_slash {directory : String} (h : directory.endsWith "/" = true) :
    ∃ front, directory = front ++ "/" := by
  rw [← String.endsWith_toSlice, String.Slice.endsWith_string_iff, String.copy_toSlice] at h
  obtain ⟨front, hfront⟩ := h
  refine ⟨String.ofList front, ?_⟩
  rw [← String.toList_inj, String.toList_append, String.toList_ofList, hfront]

theorem pathComponents_joinPath (directory : String) {name : String} (h : IsFileName name) :
    pathComponents (joinPath directory name) = directoryComponents directory ++ [name] := by
  unfold joinPath directoryComponents
  simp only [h.not_startsWith, String.isEmpty_iff, Bool.or_eq_true, Bool.false_eq_true, or_false]
  split_ifs with hempty hslash
  · rw [h.pathComponents_eq, List.nil_append]
  · obtain ⟨front, rfl⟩ := exists_eq_append_slash hslash
    rw [pathComponents_append_slash, h.pathComponents_eq, pathComponents_append_empty,
      List.dropLast_concat]
  · rw [pathComponents_append_slash, h.pathComponents_eq]

theorem exists_joinPath_eq_append {directory name : String} (hdirectory : directory ≠ "")
    (h : IsFileName name) : ∃ rest, joinPath directory name = directory ++ rest := by
  unfold joinPath
  simp only [h.not_startsWith, String.isEmpty_iff, hdirectory, Bool.or_eq_true, Bool.false_eq_true,
    or_false, if_false]
  split_ifs
  · exact ⟨name, rfl⟩
  · exact ⟨"/" ++ name, String.append_assoc⟩

theorem startsWith_append {front back : String} (h : front ≠ "") :
    (front ++ back).startsWith "/" = front.startsWith "/" := by
  rw [Bool.eq_iff_iff, String.startsWith_string_iff, String.startsWith_string_iff,
    String.toList_append]
  cases hfront : front.toList with
  | nil => exact absurd (String.toList_eq_nil_iff.1 hfront) h
  | cons c cs => simp

namespace FileTree

variable (t : FileTree)

theorem walk_append (start : List String) (names more : List String) :
    t.walk start (names ++ more) = t.walk start names >>= fun stop => t.walk stop more :=
  List.foldlM_append

/-- One more name is one more step, from a directory. -/
theorem walk_name_eq_ok_iff {name : String} (h : IsFileName name) {start stop : List String} :
    t.walk start [name] = .ok stop ↔ t.at? start = some .directory ∧
      t.allow .search start = .ok () ∧ stop = start ++ [name] := by
  have hwalk : t.walk start [name] = t.step start name := bind_pure _
  rw [hwalk, step]
  rcases t.at? start with _ | ⟨_ | _⟩
  · simp
  · simp
  · simp only [if_neg h.ne_empty, if_neg h.ne_dot, if_neg h.ne_dot_dot,
      if_neg (Nat.not_lt.2 h.size_le), check_bind_eq_ok_iff, pure_eq_ok_iff, true_and,
      @eq_comm _ stop]

theorem walk_empty_eq_ok_iff {start stop : List String} :
    t.walk start [""] = .ok stop ↔ t.at? start = some .directory ∧ stop = start := by
  have hwalk : t.walk start [""] = t.step start "" := bind_pure _
  rw [hwalk, step]
  rcases t.at? start with _ | ⟨_ | _⟩
  · simp
  · simp
  · simp only [if_true, Except.ok.injEq, true_and]
    exact eq_comm

/-- The path leads to this directory. An empty path leads to the working directory. -/
def LeadsTo (directory : String) (location : List String) : Prop :=
  (if directory = "" then location = t.workingDirectory else t.locate directory = .ok location) ∧
    t.at? location = some .directory

/-- A path can be looked up: it is not too long and has no character zero. -/
def IsAdmissible (path : String) : Prop :=
  '\x00' ∉ path.toList ∧ path.utf8ByteSize ≤ maxPathSize

theorem locate_eq_ok_iff {path : String} {location : List String} :
    t.locate path = .ok location ↔ path ≠ "" ∧ IsAdmissible path ∧
      t.walk (if path.startsWith "/" then [] else t.workingDirectory) (pathComponents path) =
        .ok location := by
  unfold locate IsAdmissible
  simp only [List.contains_iff_mem]
  generalize t.walk (if path.startsWith "/" then [] else t.workingDirectory) (pathComponents path)
    = walked
  split_ifs with hempty hnul hlong
  · exact iff_of_false nofun fun h => h.1 hempty
  · exact iff_of_false nofun fun h => h.2.1.1 hnul
  · exact iff_of_false nofun fun h => Nat.not_lt.2 h.2.1.2 hlong
  · exact ⟨fun h => ⟨hempty, ⟨hnul, Nat.not_lt.1 hlong⟩, h⟩, fun h => h.2.2⟩

/-- The walk through the components of a directory and on to a name. -/
theorem walk_directoryComponents_eq_ok_iff {directory name : String} (hdirectory : directory ≠ "")
    (h : IsFileName name) {start location : List String} :
    t.walk start (directoryComponents directory ++ [name]) = .ok location ↔
      ∃ stop, t.walk start (pathComponents directory) = .ok stop ∧
        t.at? stop = some .directory ∧ t.allow .search stop = .ok () ∧
        location = stop ++ [name] := by
  have hlast (names : List String) : t.walk start (names ++ [name]) = .ok location ↔
      ∃ stop, t.walk start names = .ok stop ∧ t.at? stop = some .directory ∧
        t.allow .search stop = .ok () ∧ location = stop ++ [name] := by
    rw [walk_append, bind_eq_ok_iff]
    simp only [t.walk_name_eq_ok_iff h]
  rw [hlast, directoryComponents, if_neg hdirectory]
  split_ifs with hslash
  · -- Behind the slash at the end the walk stays where it is.
    obtain ⟨front, rfl⟩ := exists_eq_append_slash hslash
    rw [pathComponents_append_empty, List.dropLast_concat, walk_append]
    refine exists_congr fun stop => ?_
    simp only [bind_eq_ok_iff, walk_empty_eq_ok_iff]
    constructor
    · rintro ⟨hwalk, hat, hsearch, rfl⟩
      exact ⟨⟨stop, hwalk, hat, rfl⟩, hat, hsearch, rfl⟩
    · rintro ⟨⟨_, hwalk, -, rfl⟩, hat, hsearch, rfl⟩
      exact ⟨hwalk, hat, hsearch, rfl⟩
  · rfl

theorem IsAdmissible.of_append {front back : String} (h : IsAdmissible (front ++ back)) :
    IsAdmissible front := by
  obtain ⟨hnul, hsize⟩ := h
  rw [String.toList_append] at hnul
  rw [String.utf8ByteSize_append] at hsize
  exact ⟨fun hmem => hnul (List.mem_append_left _ hmem), by omega⟩

/-- A file name joined to a directory leads to the place with this name in the directory, and to no
other place. -/
theorem locate_joinPath_eq_ok_iff {directory name : String} (h : IsFileName name)
    {location : List String} : t.locate (joinPath directory name) = .ok location ↔
      IsAdmissible (joinPath directory name) ∧
        ∃ stop, t.LeadsTo directory stop ∧ t.allow .search stop = .ok () ∧
          location = stop ++ [name] := by
  rw [locate_eq_ok_iff, pathComponents_joinPath directory h]
  by_cases hdirectory : directory = ""
  · subst hdirectory
    have hpath : joinPath "" name = name := rfl
    simp only [hpath, h.not_startsWith, directoryComponents, if_true, List.nil_append,
      Bool.false_eq_true, if_false, t.walk_name_eq_ok_iff h, LeadsTo]
    constructor
    · rintro ⟨-, hadmissible, hat, hsearch, rfl⟩
      exact ⟨hadmissible, _, ⟨rfl, hat⟩, hsearch, rfl⟩
    · rintro ⟨hadmissible, _, ⟨rfl, hat⟩, hsearch, rfl⟩
      exact ⟨h.ne_empty, hadmissible, hat, hsearch, rfl⟩
  · obtain ⟨rest, hpath⟩ := exists_joinPath_eq_append hdirectory h
    have hstart : (joinPath directory name).startsWith "/" = directory.startsWith "/" := by
      rw [hpath, startsWith_append hdirectory]
    have hne : joinPath directory name ≠ "" := by
      rw [hpath, ne_eq, String.append_eq_empty_iff]
      exact fun h => hdirectory h.1
    rw [hstart, t.walk_directoryComponents_eq_ok_iff hdirectory h]
    simp only [LeadsTo, if_neg hdirectory, locate_eq_ok_iff]
    constructor
    · rintro ⟨-, hadmissible, stop, hwalk, hat, hsearch, rfl⟩
      rw [hpath] at hadmissible
      exact ⟨hpath ▸ hadmissible, stop, ⟨⟨hdirectory, hadmissible.of_append, hwalk⟩, hat⟩,
        hsearch, rfl⟩
    · rintro ⟨hadmissible, stop, ⟨⟨-, -, hwalk⟩, hat⟩, hsearch, rfl⟩
      exact ⟨hne, hadmissible, stop, hwalk, hat, hsearch, rfl⟩

end FileTree

end MeasuredIdentity.Enrollment
