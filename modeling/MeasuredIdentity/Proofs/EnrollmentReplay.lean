import MeasuredIdentity.Enrollment.Plan
import MeasuredIdentity.Proofs.FileTreeLaws
import MeasuredIdentity.Proofs.ImageLayout

/-!
Enrolment replays the device. It succeeds exactly if the files of the project can be read and hold a
layout of two images, a device with these images boots and the certificate can be written; what it
writes is the certificate of that boot, and no failure leaves a trace in the files.
-/
namespace MeasuredIdentity.Enrollment

open FileTree

section Snapshot

/-- The files of a tree that stays as it is. -/
def FileTree.snapshot (t : FileTree) : Files Id where
  isFile := t.isFile
  read := t.read
  write path content := (t.write path content).map fun _ => ()

theorem FileTree.snapshot_isFile (t : FileTree) (path : String) :
    t.snapshot.isFile path = t.isFile path := rfl

theorem FileTree.snapshot_read (t : FileTree) (path : String) :
    t.snapshot.read path = t.read path := rfl

/-- The files are those of a tree that is part of a state, and reading leaves the state as it is. -/
structure ReadsFrom {σ : Type} (files : Files (StateM σ)) (tree : σ → FileTree) : Prop where
  isFile : ∀ path s, (files.isFile path).run s = ((tree s).isFile path, s)
  read : ∀ path s, (files.read path).run s = ((tree s).read path, s)

theorem FileTree.readsFrom_access : ReadsFrom access fun t => t := ⟨fun _ _ => rfl, fun _ _ => rfl⟩

theorem run_write (path : String) (content : Bytes) (t : FileTree) :
    (access.write path content).run t =
      match t.write path content with
      | .ok u => (.ok (), u)
      | .error cause => (.error cause, t) := rfl

variable {σ ε β : Type} {files : Files (StateM σ)} {tree : σ → FileTree}
  (h : ReadsFrom files tree) (path project : String) (s : σ)

include h

theorem ReadsFrom.run_isFile_bind (f : Bool → ExceptT ε (StateM σ) β) :
    ((liftM (files.isFile path) : ExceptT ε (StateM σ) Bool) >>= f).run.run s =
      (f ((tree s).isFile path)).run.run s := by
  rw [run_liftM_bind, StateM.run_bind_of (h.isFile path s)]

theorem ReadsFrom.run_read_bind (f : Except FileError Bytes → ExceptT ε (StateM σ) β) :
    ((liftM (files.read path) : ExceptT ε (StateM σ) _) >>= f).run.run s =
      (f ((tree s).read path)).run.run s := by
  rw [run_liftM_bind, StateM.run_bind_of (h.read path s)]

theorem ReadsFrom.run_checkInputs : (checkInputs files project).run.run s =
    ((checkInputs (tree s).snapshot project).run, s) := by
  unfold checkInputs
  rw [h.run_isFile_bind, run_liftM_bind, id_bind, (tree s).snapshot_isFile (binaryPath project)]
  cases (tree s).isFile (binaryPath project) with
  | false => rfl
  | true =>
    -- The second file is looked for only where the first one is there.
    simp only [if_true]
    rw [h.run_isFile_bind, run_liftM_bind, id_bind, snapshot_isFile]
    cases (tree s).isFile (mapPath project) <;> rfl

theorem ReadsFrom.run_readMap : (readMap files path).run.run s =
    ((readMap (tree s).snapshot path).run, s) := by
  unfold readMap
  rw [h.run_read_bind, run_liftM_bind, id_bind, snapshot_read]
  rcases (tree s).read path with cause | content
  · rfl
  · dsimp only
    cases Text.Utf8.decode? content <;> rfl

theorem ReadsFrom.run_readBinary : (readBinary files path).run.run s =
    ((readBinary (tree s).snapshot path).run, s) := by
  unfold readBinary
  rw [h.run_read_bind, run_liftM_bind, id_bind, snapshot_read]
  cases (tree s).read path <;> rfl

theorem ReadsFrom.run_readImages : (readImages files project).run.run s =
    ((readImages (tree s).snapshot project).run, s) := by
  unfold readImages
  rw [run_bind_state, h.run_readMap, run_bind_id]
  rcases (readMap (tree s).snapshot (mapPath project)).run with cause | map
  · rfl
  · dsimp only
    rw [run_bind_state, h.run_readBinary, run_bind_id]
    rcases (readBinary (tree s).snapshot (binaryPath project)).run with cause | binary <;> rfl

end Snapshot

variable {t u : FileTree} {path project : String} {images : Images}

theorem checkInputs_eq_ok_iff : (checkInputs t.snapshot project).run = .ok () ↔
    t.isFile (binaryPath project) = true ∧ t.isFile (mapPath project) = true := by
  unfold checkInputs
  rw [run_liftM_bind, id_bind, t.snapshot_isFile (binaryPath project)]
  cases t.isFile (binaryPath project) with
  | false => exact iff_of_false nofun nofun
  | true =>
    simp only [if_true, true_and]
    rw [run_liftM_bind, id_bind, snapshot_isFile]
    cases t.isFile (mapPath project) with
    | false => exact iff_of_false nofun nofun
    | true => exact iff_of_true rfl rfl

theorem checkInputs_of_missingBinary (h : t.isFile (binaryPath project) = false) :
    (checkInputs t.snapshot project).run = .error (.missingFile (binaryPath project)) := by
  unfold checkInputs
  rw [run_liftM_bind, id_bind, t.snapshot_isFile (binaryPath project), h]
  rfl

theorem checkInputs_of_missingMap (hbinary : t.isFile (binaryPath project) = true)
    (h : t.isFile (mapPath project) = false) :
    (checkInputs t.snapshot project).run = .error (.missingFile (mapPath project)) := by
  unfold checkInputs
  rw [run_liftM_bind, id_bind, t.snapshot_isFile (binaryPath project), hbinary]
  simp only [if_true]
  rw [run_liftM_bind, id_bind, snapshot_isFile, h]
  rfl

theorem readMap_eq_ok_iff {map : LinkMap} : (readMap t.snapshot path).run = .ok map ↔
    ∃ text, t.Reads path (Text.Utf8.encode text) ∧ LinkMap.parse text = map := by
  simp only [← read_eq_ok_iff]
  unfold readMap
  rw [run_liftM_bind, id_bind, snapshot_read]
  rcases t.read path with cause | content
  · exact iff_of_false nofun nofun
  · simp only [Except.ok.injEq, ← Text.Utf8.decode?_eq_some_iff]
    rcases Text.Utf8.decode? content with _ | text
    · exact iff_of_false nofun nofun
    · simp only [Option.some.injEq, exists_eq_left']
      exact pure_eq_ok_iff

theorem readBinary_eq_ok_iff {binary : Bytes} :
    (readBinary t.snapshot path).run = .ok binary ↔ t.Reads path binary := by
  rw [← read_eq_ok_iff]
  unfold readBinary
  rw [run_liftM_bind, id_bind, snapshot_read]
  rcases t.read path with cause | content
  · exact iff_of_false nofun nofun
  · rw [Except.ok.injEq]
    exact pure_eq_ok_iff

/-- What can be read from the files of the project is a binary with the two images in it, and a map
that says where. -/
def FileTree.HasBuild (t : FileTree) (project : String) (images : Images) : Prop :=
  ∃ binary map, t.Reads (project ++ ".bin") binary ∧
    t.Reads (project ++ ".map") (Text.Utf8.encode map) ∧ images.AreIn binary (LinkMap.parse map)

theorem readImages_eq_ok_iff :
    (readImages t.snapshot project).run = .ok images ↔ t.HasBuild project images := by
  simp only [readImages, run_bind_eq_ok_iff, readMap_eq_ok_iff, readBinary_eq_ok_iff, mapPath,
    binaryPath]
  constructor
  · rintro ⟨_, ⟨map, hmap, rfl⟩, binary, hbinary, hcut⟩
    exact ⟨binary, map, hbinary, hmap, Images.cut_eq_ok_iff.1 (mapError_eq_ok_iff.1 hcut)⟩
  · rintro ⟨binary, map, hbinary, hmap, himages⟩
    exact ⟨_, ⟨map, hmap, rfl⟩, binary, hbinary,
      mapError_eq_ok_iff.2 (Images.cut_eq_ok_iff.2 himages)⟩

theorem FileTree.HasBuild.isFile (h : t.HasBuild project images) :
    t.isFile (binaryPath project) = true ∧ t.isFile (mapPath project) = true := by
  obtain ⟨_, _, hbinary, hmap, -⟩ := h
  exact ⟨isFile_iff.2 ⟨_, hbinary.holds⟩, isFile_iff.2 ⟨_, hmap.holds⟩⟩

namespace Plan

section Parts

variable {m : Type → Type} [Monad m] (files : Files m) (p : Plan)

/-- All of an enrolment up to the certificate. -/
def prepare : ExceptT EnrollmentError m Credentials := do
  checkInputs files p.project
  let images ← readImages files p.project
  ExceptT.mk (pure (p.credentials images))

/-- The rest of it, which alone writes. -/
def store (c : Credentials) : ExceptT EnrollmentError m String := do
  match ← files.write p.outPath c.aliasCertificate.text with
  | .ok () => return p.outPath
  | .error cause => throw (.unwritable p.outPath cause)

theorem run_eq_prepare_store [LawfulMonad m] :
    p.run files = p.prepare files >>= p.store files := by
  simp only [run, prepare, bind_assoc]
  rfl

end Parts

variable (p : Plan)

theorem run_prepare {σ : Type} {files : Files (StateM σ)} {tree : σ → FileTree}
    (h : ReadsFrom files tree) (s : σ) :
    (p.prepare files).run.run s = ((p.prepare (tree s).snapshot).run, s) := by
  unfold prepare
  rw [run_bind_state, h.run_checkInputs, run_bind_id]
  rcases (checkInputs (tree s).snapshot p.project).run with e | ⟨⟩
  · rfl
  · dsimp only
    rw [run_bind_state, h.run_readImages, run_bind_id]
    rcases (readImages (tree s).snapshot p.project).run with e | images <;> rfl

/-- The device that is enrolled boots from the files of the project with these credentials. -/
def BootsFrom (t : FileTree) (c : Credentials) : Prop :=
  ∃ images, t.HasBuild p.project images ∧
    bootInMemory p.secret images.core images.firmware p.registrationId p.policy = .ok c

theorem prepare_eq_ok_iff {c : Credentials} :
    (p.prepare t.snapshot).run = .ok c ↔ p.BootsFrom t c := by
  simp only [prepare, run_bind_eq_ok_iff, readImages_eq_ok_iff]
  constructor
  · rintro ⟨_, -, images, hbuild, hcredentials⟩
    exact ⟨images, hbuild, mapError_eq_ok_iff.1 hcredentials⟩
  · rintro ⟨images, hbuild, hboot⟩
    exact ⟨(), checkInputs_eq_ok_iff.2 hbuild.isFile, images, hbuild, mapError_eq_ok_iff.2 hboot⟩

theorem run_store (t : FileTree) (c : Credentials) : (p.store access c).run.run t =
    match t.write p.outPath c.aliasCertificate.text with
    | .ok u => (.ok p.outPath, u)
    | .error cause => (.error (.unwritable p.outPath cause), t) := by
  rw [store, run_liftM_bind, StateT.run_bind, run_write]
  rcases t.write p.outPath c.aliasCertificate.text with cause | u <;> rfl

theorem run_eq (t : FileTree) : (p.run access).run.run t =
    match (p.prepare t.snapshot).run with
    | .error e => (.error e, t)
    | .ok c => (p.store access c).run.run t := by
  rw [run_eq_prepare_store, run_bind_state, p.run_prepare readsFrom_access]
  rcases (p.prepare t.snapshot).run with e | c <;> rfl

/-- A successful run has booted the device and written its certificate. -/
theorem run_eq_ok_iff : (p.run access).run.run t = (.ok path, u) ↔
    path = p.outPath ∧ ∃ c, p.BootsFrom t c ∧ t.write p.outPath c.aliasCertificate.text = .ok u := by
  rw [run_eq]
  constructor
  · intro h
    rcases hprepare : (p.prepare t.snapshot).run with e | c <;> rw [hprepare] at h
    · cases h
    · dsimp only at h
      rw [run_store] at h
      rcases hwrite : t.write p.outPath c.aliasCertificate.text with cause | u' <;> rw [hwrite] at h
      · cases h
      · cases h
        exact ⟨rfl, c, p.prepare_eq_ok_iff.1 hprepare, hwrite⟩
  · rintro ⟨rfl, c, hboots, hwrite⟩
    rw [p.prepare_eq_ok_iff.2 hboots]
    dsimp only
    rw [run_store, hwrite]

end Plan

end MeasuredIdentity.Enrollment
