import MeasuredIdentity.Boot
import MeasuredIdentity.Proofs.WorkingState

/-!
The stages of a boot. A boot loads the secret, measures the core image and derives keys for the
firmware, in this order, and ends at the first stage that fails; the two images are asked for at
their own stages only. The store and the images may have a state of their own.
-/
namespace MeasuredIdentity

namespace Platform

section Stages

variable {m : Type → Type} [Monad m] (p : Platform m) (id : RegistrationId) (policy : IssuePolicy)

/-- The result of a boot, with the number of reads that each stage makes. -/
def stages : m (Except Error Credentials × ReadCounts) := do
  match ← p.loadSecret with
  | .error e => return (.error e, ⟨0, 0⟩)
  | .ok secret =>
    match secret.validate with
    | .error e => return (.error e, ⟨0, 0⟩)
    | .ok () =>
      let core ← p.coreImage
      match cdiOf core secret with
      | .error e => return (.error e, ⟨1, 0⟩)
      | .ok cdi =>
        let firmware ← p.firmwareImage
        return (credentialsOf cdi id firmware policy, ⟨1, 1⟩)

variable [LawfulMonad m]

theorem run_boot : (boot p id policy).run = Prod.fst <$> p.stages id policy := by
  unfold boot stages
  rw [ExceptT.run_bind, ExceptT.run_mk, map_bind]
  refine bind_congr fun loaded => ?_
  cases loaded with
  | error e => simp only [map_pure]
  | ok secret =>
    dsimp only
    rw [run_liftM_except_bind]
    rcases secret.validate with e | ⟨⟩
    · simp only [map_pure]
    · dsimp only
      rw [run_liftM_bind, map_bind]
      refine bind_congr fun core => ?_
      rw [run_liftM_except_bind]
      rcases cdiOf core secret with e | cdi
      · simp only [map_pure]
      · simp only [map_bind, map_pure, identify, run_liftM_bind]
        rfl

theorem run_boot_counted : (boot p.counted id policy).run.run {} = p.stages id policy := by
  rw [run_boot, StateT.run_map]
  simp only [stages, counted, StateT.run_bind, StateT.run_monadLift, monadLift_self, bind_assoc,
    pure_bind, map_bind]
  refine bind_congr fun loaded => ?_
  cases loaded with
  | error e => simp
  | ok secret =>
    dsimp only
    rcases secret.validate with e | ⟨⟩
    · simp
    · simp only [StateT.run_bind, StateT.run_modify, StateT.run_monadLift, monadLift_self,
        bind_assoc, pure_bind, map_bind]
      refine bind_congr fun core => ?_
      rcases cdiOf core secret with e | cdi
      · simp
      · simp

end Stages

variable {σ : Type}

/-- The courses of a boot from a state of the platform, with the credentials or the error that it
ends with, the reads that it has made and the state that it leaves. -/
inductive Course (p : Platform (StateM σ)) (id : RegistrationId) (policy : IssuePolicy) (s : σ) :
    Except Error Credentials → ReadCounts → σ → Prop where
  /-- There is no secret. -/
  | unloaded {e s₁} (load : p.loadSecret.run s = (.error e, s₁)) :
    Course p id policy s (.error e) ⟨0, 0⟩ s₁
  /-- The secret is not provisioned. No image has been looked at. -/
  | unprovisioned {secret s₁} (load : p.loadSecret.run s = (.ok secret, s₁))
    (tag : secret.tag ≠ DeviceSecret.provisioningTag) :
    Course p id policy s (.error (.secretNotProvisioned secret.tag)) ⟨0, 0⟩ s₁
  /-- The core image cannot be measured. -/
  | unmeasured {secret s₁ core s₂} (load : p.loadSecret.run s = (.ok secret, s₁))
    (tag : secret.tag = DeviceSecret.provisioningTag) (read : p.coreImage.run s₁ = (core, s₂))
    (size : core.length < minMeasuredSize) :
    Course p id policy s (.error (.coreImageTooSmall core.length)) ⟨1, 0⟩ s₂
  /-- There is an identifier. Only now the firmware image is read, and the keys for both issue. -/
  | identified {secret s₁ core s₂ cdi firmware s₃} (load : p.loadSecret.run s = (.ok secret, s₁))
    (tag : secret.tag = DeviceSecret.provisioningTag) (read : p.coreImage.run s₁ = (core, s₂))
    (size : minMeasuredSize ≤ core.length) (derive : cdiOf core secret = .ok cdi)
    (readFirmware : p.firmwareImage.run s₂ = (firmware, s₃)) :
    Course p id policy s (LayerKeys.ofCdi cdi firmware >>= fun keys => keys.issue id policy)
      ⟨1, 1⟩ s₃

variable {p : Platform (StateM σ)} {id : RegistrationId} {policy : IssuePolicy} {s t : σ}
  {result : Except Error Credentials} {reads : ReadCounts}

theorem Course.run_stages (h : p.Course id policy s result reads t) :
    (p.stages id policy).run s = ((result, reads), t) := by
  unfold stages
  cases h with
  | unloaded load =>
    rw [StateM.run_bind_of load]
    rfl
  | unprovisioned load tag =>
    rw [StateM.run_bind_of load]
    simp only [DeviceSecret.validate, if_neg tag]
    rfl
  | unmeasured load tag read size =>
    rw [StateM.run_bind_of load]
    simp only [DeviceSecret.validate, if_pos tag]
    rw [StateM.run_bind_of read, cdiOf_eq, composedCdi, if_pos size]
    rfl
  | identified load tag read size derive readFirmware =>
    rw [StateM.run_bind_of load]
    simp only [DeviceSecret.validate, if_pos tag]
    rw [StateM.run_bind_of read, derive]
    dsimp only
    rw [StateM.run_bind_of readFirmware]
    rfl

variable (p id policy s) in
theorem exists_course : ∃ result reads t, p.Course id policy s result reads t := by
  rcases hload : p.loadSecret.run s with ⟨e | secret, s₁⟩
  · exact ⟨_, _, _, .unloaded hload⟩
  by_cases htag : secret.tag = DeviceSecret.provisioningTag
  · rcases hread : p.coreImage.run s₁ with ⟨core, s₂⟩
    rcases Nat.lt_or_ge core.length minMeasuredSize with hsize | hsize
    · exact ⟨_, _, _, .unmeasured hload htag hread hsize⟩
    · rcases hfirmware : p.firmwareImage.run s₂ with ⟨firmware, s₃⟩
      have hderive : ∃ cdi, cdiOf core secret = .ok cdi := by
        rw [cdiOf_eq, composedCdi, if_neg (Nat.not_lt.2 hsize), if_neg (not_not_intro htag)]
        exact ⟨_, rfl⟩
      obtain ⟨cdi, hderive⟩ := hderive
      exact ⟨_, _, _, .identified hload htag hread hsize hderive hfirmware⟩
  · exact ⟨_, _, _, .unprovisioned hload htag⟩

theorem run_stages_iff :
    (p.stages id policy).run s = ((result, reads), t) ↔ p.Course id policy s result reads t := by
  constructor
  · intro h
    obtain ⟨_, _, _, hcourse⟩ := p.exists_course id policy s
    cases hcourse.run_stages.symm.trans h
    exact hcourse
  · exact Course.run_stages

variable (p id policy s t result reads) in
/-- A boot takes one of the four courses, whether its reads are counted or not. -/
theorem boot_iff_course :
    (((boot p.counted id policy).run.run {}).run s = ((result, reads), t) ↔
      p.Course id policy s result reads t) ∧
    ((boot p id policy).run.run s = (result, t) ↔ ∃ reads, p.Course id policy s result reads t) := by
  constructor
  · rw [run_boot_counted, run_stages_iff]
  · rw [run_boot]
    constructor
    · intro h
      rcases hstages : (p.stages id policy).run s with ⟨⟨result', reads⟩, t'⟩
      rw [StateT.run_map, hstages] at h
      cases h
      exact ⟨reads, run_stages_iff.1 hstages⟩
    · rintro ⟨reads, hcourse⟩
      rw [StateT.run_map, hcourse.run_stages]
      rfl

/-- A wiped secret ends a boot before the core image, which is too small, is read. -/
example (id : RegistrationId) (policy : IssuePolicy) (firmware : Bytes) :
    (boot (Platform.inMemory (.ok .wiped) [0, 0, 0, 0] firmware).counted id policy).run.run {} =
      (.error (.secretNotProvisioned 0), ⟨0, 0⟩) := rfl

end Platform

end MeasuredIdentity
