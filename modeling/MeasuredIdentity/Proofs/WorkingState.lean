import MeasuredIdentity.Measurement
import MeasuredIdentity.Proofs.Sequencing

/-!
Nothing is left in the working state between two derivations. Whatever is done with a state clears
it, a derivation that fails halfway included; so in every sequence of operations a derivation gives
what it gives on a new state.
-/
namespace MeasuredIdentity

/-- The identifier of a core image and a secret, without a working state. An image that is too
small is refused first, whatever the tag of the secret is. -/
def composedCdi (core : Bytes) (secret : DeviceSecret) : Except Error Cdi :=
  if core.length < minMeasuredSize then .error (.coreImageTooSmall core.length)
  else if secret.tag ≠ DeviceSecret.provisioningTag then .error (.secretNotProvisioned secret.tag)
  else .ok ⟨sha256 ((sha256 secret.bytes.toList).toList ++ (sha256 core).toList)⟩

namespace MeasurementState

/-- An image that is too small leaves the state as it is; the digest of any other one takes in what
the hash holds already. -/
theorem measureCore_run (core : Bytes) (s : MeasurementState) :
    (measureCore core).run.run s =
      if core.length < minMeasuredSize then (.error (.coreImageTooSmall core.length), s)
      else (.ok (), { s with coreDigest := sha256 (s.hasher.absorbed ++ core), hasher := .fresh }) := by
  unfold measureCore
  split
  · rfl
  · rfl

theorem validate_run (secret : DeviceSecret) (s : MeasurementState) :
    (liftM secret.validate : Step Unit).run.run s = (secret.validate, s) := rfl

/-- A derivation looks at the hash that it finds, and at neither digest. -/
theorem derive_run_fst (core : Bytes) (secret : DeviceSecret) {s : MeasurementState}
    (h : s.hasher = .fresh) : ((derive core secret).run.run s).1 = composedCdi core secret := by
  have habsorbed : s.hasher.absorbed = [] := congrArg Hasher.absorbed h
  rw [derive, run_bind_state, measureCore_run, composedCdi]
  by_cases hsize : core.length < minMeasuredSize
  · rw [if_pos hsize, if_pos hsize]
  · rw [if_neg hsize, if_neg hsize, habsorbed, List.nil_append]
    dsimp only
    rw [run_bind_state, validate_run, DeviceSecret.validate]
    by_cases htag : secret.tag = DeviceSecret.provisioningTag
    · rw [if_pos htag, if_neg (not_not_intro htag)]
      rfl
    · rw [if_neg htag, if_pos htag]

theorem computeCdi_run (core : Bytes) (secret : DeviceSecret) (s : MeasurementState) :
    (computeCdi core secret).run.run s = (((derive core secret).run.run s).1, clear) := rfl

end MeasurementState

theorem cdiOf_eq (core : Bytes) (secret : DeviceSecret) :
    cdiOf core secret = composedCdi core secret := by
  rw [cdiOf, MeasurementState.computeCdi_run]
  exact MeasurementState.derive_run_fst core secret rfl

namespace MeasurementState

/-- What can be done with a working state. -/
inductive Operation where
  | new
  | wipe
  | computeCdi (core : Bytes) (secret : DeviceSecret)

/-- What an operation leaves: a result, if it is a derivation, and a state. -/
structure Outcome where
  result : Option (Except Error Cdi)
  state : MeasurementState

namespace Operation

def apply (s : MeasurementState) : Operation → Outcome
  | new => ⟨none, clear⟩
  | wipe => ⟨none, s.wipe⟩
  | computeCdi core secret =>
    let (result, t) := (MeasurementState.computeCdi core secret).run.run s
    ⟨some result, t⟩

/-- The result on a new state. -/
def resultOnNew (op : Operation) : Option (Except Error Cdi) := (op.apply clear).result

theorem apply_state (op : Operation) (s : MeasurementState) : (op.apply s).state = clear := by
  cases op with
  | new => rfl
  | wipe => exact s.wipe_eq_clear
  | computeCdi core secret => rfl

theorem resultOnNew_computeCdi (core : Bytes) (secret : DeviceSecret) :
    (computeCdi core secret).resultOnNew = some (composedCdi core secret) :=
  congrArg some (cdiOf_eq core secret)

end Operation

/-- The outcomes of operations that are done one after the other with the same state. -/
def history (s : MeasurementState) : List Operation → List Outcome
  | [] => []
  | op :: ops => op.apply s :: history (op.apply s).state ops

theorem state_of_mem_history {ops : List Operation} {s : MeasurementState} {o : Outcome}
    (h : o ∈ history s ops) : o.state = clear := by
  induction ops generalizing s with
  | nil => cases h
  | cons op ops ih =>
    rw [history, List.mem_cons] at h
    rcases h with rfl | h
    · exact op.apply_state s
    · exact ih h

/-- Between two operations the state is a new one. -/
theorem results_history (ops : List Operation) :
    (history clear ops).map Outcome.result = ops.map Operation.resultOnNew := by
  induction ops with
  | nil => rfl
  | cons op ops ih =>
    rw [history, op.apply_state, List.map_cons, List.map_cons, ih, Operation.resultOnNew]

/-- Every operation leaves both digests zero and a fresh hash, whatever state it finds. On a state
that was new at first, each derivation gives what it gives on a new state, and that is the composed
identifier or the reason why there is none. -/
theorem history_leaves_nothing (ops : List Operation) :
    (∀ s, ∀ o ∈ history s ops, o.state.secretDigest = zeroDigest ∧
      o.state.coreDigest = zeroDigest ∧ o.state.isClear = true ∧ o.state.hasher = .fresh) ∧
    (history clear ops).map Outcome.result = ops.map Operation.resultOnNew ∧
    ∀ core secret, (Operation.computeCdi core secret).resultOnNew =
      some (composedCdi core secret) := by
  refine ⟨?_, results_history ops, Operation.resultOnNew_computeCdi⟩
  intro s o ho
  rw [state_of_mem_history ho]
  exact ⟨rfl, rfl, by decide, rfl⟩

end MeasurementState

end MeasuredIdentity
