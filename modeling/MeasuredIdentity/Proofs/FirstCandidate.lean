import MeasuredIdentity.Proofs.IssuedDocuments
import MeasuredIdentity.Proofs.Sequencing

/-!
The search for a private key. Candidates are tried in the order of their counters, and a candidate
is taken as it is or not at all. So the key is the first of the eight candidates that is a number
from one on and below the order, and the search fails only where none of them is. The law holds for
every key expansion, and so covers rejections, which no seed that is known leads to.
-/
namespace MeasuredIdentity.KeyDerivation

open P256

/-- The bytes are a private key as they stand. -/
def IsScalar (octets : Octets 32) : Prop := 0 < octets.toNat ∧ octets.toNat < order

/-- The candidate at `k` is a private key, and no earlier one is. -/
structure IsFirstScalar (c : ℕ → Octets 32) (k : ℕ) : Prop where
  isScalar : IsScalar (c k)
  earlier : ∀ i < k, ¬ IsScalar (c i)

/-- The end of a search through eight candidates: a key with the bytes of the first of them that is
one, or the error that says that none is. -/
structure EndsAtFirst (c : ℕ → Octets 32) (result : Except Error PrivateKey) : Prop where
  ok_iff : ∀ key, result = .ok key ↔ ∃ k < 8, IsFirstScalar c k ∧ key.toOctets = c k
  error_iff : ∀ e, result = .error e ↔ e = .keyDerivationExhausted ∧ ∀ k < 8, ¬ IsScalar (c k)

/-! ### One candidate -/

theorem ofNat?_toNat_eq_some_iff {octets : Octets 32} {key : Scalar} :
    Scalar.ofNat? octets.toNat = some key ↔ key.toOctets = octets := by
  rw [X509.scalar_ofNat?_eq_some_iff]
  constructor
  · intro h
    have hbytes := Bytes.ofNat_toNat octets.toList
    rw [octets.length_toList] at hbytes
    apply Octets.ext
    rw [Scalar.toOctets, h]
    exact hbytes
  · intro h
    rw [← h, Scalar.toNat_toOctets]

theorem ofNat?_toNat_eq_none_iff {octets : Octets 32} :
    Scalar.ofNat? octets.toNat = none ↔ ¬ IsScalar octets := by
  unfold Scalar.ofNat? IsScalar
  split_ifs with h <;> simp [h]

theorem isScalar_of_toOctets_eq {octets : Octets 32} {key : Scalar} (h : key.toOctets = octets) :
    IsScalar octets := by
  rw [← h, IsScalar, Scalar.toNat_toOctets]
  exact ⟨key.pos, key.lt_order⟩

/-! ### The search -/

section Search

variable {candidate : ℕ → Except Error (Octets 32)} {c : ℕ → Octets 32} {attempts k : ℕ}

theorem isFirstScalar_zero : IsFirstScalar c 0 ↔ IsScalar (c 0) := by
  constructor
  · intro h
    exact h.isScalar
  · intro h
    exact ⟨h, by simp⟩

theorem isFirstScalar_succ :
    IsFirstScalar c (k + 1) ↔ ¬ IsScalar (c 0) ∧ IsFirstScalar (fun i => c (i + 1)) k := by
  constructor
  · intro h
    refine ⟨h.earlier 0 (Nat.succ_pos k), h.isScalar, ?_⟩
    intro i hi
    exact h.earlier (i + 1) (Nat.succ_lt_succ hi)
  · intro h
    refine ⟨h.2.isScalar, ?_⟩
    intro i hi
    cases i with
    | zero => exact h.1
    | succ i => exact h.2.earlier i (Nat.lt_of_succ_lt_succ hi)

/-- To count from one later is to pass over the first candidate. -/
theorem firstKey_counter_succ (candidate : ℕ → Except Error (Octets 32)) (attempts counter : ℕ) :
    firstKey candidate attempts (counter + 1) =
      firstKey (fun i => candidate (i + 1)) attempts counter := by
  induction attempts generalizing counter with
  | zero => rfl
  | succ attempts ih => simp only [firstKey, ih]

/-- A candidate that is no key leaves nothing behind: the search goes on as if it began with the
next one. -/
theorem firstKey_succ (h : candidate 0 = .ok (c 0)) :
    firstKey candidate (attempts + 1) 0 =
      match Scalar.ofNat? (c 0).toNat with
      | some key => .ok key
      | none => firstKey (fun i => candidate (i + 1)) attempts 0 := by
  rw [firstKey, h, ok_bind]
  cases Scalar.ofNat? (c 0).toNat with
  | some key => rfl
  | none => exact firstKey_counter_succ candidate attempts 0

theorem firstKey_eq_ok_iff (h : ∀ i < attempts, candidate i = .ok (c i)) {key : PrivateKey} :
    firstKey candidate attempts 0 = .ok key ↔
      ∃ k < attempts, IsFirstScalar c k ∧ key.toOctets = c k := by
  induction attempts generalizing candidate c with
  | zero => simp [firstKey]
  | succ attempts ih =>
    have hlater := ih (c := fun i => c (i + 1)) fun i hi => h (i + 1) (Nat.succ_lt_succ hi)
    rw [firstKey_succ (h 0 (Nat.succ_pos attempts)), Nat.exists_lt_succ_left]
    simp only [isFirstScalar_zero, isFirstScalar_succ]
    cases hfirst : Scalar.ofNat? (c 0).toNat with
    | some first =>
      have hbytes := ofNat?_toNat_eq_some_iff.1 hfirst
      have hscalar := isScalar_of_toOctets_eq hbytes
      simp [hscalar, ← ofNat?_toNat_eq_some_iff, hfirst]
    | none =>
      have hscalar := ofNat?_toNat_eq_none_iff.1 hfirst
      simp [hscalar, hlater]

theorem firstKey_eq_error_iff (h : ∀ i < attempts, candidate i = .ok (c i)) {e : Error} :
    firstKey candidate attempts 0 = .error e ↔
      e = .keyDerivationExhausted ∧ ∀ k < attempts, ¬ IsScalar (c k) := by
  induction attempts generalizing candidate c with
  | zero => simp [firstKey, eq_comm]
  | succ attempts ih =>
    have hlater := ih (c := fun i => c (i + 1)) fun i hi => h (i + 1) (Nat.succ_lt_succ hi)
    rw [firstKey_succ (h 0 (Nat.succ_pos attempts)), Nat.forall_lt_succ_left]
    cases hfirst : Scalar.ofNat? (c 0).toNat with
    | some first =>
      have hscalar := isScalar_of_toOctets_eq (ofNat?_toNat_eq_some_iff.1 hfirst)
      simp [hscalar]
    | none =>
      have hscalar := ofNat?_toNat_eq_none_iff.1 hfirst
      simp [hscalar, hlater]

end Search

theorem endsAtFirst_privateKeyWith {expander : Expander} {seed label : Bytes} {c : ℕ → Octets 32}
    (h : ∀ i < 8, expander keySalt seed (label ++ Bytes.ofNat 4 i) 32 = .ok (c i)) :
    EndsAtFirst c (privateKeyWith expander seed label) :=
  ⟨fun _ => firstKey_eq_ok_iff h, fun _ => firstKey_eq_error_iff h⟩

/-- Every seed and label have the first key among the outputs of the expansion for the label with
the counters from zero to seven, or no key if none of the outputs is one. The expansion itself never
fails. The same holds with every other expansion that gives eight outputs. -/
theorem privateKey_first_candidate (seed label : Bytes) :
    (∃ c : ℕ → Octets 32,
      (∀ i, Hkdf.derive keySalt seed (label ++ Bytes.ofNat 4 i) 32 = some (c i)) ∧
      EndsAtFirst c (privateKey seed label)) ∧
    ∀ (expander : Expander) (c : ℕ → Octets 32),
      (∀ i < 8, expander keySalt seed (label ++ Bytes.ofNat 4 i) 32 = .ok (c i)) →
      EndsAtFirst c (privateKeyWith expander seed label) := by
  have hlength : 32 ≤ Hkdf.maxLength := by decide
  constructor
  · refine ⟨fun i => expansion keySalt seed (label ++ Bytes.ofNat 4 i) hlength, ?_, ?_⟩
    · intro i
      exact (Option.some_get _).symm
    · apply endsAtFirst_privateKeyWith
      intro i _
      exact expand_eq _ _ _ hlength
  · intro expander c h
    exact endsAtFirst_privateKeyWith h

/-- Zero and the order are passed over. -/
example : privateKeyWith
    (fun _ _ info length => .ok (.ofNat length ([0, order, 7].getD (Bytes.toNat info) 1))) [] [] =
      .ok ⟨7, by decide, by decide⟩ := rfl

/-- Eight candidates that are too large leave no key. -/
example : privateKeyWith (fun _ _ _ length => .ok (.ofNat length order)) [] [] =
    .error .keyDerivationExhausted := rfl

end MeasuredIdentity.KeyDerivation
