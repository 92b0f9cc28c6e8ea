import MeasuredIdentity.Curve.Key
import MeasuredIdentity.Proofs.BigEndian
import MeasuredIdentity.Proofs.PrimeField

/-!
The byte forms of a point. Reading accepts exactly the uncompressed, the compressed and the
compact form of the points on the curve, and each of them stands for one point.
-/
namespace MeasuredIdentity.P256

namespace PublicKey

def OnCurve (key : PublicKey) : Prop := onCurve key.x key.y = true

/-- The byte 4 and both coordinates. -/
def IsUncompressed (key : PublicKey) (b : Bytes) : Prop :=
  key.OnCurve ∧ b = 0x04 :: (Bytes.ofNat 32 key.x ++ Bytes.ofNat 32 key.y)

/-- The byte 2 or 3, which tells whether the ordinate is even or odd, and the abscissa. -/
def IsCompressed (key : PublicKey) (b : Bytes) : Prop :=
  key.OnCurve ∧ b = (if key.y % 2 = 0 then 0x02 else 0x03) :: Bytes.ofNat 32 key.x

/-- The byte 5 and the abscissa, for the point with the smaller ordinate. -/
def IsCompact (key : PublicKey) (b : Bytes) : Prop :=
  key.OnCurve ∧ key.y ≤ prime - key.y ∧ b = 0x05 :: Bytes.ofNat 32 key.x

/-- The bytes are one of the three forms of the point. -/
def IsForm (key : PublicKey) (b : Bytes) : Prop :=
  key.IsUncompressed b ∨ key.IsCompressed b ∨ key.IsCompact b

theorem prime_lt : prime < 256 ^ 32 := by decide

theorem toNat_ofNat_coordinate {n : ℕ} (h : n < prime) : Bytes.toNat (Bytes.ofNat 32 n) = n :=
  Bytes.toNat_ofNat_of_lt (h.trans prime_lt)

theorem ofNat_toNat_coordinate {b : Bytes} (h : b.length = 32) : Bytes.ofNat 32 (Bytes.toNat b) = b := by
  rw [← h, Bytes.ofNat_toNat]

theorem ofAffine?_eq_some_iff {x y : ℕ} {key : PublicKey} :
    ofAffine? x y = some key ↔ key.x = x ∧ key.y = y ∧ key.OnCurve := by
  constructor
  · intro h
    unfold ofAffine? at h
    split_ifs at h with hlt hcurve
    cases h
    exact ⟨rfl, rfl, hcurve⟩
  · rintro ⟨rfl, rfl, hcurve⟩
    exact (dif_pos ⟨key.x_lt, key.y_lt⟩).trans (if_pos hcurve)

/-- A choice between an ordinate and its negative. -/
def ChoosesOne (keep : ℕ → Bool) : Prop := ∀ y, 0 < y → y < prime → keep (prime - y) = !keep y

theorem y_pos_of_onCurve {key : PublicKey} (h : key.OnCurve) : 0 < key.y := by
  rw [OnCurve, onCurve_iff] at h
  by_contra hzero
  have hy : key.y = 0 := by omega
  rw [hy, Nat.cast_zero, zero_pow two_ne_zero] at h
  exact cubic_ne_zero key.x h.symm

theorem sub_zero_left {y : ℕ} (hpos : 0 < y) (hlt : y < prime) : sub 0 y = prime - y := by
  rw [sub, Nat.mod_eq_of_lt hlt, Nat.zero_add, Nat.mod_eq_of_lt (by omega)]

theorem pick?_eq (x : ℕ) (keep : ℕ → Bool) : pick? x keep =
    if x < prime then (sqrt? (cubic x)).bind fun y => ofAffine? x (if keep y then y else sub 0 y)
    else none := by
  unfold pick?
  split_ifs <;> rfl

theorem pick?_eq_some_iff {x : ℕ} {keep : ℕ → Bool} (hkeep : ChoosesOne keep) {key : PublicKey} :
    pick? x keep = some key ↔ key.x = x ∧ key.OnCurve ∧ keep key.y = true := by
  rw [pick?_eq]
  constructor
  · intro h
    split_ifs at h with hx
    obtain ⟨r, hr, h⟩ := Option.bind_eq_some_iff.1 h
    obtain ⟨hsquare, hlt⟩ := square_of_sqrt? hr
    have hpos : 0 < r := by
      by_contra hzero
      have hr0 : r = 0 := by omega
      rw [hr0, Nat.cast_zero, zero_pow two_ne_zero] at hsquare
      exact cubic_ne_zero x hsquare.symm
    obtain ⟨hkx, hky, hcurve⟩ := ofAffine?_eq_some_iff.1 h
    refine ⟨hkx, hcurve, ?_⟩
    rw [hky]
    split_ifs with hk
    · exact hk
    · rw [sub_zero_left hpos hlt, hkeep r hpos hlt]
      simpa using hk
  · rintro ⟨rfl, hcurve, hk⟩
    obtain ⟨r, hr, hlt, hcases⟩ := sqrt?_of_square ((onCurve_iff _ _).1 hcurve)
    have hypos := y_pos_of_onCurve hcurve
    have hylt := key.y_lt
    rw [if_pos key.x_lt, hr, Option.bind_some]
    refine ofAffine?_eq_some_iff.2 ⟨rfl, ?_, hcurve⟩
    rcases hcases with hsame | hnegative
    · obtain rfl := eq_of_cast_eq hlt key.y_lt hsame
      rw [if_pos hk]
    · have hr' : r = prime - key.y := by
        apply eq_of_cast_eq hlt (by omega)
        rw [hnegative, Nat.cast_sub key.y_lt.le, ZMod.natCast_self, zero_sub]
      have hkr : ¬ keep r = true := by
        rw [hr', hkeep key.y hypos key.y_lt, hk]
        decide
      rw [if_neg hkr, hr', sub_zero_left (by omega) (by omega), Nat.sub_sub_self key.y_lt.le]

theorem odd_prime : prime % 2 = 1 := by decide

theorem choosesOne_of_iff {keep : ℕ → Prop} [DecidablePred keep]
    (h : ∀ y, 0 < y → y < prime → (keep (prime - y) ↔ ¬ keep y)) :
    ChoosesOne fun y => keep y := by
  intro y hpos hlt
  rw [← decide_not]
  exact decide_eq_decide.2 (h y hpos hlt)

/-- The prime is odd, so an ordinate and its negative differ in parity. -/
theorem choosesOne_parity {d : ℕ} (hd : d < 2) : ChoosesOne fun y => y % 2 = d := by
  apply choosesOne_of_iff
  intro y hpos hlt
  have hodd := odd_prime
  omega

theorem choosesOne_smaller : ChoosesOne fun y => y ≤ prime - y := by
  apply choosesOne_of_iff
  intro y hpos hlt
  have hodd := odd_prime
  omega

/-- Reading takes the three forms and nothing else. -/
theorem ofSec1?_eq_some_iff {b : Bytes} {key : PublicKey} :
    ofSec1? b = some key ↔ key.IsForm b := by
  constructor
  · intro h
    match b with
    | [] => simp [ofSec1?] at h
    | form :: coordinates =>
      simp only [ofSec1?] at h
      split_ifs at h with h₄ hlen h₂ h₃ h₅
      · obtain ⟨rfl, hlen⟩ := h₄
        obtain ⟨hx, hy, hcurve⟩ := ofAffine?_eq_some_iff.1 h
        refine Or.inl ⟨hcurve, ?_⟩
        rw [hx, hy, ofNat_toNat_coordinate (by simp [hlen]), ofNat_toNat_coordinate (by simp [hlen]),
          List.take_append_drop]
      · obtain ⟨hx, hcurve, heven⟩ := (pick?_eq_some_iff (choosesOne_parity (by decide))).1 h
        refine Or.inr (Or.inl ⟨hcurve, ?_⟩)
        rw [hx, ofNat_toNat_coordinate hlen, if_pos (of_decide_eq_true heven), h₂]
      · obtain ⟨hx, hcurve, hodd⟩ := (pick?_eq_some_iff (choosesOne_parity (by decide))).1 h
        have hodd : key.y % 2 = 1 := of_decide_eq_true hodd
        refine Or.inr (Or.inl ⟨hcurve, ?_⟩)
        rw [hx, ofNat_toNat_coordinate hlen, if_neg (by omega), h₃]
      · obtain ⟨hx, hcurve, hsmall⟩ := (pick?_eq_some_iff choosesOne_smaller).1 h
        refine Or.inr (Or.inr ⟨hcurve, of_decide_eq_true hsmall, ?_⟩)
        rw [hx, ofNat_toNat_coordinate hlen, h₅]
  · rintro (⟨hcurve, rfl⟩ | ⟨hcurve, rfl⟩ | ⟨hcurve, hsmall, rfl⟩)
    · have hx : List.take 32 (Bytes.ofNat 32 key.x ++ Bytes.ofNat 32 key.y) = Bytes.ofNat 32 key.x :=
        List.take_left' (Bytes.length_ofNat _ _)
      have hy : List.drop 32 (Bytes.ofNat 32 key.x ++ Bytes.ofNat 32 key.y) = Bytes.ofNat 32 key.y :=
        List.drop_left' (Bytes.length_ofNat _ _)
      simp only [ofSec1?]
      rw [if_pos ⟨trivial, by simp⟩, hx, hy, toNat_ofNat_coordinate key.x_lt,
        toNat_ofNat_coordinate key.y_lt]
      exact ofAffine?_eq_some_iff.2 ⟨rfl, rfl, hcurve⟩
    · split_ifs with heven
      · simp only [ofSec1?, Bytes.length_ofNat, toNat_ofNat_coordinate key.x_lt]
        exact (pick?_eq_some_iff (choosesOne_parity (by decide))).2 ⟨rfl, hcurve, decide_eq_true heven⟩
      · simp only [ofSec1?, Bytes.length_ofNat, toNat_ofNat_coordinate key.x_lt]
        exact (pick?_eq_some_iff (choosesOne_parity (by decide))).2 ⟨rfl, hcurve, decide_eq_true (by omega)⟩
    · simp only [ofSec1?, Bytes.length_ofNat, toNat_ofNat_coordinate key.x_lt]
      exact (pick?_eq_some_iff choosesOne_smaller).2 ⟨rfl, hcurve, decide_eq_true hsmall⟩

end PublicKey

end MeasuredIdentity.P256
