import MeasuredIdentity.Text.Hex
import Mathlib.Tactic.SplitIfs

/-!
Hexadecimal digits are read in either case: a character has a value exactly if it is the digit of
this value, up to its case, and a text is a sequence of digits exactly if each character is one.
-/
namespace MeasuredIdentity.Text

/-- A decimal digit or one of the first six letters, in either case. -/
def IsHexDigit (c : Char) : Prop :=
  ('0' ≤ c ∧ c ≤ '9') ∨ ('a' ≤ c ∧ c ≤ 'f') ∨ ('A' ≤ c ∧ c ≤ 'F')

theorem hexChar_injective {v w : Fin 16} (h : hexChar v = hexChar w) : v = w := by
  rw [← Option.some.injEq, ← hexValue?_hexChar v, ← hexValue?_hexChar w, h]

theorem isHexDigit_iff_toNat {c : Char} : IsHexDigit c ↔
    (48 ≤ c.toNat ∧ c.toNat ≤ 57) ∨ (97 ≤ c.toNat ∧ c.toNat ≤ 102) ∨
      (65 ≤ c.toNat ∧ c.toNat ≤ 70) := Iff.rfl

theorem exists_hexValue?_iff {c : Char} : (∃ v, hexValue? c = some v) ↔ IsHexDigit c := by
  rw [isHexDigit_iff_toNat]
  unfold hexValue?
  split_ifs with hdigit hlower hupper <;> simp_all

theorem toNat_toLower (c : Char) :
    c.toLower.toNat = if 65 ≤ c.toNat ∧ c.toNat ≤ 90 then c.toNat + 32 else c.toNat := by
  have hupper : c.val ≥ 'A'.val ∧ c.val ≤ 'Z'.val ↔ 65 ≤ c.toNat ∧ c.toNat ≤ 90 := Iff.rfl
  unfold Char.toLower
  split_ifs with h h' h'
  · show (c.val + 32).toNat = c.toNat + 32
    have hle : c.val.toNat ≤ 90 := h'.2
    rw [UInt32.toNat_add]
    exact Nat.mod_eq_of_lt (by simp only [UInt32.reduceToNat]; omega)
  · exact absurd (hupper.1 h) h'
  · exact absurd (hupper.2 h') h
  · rfl

theorem toNat_hexChar (v : Fin 16) :
    (hexChar v).toNat = if v.val < 10 then 48 + v.val else 87 + v.val := by
  revert v
  decide

/-- A character has a value exactly if it is the digit of this value, up to its case. -/
theorem hexValue?_eq_some_iff {c : Char} {v : Fin 16} :
    hexValue? c = some v ↔ c.toLower = hexChar v := by
  have hv := v.isLt
  rw [← Char.toNat_inj, toNat_toLower, toNat_hexChar]
  unfold hexValue?
  split_ifs <;> simp only [Option.some.injEq, Fin.ext_iff, false_iff] <;> omega

/-- Digits are read one by one. -/
theorem mapM_hexValue?_eq_some_iff {s : List Char} {digits : List (Fin 16)} :
    s.mapM hexValue? = some digits ↔ s.map Char.toLower = digits.map hexChar := by
  induction s generalizing digits with
  | nil => cases digits <;> simp
  | cons c s ih =>
    simp only [List.mapM_cons, Option.bind_eq_bind, Option.bind_eq_some_iff, Option.pure_def,
      Option.some.injEq, ih, hexValue?_eq_some_iff]
    constructor
    · rintro ⟨v, hc, digits, hs, rfl⟩
      rw [List.map_cons, List.map_cons, hc, hs]
    · intro h
      cases digits with
      | nil => cases h
      | cons v digits =>
        obtain ⟨hc, hs⟩ := List.cons.inj h
        exact ⟨v, hc, digits, hs, rfl⟩

theorem exists_mapM_hexValue?_iff {s : List Char} :
    (∃ digits, s.mapM hexValue? = some digits) ↔ ∀ c ∈ s, IsHexDigit c := by
  induction s with
  | nil => simp
  | cons c s ih =>
    rw [List.forall_mem_cons, ← ih, ← exists_hexValue?_iff]
    simp only [List.mapM_cons, Option.bind_eq_bind, Option.bind_eq_some_iff, Option.pure_def,
      Option.some.injEq]
    constructor
    · rintro ⟨_, v, hc, digits, hs, -⟩
      exact ⟨⟨v, hc⟩, digits, hs⟩
    · rintro ⟨⟨v, hc⟩, digits, hs⟩
      exact ⟨_, v, hc, digits, hs, rfl⟩

end MeasuredIdentity.Text
