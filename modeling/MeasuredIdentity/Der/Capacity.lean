import MeasuredIdentity.Der.Element
import MeasuredIdentity.Error

/-!
An encoding counts as written when it fits into its buffer, and a list takes as many members as
it has room for.
-/
namespace MeasuredIdentity.Der

def overlength : Error := .invalidDer .overlength

/-- The encoding, if it has at most `capacity` bytes. -/
def within (capacity : Nat) (encoding : Bytes) : Except Error Bytes :=
  if encoding.length ≤ capacity ∧ encoding.length ≤ maxLength then .ok encoding
  else .error overlength

theorem within_of_le {capacity : Nat} {encoding : Bytes} (h : encoding.length ≤ capacity)
    (hm : encoding.length ≤ maxLength) : within capacity encoding = .ok encoding := by
  simp [within, h, hm]

theorem within_of_lt {capacity : Nat} {encoding : Bytes} (h : capacity < encoding.length) :
    within capacity encoding = .error overlength := by
  rw [within, if_neg fun hle => absurd hle.1 (Nat.not_le.2 h)]

theorem within_eq_ok {capacity : Nat} {a b : Bytes} (h : within capacity a = .ok b) :
    a = b ∧ a.length ≤ capacity ∧ a.length ≤ maxLength := by
  unfold within at h
  split at h
  · cases h; simp_all
  · cases h

/-- Puts a member behind the others, where there is room. -/
def Bounded.add {n : Nat} {α : Type} (xs : Bounded n α) (x : α) : Except Error (Bounded n α) :=
  match xs.push? x with
  | some ys => .ok ys
  | none => .error overlength

end MeasuredIdentity.Der
