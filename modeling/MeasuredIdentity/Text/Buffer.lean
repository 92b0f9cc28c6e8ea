/-!
Texts in a buffer of fixed size. A text that has no room is refused as a whole, never cut short.
-/
namespace MeasuredIdentity.Text

/-- A text whose UTF-8 bytes fit into a buffer. -/
structure Buffer (capacity : Nat) where
  text : String := ""
  size_le : text.utf8ByteSize ≤ capacity := by simp

namespace Buffer

variable {capacity : Nat}

def empty : Buffer capacity := {}

def ofString? (capacity : Nat) (s : String) : Option (Buffer capacity) :=
  if h : s.utf8ByteSize ≤ capacity then some ⟨s, h⟩ else none

theorem ofString?_eq_some_iff {s : String} {b : Buffer capacity} :
    ofString? capacity s = some b ↔ b.text = s := by
  unfold ofString?
  constructor
  · intro h
    split at h
    · cases h
      rfl
    · cases h
  · rintro rfl
    rw [dif_pos b.size_le]

theorem ofString?_eq_none_iff {s : String} :
    ofString? capacity s = none ↔ capacity < s.utf8ByteSize := by
  unfold ofString?
  split <;> simp only [reduceCtorEq, true_iff, false_iff] <;> omega

/-- Writes a text behind what the buffer holds. -/
def write? (b : Buffer capacity) (s : String) : Option (Buffer capacity) :=
  ofString? capacity (b.text ++ s)

/-- Writes a character behind what the buffer holds. -/
def push? (b : Buffer capacity) (c : Char) : Option (Buffer capacity) :=
  ofString? capacity (b.text.push c)

end Buffer

end MeasuredIdentity.Text
