import MeasuredIdentity.Bytes

/-!
Decoders take a value off the front of a byte string and keep the rest; every rejection is alike.
-/
namespace MeasuredIdentity.Der

abbrev Decoder (α : Type) := StateT Bytes Option α

namespace Decoder

variable {α : Type}

theorem bind_apply {β : Type} (d : Decoder α) (f : α → Decoder β) (b : Bytes) :
    (d >>= f) b = (d b).bind fun (a, rest) => f a rest := by
  show (d b >>= _) = _
  cases d b <;> rfl

theorem pure_apply (a : α) (b : Bytes) : (pure a : Decoder α) b = some (a, b) := rfl

theorem failure_apply (b : Bytes) : (failure : Decoder α) b = none := rfl

def byte : Decoder UInt8
  | [] => none
  | x :: rest => some (x, rest)

/-- Exactly `n` bytes. -/
def take (n : Nat) : Decoder Bytes := fun b =>
  if (b.take n).length = n then some (b.take n, b.drop n) else none

theorem take_append (a rest : Bytes) : take a.length (a ++ rest) = some (a, rest) := by
  simp [take]

theorem eq_append_of_take {n : Nat} {b a rest : Bytes} (h : take n b = some (a, rest)) :
    b = a ++ rest ∧ a.length = n := by
  unfold take at h
  split at h
  · rename_i hn
    simp only [Option.some.injEq, Prod.mk.injEq] at h
    obtain ⟨rfl, rfl⟩ := h
    exact ⟨(List.take_append_drop n b).symm, hn⟩
  · simp at h

def ofOption (x : Option α) : Decoder α := fun b => x.map (·, b)

theorem ofOption_apply (x : Option α) (b : Bytes) : ofOption x b = x.map (·, b) := rfl

/-- Refuses unless the condition holds. -/
def check (p : Prop) [Decidable p] : Decoder Unit := fun b => if p then some ((), b) else none

theorem check_apply (p : Prop) [Decidable p] (b : Bytes) :
    check p b = if p then some ((), b) else none := rfl

theorem rest_of_check {p : Prop} [Decidable p] {b rest : Bytes} {u : Unit}
    (h : check p b = some (u, rest)) : rest = b := by
  unfold check at h; split at h <;> simp_all

def atEnd : Decoder Bool := fun b => some (b.isEmpty, b)

/-- The value that the decoder finds in the whole of `b`. -/
def whole (d : Decoder α) (b : Bytes) : Option α :=
  match d b with
  | some (a, []) => some a
  | _ => none

theorem whole_eq_some_iff {d : Decoder α} {b : Bytes} {a : α} :
    d.whole b = some a ↔ d b = some (a, []) := by
  unfold whole
  split <;> simp_all

end Decoder

/-- A list of at most `n` members. -/
structure Bounded (n : Nat) (α : Type) where
  toList : List α
  length_le : toList.length ≤ n := by simp

namespace Bounded

variable {n : Nat} {α : Type}

instance [DecidableEq α] : DecidableEq (Bounded n α) := fun a b =>
  decidable_of_iff (a.toList = b.toList) ⟨fun h => by cases a; cases b; cases h; rfl, fun h => h ▸ rfl⟩

@[ext] theorem ext {a b : Bounded n α} (h : a.toList = b.toList) : a = b := by
  cases a; cases b; cases h; rfl

def empty : Bounded n α := ⟨[], by simp⟩

def cons (x : α) (xs : Bounded n α) : Bounded (n + 1) α :=
  ⟨x :: xs.toList, by simp [xs.length_le]⟩

theorem length_push_le {xs : Bounded n α} {x : α} (h : xs.toList.length < n) :
    (xs.toList ++ [x]).length ≤ n := by
  rw [List.length_append, List.length_singleton]
  exact h

/-- Puts a member at the end, where there is room. -/
def push? (xs : Bounded n α) (x : α) : Option (Bounded n α) :=
  if h : xs.toList.length < n then some ⟨xs.toList ++ [x], length_push_le h⟩ else none

/-- Reads members up to the end of the input, at most `n`. -/
def decode (d : Decoder α) : (n : Nat) → Decoder (Bounded n α)
  | 0 => do
    Decoder.check ((← Decoder.atEnd) = true)
    return empty
  | n + 1 => do
    if ← Decoder.atEnd then return empty
    let x ← d
    return cons x (← decode d n)

end Bounded

end MeasuredIdentity.Der
