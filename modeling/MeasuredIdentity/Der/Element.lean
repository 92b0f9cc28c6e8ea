import MeasuredIdentity.Der.Decoder
import MeasuredIdentity.Der.Tag

/-!
DER elements: a tag, a definite length of minimal width, and the content. An element has one
encoding, and the decoder accepts no other.
-/
namespace MeasuredIdentity.Der

/-- The largest length that is read or written. -/
def maxLength : Nat := 0x0fffffff

/-- The number of bytes that a length takes after its first one. -/
def lengthWidth (n : Nat) : Nat :=
  if n < 0x80 then 0 else if n < 0x100 then 1 else if n < 0x10000 then 2
  else if n < 0x1000000 then 3 else 4

def encodeLength (n : Nat) : Bytes :=
  if n < 0x80 then [UInt8.ofNat n]
  else UInt8.ofNat (0x80 + lengthWidth n) :: Bytes.ofNat (lengthWidth n) n

def decodeLength : Decoder Nat := do
  let first ← Decoder.byte
  if first < 0x80 then return first.toNat
  Decoder.check (0x80 < first ∧ first ≤ 0x84)
  let n := Bytes.toNat (← Decoder.take (first.toNat - 0x80))
  Decoder.check (lengthWidth n = first.toNat - 0x80 ∧ n ≤ maxLength)
  return n

@[simp] theorem length_encodeLength (n : Nat) : (encodeLength n).length = 1 + lengthWidth n := by
  unfold encodeLength lengthWidth; split <;> simp [Nat.add_comm]

structure Element where
  tag : Tag
  content : Bytes
  deriving DecidableEq, Repr

namespace Element

def encode (e : Element) : Bytes :=
  e.tag.octet :: (encodeLength e.content.length ++ e.content)

def decode : Decoder Element := do
  let tag ← Decoder.ofOption (Tag.ofOctet? (← Decoder.byte))
  return ⟨tag, ← Decoder.take (← decodeLength)⟩

theorem length_encode (e : Element) :
    e.encode.length = 2 + lengthWidth e.content.length + e.content.length := by
  simp [encode]; omega

/-- Everything that follows the element whose encoding starts a byte string is shorter. -/
theorem length_lt_of_decode {b rest : Bytes} {e : Element} (h : decode b = some (e, rest)) :
    rest.length < b.length := by
  have hb : ∀ {x : UInt8} {b r : Bytes}, Decoder.byte b = some (x, r) → b.length = r.length + 1 := by
    intro x b r h; cases b <;> simp_all [Decoder.byte]
  have hl : ∀ {n : Nat} {b r : Bytes}, decodeLength b = some (n, r) → r.length ≤ b.length := by
    intro n b r h
    simp only [decodeLength, Decoder.bind_apply, Option.bind_eq_some_iff, Prod.exists] at h
    obtain ⟨x, r₁, h₁, h⟩ := h
    have := hb h₁
    split at h
    · simp only [Decoder.pure_apply, Option.some.injEq, Prod.mk.injEq] at h
      obtain ⟨-, rfl⟩ := h; omega
    · simp only [Decoder.bind_apply, Option.bind_eq_some_iff, Prod.exists, Decoder.pure_apply] at h
      obtain ⟨_, r₂, h₂, a, r₃, h₃, _, r₄, h₄, h⟩ := h
      have h₂ := Decoder.rest_of_check h₂
      obtain ⟨h₃, -⟩ := Decoder.eq_append_of_take h₃
      have h₄ := Decoder.rest_of_check h₄
      simp at h; grind
  simp only [decode, Decoder.bind_apply, Decoder.ofOption_apply, Option.bind_eq_some_iff,
    Option.map_eq_some_iff, Prod.exists, Decoder.pure_apply, Prod.mk.injEq] at h
  obtain ⟨x, r₁, h₁, t, r₂, ⟨t', ht, rfl, rfl⟩, n, r₃, h₃, c, r₄, h₄, h⟩ := h
  have h₁ := hb h₁
  have h₃ := hl h₃
  obtain ⟨h₄, -⟩ := Decoder.eq_append_of_take h₄
  simp at h; grind

end Element

/-- The encoding of a constructed or primitive element from its content. -/
def element (tag : Tag) (content : Bytes) : Bytes := Element.encode ⟨tag, content⟩

/-- The content of the next element, which must have this tag. -/
def content (tag : Tag) : Decoder Bytes := do
  let e ← Element.decode
  Decoder.check (e.tag = tag)
  return e.content

/-- Decodes the whole content of the next element, which must have this tag. -/
def inside {α : Type} (tag : Tag) (d : Decoder α) : Decoder α := do
  let c ← content tag
  Decoder.ofOption (d.whole c)

/-- The tag of the next element, if there is one; the byte must be a known tag. -/
def nextTag : Decoder (Option Tag)
  | [] => some (none, [])
  | x :: rest => (Tag.ofOctet? x).map fun t => (some t, x :: rest)

/-- A field that is there when the next tag is accepted. -/
def optional {α : Type} (accepts : Tag → Bool) (d : Decoder α) : Decoder (Option α) := do
  match ← nextTag with
  | some t => if accepts t then some <$> d else return none
  | none => return none

/-- The next element if it has this context-specific number. Context-specific elements with
lower numbers in front of it are passed over; anything else means that there is none. -/
def contextElement (number : FieldNumber) (b : Bytes) : Option (Option Element × Bytes) :=
  match nextTag b with
  | none => none
  | some (none, _) => some (none, b)
  | some (some t, _) =>
    if !t.isContext || number.toByte < t.number then some (none, b)
    else
      match _h : Element.decode b with
      | none => none
      | some (e, rest) =>
        if t.number = number.toByte then some (some e, rest) else contextElement number rest
termination_by b.length
decreasing_by exact Element.length_lt_of_decode _h

/-- An optional field with an explicit context-specific tag. -/
def explicitField {α : Type} (number : FieldNumber) (d : Decoder α) : Decoder (Option α) := do
  match ← (contextElement number : Decoder (Option Element)) with
  | none => return none
  | some e =>
    Decoder.check (e.tag.isConstructed = true)
    some <$> Decoder.ofOption (d.whole e.content)

/-- An optional field with an implicit context-specific tag, read from its content. -/
def implicitField {α : Type} (number : FieldNumber) (constructed : Bool)
    (ofContent : Bytes → Option α) : Decoder (Option α) := do
  match ← (contextElement number : Decoder (Option Element)) with
  | none => return none
  | some e =>
    Decoder.check (e.tag.isConstructed = constructed)
    some <$> Decoder.ofOption (ofContent e.content)

/-- A field that must be there. -/
def required {α : Type} (d : Decoder (Option α)) : Decoder α := do
  Decoder.ofOption (← d)

end MeasuredIdentity.Der
