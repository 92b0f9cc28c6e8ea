import MeasuredIdentity.Der.Element

/-!
The primitive values: booleans, octet strings, nonnegative integers, bit strings and object
identifiers. Each is determined by its content bytes.
-/
namespace MeasuredIdentity.Der

namespace Boolean

def encode (b : Bool) : Bytes := element .boolean [if b then 0xff else 0x00]

def ofContent? : Bytes → Option Bool
  | [0x00] => some false
  | [0xff] => some true
  | _ => none

def decode : Decoder Bool := do
  Decoder.ofOption (ofContent? (← content .boolean))

/-- A field with the default `false`, left out when it has that value. -/
def encodeDefault (b : Bool) : Bytes := if b then encode true else []

/-- An absent field is `false`; `false` written out is accepted as well. -/
def decodeDefault : Decoder Bool := do
  return (← optional (· = Tag.boolean) decode).getD false

end Boolean

namespace OctetString

def encode (b : Bytes) : Bytes := element .octetString b

def decode : Decoder Bytes := content .octetString

end OctetString

/-- A nonnegative integer as its big-endian bytes without leading zeros, zero being one zero
byte. The empty string has no value, but it can be written. -/
structure Uint where
  magnitude : Bytes
  stripped : ∀ x rest, magnitude ≠ 0 :: x :: rest
  deriving DecidableEq

namespace Uint

/-- Drops leading zeros, except a zero at the very end. -/
def strip : Bytes → Bytes
  | 0 :: x :: rest => strip (x :: rest)
  | b => b

theorem strip_ne (b : Bytes) : ∀ x rest, strip b ≠ 0 :: x :: rest := by
  fun_induction strip b with
  | case1 x rest ih => exact ih
  | case2 b h => intro x rest hb; exact h x rest hb

def ofBytes (b : Bytes) : Uint := ⟨strip b, strip_ne b⟩

theorem strip_eq_self {b : Bytes} (h : ∀ x rest, b ≠ 0 :: x :: rest) : strip b = b := by
  unfold strip; split
  · exact absurd rfl (h _ _)
  · rfl

/-- A zero byte in front keeps a number with a high first bit nonnegative. -/
def content (u : Uint) : Bytes :=
  match u.magnitude with
  | x :: rest => if x < 0x80 then x :: rest else 0 :: x :: rest
  | [] => []

/-- The content bytes of a nonnegative integer with no byte to spare. -/
def isContent : Bytes → Bool
  | [] => false
  | [x] => x < 0x80
  | x :: y :: _ => if x = 0 then 0x80 ≤ y else x < 0x80

def ofContent? (c : Bytes) : Option Uint := if isContent c then some (ofBytes c) else none

def encode (u : Uint) : Bytes := element .integer u.content

def decode : Decoder Uint := do
  Decoder.ofOption (ofContent? (← Der.content .integer))

def toNat (u : Uint) : Nat := Bytes.toNat u.magnitude

end Uint

namespace SmallUint

/-- An integer below 256. -/
def encode (n : UInt8) : Bytes := (Uint.ofBytes [n]).encode

def ofUint? (u : Uint) : Option UInt8 :=
  match u.magnitude with
  | [n] => some n
  | _ => none

def decode : Decoder UInt8 := do
  Decoder.ofOption (ofUint? (← Uint.decode))

end SmallUint

/-- Bytes whose last `unused` bits do not count. Those bits may have any value. -/
structure BitString where
  unused : Nat
  bytes : Bytes
  unused_le : unused ≤ 7
  unused_of_empty : bytes = [] → unused = 0
  deriving DecidableEq

namespace BitString

def ofBytes (b : Bytes) : BitString := ⟨0, b, by simp, by simp⟩

def content (s : BitString) : Bytes := UInt8.ofNat s.unused :: s.bytes

def ofContent? : Bytes → Option BitString
  | [] => none
  | u :: b =>
    if h : u.toNat ≤ 7 ∧ (b = [] → u.toNat = 0) then some ⟨u.toNat, b, h.1, h.2⟩ else none

def encode (s : BitString) : Bytes := element .bitString s.content

def decode : Decoder BitString := do
  Decoder.ofOption (ofContent? (← Der.content .bitString))

end BitString

namespace Oid

/-- Whether bytes are whole arcs in base 128: each ends with a byte below 0x80, has at most
five bytes, and has a fifth byte below `limit`. `seen` bytes of the current arc are gone by. -/
def arcsFrom (limit : UInt8) : (seen : Nat) → Bytes → Bool
  | seen, [] => seen == 0
  | seen, x :: rest =>
    (seen < 4 || x < limit) && arcsFrom limit (if x < 0x80 then 0 else seen + 1) rest

/-- What an identifier is made of, two to 39 bytes: the two root arcs in one byte, then whole
arcs. -/
def isContent : Bytes → Bool
  | [] => false
  | root :: arcs => 1 ≤ arcs.length && arcs.length ≤ 38 && root ≤ 119 && arcsFrom 0x80 0 arcs

/-- What a reader takes for an identifier: three bytes or more, and only the low four bits in the fifth
byte of an arc. -/
def isReadableContent : Bytes → Bool
  | [] => false
  | root :: arcs => 2 ≤ arcs.length && arcs.length ≤ 38 && root ≤ 119 && arcsFrom 0x10 0 arcs

end Oid

/-- An object identifier, as its content bytes. It can be written in any case, but not every one
can be read. -/
structure Oid where
  content : Bytes
  valid : Oid.isContent content = true := by decide
  deriving DecidableEq

namespace Oid

def isReadable (o : Oid) : Bool := isReadableContent o.content

theorem arcsFrom_of_arcsFrom_lt {seen : Nat} {b : Bytes} (h : arcsFrom 0x10 seen b = true) :
    arcsFrom 0x80 seen b = true := by
  fun_induction arcsFrom 0x10 seen b with
  | case1 seen => exact h
  | case2 seen x rest ih =>
    simp only [arcsFrom, Bool.and_eq_true, Bool.or_eq_true, decide_eq_true_eq] at h ⊢
    exact ⟨h.1.imp_right fun hx => UInt8.lt_trans hx (by decide), ih h.2⟩

theorem isContent_of_isReadableContent {c : Bytes} (h : isReadableContent c = true) :
    isContent c = true := by
  cases c with
  | nil => exact h
  | cons root arcs =>
    simp only [isReadableContent, isContent, Bool.and_eq_true, decide_eq_true_eq] at h ⊢
    obtain ⟨⟨⟨hmin, hmax⟩, hroot⟩, harcs⟩ := h
    exact ⟨⟨⟨Nat.le_of_succ_le hmin, hmax⟩, hroot⟩, arcsFrom_of_arcsFrom_lt harcs⟩

def ofContent? (c : Bytes) : Option Oid :=
  if h : isReadableContent c = true then some ⟨c, isContent_of_isReadableContent h⟩ else none

theorem ofContent?_content (o : Oid) :
    ofContent? o.content = if o.isReadable then some o else none := by
  unfold ofContent? isReadable
  split <;> rfl

def encode (o : Oid) : Bytes := element .oid o.content

def decode : Decoder Oid := do
  Decoder.ofOption (ofContent? (← Der.content .oid))

end Oid

end MeasuredIdentity.Der
