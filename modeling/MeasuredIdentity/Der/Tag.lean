import MeasuredIdentity.Bytes

/-!
Single-byte DER tags: the supported universal types, and every application, context-specific
and private tag with a number below 31.
-/
namespace MeasuredIdentity.Der

namespace Tag

def universalOctets : List UInt8 :=
  [0x01, 0x02, 0x03, 0x04, 0x05, 0x06, 0x09, 0x0a, 0x0c, 0x12, 0x13, 0x14, 0x15, 0x16, 0x17, 0x18,
   0x1a, 0x1e, 0x30, 0x31]

def isKnown (octet : UInt8) : Bool :=
  octet &&& 0x1f != 0x1f && (octet &&& 0xc0 != 0 || universalOctets.contains octet)

end Tag

/-- The context-specific numbers of optional fields. -/
inductive FieldNumber where
  | zero
  | one
  | two
  | three
  deriving DecidableEq, Repr

def FieldNumber.toByte : FieldNumber → UInt8
  | .zero => 0
  | .one => 1
  | .two => 2
  | .three => 3

structure Tag where
  octet : UInt8
  known : Tag.isKnown octet = true := by decide
  deriving DecidableEq, Repr

namespace Tag

def ofOctet? (octet : UInt8) : Option Tag :=
  if h : isKnown octet = true then some ⟨octet, h⟩ else none

@[simp] theorem ofOctet?_octet (t : Tag) : ofOctet? t.octet = some t := by
  simp [ofOctet?, t.known]

theorem octet_of_ofOctet? {x : UInt8} {t : Tag} (h : ofOctet? x = some t) : t.octet = x := by
  unfold ofOctet? at h
  split at h
  · cases h; rfl
  · simp at h

def boolean : Tag := ⟨0x01, by decide⟩
def integer : Tag := ⟨0x02, by decide⟩
def bitString : Tag := ⟨0x03, by decide⟩
def octetString : Tag := ⟨0x04, by decide⟩
def oid : Tag := ⟨0x06, by decide⟩
def utf8String : Tag := ⟨0x0c, by decide⟩
def printableString : Tag := ⟨0x13, by decide⟩
def utcTime : Tag := ⟨0x17, by decide⟩
def sequence : Tag := ⟨0x30, by decide⟩
def set : Tag := ⟨0x31, by decide⟩

/-- The context-specific tag of a field. -/
def context (field : FieldNumber) (constructed : Bool) : Tag :=
  ⟨(if constructed then 0xa0 else 0x80) + field.toByte, by cases field <;> cases constructed <;> decide⟩

def isContext (t : Tag) : Bool := t.octet &&& 0xc0 == 0x80

def isConstructed (t : Tag) : Bool := t.octet &&& 0x20 != 0

def number (t : Tag) : UInt8 := t.octet &&& 0x1f

@[simp] theorem isContext_context (n : FieldNumber) (c : Bool) :
    (context n c).isContext = true := by
  cases n <;> cases c <;> decide

@[simp] theorem isConstructed_context (n : FieldNumber) (c : Bool) :
    (context n c).isConstructed = c := by
  cases n <;> cases c <;> decide

@[simp] theorem number_context (n : FieldNumber) (c : Bool) : (context n c).number = n.toByte := by
  cases n <;> cases c <;> decide

end Tag

end MeasuredIdentity.Der
