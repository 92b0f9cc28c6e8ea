import MeasuredIdentity.Der.Capacity
import MeasuredIdentity.Der.Primitive

/-!
Certificate extensions: an identifier, a criticality and an encoded value, at most five of them
in a certificate. Here are also the values of basic constraints and key identifiers.
-/
namespace MeasuredIdentity.X509

open Der

structure Extension where
  oid : Oid
  critical : Bool
  value : Bytes
  deriving DecidableEq

namespace Extension

def encode (e : Extension) : Bytes :=
  element .sequence
    (e.oid.encode ++ Boolean.encodeDefault e.critical ++ OctetString.encode e.value)

def decode : Decoder Extension := inside .sequence do
  return ⟨← Oid.decode, ← Boolean.decodeDefault, ← OctetString.decode⟩

/-- An extension whose encoded value fits into a buffer of the given size. -/
def make (oid : Oid) (critical : Bool) (capacity : Nat) (value : Bytes) :
    Except Error Extension := do
  return ⟨oid, critical, ← within capacity value⟩

def subjectKeyIdOid : Oid := ⟨[0x55, 0x1d, 0x0e], by decide⟩
def keyUsageOid : Oid := ⟨[0x55, 0x1d, 0x0f], by decide⟩
def subjectAltNameOid : Oid := ⟨[0x55, 0x1d, 0x11], by decide⟩
def basicConstraintsOid : Oid := ⟨[0x55, 0x1d, 0x13], by decide⟩
def authorityKeyIdOid : Oid := ⟨[0x55, 0x1d, 0x23], by decide⟩
def extendedKeyUsageOid : Oid := ⟨[0x55, 0x1d, 0x25], by decide⟩

end Extension

/-- The largest number of extensions of a certificate. -/
def maxExtensions : Nat := 5

abbrev Extensions := Bounded maxExtensions Extension

namespace Extensions

def encode (es : Extensions) : Bytes := element .sequence (es.toList.flatMap Extension.encode)

def decode : Decoder Extensions := inside .sequence (Bounded.decode Extension.decode maxExtensions)

end Extensions

/-- Whether a key belongs to an authority, and how many authorities may follow it. -/
structure BasicConstraints where
  ca : Bool
  pathLength : Option UInt8
  deriving DecidableEq

namespace BasicConstraints

def encode (c : BasicConstraints) : Bytes :=
  element .sequence (Boolean.encodeDefault c.ca ++ (c.pathLength.map SmallUint.encode).getD [])

def decode : Decoder BasicConstraints := inside .sequence do
  return ⟨← Boolean.decodeDefault, ← optional (· = Tag.integer) SmallUint.decode⟩

end BasicConstraints

structure AuthorityKeyId where
  keyId : Option Bytes
  deriving DecidableEq

namespace AuthorityKeyId

def encode (a : AuthorityKeyId) : Bytes :=
  element .sequence ((a.keyId.map (element (.context .zero false))).getD [])

def decode : Decoder AuthorityKeyId := inside .sequence do
  return ⟨← implicitField .zero false some⟩

end AuthorityKeyId

/-- A key identifier on its own is an octet string. -/
abbrev SubjectKeyId := Bytes

def SubjectKeyId.encode (k : SubjectKeyId) : Bytes := OctetString.encode k

end MeasuredIdentity.X509
