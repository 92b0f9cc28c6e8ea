import MeasuredIdentity.Der.Primitive

/-!
Alternative names of the one kind in use: an object identifier with a value of its own type.
-/
namespace MeasuredIdentity.X509

open Der

structure OtherName where
  typeId : Oid
  value : Element
  deriving DecidableEq

namespace OtherName

def content (n : OtherName) : Bytes :=
  n.typeId.encode ++ element (.context .zero true) n.value.encode

def encode (n : OtherName) : Bytes := element .sequence n.content

def decodeContent : Decoder OtherName := do
  return ⟨← Oid.decode, ← inside (.context .zero true) Element.decode⟩

def decode : Decoder OtherName := inside .sequence decodeContent

/-- Wraps a value that is encoded already: one whole element, of a size that can be read. -/
def ofEncoded? (typeId : Oid) (value : Bytes) : Option OtherName :=
  if value.length ≤ maxLength then (Element.decode.whole value).map (OtherName.mk typeId) else none

/-- The type of a composite device identity. -/
def compositeDeviceOid : Oid :=
  ⟨[0x2b, 0x06, 0x01, 0x04, 0x01, 0x82, 0x37, 0x59, 0x03, 0x01], by decide⟩

end OtherName

/-- A subject alternative name with exactly one name. -/
structure SubjectAltName where
  otherName : OtherName
  deriving DecidableEq

namespace SubjectAltName

def encode (n : SubjectAltName) : Bytes :=
  element .sequence (element (.context .zero true) n.otherName.content)

def decode : Decoder SubjectAltName := inside .sequence do
  return ⟨← required (implicitField .zero true OtherName.decodeContent.whole)⟩

end SubjectAltName

end MeasuredIdentity.X509
