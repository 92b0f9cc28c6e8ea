import MeasuredIdentity.Der.Primitive
import MeasuredIdentity.Text.Utf8

/-!
X.501 names: at most three relative names of at most one attribute each.
-/
namespace MeasuredIdentity.X509

open Der

structure Attribute where
  oid : Oid
  value : Element
  deriving DecidableEq

namespace Attribute

def encode (a : Attribute) : Bytes := element .sequence (a.oid.encode ++ a.value.encode)

def decode : Decoder Attribute := inside .sequence do
  return ⟨← Oid.decode, ← Element.decode⟩

end Attribute

abbrev RelativeName := Bounded 1 Attribute

namespace RelativeName

def encode (r : RelativeName) : Bytes := element .set (r.toList.flatMap Attribute.encode)

def decode : Decoder RelativeName := inside .set (Bounded.decode Attribute.decode 1)

end RelativeName

abbrev Name := Bounded 3 RelativeName

namespace Name

def encode (n : Name) : Bytes := element .sequence (n.toList.flatMap RelativeName.encode)

def decode : Decoder Name := inside .sequence (Bounded.decode RelativeName.decode 3)

end Name

def commonNameOid : Oid := ⟨[0x55, 0x04, 0x03], by decide⟩
def countryNameOid : Oid := ⟨[0x55, 0x04, 0x06], by decide⟩
def organizationNameOid : Oid := ⟨[0x55, 0x04, 0x0a], by decide⟩

/-- The three attributes of the names in issued certificates. -/
structure NameParts where
  common : String
  organization : String
  country : String
  deriving DecidableEq

namespace NameParts

def withCommon (parts : NameParts) (common : String) : NameParts := { parts with common }

/-- Common name, organization and country, in this order. The country is written as a printable
string, whatever its characters are. -/
def toName (parts : NameParts) : Name :=
  let single (oid : Oid) (tag : Tag) (text : String) : RelativeName :=
    ⟨[⟨oid, ⟨tag, Text.Utf8.encode text⟩⟩], by simp⟩
  ⟨[single commonNameOid .utf8String parts.common,
    single organizationNameOid .utf8String parts.organization,
    single countryNameOid .printableString parts.country], by simp⟩

end NameParts

end MeasuredIdentity.X509
