import MeasuredIdentity.X509.Extension
import MeasuredIdentity.X509.Name
import MeasuredIdentity.X509.PublicKeyInfo
import MeasuredIdentity.X509.Signature
import MeasuredIdentity.X509.Validity

/-!
Certificates: the part to be signed, the signature over its encoding, and the assembly of both
in buffers of fixed size.
-/
namespace MeasuredIdentity.X509

open Der

inductive Version where
  | v1
  | v2
  | v3
  deriving DecidableEq, Repr

namespace Version

def toByte : Version → UInt8
  | .v1 => 0
  | .v2 => 1
  | .v3 => 2

def ofByte? (n : UInt8) : Option Version :=
  if n = 0 then some .v1 else if n = 1 then some .v2 else if n = 2 then some .v3 else none

def decode : Decoder Version := do
  Decoder.ofOption (ofByte? (← SmallUint.decode))

/-- Version 1 is the default and left out. -/
def encodeDefault (v : Version) : Bytes :=
  if v = .v1 then [] else element (.context .zero true) (SmallUint.encode v.toByte)

def decodeDefault : Decoder Version := do
  return (← explicitField .zero decode).getD .v1

end Version

/-- The part of a certificate that is signed. -/
structure TbsCertificate where
  version : Version
  serial : Uint
  signature : AlgorithmId
  issuer : Name
  validity : Validity
  subject : Name
  publicKey : PublicKeyInfo
  issuerId : Option BitString
  subjectId : Option BitString
  extensions : Option Extensions
  deriving DecidableEq

namespace TbsCertificate

def encode (t : TbsCertificate) : Bytes :=
  element .sequence (t.version.encodeDefault ++ t.serial.encode ++ t.signature.encode
    ++ Name.encode t.issuer ++ t.validity.encode ++ Name.encode t.subject ++ t.publicKey.encode
    ++ (t.issuerId.map fun s => element (.context .one false) s.content).getD []
    ++ (t.subjectId.map fun s => element (.context .two false) s.content).getD []
    ++ (t.extensions.map fun es => element (.context .three true) (Extensions.encode es)).getD [])

def decode : Decoder TbsCertificate := inside .sequence do
  return {
    version := ← Version.decodeDefault
    serial := ← Uint.decode
    signature := ← AlgorithmId.decode
    issuer := ← Name.decode
    validity := ← Validity.decode
    subject := ← Name.decode
    publicKey := ← PublicKeyInfo.decode
    issuerId := ← implicitField .one false BitString.ofContent?
    subjectId := ← implicitField .two false BitString.ofContent?
    extensions := ← explicitField .three Extensions.decode }

end TbsCertificate

structure Certificate where
  tbs : TbsCertificate
  algorithm : AlgorithmId
  signature : BitString
  deriving DecidableEq

/-- The size of the buffer for the part of a certificate or request that is signed. -/
def maxTbsSize : Nat := 1024

namespace Certificate

def encode (c : Certificate) : Bytes :=
  element .sequence (c.tbs.encode ++ c.algorithm.encode ++ c.signature.encode)

def decode : Decoder Certificate := inside .sequence do
  return ⟨← TbsCertificate.decode, ← AlgorithmId.decode, ← BitString.decode⟩

/-- The part to be signed of a version 3 certificate without unique identifiers. -/
def body (serial : Bytes) (issuer subject : Name) (validity : Validity) (key : PublicKeyInfo)
    (extensions : Extensions) : TbsCertificate :=
  ⟨.v3, .ofBytes serial, .ecdsaSha256, issuer, validity, subject, key, none, none, some extensions⟩

/-- Signs the encoding of the first part and adds the algorithm and the signature, in the encoding
that the signer gives it. -/
def assembleWith (tbs : TbsCertificate) (sign : Bytes → Except Error Bytes) (capacity : Nat) :
    Except Error Bytes := do
  let signature ← sign (← within maxTbsSize tbs.encode)
  within capacity (encode ⟨tbs, .ecdsaSha256, .ofBytes signature⟩)

/-- The certificate with the encoded signature of a signer. -/
def assemble (tbs : TbsCertificate) (sign : Signer) (capacity : Nat) : Except Error Bytes :=
  assembleWith tbs (fun message => (sign message).map encodeSignature) capacity

end Certificate

end MeasuredIdentity.X509
