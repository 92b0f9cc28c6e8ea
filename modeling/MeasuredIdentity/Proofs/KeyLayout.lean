import MeasuredIdentity.Proofs.ExtensionCodec
import MeasuredIdentity.Proofs.IssuedDocuments
import MeasuredIdentity.Proofs.SignatureScheme

/-!
The bytes of encoded keys. All numbers in a key are written in full width, so the encodings of keys
differ in these numbers only and have one size. What is read from them is the same scalar, in all its
32 bytes, and the same point.
-/
namespace MeasuredIdentity

namespace Der

variable {b : Bytes} {n : ℕ}

theorem OctetString.encode_of_length (hlength : b.length = n) (h : n < 0x80) :
    encode b = [0x04, UInt8.ofNat n] ++ b :=
  element_eq_of_length hlength h

theorem BitString.encode_ofBytes_of_length (hlength : b.length + 1 = n) (h : n < 0x80) :
    (ofBytes b).encode = [0x03, UInt8.ofNat n, 0x00] ++ b := by
  have hcontent : (ofBytes b).content.length = n := hlength
  rw [encode, element_eq_of_length hcontent h]
  rfl

/-- What is written has these bytes, and it is written wherever there is room for them. -/
structure HasBytes (write : ℕ → Except Error Bytes) (bytes : Bytes) (size : ℕ) : Prop where
  length_eq : bytes.length = size
  ok_iff : ∀ capacity b, write capacity = .ok b ↔ size ≤ capacity ∧ b = bytes

theorem hasBytes_within (hlength : b.length = n) (h : n ≤ maxLength) :
    HasBytes (fun capacity => within capacity b) b n := by
  refine ⟨hlength, ?_⟩
  intro capacity c
  rw [within_eq_ok_iff, ← hlength]
  constructor
  · rintro ⟨rfl, hle, -⟩
    exact ⟨hle, rfl⟩
  · rintro ⟨hle, rfl⟩
    exact ⟨rfl, hle, hlength.trans_le h⟩

end Der

namespace X509

open Der P256

theorem AlgorithmId.encode_p256 : AlgorithmId.p256.encode = [0x30, 0x13, 0x06, 0x07, 0x2a, 0x86, 0x48,
    0xce, 0x3d, 0x02, 0x01, 0x06, 0x08, 0x2a, 0x86, 0x48, 0xce, 0x3d, 0x03, 0x01, 0x07] := by
  decide

/-- A point is a whole number of bytes, so no bit of it is unused. -/
theorem encode_pointBits (point : PublicKey) :
    (BitString.ofBytes point.toOctets.toList).encode = [0x03, 0x42, 0x00] ++ point.toOctets.toList := by
  have hlength : point.toOctets.toList.length + 1 = 66 := by rw [point.toOctets.length_toList]
  exact BitString.encode_ofBytes_of_length hlength (by decide)

namespace PublicKeyInfo

/-- A public key on the curve: the identifiers of the algorithm and of the curve, and the point. -/
def layout (point : PublicKey) : Bytes :=
  [0x30, 0x59, 0x30, 0x13, 0x06, 0x07, 0x2a, 0x86, 0x48, 0xce, 0x3d, 0x02, 0x01, 0x06, 0x08, 0x2a,
    0x86, 0x48, 0xce, 0x3d, 0x03, 0x01, 0x07, 0x03, 0x42, 0x00] ++ point.toOctets.toList

theorem encode_ofKey (point : PublicKey) : (ofKey point).encode = layout point := by
  have hlength : (AlgorithmId.p256.encode
      ++ (BitString.ofBytes point.toOctets.toList).encode).length = 89 := by
    rw [AlgorithmId.encode_p256, encode_pointBits]
    simp
  rw [encode, ofKey, element_eq_of_length hlength (by decide), AlgorithmId.encode_p256,
    encode_pointBits, layout]
  simp [Tag.sequence]

/-- The value names the algorithm and the curve, and holds the point in the uncompressed form. -/
structure HoldsPoint (k : PublicKeyInfo) (point : PublicKey) : Prop where
  algorithm : k.algorithm = .p256
  unused : k.key.unused = 0
  bytes : k.key.bytes = 0x04 :: (Bytes.ofNat 32 point.x ++ Bytes.ofNat 32 point.y)

end PublicKeyInfo

namespace EcPrivateKey

/-- A private key on the curve: the version, the scalar in 32 bytes, the identifier of the curve, and
the point of the scalar. -/
def layout (key : PrivateKey) : Bytes :=
  [0x30, 0x77, 0x02, 0x01, 0x01, 0x04, 0x20] ++ key.toOctets.toList
    ++ [0xa0, 0x0a, 0x06, 0x08, 0x2a, 0x86, 0x48, 0xce, 0x3d, 0x03, 0x01, 0x07, 0xa1, 0x44, 0x03, 0x42,
      0x00] ++ key.publicKey.toOctets.toList

theorem encode_ofKey (key : PrivateKey) : (ofKey key).encode = layout key := by
  have hversion : SmallUint.encode 1 = [0x02, 0x01, 0x01] := by decide
  have hscalar := OctetString.encode_of_length key.toOctets.length_toList (by decide)
  have hcurve : element (.context .zero true) prime256v1.encode =
      [0xa0, 0x0a, 0x06, 0x08, 0x2a, 0x86, 0x48, 0xce, 0x3d, 0x03, 0x01, 0x07] := by decide
  have hbits : ([0x03, 0x42, 0x00] ++ key.publicKey.toOctets.toList).length = 68 := by simp
  have hpoint : element (.context .one true) ([0x03, 0x42, 0x00] ++ key.publicKey.toOctets.toList) =
      [0xa1, 0x44] ++ ([0x03, 0x42, 0x00] ++ key.publicKey.toOctets.toList) :=
    element_eq_of_length hbits (by decide)
  have hlength : (SmallUint.encode 1 ++ OctetString.encode key.toOctets.toList
      ++ element (.context .zero true) prime256v1.encode
      ++ element (.context .one true)
        (BitString.ofBytes key.publicKey.toOctets.toList).encode).length = 119 := by
    rw [hversion, hscalar, hcurve, encode_pointBits, hpoint]
    simp
  rw [encode, ofKey, Option.map_some, Option.map_some, Option.getD_some, Option.getD_some,
    element_eq_of_length hlength (by decide), hversion, hscalar, hcurve, encode_pointBits, hpoint,
    layout]
  simp [Tag.sequence]

/-- The value is version 1, with the scalar in all its 32 bytes, the curve, and as the public key the
uncompressed form of the point that the scalar makes of the base point. -/
structure HoldsKey (k : EcPrivateKey) (key : PrivateKey) : Prop where
  version : k.version = 1
  length_privateKey : k.privateKey.length = 32
  toNat_privateKey : Bytes.toNat k.privateKey = key.toNat
  parameters : k.parameters = some prime256v1
  publicKey : ∃ (bits : BitString) (point : PublicKey), k.publicKey = some bits ∧ bits.unused = 0 ∧
    bits.bytes.length = 65 ∧ point.IsUncompressed bits.bytes ∧
    point.toPoint.Represents (key.toNat • generator)

theorem holdsKey_ofKey (key : PrivateKey) : (ofKey key).HoldsKey key where
  version := rfl
  length_privateKey := key.toOctets.length_toList
  toNat_privateKey := key.toNat_toOctets
  parameters := rfl
  publicKey := ⟨_, key.publicKey, rfl, rfl, key.publicKey.toOctets.length_toList,
    key.isUncompressed_publicKey, key.represents_publicKey⟩

/-- Zeros in front are kept. -/
example : (ofKey ⟨1, by decide, by decide⟩).privateKey = List.replicate 31 0x00 ++ [0x01] := by decide

end EcPrivateKey

/-- Every private key takes up 121 bytes and every public key 91, in every buffer that has room for
them, and both are read back. -/
theorem keys_have_fixed_layouts :
    (∀ key : PrivateKey, HasBytes (encodePrivateKey key) (EcPrivateKey.layout key) 121 ∧
      ∃ k, EcPrivateKey.decode.whole (EcPrivateKey.layout key) = some k ∧ k.HoldsKey key) ∧
    ∀ point : PublicKey,
      HasBytes (fun capacity => within capacity (PublicKeyInfo.ofKey point).encode)
        (PublicKeyInfo.layout point) 91 ∧
      ∃ k, PublicKeyInfo.decode.whole (PublicKeyInfo.layout point) = some k ∧ k.HoldsPoint point := by
  constructor
  · intro key
    have hlength := EcPrivateKey.length_encode_ofKey key
    rw [← EcPrivateKey.encode_ofKey]
    refine ⟨hasBytes_within hlength (by decide), EcPrivateKey.ofKey key, ?_,
      EcPrivateKey.holdsKey_ofKey key⟩
    exact EcPrivateKey.readsBackIf.decode_self rfl (hlength.trans_le (by decide))
  · intro point
    have hlength := PublicKeyInfo.length_encode_ofKey point
    rw [← PublicKeyInfo.encode_ofKey]
    refine ⟨hasBytes_within hlength (by decide), PublicKeyInfo.ofKey point, ?_, rfl, rfl, rfl⟩
    exact PublicKeyInfo.readsBackIf.decode_self rfl (hlength.trans_le (by decide))

end X509

end MeasuredIdentity
