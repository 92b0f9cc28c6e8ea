import MeasuredIdentity.Proofs.CertificateCodec
import MeasuredIdentity.Proofs.IssueCapacity
import MeasuredIdentity.Proofs.SignatureScheme

/-!
Issued credentials form one chain. What a reader finds in the texts of the credentials agrees: the
alias certificate names the device, binds the key that the alias holds to the device key and to the
measured firmware, and has a signature that is accepted for the device key; the device's own document
is about the same key.
-/
namespace MeasuredIdentity

open Der X509

/-- The text has this label, and holds bytes that decode to this value. -/
structure Pem.Carries {α : Type} (p : Pem) (label : String) (dec : Decoder α) (data : Bytes)
    (value : α) : Prop where
  label_eq : p.label = label
  holds : p.Holds data
  decodes : dec.whole data = some value

theorem Pem.carries_ofData {α : Type} {label : String} (h : label ∈ labels) {dec : Decoder α}
    {data : Bytes} {value : α} (hdata : data ≠ []) (hdecode : dec.whole data = some value) :
    (ofData label data).Carries label dec data value :=
  ⟨rfl, holds_ofData h hdata, hdecode⟩

/-- The extension has this identifier and criticality, and its value decodes to this one. -/
structure X509.Extension.Carries {α : Type} (e : Extension) (oid : Oid) (critical : Bool)
    (dec : Decoder α) (value : α) : Prop where
  oid_eq : e.oid = oid
  critical_eq : e.critical = critical
  decodes : dec.whole e.value = some value

/-- The bits are the signature that the key makes over the message, and that is accepted for its public
key. -/
def IsSignature (key : P256.PrivateKey) (message : Bytes) (bits : BitString) : Prop :=
  ∃ s, Ecdsa.sign? key message = some s ∧ Ecdsa.verifies key.publicKey message s = true ∧
    bits = .ofBytes (encodeSignature s)

theorem isSignature_of_sign? {key : P256.PrivateKey} {message : Bytes} {s : Ecdsa.Signature}
    (h : Ecdsa.sign? key message = some s) : IsSignature key message (.ofBytes (encodeSignature s)) :=
  ⟨s, h, Ecdsa.verifies_of_sign? h, rfl⟩

/-- A signed body in a text is read as the certificate that it is. -/
theorem carries_signed {tbs : TbsCertificate} (hserial : tbs.HasSerial)
    (hoids : tbs.oids.all Oid.isReadable = true) {s : Ecdsa.Signature}
    (hlength : (Certificate.signed tbs s).encode.length ≤ maxTbsSize) :
    (Pem.ofData Pem.certificateLabel (Certificate.signed tbs s).encode).Carries Pem.certificateLabel
      Certificate.decode (Certificate.signed tbs s).encode (Certificate.signed tbs s) := by
  have hreadable : (Certificate.signed tbs s).isReadable = true :=
    Certificate.isReadable_eq_true_iff.2 ⟨hserial, by
      rw [Certificate.oids, List.all_append, Bool.and_eq_true]
      exact ⟨hoids, rfl⟩⟩
  exact Pem.carries_ofData (by decide) (element_ne_nil _ _)
    (Certificate.readsBackIf.decode_self hreadable (le_maxLength hlength))

end MeasuredIdentity
