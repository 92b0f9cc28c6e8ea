import MeasuredIdentity.Proofs.ExtensionCodec
import MeasuredIdentity.X509.Certificate
import MeasuredIdentity.X509.Request

/-!
Certificates and requests are read back from their encodings, if the serial number has a value and
all the object identifiers in them can be read. Otherwise they are refused.
-/
namespace MeasuredIdentity.X509

open Der Decoder

namespace Version

theorem ofByte?_toByte (v : Version) : ofByte? v.toByte = some v := by
  cases v <;> rfl

theorem readsBack : ReadsBack (fun v : Version => SmallUint.encode v.toByte) decode := by
  intro v h rest
  simp only [decode, bind_apply, SmallUint.readsBack v.toByte h, Option.bind_some, ofOption_apply,
    ofByte?_toByte, Option.map_some]

theorem decodeDefault_encodeDefault (v : Version) {rest : Bytes}
    (hlen : v.encodeDefault.length ≤ maxLength)
    (hrest : NextTagIs (Tag.EndsSearch .zero) rest) :
    decodeDefault (v.encodeDefault ++ rest) = some (v, rest) := by
  have hfield (o : Option Version) (ho : o.getD .v1 = v)
      (heq : (o.map fun v => element (.context .zero true) (SmallUint.encode v.toByte)).getD []
        = v.encodeDefault) : decodeDefault (v.encodeDefault ++ rest) = some (v, rest) := by
    rw [← heq] at hlen ⊢
    rw [decodeDefault, bind_apply, explicitField_read .zero readsBack hlen hrest, ← ho]
    rfl
  by_cases hv : v = .v1
  · exact hfield none hv.symm (by rw [encodeDefault, if_pos hv]; rfl)
  · exact hfield (some v) rfl (by rw [encodeDefault, if_neg hv]; rfl)

/-- A version is told apart from the integer behind it. -/
theorem decodeDefault_before_uint (v : Version) (hlen : v.encodeDefault.length ≤ maxLength)
    (u : Uint) (rest : Bytes) :
    decodeDefault (v.encodeDefault ++ (u.encode ++ rest)) = some (v, u.encode ++ rest) :=
  decodeDefault_encodeDefault v hlen (nextTagIs_element .integer (Or.inl (by decide)) u.content rest)

end Version

namespace TbsCertificate

/-- The serial number has a value: its magnitude is not empty. -/
def HasSerial (t : TbsCertificate) : Prop := t.serial.magnitude ≠ []

/-- The object identifiers in a value, in the order in which they are written. -/
def oids (t : TbsCertificate) : List Oid :=
  t.signature.oids ++ Name.oids t.issuer ++ Name.oids t.subject ++ t.publicKey.oids
    ++ t.extensions.toList.flatMap Extensions.oids

def isReadable (t : TbsCertificate) : Bool := t.serial.hasValue && t.oids.all Oid.isReadable

theorem readsBackIf : ReadsBackIf isReadable encode decode := by
  apply ReadsBackIf.inside
  intro t hc
  simp only [List.length_append] at hc
  -- The fields behind the key are told apart by their numbers, so they are read back to front.
  have hextensions := explicitField_readIf .three Extensions.readsBackIf
    (o := t.extensions) (by omega) (nextTagIs_nil _)
  have hsubjectId := implicitField_read .two false BitString.content
    (fun s _ => BitString.ofContent?_content s) (o := t.subjectId) (by omega)
    (nextTagIs_field (p := Tag.EndsSearch .two) (.context .three true)
      (Or.inr (by decide)) Extensions.encode t.extensions (nextTagIs_nil _))
  have hissuerId := implicitField_read .one false BitString.content
    (fun s _ => BitString.ofContent?_content s) (o := t.issuerId) (by omega)
    (nextTagIs_field (p := Tag.EndsSearch .one) (.context .two false)
      (Or.inr (by decide)) BitString.content t.subjectId
      (nextTagIs_field (.context .three true) (Or.inr (by decide)) Extensions.encode
        t.extensions (nextTagIs_nil _)))
  rw [List.append_nil] at hextensions hsubjectId hissuerId
  simp only [bind_apply, List.append_assoc,
    Version.decodeDefault_before_uint t.version (by omega), Option.bind_some,
    Uint.readsBackIf t.serial (by omega), bind_if, AlgorithmId.readsBackIf t.signature (by omega),
    Name.readsBackIf t.issuer (by omega), Validity.readsBack t.validity (by omega),
    Name.readsBackIf t.subject (by omega), PublicKeyInfo.readsBackIf t.publicKey (by omega),
    hissuerId, hsubjectId, hextensions, if_if, pure_apply, isReadable, oids, List.all_append,
    List.all_flatMap, all_toList]

theorem yields : Yields isReadable decode := by
  apply Yields.inside
  intro c t rest h
  simp only [bind_eq_some_iff, pure_eq_some_iff] at h
  obtain ⟨version, _, -, serial, _, hserial, signature, _, hsignature, issuer, _, hissuer, validity, _,
    -, subject, _, hsubject, key, _, hkey, issuerId, _, -, subjectId, _, -, extensions, _, hextensions,
    rfl, -⟩ := h
  have hvalue : serial.hasValue = true := decide_eq_true (Uint.magnitude_ne_nil_of_decode hserial)
  have hlast : extensions.all (fun es => (Extensions.oids es).all Oid.isReadable) = true := by
    obtain ⟨_, -, ⟨rfl, -⟩ | ⟨es, content, rfl, hes, -⟩⟩ := eq_of_explicitField hextensions
    · rfl
    · exact Extensions.yields _ _ _ hes
  simp only [isReadable, oids, List.all_append, List.all_flatMap, all_toList, Bool.and_eq_true]
  exact ⟨hvalue, ⟨⟨⟨AlgorithmId.yields _ _ _ hsignature, Name.yields _ _ _ hissuer⟩,
    Name.yields _ _ _ hsubject⟩, PublicKeyInfo.yields _ _ _ hkey⟩, hlast⟩

end TbsCertificate

namespace Certificate

def oids (c : Certificate) : List Oid := c.tbs.oids ++ c.algorithm.oids

def isReadable (c : Certificate) : Bool := c.tbs.serial.hasValue && c.oids.all Oid.isReadable

theorem isReadable_eq_true_iff {c : Certificate} :
    c.isReadable = true ↔ c.tbs.HasSerial ∧ c.oids.all Oid.isReadable = true := by
  rw [isReadable, Bool.and_eq_true, Uint.hasValue, decide_eq_true_eq]
  rfl

theorem isReadable_eq (c : Certificate) :
    c.isReadable = (c.tbs.isReadable && c.algorithm.oids.all Oid.isReadable) := by
  rw [isReadable, oids, List.all_append, ← Bool.and_assoc, TbsCertificate.isReadable]

/-- The size of the content is what limits the reading. -/
theorem decode_encode_of_content {c : Certificate}
    (h : (c.tbs.encode ++ c.algorithm.encode ++ c.signature.encode).length ≤ maxLength)
    (rest : Bytes) : decode (c.encode ++ rest) = if c.isReadable then some (c, rest) else none := by
  apply inside_element_if h
  simp only [List.length_append] at h
  simp only [bind_apply, List.append_assoc, TbsCertificate.readsBackIf c.tbs (by omega), bind_if,
    AlgorithmId.readsBackIf c.algorithm (by omega),
    BitString.readsBack.whole (a := c.signature) (by omega), Option.bind_some, if_if, pure_apply,
    isReadable_eq]

theorem readsBackIf : ReadsBackIf isReadable encode decode :=
  fun _ h rest => decode_encode_of_content (length_le_of_element h) rest

end Certificate

namespace RequestAttribute

def oids (a : RequestAttribute) : List Oid := [a.oid]

theorem readsBackIf : ReadsBackIf (fun a => a.oids.all Oid.isReadable) encode decode := by
  apply ReadsBackIf.inside
  intro a hc
  rw [List.length_append] at hc
  have hset : (element .set (a.values.toList.flatMap Element.encode)).length ≤ maxLength := by omega
  have hvalues : inside .set (Bounded.decode Element.decode 1)
      (element .set (a.values.toList.flatMap Element.encode) ++ []) = some (a.values, []) :=
    inside_element (length_le_of_element hset)
      (Bounded.decode_flatMap Element.readsBack (fun e => element_ne_nil e.tag e.content) a.values
        (length_le_of_element hset)) []
  rw [List.append_nil] at hvalues
  simp only [bind_apply, Oid.readsBackIf a.oid (by omega), bind_if, hvalues, Option.bind_some,
    pure_apply, oids, List.all_cons, List.all_nil, Bool.and_true]

end RequestAttribute

namespace RequestInfo

def oids (i : RequestInfo) : List Oid :=
  Name.oids i.subject ++ i.publicKey.oids ++ i.attributes.toList.flatMap RequestAttribute.oids

theorem decode_attributes {es : Bounded 1 RequestAttribute}
    (h : (es.toList.flatMap RequestAttribute.encode).length ≤ maxLength) :
    (Bounded.decode RequestAttribute.decode 1).whole (es.toList.flatMap RequestAttribute.encode) =
      if es.toList.all (fun a => a.oids.all Oid.isReadable) then some es else none := by
  rw [Decoder.whole,
    Bounded.decode_flatMap_if RequestAttribute.readsBackIf (fun a => element_ne_nil _ _) es h]
  split_ifs <;> rfl

theorem readsBackIf : ReadsBackIf (fun i => i.oids.all Oid.isReadable) encode decode := by
  apply ReadsBackIf.inside
  intro i hc
  simp only [List.length_append] at hc
  have hattributes := implicitField_readIf .zero true
    (fun es : Bounded 1 RequestAttribute => es.toList.flatMap RequestAttribute.encode)
    (o := some i.attributes) (fun es hes => decode_attributes hes)
    (by rw [Option.map_some, Option.getD_some]; omega) (nextTagIs_nil (Tag.EndsSearch .zero))
  rw [List.append_nil, Option.map_some, Option.getD_some, Option.all_some] at hattributes
  simp only [bind_apply, List.append_assoc, SmallUint.readsBack 0 (by omega), Option.bind_some,
    check_apply, if_true, Name.readsBackIf i.subject (by omega), bind_if,
    PublicKeyInfo.readsBackIf i.publicKey (by omega), required, hattributes, ofOption_apply,
    Option.map_some, if_if, pure_apply, oids, List.all_append, List.all_flatMap]

end RequestInfo

namespace Request

def oids (r : Request) : List Oid := r.info.oids ++ r.algorithm.oids

theorem readsBackIf : ReadsBackIf (fun r => r.oids.all Oid.isReadable) encode decode := by
  apply ReadsBackIf.inside
  intro r hc
  simp only [List.length_append] at hc
  simp only [bind_apply, List.append_assoc, RequestInfo.readsBackIf r.info (by omega), bind_if,
    AlgorithmId.readsBackIf r.algorithm (by omega),
    BitString.readsBack.whole (a := r.signature) (by omega), Option.bind_some, if_if, pure_apply, oids,
    List.all_append]

end Request

end MeasuredIdentity.X509
