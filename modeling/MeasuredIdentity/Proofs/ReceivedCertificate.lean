import MeasuredIdentity.Proofs.CertificateAssembly
import MeasuredIdentity.Proofs.Reception
import MeasuredIdentity.Proofs.RequestCanonical

/-!
Certificates as they are received. A certificate determines its bytes up to surplus: a version or a
criticality that is the default and written out all the same, and context-specific elements ahead of
the fields behind the key. Encoding a received certificate drops just the surplus, so it gives the
received bytes back exactly if there was none.
-/
namespace MeasuredIdentity

namespace Der.Boolean

/-- A boolean as the element that it is written as. -/
def toElement (b : Bool) : Element := ⟨.boolean, [if b then 0xff else 0x00]⟩

theorem content_of_ofContent? {c : Bytes} {b : Bool} (h : ofContent? c = some b) :
    (toElement b).content = c := by
  unfold ofContent? at h
  split at h <;> cases h <;> rfl

theorem canonical : Canonical encode decode := by
  intro bytes b rest h
  obtain ⟨c, hc, -, rfl⟩ := eq_element_of_primitive h
  rw [← content_of_ofContent? hc]
  rfl

/-- How a boolean with the default `false` is received. -/
abbrev received : Reception Bool := .defaulted false toElement

theorem extends_received : received.Extends encodeDefault := by
  have h := Reception.extends_defaulted false toElement
  have heq : (fun b => if b = false then [] else (toElement b).encode) = encodeDefault := by
    funext b
    cases b <;> rfl
  rwa [heq] at h

theorem covers_received : received.Covers decodeDefault := by
  apply Reception.covers_defaulted
  intro bytes o rest h
  obtain ⟨rfl, rfl⟩ | ⟨b, rfl, hb⟩ := optional_eq_some h
  · exact Or.inl ⟨rfl, rfl⟩
  · exact Or.inr ⟨b, rfl, canonical _ _ _ hb⟩

end Der.Boolean

namespace X509

open Der Decoder

namespace Version

/-- A version as the element that it is written as. -/
def toElement (v : Version) : Element := ⟨.context .zero true, SmallUint.encode v.toByte⟩

theorem toByte_of_ofByte? {n : UInt8} {v : Version} (h : ofByte? n = some v) : v.toByte = n := by
  unfold ofByte? at h
  split_ifs at h with h₀ h₁ h₂ <;> cases h <;> exact Eq.symm ‹_›

theorem canonical : Canonical (fun v : Version => SmallUint.encode v.toByte) decode := by
  intro b v rest h
  obtain ⟨n, mid, hn, hread⟩ := bind_eq_some_iff.1 h
  obtain ⟨hv, rfl⟩ := ofOption_eq_some_iff.1 hread
  obtain rfl := toByte_of_ofByte? hv
  exact SmallUint.canonical _ _ _ hn

/-- How a version with the default version 1 is received. -/
abbrev received : Reception Version := .defaulted .v1 toElement

theorem extends_received : received.Extends encodeDefault := Reception.extends_defaulted .v1 toElement

theorem covers_received : received.Covers decodeDefault := by
  apply Reception.covers_defaulted
  intro b o rest h
  obtain ⟨gap, hgap, ⟨rfl, hb⟩ | ⟨v, c, rfl, hc, hb⟩⟩ := eq_of_explicitField h
  all_goals obtain rfl := eq_nil_of_passedOver_zero hgap
  · exact Or.inl ⟨rfl, hb⟩
  · have hcontent := canonical _ _ _ hc
    rw [List.append_nil] at hcontent
    subst hcontent
    exact Or.inr ⟨v, rfl, hb⟩

end Version

namespace Extension

/-- How an extension is received: its criticality may be written out. -/
def received : Reception Extension := .inside .sequence fun e surplus c =>
  ∃ critical, Boolean.received e.critical surplus critical ∧
    c = e.oid.encode ++ critical ++ OctetString.encode e.value

theorem extends_received : received.Extends encode := by
  apply Reception.extends_inside
  constructor
  · rintro e _ ⟨critical, hcritical, rfl⟩
    rw [Boolean.extends_received.eq_encode hcritical]
  · rintro e surplus _ ⟨critical, hcritical, rfl⟩
    have hlen := Boolean.extends_received.length_le hcritical
    simp only [List.length_append]
    omega

theorem covers_received : received.Covers decode := by
  apply Reception.covers_inside
  intro b e rest h
  simp only [bind_eq_some_iff, pure_eq_some_iff] at h
  obtain ⟨oid, _, ho, critical, _, hc, value, _, hv, rfl, rfl⟩ := h
  obtain ⟨surplus, front, hcritical, rfl⟩ := Boolean.covers_received _ _ _ hc
  refine ⟨surplus, _, ⟨front, hcritical, rfl⟩, ?_⟩
  rw [Oid.canonical _ _ _ ho, OctetString.canonical _ _ _ hv]
  simp only [List.append_assoc]

end Extension

namespace Extensions

/-- How extensions are received. -/
def received : Reception Extensions :=
  .inside .sequence fun es => Reception.members Extension.received es.toList

theorem extends_received : received.Extends encode := by
  have hmembers := Reception.extends_members Extension.extends_received
  exact Reception.extends_inside .sequence ⟨hmembers.eq_encode, hmembers.length_le⟩

theorem covers_received : received.Covers decode :=
  Reception.covers_inside .sequence (Reception.covers_members Extension.covers_received _)

end Extensions

namespace TbsCertificate

/-- How the fields of a body are received: the version may be written out, elements may stand ahead
of the unique identifiers and of the extensions, and the extensions may have surplus of their own. -/
inductive receivedFields (t : TbsCertificate) : List Element → Bytes → Prop
  | fields {sv si su se : List Element} {v i u e : Bytes}
      (version : Version.received t.version sv v)
      (issuerId : Reception.behind .one false (.plain BitString.content) t.issuerId si i)
      (subjectId : Reception.behind .two false (.plain BitString.content) t.subjectId su u)
      (extensions : Reception.behind .three true Extensions.received t.extensions se e) :
      receivedFields t (sv ++ si ++ su ++ se)
        (v ++ t.serial.encode ++ t.signature.encode ++ Name.encode t.issuer ++ t.validity.encode
          ++ Name.encode t.subject ++ t.publicKey.encode ++ i ++ u ++ e)

/-- How a body is received. -/
def received : Reception TbsCertificate := .inside .sequence receivedFields

theorem extends_received : received.Extends encode := by
  have hid (number : FieldNumber) := Reception.extends_behind number false
    (Reception.extends_plain BitString.content)
  have hextensions := Reception.extends_behind .three true Extensions.extends_received
  apply Reception.extends_inside
  constructor
  · intro t c h
    generalize hs : ([] : List Element) = surplus at h
    cases h with
    | fields hv hi hu he =>
      simp only [List.nil_eq_append_iff, List.append_eq_nil_iff] at hs
      obtain ⟨⟨⟨rfl, rfl⟩, rfl⟩, rfl⟩ := hs
      rw [Version.extends_received.eq_encode hv, (hid .one).eq_encode hi, (hid .two).eq_encode hu,
        hextensions.eq_encode he]
  · rintro t _ _ ⟨hv, hi, hu, he⟩
    have hversion := Version.extends_received.length_le hv
    have hissuer := (hid .one).length_le hi
    have hsubject := (hid .two).length_le hu
    have hlast := hextensions.length_le he
    simp only [List.length_append]
    omega

theorem covers_received : received.Covers decode := by
  apply Reception.covers_inside
  intro b t rest h
  simp only [bind_eq_some_iff, pure_eq_some_iff] at h
  obtain ⟨version, _, hv, serial, _, hserial, signature, _, hsignature, issuer, _, hissuer, validity,
    _, hvalidity, subject, _, hsubject, key, _, hkey, issuerId, _, hi, subjectId, _, hu, extensions,
    _, he, rfl, rfl⟩ := h
  obtain ⟨_, _, hv', rfl⟩ := Version.covers_received _ _ _ hv
  obtain ⟨_, _, hi', rfl⟩ :=
    Reception.covers_behind_implicit .one false BitString.content_of_ofContent? _ _ _ hi
  obtain ⟨_, _, hu', rfl⟩ :=
    Reception.covers_behind_implicit .two false BitString.content_of_ofContent? _ _ _ hu
  obtain ⟨_, _, he', rfl⟩ :=
    Reception.covers_behind_explicit .three Extensions.covers_received _ _ _ he
  refine ⟨_, _, .fields hv' hi' hu' he', ?_⟩
  rw [Uint.canonical _ _ _ hserial, AlgorithmId.canonical _ _ _ hsignature,
    Name.canonical _ _ _ hissuer, Validity.canonical _ _ _ hvalidity, Name.canonical _ _ _ hsubject,
    PublicKeyInfo.canonical _ _ _ hkey]
  simp only [List.append_assoc]

end TbsCertificate

namespace Certificate

/-- How a certificate is received: all surplus is in its body. -/
def received : Reception Certificate := .inside .sequence fun c surplus content =>
  ∃ first, TbsCertificate.received c.tbs surplus first ∧
    content = first ++ c.algorithm.encode ++ c.signature.encode

theorem extends_received : received.Extends encode := by
  apply Reception.extends_inside
  constructor
  · rintro c _ ⟨first, hfirst, rfl⟩
    rw [TbsCertificate.extends_received.eq_encode hfirst]
  · rintro c surplus _ ⟨first, hfirst, rfl⟩
    have hlen := TbsCertificate.extends_received.length_le hfirst
    simp only [List.length_append]
    omega

/-- A certificate is read from a body, an algorithm and a signature. -/
theorem content_of_decode {b : Bytes} {c : Certificate} (h : decode.whole b = some c) :
    ∃ first surplus, c.isReadable = true ∧ TbsCertificate.received c.tbs surplus first ∧
      b = element .sequence (first ++ c.algorithm.encode ++ c.signature.encode) ∧
      (first ++ c.algorithm.encode ++ c.signature.encode).length ≤ maxLength := by
  obtain ⟨content, hcontent, hlen, hb⟩ := eq_element_of_inside (whole_eq_some_iff.1 h)
  rw [List.append_nil] at hb
  subst hb
  simp only [bind_eq_some_iff, pure_eq_some_iff] at hcontent
  obtain ⟨tbs, _, ht, algorithm, _, ha, signature, _, hs, rfl, rfl⟩ := hcontent
  obtain ⟨surplus, first, hfirst, rfl⟩ := TbsCertificate.covers_received _ _ _ ht
  have htail := AlgorithmId.canonical _ _ _ ha
  rw [BitString.canonical _ _ _ hs, List.append_nil] at htail
  subst htail
  refine ⟨first, surplus, ?_, hfirst, ?_, ?_⟩
  · rw [isReadable_eq, Bool.and_eq_true]
    exact ⟨TbsCertificate.yields _ _ _ ht, AlgorithmId.yields _ _ _ ha⟩
  · simp only [List.append_assoc]
  · simpa only [List.append_assoc] using hlen

theorem firstMember?_of_received {t : TbsCertificate} {surplus : List Element} {first rest : Bytes}
    (h : TbsCertificate.received t surplus first) (hlen : (first ++ rest).length ≤ maxLength) :
    firstMember? (element .sequence (first ++ rest)) = some first := by
  obtain ⟨body, -, rfl⟩ := h
  exact firstMember?_element hlen

theorem decode_encode_of_decode {b : Bytes} {c : Certificate} (h : decode.whole b = some c) :
    decode.whole c.encode = some c := by
  obtain ⟨first, surplus, hreadable, hfirst, rfl, hlen⟩ := content_of_decode h
  have hle := TbsCertificate.extends_received.length_le hfirst
  have hdecode := decode_encode_of_content (c := c)
    (by simp only [List.length_append] at hlen ⊢; omega) []
  rw [List.append_nil, if_pos hreadable] at hdecode
  exact whole_eq_some_iff.2 hdecode

theorem encode_eq_iff_received {b : Bytes} {c : Certificate} (h : decode.whole b = some c) :
    c.encode = b ↔ received c [] b := by
  obtain ⟨first, surplus, -, hfirst, rfl, -⟩ := content_of_decode h
  constructor
  · intro heq
    obtain rfl := (extends_received.encode_eq_iff ⟨_, ⟨first, hfirst, rfl⟩, rfl⟩).1 heq
    exact ⟨_, ⟨first, hfirst, rfl⟩, rfl⟩
  · intro hreceived
    exact (extends_received.eq_encode hreceived).symm

/-- A certificate is received with some surplus. Its encoding is what was received exactly if there
is no surplus, and the encoding of its body is the slice that holds the body in the same case. The
encoding is read as the same certificate, and no other byte string without surplus is. -/
theorem encode_drops_surplus {b : Bytes} {c : Certificate} (h : decode.whole b = some c) :
    ∃ surplus first, received c surplus b ∧ firstMember? b = some first ∧
      TbsCertificate.received c.tbs surplus first ∧
      (c.encode = b ↔ surplus = []) ∧ (c.tbs.encode = first ↔ surplus = []) ∧
      decode.whole c.encode = some c ∧
      ∀ b', decode.whole b' = some c → (c.encode = b' ↔ received c [] b') := by
  obtain ⟨first, surplus, -, hfirst, rfl, hlen⟩ := content_of_decode h
  have hreceived : received c surplus (element .sequence (first ++ c.algorithm.encode
      ++ c.signature.encode)) := ⟨_, ⟨first, hfirst, rfl⟩, rfl⟩
  refine ⟨surplus, first, hreceived, ?_, hfirst, extends_received.encode_eq_iff hreceived,
    TbsCertificate.extends_received.encode_eq_iff hfirst, decode_encode_of_decode h,
    fun b' => encode_eq_iff_received⟩
  rw [List.append_assoc] at hlen ⊢
  exact firstMember?_of_received hfirst hlen

/-- A version 1 certificate with one extension that is not critical and with an issuer identifier.
The arguments are the bytes for its version, those ahead of the identifier, and those for the
criticality of the extension. -/
def sampleBytes (version ahead critical : Bytes) : Bytes :=
  element .sequence (element .sequence (version ++ [0x02, 0x01, 0x05] ++ AlgorithmId.ecdsaSha256.encode
      ++ [0x30, 0x00] ++ sampleBody.validity.encode ++ [0x30, 0x00]
      ++ PublicKeyInfo.encode ⟨.p256, .ofBytes [0x04]⟩ ++ ahead ++ [0x81, 0x02, 0x00, 0x2a]
      ++ element (.context .three true) (element .sequence (element .sequence
        (Extension.keyUsageOid.encode ++ critical ++ [0x04, 0x02, 0x05, 0x00]))))
    ++ AlgorithmId.ecdsaSha256.encode ++ [0x03, 0x01, 0x00])

theorem exists_decode_sampleBytes : ∃ c, decode.whole (sampleBytes [] [] []) = some c ∧
    c.encode = sampleBytes [] [] [] ∧
    ∀ b ∈ [sampleBytes [0xa0, 0x03, 0x02, 0x01, 0x00] [] [], sampleBytes [] [0x80, 0x00] [],
        sampleBytes [] [] [0x01, 0x01, 0x00]],
      b ≠ sampleBytes [] [] [] ∧ decode.whole b = some c ∧ firstMember? b ≠ some c.tbs.encode := by
  have h : (decode.whole (sampleBytes [] [] [])).any (fun c => decide (c.encode = sampleBytes [] [] [] ∧
      ∀ b ∈ [sampleBytes [0xa0, 0x03, 0x02, 0x01, 0x00] [] [], sampleBytes [] [0x80, 0x00] [],
          sampleBytes [] [] [0x01, 0x01, 0x00]],
        b ≠ sampleBytes [] [] [] ∧ decode.whole b = some c ∧ firstMember? b ≠ some c.tbs.encode)) =
      true := by decide +kernel
  obtain ⟨c, hc, h⟩ := (Option.any_eq_true _ _).1 h
  exact ⟨c, hc, of_decide_eq_true h⟩

/-- Without surplus a certificate is encoded as it was received. -/
theorem encode_drops_surplus_sample : ∃ c, decode.whole (sampleBytes [] [] []) = some c ∧
    c.encode = sampleBytes [] [] [] ∧ firstMember? (sampleBytes [] [] []) = some c.tbs.encode := by
  obtain ⟨c, hc, hsample, -⟩ := exists_decode_sampleBytes
  obtain ⟨surplus, first, -, hfirst, -, hencode, hbody, -⟩ := encode_drops_surplus hc
  obtain rfl := hbody.2 (hencode.1 hsample)
  exact ⟨c, hc, hsample, hfirst⟩

/-- A version 1 that is written out, an element ahead of the issuer identifier, and a criticality
that is false and written out are accepted and make no difference to the certificate. The encoding
is neither what was received nor, for the body, the slice that was received. -/
theorem decode_ignores_surplus : ∃ c,
    ∀ b ∈ [sampleBytes [0xa0, 0x03, 0x02, 0x01, 0x00] [] [], sampleBytes [] [0x80, 0x00] [],
        sampleBytes [] [] [0x01, 0x01, 0x00]],
      decode.whole b = some c ∧ c.encode ≠ b ∧ firstMember? b ≠ some c.tbs.encode ∧
        ∃ b' ≠ b, decode.whole b' = some c := by
  obtain ⟨c, hc, hsample, h⟩ := exists_decode_sampleBytes
  refine ⟨c, fun b hb => ?_⟩
  obtain ⟨hne, hdecode, hfirst⟩ := h b hb
  rw [hsample]
  exact ⟨hdecode, hne.symm, hfirst, _, hne.symm, hc⟩

end Certificate

end X509

end MeasuredIdentity
