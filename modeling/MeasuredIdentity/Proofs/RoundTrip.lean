import MeasuredIdentity.Proofs.UniqueEncoding

/-!
What is encoded into a buffer is decoded from exactly the bytes in it, for every structure of the
X.509 subset, where all the object identifiers in it are ones that can be read. With any other identifier
it is written as well, and refused when it is read. In both cases no encoding belongs to two values.
-/
namespace MeasuredIdentity

namespace Der

variable {α : Type} {enc : α → Bytes} {dec : Decoder α} {readable : α → Bool}

/-- A value that is encoded into some buffer is decoded from what the buffer then holds if it is
readable, and not at all otherwise. No other value has this encoding. -/
def RoundTripsIf (readable : α → Bool) (enc : α → Bytes) (dec : Decoder α) : Prop :=
  ∀ (v : α) (capacity : Nat) (b : Bytes), within capacity (enc v) = .ok b →
    dec.whole b = (if readable v then some v else none) ∧ ∀ w, enc w = b → w = v

/-- The same where every value is readable. -/
def RoundTrips (enc : α → Bytes) (dec : Decoder α) : Prop := RoundTripsIf (fun _ => true) enc dec

theorem ReadsBackIf.roundTripsIf (h : ReadsBackIf readable enc dec) (hunique : Unambiguous enc) :
    RoundTripsIf readable enc dec := by
  intro v capacity b hb
  obtain ⟨rfl, -, hlen⟩ := within_eq_ok hb
  refine ⟨h.decode_whole hlen, ?_⟩
  intro w heq
  exact (hunique.distinct v w hlen heq.symm).symm

theorem ReadsBack.roundTrips (h : ReadsBack enc dec) : RoundTrips enc dec :=
  h.readsBackIf.roundTripsIf h.unambiguous

end Der

namespace X509

open Der

/-- All structures round trip if every object identifier in them can be read, and certificates if their
serial number has a value besides. -/
theorem structures_roundTrip :
    RoundTripsIf (fun n => (Name.oids n).all Oid.isReadable) Name.encode Name.decode ∧
    RoundTrips Validity.encode Validity.decode ∧
    RoundTripsIf (fun e => e.oids.all Oid.isReadable) Extension.encode Extension.decode ∧
    RoundTripsIf (fun es => (Extensions.oids es).all Oid.isReadable) Extensions.encode
      Extensions.decode ∧
    RoundTrips BasicConstraints.encode BasicConstraints.decode ∧
    RoundTrips KeyUsage.encode KeyUsage.decode ∧
    RoundTripsIf (fun u => (ExtendedKeyUsage.oids u).all Oid.isReadable) ExtendedKeyUsage.encode
      ExtendedKeyUsage.decode ∧
    RoundTrips AuthorityKeyId.encode AuthorityKeyId.decode ∧
    RoundTripsIf (fun n => n.oids.all Oid.isReadable) OtherName.encode OtherName.decode ∧
    RoundTripsIf (fun n => n.oids.all Oid.isReadable) SubjectAltName.encode SubjectAltName.decode ∧
    RoundTripsIf (fun f => f.oids.all Oid.isReadable) FirmwareId.encode FirmwareId.decode ∧
    RoundTripsIf (fun i => i.oids.all Oid.isReadable) CompositeDeviceId.encode
      CompositeDeviceId.decode ∧
    RoundTripsIf (fun k => k.oids.all Oid.isReadable) EcPrivateKey.encode EcPrivateKey.decode ∧
    RoundTripsIf (fun t => t.serial.hasValue && t.oids.all Oid.isReadable) TbsCertificate.encode
      TbsCertificate.decode ∧
    RoundTripsIf (fun c => c.tbs.serial.hasValue && c.oids.all Oid.isReadable) Certificate.encode
      Certificate.decode ∧
    RoundTripsIf (fun i => i.oids.all Oid.isReadable) RequestInfo.encode RequestInfo.decode ∧
    RoundTripsIf (fun r => r.oids.all Oid.isReadable) Request.encode Request.decode :=
  ⟨Name.readsBackIf.roundTripsIf Name.unambiguous, Validity.readsBack.roundTrips,
    Extension.readsBackIf.roundTripsIf Extension.unambiguous,
    Extensions.readsBackIf.roundTripsIf Extensions.unambiguous,
    BasicConstraints.readsBack.roundTrips, KeyUsage.readsBack.roundTrips,
    ExtendedKeyUsage.readsBackIf.roundTripsIf ExtendedKeyUsage.unambiguous,
    AuthorityKeyId.readsBack.roundTrips, OtherName.readsBackIf.roundTripsIf OtherName.unambiguous,
    SubjectAltName.readsBackIf.roundTripsIf SubjectAltName.unambiguous,
    FirmwareId.readsBackIf.roundTripsIf FirmwareId.unambiguous,
    CompositeDeviceId.readsBackIf.roundTripsIf CompositeDeviceId.unambiguous,
    EcPrivateKey.readsBackIf.roundTripsIf EcPrivateKey.unambiguous,
    TbsCertificate.readsBackIf.roundTripsIf TbsCertificate.unambiguous,
    Certificate.readsBackIf.roundTripsIf Certificate.unambiguous,
    RequestInfo.readsBackIf.roundTripsIf RequestInfo.unambiguous,
    Request.readsBackIf.roundTripsIf Request.unambiguous⟩

/-- A certificate body with every kind of optional field: a version, no issuer identifier, a
subject identifier with padding bits, an extension that is not critical, and a serial number that
needs a sign byte. -/
def TbsCertificate.sample : TbsCertificate where
  version := .v2
  serial := .ofBytes [0x00, 0x80, 0x01]
  signature := .ecdsaSha256
  issuer := .empty
  validity := ⟨⟨0, by decide⟩, ⟨2524607999, by decide⟩⟩
  subject := (NameParts.mk "a" "b" "c").toName
  publicKey := ⟨.p256, .ofBytes []⟩
  issuerId := none
  subjectId := some ⟨3, [0xff], by decide, by decide⟩
  extensions := some ⟨[⟨Extension.keyUsageOid, false, [0x05, 0x00]⟩], by decide⟩

theorem sample_roundTrip :
    within 1024 TbsCertificate.sample.encode = .ok TbsCertificate.sample.encode ∧
    TbsCertificate.decode.whole TbsCertificate.sample.encode = some TbsCertificate.sample := by
  have hfits : within 1024 TbsCertificate.sample.encode = .ok TbsCertificate.sample.encode :=
    within_of_le (by decide +kernel) (by decide +kernel)
  obtain ⟨-, -, -, -, -, -, -, -, -, -, -, -, -, htbs, -⟩ := structures_roundTrip
  exact ⟨hfits, (htbs _ _ _ hfits).1⟩

/-- An extension of the type 2.5.29 is written and not read, and neither is a name with an attribute of
the type 1.2.536870928, whose last arc has five bytes. -/
theorem written_not_read :
    within 16 (Extension.mk ⟨[0x55, 0x1d], by decide⟩ false []).encode =
      .ok [0x30, 0x06, 0x06, 0x02, 0x55, 0x1d, 0x04, 0x00] ∧
    Extension.decode.whole [0x30, 0x06, 0x06, 0x02, 0x55, 0x1d, 0x04, 0x00] = none ∧
    within 16 (Name.encode ⟨[⟨[⟨⟨[0x2a, 0x82, 0x80, 0x80, 0x80, 0x10], by decide⟩,
        ⟨.utf8String, []⟩⟩], by decide⟩], by decide⟩) =
      .ok [0x30, 0x0e, 0x31, 0x0c, 0x30, 0x0a, 0x06, 0x06, 0x2a, 0x82, 0x80, 0x80, 0x80, 0x10, 0x0c,
        0x00] ∧
    Name.decode.whole [0x30, 0x0e, 0x31, 0x0c, 0x30, 0x0a, 0x06, 0x06, 0x2a, 0x82, 0x80, 0x80, 0x80,
      0x10, 0x0c, 0x00] = none := by
  decide +kernel

end X509

end MeasuredIdentity
