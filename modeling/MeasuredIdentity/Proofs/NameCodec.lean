import MeasuredIdentity.Proofs.PrimitiveCodec
import MeasuredIdentity.Proofs.UtcTimeCodec
import MeasuredIdentity.X509.CompositeDeviceId
import MeasuredIdentity.X509.Name
import MeasuredIdentity.X509.Validity

/-!
Names, validities, public keys and the identity of a device are read back from their encodings,
where all the object identifiers in them can be read. A name and a public key have one encoding each.
-/
namespace MeasuredIdentity

namespace X509

open Der Decoder

namespace Attribute

/-- The object identifiers in a value. -/
def oids (a : Attribute) : List Oid := [a.oid]

theorem readsBackIf : ReadsBackIf (fun a => a.oids.all Oid.isReadable) encode decode := by
  apply ReadsBackIf.inside
  intro a hc
  rw [List.length_append] at hc
  simp only [bind_apply, Oid.readsBackIf a.oid (by omega), bind_if,
    Element.readsBack.whole (a := a.value) (by omega), Option.bind_some, pure_apply, oids,
    List.all_cons, List.all_nil, Bool.and_true]

theorem canonical : Canonical encode decode := by
  intro b a rest h
  obtain ⟨c, hc, -, rfl⟩ := eq_element_of_inside h
  simp only [bind_eq_some_iff, pure_eq_some_iff] at hc
  obtain ⟨oid, _, ho, value, _, hv, rfl, rfl⟩ := hc
  rw [Oid.canonical _ _ _ ho, Element.canonical _ _ _ hv, List.append_nil]
  rfl

theorem yields : Yields (fun a => a.oids.all Oid.isReadable) decode := by
  apply Yields.inside
  intro c a rest h
  simp only [bind_eq_some_iff, pure_eq_some_iff] at h
  obtain ⟨oid, _, ho, value, _, -, rfl, -⟩ := h
  exact (Bool.and_true _).trans (Oid.yields _ _ _ ho)

end Attribute

namespace RelativeName

def oids (r : RelativeName) : List Oid := r.toList.flatMap Attribute.oids

theorem readsBackIf : ReadsBackIf (fun r => (oids r).all Oid.isReadable) encode decode := by
  simp only [oids, List.all_flatMap]
  exact ReadsBackIf.inside
    (Bounded.decode_flatMap_if Attribute.readsBackIf fun _ => element_ne_nil _ _)

theorem canonical : Canonical encode decode := by
  intro b r rest h
  obtain ⟨c, hc, -, rfl⟩ := eq_element_of_inside h
  rw [Bounded.eq_flatMap_of_decode Attribute.canonical hc, List.append_nil]
  rfl

theorem yields : Yields (fun r => (oids r).all Oid.isReadable) decode := by
  simp only [oids, List.all_flatMap]
  exact (Attribute.yields.members 1).inside .set

end RelativeName

namespace Name

def oids (n : Name) : List Oid := n.toList.flatMap RelativeName.oids

theorem readsBackIf : ReadsBackIf (fun n => (oids n).all Oid.isReadable) encode decode := by
  simp only [oids, List.all_flatMap]
  exact ReadsBackIf.inside
    (Bounded.decode_flatMap_if RelativeName.readsBackIf fun _ => element_ne_nil _ _)

theorem canonical : Canonical encode decode := by
  intro b n rest h
  obtain ⟨c, hc, -, rfl⟩ := eq_element_of_inside h
  rw [Bounded.eq_flatMap_of_decode RelativeName.canonical hc, List.append_nil]
  rfl

theorem yields : Yields (fun n => (oids n).all Oid.isReadable) decode := by
  simp only [oids, List.all_flatMap]
  exact (RelativeName.yields.members 3).inside .sequence

end Name

namespace Validity

theorem readsBack : ReadsBack encode decode := by
  apply ReadsBack.inside
  intro v hc
  rw [List.length_append] at hc
  simp only [bind_apply, UtcTime.readsBack v.notBefore (by omega),
    UtcTime.readsBack.whole (a := v.notAfter) (by omega), Option.bind_some, pure_apply]

theorem canonical : Canonical encode decode := by
  intro b v rest h
  obtain ⟨c, hc, -, rfl⟩ := eq_element_of_inside h
  simp only [bind_eq_some_iff, pure_eq_some_iff] at hc
  obtain ⟨notBefore, _, hb, notAfter, _, ha, rfl, rfl⟩ := hc
  rw [UtcTime.canonical _ _ _ hb, UtcTime.canonical _ _ _ ha, List.append_nil]
  rfl

end Validity

namespace AlgorithmId

def oids (a : AlgorithmId) : List Oid := [a.oid]

theorem readsBackIf : ReadsBackIf (fun a => a.oids.all Oid.isReadable) encode decode := by
  apply ReadsBackIf.inside
  intro a hc
  rw [List.length_append] at hc
  have hparameters : optional (fun _ => true) Element.decode
      ((a.parameters.map Element.encode).getD []) = some (a.parameters, []) :=
    optional_last Element.readsBack (fun e => ⟨e.tag, e.content, rfl, rfl⟩) a.parameters (by omega)
  simp only [bind_apply, Oid.readsBackIf a.oid (by omega), bind_if, hparameters, Option.bind_some,
    pure_apply, oids, List.all_cons, List.all_nil, Bool.and_true]

theorem canonical : Canonical encode decode := by
  intro b a rest h
  obtain ⟨c, hc, -, rfl⟩ := eq_element_of_inside h
  simp only [bind_eq_some_iff, pure_eq_some_iff] at hc
  obtain ⟨oid, mid, ho, parameters, _, hp, rfl, rfl⟩ := hc
  rw [Oid.canonical _ _ _ ho]
  rcases optional_eq_some hp with ⟨rfl, rfl⟩ | ⟨e, rfl, he⟩
  · rfl
  · rw [Element.canonical _ _ _ he, List.append_nil]
    rfl

theorem yields : Yields (fun a => a.oids.all Oid.isReadable) decode := by
  apply Yields.inside
  intro c a rest h
  simp only [bind_eq_some_iff, pure_eq_some_iff] at h
  obtain ⟨oid, _, ho, parameters, _, -, rfl, -⟩ := h
  exact (Bool.and_true _).trans (Oid.yields _ _ _ ho)

end AlgorithmId

namespace PublicKeyInfo

def oids (k : PublicKeyInfo) : List Oid := k.algorithm.oids

theorem readsBackIf : ReadsBackIf (fun k => k.oids.all Oid.isReadable) encode decode := by
  apply ReadsBackIf.inside
  intro k hc
  rw [List.length_append] at hc
  simp only [bind_apply, AlgorithmId.readsBackIf k.algorithm (by omega), bind_if,
    BitString.readsBack.whole (a := k.key) (by omega), Option.bind_some, pure_apply]
  rfl

theorem canonical : Canonical encode decode := by
  intro b k rest h
  obtain ⟨c, hc, -, rfl⟩ := eq_element_of_inside h
  simp only [bind_eq_some_iff, pure_eq_some_iff] at hc
  obtain ⟨algorithm, _, ha, key, _, hk, rfl, rfl⟩ := hc
  rw [AlgorithmId.canonical _ _ _ ha, BitString.canonical _ _ _ hk, List.append_nil]
  rfl

theorem yields : Yields (fun k => k.oids.all Oid.isReadable) decode := by
  apply Yields.inside
  intro c k rest h
  simp only [bind_eq_some_iff, pure_eq_some_iff] at h
  obtain ⟨algorithm, _, ha, key, _, -, rfl, -⟩ := h
  exact AlgorithmId.yields _ _ _ ha

end PublicKeyInfo

namespace FirmwareId

def oids (f : FirmwareId) : List Oid := [f.hashAlgorithm]

theorem readsBackIf : ReadsBackIf (fun f => f.oids.all Oid.isReadable) encode decode := by
  apply ReadsBackIf.inside
  intro f hc
  rw [List.length_append] at hc
  simp only [bind_apply, Oid.readsBackIf f.hashAlgorithm (by omega), bind_if,
    OctetString.readsBack.whole (a := f.digest) (by omega), Option.bind_some, pure_apply, oids,
    List.all_cons, List.all_nil, Bool.and_true]

end FirmwareId

namespace CompositeDeviceId

def oids (i : CompositeDeviceId) : List Oid := i.device.oids ++ i.firmware.oids

theorem readsBackIf : ReadsBackIf (fun i => i.oids.all Oid.isReadable) encode decode := by
  apply ReadsBackIf.inside
  intro i hc
  simp only [List.length_append] at hc
  simp only [bind_apply, List.append_assoc, SmallUint.readsBack i.version (by omega),
    Option.bind_some, PublicKeyInfo.readsBackIf i.device (by omega), bind_if,
    FirmwareId.readsBackIf.whole (a := i.firmware) (by omega), if_if, pure_apply, oids,
    List.all_append]

end CompositeDeviceId

end X509

end MeasuredIdentity
