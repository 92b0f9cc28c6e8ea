import MeasuredIdentity.Proofs.NameCodec
import MeasuredIdentity.X509.Request

/-!
A request has one encoding: what is read as a request is its encoding, and the encoding of its
first part is the slice of the received bytes that holds that part.
-/
namespace MeasuredIdentity

namespace Der

open Decoder

variable {α : Type}

/-- A required field with the number zero is an element with its tag. -/
theorem eq_element_of_required_zero {constructed : Bool} {ofContent : Bytes → Option α}
    {b rest : Bytes} {a : α}
    (h : required (implicitField .zero constructed ofContent) b = some (a, rest)) :
    ∃ c, ofContent c = some a ∧ b = element (.context .zero constructed) c ++ rest := by
  obtain ⟨o, mid, ho, h⟩ := bind_eq_some_iff.1 h
  obtain ⟨rfl, rfl⟩ := ofOption_eq_some_iff.1 h
  obtain ⟨gap, hgap, ⟨hnone, -⟩ | ⟨a', c, ha', hc, hb⟩⟩ := eq_of_implicitField ho
  · cases hnone
  · obtain rfl := Option.some.inj ha'
    obtain rfl := eq_nil_of_passedOver_zero hgap
    exact ⟨c, hc, hb⟩

/-- The bytes of the first member of the value that a byte string starts with. -/
def firstMember? (b : Bytes) : Option Bytes := do
  let (value, _) ← Element.decode b
  let (_, rest) ← Element.decode value.content
  return value.content.take (value.content.length - rest.length)

theorem firstMember?_element {tag tag' : Tag} {c rest : Bytes}
    (h : (element tag' c ++ rest).length ≤ maxLength) :
    firstMember? (element tag (element tag' c ++ rest)) = some (element tag' c) := by
  have houter := Element.decode_encode (e := ⟨tag, element tag' c ++ rest⟩) h []
  have hc : c.length ≤ maxLength := by
    rw [List.length_append, length_element] at h
    omega
  have hinner := Element.decode_encode (e := ⟨tag', c⟩) hc rest
  rw [List.append_nil] at houter
  rw [firstMember?, element, houter]
  simp only [Option.bind_eq_bind, Option.bind_some, element, hinner, Option.pure_def,
    List.length_append, Nat.add_sub_cancel, List.take_left']

end Der

namespace X509

open Der Decoder

theorem RequestAttribute.canonical : Canonical encode decode := by
  intro b a rest h
  obtain ⟨c, hc, -, rfl⟩ := eq_element_of_inside h
  simp only [bind_eq_some_iff, pure_eq_some_iff] at hc
  obtain ⟨oid, _, ho, values, _, hv, rfl, rfl⟩ := hc
  obtain ⟨members, hm, -, rfl⟩ := eq_element_of_inside hv
  rw [Oid.canonical _ _ _ ho, Bounded.eq_flatMap_of_decode Element.canonical hm, List.append_nil,
    List.append_nil]
  rfl

theorem RequestInfo.canonical : Canonical encode decode := by
  intro b i rest h
  obtain ⟨c, hc, -, rfl⟩ := eq_element_of_inside h
  simp only [bind_eq_some_iff, pure_eq_some_iff, check_eq_some_iff] at hc
  obtain ⟨version, _, hversion, _, _, ⟨rfl, rfl⟩, subject, _, hs, key, _, hk, attributes, _, ha,
    rfl, rfl⟩ := hc
  obtain ⟨members, hm, rfl⟩ := eq_element_of_required_zero ha
  rw [SmallUint.canonical _ _ _ hversion, Name.canonical _ _ _ hs, PublicKeyInfo.canonical _ _ _ hk,
    Bounded.eq_flatMap_of_decode RequestAttribute.canonical (whole_eq_some_iff.1 hm)]
  simp only [List.append_nil, encode, List.append_assoc]

/-- What is read as a request consists of the encodings of its three parts. -/
theorem Request.content_of_decode {b rest : Bytes} {r : Request} (h : decode b = some (r, rest)) :
    b = r.encode ++ rest ∧
      (r.info.encode ++ (r.algorithm.encode ++ r.signature.encode)).length ≤ maxLength := by
  obtain ⟨c, hc, hlen, rfl⟩ := eq_element_of_inside h
  simp only [bind_eq_some_iff, pure_eq_some_iff] at hc
  obtain ⟨info, _, hi, algorithm, _, ha, signature, _, hs, rfl, rfl⟩ := hc
  have hcontent := RequestInfo.canonical _ _ _ hi
  rw [AlgorithmId.canonical _ _ _ ha, BitString.canonical _ _ _ hs, List.append_nil] at hcontent
  subst hcontent
  refine ⟨?_, hlen⟩
  simp only [encode, List.append_assoc]

theorem Request.firstMember?_encode {r : Request}
    (h : (r.info.encode ++ (r.algorithm.encode ++ r.signature.encode)).length ≤ maxLength) :
    firstMember? r.encode = some r.info.encode := by
  rw [encode, List.append_assoc]
  exact firstMember?_element h

end X509

end MeasuredIdentity
