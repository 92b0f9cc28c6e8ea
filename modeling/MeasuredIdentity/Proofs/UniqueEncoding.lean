import MeasuredIdentity.Proofs.CertificateCodec

/-!
What is written determines the value that it was written for, also where it is refused when it is read.
No encoding is the beginning of another one, since every value is written as one element; inside an
element the parts are told apart one after the other.
-/
namespace MeasuredIdentity

namespace Der

open Decoder

variable {α β : Type} {enc : α → Bytes} {enc' : β → Bytes}

/-- Values with the same encoding are equal. -/
def Distinct (enc : α → Bytes) : Prop := ∀ a b, (enc a).length ≤ maxLength → enc a = enc b → a = b

/-- Values whose encodings begin the same byte string are equal. -/
def Unambiguous (enc : α → Bytes) : Prop :=
  ∀ a b, (enc a).length ≤ maxLength → (enc b).length ≤ maxLength →
    ∀ r s, enc a ++ r = enc b ++ s → a = b ∧ r = s

theorem Unambiguous.distinct (h : Unambiguous enc) : Distinct enc := by
  intro a b hlen heq
  exact (h a b hlen (heq ▸ hlen) [] [] (by rw [heq])).1

theorem Distinct.comp (h : Distinct enc) {f : β → α} (hf : Function.Injective f) :
    Distinct fun b => enc (f b) :=
  fun _ _ hlen heq => hf (h _ _ hlen heq)

theorem Unambiguous.append (h : Unambiguous enc) (h' : Unambiguous enc') :
    Unambiguous fun p : α × β => enc p.1 ++ enc' p.2 := by
  rintro ⟨a, a'⟩ ⟨b, b'⟩ ha hb r s heq
  simp only [List.length_append, List.append_assoc] at ha hb heq
  obtain ⟨hfirst, htail⟩ := h a b (by omega) (by omega) _ _ heq
  obtain ⟨hsecond, hrest⟩ := h' a' b' (by omega) (by omega) _ _ htail
  exact ⟨Prod.ext hfirst hsecond, hrest⟩

theorem Unambiguous.append_distinct (h : Unambiguous enc) (h' : Distinct enc') :
    Distinct fun p : α × β => enc p.1 ++ enc' p.2 := by
  rintro ⟨a, a'⟩ ⟨b, b'⟩ ha heq
  have hb := congrArg List.length heq
  simp only [List.length_append] at ha hb
  obtain ⟨hfirst, htail⟩ := h a b (by omega) (by omega) _ _ heq
  exact Prod.ext hfirst (h' a' b' (by omega) htail)

/-- Reading the same bytes gives the same value. -/
theorem eq_of_decode {dec : Decoder α} {b b' r s : Bytes} {a a' : α} (h : dec b = some (a, r))
    (h' : dec b' = some (a', s)) (heq : b = b') : a = a' ∧ r = s := by
  rw [heq, h', Option.some.injEq, Prod.mk.injEq] at h
  exact ⟨h.1.symm, h.2.symm⟩

theorem ReadsBack.unambiguous {dec : Decoder α} (h : ReadsBack enc dec) : Unambiguous enc :=
  fun a b ha hb r s heq => eq_of_decode (h a ha r) (h b hb s) heq

/-- An element is told apart by its content. -/
theorem Distinct.element (tag : Tag) (h : Distinct enc) : Unambiguous fun a => element tag (enc a) := by
  intro a b ha hb r s heq
  obtain ⟨helement, hrest⟩ := Element.readsBack.unambiguous ⟨tag, enc a⟩ ⟨tag, enc b⟩ ha hb r s heq
  exact ⟨h a b (length_le_of_element ha) (congrArg Element.content helement), hrest⟩

theorem Distinct.flatMap {n : ℕ} (h : Unambiguous enc) (hne : ∀ a, enc a ≠ []) :
    Distinct fun xs : Bounded n α => xs.toList.flatMap enc := by
  rintro ⟨xs, hxs⟩ ⟨ys, hys⟩ hlen heq
  apply Bounded.ext
  dsimp only at hlen heq ⊢
  clear hxs hys
  induction xs generalizing ys with
  | nil =>
    cases ys with
    | nil => rfl
    | cons y ys => exact absurd (List.append_eq_nil_iff.1 heq.symm).1 (hne y)
  | cons x xs ih =>
    cases ys with
    | nil => exact absurd (List.append_eq_nil_iff.1 heq).1 (hne x)
    | cons y ys =>
      have hlen' := congrArg List.length heq
      simp only [List.flatMap_cons, List.length_append] at hlen hlen' heq
      obtain ⟨rfl, htail⟩ := h x y (by omega) (by omega) _ _ heq
      rw [ih ys (by omega) htail]

section ContextFields

variable (number : FieldNumber) (constructed : Bool)

theorem Distinct.field (h : Distinct enc) :
    Distinct fun o : Option α =>
      (o.map fun a => Der.element (.context number constructed) (enc a)).getD [] := by
  rintro (_ | a) (_ | b) hlen heq
  · rfl
  · exact absurd heq.symm (element_ne_nil _ _)
  · exact absurd heq (element_ne_nil _ _)
  · rw [(Distinct.element _ h).distinct a b hlen heq]

/-- A field that may be absent is told apart from what ends the search for it. -/
theorem Distinct.field_append (h : Distinct enc) (h' : Distinct enc')
    (hnext : ∀ b, NextTagIs (Tag.EndsSearch number) (enc' b)) :
    Distinct fun p : Option α × β =>
      (p.1.map fun a => Der.element (.context number constructed) (enc a)).getD [] ++ enc' p.2 := by
  rintro ⟨o, b⟩ ⟨o', b'⟩ hlen heq
  have hlen' := congrArg List.length heq
  simp only [List.length_append] at hlen hlen'
  obtain ⟨hfield, htail⟩ := eq_of_decode
    (contextElement_field number constructed enc (o := o) (by omega) (hnext b))
    (contextElement_field number constructed enc (o := o') (by omega) (hnext b')) heq
  have hencode := congrArg (fun e => (e.map Element.encode).getD []) hfield
  simp only [Option.map_map] at hencode
  exact Prod.ext (h.field number constructed o o' (by dsimp only; omega) hencode)
    (h' b b' (by omega) htail)

end ContextFields

theorem Uint.content_injective : Function.Injective content := by
  intro u v h
  have hne {w w' : Uint} (h : w.content = w'.content) (hw : w.magnitude = []) : w'.magnitude = [] := by
    by_contra hne
    have hcontent := isContent_content hne
    rw [← h, content, hw] at hcontent
    cases hcontent
  apply Uint.ext
  by_cases hu : u.magnitude = []
  · rw [hu, hne h hu]
  · have hv : v.magnitude ≠ [] := fun hv => hu (hne h.symm hv)
    rw [← strip_content hu, ← strip_content hv, h]

theorem Uint.unambiguous : Unambiguous encode :=
  Distinct.element .integer fun _ _ _ h => Uint.content_injective h

theorem Oid.unambiguous : Unambiguous encode := by
  apply Distinct.element
  rintro ⟨content, hvalid⟩ ⟨content', hvalid'⟩ - rfl
  rfl

theorem BitString.distinct_content : Distinct content := by
  intro s t _ h
  have hs := ofContent?_content s
  rw [h, ofContent?_content] at hs
  exact (Option.some.inj hs).symm

/-- A boolean that is left out is told apart by the octet string behind it. -/
theorem Boolean.unambiguous_encodeDefault :
    Unambiguous fun p : Bool × Bytes => encodeDefault p.1 ++ OctetString.encode p.2 := by
  rintro ⟨x, b⟩ ⟨x', b'⟩ hlen hlen' r s heq
  simp only [List.length_append, List.append_assoc] at hlen hlen' heq
  have hread (x : Bool) (b r : Bytes) := decodeDefault_encodeDefault x
    (nextTagIs_element (p := (· ≠ Tag.boolean)) .octetString (by decide) b r)
  obtain ⟨hx, hb⟩ := eq_of_decode (hread x b r) (hread x' b' s) heq
  obtain ⟨hb, hrest⟩ :=
    OctetString.readsBack.unambiguous b b' (by omega) (by omega) r s hb
  exact ⟨Prod.ext hx hb, hrest⟩

theorem Element.distinct_optional : Distinct fun o : Option Element => (o.map encode).getD [] := by
  intro o p hlen heq
  have hread (o : Option Element) (hlen : ((o.map encode).getD []).length ≤ maxLength) :
      optional (fun _ => true) decode ((o.map encode).getD []) = some (o, []) :=
    optional_last Element.readsBack (fun e => ⟨e.tag, e.content, rfl, rfl⟩) o hlen
  exact (eq_of_decode (hread o hlen) (hread p ((congrArg List.length heq).ge.trans hlen)) heq).1

end Der

namespace X509

open Der Decoder

theorem Attribute.unambiguous : Unambiguous encode :=
  Distinct.element .sequence
    ((Oid.unambiguous.append_distinct Element.readsBack.unambiguous.distinct).comp
      (f := fun a : Attribute => (a.oid, a.value)) (by rintro ⟨⟩ ⟨⟩ ⟨⟩; rfl))

theorem RelativeName.unambiguous : Unambiguous encode :=
  Distinct.element .set (Distinct.flatMap Attribute.unambiguous fun _ => element_ne_nil _ _)

theorem Name.unambiguous : Unambiguous encode :=
  Distinct.element .sequence (Distinct.flatMap RelativeName.unambiguous fun _ => element_ne_nil _ _)

theorem AlgorithmId.unambiguous : Unambiguous encode :=
  Distinct.element .sequence
    ((Oid.unambiguous.append_distinct Element.distinct_optional).comp
      (f := fun a : AlgorithmId => (a.oid, a.parameters)) (by rintro ⟨⟩ ⟨⟩ ⟨⟩; rfl))

theorem PublicKeyInfo.unambiguous : Unambiguous encode :=
  Distinct.element .sequence
    ((AlgorithmId.unambiguous.append_distinct BitString.readsBack.unambiguous.distinct).comp
      (f := fun k : PublicKeyInfo => (k.algorithm, k.key)) (by rintro ⟨⟩ ⟨⟩ ⟨⟩; rfl))

theorem FirmwareId.unambiguous : Unambiguous encode :=
  Distinct.element .sequence
    ((Oid.unambiguous.append_distinct OctetString.readsBack.unambiguous.distinct).comp
      (f := fun f : FirmwareId => (f.hashAlgorithm, f.digest)) (by rintro ⟨⟩ ⟨⟩ ⟨⟩; rfl))

theorem CompositeDeviceId.unambiguous : Unambiguous encode :=
  Distinct.element .sequence
    (((SmallUint.readsBack.unambiguous.append PublicKeyInfo.unambiguous).append_distinct
      FirmwareId.unambiguous.distinct).comp
      (f := fun i : CompositeDeviceId => ((i.version, i.device), i.firmware))
      (by rintro ⟨⟩ ⟨⟩ ⟨⟩; rfl))

theorem Extension.unambiguous : Unambiguous encode := by
  have hcontent := (Oid.unambiguous.append_distinct Boolean.unambiguous_encodeDefault.distinct).comp
    (f := fun e : Extension => (e.oid, e.critical, e.value)) (by rintro ⟨⟩ ⟨⟩ ⟨⟩; rfl)
  simp only [← List.append_assoc] at hcontent
  exact Distinct.element .sequence hcontent

theorem Extensions.unambiguous : Unambiguous encode :=
  Distinct.element .sequence (Distinct.flatMap Extension.unambiguous fun _ => element_ne_nil _ _)

theorem ExtendedKeyUsage.unambiguous : Unambiguous encode :=
  Distinct.element .sequence (Distinct.flatMap Oid.unambiguous fun _ => element_ne_nil _ _)

theorem OtherName.distinct_content : Distinct content :=
  (Oid.unambiguous.append_distinct
    (Distinct.element (.context .zero true) Element.readsBack.unambiguous.distinct).distinct).comp
    (f := fun n : OtherName => (n.typeId, n.value)) (by rintro ⟨⟩ ⟨⟩ ⟨⟩; rfl)

theorem OtherName.unambiguous : Unambiguous encode := Distinct.element .sequence distinct_content

theorem SubjectAltName.unambiguous : Unambiguous encode :=
  Distinct.element .sequence
    ((Distinct.element (.context .zero true) OtherName.distinct_content).distinct.comp
      (f := SubjectAltName.otherName) (by rintro ⟨⟩ ⟨⟩ ⟨⟩; rfl))

theorem EcPrivateKey.unambiguous : Unambiguous encode := by
  have hpublic := Distinct.field .one true BitString.readsBack.unambiguous.distinct
  have hfields := Oid.unambiguous.distinct.field_append .zero true hpublic fun b => by
    simpa using nextTagIs_field (.context .one true) (Or.inr (by decide)) BitString.encode b
      (nextTagIs_nil (Tag.EndsSearch .zero))
  have hcontent := ((SmallUint.readsBack.unambiguous.append
    OctetString.readsBack.unambiguous).append_distinct hfields).comp
    (f := fun k : EcPrivateKey => ((k.version, k.privateKey), k.parameters, k.publicKey))
    (by rintro ⟨⟩ ⟨⟩ ⟨⟩; rfl)
  simp only [← List.append_assoc] at hcontent
  exact Distinct.element .sequence hcontent

/-- A version that is left out is told apart by the serial number behind it. -/
theorem Version.unambiguous_encodeDefault :
    Unambiguous fun p : Version × Uint => p.1.encodeDefault ++ p.2.encode := by
  rintro ⟨v, u⟩ ⟨v', u'⟩ hlen hlen' r s heq
  simp only [List.length_append, List.append_assoc] at hlen hlen' heq
  obtain ⟨hv, hu⟩ := eq_of_decode (decodeDefault_before_uint v (by omega) u r)
    (decodeDefault_before_uint v' (by omega) u' s) heq
  obtain ⟨hu, hrest⟩ := Uint.unambiguous u u' (by omega) (by omega) r s hu
  exact ⟨Prod.ext hv hu, hrest⟩

namespace TbsCertificate

/-- The fields behind the key are told apart by their numbers. -/
theorem distinct_fields : Distinct fun p : Option BitString × Option BitString × Option Extensions =>
    (p.1.map fun s => element (.context .one false) s.content).getD []
      ++ ((p.2.1.map fun s => element (.context .two false) s.content).getD []
      ++ (p.2.2.map fun es => element (.context .three true) (Extensions.encode es)).getD []) := by
  have hthird {p : Tag → Prop} (hp : p (.context .three true)) (es : Option Extensions) :
      NextTagIs p ((es.map fun es => element (.context .three true) (Extensions.encode es)).getD []) := by
    simpa using nextTagIs_field (.context .three true) hp Extensions.encode es (nextTagIs_nil p)
  have hsubjectId := BitString.distinct_content.field_append .two false
    (Extensions.unambiguous.distinct.field .three true) (hthird (Or.inr (by decide)))
  exact BitString.distinct_content.field_append .one false hsubjectId fun p =>
    nextTagIs_field (.context .two false) (Or.inr (by decide)) BitString.content p.1
      (hthird (Or.inr (by decide)) p.2)

theorem unambiguous : Unambiguous encode := by
  have hfront := ((((Version.unambiguous_encodeDefault.append AlgorithmId.unambiguous).append
    Name.unambiguous).append Validity.readsBack.unambiguous).append Name.unambiguous).append
    PublicKeyInfo.unambiguous
  have hcontent := (hfront.append_distinct distinct_fields).comp
    (f := fun t : TbsCertificate => (((((((t.version, t.serial), t.signature), t.issuer), t.validity),
      t.subject), t.publicKey), t.issuerId, t.subjectId, t.extensions)) (by rintro ⟨⟩ ⟨⟩ ⟨⟩; rfl)
  simp only [← List.append_assoc] at hcontent
  exact Distinct.element .sequence hcontent

end TbsCertificate

theorem Certificate.unambiguous : Unambiguous encode :=
  Distinct.element .sequence
    (((TbsCertificate.unambiguous.append AlgorithmId.unambiguous).append_distinct
      BitString.readsBack.unambiguous.distinct).comp
      (f := fun c : Certificate => ((c.tbs, c.algorithm), c.signature)) (by rintro ⟨⟩ ⟨⟩ ⟨⟩; rfl))

theorem RequestAttribute.unambiguous : Unambiguous encode :=
  Distinct.element .sequence
    ((Oid.unambiguous.append_distinct (Distinct.element .set
      (Distinct.flatMap Element.readsBack.unambiguous fun e => element_ne_nil e.tag e.content)).distinct
      ).comp (f := fun a : RequestAttribute => (a.oid, a.values)) (by rintro ⟨⟩ ⟨⟩ ⟨⟩; rfl))

theorem RequestInfo.unambiguous : Unambiguous encode := by
  have hattributes := (Distinct.element (.context .zero true)
    (Distinct.flatMap (n := 1) RequestAttribute.unambiguous fun _ => element_ne_nil _ _)).distinct
  have hversion : Unambiguous fun _ : Unit => SmallUint.encode 0 :=
    fun _ _ _ _ _ _ heq => ⟨rfl, List.append_cancel_left heq⟩
  exact Distinct.element .sequence
    ((((hversion.append Name.unambiguous).append PublicKeyInfo.unambiguous).append_distinct
      hattributes).comp
      (f := fun i : RequestInfo => ((((), i.subject), i.publicKey), i.attributes))
      (by rintro ⟨⟩ ⟨⟩ ⟨⟩; rfl))

theorem Request.unambiguous : Unambiguous encode :=
  Distinct.element .sequence
    (((RequestInfo.unambiguous.append AlgorithmId.unambiguous).append_distinct
      BitString.readsBack.unambiguous.distinct).comp
      (f := fun r : Request => ((r.info, r.algorithm), r.signature)) (by rintro ⟨⟩ ⟨⟩ ⟨⟩; rfl))

end X509

end MeasuredIdentity
