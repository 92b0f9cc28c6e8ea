import MeasuredIdentity.Proofs.NameCodec
import MeasuredIdentity.X509.AlternativeName
import MeasuredIdentity.X509.EcPrivateKey
import MeasuredIdentity.X509.Extension
import MeasuredIdentity.X509.KeyUsage

/-!
Extensions, their values, and private keys are read back from their encodings, where all the object
identifiers in them can be read.
-/
namespace MeasuredIdentity.X509

open Der Decoder

namespace Extension

def oids (e : Extension) : List Oid := [e.oid]

theorem readsBackIf : ReadsBackIf (fun e => e.oids.all Oid.isReadable) encode decode := by
  apply ReadsBackIf.inside
  intro e hc
  simp only [List.length_append] at hc
  have hnext : NextTagIs (· ≠ Tag.boolean) (OctetString.encode e.value ++ []) :=
    nextTagIs_element .octetString (by decide) e.value []
  rw [List.append_nil] at hnext
  simp only [bind_apply, List.append_assoc, Oid.readsBackIf e.oid (by omega), bind_if,
    Boolean.decodeDefault_encodeDefault e.critical hnext, Option.bind_some,
    OctetString.readsBack.whole (a := e.value) (by omega), pure_apply, oids, List.all_cons,
    List.all_nil, Bool.and_true]

theorem yields : Yields (fun e => e.oids.all Oid.isReadable) decode := by
  apply Yields.inside
  intro c e rest h
  simp only [bind_eq_some_iff, pure_eq_some_iff] at h
  obtain ⟨oid, _, ho, critical, _, -, value, _, -, rfl, -⟩ := h
  exact (Bool.and_true _).trans (Oid.yields _ _ _ ho)

end Extension

namespace Extensions

def oids (es : Extensions) : List Oid := es.toList.flatMap Extension.oids

theorem readsBackIf : ReadsBackIf (fun es => (oids es).all Oid.isReadable) encode decode := by
  simp only [oids, List.all_flatMap]
  exact ReadsBackIf.inside
    (Bounded.decode_flatMap_if Extension.readsBackIf fun _ => element_ne_nil _ _)

theorem yields : Yields (fun es => (oids es).all Oid.isReadable) decode := by
  simp only [oids, List.all_flatMap]
  exact (Extension.yields.members maxExtensions).inside .sequence

end Extensions

theorem BasicConstraints.readsBack : ReadsBack encode decode := by
  apply ReadsBack.inside
  intro c hc
  rw [List.length_append] at hc
  have hnext : NextTagIs (· ≠ Tag.boolean) ((c.pathLength.map SmallUint.encode).getD [] ++ []) :=
    nextTagIs_field .integer (by decide) (fun n => (Uint.ofBytes [n]).content)
      c.pathLength (nextTagIs_nil _)
  rw [List.append_nil] at hnext
  have hpath : optional (· = Tag.integer) SmallUint.decode
      ((c.pathLength.map SmallUint.encode).getD []) = some (c.pathLength, []) :=
    optional_last SmallUint.readsBack (fun n => ⟨.integer, _, rfl, by decide⟩) c.pathLength (by omega)
  simp only [bind_apply, Boolean.decodeDefault_encodeDefault c.ca hnext, Option.bind_some, hpath,
    pure_apply]

theorem AuthorityKeyId.readsBack : ReadsBack encode decode := by
  apply ReadsBack.inside
  intro a hc
  have hkey := implicitField_read .zero false (fun k : Bytes => k) (o := a.keyId)
    (fun k _ => rfl) hc (nextTagIs_nil (Tag.EndsSearch .zero))
  rw [List.append_nil] at hkey
  rw [bind_apply, hkey]
  rfl

namespace KeyUsage

/-- Of the two to the ninth sets of flags each is read back. -/
theorem ofBitString?_toBitString (k : KeyUsage) : ofBitString? k.toBitString = some k := by
  obtain ⟨flags⟩ := k
  revert flags
  decide +kernel

theorem readsBack : ReadsBack encode decode := by
  intro k h rest
  simp only [decode, bind_apply, encode, BitString.readsBack k.toBitString h rest,
    Option.bind_some, ofOption_apply, ofBitString?_toBitString, Option.map_some]

end KeyUsage

namespace ExtendedKeyUsage

def oids (u : ExtendedKeyUsage) : List Oid := u.toList

theorem readsBackIf : ReadsBackIf (fun u => (oids u).all Oid.isReadable) encode decode := by
  exact ReadsBackIf.inside
    (Bounded.decode_flatMap_if Oid.readsBackIf (fun o => element_ne_nil _ _))

end ExtendedKeyUsage

namespace OtherName

def oids (n : OtherName) : List Oid := [n.typeId]

theorem all_oids (n : OtherName) : n.oids.all Oid.isReadable = n.typeId.isReadable := Bool.and_true _

theorem decodeContent_content {n : OtherName} (h : n.content.length ≤ maxLength) :
    decodeContent n.content = if n.oids.all Oid.isReadable then some (n, []) else none := by
  rw [content, List.length_append] at h
  have hv : (element (.context .zero true) n.value.encode).length ≤ maxLength := by omega
  have hvalue : inside (.context .zero true) Element.decode
      (element (.context .zero true) n.value.encode ++ []) = some (n.value, []) :=
    inside_element (length_le_of_element hv) (Element.readsBack.whole (length_le_of_element hv)) []
  rw [List.append_nil] at hvalue
  simp only [decodeContent, content, bind_apply, Oid.readsBackIf n.typeId (by omega), bind_if, hvalue,
    Option.bind_some, pure_apply, oids, List.all_cons, List.all_nil, Bool.and_true]

theorem decodeContent_whole_content {n : OtherName} (h : n.content.length ≤ maxLength) :
    decodeContent.whole n.content = if n.oids.all Oid.isReadable then some n else none := by
  rw [Decoder.whole, decodeContent_content h]
  split_ifs <;> rfl

theorem readsBackIf : ReadsBackIf (fun n => n.oids.all Oid.isReadable) encode decode := by
  apply ReadsBackIf.inside
  intro n hc
  exact decodeContent_content hc

end OtherName

namespace SubjectAltName

def oids (n : SubjectAltName) : List Oid := n.otherName.oids

theorem readsBackIf : ReadsBackIf (fun n => n.oids.all Oid.isReadable) encode decode := by
  apply ReadsBackIf.inside
  intro n hc
  have hname := implicitField_readIf .zero true OtherName.content (o := some n.otherName)
    (fun m hm => OtherName.decodeContent_whole_content hm) hc (nextTagIs_nil (Tag.EndsSearch .zero))
  rw [List.append_nil, Option.map_some, Option.getD_some, Option.all_some] at hname
  simp only [bind_apply, required, hname, bind_if, ofOption_apply, Option.map_some, pure_apply]
  rfl

end SubjectAltName

namespace EcPrivateKey

def oids (k : EcPrivateKey) : List Oid := k.parameters.toList

theorem readsBackIf : ReadsBackIf (fun k => k.oids.all Oid.isReadable) encode decode := by
  apply ReadsBackIf.inside
  intro k hc
  simp only [List.length_append] at hc
  have hpublic := explicitField_read .one BitString.readsBack (o := k.publicKey)
    (by omega) (nextTagIs_nil _)
  have hparameters := explicitField_readIf .zero Oid.readsBackIf (o := k.parameters)
    (by omega) (nextTagIs_field (p := Tag.EndsSearch .zero) (.context .one true)
      (Or.inr (by decide)) BitString.encode k.publicKey (nextTagIs_nil _))
  rw [List.append_nil] at hpublic hparameters
  simp only [bind_apply, List.append_assoc, SmallUint.readsBack k.version (by omega),
    OctetString.readsBack k.privateKey (by omega), Option.bind_some, hparameters, bind_if, hpublic,
    pure_apply, oids, all_toList]

end EcPrivateKey

end MeasuredIdentity.X509
