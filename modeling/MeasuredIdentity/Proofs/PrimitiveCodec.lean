import MeasuredIdentity.Der.Primitive
import MeasuredIdentity.Proofs.FieldCodec

/-!
The primitive values are read back from their encodings, except integers without a byte and object
identifiers that are refused. Integers, bit strings, octet strings and object identifiers have one
encoding each; a boolean field with a default has two.
-/
namespace MeasuredIdentity.Der

open Decoder

namespace Boolean

theorem readsBack : ReadsBack encode decode := by
  intro b h rest
  apply primitive_element h
  cases b <;> rfl

theorem decodeDefault_encodeDefault (b : Bool) {rest : Bytes}
    (hrest : NextTagIs (· ≠ Tag.boolean) rest) :
    decodeDefault (encodeDefault b ++ rest) = some (b, rest) := by
  cases b with
  | false =>
    have habsent : NextTagIs (fun t => decide (t = Tag.boolean) = false) rest := by
      rcases hrest with rfl | ⟨tag, c, rest, rfl, ht⟩
      · exact nextTagIs_nil _
      · exact nextTagIs_element tag (decide_eq_false ht) c rest
    rw [decodeDefault, bind_apply]
    simp only [encodeDefault, Bool.false_eq_true, if_false, List.nil_append,
      optional_absent habsent]
    rfl
  | true =>
    have hpresent : optional (· = Tag.boolean) decode (encode true ++ rest) = some (some true, rest) :=
      optional_present (by decide) (readsBack true (by decide) rest)
    rw [decodeDefault, bind_apply]
    simp only [encodeDefault, if_true, hpresent]
    rfl

theorem length_encodeDefault (b : Bool) : (encodeDefault b).length = if b then 3 else 0 := by
  cases b <;> rfl

end Boolean

namespace OctetString

theorem readsBack : ReadsBack encode decode := by
  intro b h rest
  exact content_element (length_le_of_element h) rest

theorem canonical : Canonical encode decode := by
  intro b c rest h
  exact (eq_element_of_content h).1

end OctetString

namespace Uint

theorem ext {u v : Uint} (h : u.magnitude = v.magnitude) : u = v := by
  cases u; cases v; cases h; rfl

theorem isContent_content {u : Uint} (hne : u.magnitude ≠ []) : isContent u.content = true := by
  obtain ⟨m, hm⟩ := u
  match m with
  | [] => exact absurd rfl hne
  | [x] =>
    by_cases hx : x < 0x80
    · simp [content, isContent, hx]
    · simp [content, isContent, hx, UInt8.not_lt.1 hx]
  | x :: y :: rest =>
    have hx0 : x ≠ 0 := fun h => hm y rest (h ▸ rfl)
    by_cases hx : x < 0x80
    · simp [content, isContent, hx, hx0]
    · simp [content, isContent, hx, UInt8.not_lt.1 hx]

theorem strip_content {u : Uint} (hne : u.magnitude ≠ []) : strip u.content = u.magnitude := by
  obtain ⟨m, hm⟩ := u
  match m with
  | [] => exact absurd rfl hne
  | x :: rest =>
    by_cases hx : x < 0x80
    · simp [content, hx, strip_eq_self hm]
    · simp [content, hx, strip, strip_eq_self hm]

theorem ofContent?_content {u : Uint} (hne : u.magnitude ≠ []) :
    ofContent? u.content = some u := by
  rw [ofContent?, if_pos (isContent_content hne)]
  exact congrArg some (ext (strip_content hne))

theorem content_of_ofContent? {c : Bytes} {u : Uint} (h : ofContent? c = some u) :
    u.content = c := by
  unfold ofContent? at h
  split_ifs at h with hc
  cases h
  match c with
  | [] => simp [isContent] at hc
  | [x] =>
    have hx : x < 0x80 := by simpa [isContent] using hc
    simp [content, ofBytes, strip, hx]
  | x :: y :: rest =>
    by_cases hx : x = 0
    · subst hx
      have hy : 0x80 ≤ y := by simpa [isContent] using hc
      have hy0 : y ≠ 0 := by rintro rfl; exact absurd hy (by decide)
      have hs : strip (0 :: y :: rest) = y :: rest := by
        rw [strip, strip_eq_self (by intro x t heq; cases heq; exact hy0 rfl)]
      simp [content, ofBytes, hs, UInt8.not_lt.2 hy]
    · have hlt : x < 0x80 := by simpa [isContent, hx] using hc
      have hs : strip (x :: y :: rest) = x :: y :: rest :=
        strip_eq_self (by intro z t heq; cases heq; exact hx rfl)
      simp [content, ofBytes, hs, hlt]

theorem magnitude_ne_nil_of_ofContent? {c : Bytes} {u : Uint} (h : ofContent? c = some u) :
    u.magnitude ≠ [] := by
  intro hnil
  have hc := content_of_ofContent? h
  rw [content, hnil] at hc
  subst hc
  simp [ofContent?, isContent] at h

theorem decode_encode {u : Uint} (hne : u.magnitude ≠ []) (h : u.encode.length ≤ maxLength)
    (rest : Bytes) : decode (u.encode ++ rest) = some (u, rest) :=
  primitive_element h (ofContent?_content hne) rest

/-- An integer without a byte is written as an empty element, which is no integer. -/
theorem decode_encode_eq_none {u : Uint} (h : u.magnitude = []) (rest : Bytes) :
    decode (u.encode ++ rest) = none := by
  have hcontent : u.content = [] := by rw [content, h]
  have hread : Der.content .integer (element .integer [] ++ rest) = some ([], rest) :=
    content_element (show ([] : Bytes).length ≤ maxLength from Nat.zero_le _) rest
  rw [encode, hcontent, decode, bind_apply, hread]
  rfl

/-- Whether the integer has a byte. -/
def hasValue (u : Uint) : Bool := decide (u.magnitude ≠ [])

theorem readsBackIf : ReadsBackIf hasValue encode decode := by
  intro u h rest
  unfold hasValue
  by_cases hne : u.magnitude = []
  · rw [decode_encode_eq_none hne, if_neg (by simpa using hne)]
  · rw [decode_encode hne h, if_pos (decide_eq_true hne)]

theorem canonical : Canonical encode decode := by
  intro b u rest h
  obtain ⟨c, hc, -, rfl⟩ := eq_element_of_primitive h
  rw [encode, content_of_ofContent? hc]

theorem magnitude_ne_nil_of_decode {b rest : Bytes} {u : Uint} (h : decode b = some (u, rest)) :
    u.magnitude ≠ [] := by
  obtain ⟨c, hc, -, -⟩ := eq_element_of_primitive h
  exact magnitude_ne_nil_of_ofContent? hc

/-- A sign byte is all that the content adds to the magnitude. -/
theorem length_content_le (u : Uint) : u.content.length ≤ u.magnitude.length + 1 := by
  unfold content
  split
  · split <;> simp_all
  · simp

end Uint

namespace SmallUint

theorem magnitude_ofBytes (n : UInt8) : (Uint.ofBytes [n]).magnitude = [n] := by
  simp [Uint.ofBytes, Uint.strip]

theorem readsBack : ReadsBack encode decode := by
  intro n h rest
  rw [decode, bind_apply]
  simp only [encode, Uint.decode_encode (u := .ofBytes [n]) (by simp [magnitude_ofBytes]) h,
    Option.bind_some, ofOption_apply, ofUint?, magnitude_ofBytes, Option.map_some]

theorem canonical : Canonical encode decode := by
  intro b n rest h
  obtain ⟨u, mid, hu, h⟩ := bind_eq_some_iff.1 h
  obtain ⟨hn, rfl⟩ := ofOption_eq_some_iff.1 h
  have hm : u.magnitude = [n] := by
    unfold ofUint? at hn
    split at hn <;> simp_all
  have hu' : u = Uint.ofBytes [n] := Uint.ext (by rw [hm, magnitude_ofBytes])
  rw [encode, ← hu']
  exact Uint.canonical _ _ _ hu

end SmallUint

namespace BitString

theorem ofContent?_content (s : BitString) : ofContent? s.content = some s := by
  obtain ⟨unused, bytes, hle, hempty⟩ := s
  have hu : unused % 256 = unused := by omega
  simpa [content, ofContent?, hu, hle] using hempty

theorem content_of_ofContent? {c : Bytes} {s : BitString} (h : ofContent? c = some s) :
    s.content = c := by
  match c with
  | [] => simp [ofContent?] at h
  | u :: b =>
    simp only [ofContent?] at h
    split_ifs at h
    cases h
    simp [content]

theorem readsBack : ReadsBack encode decode := by
  intro s h rest
  exact primitive_element h (ofContent?_content s) rest

theorem canonical : Canonical encode decode := by
  intro b s rest h
  obtain ⟨c, hc, -, rfl⟩ := eq_element_of_primitive h
  rw [encode, content_of_ofContent? hc]

end BitString

namespace Oid

theorem content_of_ofContent? {c : Bytes} {o : Oid} (h : ofContent? c = some o) : o.content = c := by
  unfold ofContent? at h
  split_ifs at h
  cases h
  rfl

theorem isReadable_of_ofContent? {c : Bytes} {o : Oid} (h : ofContent? c = some o) :
    o.isReadable = true := by
  unfold ofContent? at h
  split_ifs at h with hc
  cases h
  exact hc

/-- An identifier is read back if its content is one that is read. -/
theorem readsBackIf : ReadsBackIf isReadable encode decode := by
  intro o h rest
  simp only [decode, encode, bind_apply, content_element (length_le_of_element h), Option.bind_some,
    ofOption_apply, ofContent?_content, map_if]

theorem canonical : Canonical encode decode := by
  intro b o rest h
  obtain ⟨c, hc, -, rfl⟩ := eq_element_of_primitive h
  rw [encode, content_of_ofContent? hc]

theorem yields : Yields isReadable decode := by
  intro b o rest h
  obtain ⟨c, hc, -, -⟩ := eq_element_of_primitive h
  exact isReadable_of_ofContent? hc

end Oid

end MeasuredIdentity.Der
