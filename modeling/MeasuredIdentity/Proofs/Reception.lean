import MeasuredIdentity.Proofs.EncodingSize

/-!
What a decoder receives besides the value it gives. Some decoders accept bytes that the encoding of
the value does not have: a default that is written out, or an element that the search for a field
passes over. A reception relates a value to the byte strings that hold it and to the elements in
them that the value does not keep.
-/
namespace MeasuredIdentity.Der

open Decoder

/-- Relates a value, the surplus elements, and the bytes that hold both. -/
abbrev Reception (α : Type) := α → List Element → Bytes → Prop

namespace Reception

variable {α : Type}

/-- Without surplus the bytes are the encoding, and each surplus element makes them longer. -/
structure Extends (r : Reception α) (enc : α → Bytes) : Prop where
  eq_encode : ∀ {a b}, r a [] b → b = enc a
  length_le : ∀ {a surplus b}, r a surplus b → (enc a).length + surplus.length ≤ b.length

/-- All that the decoder takes off the front of a byte string is received in this way. -/
def Covers (r : Reception α) (dec : Decoder α) : Prop :=
  ∀ b a rest, dec b = some (a, rest) → ∃ surplus front, r a surplus front ∧ b = front ++ rest

/-- Received as its encoding and nothing else. -/
def plain (enc : α → Bytes) : Reception α := fun a surplus b => surplus = [] ∧ b = enc a

/-- Received inside an element. -/
def inside (tag : Tag) (r : Reception α) : Reception α :=
  fun a surplus b => ∃ c, r a surplus c ∧ b = element tag c

/-- A field with a default: left out, or written as an element, which is surplus for the default. -/
inductive defaulted (a₀ : α) (field : α → Element) : Reception α
  | leftOut : defaulted a₀ field a₀ [] []
  | written (a : α) (h : a ≠ a₀) : defaulted a₀ field a [] (field a).encode
  | writtenOut : defaulted a₀ field a₀ [field a₀] (field a₀).encode

/-- An optional context-specific field, behind the elements that the search for it passes over. -/
inductive behind (number : FieldNumber) (constructed : Bool) (r : Reception α) :
    Reception (Option α)
  | absent (gap : List Element) (h : ∀ e ∈ gap, PassedOver number e) :
      behind number constructed r none gap (gap.flatMap Element.encode)
  | present (gap : List Element) (h : ∀ e ∈ gap, PassedOver number e) {a : α}
      {surplus : List Element} {c : Bytes} (ha : r a surplus c) :
      behind number constructed r (some a) (gap ++ surplus)
        (gap.flatMap Element.encode ++ element (.context number constructed) c)

/-- Members one after the other. -/
inductive members (r : Reception α) : Reception (List α)
  | nil : members r [] [] []
  | cons {a : α} {as : List α} {surplus surplus' : List Element} {b b' : Bytes}
      (ha : r a surplus b) (has : members r as surplus' b') :
      members r (a :: as) (surplus ++ surplus') (b ++ b')

/-- An encoding as long as the bytes is the bytes exactly if there is no surplus. -/
theorem Extends.encode_eq_iff {r : Reception α} {enc : α → Bytes} (hr : r.Extends enc) {a : α}
    {surplus : List Element} {b : Bytes} (h : r a surplus b) : enc a = b ↔ surplus = [] := by
  constructor
  · intro heq
    have hlen := hr.length_le h
    rw [heq] at hlen
    exact List.eq_nil_of_length_eq_zero (by omega)
  · rintro rfl
    exact (hr.eq_encode h).symm

theorem extends_plain (enc : α → Bytes) : (plain enc).Extends enc where
  eq_encode := fun h => h.2
  length_le := by
    rintro a _ _ ⟨rfl, rfl⟩
    exact le_rfl

theorem extends_inside (tag : Tag) {r : Reception α} {content : α → Bytes} (hr : r.Extends content) :
    (inside tag r).Extends fun a => element tag (content a) where
  eq_encode := by
    rintro a _ ⟨c, hc, rfl⟩
    rw [hr.eq_encode hc]
  length_le := by
    rintro a surplus _ ⟨c, hc, rfl⟩
    rw [length_element_eq, length_element_eq]
    exact (elementSize_add_le _ _).trans (elementSize_mono (hr.length_le hc))

theorem covers_inside (tag : Tag) {r : Reception α} {dec : Decoder α} (hr : r.Covers dec) :
    (inside tag r).Covers (Der.inside tag dec) := by
  intro b a rest hb
  obtain ⟨c, hc, -, rfl⟩ := eq_element_of_inside hb
  obtain ⟨surplus, front, ha, rfl⟩ := hr _ _ _ hc
  rw [List.append_nil]
  exact ⟨surplus, _, ⟨front, ha, rfl⟩, rfl⟩

theorem one_le_length_encode (e : Element) : 1 ≤ e.encode.length := by
  rw [Element.length_encode]
  omega

theorem extends_defaulted [DecidableEq α] (a₀ : α) (field : α → Element) :
    (defaulted a₀ field).Extends fun a => if a = a₀ then [] else (field a).encode where
  eq_encode := by
    intro a b h
    cases h with
    | leftOut => rw [if_pos rfl]
    | written _ h => rw [if_neg h]
  length_le := by
    intro a surplus b h
    cases h with
    | leftOut => simp
    | written _ h => simp [h]
    | writtenOut => simpa using one_le_length_encode (field a₀)

theorem covers_defaulted {a₀ : α} {field : α → Element} {dec : Decoder (Option α)}
    (h : ∀ b o rest, dec b = some (o, rest) →
      (o = none ∧ b = rest) ∨ ∃ a, o = some a ∧ b = (field a).encode ++ rest) :
    (defaulted a₀ field).Covers (do return (← dec).getD a₀) := by
  intro b a rest hb
  simp only [bind_eq_some_iff, pure_eq_some_iff] at hb
  obtain ⟨o, _, ho, rfl, rfl⟩ := hb
  obtain ⟨rfl, rfl⟩ | ⟨a, rfl, rfl⟩ := h _ _ _ ho
  · exact ⟨[], [], .leftOut, rfl⟩
  · by_cases ha : a = a₀
    · subst ha
      exact ⟨_, _, .writtenOut, rfl⟩
    · exact ⟨_, _, .written a ha, rfl⟩

theorem length_gap_le (gap : List Element) : gap.length ≤ (gap.flatMap Element.encode).length := by
  induction gap with
  | nil => exact le_rfl
  | cons e gap ih =>
    have he := one_le_length_encode e
    rw [List.flatMap_cons, List.length_append, List.length_cons]
    omega

theorem extends_behind (number : FieldNumber) (constructed : Bool) {r : Reception α}
    {content : α → Bytes} (hr : r.Extends content) :
    (behind number constructed r).Extends
      fun o => (o.map fun a => element (.context number constructed) (content a)).getD [] where
  eq_encode := by
    intro o b h
    generalize hs : ([] : List Element) = surplus at h
    cases h with
    | absent gap h => subst hs; rfl
    | present gap h ha =>
      obtain ⟨rfl, rfl⟩ := List.append_eq_nil_iff.1 hs.symm
      rw [hr.eq_encode ha]
      rfl
  length_le := by
    intro o surplus b h
    cases h with
    | absent => simpa using length_gap_le surplus
    | @present gap h a surplus c ha =>
      have hinside := (extends_inside (.context number constructed) hr).length_le ⟨c, ha, rfl⟩
      have hgap := length_gap_le gap
      simp only [Option.map_some, Option.getD_some, List.length_append]
      omega

theorem covers_behind_explicit (number : FieldNumber) {r : Reception α} {dec : Decoder α}
    (hr : r.Covers dec) : (behind number true r).Covers (explicitField number dec) := by
  intro b o rest hb
  obtain ⟨gap, hgap, ⟨rfl, rfl⟩ | ⟨a, c, rfl, hc, rfl⟩⟩ := eq_of_explicitField hb
  · exact ⟨gap, _, .absent gap hgap, rfl⟩
  · obtain ⟨surplus, front, ha, rfl⟩ := hr _ _ _ hc
    rw [List.append_nil]
    exact ⟨_, _, .present gap hgap ha, (List.append_assoc _ _ _).symm⟩

theorem covers_behind_implicit (number : FieldNumber) (constructed : Bool) {content : α → Bytes}
    {read : Bytes → Option α} (hread : ∀ {c a}, read c = some a → content a = c) :
    (behind number constructed (plain content)).Covers (implicitField number constructed read) := by
  intro b o rest hb
  obtain ⟨gap, hgap, ⟨rfl, rfl⟩ | ⟨a, c, rfl, hc, rfl⟩⟩ := eq_of_implicitField hb
  · exact ⟨gap, _, .absent gap hgap, rfl⟩
  · exact ⟨_, _, .present gap hgap ⟨rfl, (hread hc).symm⟩, (List.append_assoc _ _ _).symm⟩

theorem extends_members {r : Reception α} {enc : α → Bytes} (hr : r.Extends enc) :
    (members r).Extends fun as => as.flatMap enc where
  eq_encode := by
    intro as b h
    generalize hs : ([] : List Element) = surplus at h
    induction h with
    | nil => rfl
    | cons ha _ ih =>
      obtain ⟨rfl, rfl⟩ := List.append_eq_nil_iff.1 hs.symm
      rw [hr.eq_encode ha, ih rfl, List.flatMap_cons]
  length_le := by
    intro as surplus b h
    induction h with
    | nil => exact le_rfl
    | cons ha _ ih =>
      have hhead := hr.length_le ha
      simp only [List.flatMap_cons, List.length_append] at ih ⊢
      omega

theorem covers_members {r : Reception α} {dec : Decoder α} (hr : r.Covers dec) :
    ∀ n, Covers (fun (as : Bounded n α) => members r as.toList) (Bounded.decode dec n) := by
  intro n
  induction n with
  | zero =>
    intro b as rest h
    obtain ⟨has, rfl⟩ := Bounded.eq_of_decode_zero h
    simp only [has]
    exact ⟨[], [], .nil, rfl⟩
  | succ n ih =>
    intro b as rest h
    obtain ⟨has, rfl⟩ | ⟨x, mid, xs, hx, hxs, has⟩ := Bounded.eq_of_decode_succ h
    · simp only [has]
      exact ⟨[], [], .nil, rfl⟩
    · obtain ⟨surplus, front, hhead, rfl⟩ := hr _ _ _ hx
      obtain ⟨surplus', front', htail, rfl⟩ := ih _ _ _ hxs
      simp only [has]
      exact ⟨_, _, .cons hhead htail, (List.append_assoc _ _ _).symm⟩

end Reception

end MeasuredIdentity.Der
