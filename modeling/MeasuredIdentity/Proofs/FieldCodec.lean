import MeasuredIdentity.Proofs.ElementCodec

/-!
Fields of constructed values. Two laws tie an encoder to a decoder: what is written is read back
in front of any bytes, and what is read was written that way. Fields that may be absent are read
back where the element behind them cannot be taken for them, and a context-specific field is read
behind elements that the search for it passes over.
-/
namespace MeasuredIdentity.Der

open Decoder

variable {α : Type}

/-- The decoder takes the encoding of a value off the front of any byte string. -/
def ReadsBack (enc : α → Bytes) (dec : Decoder α) : Prop :=
  ∀ a, (enc a).length ≤ maxLength → ∀ rest, dec (enc a ++ rest) = some (a, rest)

/-- The decoder takes the encoding of a readable value off the front of any byte string, and refuses
the encoding of every other value. -/
def ReadsBackIf (readable : α → Bool) (enc : α → Bytes) (dec : Decoder α) : Prop :=
  ∀ a, (enc a).length ≤ maxLength → ∀ rest,
    dec (enc a ++ rest) = if readable a then some (a, rest) else none

/-- The decoder takes nothing but encodings off the front of a byte string. -/
def Canonical (enc : α → Bytes) (dec : Decoder α) : Prop :=
  ∀ b a rest, dec b = some (a, rest) → b = enc a ++ rest

/-- The decoder gives readable values only. -/
def Yields (readable : α → Bool) (dec : Decoder α) : Prop :=
  ∀ b a rest, dec b = some (a, rest) → readable a = true

theorem ReadsBack.whole {enc : α → Bytes} {dec : Decoder α} (h : ReadsBack enc dec) {a : α}
    (hlen : (enc a).length ≤ maxLength) : dec (enc a) = some (a, []) := by
  simpa using h a hlen []

theorem ReadsBack.decode_whole {enc : α → Bytes} {dec : Decoder α} (h : ReadsBack enc dec) {a : α}
    (hlen : (enc a).length ≤ maxLength) : dec.whole (enc a) = some a :=
  whole_eq_some_iff.2 (h.whole hlen)

/-- Where both laws hold, bytes are decoded as the value that they encode. -/
theorem ReadsBack.decode_whole_eq_some_iff {enc : α → Bytes} {dec : Decoder α}
    (h : ReadsBack enc dec) (hcanonical : Canonical enc dec) {b : Bytes} {a : α}
    (hlen : b.length ≤ maxLength) : dec.whole b = some a ↔ enc a = b := by
  constructor
  · intro hread
    have hb := hcanonical _ _ _ (whole_eq_some_iff.1 hread)
    rw [List.append_nil] at hb
    exact hb.symm
  · rintro rfl
    exact h.decode_whole hlen

/-! ### Reading under a condition -/

theorem bind_if {β : Type} {p : Bool} {a : α} {f : α → Option β} :
    (if p then some a else none).bind f = if p then f a else none :=
  apply_ite_left Option.bind _ _ _ f

theorem map_if {β : Type} {p : Bool} {a : α} {f : α → β} :
    (if p then some a else none).map f = if p then some (f a) else none := by
  split <;> rfl

/-- Parts that are read one behind the other. -/
theorem if_if {p q : Bool} {o : Option α} :
    (if p then (if q then o else none) else none) = if p && q then o else none := by
  simp only [Bool.and_eq_true, ite_and]

theorem all_toList (o : Option α) (p : α → Bool) : o.toList.all p = o.all p := by
  cases o with
  | none => rfl
  | some a => exact Bool.and_true (p a)

section ReadsBackIf

variable {readable : α → Bool} {enc : α → Bytes} {dec : Decoder α} {a : α}

theorem ReadsBack.readsBackIf (h : ReadsBack enc dec) : ReadsBackIf (fun _ => true) enc dec := h

theorem ReadsBackIf.whole (h : ReadsBackIf readable enc dec) (hlen : (enc a).length ≤ maxLength) :
    dec (enc a) = if readable a then some (a, []) else none := by
  simpa using h a hlen []

theorem ReadsBackIf.decode_whole (h : ReadsBackIf readable enc dec)
    (hlen : (enc a).length ≤ maxLength) :
    dec.whole (enc a) = if readable a then some a else none := by
  rw [Decoder.whole, h.whole hlen]
  split_ifs <;> rfl

theorem ReadsBackIf.decode_whole_eq_some_iff (h : ReadsBackIf readable enc dec)
    (hlen : (enc a).length ≤ maxLength) {b : α} :
    dec.whole (enc a) = some b ↔ readable a = true ∧ b = a := by
  rw [h.decode_whole hlen]
  split_ifs with ha <;> simp [ha, eq_comm]

/-- Encoding a readable value loses nothing. -/
theorem ReadsBackIf.decode_self (h : ReadsBackIf readable enc dec) (ha : readable a = true)
    (hlen : (enc a).length ≤ maxLength) : dec.whole (enc a) = some a :=
  (h.decode_whole_eq_some_iff hlen).2 ⟨ha, rfl⟩

end ReadsBackIf

theorem bind_eq_some_iff {β : Type} {d : Decoder α} {f : α → Decoder β} {b rest : Bytes} {x : β} :
    (d >>= f) b = some (x, rest) ↔ ∃ a mid, d b = some (a, mid) ∧ f a mid = some (x, rest) := by
  simp only [bind_apply, Option.bind_eq_some_iff, Prod.exists]

@[simp] theorem pure_eq_some_iff {a x : α} {b rest : Bytes} :
    (pure a : Decoder α) b = some (x, rest) ↔ a = x ∧ b = rest := by
  simp [pure_apply]

theorem check_eq_some_iff {p : Prop} [Decidable p] {b rest : Bytes} {u : Unit} :
    check p b = some (u, rest) ↔ p ∧ b = rest := by
  by_cases hp : p <;> simp [check_apply, hp]

theorem ofOption_eq_some_iff {x : Option α} {a : α} {b rest : Bytes} :
    ofOption x b = some (a, rest) ↔ x = some a ∧ b = rest := by
  simp [ofOption_apply]

theorem length_element (tag : Tag) (c : Bytes) :
    (element tag c).length = 2 + lengthWidth c.length + c.length := Element.length_encode ⟨tag, c⟩

theorem element_ne_nil (tag : Tag) (c : Bytes) : element tag c ≠ [] := by
  simp [element, Element.encode]

/-- The content of an element of admissible size has an admissible size. -/
theorem length_le_of_element {tag : Tag} {c : Bytes} (h : (element tag c).length ≤ maxLength) :
    c.length ≤ maxLength := by
  rw [length_element] at h
  omega

/-- The size of an element limits that of its content. -/
theorem ReadsBackIf.inside {readable : α → Bool} {content : α → Bytes} {d : Decoder α} {tag : Tag}
    (h : ∀ a, (content a).length ≤ maxLength →
      d (content a) = if readable a then some (a, []) else none) :
    ReadsBackIf readable (fun a => element tag (content a)) (inside tag d) :=
  fun a hlen => inside_element_if (length_le_of_element hlen) (h a (length_le_of_element hlen))

theorem ReadsBack.inside {content : α → Bytes} {d : Decoder α} {tag : Tag}
    (h : ∀ a, (content a).length ≤ maxLength → d (content a) = some (a, [])) :
    ReadsBack (fun a => element tag (content a)) (inside tag d) :=
  fun a hlen => inside_element (length_le_of_element hlen) (h a (length_le_of_element hlen))

/-- A value that its content determines. -/
theorem primitive_element {tag : Tag} {c : Bytes} {read : Bytes → Option α} {a : α}
    (hlen : (element tag c).length ≤ maxLength) (ha : read c = some a) (rest : Bytes) :
    (do Decoder.ofOption (read (← content tag)) : Decoder α) (element tag c ++ rest)
      = some (a, rest) := by
  simp only [bind_apply, content_element (length_le_of_element hlen), Option.bind_some,
    ofOption_apply, ha, Option.map_some]

theorem eq_element_of_primitive {tag : Tag} {read : Bytes → Option α} {b rest : Bytes} {a : α}
    (h : (do Decoder.ofOption (read (← content tag)) : Decoder α) b = some (a, rest)) :
    ∃ c, read c = some a ∧ c.length ≤ maxLength ∧ b = element tag c ++ rest := by
  obtain ⟨c, mid, hc, h⟩ := bind_eq_some_iff.1 h
  obtain ⟨ha, rfl⟩ := ofOption_eq_some_iff.1 h
  obtain ⟨hb, hlen⟩ := eq_element_of_content hc
  exact ⟨c, ha, hlen, hb⟩

/-- The converse of `inside_element`. -/
theorem eq_element_of_inside {tag : Tag} {d : Decoder α} {b rest : Bytes} {a : α}
    (h : inside tag d b = some (a, rest)) :
    ∃ c, d c = some (a, []) ∧ c.length ≤ maxLength ∧ b = element tag c ++ rest := by
  obtain ⟨c, ha, hlen, hb⟩ := eq_element_of_primitive h
  exact ⟨c, whole_eq_some_iff.1 ha, hlen, hb⟩

theorem Yields.inside {readable : α → Bool} {d : Decoder α} (h : Yields readable d) (tag : Tag) :
    Yields readable (inside tag d) := by
  intro b a rest ha
  obtain ⟨c, hc, -, -⟩ := eq_element_of_inside ha
  exact h c a [] hc

theorem Element.length_content_le {e : Element} (h : e.encode.length ≤ maxLength) :
    e.content.length ≤ maxLength :=
  length_le_of_element (show (element e.tag e.content).length ≤ maxLength from h)

theorem Element.readsBack : ReadsBack Element.encode Element.decode := by
  intro e h rest
  exact Element.decode_encode (Element.length_content_le h) rest

theorem Element.canonical : Canonical Element.encode Element.decode := by
  intro b e rest h
  exact (Element.eq_encode_of_decode h).1

/-! ### What follows a field -/

/-- Where there is a next element, its tag has the property. -/
def NextTagIs (p : Tag → Prop) (b : Bytes) : Prop :=
  b = [] ∨ ∃ tag c rest, b = element tag c ++ rest ∧ p tag

theorem nextTagIs_nil (p : Tag → Prop) : NextTagIs p [] := Or.inl rfl

theorem nextTagIs_element {p : Tag → Prop} (tag : Tag) (h : p tag) (c rest : Bytes) :
    NextTagIs p (element tag c ++ rest) := Or.inr ⟨tag, c, rest, rfl, h⟩

/-- A field that is left out lets the tag behind it come next. -/
theorem nextTagIs_field {p : Tag → Prop} (tag : Tag) (h : p tag) (content : α → Bytes)
    (o : Option α) {rest : Bytes} (hrest : NextTagIs p rest) :
    NextTagIs p ((o.map fun a => element tag (content a)).getD [] ++ rest) := by
  cases o with
  | none => exact hrest
  | some a => exact nextTagIs_element tag h (content a) rest

theorem nextTag_element (tag : Tag) (c rest : Bytes) :
    nextTag (element tag c ++ rest) = some (some tag, element tag c ++ rest) := by
  simp [nextTag, element, Element.encode]

theorem optional_present {accepts : Tag → Bool} {d : Decoder α} {tag : Tag} {c rest : Bytes} {a : α}
    (ht : accepts tag = true) (hd : d (element tag c ++ rest) = some (a, rest)) :
    optional accepts d (element tag c ++ rest) = some (some a, rest) := by
  have hmap : (some <$> d) (element tag c ++ rest) = some (some a, rest) := by
    rw [map_eq_pure_bind, bind_apply, hd]
    rfl
  rw [optional, bind_apply, nextTag_element]
  simpa [ht] using hmap

theorem optional_absent {accepts : Tag → Bool} {d : Decoder α} {b : Bytes}
    (h : NextTagIs (fun t => accepts t = false) b) : optional accepts d b = some (none, b) := by
  rcases h with rfl | ⟨tag, c, rest, rfl, ht⟩
  · rfl
  · rw [optional, bind_apply, nextTag_element]
    simp [ht, pure_apply]

theorem optional_eq_some {accepts : Tag → Bool} {d : Decoder α} {b rest : Bytes} {o : Option α}
    (h : optional accepts d b = some (o, rest)) :
    (o = none ∧ b = rest) ∨ ∃ a, o = some a ∧ d b = some (a, rest) := by
  obtain ⟨t, mid, ht, h⟩ := bind_eq_some_iff.1 h
  have hmid : mid = b := by
    cases b with
    | nil => simp_all [nextTag]
    | cons x b =>
      simp only [nextTag, Option.map_eq_some_iff, Prod.mk.injEq] at ht
      obtain ⟨_, _, _, rfl⟩ := ht
      rfl
  subst hmid
  cases t with
  | none =>
    obtain ⟨rfl, rfl⟩ := pure_eq_some_iff.1 h
    exact Or.inl ⟨rfl, rfl⟩
  | some t =>
    by_cases ha : accepts t
    · simp only [ha, if_true, map_eq_pure_bind] at h
      obtain ⟨a, mid, hd, h⟩ := bind_eq_some_iff.1 h
      obtain ⟨rfl, rfl⟩ := pure_eq_some_iff.1 h
      exact Or.inr ⟨a, rfl, hd⟩
    · simp only [ha] at h
      obtain ⟨rfl, rfl⟩ := pure_eq_some_iff.1 h
      exact Or.inl ⟨rfl, rfl⟩

/-- At the end of a value, any element that is there is the field. -/
theorem optional_last {enc : α → Bytes} {d : Decoder α} {accepts : Tag → Bool} (hd : ReadsBack enc d)
    (henc : ∀ a, ∃ tag c, enc a = element tag c ∧ accepts tag = true) (o : Option α)
    (hlen : ((o.map enc).getD []).length ≤ maxLength) :
    optional accepts d ((o.map enc).getD []) = some (o, []) := by
  cases o with
  | none => rfl
  | some a =>
    obtain ⟨tag, c, heq, ht⟩ := henc a
    have hwhole := hd.whole hlen
    rw [Option.map_some, Option.getD_some, heq, ← List.append_nil (element tag c)] at *
    exact optional_present ht hwhole

/-- Tags that end the search for a context-specific field. -/
def Tag.EndsSearch (number : FieldNumber) (t : Tag) : Prop :=
  t.isContext = false ∨ number.toByte < t.number

theorem contextElement_present (number : FieldNumber) (constructed : Bool) {c : Bytes}
    (h : c.length ≤ maxLength) (rest : Bytes) :
    contextElement number (element (.context number constructed) c ++ rest)
      = some (some ⟨.context number constructed, c⟩, rest) := by
  have hdecode : Element.decode (element (.context number constructed) c ++ rest)
      = some (⟨.context number constructed, c⟩, rest) := Element.decode_encode h rest
  unfold contextElement
  rw [nextTag_element]
  simp only [Tag.isContext_context, Tag.number_context, Bool.not_true, Bool.false_or,
    decide_eq_true_eq, UInt8.lt_irrefl, if_false]
  split
  · rename_i heq
    rw [hdecode] at heq
    cases heq
  · rename_i e r heq
    rw [hdecode] at heq
    cases heq
    rw [if_pos trivial]

theorem contextElement_absent {number : FieldNumber} {b : Bytes}
    (h : NextTagIs (Tag.EndsSearch number) b) : contextElement number b = some (none, b) := by
  unfold contextElement
  rcases h with rfl | ⟨tag, c, rest, rfl, ht⟩
  · rfl
  · rw [nextTag_element]
    rcases ht with ht | ht <;> simp [ht]

section ContextFields

variable (number : FieldNumber) {o : Option α} {readable : α → Bool} {rest : Bytes}

/-- The field, if it is there, is what the search for its number finds. -/
theorem contextElement_field (constructed : Bool) (content : α → Bytes)
    (hlen : ((o.map fun a => element (.context number constructed) (content a)).getD []).length
      ≤ maxLength)
    (hrest : NextTagIs (Tag.EndsSearch number) rest) :
    contextElement number
        ((o.map fun a => element (.context number constructed) (content a)).getD [] ++ rest)
      = some (o.map fun a => ⟨.context number constructed, content a⟩, rest) := by
  cases o with
  | none => exact contextElement_absent hrest
  | some a => exact contextElement_present number constructed (length_le_of_element hlen) rest

theorem implicitField_readIf (constructed : Bool) (content : α → Bytes) {ofContent : Bytes → Option α}
    (hread : ∀ a, (content a).length ≤ maxLength →
      ofContent (content a) = if readable a then some a else none)
    (hlen : ((o.map fun a => element (.context number constructed) (content a)).getD []).length
      ≤ maxLength)
    (hrest : NextTagIs (Tag.EndsSearch number) rest) :
    implicitField number constructed ofContent
        ((o.map fun a => element (.context number constructed) (content a)).getD [] ++ rest)
      = if o.all readable then some (o, rest) else none := by
  rw [implicitField, bind_apply, contextElement_field number constructed content hlen hrest]
  cases o with
  | none => rfl
  | some a =>
    simp only [Option.map_some, Option.bind_some, bind_apply, check_apply, Tag.isConstructed_context,
      if_true, map_eq_pure_bind, ofOption_apply, hread a (length_le_of_element hlen), pure_apply, map_if,
      bind_if, Option.all_some]

theorem implicitField_read (constructed : Bool) (content : α → Bytes) {ofContent : Bytes → Option α}
    (hread : ∀ a, (content a).length ≤ maxLength → ofContent (content a) = some a)
    (hlen : ((o.map fun a => element (.context number constructed) (content a)).getD []).length
      ≤ maxLength)
    (hrest : NextTagIs (Tag.EndsSearch number) rest) :
    implicitField number constructed ofContent
        ((o.map fun a => element (.context number constructed) (content a)).getD [] ++ rest)
      = some (o, rest) := by
  have h : implicitField number constructed ofContent
      ((o.map fun a => element (.context number constructed) (content a)).getD [] ++ rest)
        = if o.all fun _ => true then some (o, rest) else none :=
    implicitField_readIf number constructed content hread hlen hrest
  rw [h, if_pos (by cases o <;> rfl)]

/-- A field with an explicit tag is one whose content is a whole value. -/
theorem explicitField_eq (d : Decoder α) : explicitField number d = implicitField number true d.whole :=
  rfl

theorem explicitField_readIf {enc : α → Bytes} {d : Decoder α} (hd : ReadsBackIf readable enc d)
    (hlen : ((o.map fun a => element (.context number true) (enc a)).getD []).length ≤ maxLength)
    (hrest : NextTagIs (Tag.EndsSearch number) rest) :
    explicitField number d ((o.map fun a => element (.context number true) (enc a)).getD [] ++ rest)
      = if o.all readable then some (o, rest) else none :=
  implicitField_readIf number true enc (fun _ => hd.decode_whole) hlen hrest

theorem explicitField_read {enc : α → Bytes} {d : Decoder α} (hd : ReadsBack enc d)
    (hlen : ((o.map fun a => element (.context number true) (enc a)).getD []).length ≤ maxLength)
    (hrest : NextTagIs (Tag.EndsSearch number) rest) :
    explicitField number d ((o.map fun a => element (.context number true) (enc a)).getD [] ++ rest)
      = some (o, rest) :=
  implicitField_read number true enc (fun _ => hd.decode_whole) hlen hrest

end ContextFields

/-! ### What stands in front of a context-specific field -/

/-- The byte and the tag that come next are those of the element that is read there. -/
theorem tag_of_decode {b rest b' : Bytes} {t : Tag} {e : Element}
    (ht : nextTag b = some (some t, b')) (he : Element.decode b = some (e, rest)) : e.tag = t := by
  obtain ⟨rfl, -⟩ := Element.eq_encode_of_decode he
  have hnext : nextTag (e.encode ++ rest) = some (some e.tag, e.encode ++ rest) :=
    nextTag_element e.tag e.content rest
  rw [hnext, Option.some.injEq, Prod.mk.injEq, Option.some.injEq] at ht
  exact ht.1

/-- An element that the search for a context-specific field passes over. -/
def PassedOver (number : FieldNumber) (e : Element) : Prop :=
  e.tag.isContext = true ∧ e.tag.number < number.toByte

/-- The search for the field with the number zero passes over nothing. -/
theorem eq_nil_of_passedOver_zero {gap : List Element} (h : ∀ e ∈ gap, PassedOver .zero e) :
    gap = [] :=
  List.eq_nil_iff_forall_not_mem.2 fun e he => UInt8.not_lt_zero (h e he).2

/-- What the search for a context-specific field finds stands behind the elements that it passes
over. -/
theorem eq_of_contextElement {number : FieldNumber} {b rest : Bytes} {o : Option Element}
    (h : contextElement number b = some (o, rest)) :
    ∃ gap : List Element, (∀ e ∈ gap, PassedOver number e) ∧
      b = gap.flatMap Element.encode ++ ((o.map Element.encode).getD [] ++ rest) ∧
      ∀ e ∈ o, e.tag.isContext = true ∧ e.tag.number = number.toByte := by
  fun_induction contextElement number b with
  | case1 | case4 => cases h
  | case2 | case3 =>
    simp only [Option.some.injEq, Prod.mk.injEq] at h
    obtain ⟨rfl, rfl⟩ := h
    exact ⟨[], by simp, rfl, by simp⟩
  | case5 b t _ ht hskip e tail he hnumber =>
    simp only [Option.some.injEq, Prod.mk.injEq] at h
    obtain ⟨rfl, rfl⟩ := h
    simp only [Bool.or_eq_true, Bool.not_eq_true', not_or, Bool.not_eq_false] at hskip
    obtain rfl := tag_of_decode ht he
    refine ⟨[], by simp, (Element.eq_encode_of_decode he).1, ?_⟩
    rintro e' ⟨⟩
    exact ⟨hskip.1, hnumber⟩
  | case6 b t _ ht hskip e tail he hnumber ih =>
    obtain ⟨gap, hgap, rfl, ho⟩ := ih h
    simp only [Bool.or_eq_true, Bool.not_eq_true', decide_eq_true_eq, not_or, Bool.not_eq_false,
      UInt8.not_lt] at hskip
    obtain rfl := tag_of_decode ht he
    refine ⟨e :: gap, ?_, ?_, ho⟩
    · rintro e' (_ | ⟨_, he'⟩)
      · exact ⟨hskip.1, UInt8.lt_of_le_of_ne hskip.2 hnumber⟩
      · exact hgap _ he'
    · rw [(Element.eq_encode_of_decode he).1, List.flatMap_cons, List.append_assoc]

/-- A context-specific tag is given by its number and by whether it is constructed. -/
theorem Tag.eq_context {t : Tag} {number : FieldNumber} (hcontext : t.isContext = true)
    (hnumber : t.number = number.toByte) : t = .context number t.isConstructed := by
  have h : ∀ n < 256, UInt8.ofNat n &&& 0xc0 = 0x80 →
      UInt8.ofNat n = (if UInt8.ofNat n &&& 0x20 != 0 then 0xa0 else 0x80) + (UInt8.ofNat n &&& 0x1f) := by
    decide +kernel
  obtain ⟨octet, known⟩ := t
  have hoctet := h octet.toNat octet.toNat_lt
  rw [UInt8.ofNat_toNat] at hoctet
  simp only [isContext, beq_iff_eq, Tag.number] at hcontext hnumber
  rw [hnumber] at hoctet
  simp only [context, isConstructed, Tag.mk.injEq]
  exact hoctet hcontext

theorem eq_of_implicitField {number : FieldNumber} {constructed : Bool} {read : Bytes → Option α}
    {b rest : Bytes} {o : Option α}
    (h : implicitField number constructed read b = some (o, rest)) :
    ∃ gap : List Element, (∀ e ∈ gap, PassedOver number e) ∧
      ((o = none ∧ b = gap.flatMap Element.encode ++ rest) ∨
        ∃ a c, o = some a ∧ read c = some a ∧
          b = gap.flatMap Element.encode ++ (element (.context number constructed) c ++ rest)) := by
  obtain ⟨e?, mid, he, hread⟩ := bind_eq_some_iff.1 h
  obtain ⟨gap, hgap, hb, htag⟩ := eq_of_contextElement he
  refine ⟨gap, hgap, ?_⟩
  cases e? with
  | none =>
    obtain ⟨rfl, rfl⟩ := pure_eq_some_iff.1 hread
    exact Or.inl ⟨rfl, hb⟩
  | some e =>
    simp only [map_eq_pure_bind, bind_eq_some_iff, check_eq_some_iff, ofOption_eq_some_iff,
      pure_eq_some_iff] at hread
    obtain ⟨_, _, ⟨rfl, rfl⟩, a, _, ⟨ha, rfl⟩, rfl, rfl⟩ := hread
    obtain ⟨hcontext, hnumber⟩ := htag e rfl
    refine Or.inr ⟨a, e.content, rfl, ha, ?_⟩
    rw [hb, ← Tag.eq_context hcontext hnumber]
    rfl

theorem eq_of_explicitField {number : FieldNumber} {d : Decoder α} {b rest : Bytes} {o : Option α}
    (h : explicitField number d b = some (o, rest)) :
    ∃ gap : List Element, (∀ e ∈ gap, PassedOver number e) ∧
      ((o = none ∧ b = gap.flatMap Element.encode ++ rest) ∨
        ∃ a c, o = some a ∧ d c = some (a, []) ∧
          b = gap.flatMap Element.encode ++ (element (.context number true) c ++ rest)) := by
  simp only [← whole_eq_some_iff]
  rw [explicitField_eq] at h
  exact eq_of_implicitField h

/-! ### Lists of members -/

section Members

variable {enc : α → Bytes} {d : Decoder α}

theorem Bounded.decode_flatMap_if {readable : α → Bool} (hd : ReadsBackIf readable enc d)
    (hne : ∀ a, enc a ≠ []) :
    ∀ {n : Nat} (xs : Bounded n α), (xs.toList.flatMap enc).length ≤ maxLength →
      Bounded.decode d n (xs.toList.flatMap enc)
        = if xs.toList.all readable then some (xs, []) else none := by
  intro n
  induction n with
  | zero =>
    rintro ⟨xs, hxs⟩ -
    obtain rfl := List.eq_nil_of_length_eq_zero (Nat.le_zero.1 hxs)
    rfl
  | succ n ih =>
    rintro ⟨xs, hxs⟩ hlen
    cases xs with
    | nil => rfl
    | cons x xs =>
      have hxs' : xs.length ≤ n := Nat.le_of_succ_le_succ hxs
      simp only [List.flatMap_cons, List.length_append] at hlen
      have hx := hd x (by omega) (xs.flatMap enc)
      have htail := ih ⟨xs, hxs'⟩ (by show (xs.flatMap enc).length ≤ maxLength; omega)
      have hend : atEnd (enc x ++ xs.flatMap enc) = some (false, enc x ++ xs.flatMap enc) := by
        simp [atEnd, hne x]
      simp only [List.flatMap_cons, Bounded.decode, bind_apply, hend, Option.bind_some,
        Bool.false_eq_true, if_false, hx, htail, pure_apply, bind_if, if_if, List.all_cons]
      rfl

theorem Bounded.decode_flatMap (hd : ReadsBack enc d) (hne : ∀ a, enc a ≠ []) {n : Nat}
    (xs : Bounded n α) (hlen : (xs.toList.flatMap enc).length ≤ maxLength) :
    Bounded.decode d n (xs.toList.flatMap enc) = some (xs, []) := by
  rw [Bounded.decode_flatMap_if hd.readsBackIf hne xs hlen, if_pos (List.all_eq_true.2 fun _ _ => rfl)]

theorem Bounded.eq_of_decode_zero {b rest : Bytes} {xs : Bounded 0 α}
    (h : Bounded.decode d 0 b = some (xs, rest)) : xs.toList = [] ∧ b = rest := by
  simp only [Bounded.decode, bind_eq_some_iff, atEnd, check_eq_some_iff, pure_eq_some_iff,
    Option.some.injEq, Prod.mk.injEq] at h
  obtain ⟨_, _, ⟨rfl, rfl⟩, _, _, ⟨_, rfl⟩, rfl, rfl⟩ := h
  exact ⟨rfl, rfl⟩

/-- Where there is room for a member, the input is at its end or a member is read. -/
theorem Bounded.eq_of_decode_succ {n : Nat} {b rest : Bytes} {xs : Bounded (n + 1) α}
    (h : Bounded.decode d (n + 1) b = some (xs, rest)) :
    (xs.toList = [] ∧ b = rest) ∨ ∃ x mid ys, d b = some (x, mid) ∧
      Bounded.decode d n mid = some (ys, rest) ∧ xs.toList = x :: ys.toList := by
  simp only [Bounded.decode] at h
  obtain ⟨e, mid, he, h⟩ := bind_eq_some_iff.1 h
  simp only [atEnd, Option.some.injEq, Prod.mk.injEq] at he
  obtain ⟨rfl, rfl⟩ := he
  split_ifs at h with hend
  · obtain ⟨rfl, rfl⟩ := pure_eq_some_iff.1 h
    exact Or.inl ⟨rfl, rfl⟩
  · simp only [bind_eq_some_iff, pure_eq_some_iff] at h
    obtain ⟨x, mid, hx, ys, _, hys, rfl, rfl⟩ := h
    exact Or.inr ⟨x, mid, ys, hx, hys, rfl⟩

theorem Bounded.eq_flatMap_of_decode (hd : Canonical enc d) :
    ∀ {n : Nat} {b rest : Bytes} {xs : Bounded n α}, Bounded.decode d n b = some (xs, rest) →
      b = xs.toList.flatMap enc ++ rest := by
  intro n
  induction n with
  | zero =>
    intro b rest xs h
    obtain ⟨hxs, rfl⟩ := Bounded.eq_of_decode_zero h
    rw [hxs]
    rfl
  | succ n ih =>
    intro b rest xs h
    obtain ⟨hxs, rfl⟩ | ⟨x, mid, ys, hx, hys, hxs⟩ := Bounded.eq_of_decode_succ h
    · rw [hxs]
      rfl
    · rw [hxs, hd _ _ _ hx, ih hys, List.flatMap_cons, List.append_assoc]

theorem Yields.members {readable : α → Bool} (hd : Yields readable d) :
    ∀ n, Yields (fun xs => xs.toList.all readable) (Bounded.decode d n) := by
  intro n
  induction n with
  | zero =>
    intro b xs rest h
    obtain ⟨hxs, -⟩ := Bounded.eq_of_decode_zero h
    show xs.toList.all readable = true
    rw [hxs]
    rfl
  | succ n ih =>
    intro b xs rest h
    show xs.toList.all readable = true
    obtain ⟨hxs, -⟩ | ⟨x, mid, ys, hx, hys, hxs⟩ := Bounded.eq_of_decode_succ h
    · rw [hxs]
      rfl
    · rw [hxs, List.all_cons, hd _ _ _ hx, Bool.true_and]
      exact ih _ _ _ hys

end Members

end MeasuredIdentity.Der
