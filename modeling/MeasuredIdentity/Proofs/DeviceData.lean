import MeasuredIdentity.Proofs.HexDigits
import MeasuredIdentity.Proofs.IdGrammar
import MeasuredIdentity.Proofs.WordsAndLines

/-!
The texts that a registration id is made of. A MAC address is twelve hexadecimal digits in either
case, with colons anywhere, and a version three numbers with single dots between them.
-/
namespace MeasuredIdentity

/-- The characters of a text that are no colons. -/
def bareDigits (s : String) : List Char := s.toList.filter (· ≠ ':')

structure IsMacText (s : String) : Prop where
  length_eq : (bareDigits s).length = 12
  digits : ∀ c ∈ bareDigits s, Text.IsHexDigit c

/-- Decimal digits, at least one. -/
structure IsNumberText (part : List Char) : Prop where
  ne_nil : part ≠ []
  digits : ∀ c ∈ part, '0' ≤ c ∧ c ≤ '9'

def IsVersionText (s : String) : Prop :=
  ∃ major minor patch, IsNumberText major ∧ IsNumberText minor ∧ IsNumberText patch ∧
    s.toList = major ++ '.' :: (minor ++ '.' :: patch)

namespace MacAddress

theorem toList_text (mac : MacAddress) : mac.text.toList = mac.digits.map Text.hexChar :=
  String.toList_ofList

/-- What is accepted is an address in either case, and colons make no difference. -/
theorem parse_eq_ok_iff {s : String} {mac : MacAddress} :
    parse s = .ok mac ↔ (bareDigits s).map Char.toLower = mac.text.toList := by
  rw [toList_text, ← Text.mapM_hexValue?_eq_some_iff, bareDigits, parse]
  split
  next hnone =>
    rw [hnone]
    exact iff_of_false nofun nofun
  next digits hdigits =>
    rw [hdigits, Option.some.injEq]
    split
    next hlength =>
      constructor
      · rintro ⟨⟩
        rfl
      · rintro rfl
        rfl
    next hlength =>
      refine iff_of_false nofun ?_
      rintro rfl
      exact hlength mac.length_digits

theorem eq_invalidMacAddress {s : String} {e : Error} (h : parse s = .error e) :
    e = .invalidMacAddress := by
  unfold parse at h
  split at h
  · cases h
    rfl
  · split at h <;> cases h
    rfl

theorem exists_parse_iff {s : String} : (∃ mac, parse s = .ok mac) ↔ IsMacText s := by
  simp only [parse_eq_ok_iff, toList_text]
  constructor
  · rintro ⟨mac, h⟩
    have hlength := congrArg List.length h
    rw [List.length_map, List.length_map, mac.length_digits] at hlength
    exact ⟨hlength, Text.exists_mapM_hexValue?_iff.1 ⟨_, Text.mapM_hexValue?_eq_some_iff.2 h⟩⟩
  · rintro ⟨hlength, hdigits⟩
    obtain ⟨digits, h⟩ := Text.exists_mapM_hexValue?_iff.2 hdigits
    have h := Text.mapM_hexValue?_eq_some_iff.1 h
    have hdigitsLength := congrArg List.length h
    rw [List.length_map, List.length_map, hlength] at hdigitsLength
    exact ⟨⟨digits, hdigitsLength.symm⟩, h⟩

theorem parse_eq_error_iff {s : String} {e : Error} :
    parse s = .error e ↔ ¬ IsMacText s ∧ e = .invalidMacAddress := by
  rw [← exists_parse_iff]
  cases h : parse s with
  | ok mac => exact iff_of_false nofun fun hnone => hnone.1 ⟨mac, rfl⟩
  | error e' =>
    rw [eq_invalidMacAddress h, Except.error.injEq, eq_comm]
    exact ⟨fun he => ⟨nofun, he⟩, And.right⟩

end MacAddress

namespace FirmwareVersion

theorem isNumber_iff {part : List Char} : isNumber part = true ↔ IsNumberText part := by
  simp only [isNumber, Bool.and_eq_true, Bool.not_eq_true', List.isEmpty_eq_false_iff,
    List.all_eq_true, decide_eq_true_eq]
  exact ⟨fun h => ⟨h.1, h.2⟩, fun h => ⟨h.ne_nil, h.digits⟩⟩

end FirmwareVersion

theorem ne_dot_of_digit {c : Char} (h : '0' ≤ c ∧ c ≤ '9') : c ≠ '.' := by
  rintro rfl
  exact absurd h.1 (by decide)

theorem IsNumberText.ne_dot {part : List Char} (h : IsNumberText part) :
    ∀ c ∈ part, (c == '.') = false :=
  fun c hc => beq_false_of_ne (ne_dot_of_digit (h.digits c hc))

/-- The characters of a version are digits and dots. -/
theorem IsVersionText.characters {s : String} (h : IsVersionText s) :
    ∀ c ∈ s.toList, ('0' ≤ c ∧ c ≤ '9') ∨ c = '.' := by
  obtain ⟨major, minor, patch, hmajor, hminor, hpatch, hs⟩ := h
  rw [hs]
  intro c hc
  simp only [List.mem_append, List.mem_cons] at hc
  obtain hc | rfl | hc | rfl | hc := hc
  · exact .inl (hmajor.digits c hc)
  · exact .inr rfl
  · exact .inl (hminor.digits c hc)
  · exact .inr rfl
  · exact .inl (hpatch.digits c hc)

theorem IsVersionText.utf8ByteSize_eq {s : String} (h : IsVersionText s) :
    s.utf8ByteSize = s.length := by
  refine Text.Utf8.utf8ByteSize_eq_length fun c hc => ?_
  obtain hdigit | rfl := h.characters c hc
  · exact RegistrationId.utf8Size_of_isIdChar (isIdChar_iff.2 (.inr (.inl hdigit)))
  · decide

namespace FirmwareVersion

theorem pieces_eq_three_iff {s major minor patch : List Char} (hmajor : IsNumberText major)
    (hminor : IsNumberText minor) (hpatch : IsNumberText patch) :
    Text.pieces (· == '.') s = [major, minor, patch] ↔
      s = major ++ '.' :: (minor ++ '.' :: patch) := by
  constructor
  · intro h
    have hjoined : ['.'].intercalate (s.splitOn '.') = s := List.intercalate_splitOn '.'
    rw [List.splitOn_eq_splitOnP, ← Text.pieces_eq_splitOnP, h] at hjoined
    rw [← hjoined]
    simp [List.intercalate]
  · rintro rfl
    rw [Text.pieces_append_cons hmajor.ne_dot rfl, Text.pieces_append_cons hminor.ne_dot rfl,
      Text.pieces_of_forall_not hpatch.ne_dot]

theorem isVersion_iff {s : String} :
    isVersion s.toList = true ↔ IsVersionText s ∧ s.utf8ByteSize ≤ 32 := by
  simp only [isVersion, Bool.and_eq_true, beq_iff_eq, List.all_eq_true, decide_eq_true_eq,
    isNumber_iff]
  constructor
  · rintro ⟨⟨hthree, hnumbers⟩, hlength⟩
    obtain ⟨major, minor, patch, hparts⟩ := List.length_eq_three.1 hthree
    rw [hparts] at hnumbers
    simp only [List.forall_mem_cons, List.not_mem_nil, false_implies, implies_true, and_true] at hnumbers
    obtain ⟨hmajor, hminor, hpatch⟩ := hnumbers
    have hversion : IsVersionText s := ⟨major, minor, patch, hmajor, hminor, hpatch,
      (pieces_eq_three_iff hmajor hminor hpatch).1 hparts⟩
    rw [hversion.utf8ByteSize_eq, ← String.length_toList]
    exact ⟨hversion, hlength⟩
  · rintro ⟨hversion, hsize⟩
    rw [hversion.utf8ByteSize_eq, ← String.length_toList] at hsize
    obtain ⟨major, minor, patch, hmajor, hminor, hpatch, hs⟩ := hversion
    rw [(pieces_eq_three_iff hmajor hminor hpatch).2 hs]
    simp only [List.length_cons, List.length_nil, List.forall_mem_cons, List.not_mem_nil,
      false_implies, implies_true, and_true, true_and]
    exact ⟨⟨hmajor, hminor, hpatch⟩, hsize⟩

theorem isVersionText (version : FirmwareVersion) : IsVersionText version.text :=
  (isVersion_iff.1 version.valid).1

theorem length_le (version : FirmwareVersion) : version.text.length ≤ 32 := by
  rw [← version.isVersionText.utf8ByteSize_eq]
  exact (isVersion_iff.1 version.valid).2

/-- A version is taken as it is. -/
theorem parse_eq_ok_iff {s : String} {version : FirmwareVersion} :
    parse s = .ok version ↔ version.text = s := by
  unfold parse
  split
  next hvalid =>
    rw [Except.ok.injEq]
    constructor
    · rintro rfl
      rfl
    · rintro rfl
      rfl
  next hinvalid =>
    refine iff_of_false nofun ?_
    rintro rfl
    exact hinvalid version.valid

theorem parse_eq_error_iff {s : String} {e : Error} : parse s = .error e ↔
    (¬ IsVersionText s ∨ 32 < s.utf8ByteSize) ∧ e = .invalidFirmwareVersion := by
  rw [← Nat.not_le, ← not_and_or, ← isVersion_iff, parse]
  split
  next hvalid => exact iff_of_false nofun fun h => h.1 hvalid
  next hinvalid =>
    rw [Except.error.injEq, eq_comm]
    exact ⟨fun he => ⟨hinvalid, he⟩, And.right⟩

end FirmwareVersion

end MeasuredIdentity
