import MeasuredIdentity.Proofs.DeviceData
import MeasuredIdentity.Proofs.Sequencing

/-!
Registration ids made for a device. An id is made exactly of a MAC address and a version of at most
16 characters; it shows both of them, so no two devices share one. The text that is made always fits
into its buffer and always is an id, so the only error on the way is that it is too long.
-/
namespace MeasuredIdentity

namespace Text.Buffer

variable {capacity : Nat} {α : Type} {grow : String → α → String}

theorem le_utf8ByteSize_foldl (hgrow : ∀ s x, s.utf8ByteSize ≤ (grow s x).utf8ByteSize)
    (xs : List α) (s : String) : s.utf8ByteSize ≤ (xs.foldl grow s).utf8ByteSize := by
  induction xs generalizing s with
  | nil => exact Nat.le_refl _
  | cons x xs ih => exact Nat.le_trans (hgrow s x) (ih (grow s x))

/-- A text that grows in a buffer has room on the way exactly if it has room in the end. -/
theorem foldlM_ofString? (hgrow : ∀ s x, s.utf8ByteSize ≤ (grow s x).utf8ByteSize) (xs : List α)
    (b : Buffer capacity) :
    xs.foldlM (fun (b : Buffer capacity) x => ofString? capacity (grow b.text x)) b =
      ofString? capacity (xs.foldl grow b.text) := by
  induction xs generalizing b with
  | nil => exact (ofString?_eq_some_iff.2 rfl).symm
  | cons x xs ih =>
    rw [List.foldlM_cons, List.foldl_cons]
    cases hstep : ofString? capacity (grow b.text x) with
    | none =>
      have hfull := ofString?_eq_none_iff.1 hstep
      exact (ofString?_eq_none_iff.2
        (Nat.lt_of_lt_of_le hfull (le_utf8ByteSize_foldl hgrow xs _))).symm
    | some b' =>
      rw [← ofString?_eq_some_iff.1 hstep]
      exact ih b'

theorem foldlM_write? (texts : List String) (b : Buffer capacity) :
    texts.foldlM write? b = ofString? capacity (texts.foldl (· ++ ·) b.text) := by
  refine foldlM_ofString? (fun s t => ?_) texts b
  rw [String.utf8ByteSize_append]
  exact Nat.le_add_right _ _

theorem foldlM_push? (cs : List Char) (b : Buffer capacity) :
    cs.foldlM push? b = ofString? capacity (cs.foldl String.push b.text) := by
  refine foldlM_ofString? (fun s c => ?_) cs b
  rw [String.utf8ByteSize_push]
  exact Nat.le_add_right _ _

end Text.Buffer

theorem toList_foldl_push (cs : List Char) (s : String) :
    (cs.foldl String.push s).toList = s.toList ++ cs := by
  induction cs generalizing s with
  | nil => exact (List.append_nil _).symm
  | cons c cs ih =>
    rw [List.foldl_cons, ih, String.toList_push, List.append_assoc]
    rfl

namespace RegistrationId

variable {mac : MacAddress} {version : FirmwareVersion}

theorem undotted_digit {c : Char} (h : '0' ≤ c ∧ c ≤ '9') : undotted c = c :=
  if_neg (ne_dot_of_digit h)

/-- A letter `v` read as a dot. -/
def dotted (c : Char) : Char := if c = 'v' then '.' else c

/-- No version has a letter `v`, so its dots can be put back. -/
theorem map_dotted_undotted (version : FirmwareVersion) :
    (version.text.toList.map undotted).map dotted = version.text.toList := by
  rw [List.map_map]
  refine (List.map_congr_left fun c hc => ?_).trans (List.map_id _)
  obtain hdigit | rfl := version.isVersionText.characters c hc
  · have hv : c ≠ 'v' := by
      rintro rfl
      exact absurd hdigit.2 (by decide)
    rw [Function.comp_apply, undotted_digit hdigit, dotted, if_neg hv, id_def]
  · rfl

/-- What all ids for one device begin with, whatever the version of its firmware. -/
def frontText (mac : MacAddress) : String := "az-" ++ mac.text ++ "v"

/-- The text of the id for a device, with a letter `v` for each dot of the version. -/
def generatedText (mac : MacAddress) (version : FirmwareVersion) : List Char :=
  (frontText mac).toList ++ version.text.toList.map undotted

theorem toList_frontText (mac : MacAddress) :
    (frontText mac).toList = "az-".toList ++ mac.digits.map Text.hexChar ++ ['v'] := by
  rw [frontText, String.toList_append, String.toList_append, mac.toList_text]
  rfl

theorem all_frontText (mac : MacAddress) : (frontText mac).toList.all isIdChar := by
  have hdigit (v : Fin 16) : isIdChar (Text.hexChar v) = true := by
    revert v
    decide
  rw [toList_frontText, List.all_append, List.all_append, List.all_map, Bool.and_eq_true,
    Bool.and_eq_true]
  exact ⟨⟨by decide, List.all_eq_true.2 fun v _ => hdigit v⟩, by decide⟩

theorem length_frontText (mac : MacAddress) : (frontText mac).toList.length = 16 := by
  rw [toList_frontText, List.length_append, List.length_append, List.length_map, mac.length_digits]
  rfl

theorem all_generatedText (mac : MacAddress) (version : FirmwareVersion) :
    (generatedText mac version).all isIdChar := by
  rw [generatedText, List.all_append, all_frontText, Bool.true_and, List.all_map, List.all_eq_true]
  intro c hc
  obtain hdigit | rfl := version.isVersionText.characters c hc
  · rw [Function.comp_apply, undotted_digit hdigit]
    exact isIdChar_iff.2 (.inr (.inl hdigit))
  · decide

theorem length_generatedText (mac : MacAddress) (version : FirmwareVersion) :
    (generatedText mac version).length = 16 + version.text.length := by
  rw [generatedText, List.length_append, length_frontText, List.length_map, String.length_toList]

/-- The buffer has room for the text of each device. -/
theorem exists_written (mac : MacAddress) (version : FirmwareVersion) :
    ∃ front id, writeFront? mac = some front ∧ writeVersion? front version = some id ∧
      id.text.toList = generatedText mac version := by
  obtain ⟨front, hfront⟩ := exists_ofString? (by rw [length_frontText]; decide) (all_frontText mac)
  have hfrontText := Text.Buffer.ofString?_eq_some_iff.1 hfront
  have htext : ((version.text.toList.map undotted).foldl String.push front.text).toList =
      generatedText mac version := by
    rw [toList_foldl_push, hfrontText, generatedText]
  have hlength : (generatedText mac version).length ≤ maxIdLength := by
    have hle := version.length_le
    rw [length_generatedText, maxIdLength]
    omega
  obtain ⟨id, hid⟩ := exists_ofString? (by rw [htext]; exact hlength)
    (by rw [htext]; exact all_generatedText mac version)
  refine ⟨front, id, ?_, ?_, ?_⟩
  · rw [writeFront?, Text.Buffer.foldlM_write?]
    exact hfront
  · rw [writeVersion?, Text.Buffer.foldlM_push?]
    exact hid
  · rw [Text.Buffer.ofString?_eq_some_iff.1 hid, htext]

theorem fromDevice_eq (mac : MacAddress) (version : FirmwareVersion) : fromDevice mac version =
    if 16 < version.text.length then .error (.registrationIdTooLong (16 + version.text.length) 32)
    else parse (String.ofList (generatedText mac version)) := by
  obtain ⟨front, id, hfront, hid, htext⟩ := exists_written mac version
  have hsize : id.text.utf8ByteSize = 16 + version.text.length := by
    rw [utf8ByteSize_eq_length (by rw [htext]; exact all_generatedText mac version), htext,
      length_generatedText]
  have hlimit : maxGeneratedLength < 16 + version.text.length ↔ 16 < version.text.length := by
    rw [maxGeneratedLength]
    omega
  simp only [fromDevice, hfront, hid, hsize, hlimit, ← htext, String.ofList_toList]
  rfl

theorem exists_generated (mac : MacAddress) (h : version.text.length ≤ 16) :
    ∃ id : RegistrationId, id.text = String.ofList (generatedText mac version) := by
  have hlength := length_generatedText mac version
  refine ⟨⟨String.ofList (generatedText mac version), ?_, ?_, ?_⟩, rfl⟩
  · rw [String.toList_ofList, ← List.length_pos_iff]
    omega
  · rw [String.toList_ofList, maxIdLength]
    omega
  · rw [String.toList_ofList]
    exact all_generatedText mac version

theorem fromDevice_eq_ok_iff {id : RegistrationId} : fromDevice mac version = .ok id ↔
    version.text.length ≤ 16 ∧ id.text.toList = generatedText mac version := by
  rw [fromDevice_eq]
  split
  next hlong => exact iff_of_false nofun fun h => Nat.not_lt.2 h.1 hlong
  next hshort =>
    rw [parse_eq_ok_iff, ← String.toList_inj, String.toList_ofList]
    exact ⟨fun h => ⟨Nat.not_lt.1 hshort, h⟩, And.right⟩

/-- The only error for a device is that the id is too long. -/
theorem fromDevice_eq_error_iff {e : Error} : fromDevice mac version = .error e ↔
    16 < version.text.length ∧ e = .registrationIdTooLong (16 + version.text.length) 32 := by
  rw [fromDevice_eq]
  split
  next hlong =>
    rw [Except.error.injEq, eq_comm]
    exact ⟨fun he => ⟨hlong, he⟩, And.right⟩
  next hshort =>
    obtain ⟨id, hid⟩ := exists_generated mac (Nat.not_lt.1 hshort)
    rw [← hid, parse_eq_ok_iff.2 rfl]
    exact iff_of_false nofun fun h => hshort h.1

theorem exists_fromDevice_iff : (∃ id, fromDevice mac version = .ok id) ↔ version.text.length ≤ 16 := by
  simp only [fromDevice_eq_ok_iff]
  constructor
  · rintro ⟨id, hshort, -⟩
    exact hshort
  · intro hshort
    obtain ⟨id, hid⟩ := exists_generated mac hshort
    exact ⟨id, hshort, by rw [hid, String.toList_ofList]⟩

/-- The text shows the address and the version, since the address has a fixed length. -/
theorem generatedText_inj {mac' : MacAddress} {version' : FirmwareVersion}
    (h : generatedText mac version = generatedText mac' version') :
    mac = mac' ∧ version = version' := by
  obtain ⟨hfront, hback⟩ := List.append_inj h (by rw [length_frontText, length_frontText])
  constructor
  · rw [toList_frontText, toList_frontText] at hfront
    have hdigits := List.append_cancel_left (List.append_cancel_right hfront)
    have hinjective : Function.Injective Text.hexChar := fun _ _ => Text.hexChar_injective
    have hdigits : mac.digits = mac'.digits := hinjective.list_map hdigits
    cases mac
    cases mac'
    cases hdigits
    rfl
  · have htext : version.text = version'.text := by
      rw [← String.toList_inj, ← map_dotted_undotted version, hback, map_dotted_undotted version']
    cases version
    cases version'
    cases htext
    rfl

/-- Generated ids do not collide: from the id, the address is known up to case and colons, and the
version as it was given. -/
theorem fromDevice_injective {m m' v v' : String} {mac mac' : MacAddress}
    {version version' : FirmwareVersion} {id : RegistrationId} (hm : MacAddress.parse m = .ok mac)
    (hm' : MacAddress.parse m' = .ok mac') (hv : FirmwareVersion.parse v = .ok version)
    (hv' : FirmwareVersion.parse v' = .ok version') (h : fromDevice mac version = .ok id)
    (h' : fromDevice mac' version' = .ok id) :
    mac = mac' ∧ (bareDigits m).map Char.toLower = (bareDigits m').map Char.toLower ∧
      version = version' ∧ v = v' := by
  have htext := (fromDevice_eq_ok_iff.1 h).2
  rw [(fromDevice_eq_ok_iff.1 h').2] at htext
  obtain ⟨rfl, rfl⟩ := generatedText_inj htext
  refine ⟨rfl, ?_, rfl, ?_⟩
  · rw [MacAddress.parse_eq_ok_iff.1 hm, MacAddress.parse_eq_ok_iff.1 hm']
  · rw [← FirmwareVersion.parse_eq_ok_iff.1 hv, FirmwareVersion.parse_eq_ok_iff.1 hv']

def sampleMac : MacAddress := ⟨"c89346aa01ff".toList.filterMap Text.hexValue?, by decide⟩

def sampleVersion : FirmwareVersion := ⟨"1.3.7", by decide⟩

def sampleId : RegistrationId := ⟨"az-c89346aa01ffv1v3v7", by decide, by decide, by decide⟩

/-- Two spellings of one address give one id. -/
theorem fromDevice_injective_sample :
    MacAddress.parse "C8:93:46:AA:01:ff" = .ok sampleMac ∧
    MacAddress.parse "c89346aa01FF" = .ok sampleMac ∧
    FirmwareVersion.parse "1.3.7" = .ok sampleVersion ∧
    fromDevice sampleMac sampleVersion = .ok sampleId ∧
    (bareDigits "C8:93:46:AA:01:ff").map Char.toLower = (bareDigits "c89346aa01FF").map Char.toLower := by
  have hm : MacAddress.parse "C8:93:46:AA:01:ff" = .ok sampleMac :=
    MacAddress.parse_eq_ok_iff.2 (by decide)
  have hm' : MacAddress.parse "c89346aa01FF" = .ok sampleMac :=
    MacAddress.parse_eq_ok_iff.2 (by decide)
  have hv : FirmwareVersion.parse "1.3.7" = .ok sampleVersion :=
    FirmwareVersion.parse_eq_ok_iff.2 rfl
  have hid : fromDevice sampleMac sampleVersion = .ok sampleId :=
    fromDevice_eq_ok_iff.2 ⟨by decide, by decide⟩
  obtain ⟨-, hdigits, -, -⟩ := fromDevice_injective hm hm' hv hv hid hid
  exact ⟨hm, hm', hv, hid, hdigits⟩

/-- Why no id can be made of a MAC address and a version. -/
inductive DeviceFault (mac version : String) : Error → Prop
  | mac (hmac : ¬ IsMacText mac) : DeviceFault mac version .invalidMacAddress
  | version (hmac : IsMacText mac)
      (hversion : ¬ IsVersionText version ∨ 32 < version.utf8ByteSize) :
      DeviceFault mac version .invalidFirmwareVersion
  | tooLong (hmac : IsMacText mac) (hversion : IsVersionText version)
      (hsize : version.utf8ByteSize ≤ 32) (hlong : 16 < version.length) :
      DeviceFault mac version (.registrationIdTooLong (16 + version.length) 32)

section Resolve

variable {supplied : Option String} {m v : String}

theorem resolve_of_absent (h : supplied = none ∨ supplied = some "") : resolve supplied m v =
    MacAddress.parse m >>= fun mac => FirmwareVersion.parse v >>= fun version =>
      fromDevice mac version := by
  obtain rfl | rfl := h <;> rfl

theorem resolve_of_supplied {s : String} (h : s ≠ "") : resolve (some s) m v = parse s := by
  rw [resolve, Option.filter_some, if_pos (by simpa using h)]

theorem resolve_eq_ok_iff (h : supplied = none ∨ supplied = some "") {id : RegistrationId} :
    resolve supplied m v = .ok id ↔ ∃ mac version, MacAddress.parse m = .ok mac ∧
      version.text = v ∧ fromDevice mac version = .ok id := by
  rw [resolve_of_absent h]
  simp only [bind_eq_ok_iff, FirmwareVersion.parse_eq_ok_iff, exists_and_left]

theorem exists_resolve_iff (h : supplied = none ∨ supplied = some "") :
    (∃ id, resolve supplied m v = .ok id) ↔ IsMacText m ∧ IsVersionText v ∧ v.length ≤ 16 := by
  simp only [resolve_eq_ok_iff h]
  constructor
  · rintro ⟨id, mac, version, hmac, rfl, hid⟩
    exact ⟨MacAddress.exists_parse_iff.1 ⟨mac, hmac⟩, version.isVersionText,
      exists_fromDevice_iff.1 ⟨id, hid⟩⟩
  · rintro ⟨hm, hv, hlength⟩
    obtain ⟨mac, hmac⟩ := MacAddress.exists_parse_iff.2 hm
    have hsize : v.utf8ByteSize ≤ 32 := by
      rw [hv.utf8ByteSize_eq]
      omega
    have hvalid := FirmwareVersion.isVersion_iff.2 ⟨hv, hsize⟩
    obtain ⟨id, hid⟩ := (@exists_fromDevice_iff mac ⟨v, hvalid⟩).2 hlength
    exact ⟨id, mac, _, hmac, rfl, hid⟩

/-- The text of the id, read off the given texts. -/
theorem toList_text_of_resolve (h : supplied = none ∨ supplied = some "") {id : RegistrationId}
    (hresolve : resolve supplied m v = .ok id) : id.text.toList =
      "az-".toList ++ (bareDigits m).map Char.toLower ++
        'v' :: v.toList.map fun c => if c = '.' then 'v' else c := by
  obtain ⟨mac, version, hmac, rfl, hid⟩ := (resolve_eq_ok_iff h).1 hresolve
  rw [(fromDevice_eq_ok_iff.1 hid).2, generatedText, toList_frontText,
    MacAddress.parse_eq_ok_iff.1 hmac, mac.toList_text, List.append_assoc]
  rfl

theorem resolve_eq_error_iff (h : supplied = none ∨ supplied = some "") {e : Error} :
    resolve supplied m v = .error e ↔ DeviceFault m v e := by
  simp only [resolve_of_absent h, bind_eq_error_iff, MacAddress.parse_eq_error_iff,
    FirmwareVersion.parse_eq_error_iff, FirmwareVersion.parse_eq_ok_iff, fromDevice_eq_error_iff]
  constructor
  · rintro (⟨hm, rfl⟩ | ⟨mac, hmac, ⟨hv, rfl⟩ | ⟨version, rfl, hlong, rfl⟩⟩)
    · exact .mac hm
    · exact .version (MacAddress.exists_parse_iff.1 ⟨mac, hmac⟩) hv
    · obtain ⟨hv, hsize⟩ := FirmwareVersion.isVersion_iff.1 version.valid
      exact .tooLong (MacAddress.exists_parse_iff.1 ⟨mac, hmac⟩) hv hsize hlong
  · rintro (hm | ⟨hm, hv⟩ | ⟨hm, hv, hsize, hlong⟩)
    · exact .inl ⟨hm, rfl⟩
    · obtain ⟨mac, hmac⟩ := MacAddress.exists_parse_iff.2 hm
      exact .inr ⟨mac, hmac, .inl ⟨hv, rfl⟩⟩
    · obtain ⟨mac, hmac⟩ := MacAddress.exists_parse_iff.2 hm
      exact .inr ⟨mac, hmac, .inr ⟨⟨v, FirmwareVersion.isVersion_iff.2 ⟨hv, hsize⟩⟩, rfl, hlong, rfl⟩⟩

end Resolve

/-- An id is made exactly of well-formed data, and shows them; otherwise the error is about the
address, then about the form of the version, then about its length. An id that is supplied is never
replaced. For an address and a version of the right form, the buffer has room for the text, which
passes the validation if it is not too long, and nothing else can go wrong. -/
theorem resolve_by_device_data (m v : String) :
    (∀ supplied : Option String, supplied = none ∨ supplied = some "" →
      ((∃ id, resolve supplied m v = .ok id) ↔ IsMacText m ∧ IsVersionText v ∧ v.length ≤ 16) ∧
      (∀ id, resolve supplied m v = .ok id → id.text.toList =
        "az-".toList ++ (bareDigits m).map Char.toLower ++
          'v' :: v.toList.map fun c => if c = '.' then 'v' else c) ∧
      ∀ e, resolve supplied m v = .error e ↔ DeviceFault m v e) ∧
    (∀ s, s ≠ "" → resolve (some s) m v = parse s) ∧
    ∀ (mac : MacAddress) (version : FirmwareVersion),
      (∃ front written, writeFront? mac = some front ∧ writeVersion? front version = some written ∧
        (version.text.length ≤ 16 → ∃ id, parse written.text = .ok id)) ∧
      ∀ e, fromDevice mac version = .error e ↔
        16 < version.text.length ∧ e = .registrationIdTooLong (16 + version.text.length) 32 := by
  refine ⟨fun supplied h => ⟨exists_resolve_iff h, fun id hid => toList_text_of_resolve h hid,
    fun e => resolve_eq_error_iff h⟩, fun s hs => resolve_of_supplied hs, fun mac version =>
    ⟨?_, fun e => fromDevice_eq_error_iff⟩⟩
  obtain ⟨front, written, hfront, hwritten, htext⟩ := exists_written mac version
  refine ⟨front, written, hfront, hwritten, fun hshort => ?_⟩
  obtain ⟨id, hid⟩ := exists_generated mac hshort
  rw [← htext, String.ofList_toList] at hid
  exact ⟨id, parse_eq_ok_iff.2 hid⟩

/-- A version of 16 characters is the longest for which there is an id. -/
theorem resolve_by_device_data_sample :
    (∃ id, resolve (some "") "C8:93:46:AA:01:ff" "123456.1234567.1" = .ok id ∧
      id.text = "az-c89346aa01ffv123456v1234567v1") ∧
    resolve none "C8:93:46:AA:01:ff" "1234567.1234567.1" =
      .error (.registrationIdTooLong 33 32) := by
  have hm : IsMacText "C8:93:46:AA:01:ff" :=
    MacAddress.exists_parse_iff.1 ⟨sampleMac, MacAddress.parse_eq_ok_iff.2 (by decide)⟩
  constructor
  · obtain ⟨hresolve, -⟩ := resolve_by_device_data "C8:93:46:AA:01:ff" "123456.1234567.1"
    obtain ⟨hiff, htext, -⟩ := hresolve (some "") (.inr rfl)
    have hv : IsVersionText "123456.1234567.1" := (FirmwareVersion.isVersion_iff.1 (by decide)).1
    obtain ⟨id, hid⟩ := hiff.2 ⟨hm, hv, by decide⟩
    exact ⟨id, hid, String.toList_inj.1 ((htext id hid).trans (by decide))⟩
  · obtain ⟨hresolve, -⟩ := resolve_by_device_data "C8:93:46:AA:01:ff" "1234567.1234567.1"
    obtain ⟨-, -, herror⟩ := hresolve none (.inl rfl)
    have hv := FirmwareVersion.isVersion_iff.1 (by decide : FirmwareVersion.isVersion
      "1234567.1234567.1".toList = true)
    exact (herror _).2 (.tooLong hm hv.1 hv.2 (by decide))

end RegistrationId

end MeasuredIdentity
