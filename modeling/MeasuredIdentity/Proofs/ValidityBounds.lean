import MeasuredIdentity.Proofs.DayCount
import MeasuredIdentity.Proofs.IssueFailure
import MeasuredIdentity.Proofs.NameCodec

/-!
The bounds of a validity in seconds and as dates. A period has a validity exactly if both bounds lie
before 2050. Its encoding writes the dates and times of day that the calendar gives to the bounds, and
is read back as the same two numbers of seconds.
-/
namespace MeasuredIdentity

namespace Calendar

/-- The years before 2050 take up the first 29220 days. -/
theorem year_dateAfter_lt_iff {days : ℕ} : (dateAfter days).year < 2050 ↔ days < 29220 := by
  rw [← ofDays_eq_dateAfter]
  constructor
  · intro h
    exact lt_of_year_ofDays h
  · intro h
    exact (year_ofDays h).2

end Calendar

namespace Der.UtcTime

open Calendar

/-- The text writes this number of seconds since 1970: the date that the days lead to, the year by
its last two digits, then the time of day, and a `Z`. -/
def Writes (text : Bytes) (seconds : ℕ) : Prop :=
  ∃ days hour minute second, hour < 24 ∧ minute < 60 ∧ second < 60 ∧
    seconds = 86400 * days + 3600 * hour + 60 * minute + second ∧
    text = twoDigits ((dateAfter days).year % 100) ++ twoDigits (dateAfter days).month
      ++ twoDigits (dateAfter days).day ++ twoDigits hour ++ twoDigits minute ++ twoDigits second
      ++ [0x5a]

theorem writes_content (t : UtcTime) : Writes t.content t.seconds := by
  refine ⟨t.seconds / 86400, t.seconds % 86400 / 3600, t.seconds % 86400 / 60 % 60,
    t.seconds % 86400 % 60, by omega, by omega, by omega, by omega, ?_⟩
  rw [← ofDays_eq_dateAfter]
  rfl

theorem encode_eq (t : UtcTime) : t.encode = [0x17, 0x0d] ++ t.content :=
  element_eq_of_length t.length_content (by decide)

end Der.UtcTime

namespace X509

open Der Calendar

theorem Validity.encode_eq (v : Validity) : v.encode =
    [0x30, 0x1e, 0x17, 0x0d] ++ v.notBefore.content ++ [0x17, 0x0d] ++ v.notAfter.content := by
  have hlength : (v.notBefore.encode ++ v.notAfter.encode).length = 30 := by
    rw [List.length_append, UtcTime.length_encode, UtcTime.length_encode]
  rw [Validity.encode, element_eq_of_length hlength (by decide), UtcTime.encode_eq, UtcTime.encode_eq]
  simp [Tag.sequence]

theorem Validity.decode_encode (v : Validity) : Validity.decode.whole v.encode = some v := by
  apply Validity.readsBack.decode_whole
  rw [v.length_encode]
  decide

theorem Validity.encode_injective : Function.Injective Validity.encode := by
  intro v w h
  have hread := congrArg Validity.decode.whole h
  rw [v.decode_encode, w.decode_encode] at hread
  exact Option.some.inj hread

namespace ValidityPeriod

variable {p q : ValidityPeriod} {v w : Validity}

theorem hasUtcTimes_iff_year : p.HasUtcTimes ↔
    (dateAfter (p.notBefore / 86400)).year < 2050 ∧ (dateAfter (p.notAfter / 86400)).year < 2050 := by
  rw [year_dateAfter_lt_iff, year_dateAfter_lt_iff]
  constructor
  · intro h
    have hbefore : p.notBefore < 2524608000 := h.notBefore
    have hafter : p.notAfter < 2524608000 := h.notAfter
    omega
  · intro h
    exact ⟨by show p.notBefore < 2524608000; omega, by show p.notAfter < 2524608000; omega⟩

/-- A validity determines the period that it is made from. -/
theorem eq_of_toValidity_eq (hp : p.toValidity = .ok v) (hq : q.toValidity = .ok v) : p = q := by
  rw [toValidity_eq_ok_iff] at hp hq
  cases p
  cases q
  simp_all

/-- A period of any two numbers of seconds has a validity exactly if both are below 2524608000, that
is, in years before 2050, and every other period is refused with an error of the encoding. The
encoding of a validity has 32 bytes and writes the two bounds. Reading it gives the bounds again, so
no other period has it. -/
theorem toValidity_keeps_bounds (p : ValidityPeriod) :
    ((∃ v, p.toValidity = .ok v) ↔ p.notBefore < 2524608000 ∧ p.notAfter < 2524608000) ∧
    ((∃ v, p.toValidity = .ok v) ↔
      (dateAfter (p.notBefore / 86400)).year < 2050 ∧ (dateAfter (p.notAfter / 86400)).year < 2050) ∧
    (∀ e, p.toValidity = .error e → ∃ cause, e = .invalidDer cause) ∧
    ∀ v, p.toValidity = .ok v →
      (∃ before after, UtcTime.Writes before p.notBefore ∧ UtcTime.Writes after p.notAfter ∧
        v.encode = [0x30, 0x1e, 0x17, 0x0d] ++ before ++ [0x17, 0x0d] ++ after) ∧
      v.encode.length = 32 ∧
      (∃ w, Validity.decode.whole v.encode = some w ∧
        w.notBefore.seconds = p.notBefore ∧ w.notAfter.seconds = p.notAfter) ∧
      ∀ q w, q.toValidity = .ok w → w.encode = v.encode → q = p := by
  refine ⟨?_, ?_, ?_, ?_⟩
  · rw [← hasUtcTimes_iff]
    constructor
    · intro h
      exact ⟨h.notBefore, h.notAfter⟩
    · intro h
      exact ⟨h.1, h.2⟩
  · rw [← hasUtcTimes_iff, hasUtcTimes_iff_year]
  · intro e he
    obtain ⟨cause, hcause, -⟩ := toValidity_error he
    exact ⟨cause, hcause⟩
  · intro v hv
    obtain ⟨hbefore, hafter⟩ := toValidity_eq_ok_iff.1 hv
    refine ⟨⟨_, _, ?_, ?_, v.encode_eq⟩, v.length_encode, ⟨v, v.decode_encode, hbefore, hafter⟩, ?_⟩
    · rw [← hbefore]
      exact v.notBefore.writes_content
    · rw [← hafter]
      exact v.notAfter.writes_content
    · intro q w hw hencode
      rw [Validity.encode_injective hencode] at hw
      exact eq_of_toValidity_eq hw hv

/-- The last second of the year 2049, and the largest number of seconds in 64 bits. -/
example : (ValidityPeriod.mk 0 2524607999).toValidity = .ok ⟨⟨0, by decide⟩, ⟨2524607999, by decide⟩⟩ ∧
    (ValidityPeriod.mk 0 18446744073709551615).toValidity = .error (.invalidDer .dateTime) :=
  ⟨toValidity_eq_ok_iff.2 ⟨rfl, rfl⟩, by decide +kernel⟩

end ValidityPeriod

end X509

end MeasuredIdentity
