import MeasuredIdentity.Calendar
import MeasuredIdentity.Der.Element

/-!
UTCTime: an instant from 1970 to 2049 in whole seconds, written as `YYMMDDHHMMSSZ`.
-/
namespace MeasuredIdentity.Der

/-- An instant in seconds since 1970-01-01, before 2050-01-01. -/
structure UtcTime where
  seconds : Nat
  lt_limit : seconds < 2524608000
  deriving DecidableEq

namespace UtcTime

/-- The last year that has UTCTimes. -/
def lastYear : Nat := 2049

theorem lt_limit_of_year {seconds : Nat}
    (h : (Calendar.ofDays (seconds / 86400)).year ≤ lastYear) : seconds < 2524608000 := by
  have := Calendar.lt_of_year_ofDays (Nat.lt_succ_of_le h)
  omega

/-- Two decimal digits. -/
def twoDigits (n : Nat) : Bytes := [UInt8.ofNat (48 + n / 10 % 10), UInt8.ofNat (48 + n % 10)]

def content (t : UtcTime) : Bytes :=
  let date := Calendar.ofDays (t.seconds / 86400)
  let second := t.seconds % 86400
  twoDigits (date.year % 100) ++ twoDigits date.month ++ twoDigits date.day
    ++ twoDigits (second / 3600) ++ twoDigits (second / 60 % 60) ++ twoDigits (second % 60)
    ++ [0x5a]

def digit? (x : UInt8) : Option Nat :=
  if 48 ≤ x ∧ x ≤ 57 then some (x.toNat - 48) else none

def number? (a b : UInt8) : Option Nat := do return 10 * (← digit? a) + (← digit? b)

/-- The instant of a valid date and time of day; a two-digit year from 50 on is in the 1900s. -/
def ofFields? (yy month day hour minute second : Nat) : Option UtcTime :=
  let date : Calendar.Date := ⟨if 50 ≤ yy then 1900 + yy else 2000 + yy, month, day⟩
  let seconds := 86400 * date.toDays + 3600 * hour + 60 * minute + second
  if h : date.isValid ∧ hour < 24 ∧ minute < 60 ∧ second < 60 ∧ seconds < 2524608000 then
    some ⟨seconds, h.2.2.2.2⟩
  else none

def ofContent? : Bytes → Option UtcTime
  | [y₁, y₂, o₁, o₂, d₁, d₂, h₁, h₂, m₁, m₂, s₁, s₂, 0x5a] => do
    ofFields? (← number? y₁ y₂) (← number? o₁ o₂) (← number? d₁ d₂) (← number? h₁ h₂)
      (← number? m₁ m₂) (← number? s₁ s₂)
  | _ => none

def encode (t : UtcTime) : Bytes := element .utcTime t.content

def decode : Decoder UtcTime := do
  Decoder.ofOption (ofContent? (← Der.content .utcTime))

end UtcTime

end MeasuredIdentity.Der
