import MeasuredIdentity.Der.Time
import MeasuredIdentity.Error

/-!
Validity periods, as configured in seconds since 1970 and as two UTCTime values.
-/
namespace MeasuredIdentity.X509

open Der

structure Validity where
  notBefore : UtcTime
  notAfter : UtcTime
  deriving DecidableEq

namespace Validity

def encode (v : Validity) : Bytes := element .sequence (v.notBefore.encode ++ v.notAfter.encode)

def decode : Decoder Validity := inside .sequence do
  return ⟨← UtcTime.decode, ← UtcTime.decode⟩

end Validity

/-- The last second of the year 9999. -/
def lastSecond : Nat := 253402300799

/-- The instant with this number of seconds, by its date. Years from 10000 on are no dates at all;
other years from 2050 on have no UTCTime. -/
def instant (seconds : Nat) : Except Error UtcTime :=
  if lastSecond < seconds then .error (.invalidDer .dateTime)
  else if h : (Calendar.ofDays (seconds / 86400)).year ≤ UtcTime.lastYear then
    .ok ⟨seconds, UtcTime.lt_limit_of_year h⟩
  else .error (.invalidDer .utcTimeRange)

structure ValidityPeriod where
  notBefore : Nat
  notAfter : Nat
  deriving DecidableEq

namespace ValidityPeriod

/-- From 2017-01-01 to 2037-01-01. -/
def standard : ValidityPeriod := ⟨1483228800, 2114380800⟩

def toValidity (p : ValidityPeriod) : Except Error Validity := do
  return ⟨← instant p.notBefore, ← instant p.notAfter⟩

end ValidityPeriod

end MeasuredIdentity.X509
