import ContainerJobs.Time.Calendar
import ContainerJobs.Text.Decimal

/-!
# Instants

An instant is a second in UTC and the nanoseconds after its start. A leap second
is the second before it with a billion nanoseconds more, so instants are ordered
by second first. `rfc3339` writes the fewest fraction digits, in groups of
three, that are exact.
-/

namespace ContainerJobs

/-- A point in time. -/
structure Instant where
  /-- Whole seconds since 1970-01-01T00:00:00Z, leap seconds not counted. -/
  second : Int
  /-- Nanoseconds after the start of the second; a billion or more within a leap
      second. -/
  nano : Nat
deriving DecidableEq, Repr

namespace Instant

/-- A billion: the nanoseconds of a second. -/
def nanosPerSecond : Nat := 1000000000

/-- The seconds of a day. -/
def secondsPerDay : Int := 86400

/-- The day of an instant, counted from 1970-01-01. -/
def day (t : Instant) : Int := t.second / secondsPerDay

/-- The second of the day. -/
def secondOfDay (t : Instant) : Int := t.second % secondsPerDay

/-- The instant comes before another or is the same. -/
def le (s t : Instant) : Bool :=
  s.second < t.second || (s.second == t.second && s.nano ≤ t.nano)

/-- The nanoseconds from `earlier` to `later`. A leap second that lies in between
    by the clock counts; which of two seconds is the later one is judged by the
    time of day. -/
def nanosBetween (earlier later : Instant) : Int :=
  let counted : Int :=
    if earlier.secondOfDay < later.secondOfDay && nanosPerSecond ≤ earlier.nano then 1
    else if later.secondOfDay < earlier.secondOfDay && nanosPerSecond ≤ later.nano then -1
    else 0
  (later.second - earlier.second + counted) * nanosPerSecond +
    ((later.nano : Int) - (earlier.nano : Int))

/-- More than `limit` seconds have passed from `since` to `now`. An instant that
    is still to come has no age. -/
def isOlderThan (since now : Instant) (limit : Nat) : Bool :=
  let age := nanosBetween since now
  0 ≤ age && (limit * nanosPerSecond : Nat) < age

/-! ## Text -/

/-- The year: four digits, or a sign and at least four digits outside 0 to 9999. -/
def yearText (year : Int) : List Char :=
  let ds := Text.padded 4 year.natAbs
  if year < 0 then '-' :: ds else if 9999 < year then '+' :: ds else ds

/-- The fraction of a second with its point, or nothing for a whole second. -/
def fractionText (nano : Nat) : List Char :=
  if nano = 0 then []
  else if nano % 1000000 = 0 then '.' :: Text.padded 3 (nano / 1000000)
  else if nano % 1000 = 0 then '.' :: Text.padded 6 (nano / 1000)
  else '.' :: Text.padded 9 nano

/-- The instant in UTC, with `zone` at its end. -/
def textWithZone (t : Instant) (zone : List Char) : List Char :=
  let d := Date.ofDayNumber t.day
  let s := t.secondOfDay.toNat
  let leap := t.nano / nanosPerSecond
  yearText d.year ++ '-' :: Text.padded 2 d.month ++ '-' :: Text.padded 2 d.day ++
    'T' :: Text.padded 2 (s / 3600) ++ ':' :: Text.padded 2 (s / 60 % 60) ++
    ':' :: Text.padded 2 (s % 60 + leap) ++ fractionText (t.nano % nanosPerSecond) ++ zone

/-- The instant in UTC, ended by `Z`. -/
def rfc3339 (t : Instant) : String :=
  String.ofList (t.textWithZone ['Z'])

/-- The instant in UTC, ended by a numeric offset of zero. -/
def rfc3339WithOffset (t : Instant) : String :=
  String.ofList (t.textWithZone ['+', '0', '0', ':', '0', '0'])

end Instant

end ContainerJobs
