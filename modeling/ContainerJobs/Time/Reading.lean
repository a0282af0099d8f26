import ContainerJobs.Time.Instant
import ContainerJobs.Text.Blank
import ContainerJobs.Text.Split

/-!
# Reading times

Three spellings of an instant:

* `Instant.ofStrict?` reads exactly the profile of RFC 3339 that container
  engines write;
* `Instant.ofRelaxed?` reads the times inside JSON data, where numbers may be
  shorter, blanks may stand between the parts, the year may have a sign and the
  offset may be spelt `UTC`;
* `Instant.ofListing?` reads the creation time of a container listing, such as
  `2024-05-01 10:00:00 +0000 UTC`.

Each reads the parts of a `Stamp` from left to right, and `Stamp.instant?` says
whether they name an instant. The second 60 is a leap second at any minute.
-/

namespace ContainerJobs

/-- The parts of a written time. -/
structure Stamp where
  /-- The date. -/
  date : Date
  /-- The hour. -/
  hour : Nat
  /-- The minute. -/
  minute : Nat
  /-- The second, 60 for a leap second. -/
  second : Nat
  /-- The nanoseconds of the fraction. -/
  nano : Nat := 0
  /-- The offset from UTC in seconds. -/
  offset : Int := 0

namespace Stamp

/-- The first year that dates are kept for. -/
def firstYear : Int := -262143

/-- The last year that dates are kept for. -/
def lastYear : Int := 262142

/-- The day lies in the years that dates are kept for. -/
def isKept (day : Int) : Bool :=
  ({ year := firstYear, month := 1, day := 1 } : Date).dayNumber ≤ day &&
    day ≤ ({ year := lastYear, month := 12, day := 31 } : Date).dayNumber

/-- The instant, if date and time exist, the offset is shorter than a day, and
    both the local day and the day in UTC are kept. -/
def instant? (s : Stamp) : Option Instant :=
  let seconds := s.date.dayNumber * 86400 + (s.hour * 3600 + s.minute * 60 + min s.second 59 : Nat)
  let t : Instant :=
    { second := seconds - s.offset
      nano := s.nano + if s.second = 60 then Instant.nanosPerSecond else 0 }
  if s.date.Exists ∧ s.hour ≤ 23 ∧ s.minute ≤ 59 ∧ s.second ≤ 60 ∧ s.offset.natAbs < 86400 ∧
      isKept s.date.dayNumber ∧ isKept t.day then some t
  else none

end Stamp

namespace Time

/-- A value read from the start of a text, and the rest of the text. -/
abbrev Read (α : Type) := List Char → Option (α × List Char)

/-- Takes the ASCII digits at the start of a text, but at most `max`. -/
def takeDigits : (max : Nat) → List Char → List Char × List Char
  | max + 1, c :: r =>
    if c.isDigit then
      let (ds, r) := takeDigits max r
      (c :: ds, r)
    else ([], c :: r)
  | _, l => ([], l)

/-- A number of at least `min` and at most `max` digits. -/
def number? (min max : Nat) : Read Nat := fun l =>
  let (ds, r) := takeDigits max l
  if ds.length < min then none else some (Nat.ofDigitChars 10 ds 0, r)

/-- The character `c`. -/
def char? (c : Char) : List Char → Option (List Char)
  | d :: r => if d = c then some r else none
  | [] => none

/-- The separator of date and time: a T of either case, or a space. -/
def separator? : List Char → Option (List Char)
  | c :: r => if c = 'T' || c = 't' || c = ' ' then some r else none
  | [] => none

/-- The nanoseconds of a fraction, if the text starts with a point. Digits after
    the ninth are dropped. -/
def fraction? : Read Nat
  | '.' :: r =>
    let (ds, r) := takeDigits 9 r
    if ds.isEmpty then none
    else some (Nat.ofDigitChars 10 ds 0 * Nat.pow 10 (9 - ds.length), r.dropWhile Char.isDigit)
  | r => some (0, r)

/-- The sign of an offset; U+2212 is a minus sign too. -/
def sign? : Read Int
  | c :: r =>
    if c = '+' then some (1, r)
    else if c = '-' || c = '−' then some (-1, r)
    else none
  | [] => none

/-- An offset in seconds: sign, two digits of hours, what `between` takes, two
    digits of minutes. -/
def offset? (between : List Char → Option (List Char)) : Read Int := fun l => do
  let (sign, l) ← sign? l
  let (hours, l) ← number? 2 2 l
  let l ← between l
  let (minutes, l) ← number? 2 2 l
  if minutes ≤ 59 then some (sign * (hours * 3600 + minutes * 60 : Nat), l) else none

/-- Any number of colons and blanks. -/
def colonsAndBlanks (l : List Char) : List Char :=
  l.dropWhile fun c => c == ':' || Text.isBlank c

/-- An offset, or a Z of either case for none. -/
def zone? (between : List Char → Option (List Char)) : Read Int
  | c :: r => if c = 'Z' || c = 'z' then some (0, r) else offset? between (c :: r)
  | [] => none

/-- A number of at most `max` digits after any blanks. -/
def spacedNumber? (max : Nat) : Read Nat := fun l =>
  number? 1 max (Text.skipBlanks l)

/-- A year after any blanks: up to four digits, or a sign and any number of
    digits. -/
def spacedYear? : Read Int := fun l =>
  match Text.skipBlanks l with
  | '-' :: r => (number? 1 r.length r).map fun (n, r) => (-(n : Int), r)
  | '+' :: r => (number? 1 r.length r).map fun (n, r) => ((n : Int), r)
  | r => (number? 1 4 r).map fun (n, r) => ((n : Int), r)

/-- Year, month and day with hyphens between them, where `gap` takes what may
    stand before a hyphen. -/
def spacedDate? (gap : List Char → List Char) : Read Date := fun l => do
  let (year, l) ← spacedYear? l
  let l ← char? '-' (gap l)
  let (month, l) ← spacedNumber? 2 l
  let l ← char? '-' (gap l)
  let (day, l) ← spacedNumber? 2 l
  return ({ year, month, day }, l)

/-- Hour, minute and second with colons between them, where `gap` takes what may
    stand before a colon. -/
def spacedTime? (gap : List Char → List Char) : Read (Nat × Nat × Nat) := fun l => do
  let (hour, l) ← spacedNumber? 2 l
  let l ← char? ':' (gap l)
  let (minute, l) ← spacedNumber? 2 l
  let l ← char? ':' (gap l)
  let (second, l) ← spacedNumber? 2 l
  return ((hour, minute, second), l)

/-- The rest of a text after the letters `UTC` in any case. -/
def afterUtc? : List Char → Option (List Char)
  | u :: t :: c :: r =>
    if [u, t, c].map Char.toUpper = ['U', 'T', 'C'] then some r else none
  | _ => none

end Time

namespace Instant

open Time

/-- The instant of a text in the strict spelling. -/
def ofStrict? (l : List Char) : Option Instant := do
  let (year, l) ← number? 4 4 l
  let l ← char? '-' l
  let (month, l) ← number? 2 2 l
  let l ← char? '-' l
  let (day, l) ← number? 2 2 l
  let l ← separator? l
  let (hour, l) ← number? 2 2 l
  let l ← char? ':' l
  let (minute, l) ← number? 2 2 l
  let l ← char? ':' l
  let (second, l) ← number? 2 2 l
  let (nano, l) ← fraction? l
  let (offset, l) ← zone? (char? ':') l
  let stamp : Stamp :=
    { date := { year := (year : Int), month, day }, hour, minute, second, nano, offset }
  if l.isEmpty then stamp.instant? else none

/-- The instant of a text in the relaxed spelling. -/
def ofRelaxed? (l : List Char) : Option Instant := do
  let (date, l) ← spacedDate? Text.skipBlanks l
  let l ← separator? l
  let ((hour, minute, second), l) ← spacedTime? Text.skipBlanks l
  let (nano, l) ← fraction? l
  let l := Text.skipBlanks l
  let (offset, l) ← match afterUtc? l with
    | some r => some (0, r)
    | none => zone? (fun r => some (colonsAndBlanks r)) l
  let stamp : Stamp := { date, hour, minute, second, nano, offset }
  if (Text.skipBlanks l).isEmpty then stamp.instant? else none

/-- The instant of date, time and numeric offset. A blank between the parts may
    be repeated or missing. -/
def ofDateTimeOffset? (l : List Char) : Option Instant := do
  let (date, l) ← spacedDate? id l
  let ((hour, minute, second), l) ← spacedTime? id l
  let (offset, l) ← offset? (fun r => some (colonsAndBlanks r)) (Text.skipBlanks l)
  let stamp : Stamp := { date, hour, minute, second, offset }
  if l.isEmpty then stamp.instant? else none

/-- The instant of date and time in UTC, without an offset. -/
def ofDateTime? (l : List Char) : Option Instant := do
  let (date, l) ← spacedDate? id l
  let ((hour, minute, second), l) ← spacedTime? id l
  let stamp : Stamp := { date, hour, minute, second }
  if l.isEmpty then stamp.instant? else none

/-- The creation time of a listing: date, time and offset, alone or before the
    name of a zone, or else date and time in UTC. -/
def ofListing? (s : String) : Option Instant :=
  let l := Text.trimmed s.toList
  ofDateTimeOffset? l <|>
    ((Text.cutLast? ' ' l).bind fun (head, _) => ofDateTimeOffset? head) <|>
    ofDateTime? l

end Instant

end ContainerJobs
