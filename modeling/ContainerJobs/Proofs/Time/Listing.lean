import ContainerJobs.Proofs.Time.Reading

/-!
# Creation times in listings

An engine lists when a container was created in the local time of some zone: a date, a
time of day and the offset of the zone from UTC, with the name of the zone behind it or
not. Whatever the name is, also if it is itself an offset, the same instant is read, the
local time less the offset (`Instant.ofListing?_text`). A time without an offset is one
in UTC, and is written there as the same date and time (`ClockTime.IsShown.rfc3339_seconds`).
-/

namespace ContainerJobs

/-- A date and a time of day, as a clock shows them. -/
structure ClockTime where
  /-- The date. -/
  date : Date
  /-- The hour. -/
  hour : Nat
  /-- The minute. -/
  minute : Nat
  /-- The second. -/
  second : Nat

/-- How far the clocks of a zone are from UTC: ahead of it or behind it, in whole
    minutes. -/
structure ZoneOffset where
  /-- The clocks are ahead. -/
  ahead : Bool
  /-- By how many minutes. -/
  minutes : Nat

namespace ClockTime

variable (c : ClockTime)

/-- A clock can show the time, and the year has four digits. -/
structure IsShown : Prop where
  /-- The date exists. -/
  date : c.date.Exists
  /-- The year has four digits, zeros in front included. -/
  year : 0 ≤ c.date.year ∧ c.date.year ≤ 9999
  /-- There are twenty-four hours. -/
  hour : c.hour ≤ 23
  /-- There are sixty minutes. -/
  minute : c.minute ≤ 59
  /-- There are sixty seconds. -/
  second : c.second ≤ 59

/-- The date as it is written: `YYYY-MM-DD`. -/
def dateText : List Char :=
  Text.padded 4 c.date.year.toNat ++ '-' :: (Text.padded 2 c.date.month ++
    '-' :: Text.padded 2 c.date.day)

/-- The time of day as it is written: `HH:MM:SS`. -/
def timeText : List Char :=
  Text.padded 2 c.hour ++ ':' :: (Text.padded 2 c.minute ++ ':' :: Text.padded 2 c.second)

/-- Date and time of day with a space between them. -/
def text : List Char := c.dateText ++ ' ' :: c.timeText

/-- The seconds that have passed on the clock since it showed the first of January 1970. -/
def seconds : Int :=
  c.date.dayNumber * 86400 + (c.hour * 3600 + c.minute * 60 + c.second : Nat)

end ClockTime

namespace ZoneOffset

variable (o : ZoneOffset)

/-- The offset as it is written: `+HHMM` or `-HHMM`. -/
def text : List Char :=
  (if o.ahead then '+' else '-') :: (Text.padded 2 (o.minutes / 60) ++
    Text.padded 2 (o.minutes % 60))

/-- The offset in seconds. -/
def seconds : Int := if o.ahead then o.minutes * 60 else -(o.minutes * 60)

end ZoneOffset

/-! ## The parts -/

namespace Time

variable {rest : List Char}

theorem offset?_text {o : ZoneOffset} (short : o.minutes < 1440) :
    offset? (fun r => some (colonsAndBlanks r)) (o.text ++ rest) = some (o.seconds, rest) := by
  have two {n : Nat} (h : n < 100) (r : List Char) :
      number? 2 2 (Text.padded 2 n ++ r) = some (n, r) := by
    have length := Text.length_padded (show 0 < 2 by decide) h
    rw [number?_append (fun _ => Text.isDigit_of_mem_padded) length.ge length.le (.inl length),
      Text.ofDigitChars_padded]
  have hours := two (show o.minutes / 60 < 100 by omega) (Text.padded 2 (o.minutes % 60) ++ rest)
  have minutes := two (show o.minutes % 60 < 100 by omega) rest
  -- Nothing stands between hours and minutes, and the minutes begin with a digit.
  have between : colonsAndBlanks (Text.padded 2 (o.minutes % 60) ++ rest) =
      Text.padded 2 (o.minutes % 60) ++ rest := by
    obtain ⟨c, l, eq, digit⟩ := Text.exists_padded_eq_cons 2 (o.minutes % 60)
    have colon : c ≠ ':' := by
      rintro rfl
      cases digit
    rw [eq]
    exact List.dropWhile_cons_of_neg (by simp [colon, Text.isBlank_of_isDigit digit])
  have whole : ((o.minutes / 60 * 3600 + o.minutes % 60 * 60 : Nat) : Int) = o.minutes * 60 := by
    omega
  have sign : sign? (o.text ++ rest) = some (if o.ahead then 1 else -1,
      Text.padded 2 (o.minutes / 60) ++ (Text.padded 2 (o.minutes % 60) ++ rest)) := by
    rw [ZoneOffset.text, List.cons_append, List.append_assoc]
    cases o.ahead <;> rfl
  rw [offset?, sign]
  simp only [Option.bind_eq_bind, Option.bind_some, hours, between, minutes,
    show o.minutes % 60 ≤ 59 by omega, if_true, whole, ZoneOffset.seconds]
  cases o.ahead <;> simp

theorem spacedTime?_space (gap : List Char → List Char) (l : List Char) :
    spacedTime? gap (' ' :: l) = spacedTime? gap l := by
  simp only [spacedTime?, spacedNumber?, Text.skipBlanks_cons (show Text.isBlank ' ' = true by decide)]

end Time

namespace ClockTime

open Time

variable {c : ClockTime}

theorem IsShown.month_lt (h : c.IsShown) : c.date.month < 100 := by
  have last := h.date.2.1
  omega

theorem IsShown.day_lt (h : c.IsShown) : c.date.day < 100 := by
  have longest := Date.getD_monthLengths_le (Date.isLeap c.date.year) (c.date.month - 1)
  have last := h.date.2.2.2
  omega

theorem IsShown.yearText (h : c.IsShown) :
    Instant.yearText c.date.year = Text.padded 4 c.date.year.toNat := by
  obtain ⟨first, last⟩ := h.year
  rw [Instant.yearText, if_neg (by omega), if_neg (by omega),
    show c.date.year.natAbs = c.date.year.toNat by omega]

theorem IsShown.spacedDate?_dateText (h : c.IsShown) (rest : List Char) :
    spacedDate? id (c.dateText ++ rest) = some (c.date, rest) := by
  rw [dateText, List.append_assoc, List.cons_append, List.append_assoc, List.cons_append,
    ← h.yearText]
  exact spacedDate?_text (fun _ => rfl) c.date h.month_lt h.day_lt

theorem IsShown.spacedTime?_timeText (h : c.IsShown) (rest : List Char) :
    spacedTime? id (c.timeText ++ rest) = some ((c.hour, c.minute, c.second), rest) := by
  have hour := h.hour
  have minute := h.minute
  have second := h.second
  rw [timeText, List.append_assoc, List.cons_append, List.append_assoc, List.cons_append]
  exact spacedTime?_text (fun _ => rfl) (by omega) (by omega) (by omega)

/-- The days of four-digit years are kept, and so are the ones next to them. -/
theorem isKept_of_year {n : Int} (h : -719529 ≤ n ∧ n ≤ 2932897) : Stamp.isKept n = true := by
  have first : ({ year := Stamp.firstYear, month := 1, day := 1 } : Date).dayNumber ≤ -719529 := by
    decide
  have last : 2932897 ≤ ({ year := Stamp.lastYear, month := 12, day := 31 } : Date).dayNumber := by
    decide
  rw [Stamp.isKept, Bool.and_eq_true, decide_eq_true_eq, decide_eq_true_eq]
  omega

theorem IsShown.dayNumber_mem (h : c.IsShown) :
    -719528 ≤ c.date.dayNumber ∧ c.date.dayNumber < 2932897 := by
  obtain ⟨first, last⟩ := h.date.dayNumber_mem
  have from0 : Date.daysBeforeYear 0 ≤ Date.daysBeforeYear c.date.year :=
    Date.daysBeforeYear_mono h.year.1
  have to10000 : Date.daysBeforeYear (c.date.year + 1) ≤ Date.daysBeforeYear 10000 :=
    Date.daysBeforeYear_mono (by have := h.year.2; omega)
  have zero : Date.daysBeforeYear 0 = 0 := by decide
  have tenThousand : Date.daysBeforeYear 10000 = 3652425 := by decide
  rw [Date.epochDays] at first last
  omega

/-- A time that a clock shows names an instant, whatever zone the clock is in. -/
theorem IsShown.instant? (h : c.IsShown) (offset : Int) (short : offset.natAbs < 86400) :
    ({ date := c.date, hour := c.hour, minute := c.minute, second := c.second, offset } :
      Stamp).instant? = some { second := c.seconds - offset, nano := 0 } := by
  have bounds := h.dayNumber_mem
  have hour := h.hour
  have minute := h.minute
  have second := h.second
  have here : Stamp.isKept c.date.dayNumber = true := isKept_of_year (by omega)
  refine Stamp.instant?_eq_some_iff.2
    ⟨⟨h.date, hour, minute, by dsimp only; omega, short, here, isKept_of_year ?_⟩, ?_, ?_⟩
  · -- In UTC it may be the day before or the day after.
    rw [Instant.day, Instant.secondsPerDay, seconds]
    dsimp only
    omega
  · rw [Nat.min_eq_left h.second]
    rfl
  · rw [if_neg (by dsimp only; omega)]

/-- The seconds on a clock are those of the date and time that it shows: they are written
    as these, in UTC. -/
theorem IsShown.rfc3339_seconds (h : c.IsShown) :
    ({ second := c.seconds, nano := 0 } : Instant).rfc3339 =
      .ofList (c.dateText ++ 'T' :: (c.timeText ++ ['Z'])) := by
  have hour := h.hour
  have minute := h.minute
  have second := h.second
  have day : ({ second := c.seconds, nano := 0 } : Instant).day = c.date.dayNumber := by
    rw [Instant.day, Instant.secondsPerDay, seconds]
    dsimp only
    omega
  have time : ({ second := c.seconds, nano := 0 } : Instant).secondOfDay.toNat =
      c.hour * 3600 + c.minute * 60 + c.second := by
    rw [Instant.secondOfDay, Instant.secondsPerDay, seconds]
    dsimp only
    omega
  rw [Instant.rfc3339, Instant.textWithZone]
  simp only [day, time, h.date.ofDayNumber_dayNumber, h.yearText,
    show (c.hour * 3600 + c.minute * 60 + c.second) / 3600 = c.hour by omega,
    show (c.hour * 3600 + c.minute * 60 + c.second) / 60 % 60 = c.minute by omega,
    show (c.hour * 3600 + c.minute * 60 + c.second) % 60 = c.second by omega]
  simp [dateText, timeText, Instant.fractionText]

/-! ## The whole text -/

/-- A date and time with an offset is read if nothing follows. -/
theorem IsShown.ofDateTimeOffset?_append (h : c.IsShown) {o : ZoneOffset}
    (short : o.minutes < 1440) (rest : List Char) :
    Instant.ofDateTimeOffset? (c.text ++ ' ' :: (o.text ++ rest)) =
      if rest.isEmpty then some { second := c.seconds - o.seconds, nano := 0 } else none := by
  have sign : Text.skipBlanks (' ' :: (o.text ++ rest)) = o.text ++ rest := by
    rw [Text.skipBlanks_cons (by decide), ZoneOffset.text, List.cons_append]
    cases o.ahead <;> exact Text.skipBlanks_cons_of_not (by decide) _
  have day : o.seconds.natAbs < 86400 := by
    rw [ZoneOffset.seconds]
    split <;> omega
  rw [text, List.append_assoc, List.cons_append, Instant.ofDateTimeOffset?]
  simp only [Option.bind_eq_bind, h.spacedDate?_dateText, Option.bind_some, spacedTime?_space,
    h.spacedTime?_timeText, sign, offset?_text short, h.instant? _ day]

/-- A date and time is not read as one with an offset. -/
theorem IsShown.ofDateTimeOffset?_text (h : c.IsShown) :
    Instant.ofDateTimeOffset? c.text = none := by
  have time := h.spacedTime?_timeText []
  rw [List.append_nil] at time
  rw [text, Instant.ofDateTimeOffset?]
  simp only [Option.bind_eq_bind, h.spacedDate?_dateText, Option.bind_some, spacedTime?_space, time]
  rfl

/-- Nor is a date alone. -/
theorem IsShown.ofDateTimeOffset?_dateText (h : c.IsShown) :
    Instant.ofDateTimeOffset? c.dateText = none := by
  have date := h.spacedDate?_dateText []
  rw [List.append_nil] at date
  rw [Instant.ofDateTimeOffset?]
  simp only [Option.bind_eq_bind, date, Option.bind_some]
  rfl

theorem IsShown.ofDateTime?_text (h : c.IsShown) :
    Instant.ofDateTime? c.text = some { second := c.seconds, nano := 0 } := by
  have time := h.spacedTime?_timeText []
  have named := h.instant? 0 (by decide)
  rw [List.append_nil] at time
  rw [Int.sub_zero] at named
  rw [text, Instant.ofDateTime?]
  simp only [Option.bind_eq_bind, h.spacedDate?_dateText, Option.bind_some, spacedTime?_space, time]
  exact named

/-! ## Blanks around it -/

/-- Three numbers with signs between them are one word. -/
theorem isSolid_triple {sep : Char} (h : Text.isBlank sep = false) (width i j k : Nat) :
    Text.IsSolid (Text.padded width i ++ sep :: (Text.padded 2 j ++ sep :: Text.padded 2 k)) := by
  refine ⟨by simp, fun d hd => ?_⟩
  simp only [List.mem_append, List.mem_cons] at hd
  rcases hd with digit | rfl | digit | rfl | digit
  any_goals exact h
  all_goals exact Text.isBlank_of_mem_padded digit

theorem isSolid_dateText (c : ClockTime) : Text.IsSolid c.dateText :=
  isSolid_triple (by decide) _ _ _ _

theorem isSolid_timeText (c : ClockTime) : Text.IsSolid c.timeText :=
  isSolid_triple (by decide) _ _ _ _

end ClockTime

theorem ZoneOffset.isSolid_text (o : ZoneOffset) : Text.IsSolid o.text := by
  refine ⟨by simp [text], fun d hd => ?_⟩
  simp only [text, List.mem_append, List.mem_cons] at hd
  rcases hd with rfl | digit | digit
  · split <;> rfl
  all_goals exact Text.isBlank_of_mem_padded digit

/-- The creation time of a listing is read as the local time less the offset of the zone,
    if the zone is named behind it, by any word, and if not; and as it is if there is no
    offset. Blanks around it make no difference. The instant that is read without an offset
    is written, in UTC, as the date and time in the listing. -/
theorem Instant.ofListing?_text {c : ClockTime} (shown : c.IsShown) {o : ZoneOffset}
    (short : o.minutes < 1440) {zone : List Char} (solid : Text.IsSolid zone)
    {before after : List Char} (hb : ∀ d ∈ before, Text.isBlank d = true)
    (ha : ∀ d ∈ after, Text.isBlank d = true) :
    ofListing? (.ofList (before ++ (c.text ++ ' ' :: (o.text ++ ' ' :: zone)) ++ after)) =
        some { second := c.seconds - o.seconds, nano := 0 } ∧
      ofListing? (.ofList (before ++ (c.text ++ ' ' :: o.text) ++ after)) =
        some { second := c.seconds - o.seconds, nano := 0 } ∧
      ofListing? (.ofList (before ++ c.text ++ after)) =
        some { second := c.seconds, nano := 0 } ∧
      ({ second := c.seconds, nano := 0 } : Instant).rfc3339 =
        .ofList (c.dateText ++ 'T' :: (c.timeText ++ ['Z'])) := by
  -- The date is in front, and a word comes last, so there is nothing to trim but the blanks around.
  have trim (middle : List Char) {last : List Char} (h : Text.IsSolid last) :
      Text.trimmed (before ++ (c.dateText ++ (middle ++ last)) ++ after) =
        c.dateText ++ (middle ++ last) := by
    rw [Text.trimmed_append hb ha, Text.trimmed_between c.isSolid_dateText h]
  refine ⟨?_, ?_, ?_, shown.rfc3339_seconds⟩
  · have trimmed : Text.trimmed (before ++ (c.text ++ ' ' :: (o.text ++ ' ' :: zone)) ++ after) =
        c.text ++ ' ' :: (o.text ++ ' ' :: zone) := by
      simpa [ClockTime.text] using trim (' ' :: (c.timeText ++ ' ' :: (o.text ++ [' ']))) solid
    have cut : Text.cutLast? ' ' (c.text ++ ' ' :: (o.text ++ ' ' :: zone)) =
        some (c.text ++ ' ' :: o.text, zone) := by
      have free : ' ' ∉ zone := fun mem => absurd (solid.2 _ mem) (by decide)
      simpa using Text.cutLast?_append (l := c.text ++ ' ' :: o.text) free
    have whole := shown.ofDateTimeOffset?_append short (' ' :: zone)
    have head := shown.ofDateTimeOffset?_append short []
    rw [List.append_nil] at head
    rw [ofListing?, String.toList_ofList, trimmed, whole, cut]
    simp [head]
  · have trimmed : Text.trimmed (before ++ (c.text ++ ' ' :: o.text) ++ after) =
        c.text ++ ' ' :: o.text := by
      simpa [ClockTime.text] using trim (' ' :: (c.timeText ++ [' '])) o.isSolid_text
    have whole := shown.ofDateTimeOffset?_append short []
    rw [List.append_nil] at whole
    rw [ofListing?, String.toList_ofList, trimmed, whole]
    rfl
  · have trimmed : Text.trimmed (before ++ c.text ++ after) = c.text := by
      simpa [ClockTime.text] using trim [' '] c.isSolid_timeText
    have cut : Text.cutLast? ' ' c.text = some (c.dateText, c.timeText) :=
      Text.cutLast?_append fun mem => absurd (c.isSolid_timeText.2 _ mem) (by decide)
    rw [ofListing?, String.toList_ofList, trimmed, shown.ofDateTimeOffset?_text, cut]
    simp [shown.ofDateTimeOffset?_dateText, shown.ofDateTime?_text]

/-- Half past eight on New Year's Eve in a zone behind UTC, whose name is an offset, is the
    midnight when the new year begins. -/
theorem Instant.ofListing?_text_newYearsEve :
    let c : ClockTime :=
      { date := { year := 2024, month := 12, day := 31 }, hour := 20, minute := 30, second := 0 }
    let o : ZoneOffset := { ahead := false, minutes := 210 }
    c.IsShown ∧ o.minutes < 1440 ∧ Text.IsSolid "-0330".toList ∧
      (let midnight : Instant := { second := 1735689600, nano := 0 }
       let evening : Instant := { second := 1735677000, nano := 0 }
       ofListing? " 2024-12-31 20:30:00 -0330 -0330\n" = some midnight ∧
         ofListing? " 2024-12-31 20:30:00 -0330\n" = some midnight ∧
         ofListing? " 2024-12-31 20:30:00\n" = some evening ∧
         evening.rfc3339 = "2024-12-31T20:30:00Z") := by
  intro c o
  have shown : c.IsShown := ⟨by decide, by decide, by decide, by decide, by decide⟩
  have short : o.minutes < 1440 := by decide
  have offset : o.text = "-0330".toList := by decide
  have solid : Text.IsSolid "-0330".toList := offset ▸ o.isSolid_text
  have before : ∀ d ∈ [' '], Text.isBlank d = true := List.forall_mem_singleton.2 rfl
  have after : ∀ d ∈ ['\n'], Text.isBlank d = true := List.forall_mem_singleton.2 rfl
  have read := Instant.ofListing?_text shown short solid before after
  have midnight : c.seconds - o.seconds = 1735689600 := by decide
  have evening : c.seconds = 1735677000 := by decide
  have date : c.dateText = "2024-12-31".toList := by decide
  have time : c.timeText = "20:30:00".toList := by decide
  rw [midnight, evening, ClockTime.text, date, time, offset] at read
  exact ⟨shown, short, solid, read⟩

end ContainerJobs
