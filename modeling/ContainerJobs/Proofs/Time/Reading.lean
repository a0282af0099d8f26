import ContainerJobs.Proofs.Text.Decimal
import ContainerJobs.Proofs.Time.Calendar
import ContainerJobs.Time.Reading
import Mathlib.Data.List.TakeDrop

/-!
# Times are read back

A reading of a time gives a *regular* instant (`Instant.IsRegular`): its day is kept,
and what it has beyond a whole second is less than a second, or less than two within
a leap second, which comes at the end of a minute. A regular instant is read from its
text as it is (`Instant.ofRelaxed?_rfc3339`). Engines write years of four digits, so
their times come before the year 10000 (`Instant.second_lt_of_ofStrict?`).
-/

namespace ContainerJobs

/-- The instant is one that a written time can mean. -/
structure Instant.IsRegular (t : Instant) : Prop where
  /-- It comes within its second, or within the leap second after it. -/
  nano : t.nano < 2 * nanosPerSecond
  /-- A leap second comes at the end of a minute. -/
  leap : nanosPerSecond ≤ t.nano → t.second % 60 = 59
  /-- Its day lies in the years that dates are kept for. -/
  kept : Stamp.isKept t.day = true

/-! ## What a reading gives -/

namespace Time

variable {l r : List Char} {n : Nat} {k : Int}

theorem isDigit_of_mem_takeDigits (max : Nat) (l : List Char) :
    ∀ c ∈ (takeDigits max l).1, c.isDigit = true := by
  fun_induction takeDigits max l with
  | case1 max c r digit ds rest eq ih =>
    rw [eq] at ih
    exact List.forall_mem_cons.2 ⟨digit, ih⟩
  | case2 => simp
  | case3 => simp

theorem length_takeDigits_le (max : Nat) (l : List Char) : (takeDigits max l).1.length ≤ max := by
  fun_induction takeDigits max l with
  | case1 max c r digit ds rest eq ih =>
    rw [eq] at ih
    simpa using ih
  | case2 => simp
  | case3 => simp

theorem number?_lt {min max : Nat} (h : number? min max l = some (n, r)) : n < 10 ^ max := by
  rcases hd : takeDigits max l with ⟨ds, rest⟩
  have digits := isDigit_of_mem_takeDigits max l
  have length := length_takeDigits_le max l
  rw [number?, hd] at h
  rw [hd] at digits length
  obtain ⟨-, rfl, -⟩ : _ ∧ Nat.ofDigitChars 10 ds 0 = n ∧ _ := by simpa using h
  exact (Text.ofDigitChars_lt digits).trans_le (Nat.pow_le_pow_right (by decide) length)

theorem fraction?_lt (h : fraction? l = some (n, r)) : n < Instant.nanosPerSecond := by
  unfold fraction? at h
  split at h
  · next t =>
    rcases hd : takeDigits 9 t with ⟨ds, rest⟩
    have digits := isDigit_of_mem_takeDigits 9 t
    have length : ds.length ≤ 9 := by simpa [hd] using length_takeDigits_le 9 t
    rw [hd] at h digits
    obtain ⟨-, rfl, -⟩ :
        _ ∧ Nat.ofDigitChars 10 ds 0 * Nat.pow 10 (9 - ds.length) = n ∧ _ := by simpa using h
    calc Nat.ofDigitChars 10 ds 0 * Nat.pow 10 (9 - ds.length)
        < 10 ^ ds.length * 10 ^ (9 - ds.length) :=
          Nat.mul_lt_mul_of_pos_right (Text.ofDigitChars_lt digits) (Nat.pow_pos (by decide))
      _ = Instant.nanosPerSecond := by
          rw [← Nat.pow_add, Nat.add_sub_cancel' length]
          rfl
  · cases h
    decide

/-- An offset is made of whole minutes. -/
theorem offset?_emod {between : List Char → Option (List Char)}
    (h : offset? between l = some (k, r)) : k % 60 = 0 := by
  simp only [offset?, Option.bind_eq_bind, Option.bind_eq_some_iff] at h
  obtain ⟨⟨sign, l₁⟩, -, ⟨hours, l₂⟩, -, l₃, -, ⟨minutes, l₄⟩, -, h⟩ := h
  obtain ⟨-, rfl, -⟩ : _ ∧ sign * ((hours * 3600 + minutes * 60 : Nat) : Int) = k ∧ _ := by
    simpa using h
  have whole : ((hours * 3600 + minutes * 60 : Nat) : Int) = (hours * 60 + minutes : Nat) * 60 := by
    omega
  rw [whole, ← Int.mul_assoc, Int.mul_emod_left]

theorem zone?_emod {between : List Char → Option (List Char)}
    (h : zone? between l = some (k, r)) : k % 60 = 0 := by
  unfold zone? at h
  split at h
  · split at h
    · cases h; rfl
    · exact offset?_emod h
  · cases h

end Time

namespace Stamp

theorem instant?_eq_some_iff {s : Stamp} {t : Instant} : s.instant? = some t ↔
    (s.date.Exists ∧ s.hour ≤ 23 ∧ s.minute ≤ 59 ∧ s.second ≤ 60 ∧ s.offset.natAbs < 86400 ∧
      isKept s.date.dayNumber = true ∧ isKept t.day = true) ∧
      t.second = s.date.dayNumber * 86400 +
        (s.hour * 3600 + s.minute * 60 + min s.second 59 : Nat) - s.offset ∧
      t.nano = s.nano + if s.second = 60 then Instant.nanosPerSecond else 0 := by
  refine Option.ite_none_right_eq_some.trans ⟨fun ⟨fits, eq⟩ => ?_, fun ⟨fits, second, nano⟩ => ?_⟩
  · cases eq
    exact ⟨fits, rfl, rfl⟩
  · obtain ⟨_, _⟩ := t
    cases second
    cases nano
    exact ⟨fits, rfl⟩

theorem isRegular_of_instant? {s : Stamp} {t : Instant} (h : s.instant? = some t)
    (nano : s.nano < Instant.nanosPerSecond) (offset : s.offset % 60 = 0) : t.IsRegular := by
  obtain ⟨⟨-, -, -, -, -, -, kept⟩, second, nanos⟩ := instant?_eq_some_iff.1 h
  refine ⟨?_, fun leap => ?_, kept⟩
  · rw [nanos]
    split <;> omega
  · have last : s.second = 60 := by
      by_contra other
      rw [nanos, if_neg other] at leap
      omega
    rw [second, last]
    omega

end Stamp

namespace Instant

open Time

theorem isRegular_of_ofRelaxed? {l : List Char} {t : Instant} (h : ofRelaxed? l = some t) :
    t.IsRegular := by
  simp only [ofRelaxed?, Option.bind_eq_bind, Option.bind_eq_some_iff] at h
  obtain ⟨⟨date, l₁⟩, -, l₂, -, ⟨⟨hour, minute, second⟩, l₃⟩, -, ⟨nano, l₄⟩, fraction, h⟩ := h
  split at h
  · obtain ⟨⟨offset, l₅⟩, zone, h⟩ := Option.bind_eq_some_iff.1 h
    cases zone
    exact Stamp.isRegular_of_instant? (Option.ite_none_right_eq_some.1 h).2
      (fraction?_lt fraction) rfl
  · obtain ⟨⟨offset, l₅⟩, zone, h⟩ := Option.bind_eq_some_iff.1 h
    exact Stamp.isRegular_of_instant? (Option.ite_none_right_eq_some.1 h).2 (fraction?_lt fraction)
      (zone?_emod zone)

/-- A strict text names the stamp that it spells. -/
theorem exists_stamp_of_ofStrict? {l : List Char} {t : Instant} (h : ofStrict? l = some t) :
    ∃ s : Stamp, s.instant? = some t ∧ s.date.year < 10000 ∧ s.nano < nanosPerSecond ∧
      s.offset % 60 = 0 := by
  obtain ⟨⟨year, _⟩, digits, h⟩ := Option.bind_eq_some_iff.1 h
  obtain ⟨_, -, h⟩ := Option.bind_eq_some_iff.1 h
  obtain ⟨⟨month, _⟩, -, h⟩ := Option.bind_eq_some_iff.1 h
  obtain ⟨_, -, h⟩ := Option.bind_eq_some_iff.1 h
  obtain ⟨⟨day, _⟩, -, h⟩ := Option.bind_eq_some_iff.1 h
  obtain ⟨_, -, h⟩ := Option.bind_eq_some_iff.1 h
  obtain ⟨⟨hour, _⟩, -, h⟩ := Option.bind_eq_some_iff.1 h
  obtain ⟨_, -, h⟩ := Option.bind_eq_some_iff.1 h
  obtain ⟨⟨minute, _⟩, -, h⟩ := Option.bind_eq_some_iff.1 h
  obtain ⟨_, -, h⟩ := Option.bind_eq_some_iff.1 h
  obtain ⟨⟨second, _⟩, -, h⟩ := Option.bind_eq_some_iff.1 h
  obtain ⟨⟨nano, _⟩, fraction, h⟩ := Option.bind_eq_some_iff.1 h
  obtain ⟨⟨offset, _⟩, zone, h⟩ := Option.bind_eq_some_iff.1 h
  exact ⟨_, (Option.ite_none_right_eq_some.1 h).2, Int.ofNat_lt.2 (number?_lt digits),
    fraction?_lt fraction, zone?_emod zone⟩

theorem isRegular_of_ofStrict? {l : List Char} {t : Instant} (h : ofStrict? l = some t) :
    t.IsRegular := by
  obtain ⟨s, named, -, nano, offset⟩ := exists_stamp_of_ofStrict? h
  exact Stamp.isRegular_of_instant? named nano offset

/-- Times that engines write come before the year 10000. -/
theorem second_lt_of_ofStrict? {l : List Char} {t : Instant} (h : ofStrict? l = some t) :
    t.second < (Date.daysBeforeYear 10000 - Date.epochDays + 1) * secondsPerDay := by
  obtain ⟨s, named, year, -⟩ := exists_stamp_of_ofStrict? h
  obtain ⟨⟨date, hour, minute, second, offset, -, -⟩, eq, -⟩ := Stamp.instant?_eq_some_iff.1 named
  have early : Date.daysBeforeYear (s.date.year + 1) ≤ Date.daysBeforeYear 10000 :=
    Date.daysBeforeYear_mono year
  have last := date.dayNumber_mem.2
  rw [secondsPerDay]
  omega

end Instant

/-! ## What is written is read back -/

namespace Time

variable {l ds rest : List Char} {n m width min max : Nat}

/-- No digit comes next. -/
def StopsDigits (rest : List Char) : Prop :=
  ∀ c ∈ rest.head?, c.isDigit = false

theorem takeDigits_append (digits : ∀ c ∈ ds, c.isDigit = true) (fits : ds.length ≤ max)
    (stop : ds.length = max ∨ StopsDigits rest) : takeDigits max (ds ++ rest) = (ds, rest) := by
  induction ds generalizing max with
  | nil =>
    cases max with
    | zero => simp [takeDigits]
    | succ max =>
      have stop : StopsDigits rest := stop.resolve_left (by simp)
      cases rest with
      | nil => rfl
      | cons c rest => simp [takeDigits, stop c rfl]
  | cons c ds ih =>
    obtain ⟨digit, digits⟩ := List.forall_mem_cons.1 digits
    cases max with
    | zero => simp at fits
    | succ max =>
      rw [List.length_cons] at fits stop
      have rest := ih digits (Nat.le_of_succ_le_succ fits) (stop.imp_left Nat.succ.inj)
      simp [takeDigits, digit, rest]

theorem number?_append (digits : ∀ c ∈ ds, c.isDigit = true) (least : min ≤ ds.length)
    (fits : ds.length ≤ max) (stop : ds.length = max ∨ StopsDigits rest) :
    number? min max (ds ++ rest) = some (Nat.ofDigitChars 10 ds 0, rest) := by
  rw [number?, takeDigits_append digits fits stop]
  exact if_neg (Nat.not_lt.2 least)

theorem skipBlanks_padded (width n : Nat) (rest : List Char) :
    Text.skipBlanks (Text.padded width n ++ rest) = Text.padded width n ++ rest := by
  obtain ⟨c, l, eq, digit⟩ := Text.exists_padded_eq_cons width n
  rw [eq]
  exact Text.skipBlanks_cons_of_not (Text.isBlank_of_isDigit digit) _

theorem spacedNumber?_padded (pos : 0 < width) (h : n < 10 ^ width) :
    spacedNumber? width (Text.padded width n ++ rest) = some (n, rest) := by
  have length := Text.length_padded pos h
  rw [spacedNumber?, skipBlanks_padded, number?_append (fun _ => Text.isDigit_of_mem_padded)
    (by omega) length.le (.inl length), Text.ofDigitChars_padded]

theorem spacedYear?_yearText (year : Int) :
    spacedYear? (Instant.yearText year ++ '-' :: rest) = some (year, '-' :: rest) := by
  have stop : StopsDigits ('-' :: rest) := by
    rintro c ⟨rfl⟩
    rfl
  have value := Text.ofDigitChars_padded 4 year.natAbs
  have digits : ∀ c ∈ Text.padded 4 year.natAbs, c.isDigit = true :=
    fun _ => Text.isDigit_of_mem_padded
  -- After a sign all digits are taken, without one only the four that there are.
  have signed : number? 1 (Text.padded 4 year.natAbs ++ '-' :: rest).length
      (Text.padded 4 year.natAbs ++ '-' :: rest) = some (year.natAbs, '-' :: rest) := by
    obtain ⟨c, l, eq, -⟩ := Text.exists_padded_eq_cons 4 year.natAbs
    rw [number?_append digits (by simp [eq]) (by simp) (.inr stop), value]
  rw [Instant.yearText]
  split
  · next negative =>
    rw [List.cons_append]
    change (number? 1 _ _).map _ = _
    rw [signed]
    simp only [Option.map_some, Option.some.injEq, Prod.mk.injEq, and_true]
    omega
  · split
    · rw [List.cons_append]
      change (number? 1 _ _).map _ = _
      rw [signed]
      simp only [Option.map_some, Option.some.injEq, Prod.mk.injEq, and_true]
      omega
    · have length : (Text.padded 4 year.natAbs).length = 4 :=
        Text.length_padded (by decide) (by omega)
      have plain := number?_append digits (show 1 ≤ _ by omega) length.le (.inr stop)
      obtain ⟨c, l, eq, digit⟩ := Text.exists_padded_eq_cons 4 year.natAbs
      rw [spacedYear?, skipBlanks_padded]
      rw [eq] at plain value ⊢
      rw [List.cons_append] at plain ⊢
      split
      · next heq => cases heq; cases digit
      · next heq => cases heq; cases digit
      · rw [plain, value]
        simp only [Option.map_some, Option.some.injEq, Prod.mk.injEq, and_true]
        omega

theorem spacedDate?_text {gap : List Char → List Char} (stays : ∀ l, gap ('-' :: l) = '-' :: l)
    (d : Date) (month : d.month < 100) (day : d.day < 100) :
    spacedDate? gap (Instant.yearText d.year ++ '-' :: (Text.padded 2 d.month ++
      '-' :: (Text.padded 2 d.day ++ rest))) = some (d, rest) := by
  have hyphen (l : List Char) : char? '-' (gap ('-' :: l)) = some l := by
    rw [stays]
    rfl
  simp only [spacedDate?, Option.bind_eq_bind, spacedYear?_yearText, Option.bind_some, hyphen,
    spacedNumber?_padded (show 0 < 2 by decide) month,
    spacedNumber?_padded (show 0 < 2 by decide) day]
  rfl

theorem spacedTime?_text {gap : List Char → List Char} (stays : ∀ l, gap (':' :: l) = ':' :: l)
    {hour minute second : Nat} (hh : hour < 100) (hm : minute < 100) (hs : second < 100) :
    spacedTime? gap (Text.padded 2 hour ++ ':' :: (Text.padded 2 minute ++
      ':' :: (Text.padded 2 second ++ rest))) = some ((hour, minute, second), rest) := by
  have colon (l : List Char) : char? ':' (gap (':' :: l)) = some l := by
    rw [stays]
    rfl
  simp only [spacedTime?, Option.bind_eq_bind, Option.bind_some, colon,
    spacedNumber?_padded (show 0 < 2 by decide) hh,
    spacedNumber?_padded (show 0 < 2 by decide) hm,
    spacedNumber?_padded (show 0 < 2 by decide) hs]
  rfl

theorem fraction?_padded (pos : 0 < width) (fits : width ≤ 9) (h : n < 10 ^ width)
    (stop : StopsDigits rest) :
    fraction? ('.' :: (Text.padded width n ++ rest)) = some (n * 10 ^ (9 - width), rest) := by
  have length := Text.length_padded pos h
  have taken : takeDigits 9 (Text.padded width n ++ rest) = (Text.padded width n, rest) :=
    takeDigits_append (fun _ => Text.isDigit_of_mem_padded) (by omega) (.inr stop)
  have nonempty : (Text.padded width n).isEmpty = false := by
    rw [List.isEmpty_eq_false_iff, ← List.length_pos_iff]
    omega
  have stay : rest.dropWhile Char.isDigit = rest := by
    cases rest with
    | nil => rfl
    | cons c rest => exact List.dropWhile_cons_of_neg (by simp [stop c rfl])
  simp only [fraction?, taken, nonempty, stay, Text.ofDigitChars_padded, length]
  rfl

theorem fraction?_fractionText (h : n < Instant.nanosPerSecond) (stop : StopsDigits rest)
    (other : rest.head? ≠ some '.') :
    fraction? (Instant.fractionText n ++ rest) = some (n, rest) := by
  rw [Instant.nanosPerSecond] at h
  rw [Instant.fractionText]
  split
  · next zero =>
    rw [List.nil_append, fraction?, zero]
    rintro r rfl
    exact other rfl
  split
  · next whole =>
    rw [List.cons_append, fraction?_padded (by decide) (by decide) (by omega) stop]
    simp only [Option.some.injEq, Prod.mk.injEq, and_true]
    omega
  split
  · next whole =>
    rw [List.cons_append, fraction?_padded (by decide) (by decide) (by omega) stop]
    simp only [Option.some.injEq, Prod.mk.injEq, and_true]
    omega
  · rw [List.cons_append, fraction?_padded (by decide) (by decide) (by omega) stop]
    simp

end Time

namespace Instant

open Time

/-- A regular instant is the one that its stamp in UTC names. -/
theorem IsRegular.instant?_stamp {t : Instant} (h : t.IsRegular) :
    ({ date := Date.ofDayNumber t.day, hour := t.secondOfDay.toNat / 3600,
       minute := t.secondOfDay.toNat / 60 % 60,
       second := t.secondOfDay.toNat % 60 + t.nano / nanosPerSecond,
       nano := t.nano % nanosPerSecond } : Stamp).instant? = some t := by
  obtain ⟨nano, leap, kept⟩ := h
  rw [nanosPerSecond] at nano leap
  have sum : t.day * 86400 + t.secondOfDay.toNat = t.second := by
    rw [day, secondOfDay, secondsPerDay]
    omega
  have short : t.secondOfDay.toNat < 86400 := by
    rw [secondOfDay, secondsPerDay]
    omega
  -- The leap second is written as the second 60 of its minute.
  have last : t.secondOfDay.toNat % 60 + t.nano / 1000000000 = 60 ↔ 1000000000 ≤ t.nano := by
    rw [secondOfDay, secondsPerDay]
    omega
  have second : min (t.secondOfDay.toNat % 60 + t.nano / 1000000000) 59 =
      t.secondOfDay.toNat % 60 := by omega
  have parts : t.day * 86400 + ((t.secondOfDay.toNat / 3600 * 3600 +
      t.secondOfDay.toNat / 60 % 60 * 60 + t.secondOfDay.toNat % 60 : Nat) : Int) - 0 =
        t.second := by omega
  have nanos : (t.nano % 1000000000 + if t.secondOfDay.toNat % 60 + t.nano / 1000000000 = 60
      then 1000000000 else 0) = t.nano := by
    split <;> omega
  have kept' : Stamp.isKept (Date.ofDayNumber t.day).dayNumber = true := by
    rwa [Date.dayNumber_ofDayNumber]
  refine Stamp.instant?_eq_some_iff.2 ⟨⟨Date.exists_ofDayNumber _, ?_, ?_, ?_, ?_, kept', kept⟩,
    ?_, nanos.symm⟩
  all_goals dsimp only [nanosPerSecond]
  · omega
  · omega
  · omega
  · decide
  · rw [second, Date.dayNumber_ofDayNumber]
    exact parts.symm

/-- A regular instant is read back from its text. -/
theorem ofRelaxed?_rfc3339 {t : Instant} (h : t.IsRegular) :
    ofRelaxed? t.rfc3339.toList = some t := by
  obtain ⟨-, month, -, day⟩ := Date.exists_ofDayNumber t.day
  have day : (Date.ofDayNumber t.day).day < 100 := by
    have longest := Date.getD_monthLengths_le (Date.isLeap (Date.ofDayNumber t.day).year)
      ((Date.ofDayNumber t.day).month - 1)
    omega
  have hour : t.secondOfDay.toNat / 3600 < 100 := by
    rw [secondOfDay, secondsPerDay]
    omega
  have second : t.secondOfDay.toNat % 60 + t.nano / nanosPerSecond < 100 := by
    have nano := h.nano
    rw [nanosPerSecond] at nano ⊢
    omega
  have zone : StopsDigits ['Z'] := by
    rintro c ⟨rfl⟩
    rfl
  have letter (l : List Char) : separator? ('T' :: l) = some l := rfl
  have named := h.instant?_stamp
  rw [rfc3339, String.toList_ofList, textWithZone]
  simp only [List.append_assoc, List.cons_append, ofRelaxed?, Option.bind_eq_bind,
    spacedDate?_text (Text.skipBlanks_cons_of_not (by decide)) _
      (show (Date.ofDayNumber t.day).month < 100 by omega) day, Option.bind_some, letter,
    spacedTime?_text (Text.skipBlanks_cons_of_not (by decide)) hour
      (show t.secondOfDay.toNat / 60 % 60 < 100 by omega) second,
    fraction?_fractionText (Nat.mod_lt t.nano (show 0 < nanosPerSecond by decide)) zone
      (by decide)]
  exact named

end Instant

end ContainerJobs
