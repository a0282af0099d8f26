import ContainerJobs.Proofs.Time.Reading
import ContainerJobs.Reaper

/-!
# When ended jobs expire

The clock stands in for the end of a job whose container does not tell one. Read a
moment later the clock gives a later end, so such a job is never old, and a reaper with
whatever time to live leaves it alone. All other ended jobs expire
(`ReapPolicy.expires_iff_readable`).
-/

namespace ContainerJobs

namespace Instant

variable {t now : Instant} {limit : Nat}

theorem le_refl (t : Instant) : t.le t = true := by
  simp [le]

/-- No time passes from an instant to itself. -/
theorem isOlderThan_self (t : Instant) (limit : Nat) : t.isOlderThan t limit = false := by
  have age : nanosBetween t t = 0 := by
    simp [nanosBetween]
  have young : ¬((limit * nanosPerSecond : Nat) : Int) < 0 := Int.not_lt.2 (Int.natCast_nonneg _)
  rw [isOlderThan, age, decide_eq_false young, Bool.and_false]

/-- Leap seconds make a difference of a few seconds at most. -/
theorem isOlderThan_of_le (nano : t.nano < 2 * nanosPerSecond)
    (h : t.second + limit + 4 ≤ now.second) : t.isOlderThan now limit = true := by
  have counted : (limit + 3) * (nanosPerSecond : Int) ≤
      nanosBetween t now - ((now.nano : Int) - t.nano) := by
    rw [nanosBetween, Int.add_sub_cancel]
    refine Int.mul_le_mul_of_nonneg_right ?_ (Int.natCast_nonneg _)
    split
    · omega
    · split <;> omega
  rw [nanosPerSecond] at nano counted
  simp only [isOlderThan, Bool.and_eq_true, decide_eq_true_eq]
  rw [nanosPerSecond]
  omega

/-- The clock goes on for a hundred thousand years after the year 10000. -/
theorem isKept_day_add {n : Nat} (kept : Stamp.isKept t.day = true)
    (early : t.second + n < (Date.daysBeforeYear 110000 - Date.epochDays) * secondsPerDay) :
    Stamp.isKept ({ second := t.second + n, nano := 0 } : Instant).day = true := by
  have last : Date.daysBeforeYear 110000 - Date.epochDays ≤
      ({ year := Stamp.lastYear, month := 12, day := 31 } : Date).dayNumber := by decide
  simp only [Stamp.isKept, Bool.and_eq_true, decide_eq_true_eq] at kept ⊢
  rw [day, secondsPerDay] at kept ⊢
  rw [secondsPerDay] at early
  dsimp only
  omega

end Instant

namespace ReapPolicy

variable {p : ReapPolicy} {row : ListedContainer} {s : ContainerState} {now : Instant}

/-- Whether an ended job is due depends on its end alone. -/
theorem reason?_of_isTerminal (terminal : s.jobStatus.isTerminal = true) :
    p.reason? now (row.job now s) =
      if ((EngineTime.instant? s.finishedAt).getD now).isOlderThan now p.ttl then some .expired
      else none := by
  simp only [reason?, ListedContainer.job, if_pos terminal, Option.bind_some]

/-- A job whose end can be read is due from some instant on, which the clock reaches:
    engines write years of four digits, and the clock goes on for much longer. -/
theorem exists_expiry {t : Instant} (terminal : s.jobStatus.isTerminal = true)
    (short : p.ttl ≤ 36600 * 86400) (finished : EngineTime.instant? s.finishedAt = some t) :
    ∃ limit : Instant, Stamp.isKept limit.day = true ∧ limit.nano < Instant.nanosPerSecond ∧
      ∀ now, limit.le now = true → p.reason? now (row.job now s) = some .expired := by
  have read := (Option.ite_none_left_eq_some.1 finished).2
  have regular := Instant.isRegular_of_ofStrict? read
  -- Four seconds more than the time to live make up for leap seconds and fractions.
  refine ⟨{ second := t.second + (p.ttl + 4 : Nat), nano := 0 }, ?_,
    show 0 < Instant.nanosPerSecond by decide, fun now later => ?_⟩
  · have early := Instant.second_lt_of_ofStrict? read
    have room : (Date.daysBeforeYear 10000 - Date.epochDays + 1) * Instant.secondsPerDay +
        36600 * 86400 + 4 < (Date.daysBeforeYear 110000 - Date.epochDays) *
          Instant.secondsPerDay := by decide
    exact Instant.isKept_day_add regular.kept (by omega)
  · have second : t.second + p.ttl + 4 ≤ now.second := by
      simp only [Instant.le, Bool.or_eq_true, Bool.and_eq_true, decide_eq_true_eq, beq_iff_eq]
        at later
      omega
    rw [reason?_of_isTerminal terminal, finished, Option.getD_some,
      if_pos (Instant.isOlderThan_of_le regular.nano second)]

/-- While the clock stands in for the end of a job, the job is not due. -/
theorem reason?_eq_none_of_unreadable (terminal : s.jobStatus.isTerminal = true)
    (finished : EngineTime.instant? s.finishedAt = none) (now : Instant) :
    p.reason? now (row.job now s) = none := by
  rw [reason?_of_isTerminal terminal, finished, Option.getD_none, Instant.isOlderThan_self]
  rfl

/-- An ended job whose end can be read is due from some instant on, if the time to live
    is no more than 36600 days, which is longer than a century. One whose end cannot be
    read is never due, since the present stands in for its end. -/
theorem expires_iff_readable (row : ListedContainer) (s : ContainerState) (p : ReapPolicy)
    (terminal : s.jobStatus.isTerminal = true) (short : p.ttl ≤ 36600 * 86400) :
    ((EngineTime.instant? s.finishedAt).isSome = true →
      ∃ limit : Instant, Stamp.isKept limit.day = true ∧ limit.nano < Instant.nanosPerSecond ∧
        ∀ now, limit.le now = true → p.reason? now (row.job now s) = some .expired) ∧
    (EngineTime.instant? s.finishedAt = none → ∀ now, p.reason? now (row.job now s) = none) := by
  refine ⟨fun readable => ?_, reason?_eq_none_of_unreadable terminal⟩
  obtain ⟨t, finished⟩ := Option.isSome_iff_exists.1 readable
  exact exists_expiry terminal short finished

/-- A row for the samples. -/
def sampleRow : ListedContainer where
  name := "dockyard-proj-t1-84cfbec6172a"
  key := { project := "proj", trajectory := "t1" }
  hasRawIds := true
  createdAt := none

/-- A state of a container that ended in a leap second. -/
def sampleEnded : ContainerState where
  status := "exited"
  running := false
  exitCode := 0
  startedAt := "2016-12-31T10:00:00Z"
  finishedAt := "2016-12-31T23:59:60.5Z"

theorem expires_iff_readable_sampleEnded :
    sampleEnded.jobStatus.isTerminal = true ∧
      ∃ limit : Instant, Stamp.isKept limit.day = true ∧ limit.nano < Instant.nanosPerSecond ∧
        ∀ now, limit.le now = true →
          ({ ttl := 36525 * 86400, timeout := 3600 } : ReapPolicy).reason? now
            (sampleRow.job now sampleEnded) = some .expired := by
  have terminal : sampleEnded.jobStatus.isTerminal = true := by decide
  have expiry := expires_iff_readable sampleRow sampleEnded
    { ttl := 36525 * 86400, timeout := 3600 } terminal (by decide)
  exact ⟨terminal, expiry.1 (by decide)⟩

/-- A state of a container that died before it was started. -/
def sampleDead : ContainerState where
  status := "dead"
  running := false
  exitCode := 137
  startedAt := EngineTime.zero
  finishedAt := EngineTime.zero

/-- The last second that a time with a year of four digits can tell. -/
def sampleClock : Instant where
  second := 253402300799
  nano := 0

/-- The job of a dead container without an end has failed. A reaper with a time to live
    of a minute finds no reason to remove it in the last second of the year 9999, and
    the same at any other time. -/
theorem sampleDead_never_expires :
    sampleDead.jobStatus = .failed ∧
      Instant.ofStrict? "9999-12-31T23:59:59Z".toList = some sampleClock ∧
      (sampleRow.job sampleClock sampleDead).endedAt = some sampleClock ∧
      ({ ttl := 60, timeout := 3600 } : ReapPolicy).reason? sampleClock
        (sampleRow.job sampleClock sampleDead) = none ∧
      ¬∃ limit : Instant, Stamp.isKept limit.day = true ∧
        ∀ now, limit.le now = true →
          ({ ttl := 60, timeout := 3600 } : ReapPolicy).reason? now
            (sampleRow.job now sampleDead) = some .expired := by
  have terminal : sampleDead.jobStatus.isTerminal = true := by decide
  have unreadable : EngineTime.instant? sampleDead.finishedAt = none := by decide
  refine ⟨by decide, by decide, by decide,
    reason?_eq_none_of_unreadable terminal unreadable sampleClock, ?_⟩
  rintro ⟨limit, -, expires⟩
  have due := expires limit limit.le_refl
  rw [reason?_eq_none_of_unreadable terminal unreadable] at due
  cases due

end ReapPolicy

end ContainerJobs
