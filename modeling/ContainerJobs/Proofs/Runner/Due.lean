import ContainerJobs.Reaper

/-!
# When jobs are due

Outside leap seconds the instants are the points of a line, a nanosecond apart
(`Instant.nanos`), and an age is a distance on it. So a job is due exactly if the
instant that its age counts from lies more than the limit before the present, and
once it is due it stays so (`ReapPolicy.reason?_stays`).

A leap second goes by without the time of day, so an age that is taken within one can
be greater than an age that is taken after it. Nothing of the above holds there.
-/

namespace ContainerJobs

/-! ## Ages -/

namespace Instant

/-- The instant is within a leap second. -/
def inLeapSecond (t : Instant) : Bool :=
  nanosPerSecond ≤ t.nano

/-- The nanoseconds since 1970-01-01T00:00:00Z, leap seconds not counted. -/
def nanos (t : Instant) : Int :=
  t.second * nanosPerSecond + t.nano

variable {s t now : Instant} {limit : Nat}

theorem nano_lt (h : t.inLeapSecond = false) : t.nano < nanosPerSecond :=
  Nat.lt_of_not_le (of_decide_eq_false h)

theorem nanosBetween_eq (hs : s.inLeapSecond = false) (ht : t.inLeapSecond = false) :
    nanosBetween s t = t.nanos - s.nanos := by
  rw [inLeapSecond] at hs ht
  simp only [nanosBetween, hs, ht, Bool.and_false, Bool.false_eq_true, if_false]
  rw [nanos, nanos, Int.add_zero, Int.sub_mul]
  omega

theorem le_iff_nanos_le (hs : s.inLeapSecond = false) (ht : t.inLeapSecond = false) :
    s.le t = true ↔ s.nanos ≤ t.nanos := by
  have hs := nano_lt hs
  have ht := nano_lt ht
  simp only [le, Bool.or_eq_true, Bool.and_eq_true, decide_eq_true_eq, beq_iff_eq, nanos]
  rw [nanosPerSecond] at *
  omega

theorem isOlderThan_iff (ht : t.inLeapSecond = false) (hnow : now.inLeapSecond = false) :
    t.isOlderThan now limit = true ↔ t.nanos + limit * nanosPerSecond < now.nanos := by
  rw [isOlderThan, nanosBetween_eq ht hnow]
  simp only [Bool.and_eq_true, decide_eq_true_eq, Int.natCast_mul]
  -- An age beyond a limit is no debt, so the first test is implied.
  have limit_nonneg : 0 ≤ (limit : Int) * nanosPerSecond :=
    Int.mul_nonneg (Int.natCast_nonneg _) (Int.natCast_nonneg _)
  omega

/-- What is older than a limit is older than all shorter ones. -/
theorem isOlderThan_of_limit_le {shorter : Nat} (h : shorter ≤ limit)
    (old : t.isOlderThan now limit = true) : t.isOlderThan now shorter = true := by
  have bound := Nat.mul_le_mul_right nanosPerSecond h
  simp only [isOlderThan, Bool.and_eq_true, decide_eq_true_eq] at old ⊢
  omega

end Instant

/-! ## Due jobs -/

namespace JobInfo

/-- The times that are told of a job. -/
def times (j : JobInfo) : List Instant :=
  j.enqueuedAt :: (j.startedAt.toList ++ j.endedAt.toList)

/-- What the age of a job counts from: the end of one that ended, and the start of an active
    one, or its creation as long as it has not been started. -/
def since? (j : JobInfo) : Option Instant :=
  if j.status.isTerminal then j.endedAt
  else if j.status.isActive then some (j.startedAt.getD j.enqueuedAt)
  else none

/-- Why a job is due if it is too old. -/
def ageReason (j : JobInfo) : ReapReason :=
  if j.status.isTerminal then .expired else .timedOut

variable {j : JobInfo} {t : Instant}

theorem mem_times_of_since? (h : j.since? = some t) : t ∈ j.times := by
  rw [since?] at h
  split at h
  · simp [times, h]
  · obtain rfl := Option.some.inj (Option.ite_none_right_eq_some.1 h).2
    cases started : j.startedAt <;> simp [times, started]

end JobInfo

namespace ReapPolicy

/-- How old a job may get. -/
def limit (p : ReapPolicy) (j : JobInfo) : Nat :=
  if j.status.isTerminal then p.ttl else p.timeout

variable {p p' : ReapPolicy} {now later t : Instant} {j : JobInfo} {reason : ReapReason}

theorem reason?_eq (p : ReapPolicy) (now : Instant) (j : JobInfo) : p.reason? now j =
    j.since?.bind fun t =>
      if t.isOlderThan now (p.limit j) then some j.ageReason else none := by
  rw [reason?, JobInfo.since?, limit, JobInfo.ageReason]
  split
  · rfl
  · split <;> rfl

theorem reason?_eq_some_iff : p.reason? now j = some reason ↔
    reason = j.ageReason ∧ ∃ t, j.since? = some t ∧ t.isOlderThan now (p.limit j) = true := by
  rw [reason?_eq, Option.bind_eq_some_iff]
  constructor
  · rintro ⟨t, since, h⟩
    obtain ⟨old, same⟩ := Option.ite_none_right_eq_some.1 h
    exact ⟨(Option.some.inj same).symm, t, since, old⟩
  · rintro ⟨rfl, t, since, old⟩
    exact ⟨t, since, if_pos old⟩

/-- A policy that gives jobs more time finds no more of them due. -/
theorem reason?_of_limits_le (ttl : p.ttl ≤ p'.ttl) (timeout : p.timeout ≤ p'.timeout)
    (due : p'.reason? now j = some reason) : p.reason? now j = some reason := by
  have limits : p.limit j ≤ p'.limit j := by
    rw [limit, limit]
    split
    · exact ttl
    · exact timeout
  obtain ⟨same, t, since, old⟩ := reason?_eq_some_iff.1 due
  exact reason?_eq_some_iff.2 ⟨same, t, since, Instant.isOlderThan_of_limit_le limits old⟩

section OutsideLeapSeconds

variable (plain : ∀ t ∈ j.times, t.inLeapSecond = false) (hnow : now.inLeapSecond = false)

include plain hnow

theorem reason?_eq_some_iff_nanos : p.reason? now j = some reason ↔ reason = j.ageReason ∧
    ∃ t, j.since? = some t ∧ t.nanos + p.limit j * Instant.nanosPerSecond < now.nanos := by
  rw [reason?_eq_some_iff]
  refine and_congr_right fun _ => exists_congr fun t => and_congr_right fun since => ?_
  exact Instant.isOlderThan_iff (plain t (JobInfo.mem_times_of_since? since)) hnow

theorem reason?_eq_expired_iff : p.reason? now j = some .expired ↔
    j.status.isTerminal = true ∧ ∃ ended, j.endedAt = some ended ∧
      ended.nanos + p.ttl * Instant.nanosPerSecond < now.nanos := by
  rw [reason?_eq_some_iff_nanos plain hnow]
  cases terminal : j.status.isTerminal <;> simp [JobInfo.since?, JobInfo.ageReason, limit, terminal]

theorem reason?_eq_timedOut_iff : p.reason? now j = some .timedOut ↔
    j.status.isActive = true ∧ (j.startedAt.getD j.enqueuedAt).nanos +
      p.timeout * Instant.nanosPerSecond < now.nanos := by
  rw [reason?_eq_some_iff_nanos plain hnow]
  cases status : j.status <;>
    simp [JobInfo.since?, JobInfo.ageReason, limit, status, JobStatus.isTerminal, JobStatus.isActive]

/-- Outside leap seconds, a job is due at the instant `now` exactly if it ended, and did so more
    than the time to live before, or if it waits or runs, and has been doing so for more than
    the timeout; both are compared to the nanosecond. So

    * a job that is due is due for the same reason at every later instant,
    * a job that is not due is not due either if it is given more time,
    * a job is not due up to the instant that its age counts from,
    * a job that is being removed is never due. -/
theorem reason?_stays :
    (∀ p : ReapPolicy,
      (p.reason? now j = some .expired ↔ j.status.isTerminal = true ∧
        ∃ ended, j.endedAt = some ended ∧
          ended.nanos + p.ttl * Instant.nanosPerSecond < now.nanos) ∧
      (p.reason? now j = some .timedOut ↔ j.status.isActive = true ∧
        (j.startedAt.getD j.enqueuedAt).nanos +
          p.timeout * Instant.nanosPerSecond < now.nanos)) ∧
    (∀ (p : ReapPolicy) (later : Instant) (reason : ReapReason), later.inLeapSecond = false →
      now.le later = true → p.reason? now j = some reason → p.reason? later j = some reason) ∧
    (∀ p p' : ReapPolicy, p.ttl ≤ p'.ttl → p.timeout ≤ p'.timeout →
      p.reason? now j = none → p'.reason? now j = none) ∧
    (∀ (p : ReapPolicy) (t : Instant), j.since? = some t → now.le t = true →
      p.reason? now j = none) ∧
    (j.status = .stopped → ∀ p : ReapPolicy, p.reason? now j = none) := by
  refine ⟨fun p => ⟨reason?_eq_expired_iff plain hnow, reason?_eq_timedOut_iff plain hnow⟩,
    fun p later reason hlater h due => ?_, fun p p' ttl timeout young => ?_,
    fun p t since h => ?_, fun stopped p => ?_⟩
  · obtain ⟨same, t, since, old⟩ := (reason?_eq_some_iff_nanos plain hnow).1 due
    have passed := (Instant.le_iff_nanos_le hnow hlater).1 h
    exact (reason?_eq_some_iff_nanos plain hlater).2 ⟨same, t, since, by omega⟩
  · rw [Option.eq_none_iff_forall_ne_some] at young ⊢
    exact fun reason due => young reason (reason?_of_limits_le ttl timeout due)
  · have ahead := (Instant.le_iff_nanos_le hnow (plain t (JobInfo.mem_times_of_since? since))).1 h
    have limit_nonneg : 0 ≤ (p.limit j : Int) * Instant.nanosPerSecond :=
      Int.mul_nonneg (Int.natCast_nonneg _) (Int.natCast_nonneg _)
    rw [Option.eq_none_iff_forall_ne_some]
    intro reason due
    obtain ⟨-, t', since', old⟩ := (reason?_eq_some_iff_nanos plain hnow).1 due
    obtain rfl := Option.some.inj (since.symm.trans since')
    omega
  · rw [reason?_eq, JobInfo.since?, stopped]
    rfl

end OutsideLeapSeconds

/-- A job that ran from 10:00 to half a second after 10:05. -/
def sampleJob : JobInfo where
  id := "lens:run-1"
  key := ⟨"lens", "run-1"⟩
  status := .failed
  enqueuedAt := { second := 1714557598, nano := 100000000 }
  startedAt := some { second := 1714557600, nano := 0 }
  endedAt := some { second := 1714557900, nano := 500000000 }

/-- With an hour to live, the job is due from the first nanosecond after the hour on. -/
theorem reason?_stays_sampleJob :
    let hour : Instant := { second := 1714561500, nano := 500000000 }
    let p : ReapPolicy := { ttl := 3600, timeout := 60 }
    (∀ t ∈ sampleJob.times, t.inLeapSecond = false) ∧ hour.inLeapSecond = false ∧
      p.reason? hour sampleJob = none ∧
      ∀ later : Instant, later.inLeapSecond = false → hour.nanos < later.nanos →
        p.reason? later sampleJob = some .expired := by
  intro hour p
  have plain : ∀ t ∈ sampleJob.times, t.inLeapSecond = false := by decide
  have plainHour : hour.inLeapSecond = false := rfl
  refine ⟨plain, plainHour, ?_, fun later hlater after => ?_⟩
  · have due := (reason?_stays plain plainHour).1 p
    rw [Option.eq_none_iff_forall_ne_some]
    rintro (_ | _) reason
    · obtain ⟨-, ended, h, old⟩ := due.1.1 reason
      obtain rfl := Option.some.inj h
      exact absurd old (by decide)
    · exact absurd (due.2.1 reason).1 (by decide)
  · obtain ⟨expired, -⟩ := (reason?_stays plain hlater).1 p
    refine expired.2 ⟨rfl, _, rfl, ?_⟩
    exact Int.lt_of_le_of_lt (by decide) after

/-- A job that was started at noon is due after twelve hours in the leap second at the end of
    the day, and is not any more when the next day begins. -/
example :
    let noon : Instant := { second := 43200, nano := 0 }
    let leap : Instant := { second := 86399, nano := 1500000000 }
    let midnight : Instant := { second := 86400, nano := 0 }
    leap.le midnight = true ∧ noon.isOlderThan leap 43200 = true ∧
      noon.isOlderThan midnight 43200 = false := by
  decide

end ReapPolicy

end ContainerJobs
