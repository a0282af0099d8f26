import ContainerJobs.Proofs.Engine.Dialogue
import ContainerJobs.Proofs.Runner.Due
import Mathlib.Data.List.Basic

/-!
# What a pass of the reaper reports

A pass knows of the jobs nothing but what a listing says, and of a removal nothing but
whether the job is gone. Whatever the listing says and whatever is answered, a pass asks for
the removal of the jobs that are due, one after the other, and the report is made from the
answers alone (`reap_eq_mapM`). So it can be cut in two at any job (`reap_append`), and each
job that is due is found in the report, in one place (`ReapReport.ofAnswers_perm`).

A *backend* is whatever makes the listings and removes the jobs. It may refuse a removal for
any reason, its own past included. `JobBackend.pass_report` says what a pass asks of a
backend, and what it makes of the answers; the passes of a runner are passes over a backend
(`Runner.reap_run_eq_pass`).
-/

namespace ContainerJobs

variable {σ : Type} {p : ReapPolicy} {now : Instant} {project : Option String}

/-! ## Due jobs -/

/-- The job is due at the instant `now`. -/
def ReapPolicy.isDue (p : ReapPolicy) (now : Instant) (j : JobInfo) : Bool :=
  (p.reason? now j).isSome

namespace ReapPolicy

/-- A job is due either because it ended or because it is active. -/
theorem reason?_eq_some {j : JobInfo} {reason : ReapReason} (h : p.reason? now j = some reason) :
    (reason = .expired ∧ j.status.isTerminal = true ∧ j.status.isActive = false) ∨
      (reason = .timedOut ∧ j.status.isTerminal = false ∧ j.status.isActive = true) := by
  obtain ⟨rfl, t, since, -⟩ := reason?_eq_some_iff.1 h
  cases status : j.status <;>
    simp [JobInfo.since?, JobInfo.ageReason, status, JobStatus.isTerminal, JobStatus.isActive]
      at since ⊢

theorem isActive_of_isDue {j : JobInfo} (h : p.isDue now j = true) :
    j.status.isActive = !j.status.isTerminal := by
  obtain ⟨reason, h⟩ := Option.isSome_iff_exists.1 h
  obtain ⟨-, terminal, active⟩ | ⟨-, terminal, active⟩ := reason?_eq_some h <;>
    rw [terminal, active] <;> rfl

end ReapPolicy

/-! ## Reports -/

namespace ReapReport

/-- One report after the other. -/
protected def append (r r' : ReapReport) : ReapReport where
  expired := r.expired ++ r'.expired
  timedOut := r.timedOut ++ r'.timedOut
  failed := r.failed ++ r'.failed

instance : Append ReapReport := ⟨ReapReport.append⟩

@[simp] theorem empty_append (r : ReapReport) : ({} : ReapReport) ++ r = r := rfl

/-- The report of a pass, from the jobs that were due, each with whether it is gone: one that
    is gone had ended or was active. -/
def ofAnswers (outcomes : List (JobInfo × Bool)) : ReapReport where
  expired := (outcomes.filter fun x => x.2 && x.1.status.isTerminal).map (·.1.id)
  timedOut := (outcomes.filter fun x => x.2 && x.1.status.isActive).map (·.1.id)
  failed := (outcomes.filter fun x => !x.2).map (·.1.id)

theorem ofAnswers_cons {j : JobInfo} {reason : ReapReason} (due : p.reason? now j = some reason)
    (gone : Bool) (outcomes : List (JobInfo × Bool)) :
    ofAnswers ((j, gone) :: outcomes) =
      if gone then (ofAnswers outcomes).addRemoved j.id reason
      else (ofAnswers outcomes).addFailed j.id := by
  cases gone with
  | false => simp [ofAnswers, addFailed]
  | true =>
    obtain ⟨rfl, terminal, active⟩ | ⟨rfl, terminal, active⟩ := ReapPolicy.reason?_eq_some due <;>
      simp [ofAnswers, addRemoved, terminal, active]

/-- A job that is due is either ended or active, so nothing is lost among those removed. -/
theorem ofAnswers_perm {outcomes : List (JobInfo × Bool)}
    (due : ∀ x ∈ outcomes, p.isDue now x.1 = true) :
    ((ofAnswers outcomes).expired ++ (ofAnswers outcomes).timedOut ++
      (ofAnswers outcomes).failed).Perm (outcomes.map (·.1.id)) := by
  have terminal : (outcomes.filter fun x => x.2 && x.1.status.isTerminal) =
      (outcomes.filter (·.2)).filter fun x => x.1.status.isTerminal := by
    rw [List.filter_filter]
    exact List.filter_congr fun x _ => Bool.and_comm _ _
  have active : (outcomes.filter fun x => x.2 && x.1.status.isActive) =
      (outcomes.filter (·.2)).filter fun x => !x.1.status.isTerminal := by
    rw [List.filter_filter]
    refine List.filter_congr fun x hx => ?_
    rw [ReapPolicy.isActive_of_isDue (due x hx), Bool.and_comm]
  rw [ofAnswers, terminal, active, ← List.map_append, ← List.map_append]
  refine List.Perm.map _ ?_
  exact ((List.filter_append_perm _ _).append_right _).trans (List.filter_append_perm _ _)

theorem ofAnswers_sublist (outcomes : List (JobInfo × Bool)) :
    (ofAnswers outcomes).expired.Sublist (outcomes.map (·.1.id)) ∧
      (ofAnswers outcomes).timedOut.Sublist (outcomes.map (·.1.id)) ∧
      (ofAnswers outcomes).failed.Sublist (outcomes.map (·.1.id)) :=
  ⟨List.filter_sublist.map _, List.filter_sublist.map _, List.filter_sublist.map _⟩

end ReapReport

/-! ## Passes -/

section Pass

variable {m : Type → Type} [Monad m] [LawfulMonad m] {cleanup : JobKey → m Bool}

/-- A pass asks for the removal of each job that is due, in the order of the listing, and of
    no other. -/
theorem reap_eq_mapM (jobs : List JobInfo) : reap cleanup p now jobs =
    (fun gone => .ofAnswers ((jobs.filter (p.isDue now)).zip gone)) <$>
      (jobs.filter (p.isDue now)).mapM fun j => cleanup j.key := by
  induction jobs with
  | nil => simp [reap, ReapReport.ofAnswers]
  | cons j jobs ih =>
    cases due : p.reason? now j with
    | none =>
      have skip : ¬p.isDue now j = true := by simp [ReapPolicy.isDue, due]
      rw [reap, due, List.filter_cons_of_neg skip]
      exact ih
    | some reason =>
      have take : p.isDue now j = true := by simp [ReapPolicy.isDue, due]
      rw [reap, due, List.filter_cons_of_pos take, List.mapM_cons]
      simp only [ih, map_bind, bind_map_left, map_pure, List.zip_cons_cons,
        ReapReport.ofAnswers_cons due]

/-- A pass through a listing is a pass through its first part and then one through its
    second part. -/
theorem reap_append (jobs jobs' : List JobInfo) : reap cleanup p now (jobs ++ jobs') = do
    let first ← reap cleanup p now jobs
    let second ← reap cleanup p now jobs'
    return first ++ second := by
  induction jobs with
  | nil => simp only [List.nil_append, reap, pure_bind, ReapReport.empty_append, bind_pure]
  | cons j jobs ih =>
    rw [List.cons_append, reap, reap]
    cases p.reason? now j with
    | none => exact ih
    | some reason =>
      simp only [ih, bind_assoc, pure_bind]
      refine bind_congr fun gone => bind_congr fun first => bind_congr fun second => ?_
      cases gone with
      | false => rfl
      | true => cases reason <;> rfl

end Pass

/-! ## Backends -/

/-- What makes listings and removes jobs, with states in `σ`. The state may hold everything
    that was asked so far, so an answer may depend on it all. -/
structure JobBackend (σ : Type) where
  /-- The jobs of a project, or all. -/
  jobs : Option String → StateM σ (List JobInfo)
  /-- Removes a job, and says whether it is gone. -/
  cleanup : JobKey → StateM σ Bool

namespace JobBackend

variable (b : JobBackend σ)

/-- A pass through the jobs of a project, or through all. -/
def pass (p : ReapPolicy) (now : Instant) (project : Option String) : StateM σ ReapReport := do
  reap b.cleanup p now (← b.jobs project)

/-- The backend, with a record of which removals it was asked for, and of its answers. -/
def recorded : JobBackend (σ × List (JobKey × Bool)) where
  jobs project s :=
    let (jobs, after) := b.jobs project s.1
    (jobs, after, s.2)
  cleanup key s :=
    let (gone, after) := b.cleanup key s.1
    (gone, after, s.2 ++ [(key, gone)])

theorem mapM_cons_run (f : JobInfo → StateM σ Bool) (j : JobInfo) (due : List JobInfo) (s : σ) :
    ((j :: due).mapM f).run s =
      let first := (f j).run s
      let rest := (due.mapM f).run first.2
      (first.1 :: rest.1, rest.2) := by
  rw [List.mapM_cons]
  rfl

theorem length_mapM_run (f : JobInfo → StateM σ Bool) (due : List JobInfo) (s : σ) :
    ((due.mapM f).run s).1.length = due.length := by
  induction due generalizing s with
  | nil => rfl
  | cons j due ih => rw [mapM_cons_run, List.length_cons, ih, List.length_cons]

/-- A record is made of every request, and makes no difference to the answers. -/
theorem mapM_recorded_run (due : List JobInfo) (s : σ) (past : List (JobKey × Bool)) :
    (due.mapM fun j => b.recorded.cleanup j.key).run (s, past) =
      let o := (due.mapM fun j => b.cleanup j.key).run s
      (o.1, o.2, past ++ (due.map (·.key)).zip o.1) := by
  induction due generalizing s past with
  | nil =>
    dsimp only
    rw [List.map_nil, List.zip_nil_left, List.append_nil]
    rfl
  | cons j due ih =>
    have first : (b.recorded.cleanup j.key).run (s, past) =
        let o := (b.cleanup j.key).run s
        (o.1, o.2, past ++ [(j.key, o.1)]) := rfl
    simp only [mapM_cons_run, first, ih, List.map_cons, List.zip_cons_cons, List.append_assoc,
      List.singleton_append]

/-- What a pass reports and leaves. -/
theorem pass_run (p : ReapPolicy) (now : Instant) (project : Option String) (s : σ) :
    (b.pass p now project).run s =
      let listing := (b.jobs project).run s
      let due := listing.1.filter (p.isDue now)
      let o := (due.mapM fun j => b.cleanup j.key).run listing.2
      (.ofAnswers (due.zip o.1), o.2) := by
  change (reap b.cleanup p now _).run _ = _
  rw [reap_eq_mapM]
  rfl

theorem recorded_pass_run (p : ReapPolicy) (now : Instant) (project : Option String) (s : σ)
    (past : List (JobKey × Bool)) :
    (b.recorded.pass p now project).run (s, past) =
      let listing := (b.jobs project).run s
      let due := listing.1.filter (p.isDue now)
      let o := (due.mapM fun j => b.cleanup j.key).run listing.2
      (.ofAnswers (due.zip o.1), o.2, past ++ (due.map (·.key)).zip o.1) := by
  have listing : (b.recorded.jobs project).run (s, past) =
      let o := (b.jobs project).run s
      (o.1, o.2, past) := rfl
  simp only [pass_run, listing, mapM_recorded_run]

/-- The recorded pass gets the same answers, one for each job that is due. -/
theorem exists_answers (p : ReapPolicy) (now : Instant) (project : Option String) (s : σ)
    (past : List (JobKey × Bool)) :
    let due := ((b.jobs project).run s).1.filter (p.isDue now)
    ∃ (gone : List Bool) (left : σ), gone.length = due.length ∧
      (b.pass p now project).run s = (.ofAnswers (due.zip gone), left) ∧
      (b.recorded.pass p now project).run (s, past) =
        (.ofAnswers (due.zip gone), left, past ++ (due.map (·.key)).zip gone) :=
  ⟨_, _, length_mapM_run _ _ _, b.pass_run p now project s,
    b.recorded_pass_run p now project s past⟩

/-- A pass over any backend asks for the removal of the jobs of its listing that are due, once
    each and in order. Its report is made from the answers, and holds each of the jobs in one
    place. A pass through a part of the listing hands nothing on to the pass through the
    rest but the state of the backend. -/
theorem pass_report (p : ReapPolicy) (now : Instant) (project : Option String) (s : σ) :
    let listing := (b.jobs project).run s
    let due := listing.1.filter (p.isDue now)
    let recorded := (b.recorded.pass p now project).run (s, [])
    let report := recorded.1
    let calls := recorded.2.2
    (b.pass p now project).run s = (report, recorded.2.1) ∧
      calls.map (·.1) = due.map (·.key) ∧
      report = .ofAnswers (due.zip (calls.map (·.2))) ∧
      (report.expired ++ report.timedOut ++ report.failed).Perm (due.map (·.id)) ∧
      (report.expired.Sublist (due.map (·.id)) ∧ report.timedOut.Sublist (due.map (·.id)) ∧
        report.failed.Sublist (due.map (·.id))) ∧
      ∀ n,
        let first := (reap b.cleanup p now (listing.1.take n)).run listing.2
        let second := (reap b.cleanup p now (listing.1.drop n)).run first.2
        (b.pass p now project).run s = (first.1 ++ second.1, second.2) := by
  intro listing due recorded report calls
  obtain ⟨gone, left, lengths, run, record⟩ := b.exists_answers p now project s []
  have hreport : report = .ofAnswers (due.zip gone) := congrArg Prod.fst record
  have hleft : recorded.2.1 = left := congrArg (·.2.1) record
  have hcalls : calls = (due.map (·.key)).zip gone := congrArg (·.2.2) record
  have keys : calls.map (·.1) = due.map (·.key) := by
    rw [hcalls]
    exact List.map_fst_zip (Nat.le_of_eq (by rw [List.length_map, lengths]))
  have outcomes : calls.map (·.2) = gone := by
    rw [hcalls]
    exact List.map_snd_zip (Nat.le_of_eq (by rw [List.length_map, lengths]))
  have ids : (due.zip gone).map (·.1.id) = due.map (·.id) := by
    have jobs : (due.zip gone).map (·.1) = due := List.map_fst_zip (Nat.le_of_eq lengths.symm)
    conv_rhs => rw [← jobs, List.map_map]
    rfl
  refine ⟨?_, keys, ?_, ?_, ?_, fun n => ?_⟩
  · rw [hreport, hleft]
    exact run
  · rw [outcomes, hreport]
  · rw [hreport, ← ids]
    exact ReapReport.ofAnswers_perm fun x hx => List.of_mem_filter (List.of_mem_zip hx).1
  · rw [hreport, ← ids]
    exact ReapReport.ofAnswers_sublist _
  · have cut : reap b.cleanup p now (listing.1.take n ++ listing.1.drop n) = _ := reap_append _ _
    rw [List.take_append_drop] at cut
    exact congrArg (fun pass => pass.run listing.2) cut

end JobBackend

/-! ## Runners -/

namespace Runner

/-- A runner with an engine and a start lock, as a backend. -/
def backend (r : Runner) (e : Engine σ) (present : Instant) : JobBackend (σ × StartLock) where
  jobs project s :=
    let o := (Dialogue.jobs present project).run e s.1 s.2
    (o.value, o.engine, o.lock)
  cleanup key s :=
    let o := (r.cleanup key).run e s.1 s.2
    (o.value, o.engine, o.lock)

/-- A pass of a runner is a pass over a backend. -/
theorem reap_run_eq_pass (r : Runner) (p : ReapPolicy) (present now : Instant)
    (project : Option String) (s : σ) (lock : StartLock) :
    let o := (r.reap p present now project).run e s lock
    ((r.backend e present).pass p now project).run (s, lock) = (o.value, o.engine, o.lock) := by
  have pass (jobs : List JobInfo) (s : σ) (lock : StartLock) :
      let o := (ContainerJobs.reap r.cleanup p now jobs).run e s lock
      (ContainerJobs.reap (r.backend e present).cleanup p now jobs).run (s, lock) =
        (o.value, o.engine, o.lock) := by
    induction jobs generalizing s lock with
    | nil => rfl
    | cons j jobs ih =>
      rw [ContainerJobs.reap, ContainerJobs.reap]
      cases p.reason? now j with
      | none => exact ih s lock
      | some reason =>
        simp only [Dialogue.run_bind, Dialogue.run_pure]
        have first : ((r.backend e present).cleanup j.key).run (s, lock) =
            let o := (r.cleanup j.key).run e s lock
            (o.value, o.engine, o.lock) := rfl
        have rest := ih ((r.cleanup j.key).run e s lock).engine
          ((r.cleanup j.key).run e s lock).lock
        rw [StateT.run_bind, first]
        change StateT.run (_ >>= _) _ = _
        rw [StateT.run_bind, rest]
        rfl
  rw [Runner.reap, Dialogue.run_bind]
  exact pass _ _ _

end Runner

end ContainerJobs
