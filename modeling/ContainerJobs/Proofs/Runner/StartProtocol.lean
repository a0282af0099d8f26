import ContainerJobs.Engine.Scripted
import ContainerJobs.Proofs.Container.State
import ContainerJobs.Proofs.Engine.Dialogue
import ContainerJobs.Proofs.Launch.Arguments

/-!
# The protocol of a start

What a start of a job puts to an engine, whatever the engine answers. A start
inspects, may then stop and remove the old container, and may at the end launch a
new one. `Runner.StartCourse` lists all courses that this can take, and
`start_course` says that there are no others. What a start is careful about is
read off the courses (`Runner.StartProtocol`): it touches a container only if an
inspection told that its job is over, did not begin, or cannot be read, and
launches beside none.
-/

namespace ContainerJobs

/-- The answer tells that what the command names does not exist. -/
def Answer.saysNotFound : Answer → Bool
  | .ok r => r.isNotFound
  | .error _ => false

/-- The answer tells that what the command was to remove is gone. -/
def Answer.saysGone : Answer → Bool
  | .ok r => r.isSuccess || r.isNotFound
  | .error _ => false

variable {σ : Type} {e : Engine σ}

/-! ## Inspection -/

namespace Presence

variable {reply : Reply}

theorem isNotFound_of_hindrance_eq_nothing (h : (ofReply reply).hindrance = .nothing) :
    reply.isNotFound = true := by
  rw [ofReply] at h
  split at h
  · assumption
  · split at h
    · cases h
    · split at h
      · rw [hindrance] at h
        split at h <;> cases h
      · cases h

/-- What is removable was seen, and is over, did not begin, or cannot be read. -/
theorem settled_of_hindrance_eq_removable (h : (ofReply reply).hindrance = .removable) :
    reply.exitCode = 0 ∧ ∀ state, ContainerState.ofLine? reply.stdout = some state →
      state.jobStatus ∈ [.completed, .failed, .pending] := by
  rw [ofReply] at h
  split at h
  · cases h
  · split at h
    · cases h
    · next hs =>
      refine ⟨by simpa [Reply.isSuccess] using hs, fun state hstate => ?_⟩
      -- A canceled job would be removable too, but no state tells of one.
      have hc := state.jobStatus_ne_canceled
      rw [hstate] at h
      simp only [hindrance] at h
      split at h <;> simp_all

end Presence

/-! ## Removal -/

/-- The courses of a removal, with what they say about the container. -/
inductive RemovalCourse (name : String) : List (Command × Answer) → Bool → Prop
  | unreached (f : SpawnFailure) : RemovalCourse name [(["stop", name], .error f)] false
  | missing {r : Reply} : r.isNotFound = true →
      RemovalCourse name [(["stop", name], .ok r)] true
  | removed {r : Reply} (a : Answer) : r.isNotFound = false →
      RemovalCourse name [(["stop", name], .ok r), (["rm", "-f", name], a)] a.saysGone

theorem removal_course (name : String) (s : σ) (lock : StartLock) :
    RemovalCourse name ((Dialogue.removeContainer name).exchanges e s lock)
      ((Dialogue.removeContainer name).run e s lock).value := by
  rw [Dialogue.removeContainer]
  simp only [Dialogue.command_bind, Dialogue.exchanges_ask, Dialogue.run_ask]
  cases (e ["stop", name] s).1 with
  | error f => exact .unreached f
  | ok r =>
    cases h : r.isNotFound with
    | true => simpa [h] using .missing h
    | false =>
      simp only [h, Bool.false_eq_true, if_false, Dialogue.exchanges_ask, Dialogue.run_ask]
      cases (e ["rm", "-f", name] (e ["stop", name] s).2).1 with
      | error f => exact .removed (.error f) h
      | ok r' => exact .removed (.ok r') h

variable {name : String} {x : List (Command × Answer)}

theorem RemovalCourse.commands {gone : Bool} (h : RemovalCourse name x gone) :
    x.map (·.1) <+: [["stop", name], ["rm", "-f", name]] ∧ x ≠ [] := by
  cases h <;> exact ⟨by simp, by simp⟩

/-- A container counts as gone exactly if the engine says so. -/
theorem RemovalCourse.gone_iff {gone : Bool} (h : RemovalCourse name x gone) : gone = true ↔
    (∃ a, x = [(["stop", name], a)] ∧ a.saysNotFound = true) ∨
      ∃ a a', x = [(["stop", name], a), (["rm", "-f", name], a')] ∧ a'.saysGone = true := by
  cases h with
  | unreached f => simp [Answer.saysNotFound]
  | missing hr => simp [Answer.saysNotFound, hr]
  | removed a hr => simp

namespace Runner

variable {r : Runner} {q : StartRequest}

/-! ## Launch -/

/-- The courses of a launch, with what comes of them. -/
inductive LaunchCourse (r : Runner) (q : StartRequest) :
    List (Command × Answer) → Except JobError Bool → Prop
  | unplanned {err : JobError} : r.plan q = .error err → LaunchCourse r q [] (.error err)
  | unreached {p : LaunchPlan} (f : SpawnFailure) : r.plan q = .ok p →
      LaunchCourse r q [(p.args, .error f)] (.error (.engine f))
  | answered {p : LaunchPlan} (reply : Reply) : r.plan q = .ok p →
      LaunchCourse r q [(p.args, .ok reply)] (.ok reply.isSuccess)

theorem launch_course (s : σ) (lock : StartLock) :
    LaunchCourse r q ((r.launch q).exchanges e s lock) ((r.launch q).run e s lock).value := by
  rw [launch]
  cases h : r.plan q with
  | error err => exact .unplanned h
  | ok p =>
    simp only [Dialogue.command_bind, Dialogue.exchanges_ask, Dialogue.run_ask]
    cases (e p.args s).1 with
    | error f => exact .unreached f h
    | ok reply => exact .answered reply h

variable {v : Except JobError Bool}

theorem LaunchCourse.commands (h : LaunchCourse r q x v) :
    x = [] ∨ ∃ task a, q.function.validate = .ok q.function ∧
      r.instances q.key.trajectory = .ok task ∧ x = [("run" :: r.launchArgs q task, a)] := by
  cases h with
  | unplanned => exact .inl rfl
  | unreached f hp =>
    obtain ⟨task, hf, ht, args⟩ := plan_eq_ok hp
    exact .inr ⟨task, .error f, hf, ht, by rw [args]⟩
  | answered reply hp =>
    obtain ⟨task, hf, ht, args⟩ := plan_eq_ok hp
    exact .inr ⟨task, .ok reply, hf, ht, by rw [args]⟩

/-- A launch says that a container was launched exactly if its command succeeded. -/
theorem LaunchCourse.eq_ok_true_iff (h : LaunchCourse r q x v) :
    v = .ok true ↔ ∃ args reply, x.getLast? = some ("run" :: args, .ok reply) ∧
      reply.exitCode = 0 := by
  cases h with
  | unplanned => simp
  | unreached f => simp
  | answered reply hp =>
    obtain ⟨task, -, -, args⟩ := plan_eq_ok hp
    rw [args]
    constructor
    · intro h
      exact ⟨_, reply, rfl, by simpa [Reply.isSuccess] using h⟩
    · rintro ⟨args', reply', last, hc⟩
      simp only [List.getLast?_singleton, Option.some.injEq, Prod.mk.injEq, Except.ok.injEq] at last
      simpa [Reply.isSuccess, last.2] using hc

theorem LaunchCourse.eq_engine_iff (h : LaunchCourse r q x v) :
    (∃ f, v = .error (.engine f)) ↔ ∃ args f, ("run" :: args, .error f) ∈ x := by
  cases h with
  | unplanned hp => simp [plan_ne_engine hp]
  | unreached f hp =>
    obtain ⟨task, -, -, args⟩ := plan_eq_ok hp
    simp [args]
  | answered reply => simp

/-! ## Start -/

/-- The courses of a start that holds the start lock, with what comes of them. -/
inductive StartCourse (r : Runner) (q : StartRequest) :
    List (Command × Answer) → Except JobError Bool → Prop
  | unreached (f : SpawnFailure) :
      StartCourse r q [(.inspectState (r.resourceName q.key), .error f)] (.error (.engine f))
  | lasting {reply : Reply} : (Presence.ofReply reply).hindrance = .lasting →
      StartCourse r q [(.inspectState (r.resourceName q.key), .ok reply)] (.ok false)
  | unhindered {reply : Reply} {x : List (Command × Answer)} {v : Except JobError Bool} :
      (Presence.ofReply reply).hindrance = .nothing → LaunchCourse r q x v →
      StartCourse r q ((.inspectState (r.resourceName q.key), .ok reply) :: x) v
  | kept {reply : Reply} {x : List (Command × Answer)} :
      (Presence.ofReply reply).hindrance = .removable →
      RemovalCourse (r.resourceName q.key) x false →
      StartCourse r q ((.inspectState (r.resourceName q.key), .ok reply) :: x) (.ok false)
  | replaced {reply : Reply} {x y : List (Command × Answer)} {v : Except JobError Bool} :
      (Presence.ofReply reply).hindrance = .removable →
      RemovalCourse (r.resourceName q.key) x true → LaunchCourse r q y v →
      StartCourse r q ((.inspectState (r.resourceName q.key), .ok reply) :: (x ++ y)) v

theorem startUnlocked_course (s : σ) (lock : StartLock) :
    StartCourse r q ((r.startUnlocked q).exchanges e s lock)
      ((r.startUnlocked q).run e s lock).value := by
  rw [startUnlocked]
  simp only [Dialogue.command_bind, Dialogue.exchanges_ask, Dialogue.run_ask]
  generalize e (.inspectState (r.resourceName q.key)) s = answered
  obtain ⟨f | reply, s'⟩ := answered
  · exact .unreached f
  · cases h : (Presence.ofReply reply).hindrance with
    | nothing =>
      simp only [h]
      exact .unhindered h (launch_course s' lock)
    | lasting =>
      simp only [h]
      exact .lasting h
    | removable =>
      have course := removal_course (e := e) (r.resourceName q.key) s' lock
      simp only [h, Dialogue.exchanges_bind, Dialogue.run_bind]
      -- A launch follows exactly if the removal says that the container is gone.
      cases hv : ((Dialogue.removeContainer (r.resourceName q.key)).run e s' lock).value with
      | false => simpa using .kept h (hv ▸ course)
      | true => exact .replaced h (hv ▸ course) (launch_course _ _)

/-- A start that gets the lock takes one of the courses. -/
theorem start_course {s : σ} {lock : StartLock}
    (free : lock.isHeld (r.resourceName q.key) = false) :
    StartCourse r q ((r.start q).exchanges e s lock) ((r.start q).run e s lock).value := by
  obtain ⟨g, lock', hg⟩ := StartLock.exists_acquire? free
  rw [start, Dialogue.exchanges, Dialogue.run, hg]
  simpa [Dialogue.exchanges_bind, Dialogue.run_bind] using startUnlocked_course s lock'

/-! ## Safety -/

/-- What a start of a job is careful about, in terms of its exchanges. They are an
    inspection, a removal and a launch, and the last two may be missing. -/
structure StartProtocol (r : Runner) (q : StartRequest) (x : List (Command × Answer))
    (result : Except JobError Bool) (inspected : Answer)
    (removal launched : List (Command × Answer)) : Prop where
  /-- The three parts come in this order. -/
  parts : x = (.inspectState (r.resourceName q.key), inspected) :: (removal ++ launched)
  /-- A removal names the container of the job and no other. -/
  removes : removal.map (·.1) <+:
    [["stop", r.resourceName q.key], ["rm", "-f", r.resourceName q.key]]
  /-- A launch is one command, made for a valid function and a known task. -/
  launches : launched = [] ∨ ∃ task a, q.function.validate = .ok q.function ∧
    r.instances q.key.trajectory = .ok task ∧ launched = [("run" :: r.launchArgs q task, a)]
  /-- What is removed was seen, and is over, did not begin, or cannot be read. -/
  removes_settled : removal ≠ [] → ∃ reply, inspected = .ok reply ∧ reply.exitCode = 0 ∧
    ∀ state, ContainerState.ofLine? reply.stdout = some state →
      state.jobStatus ∈ [.completed, .failed, .pending]
  /-- A container is launched only where the engine said that there is none. -/
  launches_alone : launched ≠ [] → inspected.saysNotFound = true ∨
    (∃ a, removal = [(["stop", r.resourceName q.key], a)] ∧ a.saysNotFound = true) ∨
    ∃ a a', removal = [(["stop", r.resourceName q.key], a),
      (["rm", "-f", r.resourceName q.key], a')] ∧ a'.saysGone = true
  /-- The start succeeds exactly if it ends with a launch that the engine took. -/
  succeeds_iff : result = .ok true ↔ ∃ args reply,
    x.getLast? = some ("run" :: args, .ok reply) ∧ reply.exitCode = 0
  /-- The engine is at fault exactly if inspection or launch did not reach it. -/
  faults_iff : (∃ f, result = .error (.engine f)) ↔
    (∃ f, inspected = .error f) ∨ ∃ args f, ("run" :: args, .error f) ∈ launched

/-- The last exchange is a launch only if it belongs to the launch. -/
theorem getLast?_eq_run_iff (inspected : Answer) {removal : List (Command × Answer)}
    (launched : List (Command × Answer)) {args : Command} {a : Answer}
    (h : removal.map (·.1) <+: [["stop", name], ["rm", "-f", name]]) :
    ((Command.inspectState name, inspected) :: (removal ++ launched)).getLast? =
      some ("run" :: args, a) ↔ launched.getLast? = some ("run" :: args, a) := by
  rw [← List.cons_append, List.getLast?_append]
  cases hl : launched.getLast? with
  | some y => simp
  | none =>
    simp only [Option.none_or, reduceCtorEq, iff_false]
    intro last
    -- It would be the inspection or a part of the removal, and neither is a launch.
    rcases List.mem_cons.1 (List.mem_of_getLast? last) with heq | hmem
    · simp [Command.inspectState] at heq
    · have := h.subset (List.mem_map_of_mem hmem)
      simp at this

theorem StartCourse.protocol {v : Except JobError Bool} (h : StartCourse r q x v) :
    ∃ inspected removal launched, StartProtocol r q x v inspected removal launched := by
  cases h with
  | unreached f =>
    refine ⟨.error f, [], [], rfl, by simp, .inl rfl, by simp, by simp, ?_, by simp⟩
    simp [Command.inspectState]
  | @lasting reply h =>
    refine ⟨.ok reply, [], [], rfl, by simp, .inl rfl, by simp, by simp, ?_, by simp⟩
    simp [Command.inspectState]
  | @unhindered reply x v h launch =>
    -- The launch begins right after the inspection.
    have missing := Presence.isNotFound_of_hindrance_eq_nothing h
    refine ⟨.ok reply, [], x, rfl, by simp, launch.commands, by simp, fun _ => .inl missing, ?_, ?_⟩
    · have nothing : ([] : List (Command × Answer)).map (·.1) <+:
          [["stop", r.resourceName q.key], ["rm", "-f", r.resourceName q.key]] := List.nil_prefix
      simp only [launch.eq_ok_true_iff, ← getLast?_eq_run_iff (.ok reply) x nothing,
        List.nil_append]
    · simp [launch.eq_engine_iff]
  | @kept reply x h removal =>
    obtain ⟨hc, hs⟩ := Presence.settled_of_hindrance_eq_removable h
    refine ⟨.ok reply, x, [], by rw [List.append_nil], removal.commands.1, .inl rfl,
      fun _ => ⟨reply, rfl, hc, hs⟩, by simp, ?_, by simp⟩
    -- The removal failed, and the start ends with it.
    have last {args : Command} {a : Answer} :
        ((Command.inspectState (r.resourceName q.key), .ok reply) :: x).getLast? ≠
          some ("run" :: args, a) := fun hrun => by
      rw [← List.append_nil x, getLast?_eq_run_iff _ _ removal.commands.1] at hrun
      simp at hrun
    simp [last]
  | @replaced reply x y v h removal launch =>
    obtain ⟨hc, hs⟩ := Presence.settled_of_hindrance_eq_removable h
    refine ⟨.ok reply, x, y, rfl, removal.commands.1, launch.commands,
      fun _ => ⟨reply, rfl, hc, hs⟩, fun _ => .inr (removal.gone_iff.1 rfl), ?_, ?_⟩
    · simp only [launch.eq_ok_true_iff, getLast?_eq_run_iff _ _ removal.commands.1]
    · simp [launch.eq_engine_iff]

/-- A start keeps to the protocol with any engine, unless its name is taken; what
    it puts to the engine are the commands of its exchanges. -/
theorem start_protocol {σ : Type} (e : Engine σ) (s : σ) (r : Runner) (q : StartRequest)
    {lock : StartLock} (free : lock.isHeld (r.resourceName q.key) = false) :
    ((r.start q).run e s lock).calls = ((r.start q).exchanges e s lock).map (·.1) ∧
      ∃ inspected removal launched, StartProtocol r q ((r.start q).exchanges e s lock)
        ((r.start q).run e s lock).value inspected removal launched :=
  ⟨Dialogue.calls_eq_map_exchanges _ s lock, (start_course free).protocol⟩

/-- A start with a fresh lock and an engine that reports an exited container, and
    then cannot be reached any more. -/
theorem start_protocol_of_fresh :
    StartLock.fresh.isHeld (sample.resourceName ⟨"lens", "run-1"⟩) = false ∧
      ∃ inspected removal launched,
        StartProtocol sample (sampleRequest ⟨"lens", "run-1"⟩)
          ((sample.start (sampleRequest ⟨"lens", "run-1"⟩)).exchanges Script.engine
            [.ok { stdout := "exited,false,0,2024-05-01T10:00:00Z,2024-05-01T10:05:00Z" }] .fresh)
          ((sample.start (sampleRequest ⟨"lens", "run-1"⟩)).run Script.engine
            [.ok { stdout := "exited,false,0,2024-05-01T10:00:00Z,2024-05-01T10:05:00Z" }]
            .fresh).value inspected removal launched :=
  ⟨rfl, (start_protocol Script.engine _ sample _ rfl).2⟩

end Runner

end ContainerJobs
