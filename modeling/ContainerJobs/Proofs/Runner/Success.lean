import ContainerJobs.Proofs.Container.State
import ContainerJobs.Proofs.Engine.Dialogue
import ContainerJobs.Proofs.Json.Value
import ContainerJobs.Proofs.Launch.Arguments
import ContainerJobs.Engine.Scripted
import ContainerJobs.Runner.Inquiry

/-!
# When a job is a success

A state is read with defaults: a running flag that is not understood counts as not set, a time
that is not understood as none. An exit code that is not understood is no zero, though, so
no default adds up to a success (`ContainerState.jobStatus_ofLine?_eq_completed_iff`,
`ContainerState.jobStatus_ofJson?_eq_completed_iff`). A runner reports a job as completed
only if the engine itself tells it in its answer (`Runner.completed_iff`).
-/

namespace ContainerJobs

/-! ## States -/

namespace ContainerState

variable {s : ContainerState} {line : String} {state : Json}

/-- The container ran to its end and exited with zero. -/
structure IsSuccess (s : ContainerState) : Prop where
  /-- The engine's word, in any case. -/
  status : Text.asciiLower s.status = "exited"
  /-- The main process does not run. -/
  running : s.running ≠ true
  /-- The exit code. -/
  exitCode : s.exitCode = 0
  /-- What was started has ended. -/
  ended : EngineTime.isZero s.startedAt = false → EngineTime.isZero s.finishedAt = false

theorem jobStatus_eq_completed_iff : s.jobStatus = .completed ↔ s.IsSuccess := by
  have unfinished : (!EngineTime.isZero s.startedAt && EngineTime.isZero s.finishedAt) = true ↔
      ¬(EngineTime.isZero s.startedAt = false → EngineTime.isZero s.finishedAt = false) := by
    rw [Bool.and_eq_true, Bool.not_eq_true', Classical.not_imp, Bool.not_eq_false]
  rw [jobStatus]
  constructor
  · intro h
    split at h
    · cases h
    · next ended =>
      split at h
      · cases h
      · next running =>
        dsimp only at h
        repeat' split at h
        any_goals cases h
        next status exitCode =>
        exact ⟨status, running, exitCode, not_not.1 (mt unfinished.2 ended)⟩
  · rintro ⟨status, running, exitCode, ended⟩
    rw [if_neg (mt unfinished.1 (not_not.2 ended)), if_neg running, status]
    rw [if_neg (by decide), if_neg (by decide), if_pos rfl, if_pos exitCode]

/-- The line tells a success in its first five fields. -/
def IsSuccessLine (line : String) : Prop :=
  ∃ status running code started finished rest,
    line.toList = [','].intercalate (status :: running :: code :: started :: finished :: rest) ∧
    (∀ f ∈ status :: running :: code :: started :: finished :: rest, ',' ∉ f) ∧
    (Text.trimmed status).map Char.toLower = "exited".toList ∧
    (Text.trimmed running).map Char.toLower ≠ "true".toList ∧
    Text.IsZero (Text.trimmed code) ∧
    (EngineTime.isZero (.ofList started) = false → EngineTime.isZero (.ofList finished) = false)

theorem isZero_ofList_trimmed (l : List Char) :
    EngineTime.isZero (.ofList (Text.trimmed l)) = EngineTime.isZero (.ofList l) := by
  simp only [EngineTime.isZero, Text.trim, String.toList_ofList, Text.trimmed_trimmed]

/-- The fields of a line, read as the parts of a state. -/
theorem isSuccess_fields_iff {status running code started finished : List Char} :
    IsSuccess
        { status := .ofList (Text.trimmed status)
          running := (Text.trimmed running).map Char.toLower = ['t', 'r', 'u', 'e']
          exitCode := (Text.signed? (Text.trimmed code)).getD (-1)
          startedAt := .ofList (Text.trimmed started)
          finishedAt := .ofList (Text.trimmed finished) } ↔
      (Text.trimmed status).map Char.toLower = "exited".toList ∧
        (Text.trimmed running).map Char.toLower ≠ "true".toList ∧
        Text.IsZero (Text.trimmed code) ∧
        (EngineTime.isZero (.ofList started) = false →
          EngineTime.isZero (.ofList finished) = false) := by
  have word : Text.asciiLower (.ofList (Text.trimmed status)) = "exited" ↔
      (Text.trimmed status).map Char.toLower = "exited".toList := by
    rw [Text.asciiLower, String.toList_ofList, ← String.toList_inj, String.toList_ofList]
  have flag : decide ((Text.trimmed running).map Char.toLower = ['t', 'r', 'u', 'e']) ≠ true ↔
      (Text.trimmed running).map Char.toLower ≠ "true".toList := by
    rw [Ne, decide_eq_true_iff]
    rfl
  have number : (Text.signed? (Text.trimmed code)).getD (-1) = 0 ↔
      Text.IsZero (Text.trimmed code) := by
    rw [← Text.signed?_eq_some_zero_iff]
    cases Text.signed? (Text.trimmed code) <;> simp
  constructor
  · rintro ⟨hstatus, hrunning, hcode, hended⟩
    rw [isZero_ofList_trimmed, isZero_ofList_trimmed] at hended
    exact ⟨word.1 hstatus, flag.1 hrunning, number.1 hcode, hended⟩
  · rintro ⟨hstatus, hrunning, hcode, hended⟩
    refine ⟨word.2 hstatus, flag.2 hrunning, number.2 hcode, ?_⟩
    rwa [isZero_ofList_trimmed, isZero_ofList_trimmed]

theorem jobStatus_ofLine?_eq_completed_iff :
    (ofLine? line).map jobStatus = some .completed ↔ IsSuccessLine line := by
  rw [ofLine?, Text.map_trimmed_split_trimmed (by decide)]
  constructor
  · intro h
    obtain ⟨-, free, whole⟩ := Text.split_eq_iff.1 (rfl : Text.split ',' line.toList = _)
    generalize Text.split ',' line.toList = fields at free whole h
    obtain _ | ⟨status, _ | ⟨running, _ | ⟨code, _ | ⟨started, _ | ⟨finished, rest⟩⟩⟩⟩⟩ := fields
    -- With fewer fields than five there is no state.
    iterate 5 cases h
    have success := jobStatus_eq_completed_iff.1 (Option.some.inj h)
    exact ⟨status, running, code, started, finished, rest, whole, free,
      isSuccess_fields_iff.1 success⟩
  · rintro ⟨status, running, code, started, finished, rest, whole, free, success⟩
    rw [Text.split_eq_iff.2 ⟨List.cons_ne_nil _ _, free, whole⟩]
    exact congrArg some (jobStatus_eq_completed_iff.2 (isSuccess_fields_iff.2 success))

/-- A line that tells a success has five fields, and a zero in its third one. -/
theorem IsSuccessLine.fields (h : IsSuccessLine line) :
    5 ≤ (Text.split ',' line.toList).length ∧
      ∀ code, (Text.split ',' line.toList)[2]? = some code → Text.IsZero (Text.trimmed code) := by
  obtain ⟨status, running, code, started, finished, rest, whole, free, -, -, zero, -⟩ := h
  rw [Text.split_eq_iff.2 ⟨List.cons_ne_nil _ _, free, whole⟩]
  refine ⟨by simp, ?_⟩
  rintro code' ⟨⟩
  exact zero

/-- The object tells a success in its members. -/
structure IsSuccessObject (state : Json) : Prop where
  /-- The engine's word, in any case. -/
  status : ∃ word, state.get? "Status" = some (.string word) ∧ Text.asciiLower word = "exited"
  /-- The main process does not run. -/
  running : state.get? "Running" ≠ some (.bool true)
  /-- The exit code. -/
  exitCode : state.get? "ExitCode" = some (.int 0)
  /-- What was started has ended. -/
  ended : (∃ t, state.get? "StartedAt" = some (.string t) ∧ EngineTime.isZero t = false) →
    ∃ t, state.get? "FinishedAt" = some (.string t) ∧ EngineTime.isZero t = false

/-- A member that is no text is read as no time. -/
theorem isZero_member_eq_false_iff {v : Option Json} :
    EngineTime.isZero ((v.bind Json.string?).getD "") = false ↔
      ∃ t, v = some (.string t) ∧ EngineTime.isZero t = false := by
  have empty : EngineTime.isZero "" = true := by decide
  match v with
  | some (.string t) => simp [Json.string?]
  | none | some .null | some (.bool _) | some (.number _) | some (.array _) | some (.object _) =>
    simp [Json.string?, empty]

/-- A member that is no truth value is read as a flag that is not set. -/
theorem flag_member_ne_true_iff {v : Option Json} :
    (v.bind Json.bool?).getD false ≠ true ↔ v ≠ some (.bool true) := by
  match v with
  | some (.bool b) => simp [Json.bool?]
  | none | some .null | some (.string _) | some (.number _) | some (.array _) | some (.object _) =>
    simp [Json.bool?]

/-- A member that is no machine word is not read as zero. -/
theorem code_member_eq_zero_iff {v : Option Json} :
    (v.bind Json.signed?).getD (-1) = 0 ↔ v = some (.int 0) := by
  match v with
  | some (.number (.integer n)) =>
    have zero : Text.isSigned 0 = true := by decide
    by_cases hn : n = 0
    · simp [Json.signed?, Json.int, hn, zero]
    · by_cases word : Text.isSigned n = true <;> simp [Json.signed?, Json.int, hn, word]
  | some (.number (.real _)) | none | some .null | some (.string _) | some (.bool _)
  | some (.array _) | some (.object _) =>
    simp [Json.signed?, Json.int]

theorem jobStatus_ofJson?_eq_completed_iff :
    (ofJson? state).map jobStatus = some .completed ↔ IsSuccessObject state := by
  have text {v : Option Json} {word : String} :
      v.bind Json.string? = some word ↔ v = some (.string word) := by
    rcases v with _ | _ | _ | _ | _ | _ | _ <;> simp [Json.string?]
  cases told : (state.get? "Status").bind Json.string? with
  | none =>
    rw [ofJson?, told]
    constructor
    · intro h
      cases h
    · rintro ⟨⟨word, member, -⟩, -⟩
      rw [text.2 member] at told
      cases told
  | some word =>
    rw [ofJson?, told]
    refine (Option.some_inj.trans jobStatus_eq_completed_iff).trans ?_
    constructor
    · rintro ⟨status, running, exitCode, ended⟩
      refine ⟨⟨word, text.1 told, status⟩, flag_member_ne_true_iff.1 running,
        code_member_eq_zero_iff.1 exitCode, ?_⟩
      rwa [isZero_member_eq_false_iff, isZero_member_eq_false_iff] at ended
    · rintro ⟨⟨word', member, status⟩, running, exitCode, ended⟩
      obtain rfl : word' = word := Option.some.inj ((text.2 member).symm.trans told)
      refine ⟨status, flag_member_ne_true_iff.2 running, code_member_eq_zero_iff.2 exitCode, ?_⟩
      rwa [isZero_member_eq_false_iff, isZero_member_eq_false_iff]

end ContainerState

/-! ## Answers -/

/-- The full inspection `v` is a list whose first item tells about the container, or it does so
    itself. -/
def TellsAbout (v content : Json) : Prop :=
  (∃ rest, v = .array (content :: rest)) ∨ (v.items? = none ∧ v = content)

theorem inspectedContainer?_eq_some_iff {stdout : String} {content : Json} :
    inspectedContainer? stdout = some content ↔
      ∃ v, Json.ofText? stdout = some v ∧ TellsAbout v content := by
  rw [inspectedContainer?, Option.bind_eq_bind, Option.bind_eq_some_iff]
  refine exists_congr fun v => and_congr_right fun _ => ?_
  match v with
  | .array [] => simp [TellsAbout, Json.items?]
  | .array (item :: rest) => simp [TellsAbout, Json.items?]
  | .null | .bool _ | .number _ | .string _ | .object _ => simp [TellsAbout, Json.items?]

theorem Answer.success?_eq_some_iff {answer : Answer} {reply : Reply} :
    answer.success? = some reply ↔ answer = .ok reply ∧ reply.exitCode = 0 := by
  cases answer with
  | error f => simp [success?]
  | ok reply' =>
    simp only [success?, Option.ite_none_right_eq_some, Option.some.injEq, Except.ok.injEq,
      Reply.isSuccess, beq_iff_eq]
    constructor
    · rintro ⟨success, rfl⟩
      exact ⟨rfl, success⟩
    · rintro ⟨rfl, success⟩
      exact ⟨success, rfl⟩

/-- Only a command that succeeded tells a state. -/
theorem Presence.state?_ofAnswer (answer : Answer) : (ofAnswer answer).state? =
    answer.success?.bind fun reply => ContainerState.ofLine? reply.stdout := by
  cases answer with
  | error f => rfl
  | ok reply =>
    rw [ofAnswer, ofReply, Reply.isNotFound, Answer.success?]
    cases reply.isSuccess with
    | false => split <;> rfl
    | true =>
      simp only [Bool.not_true, Bool.false_and, Bool.false_eq_true, if_false, if_true,
        Option.bind_some]
      cases ContainerState.ofLine? reply.stdout <;> rfl

namespace Runner

variable {σ : Type} {r : Runner} {e : Engine σ} {key : JobKey} {s : σ} {lock : StartLock}

theorem status_run_eq : ((r.status key).run e s lock).value =
    (e (.inspectState (r.resourceName key)) s).1.success?.bind fun reply =>
      (ContainerState.ofLine? reply.stdout).map ContainerState.jobStatus := by
  change (Presence.ofAnswer (e (.inspectState (r.resourceName key)) s).1).state?.map _ = _
  rw [Presence.state?_ofAnswer, Option.map_bind]
  rfl

/-- The status in a report. The output, which is fetched afterwards, has no part in it. -/
theorem details_run_map_status : ((r.details key).run e s lock).value.map (·.status) =
    (e ["inspect", r.resourceName key] s).1.success?.bind fun reply =>
      (inspectedContainer? reply.stdout).bind fun content =>
        (content.get? "State").bind fun state =>
          (ContainerState.ofJson? state).map ContainerState.jobStatus := by
  simp only [details, Dialogue.command_bind, Dialogue.run_ask]
  cases (e ["inspect", r.resourceName key] s).1.success? with
  | none => rfl
  | some reply =>
    simp only [Option.bind_some, Option.bind_eq_bind]
    cases inspectedContainer? reply.stdout with
    | none => rfl
    | some content =>
      simp only [Option.bind_some]
      cases content.get? "State" with
      | none => rfl
      | some state =>
        simp only [Option.bind_some]
        cases ContainerState.ofJson? state with
        | none => rfl
        | some found =>
          rw [Option.bind_some, Option.pure_def, Dialogue.run_bind]
          rfl

theorem status_eq_completed_iff : ((r.status key).run e s lock).value = some .completed ↔
    ∃ reply, (e (.inspectState (r.resourceName key)) s).1 = .ok reply ∧ reply.exitCode = 0 ∧
      ContainerState.IsSuccessLine reply.stdout := by
  simp only [status_run_eq, Option.bind_eq_some_iff, Answer.success?_eq_some_iff, and_assoc,
    ContainerState.jobStatus_ofLine?_eq_completed_iff]

theorem details_eq_completed_iff :
    ((r.details key).run e s lock).value.map (·.status) = some .completed ↔
      ∃ reply v content state, (e ["inspect", r.resourceName key] s).1 = .ok reply ∧
        reply.exitCode = 0 ∧ Json.ofText? reply.stdout = some v ∧ TellsAbout v content ∧
        content.get? "State" = some state ∧ ContainerState.IsSuccessObject state := by
  simp only [details_run_map_status, Option.bind_eq_some_iff, Answer.success?_eq_some_iff,
    and_assoc, inspectedContainer?_eq_some_iff, ContainerState.jobStatus_ofJson?_eq_completed_iff]
  constructor
  · rintro ⟨reply, ok, success, content, ⟨v, read, about⟩, state, member, told⟩
    exact ⟨reply, v, content, state, ok, success, read, about, member, told⟩
  · rintro ⟨reply, v, content, state, ok, success, read, about, member, told⟩
    exact ⟨reply, ok, success, content, ⟨v, read, about⟩, state, member, told⟩

theorem status_ne_canceled : ((r.status key).run e s lock).value ≠ some .canceled := by
  rw [status_run_eq]
  intro h
  obtain ⟨reply, -, h⟩ := Option.bind_eq_some_iff.1 h
  obtain ⟨state, -, h⟩ := Option.map_eq_some_iff.1 h
  exact state.jobStatus_ne_canceled h

theorem details_ne_canceled :
    ((r.details key).run e s lock).value.map (·.status) ≠ some .canceled := by
  rw [details_run_map_status]
  intro h
  obtain ⟨reply, -, h⟩ := Option.bind_eq_some_iff.1 h
  obtain ⟨content, -, h⟩ := Option.bind_eq_some_iff.1 h
  obtain ⟨member, -, h⟩ := Option.bind_eq_some_iff.1 h
  obtain ⟨state, -, h⟩ := Option.map_eq_some_iff.1 h
  exact state.jobStatus_ne_canceled h

/-- A runner reports a success where the engine tells one, and nowhere else. No line without an
    exit code of zero in its third field, and no inspection without a word for the state and an
    exit code of zero, is one, and no answer is reported as a job that was called off. -/
theorem completed_iff (r : Runner) (e : Engine σ) (key : JobKey) (s : σ) (lock : StartLock) :
    let name := r.resourceName key
    let status? := ((r.status key).run e s lock).value
    let reported? := ((r.details key).run e s lock).value.map (·.status)
    (status? = some .completed ↔
        ∃ reply, (e (.inspectState name) s).1 = .ok reply ∧ reply.exitCode = 0 ∧
          ContainerState.IsSuccessLine reply.stdout) ∧
      (reported? = some .completed ↔
        ∃ reply v content state, (e ["inspect", name] s).1 = .ok reply ∧ reply.exitCode = 0 ∧
          Json.ofText? reply.stdout = some v ∧ TellsAbout v content ∧
          content.get? "State" = some state ∧ ContainerState.IsSuccessObject state) ∧
      (∀ reply, (e (.inspectState name) s).1 = .ok reply →
        ((Text.split ',' reply.stdout.toList).length < 5 ∨
          ∃ code, (Text.split ',' reply.stdout.toList)[2]? = some code ∧
            ¬Text.IsZero (Text.trimmed code)) →
        status? ≠ some .completed) ∧
      (∀ reply v content, (e ["inspect", name] s).1 = .ok reply →
        Json.ofText? reply.stdout = some v → TellsAbout v content →
        ((∀ word, (content.get? "State").bind (·.get? "Status") ≠ some (.string word)) ∨
          (content.get? "State").bind (·.get? "ExitCode") ≠ some (.int 0)) →
        reported? ≠ some .completed) ∧
      status? ≠ some .canceled ∧ reported? ≠ some .canceled := by
  refine ⟨status_eq_completed_iff, details_eq_completed_iff, ?_, ?_, status_ne_canceled,
    details_ne_canceled⟩
  · rintro reply ok broken h
    obtain ⟨reply', ok', -, told⟩ := status_eq_completed_iff.1 h
    obtain rfl : reply = reply' := Except.ok.inj (ok.symm.trans ok')
    obtain ⟨long, zero⟩ := told.fields
    obtain short | ⟨code, third, nonzero⟩ := broken
    · exact absurd long (Nat.not_le.2 short)
    · exact nonzero (zero code third)
  · rintro reply v content ok read about broken h
    obtain ⟨reply', v', content', state, ok', -, read', about', member, told⟩ :=
      details_eq_completed_iff.1 h
    obtain rfl : reply = reply' := Except.ok.inj (ok.symm.trans ok')
    obtain rfl : content = content' := Option.some.inj
      ((inspectedContainer?_eq_some_iff.2 ⟨v, read, about⟩).symm.trans
        (inspectedContainer?_eq_some_iff.2 ⟨v', read', about'⟩))
    rw [member, Option.bind_some] at broken
    obtain untold | nonzero := broken
    · obtain ⟨word, hword, -⟩ := told.status
      exact untold word hword
    · exact nonzero told.exitCode

/-- The line of a success, with blanks and capitals in it, and a sign before its zeros. -/
def sampleLine : String := "Exited , FALSE,-00,2024-05-01T10:00:00Z,2024-05-01T10:05:00Z\n"

theorem completed_iff_sampleLine : ContainerState.IsSuccessLine sampleLine ∧
    ((sample.status ⟨"lens", "run-1"⟩).run Script.engine [.ok { stdout := sampleLine }]
      .always).value = some .completed := by
  have told : ContainerState.IsSuccessLine sampleLine := by
    refine ⟨"Exited ".toList, " FALSE".toList, "-00".toList, "2024-05-01T10:00:00Z".toList,
      "2024-05-01T10:05:00Z\n".toList, [], by decide, by decide, by decide, by decide,
      ⟨['-'], by decide, 1, by decide⟩, by decide⟩
  exact ⟨told, (completed_iff sample Script.engine _ _ _).1.2 ⟨_, rfl, rfl, told⟩⟩

/-- The line of a job that has not ended. -/
def sampleUnended : String := "exited,false,0,2024-05-01T10:00:00Z,0001-01-01T00:00:00Z\n"

/-- The beginning of that line. -/
def sampleCut : String := "exited,false,0,2024-05-01T10:00:00Z,0001"

/-- A state object with a text where the running flag should be. -/
def sampleMistyped : Json :=
  .object [("ExitCode", .int 0), ("FinishedAt", .string "2024-05-01T10:05:00Z"),
    ("Running", .string "true"), ("StartedAt", .string "2024-05-01T10:00:00Z"),
    ("Status", .string "exited")]

/-- A line that was cut off within its last field is read with what is left of it, and a
    running flag of another type is not set. -/
theorem completed_of_sampleCut :
    (sampleCut.toList <+: sampleUnended.toList ∧ sampleCut ≠ sampleUnended ∧
      ((sample.status ⟨"lens", "run-1"⟩).run Script.engine [.ok { stdout := sampleUnended }]
        .always).value = some .running ∧
      ((sample.status ⟨"lens", "run-1"⟩).run Script.engine [.ok { stdout := sampleCut }]
        .always).value = some .completed) ∧
    sampleMistyped.get? "Running" = some (.string "true") ∧
      ((sample.details ⟨"lens", "run-1"⟩).run Script.engine
        [.ok { stdout := (Json.object [("State", sampleMistyped)]).render }] .always).value.map
          (·.status) = some .completed := by
  have whole : (Json.object [("State", sampleMistyped)]).IsWhole := by
    rw [sampleMistyped]
    simp [Number.IsWord]
  have free : (Json.object [("State", sampleMistyped)]).IsFree Json.maxDepth := by
    rw [sampleMistyped, Json.maxDepth]
    simp +decide [Assoc.sorted_iff_keys]
  have told : ContainerState.IsSuccessObject sampleMistyped :=
    ⟨⟨"exited", rfl, by decide⟩, fun set => Json.noConfusion (Option.some.inj set), rfl,
      fun _ => ⟨_, rfl, by decide⟩⟩
  refine ⟨⟨by decide, by decide, by decide, by decide⟩, rfl, ?_⟩
  exact details_eq_completed_iff.2
    ⟨_, _, _, _, rfl, rfl, Json.ofText?_render whole free, .inr ⟨rfl, rfl⟩, rfl, told⟩

end Runner

end ContainerJobs
