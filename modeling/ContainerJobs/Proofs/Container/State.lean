import ContainerJobs.Proofs.Engine.InMemory
import ContainerJobs.Proofs.Text.Decimal

/-!
# The line of a state

An engine in memory tells the state of a container in one line of fields with
commas between them. The state is read from it as it is if its texts have no
commas, and no blanks at their ends (`ofLine?_stateLine`).
-/

namespace ContainerJobs

/-- The text is one field of a line of fields with commas between them. -/
def Text.IsField (s : String) : Prop :=
  ',' ∉ s.toList ∧ Text.trim s = s

namespace ContainerState

/-- The texts of the state are fields, and its exit code is a machine word. -/
structure IsPlain (s : ContainerState) : Prop where
  /-- The engine's word for the state. -/
  status : Text.IsField s.status
  /-- The exit code. -/
  exitCode : Text.isSigned s.exitCode = true
  /-- The time of the start. -/
  startedAt : Text.IsField s.startedAt
  /-- The time of the end. -/
  finishedAt : Text.IsField s.finishedAt

/-- No state of a container amounts to that status. -/
theorem jobStatus_ne_canceled (s : ContainerState) : s.jobStatus ≠ .canceled := by
  simp only [jobStatus]
  repeat' split
  all_goals exact fun h => JobStatus.noConfusion h

theorem isPlain_started : started.IsPlain := by
  refine ⟨?_, rfl, ?_, ?_⟩ <;> exact ⟨by decide, by decide⟩

theorem ofLine?_stateLine {s : ContainerState} (h : s.IsPlain) :
    ofLine? (InMemory.stateLine s) = some s := by
  have line : (InMemory.stateLine s).toList = [','].intercalate
      [s.status.toList, (toString s.running).toList, Text.ofInt s.exitCode, s.startedAt.toList,
        s.finishedAt.toList ++ ['\n']] := by
    simp [InMemory.stateLine]
  have fields : Text.split ',' (InMemory.stateLine s).toList =
      [s.status.toList, (toString s.running).toList, Text.ofInt s.exitCode, s.startedAt.toList,
        s.finishedAt.toList ++ ['\n']] := by
    rw [line]
    refine Text.split_intercalate ?_ (List.cons_ne_nil _ _)
    simp only [List.mem_cons, List.not_mem_nil, or_false]
    rintro f (rfl | rfl | rfl | rfl | rfl)
    · exact h.status.1
    · cases s.running <;> decide
    · exact Label.not_mem_of_isLegal (fun _ => Text.isLegal_of_mem_ofInt) rfl
    · exact h.startedAt.1
    · simpa using h.finishedAt.1
  have code : Text.trimmed (Text.ofInt s.exitCode) = Text.ofInt s.exitCode :=
    Label.trimmed_of_isLegal fun _ => Text.isLegal_of_mem_ofInt
  have running : (decide ((Text.trimmed (toString s.running).toList).map Char.toLower =
      ['t', 'r', 'u', 'e'])) = s.running := by
    cases s.running <;> decide
  rw [ofLine?, Text.map_trimmed_split_trimmed (by decide), fields]
  simp only [List.map_cons, List.map_nil, code, running,
    Text.trimmed_concat (show Text.isBlank '\n' = true by decide), ← Text.trim.eq_1,
    Text.signed?_ofInt h.exitCode, Option.getD_some, h.status.2, h.startedAt.2, h.finishedAt.2]

/-- The line of a state has the fields of a state, whatever its texts are. -/
theorem isSome_ofLine?_stateLine (s : ContainerState) :
    (ofLine? (InMemory.stateLine s)).isSome = true := by
  have commas : 4 ≤ (InMemory.stateLine s).toList.count ',' := by
    simp only [InMemory.stateLine, String.toList_append, List.count_append,
      show ",".toList.count ',' = 1 from rfl]
    omega
  rw [ofLine?, Text.map_trimmed_split_trimmed (by decide)]
  have fields : 5 ≤ ((Text.split ',' (InMemory.stateLine s).toList).map Text.trimmed).length := by
    rw [List.length_map, Text.length_split]
    omega
  generalize (Text.split ',' (InMemory.stateLine s).toList).map Text.trimmed = l at fields
  match l, fields with
  | _ :: _ :: _ :: _ :: _ :: _, _ => rfl

end ContainerState

/-- The state of a container can be read unless it is garbled. -/
theorem Container.isSome_state?_presence (c : Container) :
    c.presence.state?.isSome = !c.garbled := by
  rw [presence, InMemory.statusLine]
  cases c.garbled with
  | true =>
    have unreadable : ContainerState.ofLine? "<no value>\n" = none := by decide
    simp only [if_true, unreadable]
    rfl
  | false =>
    obtain ⟨state, read⟩ := Option.isSome_iff_exists.1 c.state.isSome_ofLine?_stateLine
    simp only [Bool.false_eq_true, if_false, read]
    rfl

/-- An inspection finds a plain state as it is. -/
theorem Container.presence_eq_found {c : Container} (h : c.state.IsPlain)
    (readable : c.garbled = false) : c.presence = .found c.state := by
  rw [Container.presence, InMemory.statusLine, readable, if_neg Bool.false_ne_true,
    ContainerState.ofLine?_stateLine h]

end ContainerJobs
