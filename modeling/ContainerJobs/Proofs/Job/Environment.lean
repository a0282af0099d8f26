import ContainerJobs.Job.Report
import ContainerJobs.Proofs.Launch.Variables

/-!
# The environment in a report

The environment section of a report has the variables of a container, each as its last
entry has it, and hides the values of the sensitive ones (`Report.mem_environment_iff`).
Which variables of the host are handed to a job and which values are hidden is decided by
two lists of patterns, and the first lies within the second, in any case of the letters
(`isSensitive_of_isForwardedCredential`). So no report shows the value of a credential
that a plan has from its host, whatever else the plan has.
-/

namespace ContainerJobs

/-! ## Names in any case -/

theorem Text.toUpper_eq_equals_iff {c : Char} : c.toUpper = '=' ↔ c = '=' := by
  delta Char.toUpper
  split
  · next lower =>
    have low : 97 ≤ c.val.toNat ∧ c.val.toNat ≤ 122 := lower
    have offset : ('A'.val - 'a'.val).toNat = 4294967264 := by decide
    have equals : '='.val.toNat = 61 := rfl
    have notEquals : c ≠ '=' := by
      rintro rfl
      omega
    refine iff_of_false (fun same => ?_) notEquals
    -- The upper letters come after the equals sign, too.
    have code := congrArg (fun c : Char => c.val.toNat) same
    simp only [UInt32.toNat_add] at code
    omega
  · rfl

theorem Text.equals_mem_asciiUpper_iff {s : String} :
    '=' ∈ (asciiUpper s).toList ↔ '=' ∈ s.toList := by
  simp [asciiUpper, toUpper_eq_equals_iff]

/-- A credential that is handed on is one in upper case, too. -/
theorem isForwardedCredential_asciiUpper {name : String} (h : isForwardedCredential name = true) :
    isForwardedCredential (Text.asciiUpper name) = true := by
  have before {part : String} (upper : part.toList.map Char.toUpper = part.toList)
      (h : part.toList <+: name.toList) : part.toList <+: (Text.asciiUpper name).toList := by
    simpa [Text.asciiUpper, upper] using h.map Char.toUpper
  have after {part : String} (upper : part.toList.map Char.toUpper = part.toList)
      (h : part.toList <:+ name.toList) : part.toList <:+ (Text.asciiUpper name).toList := by
    simpa [Text.asciiUpper, upper] using h.map Char.toUpper
  rw [isForwardedCredential_iff] at h ⊢
  exact h.imp (after (by decide)) (.imp (before (by decide)) (.imp (before (by decide))
    (before (by decide))))

/-- What is handed on as a credential is hidden, in whatever case its name is reported. -/
theorem isSensitive_of_isForwardedCredential {name reported : String}
    (h : isForwardedCredential name = true)
    (same : Text.asciiUpper reported = Text.asciiUpper name) : isSensitive reported = true := by
  rw [isSensitive, same, isForwardedCredential_asciiUpper h, Bool.or_true]

namespace Report

/-! ## The section -/

/-- The string entries of an environment; there are none unless it is a list. -/
def envStrings (config : Json) : List String :=
  (((config.get? "Env").bind Json.items?).getD []).filterMap Json.string?

/-- A value as a report shows it. -/
def shownValue (key value : String) : Json :=
  .string (if isSensitive key then redacted else value)

variable {key value entry : String} {shown : Json} {l : List String}

theorem label?_eq_some_iff : InMemory.label? entry = some (key, value) ↔
    entry = key ++ "=" ++ value ∧ '=' ∉ key.toList := by
  constructor
  · intro h
    obtain ⟨⟨k, v⟩, cut, heq⟩ := Option.map_eq_some_iff.1 h
    obtain ⟨rfl, rfl⟩ := Prod.mk.inj heq
    obtain ⟨whole, unsplit⟩ := Text.eq_of_cut? cut
    rw [← String.toList_inj]
    exact ⟨by simpa using whole, by simpa using unsplit⟩
  · rintro ⟨rfl, unsplit⟩
    exact InMemory.label?_append value unsplit

theorem envEntry?_eq (entry : String) : envEntry? entry =
    (InMemory.label? entry).map fun (key, value) => (key, shownValue key value) := by
  rw [InMemory.label?, envEntry?, Option.map_map]
  rfl

/-- The first entry of a variable among some is read as the first pair. -/
theorem lookup_filterMap_label? : (l.filterMap InMemory.label?).lookup key = some value ↔
    ∃ before after, l = before ++ (key ++ "=" ++ value) :: after ∧ '=' ∉ key.toList ∧
      ∀ other, key ++ "=" ++ other ∉ before := by
  rw [List.lookup_eq_some_iff]
  constructor
  · rintro ⟨first, rest, split, unset⟩
    obtain ⟨before, _, rfl, rfl, tail⟩ := List.filterMap_eq_append_iff.1 split
    obtain ⟨skipped, entry, after, rfl, unread, read, -⟩ := List.filterMap_eq_cons_iff.1 tail
    obtain ⟨rfl, unsplit⟩ := label?_eq_some_iff.1 read
    refine ⟨before ++ skipped, after, (List.append_assoc ..).symm, unsplit, fun other mem => ?_⟩
    have pair := InMemory.label?_append other unsplit
    rcases List.mem_append.1 mem with mem | mem
    · exact absurd rfl (bne_iff_ne.1 (unset _ (List.mem_filterMap.2 ⟨_, mem, pair⟩)))
    · cases (unread _ mem).symm.trans pair
  · rintro ⟨before, after, rfl, unsplit, unset⟩
    refine ⟨before.filterMap InMemory.label?, after.filterMap InMemory.label?, ?_, fun p hp => ?_⟩
    · rw [List.filterMap_append, List.filterMap_cons_some (InMemory.label?_append value unsplit)]
    · obtain ⟨entry, mem, read⟩ := List.mem_filterMap.1 hp
      rw [bne_iff_ne]
      rintro rfl
      exact unset p.2 ((label?_eq_some_iff.1 read).1 ▸ mem)

theorem get?_environment (config : Json) (key : String) :
    Assoc.get? (environment config) key =
      (((envStrings config).reverse.filterMap InMemory.label?).lookup key).map
        (shownValue key) := by
  have entries : environment config =
      Assoc.ofPairs (((envStrings config).filterMap InMemory.label?).map
        fun (key, value) => (key, shownValue key value)) := by
    rw [List.map_filterMap]
    exact congrArg Assoc.ofPairs (List.filterMap_congr fun entry _ => envEntry?_eq entry)
  rw [entries, Assoc.get?_ofPairs, ← List.map_reverse, Assoc.lookup_map_value,
    List.filterMap_reverse]

/-- A report shows no variable twice. -/
theorem sorted_environment (config : Json) : Assoc.Sorted (environment config) :=
  Assoc.sorted_ofPairs _

/-- A report shows each variable as its last entry has it, and nothing else. -/
theorem mem_environment_iff (config : Json) : (key, shown) ∈ environment config ↔
    ∃ before value after, envStrings config = before ++ (key ++ "=" ++ value) :: after ∧
      '=' ∉ key.toList ∧ (∀ other, key ++ "=" ++ other ∉ after) ∧
      shown = shownValue key value := by
  rw [← Assoc.lookup_eq_some_iff_mem (sorted_environment config).nodup_keys, ← Assoc.get?]
  simp only [get?_environment, Option.map_eq_some_iff, lookup_filterMap_label?]
  constructor
  · rintro ⟨value, ⟨after, before, split, unsplit, last⟩, rfl⟩
    refine ⟨before.reverse, value, after.reverse, ?_, unsplit, by simpa using last, rfl⟩
    simpa using congrArg List.reverse split
  · rintro ⟨before, value, after, split, unsplit, last, rfl⟩
    refine ⟨value, ⟨after.reverse, before.reverse, ?_, unsplit, by simpa using last⟩, rfl⟩
    simp [split]

/-- The variables that a report shows are those that have an entry. -/
theorem mem_keys_environment_iff (config : Json) : key ∈ (environment config).map (·.1) ↔
    ∃ value, key ++ "=" ++ value ∈ envStrings config ∧ '=' ∉ key.toList := by
  constructor
  · intro h
    obtain ⟨⟨key, shown⟩, mem, rfl⟩ := List.mem_map.1 h
    obtain ⟨before, value, after, split, unsplit, -⟩ := (mem_environment_iff config).1 mem
    exact ⟨value, by simp [split], unsplit⟩
  · rintro ⟨value, mem, unsplit⟩
    have read : (key, value) ∈ (envStrings config).reverse.filterMap InMemory.label? :=
      List.mem_filterMap.2 ⟨_, List.mem_reverse.2 mem, InMemory.label?_append value unsplit⟩
    obtain ⟨last, found⟩ := Assoc.exists_lookup_of_mem (List.mem_map_of_mem (f := Prod.fst) read)
    have set : Assoc.get? (environment config) key = some (shownValue key last) := by
      rw [get?_environment, found, Option.map_some]
    exact List.mem_map_of_mem (f := Prod.fst) (Assoc.mem_of_lookup_eq_some set)

/-- No report shows the value of a sensitive variable. -/
theorem get?_environment_of_isSensitive {config : Json} (sensitive : isSensitive key = true)
    (h : key ∈ (environment config).map (·.1)) :
    Assoc.get? (environment config) key = some (.string redacted) := by
  obtain ⟨⟨key, shown⟩, mem, rfl⟩ := List.mem_map.1 h
  obtain ⟨before, value, after, -, -, -, rfl⟩ := (mem_environment_iff config).1 mem
  have found := (Assoc.lookup_eq_some_iff_mem (sorted_environment config).nodup_keys).2 mem
  rw [shownValue, if_pos sensitive] at found
  exact found

end Report

/-! ## The variables of a plan -/

namespace LaunchPlan

/-- The environment of a plan's container in an inspection, with each name in some case of
    its letters. -/
def reported (p : LaunchPlan) (recase : String → String) : Json :=
  .object [("Env", .array (p.env.map fun (name, value) => .string (recase name ++ "=" ++ value)))]

theorem envStrings_reported (p : LaunchPlan) (recase : String → String) :
    Report.envStrings (p.reported recase) =
      p.env.map fun (name, value) => recase name ++ "=" ++ value := by
  change (p.env.map fun (name, value) => Json.string (recase name ++ "=" ++ value)).filterMap
    Json.string? = _
  rw [List.filterMap_map]
  exact congrFun List.filterMap_eq_map' _

/-- A credential of the host is among the variables that a report shows. -/
theorem mem_keys_environment_reported {c : Config} {i : LaunchInput} {p : LaunchPlan}
    (built : build c i = .ok p) {recase : String → String} {name : String}
    (same : Text.asciiUpper (recase name) = Text.asciiUpper name)
    (mem : name ∈ i.host.entries.map (·.1)) (unsplit : '=' ∉ name.toList)
    (credential : isForwardedCredential name = true) :
    recase name ∈ (Report.environment (p.reported recase)).map (·.1) := by
  obtain rfl := eq_of_build_eq_ok built
  obtain ⟨value, set⟩ := Assoc.exists_lookup_of_mem mem
  have given := Assoc.mem_of_lookup_eq_some
    (LaunchInput.lookup_env_of_credential (c := c) credential set)
  refine (Report.mem_keys_environment_iff _).2 ⟨value, ?_, ?_⟩
  · rw [envStrings_reported]
    exact List.mem_map.2 ⟨(name, value), given, rfl⟩
  · rwa [← Text.equals_mem_asciiUpper_iff, same, Text.equals_mem_asciiUpper_iff]

end LaunchPlan

namespace Report

/-- What the environment section of a report shows, and what it hides. It has the
    variables that have an entry, each once and as its last entry has it, but with a mark in
    place of the value if the variable is sensitive. A credential that a plan has from its
    host is always shown with the mark, in whatever case its name is reported. -/
theorem environment_hides_credentials :
    (∀ i : Inspection, ((JobDetails.ofInspection i).section? "environment").bind Section.data =
      some (environment (part i.content "Config"))) ∧
    (∀ config : Json, Assoc.Sorted (environment config) ∧
      (∀ key, key ∈ (environment config).map (·.1) ↔
        ∃ value, key ++ "=" ++ value ∈ envStrings config ∧ '=' ∉ key.toList) ∧
      ∀ key shown, (key, shown) ∈ environment config ↔
        ∃ before value after, envStrings config = before ++ (key ++ "=" ++ value) :: after ∧
          '=' ∉ key.toList ∧ (∀ other, key ++ "=" ++ other ∉ after) ∧
          shown = .string (if isSensitive key then redacted else value)) ∧
    ∀ (c : Config) (i : LaunchInput) (p : LaunchPlan), LaunchPlan.build c i = .ok p →
      ∀ recase : String → String, (∀ name, Text.asciiUpper (recase name) = Text.asciiUpper name) →
        ∀ name ∈ i.host.entries.map (·.1), '=' ∉ name.toList → isForwardedCredential name = true →
          Assoc.get? (environment (p.reported recase)) (recase name) =
            some (.string redacted) := by
  refine ⟨fun i => rfl, fun config => ⟨sorted_environment config, fun key =>
    mem_keys_environment_iff config, fun key shown => mem_environment_iff config⟩, ?_⟩
  intro c i p built recase same name mem unsplit credential
  have sensitive := isSensitive_of_isForwardedCredential credential (same name)
  exact get?_environment_of_isSensitive sensitive
    (LaunchPlan.mem_keys_environment_reported built (same name) mem unsplit credential)

/-- The names of variables, of which one is told in lower case. -/
def sampleRecase (name : String) : String :=
  if name = "OTEL_SHOP_API_KEY" then "otel_shop_api_key" else name

theorem environment_hides_credentials_sampleInput :
    ∃ p, LaunchPlan.build Runner.sample.config LaunchPlan.sampleInput = .ok p ∧
      (∀ name, Text.asciiUpper (sampleRecase name) = Text.asciiUpper name) ∧
      Assoc.get? (environment (p.reported sampleRecase)) "otel_shop_api_key" =
        some (.string "********") := by
  have built := LaunchPlan.build_eq_ok Runner.sample.config (i := LaunchPlan.sampleInput)
    (by decide)
  have same (name : String) : Text.asciiUpper (sampleRecase name) = Text.asciiUpper name := by
    rw [sampleRecase]
    split
    · next h =>
      subst h
      decide
    · rfl
  exact ⟨_, built, same, environment_hides_credentials.2.2 _ _ _ built sampleRecase same
    "OTEL_SHOP_API_KEY" (by decide) (by decide) (by decide)⟩

example : environment (.object [("Env", .array [.string "LANG=C", .int 7, .string "LANG=A=B",
    .string "plain", .string "openai_api_key=sk-1"])]) =
    [("LANG", .string "A=B"), ("openai_api_key", .string redacted)] := by rfl

end Report

end ContainerJobs
