import ContainerJobs.Proofs.Launch.Arguments

/-!
# The variables of a plan

A plan has variables of its own, whose names are among a few fixed ones
(`LaunchInput.ownNames`), then the credentials of the host, then the trace context. No
credential and no entry of the trace context has a name of the first kind, but an entry
of the trace context can have the name of a credential. That is the only way for a
variable to be set twice (`LaunchPlan.variables_of_build`), and then a look at the plan and
the job itself find different values: the first one counts for the plan, and for an
engine the last one.

All that a plan takes from the host are credentials and the address of the store
(`LaunchPlan.build_of_host`).
-/

namespace ContainerJobs

/-- Credentials go by their names: these end in `API_KEY`, or begin with the name of a
    cloud. -/
theorem isForwardedCredential_iff {name : String} : isForwardedCredential name = true ↔
    "API_KEY".toList <:+ name.toList ∨ "AWS_".toList <+: name.toList ∨
      "GCP_".toList <+: name.toList ∨ "AZURE_".toList <+: name.toList := by
  simp only [isForwardedCredential, Bool.or_eq_true, List.isSuffixOf_iff_suffix,
    List.isPrefixOf_iff_prefix, or_assoc]

namespace LaunchInput

variable (c : Config) (i : LaunchInput) {name value : String}

/-! ## Where the variables come from -/

/-- The variables of a plan's own. -/
def ownEnv : List (String × String) :=
  i.fixedEnv ++ mountEnv c ++ i.storeEnv

/-- The credentials of the host. -/
def credentials : List (String × String) :=
  i.host.entries.filter fun v => isForwardedCredential v.1

/-- The names that a plan's own variables can have. -/
def ownNames : List String :=
  ["PROJECT_ID", "TRAJECTORY_ID", "JOB_FUNC", "JOB_DESCRIPTOR", "DATA_DIR", "SOURCE_DIR",
    "NLTK_DATA", "INDEX_STORE_DIR", "REPO_DIR", "REPO_PATH", "INSTANCE_PATH",
    "SKIP_CONDA_ACTIVATE", "VIRTUAL_ENV", "UV_NO_VENV", "COMPONENTS_PATH", "PYTHONPATH",
    "REDIS_URL"]

theorem sublist_ownNames : ((i.ownEnv c).map (·.1)).Sublist ownNames := by
  have mounts : ((mountEnv c).map (·.1)).Sublist ["COMPONENTS_PATH", "PYTHONPATH"] := by
    rw [mountEnv]
    cases c.componentsDir <;> cases c.sourceDir <;> simp
  have store : (i.storeEnv.map (·.1)).Sublist ["REDIS_URL"] := by
    rw [storeEnv]
    cases i.host.get? "REDIS_URL" <;> simp
  rw [ownEnv, List.map_append, List.map_append]
  exact ((List.Sublist.refl (i.fixedEnv.map (·.1))).append mounts).append store

theorem nodup_ownEnv : ((i.ownEnv c).map (·.1)).Nodup :=
  (i.sublist_ownNames c).nodup (by decide)

variable {c i}

theorem mem_ownNames (h : name ∈ (i.ownEnv c).map (·.1)) : name ∈ ownNames :=
  (i.sublist_ownNames c).subset h

theorem isForwardedCredential_of_mem_ownNames (h : name ∈ ownNames) :
    isForwardedCredential name = false := by
  revert name
  decide

theorem not_isTrace_of_mem_ownNames (h : name ∈ ownNames) :
    ¬ "OTEL_".toList <+: name.toList := by
  revert name
  decide

theorem isTrace_of_mem_traceEnv (h : name ∈ i.traceEnv.map (·.1)) :
    "OTEL_".toList <+: name.toList := by
  obtain ⟨_, mem, rfl⟩ := List.mem_map.1 h
  obtain ⟨p, -, rfl⟩ := List.mem_map.1 mem
  exact ⟨p.1.toList, by simp⟩

theorem mem_credentials_iff : name ∈ i.credentials.map (·.1) ↔
    isForwardedCredential name = true ∧ name ∈ i.host.entries.map (·.1) := by
  simp only [credentials, List.mem_map, List.mem_filter]
  constructor
  · rintro ⟨v, ⟨mem, credential⟩, rfl⟩
    exact ⟨credential, v, mem, rfl⟩
  · rintro ⟨credential, v, mem, rfl⟩
    exact ⟨v, ⟨mem, credential⟩, rfl⟩

variable (i) in
theorem nodup_credentials : (i.credentials.map (·.1)).Nodup :=
  i.host.sorted.nodup_keys.sublist (List.filter_sublist.map _)

theorem nodup_traceEnv (trace : Assoc.Sorted i.trace) : (i.traceEnv.map (·.1)).Nodup := by
  have names : i.traceEnv.map (·.1) = (i.trace.map (·.1)).map ("OTEL_" ++ ·) := by
    simp [traceEnv]
  rw [names]
  refine trace.nodup_keys.map fun key key' same => ?_
  rw [← String.toList_inj] at same ⊢
  simpa using same

/-- The check that no variable is set already never keeps a credential out. -/
theorem env_eq : i.env c = i.ownEnv c ++ (i.credentials ++ i.traceEnv) := by
  have unset : i.credentialEnv (i.ownEnv c) = i.credentials := by
    refine List.filter_congr fun v _ => ?_
    change (isForwardedCredential v.1 && !(i.ownEnv c).any (·.1 == v.1)) =
      isForwardedCredential v.1
    cases credential : isForwardedCredential v.1 with
    | false => rfl
    | true =>
      rw [Bool.true_and, Bool.not_eq_true', List.any_eq_false]
      intro w mem same
      have own := isForwardedCredential_of_mem_ownNames (mem_ownNames (List.mem_map_of_mem mem))
      rw [beq_iff_eq.1 same, credential] at own
      cases own
  rw [env, ← ownEnv, unset, List.append_assoc]

theorem names_env : (i.env c).map (·.1) = (i.ownEnv c).map (·.1) ++
    (i.credentials.map (·.1) ++ i.traceEnv.map (·.1)) := by
  rw [env_eq, List.map_append, List.map_append]

/-! ## Variables that are set twice -/

variable (i) in
/-- The variable is a credential of the host, and the trace context has it too. -/
def IsSetTwice (name : String) : Prop :=
  isForwardedCredential name = true ∧ name ∈ i.host.entries.map (·.1) ∧
    name ∈ i.traceEnv.map (·.1)

theorem isSetTwice_iff : i.IsSetTwice name ↔
    name ∈ i.credentials.map (·.1) ∧ name ∈ i.traceEnv.map (·.1) := by
  rw [IsSetTwice, mem_credentials_iff, and_assoc]

/-- What is handed on has no name of a plan's own. -/
theorem not_handedOn_of_mem_ownEnv (h : name ∈ (i.ownEnv c).map (·.1)) :
    name ∉ i.credentials.map (·.1) ∧ name ∉ i.traceEnv.map (·.1) := by
  have own := mem_ownNames h
  refine ⟨fun mem => ?_, fun mem => ?_⟩
  · have credential := (mem_credentials_iff.1 mem).1
    rw [isForwardedCredential_of_mem_ownNames own] at credential
    cases credential
  · exact not_isTrace_of_mem_ownNames own (isTrace_of_mem_traceEnv mem)

theorem count_names_env (trace : Assoc.Sorted i.trace) (name : String) :
    ((i.env c).map (·.1)).count name ≤ 2 ∧
      (((i.env c).map (·.1)).count name = 2 ↔ i.IsSetTwice name) := by
  have own := List.nodup_iff_count_le_one.1 (i.nodup_ownEnv c) name
  have credential := List.nodup_iff_count_le_one.1 i.nodup_credentials name
  have traced := List.nodup_iff_count_le_one.1 (nodup_traceEnv trace) name
  rw [names_env, List.count_append, List.count_append, isSetTwice_iff, ← List.one_le_count_iff,
    ← List.one_le_count_iff]
  by_cases mem : name ∈ (i.ownEnv c).map (·.1)
  · obtain ⟨noCredential, untraced⟩ := not_handedOn_of_mem_ownEnv mem
    rw [List.count_eq_zero.2 noCredential, List.count_eq_zero.2 untraced]
    omega
  · rw [List.count_eq_zero.2 mem]
    omega

theorem nodup_names_env_iff (trace : Assoc.Sorted i.trace) :
    ((i.env c).map (·.1)).Nodup ↔ ∀ name, ¬ i.IsSetTwice name := by
  rw [List.nodup_iff_count_le_one]
  refine forall_congr' fun name => ?_
  obtain ⟨atMost, twice⟩ := count_names_env (c := c) trace name
  rw [← twice]
  omega

/-- Neither the host nor the trace context changes a variable of a plan's own. -/
theorem mem_env_iff (h : (name, value) ∈ i.ownEnv c) {v : String} :
    (name, v) ∈ i.env c ↔ v = value := by
  have own : name ∈ (i.ownEnv c).map (·.1) := List.mem_map_of_mem (f := Prod.fst) h
  obtain ⟨noCredential, untraced⟩ := not_handedOn_of_mem_ownEnv own
  rw [env_eq, List.mem_append, List.mem_append]
  constructor
  · rintro (mem | mem | mem)
    · have found := (Assoc.lookup_eq_some_iff_mem (i.nodup_ownEnv c)).2 mem
      rw [(Assoc.lookup_eq_some_iff_mem (i.nodup_ownEnv c)).2 h] at found
      exact (Option.some.inj found).symm
    · exact absurd (List.mem_map_of_mem (f := Prod.fst) mem) noCredential
    · exact absurd (List.mem_map_of_mem (f := Prod.fst) mem) untraced
  · rintro rfl
    exact .inl h

/-! ## The first value and the last -/

theorem lookup_env (name : String) : (i.env c).lookup name =
    ((i.ownEnv c).lookup name).or ((i.credentials.lookup name).or (i.traceEnv.lookup name)) := by
  rw [env_eq, List.lookup_append, List.lookup_append]

/-- Of two values of a variable the last one is that of the trace context. -/
theorem lookup_reverse_env (trace : Assoc.Sorted i.trace) (name : String) :
    (i.env c).reverse.lookup name = (i.traceEnv.lookup name).or ((i.env c).lookup name) := by
  rw [lookup_env, env_eq, List.reverse_append, List.reverse_append, List.lookup_append,
    List.lookup_append, Assoc.lookup_reverse (nodup_traceEnv trace),
    Assoc.lookup_reverse i.nodup_credentials, Assoc.lookup_reverse (i.nodup_ownEnv c)]
  cases i.traceEnv.lookup name with
  | some v => rfl
  | none =>
    -- What is left is two lists without a name in common, so their order is of no account.
    by_cases own : name ∈ (i.ownEnv c).map (·.1)
    · rw [Assoc.lookup_eq_none_iff_not_mem.2 (not_handedOn_of_mem_ownEnv own).1]
      simp
    · rw [Assoc.lookup_eq_none_iff_not_mem.2 own]
      simp

theorem lookup_env_of_mem_ownEnv (h : (name, value) ∈ i.ownEnv c) :
    (i.env c).lookup name = some value := by
  rw [lookup_env, (Assoc.lookup_eq_some_iff_mem (i.nodup_ownEnv c)).2 h, Option.some_or]

theorem lookup_env_of_credential (credential : isForwardedCredential name = true)
    (h : Assoc.get? i.host.entries name = some value) : (i.env c).lookup name = some value := by
  have mem : (name, value) ∈ i.credentials :=
    List.mem_filter.2 ⟨(Assoc.lookup_eq_some_iff_mem i.host.sorted.nodup_keys).1 h, credential⟩
  have notOwn : name ∉ (i.ownEnv c).map (·.1) := fun own =>
    (not_handedOn_of_mem_ownEnv own).1 (List.mem_map_of_mem mem)
  rw [lookup_env, Assoc.lookup_eq_none_iff_not_mem.2 notOwn,
    (Assoc.lookup_eq_some_iff_mem i.nodup_credentials).2 mem]
  rfl

theorem lookup_env_of_mem_traceEnv (traced : name ∈ i.traceEnv.map (·.1))
    (once : ¬ i.IsSetTwice name) : (i.env c).lookup name = i.traceEnv.lookup name := by
  have noCredential : name ∉ i.credentials.map (·.1) := fun h =>
    once (isSetTwice_iff.2 ⟨h, traced⟩)
  have notOwn : name ∉ (i.ownEnv c).map (·.1) := fun own =>
    (not_handedOn_of_mem_ownEnv own).2 traced
  rw [lookup_env, Assoc.lookup_eq_none_iff_not_mem.2 notOwn,
    Assoc.lookup_eq_none_iff_not_mem.2 noCredential]
  rfl

/-- The first value is the last one too unless a variable is set twice, to different
    values. -/
theorem lookup_env_eq_lookup_reverse_iff (trace : Assoc.Sorted i.trace) :
    (∀ name, (i.env c).lookup name = (i.env c).reverse.lookup name) ↔
      ∀ name, i.IsSetTwice name →
        Assoc.get? i.host.entries name = i.traceEnv.lookup name := by
  refine forall_congr' fun name => ?_
  rw [lookup_reverse_env trace]
  cases traced : i.traceEnv.lookup name with
  | none =>
    have once : ¬ i.IsSetTwice name := fun twice =>
      Assoc.lookup_eq_none_iff_not_mem.1 traced twice.2.2
    simp [once]
  | some v =>
    have mem : name ∈ i.traceEnv.map (·.1) :=
      List.mem_map_of_mem (f := Prod.fst) (Assoc.mem_of_lookup_eq_some traced)
    rw [Option.some_or]
    by_cases twice : i.IsSetTwice name
    · -- The first value is that of the host, the last one that of the trace context.
      obtain ⟨value, found⟩ := Assoc.exists_lookup_of_mem twice.2.1
      rw [lookup_env_of_credential twice.1 found, Assoc.get?, found]
      simp [twice]
    · rw [lookup_env_of_mem_traceEnv mem twice, traced]
      simp [twice]

/-! ## What depends on the host -/

/-- Hosts that agree on the address of the store and on all credentials give the same
    variables. -/
theorem env_of_host_agree {host : Environment}
    (agree : ∀ name, name = "REDIS_URL" ∨ isForwardedCredential name = true →
      Assoc.get? host.entries name = Assoc.get? i.host.entries name) :
    { i with host }.env c = i.env c := by
  have store : { i with host }.storeEnv = i.storeEnv := by
    simp only [storeEnv, Environment.get?, agree "REDIS_URL" (.inl rfl)]
  have credentials : { i with host }.credentials = i.credentials :=
    Assoc.filter_eq_filter host.sorted i.host.sorted fun name h => agree name (.inr h)
  rw [env_eq, env_eq, credentials, ownEnv, store]
  rfl

theorem mem_ownEnv_of_store {url : String}
    (h : Assoc.get? i.host.entries "REDIS_URL" = some url) (filled : Text.isBlankText url = false) :
    ("REDIS_URL", containerUrl url) ∈ i.ownEnv c := by
  have found : i.host.get? "REDIS_URL" = some url := by
    simp [Environment.get?, h, filled]
  exact List.mem_append_right _ (by simp [storeEnv, found])

end LaunchInput

namespace LaunchPlan

variable {c : Config} {i : LaunchInput} {p : LaunchPlan} {name : String}

/-! ## What a job is given -/

/-- The words that stand for the variables in the command of a plan. -/
def words (p : LaunchPlan) : List String :=
  p.env.map fun (name, value) => name ++ "=" ++ value

/-- The value that a variable has in the job. A word is cut at its first equals sign, and
    of two words for one variable the last one counts. -/
def jobValue? (p : LaunchPlan) (name : String) : Option String :=
  Assoc.get? (Assoc.ofPairs (p.words.filterMap InMemory.label?)) name

/-- No name of a variable has an equals sign in it. -/
def IsReadable (p : LaunchPlan) : Prop :=
  ∀ v ∈ p.env, '=' ∉ v.1.toList

theorem IsReadable.jobValue?_eq (h : p.IsReadable) (name : String) :
    p.jobValue? name = p.env.reverse.lookup name := by
  rw [jobValue?, words, InMemory.filterMap_label? h, Assoc.get?_ofPairs]

theorem jobValue?_eq_none (h : '=' ∈ name.toList) : p.jobValue? name = none := by
  rw [jobValue?, Assoc.get?, Assoc.lookup_eq_none_iff_not_mem, List.mem_map]
  rintro ⟨v, mem, rfl⟩
  obtain ⟨word, -, read⟩ := List.mem_filterMap.1 (Assoc.mem_of_mem_ofPairs mem)
  exact InMemory.equals_not_mem_of_label? read h

/-- A plan whose values are those of the job has no name that would be cut. -/
theorem isReadable_of_envValue?_eq (h : ∀ name, p.envValue? name = p.jobValue? name) :
    p.IsReadable := by
  intro v mem equals
  have unset := (h v.1).trans (jobValue?_eq_none equals)
  exact Assoc.lookup_eq_none_iff_not_mem.1 unset (List.mem_map_of_mem mem)

/-- Which variables of a plan are set twice, and what that means. A variable is set at most
    twice, and twice exactly if it is a credential of the host that the trace context has
    too. What a look at the plan finds is what the job gets, exactly if such credentials
    have the same value in both places, and no name is cut at an equals sign. The plan's
    own variables are never set by anything else. Any other variable has in the job the
    value that the trace context has for it, if there is one. -/
theorem variables_of_build (built : build c i = .ok p) (trace : Assoc.Sorted i.trace) :
    (∀ name, (p.env.map (·.1)).count name ≤ 2 ∧
        ((p.env.map (·.1)).count name = 2 ↔ i.IsSetTwice name)) ∧
      ((p.env.map (·.1)).Nodup ↔ ∀ name, ¬ i.IsSetTwice name) ∧
      ((∀ name, p.envValue? name = p.jobValue? name) ↔
        p.IsReadable ∧ ∀ name, i.IsSetTwice name →
          Assoc.get? i.host.entries name = i.traceEnv.lookup name) ∧
      (∀ name value, (name, value) ∈ i.ownEnv c →
        (∀ v, (name, v) ∈ p.env ↔ v = value) ∧ p.envValue? name = some value ∧
          (p.IsReadable → p.jobValue? name = some value)) ∧
      (p.IsReadable → ∀ name,
        p.jobValue? name = (i.traceEnv.lookup name).or (p.envValue? name)) := by
  obtain rfl := eq_of_build_eq_ok built
  have job (readable : (ofInput c i).IsReadable) (name : String) :
      (ofInput c i).jobValue? name =
        (i.traceEnv.lookup name).or ((ofInput c i).envValue? name) :=
    (readable.jobValue?_eq name).trans (LaunchInput.lookup_reverse_env trace name)
  refine ⟨LaunchInput.count_names_env trace, LaunchInput.nodup_names_env_iff trace, ?_, ?_, job⟩
  · rw [← LaunchInput.lookup_env_eq_lookup_reverse_iff (c := c) trace]
    constructor
    · intro same
      have readable := isReadable_of_envValue?_eq same
      exact ⟨readable, fun name => (same name).trans (readable.jobValue?_eq name)⟩
    · rintro ⟨readable, same⟩ name
      exact (same name).trans (readable.jobValue?_eq name).symm
  · intro name value own
    have first := LaunchInput.lookup_env_of_mem_ownEnv own
    have untraced := (LaunchInput.not_handedOn_of_mem_ownEnv (List.mem_map_of_mem own)).2
    refine ⟨fun v => LaunchInput.mem_env_iff own, first, fun readable => ?_⟩
    rw [job readable, Assoc.lookup_eq_none_iff_not_mem.2 untraced, Option.none_or]
    exact first

/-- A launch whose host has a credential under a name that the trace context has too. -/
def sampleInput : LaunchInput :=
  { Runner.sample.launchInput
      { Runner.sampleRequest ⟨"lens", "run-1"⟩ with trace := [("SHOP_API_KEY", "of the trace")] }
      { repo := "astro/astropy" } with
    host := .ofPairs [("HOME", "/root"), ("OTEL_SHOP_API_KEY", "of the host"),
      ("REDIS_URL", "redis://localhost:6379/0")] }

theorem isSetTwice_sampleInput : sampleInput.IsSetTwice "OTEL_SHOP_API_KEY" :=
  ⟨by decide, by decide, by decide⟩

theorem variables_of_build_sampleInput :
    ∃ p, build Runner.sample.config sampleInput = .ok p ∧ Assoc.Sorted sampleInput.trace ∧
      (p.env.map (·.1)).count "OTEL_SHOP_API_KEY" = 2 ∧ ¬ (p.env.map (·.1)).Nodup ∧
      ¬ ∀ name, p.envValue? name = p.jobValue? name := by
  have built := build_eq_ok Runner.sample.config (i := sampleInput) (by decide)
  have trace : Assoc.Sorted sampleInput.trace := List.pairwise_singleton _ _
  obtain ⟨count, nodup, same, -⟩ := variables_of_build built trace
  refine ⟨_, built, trace, (count _).2.2 isSetTwice_sampleInput,
    fun once => nodup.1 once _ isSetTwice_sampleInput, fun equal => ?_⟩
  exact absurd ((same.1 equal).2 _ isSetTwice_sampleInput) (by decide)

/-! ## What a plan takes from the host -/

theorem ofInput_of_host_agree {host : Environment}
    (agree : ∀ name, name = "REDIS_URL" ∨ isForwardedCredential name = true →
      Assoc.get? host.entries name = Assoc.get? i.host.entries name) :
    ofInput c { i with host } = ofInput c i := by
  rw [ofInput, ofInput, options, options, LaunchInput.env_of_host_agree agree]

/-- A plan takes nothing from the host but its credentials and the address of its store: to
    change any other variable of the host changes nothing at all. The credentials, which
    have a name that ends in `API_KEY` or begins with `AWS_`, `GCP_` or `AZURE_`, are in
    the plan as they are, and the address as it is within a container. -/
theorem build_of_host (c : Config) (i : LaunchInput) :
    (∀ host : Environment,
        (∀ name, name = "REDIS_URL" ∨ "API_KEY".toList <:+ name.toList ∨
            "AWS_".toList <+: name.toList ∨ "GCP_".toList <+: name.toList ∨
            "AZURE_".toList <+: name.toList →
          Assoc.get? host.entries name = Assoc.get? i.host.entries name) →
        build c { i with host } = build c i) ∧
      ∀ p, build c i = .ok p →
        (∀ name value, "API_KEY".toList <:+ name.toList ∨ "AWS_".toList <+: name.toList ∨
            "GCP_".toList <+: name.toList ∨ "AZURE_".toList <+: name.toList →
          Assoc.get? i.host.entries name = some value →
            (name, value) ∈ p.env ∧ p.envValue? name = some value) ∧
        ∀ url, Assoc.get? i.host.entries "REDIS_URL" = some url → Text.isBlankText url = false →
          (∀ v, ("REDIS_URL", v) ∈ p.env ↔ v = containerUrl url) ∧
            p.envValue? "REDIS_URL" = some (containerUrl url) := by
  simp only [← isForwardedCredential_iff]
  refine ⟨fun host agree => ?_, fun p built => ?_⟩
  · rw [build_eq, build_eq, ofInput_of_host_agree agree]
  · obtain rfl := eq_of_build_eq_ok built
    refine ⟨fun name value credential set => ?_, fun url set filled => ?_⟩
    · have first := LaunchInput.lookup_env_of_credential (c := c) credential set
      exact ⟨Assoc.mem_of_lookup_eq_some first, first⟩
    · have own := LaunchInput.mem_ownEnv_of_store (c := c) set filled
      exact ⟨fun v => LaunchInput.mem_env_iff own, LaunchInput.lookup_env_of_mem_ownEnv own⟩

/-- A launch whose host has credentials of each kind. -/
def sampleCloud : LaunchInput :=
  { sampleInput with
    host := .ofPairs [("AWS_REGION", "eu-central-1"), ("AZURE_TENANT", "lens"),
      ("GCP_PROJECT", "quasar"), ("HOME", "/root"), ("OTEL_SHOP_API_KEY", "of the host"),
      ("REDIS_URL", "redis://localhost:6379/0")] }

/-- Another host with the same credentials and the same address of its store. -/
def sampleHost : Environment :=
  .ofPairs [("AWS_REGION", "eu-central-1"), ("AZURE_TENANT", "lens"), ("GCP_PROJECT", "quasar"),
    ("OTEL_SHOP_API_KEY", "of the host"), ("PATH", "/usr/bin"),
    ("REDIS_URL", "redis://localhost:6379/0")]

theorem sampleHost_agrees {name : String}
    (h : name = "REDIS_URL" ∨ isForwardedCredential name = true) :
    Assoc.get? sampleHost.entries name = Assoc.get? sampleCloud.host.entries name := by
  have notHome : name ≠ "HOME" := by
    rintro rfl
    exact absurd h (by decide)
  have notPath : name ≠ "PATH" := by
    rintro rfl
    exact absurd h (by decide)
  simp [sampleHost, sampleCloud, Environment.ofPairs, Assoc.get?_ofPairs, List.lookup_cons,
    beq_eq_false_iff_ne.2 notHome, beq_eq_false_iff_ne.2 notPath]

theorem build_of_host_sampleCloud :
    build Runner.sample.config { sampleCloud with host := sampleHost } =
        build Runner.sample.config sampleCloud ∧
      ∃ p, build Runner.sample.config sampleCloud = .ok p ∧
        p.envValue? "OTEL_SHOP_API_KEY" = some "of the host" ∧
        p.envValue? "AWS_REGION" = some "eu-central-1" ∧
        p.envValue? "GCP_PROJECT" = some "quasar" ∧
        p.envValue? "AZURE_TENANT" = some "lens" ∧
        p.envValue? "REDIS_URL" = some "redis://host.docker.internal:6379/0" := by
  obtain ⟨same, present⟩ := build_of_host Runner.sample.config sampleCloud
  have built := build_eq_ok Runner.sample.config (i := sampleCloud) (by decide)
  obtain ⟨credentials, store⟩ := present _ built
  have handedOn {name value : String} (credential : isForwardedCredential name = true)
      (set : Assoc.get? sampleCloud.host.entries name = some value) :=
    (credentials name value (isForwardedCredential_iff.1 credential) set).2
  refine ⟨same sampleHost fun _ h => sampleHost_agrees (h.imp_right isForwardedCredential_iff.2),
    _, built, ?_, ?_, ?_, ?_, ?_⟩
  · exact handedOn (by decide) (by decide)
  · exact handedOn (by decide) (by decide)
  · exact handedOn (by decide) (by decide)
  · exact handedOn (by decide) (by decide)
  · exact (store "redis://localhost:6379/0" (by decide) (by decide)).2.trans (by decide)

end LaunchPlan

end ContainerJobs
