import ContainerJobs.Proofs.Engine.InMemory
import ContainerJobs.Proofs.Launch.Variables

/-!
# The container of a plan

An engine in memory reads a command by looking for options anywhere in it, and takes the
word after each for its value. A plan is made of words that it did not choose, so one of
them could be taken for an option. Where the network, the limits and the image do not
begin with a hyphen, this happens to no word but the name of the container: a container
that is to be named `-e` gets the next word as a variable. In all else the container is
the one that the plan describes (`InMemory.engine_build`).
-/

namespace ContainerJobs

/-! ## What may look like an option -/

/-- None of the words that are chosen freely looks like an option. -/
structure LaunchInput.IsPlain (i : LaunchInput) (c : Config) : Prop where
  /-- The network. -/
  network : c.networkName.toList.head? ≠ some '-'
  /-- The memory limit that counts. -/
  memory : ∀ m, (memoryLimits i.memory i.memorySwap c).1 = some m → m.toList.head? ≠ some '-'
  /-- The limit of memory and swap that counts. -/
  memorySwap : ∀ m, (memoryLimits i.memory i.memorySwap c).2 = some m →
    m.toList.head? ≠ some '-'
  /-- The image. -/
  image : i.image.toList.head? ≠ some '-'

namespace LaunchPlan

variable {c : Config} {i : LaunchInput} {o : String}

theorem ne_of_head? {s : String} (ho : o.toList.head? = some '-')
    (hs : s.toList.head? ≠ some '-') : o ≠ s := by
  rintro rfl
  exact hs ho

theorem not_mem_option {flag : String} {value : Option String} (ne : o ≠ flag)
    (h : ∀ v, value = some v → o ≠ v) : o ∉ option flag value := by
  cases value with
  | none => simp [option]
  | some v => simp [option, ne, h v rfl]

/-- The options of the groups are words of no other kind. -/
theorem not_mem_settings (plain : i.IsPlain c) (ho : o ∈ ["--label", "-e"]) :
    o ∉ settings c i := by
  obtain ⟨hyphen, equals, network, memory, memorySwap⟩ : o.toList.head? = some '-' ∧
      '=' ∉ o.toList ∧ o ≠ "--network" ∧ o ≠ "--memory" ∧ o ≠ "--memory-swap" := by
    revert o
    decide
  -- The platform is part of its own option, in one word with an equals sign.
  have platform : o ∉ (c.platformOverride?.map fun p => "--platform=" ++ p).toList := by
    simp only [Option.mem_toList, Option.map_eq_some_iff, not_exists, not_and]
    exact fun p _ => (ne_of_char_mem (by simp) equals).symm
  simp only [settings, List.mem_cons, List.mem_append, not_or]
  exact ⟨network, ne_of_head? hyphen plain.network,
    ⟨platform, not_mem_option memory fun m hm => ne_of_head? hyphen (plain.memory m hm)⟩,
    not_mem_option memorySwap fun m hm => ne_of_head? hyphen (plain.memorySwap m hm)⟩

theorem not_mem_tail (plain : i.IsPlain c) (ho : o ∈ ["--label", "-e"]) :
    o ∉ hostArgs c ++ [i.image, "sh", "-c"] := by
  obtain ⟨hyphen, colon, host, volume, shell, command⟩ : o.toList.head? = some '-' ∧
      ':' ∉ o.toList ∧ o ≠ "--add-host" ∧ o ≠ "-v" ∧ o ≠ "sh" ∧ o ≠ "-c" := by
    revert o
    decide
  simp only [List.mem_append, List.mem_cons, List.not_mem_nil, or_false, not_or]
  exact ⟨not_mem_hostArgs c colon host volume, ne_of_head? hyphen plain.image, shell, command⟩

/-- The command of a plan, group by group. -/
theorem args_ofInput (c : Config) (i : LaunchInput) : (ofInput c i).args =
    "run" :: "--name" :: i.resourceName :: "-d" :: (settings c i ++
      ((i.key.labels.map fun (key, value) => key ++ "=" ++ value).flatMap
          (fun w => ["--label", w]) ++
        ((ofInput c i).words.flatMap (fun w => ["-e", w]) ++
          (hostArgs c ++ [i.image, "sh", "-c"] ++ [ContainerJobs.entrypoint c i.task])))) := by
  simp [ofInput, options_eq_groups, words, JobKey.labelArgs, List.flatMap_map]

end LaunchPlan

namespace InMemory

/-! ## The words behind an option -/

/-- A name that is the option itself makes the engine take the next word for a value. -/
def stray (name o : String) : List String :=
  if name = o then ["-d"] else []

theorem optionValues_start {o : String} (ho : o ∉ ["run", "--name", "-d"]) (name : String)
    (rest : Command) : optionValues o ("run" :: "--name" :: name :: "-d" :: rest) =
      stray name o ++ optionValues o rest := by
  simp only [List.mem_cons, List.not_mem_nil, or_false, not_or] at ho
  obtain ⟨run, option, detach⟩ := ho
  rw [optionValues_cons_of_ne (Ne.symm run), optionValues_cons_of_ne (Ne.symm option), stray]
  split
  · next same =>
    -- The name is the option itself, so the word behind it counts as a value.
    rw [same, optionValues_cons_self, optionValues_cons_of_ne (Ne.symm detach),
      List.singleton_append]
  · next other =>
    rw [optionValues_cons_of_ne other, optionValues_cons_of_ne (Ne.symm detach), List.nil_append]

/-- The last word is behind no option. -/
theorem optionValues_concat {o : String} {l : Command} (h : o ∉ l) (last : String) :
    optionValues o (l ++ [last]) = [] :=
  optionValues_append_of_not_mem h

variable {c : Config} {i : LaunchInput}

theorem optionValues_label_ofInput (plain : i.IsPlain c) :
    optionValues "--label" (LaunchPlan.ofInput c i).args = stray i.resourceName "--label" ++
      i.key.labels.map fun (key, value) => key ++ "=" ++ value := by
  have label : "--label" ∈ ["--label", "-e"] := by decide
  have noVariable : "--label" ∉ (LaunchPlan.ofInput c i).words.flatMap fun w => ["-e", w] :=
    LaunchPlan.not_mem_flatMap_option (by decide) (LaunchPlan.not_mem_pairs (by decide) _)
  rw [LaunchPlan.args_ofInput, optionValues_start (by decide),
    optionValues_append_of_not_mem (LaunchPlan.not_mem_settings plain label),
    optionValues_flatMap (LaunchPlan.not_mem_pairs (by decide) _),
    optionValues_append_of_not_mem noVariable,
    optionValues_concat (LaunchPlan.not_mem_tail plain label), List.append_nil]

theorem optionValues_env_ofInput (plain : i.IsPlain c) :
    optionValues "-e" (LaunchPlan.ofInput c i).args =
      stray i.resourceName "-e" ++ (LaunchPlan.ofInput c i).words := by
  have env : "-e" ∈ ["--label", "-e"] := by decide
  have noLabel : "-e" ∉ (i.key.labels.map fun (key, value) => key ++ "=" ++ value).flatMap
      fun w => ["--label", w] :=
    LaunchPlan.not_mem_flatMap_option (by decide) (LaunchPlan.not_mem_pairs (by decide) _)
  have noWord : "-e" ∉ (LaunchPlan.ofInput c i).words := LaunchPlan.not_mem_pairs (by decide) _
  rw [LaunchPlan.args_ofInput, optionValues_start (by decide),
    optionValues_append_of_not_mem (LaunchPlan.not_mem_settings plain env),
    optionValues_append_of_not_mem noLabel, optionValues_flatMap noWord,
    optionValues_concat (LaunchPlan.not_mem_tail plain env), List.append_nil]

theorem optionValues_name_ofInput (c : Config) (i : LaunchInput) : ∃ rest,
    optionValues "--name" (LaunchPlan.ofInput c i).args = i.resourceName :: rest := by
  rw [LaunchPlan.args_ofInput, optionValues_cons_of_ne (by decide), optionValues_cons_self]
  exact ⟨_, rfl⟩

/-! ## The container -/

theorem image_launched (before : Command) (image entrypoint name id : String) :
    (launched (before ++ [image, "sh", "-c", entrypoint]) name id).image = image := by
  simp [launched]

/-- What a name that looks like an option adds is no label. -/
theorem labels_launched_ofInput (plain : i.IsPlain c) (name id : String) :
    (launched (LaunchPlan.ofInput c i).args name id).labels = Assoc.ofPairs i.key.labels := by
  have none_read : (stray i.resourceName "--label").filterMap label? = [] := by
    rw [stray]
    split
    · decide
    · rfl
  rw [labels_launched, optionValues_label_ofInput plain, List.filterMap_append, none_read,
    filterMap_label? fun p hp => JobKey.equals_not_mem_label hp, List.nil_append]

end InMemory

/-- The container is the one that a plan for a job describes. -/
structure Container.IsPlannedBy (made : Container) (p : LaunchPlan) (k : JobKey) : Prop where
  /-- The name is that of the plan. -/
  name : made.name = p.resourceName
  /-- The image is that of the plan. -/
  image : made.image = p.image
  /-- The keys of the labels are distinct. -/
  sorted : Assoc.Sorted made.labels
  /-- The labels are those of the job, and no others. -/
  labels : ∀ label, label ∈ made.labels ↔ label ∈ k.labels
  /-- The container runs. -/
  state : made.state = .started

namespace InMemory

variable {c : Config} {i : LaunchInput}

theorem isPlannedBy_launched (plain : i.IsPlain c) (id : String) :
    (launched (LaunchPlan.ofInput c i).args i.resourceName id).IsPlannedBy
      (LaunchPlan.ofInput c i) i.key where
  name := rfl
  image := image_launched ("run" :: LaunchPlan.options c i) _ _ _ _
  sorted := Assoc.sorted_ofPairs _
  labels label := by
    rw [labels_launched_ofInput plain]
    exact Assoc.mem_ofPairs_iff i.key.nodup_keys_labels
  state := rfl

theorem engine_ofInput (c : Config) (i : LaunchInput) {s : ContainerStore}
    (free : s.find? i.resourceName = none) :
    ∃ reply, reply.isSuccess = true ∧ engine (LaunchPlan.ofInput c i).args { store := s } =
      (.ok reply, { store := s.add (launched (LaunchPlan.ofInput c i).args i.resourceName) }) := by
  obtain ⟨rest, names⟩ := optionValues_name_ofInput c i
  have reply : engine (LaunchPlan.ofInput c i).args { store := s } =
      (.ok (launch s (LaunchPlan.ofInput c i).args).1,
        { store := (launch s (LaunchPlan.ofInput c i).args).2 }) := rfl
  rw [reply, launch, names]
  simp only [free, Option.isSome_none, Bool.false_eq_true, if_false]
  exact ⟨_, rfl, rfl⟩

/-- An engine that carries out a plan under a free name makes the container that the plan
    describes, and changes nothing else. Its variables are those of the plan in their
    order. Only if the name of the container is that of the option for a variable, the
    word after the name comes before them. -/
theorem engine_build {s : ContainerStore} (valid : i.function.validate = .ok i.function)
    (plain : i.IsPlain c) (free : s.find? i.resourceName = none) :
    ∃ p reply made, LaunchPlan.build c i = .ok p ∧ reply.isSuccess = true ∧
      engine p.args { store := s } = (.ok reply,
        { store := { containers := s.containers ++ [made], lastNumber := s.lastNumber + 1 } }) ∧
      p.resourceName = i.resourceName ∧ made.IsPlannedBy p i.key ∧
      made.env = (if i.resourceName = "-e" then ["-d"] else []) ++
        p.env.map fun (name, value) => name ++ "=" ++ value := by
  obtain ⟨reply, success, launched⟩ := engine_ofInput c i free
  exact ⟨_, reply, _, LaunchPlan.build_eq_ok c valid, success, launched, rfl,
    isPlannedBy_launched plain _, optionValues_env_ofInput plain⟩

theorem isPlain_sampleInput : LaunchPlan.sampleInput.IsPlain Runner.sample.config where
  network := by decide
  memory := by decide
  memorySwap := by decide
  image := by decide

theorem engine_build_sampleInput :
    ∃ p reply made, LaunchPlan.build Runner.sample.config LaunchPlan.sampleInput = .ok p ∧
      LaunchPlan.sampleInput.IsPlain Runner.sample.config ∧
      engine p.args {} = (.ok reply, { store := { containers := [made], lastNumber := 1 } }) ∧
      made.IsPlannedBy p LaunchPlan.sampleInput.key ∧
      made.env = p.env.map fun (name, value) => name ++ "=" ++ value := by
  obtain ⟨p, reply, made, built, -, launched, -, planned, env⟩ :=
    engine_build (c := Runner.sample.config) (i := LaunchPlan.sampleInput) (s := {}) (by decide)
      isPlain_sampleInput rfl
  have other : LaunchPlan.sampleInput.resourceName ≠ "-e" := fun same =>
    JobKey.head?_resourceName_ne_hyphen ⟨"lens", "run-1"⟩ _ (congrArg (·.toList.head?) same)
  rw [if_neg other, List.nil_append] at env
  exact ⟨p, reply, made, built, isPlain_sampleInput, launched, planned, env⟩

/-- The same launch, under a name that the engine takes for an option. -/
def sampleMistaken : LaunchInput :=
  { LaunchPlan.sampleInput with resourceName := "-e" }

/-- Its container has a variable that the plan does not have. -/
theorem env_sampleMistaken : sampleMistaken.function.validate = .ok sampleMistaken.function ∧
    sampleMistaken.IsPlain Runner.sample.config ∧
    ContainerStore.find? {} sampleMistaken.resourceName = none ∧
    ∃ p reply made, LaunchPlan.build Runner.sample.config sampleMistaken = .ok p ∧
      engine p.args {} = (.ok reply, { store := { containers := [made], lastNumber := 1 } }) ∧
      made.env = "-d" :: p.env.map (fun (name, value) => name ++ "=" ++ value) ∧
      made.env ≠ p.env.map fun (name, value) => name ++ "=" ++ value := by
  have valid : sampleMistaken.function.validate = .ok sampleMistaken.function := by decide
  have plain : sampleMistaken.IsPlain Runner.sample.config :=
    ⟨isPlain_sampleInput.network, isPlain_sampleInput.memory, isPlain_sampleInput.memorySwap,
      isPlain_sampleInput.image⟩
  obtain ⟨reply, -, launched⟩ :=
    engine_ofInput Runner.sample.config sampleMistaken (s := {}) rfl
  have env := optionValues_env_ofInput plain
  refine ⟨valid, plain, rfl, _, reply, _, LaunchPlan.build_eq_ok _ valid, launched, env, ?_⟩
  exact fun same => List.cons_ne_self _ _ (env.symm.trans same)

end InMemory

end ContainerJobs
