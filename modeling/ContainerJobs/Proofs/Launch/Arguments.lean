import ContainerJobs.Engine.InMemory
import ContainerJobs.Proofs.Assoc
import ContainerJobs.Proofs.Text.Field
import ContainerJobs.Runner.Start

/-!
# What a launch is asked for

The plan for a request exists exactly if the function is valid and the task is
known (`Runner.plan_cases`), and then the engine command is that of
`Runner.launchArgs`. An engine in memory that carries it out makes a container
with the name and the labels of the job, whatever the configuration puts among
the arguments (`Runner.optionValues_name_launchArgs`, `Runner.labels_launchArgs`).
-/

namespace ContainerJobs

theorem JobFunction.validate_cases (f : JobFunction) :
    f.validate = .ok f ∨ ∃ b, f.validate = .error b := by
  rw [validate]
  split
  · exact .inr ⟨_, rfl⟩
  · split
    · exact .inr ⟨_, rfl⟩
    · exact .inl rfl

namespace LaunchPlan

variable (c : Config) (i : LaunchInput)

/-- The plan for a job, whether or not its function is valid. -/
def ofInput : LaunchPlan where
  resourceName := i.resourceName
  image := i.image
  env := i.env c
  entrypoint := ContainerJobs.entrypoint c i.task
  args := "run" :: (options c i ++ [i.image, "sh", "-c", ContainerJobs.entrypoint c i.task])

/-- The function of the job decides whether there is a plan, and nothing else does. -/
theorem build_eq : build c i = i.function.validate.map fun _ => ofInput c i := by
  rw [build]
  cases i.function.validate <;> rfl

variable {i}

theorem build_eq_ok (h : i.function.validate = .ok i.function) :
    build c i = .ok (ofInput c i) := by
  rw [build_eq, h]
  rfl

theorem build_of_valid (h : i.function.validate = .ok i.function) :
    ∃ p, build c i = .ok p ∧
      p.args = "run" ::
        (options c i ++ [i.image, "sh", "-c", ContainerJobs.entrypoint c i.task]) :=
  ⟨ofInput c i, build_eq_ok c h, rfl⟩

variable {c}

theorem eq_of_build_eq_ok {p : LaunchPlan} (h : build c i = .ok p) : p = ofInput c i := by
  rw [build_eq] at h
  cases valid : i.function.validate with
  | error b => simp [valid, Except.map] at h
  | ok f => simpa [valid, Except.map, eq_comm] using h

end LaunchPlan

namespace Runner

variable (r : Runner) (q : StartRequest)

/-- What the plan for a request is made for, once its task is known. -/
def launchInput (task : TaskInstance) : LaunchInput where
  resourceName := r.resourceName q.key
  key := q.key
  function := q.function
  node := q.node
  image := resolveImage q.image r.config task q.key.trajectory
  task
  memory := q.memory
  memorySwap := q.memorySwap
  trace := q.trace
  host := r.host

/-- The engine command for a request, after the word `run`. -/
def launchArgs (task : TaskInstance) : Command :=
  LaunchPlan.options r.config (r.launchInput q task) ++
    [resolveImage q.image r.config task q.key.trajectory, "sh", "-c", entrypoint r.config task]

variable {r q}

theorem plan_of_task {task : TaskInstance} (hf : q.function.validate = .ok q.function)
    (ht : r.instances q.key.trajectory = .ok task) :
    ∃ p, r.plan q = .ok p ∧ p.args = "run" :: r.launchArgs q task := by
  obtain ⟨p, hp, args⟩ := LaunchPlan.build_of_valid r.config (i := r.launchInput q task) hf
  refine ⟨p, ?_, args⟩
  rw [plan, hf, ht]
  exact congrArg (Except.mapError JobError.function) hp

variable (r q)

/-- What a plan depends on. That there is none is never the engine's fault. -/
theorem plan_cases :
    (∃ err, r.plan q = .error err ∧ ∀ f, err ≠ .engine f) ∨
      ∃ task p, q.function.validate = .ok q.function ∧
        r.instances q.key.trajectory = .ok task ∧ r.plan q = .ok p ∧
        p.args = "run" :: r.launchArgs q task := by
  obtain hf | ⟨b, hb⟩ := q.function.validate_cases
  · cases ht : r.instances q.key.trajectory with
    | error fault =>
      refine .inl ⟨.noInstance q.key.trajectory fault, ?_, by simp⟩
      rw [plan, hf, ht]
      rfl
    | ok task =>
      obtain ⟨p, hp, args⟩ := plan_of_task hf ht
      exact .inr ⟨task, p, hf, rfl, hp, args⟩
  · refine .inl ⟨.function b, ?_, by simp⟩
    rw [plan, hb]
    rfl

variable {r q}

theorem plan_eq_ok {p : LaunchPlan} (h : r.plan q = .ok p) :
    ∃ task, q.function.validate = .ok q.function ∧ r.instances q.key.trajectory = .ok task ∧
      p.args = "run" :: r.launchArgs q task := by
  obtain ⟨err, he, -⟩ | ⟨task, p', hf, ht, hp, args⟩ := r.plan_cases q
  · simp [he] at h
  · rw [hp, Except.ok.injEq] at h
    exact ⟨task, hf, ht, h ▸ args⟩

theorem plan_ne_engine {err : JobError} (h : r.plan q = .error err) (f : SpawnFailure) :
    err ≠ .engine f := by
  obtain ⟨err', he, hne⟩ | ⟨task, p, -, -, hp, -⟩ := r.plan_cases q
  · rw [he, Except.error.injEq] at h
    exact h ▸ hne f
  · simp [hp] at h

end Runner

/-! ## The arguments as an engine reads them -/

namespace InMemory

variable {o a : String} {l r : Command}

theorem optionValues_cons_of_ne (h : a ≠ o) : optionValues o (a :: r) = optionValues o r := by
  cases r with
  | nil => rfl
  | cons b r => rw [optionValues, if_neg h]

theorem optionValues_cons_self (b : String) :
    optionValues o (o :: b :: r) = b :: optionValues o (b :: r) := by
  rw [optionValues, if_pos rfl]

theorem optionValues_append_of_not_mem (h : o ∉ l) :
    optionValues o (l ++ r) = optionValues o r := by
  induction l with
  | nil => rfl
  | cons a l ih =>
    rw [List.mem_cons, not_or] at h
    rw [List.cons_append, optionValues_cons_of_ne (Ne.symm h.1), ih h.2]

/-- What follows a word is read no matter what stands before it. -/
theorem optionValues_append_cons :
    optionValues o (l ++ a :: r) = optionValues o (l ++ [a]) ++ optionValues o (a :: r) := by
  induction l with
  | nil => cases r <;> simp [optionValues]
  | cons b l ih =>
    -- A word after the option is read even if it is the option again.
    by_cases hb : b = o
    · cases l with
      | nil => simp [hb, optionValues_cons_self, optionValues]
      | cons c l =>
        subst hb
        simp only [List.cons_append] at ih ⊢
        rw [optionValues_cons_self, optionValues_cons_self, ih, List.cons_append]
    · rw [List.cons_append, optionValues_cons_of_ne hb, ih, List.cons_append,
        optionValues_cons_of_ne hb]

theorem optionValues_flatMap {values : List String} (h : o ∉ values) :
    optionValues o (values.flatMap (fun v => [o, v]) ++ r) = values ++ optionValues o r := by
  induction values with
  | nil => rfl
  | cons v values ih =>
    rw [List.mem_cons, not_or] at h
    rw [List.flatMap_cons, List.append_assoc, List.cons_append, List.cons_append, List.nil_append,
      optionValues_cons_self, optionValues_cons_of_ne (Ne.symm h.1), ih h.2, List.cons_append]

/-- A word before the option makes no difference to the values that are given with it. -/
theorem optionValues_append_flatMap {values : List String} (h : o ∉ values) (ne : values ≠ []) :
    optionValues o (l ++ (values.flatMap (fun v => [o, v]) ++ r)) =
      optionValues o (l ++ [o]) ++ (values ++ optionValues o r) := by
  obtain ⟨v, values, rfl⟩ := List.exists_cons_of_ne_nil ne
  rw [← optionValues_flatMap h, List.flatMap_cons]
  exact optionValues_append_cons

/-- The label that a word stands for, if it stands for one. -/
def label? (word : String) : Option (String × String) :=
  (Text.cut? '=' word.toList).map fun (k, v) => (String.ofList k, String.ofList v)

theorem labels_launched (args : Command) (name id : String) : (launched args name id).labels =
    Assoc.ofPairs ((optionValues "--label" args).filterMap label?) := rfl

theorem label?_append {key : String} (value : String) (h : '=' ∉ key.toList) :
    label? (key ++ "=" ++ value) = some (key, value) := by
  have toList : (key ++ "=" ++ value).toList = key.toList ++ '=' :: value.toList := by simp
  simp only [label?, toList, Text.cut?_append h, Option.map_some, String.ofList_toList]

/-- Words that are put together from pairs are read as these pairs, unless a key has an
    equals sign in it. -/
theorem filterMap_label? {l : List (String × String)} (h : ∀ p ∈ l, '=' ∉ p.1.toList) :
    (l.map fun (key, value) => key ++ "=" ++ value).filterMap label? = l := by
  rw [List.filterMap_map]
  exact (List.filterMap_congr fun p hp => label?_append p.2 (h p hp)).trans List.filterMap_some

/-- No key that is read has an equals sign in it. -/
theorem equals_not_mem_of_label? {word : String} {p : String × String}
    (h : label? word = some p) : '=' ∉ p.1.toList := by
  obtain ⟨⟨k, v⟩, cut, rfl⟩ := Option.map_eq_some_iff.1 h
  rw [String.toList_ofList]
  exact (Text.eq_of_cut? cut).2

end InMemory

/-! ## The container of a launch -/

namespace JobKey

variable {k : JobKey} {label : String × String}

theorem equals_not_mem_label (h : label ∈ k.labels) : '=' ∉ label.1.toList := by
  have keys : ∀ key ∈ [Label.managed, Label.project, Label.trajectory, Label.rawProject,
      Label.rawTrajectory], '=' ∉ key.toList := by decide
  exact keys _ (List.mem_map_of_mem (f := Prod.fst) h)

/-- No two labels of a job have the same key. -/
theorem nodup_keys_labels (k : JobKey) : (k.labels.map (·.1)).Nodup := by
  change [Label.managed, Label.project, Label.trajectory, Label.rawProject,
    Label.rawTrajectory].Nodup
  decide

theorem lookup_reverse_labels (h : label ∈ k.labels) :
    k.labels.reverse.lookup label.1 = some label.2 := by
  rw [Assoc.lookup_reverse k.nodup_keys_labels]
  exact (Assoc.lookup_eq_some_iff_mem k.nodup_keys_labels).2 h

end JobKey

namespace LaunchPlan

variable (c : Config) (i : LaunchInput)

/-- The arguments that the configuration decides, but for those about the host. -/
def settings : List String :=
  "--network" :: c.networkName ::
    ((c.platformOverride?.map fun p => "--platform=" ++ p).toList ++
      option "--memory" (memoryLimits i.memory i.memorySwap c).1 ++
      option "--memory-swap" (memoryLimits i.memory i.memorySwap c).2)

/-- The arguments that connect the container with its host. -/
def hostArgs : List String :=
  ["--add-host", hostAlias ++ ":" ++ c.hostGateway] ++ mount c.dataDir Layout.data ++
    mount c.componentsDir Layout.components ++ mount c.sourceDir Layout.source

/-- The arguments before the image, group by group. -/
theorem options_eq_groups : options c i =
    "--name" :: i.resourceName :: "-d" :: (settings c i ++ (i.key.labelArgs ++
      (((i.env c).map fun (name, value) => name ++ "=" ++ value).flatMap (fun w => ["-e", w]) ++
        hostArgs c))) := by
  simp [options, settings, hostArgs, List.flatMap_map]

variable {o : String} {i}

/-- A word with a character that an option lacks is not that option. -/
theorem ne_of_char_mem {s : String} {d : Char} (hs : d ∈ s.toList) (hd : d ∉ o.toList) :
    o ≠ s :=
  fun h => hd (h ▸ hs)

theorem not_mem_pairs (h : '=' ∉ o.toList) (l : List (String × String)) :
    o ∉ l.map fun (key, value) => key ++ "=" ++ value := by
  rw [List.mem_map]
  rintro ⟨p, -, same⟩
  exact ne_of_char_mem (s := p.1 ++ "=" ++ p.2) (by simp) h same.symm

theorem not_mem_flatMap_option {flag : String} (ne : o ≠ flag) {values : List String}
    (h : o ∉ values) : o ∉ values.flatMap fun v => [flag, v] := by
  rw [List.mem_flatMap]
  rintro ⟨v, hv, mem⟩
  obtain same | same := List.mem_pair.1 mem
  · exact ne same
  · exact h (same ▸ hv)

theorem not_mem_hostArgs (h : ':' ∉ o.toList) (host : o ≠ "--add-host") (volume : o ≠ "-v") :
    o ∉ hostArgs c := by
  have pair (a b : String) : o ≠ a ++ ":" ++ b := ne_of_char_mem (by simp) h
  have mounted (tree : Option String) (path : String) : o ∉ mount tree path := by
    cases tree with
    | none => simp [mount, option]
    | some t => simp [mount, option, volume, pair t path]
  simp [hostArgs, host, pair, mounted]

/-- The labels stand between words that the configuration may choose and words
    that are not taken for the option of a label. -/
theorem options_eq : ∃ pre post, options c i =
    "--name" :: i.resourceName :: (pre ++ (i.key.labelArgs ++ post)) ∧ "--label" ∉ post := by
  refine ⟨"-d" :: settings c i, _, options_eq_groups c i, ?_⟩
  rw [List.mem_append, not_or]
  exact ⟨not_mem_flatMap_option (by decide) (not_mem_pairs (by decide) _),
    not_mem_hostArgs c (by decide) (by decide) (by decide)⟩

end LaunchPlan

namespace Runner

variable (r : Runner) (q : StartRequest) (task : TaskInstance)

theorem optionValues_name_launchArgs : ∃ rest,
    InMemory.optionValues "--name" ("run" :: r.launchArgs q task) =
      r.resourceName q.key :: rest := by
  obtain ⟨pre, post, options, -⟩ := LaunchPlan.options_eq r.config (i := r.launchInput q task)
  rw [launchArgs, options, List.cons_append, List.cons_append,
    InMemory.optionValues_cons_of_ne (by decide), InMemory.optionValues_cons_self]
  exact ⟨_, rfl⟩

/-- The labels of the job come last among all that look like labels. -/
theorem optionValues_label_launchArgs : ∃ pre post,
    InMemory.optionValues "--label" ("run" :: r.launchArgs q task) =
      pre ++ (q.key.labels.map fun (key, value) => key ++ "=" ++ value) ++ post ∧
      ∀ v ∈ post, v = "sh" := by
  obtain ⟨pre, post, options, hpost⟩ := LaunchPlan.options_eq r.config (i := r.launchInput q task)
  set values := q.key.labels.map fun (key, value) => key ++ "=" ++ value with hvalues
  have args : (r.launchInput q task).key.labelArgs = values.flatMap fun v => ["--label", v] := by
    simp [JobKey.labelArgs, hvalues, List.flatMap_map, launchInput]
  have other : "--label" ∉ values := LaunchPlan.not_mem_pairs (by decide) _
  refine ⟨InMemory.optionValues "--label"
    ("run" :: "--name" :: r.resourceName q.key :: pre ++ ["--label"]),
    InMemory.optionValues "--label"
      [resolveImage q.image r.config task q.key.trajectory, "sh", "-c", entrypoint r.config task],
    ?_, ?_⟩
  · have split : "run" :: r.launchArgs q task =
        ("run" :: "--name" :: r.resourceName q.key :: pre) ++
          (values.flatMap (fun v => ["--label", v]) ++ (post ++
            [resolveImage q.image r.config task q.key.trajectory, "sh", "-c",
              entrypoint r.config task])) := by
      rw [launchArgs, options, args]
      simp [launchInput]
    rw [split, InMemory.optionValues_append_flatMap other (List.cons_ne_nil _ _),
      InMemory.optionValues_append_of_not_mem hpost, List.append_assoc]
  · have rest :
        InMemory.optionValues "--label" ["sh", "-c", entrypoint r.config task] = [] := by
      rw [InMemory.optionValues_cons_of_ne (by decide), InMemory.optionValues_cons_of_ne (by decide)]
      rfl
    -- An image of that name would turn the word after it into one more label.
    by_cases image : resolveImage q.image r.config task q.key.trajectory = "--label"
    · rw [image, InMemory.optionValues_cons_self, rest]
      simp
    · rw [InMemory.optionValues_cons_of_ne image, rest]
      simp

variable {r q task}

/-- The container of a launch carries the labels of the job. -/
theorem labels_launchArgs (name id : String) (label : String × String)
    (h : label ∈ q.key.labels) :
    Assoc.get? (InMemory.launched ("run" :: r.launchArgs q task) name id).labels label.1 =
      some label.2 := by
  obtain ⟨pre, post, values, hpost⟩ := r.optionValues_label_launchArgs q task
  -- Of labels with the same key the last one counts, and those of the job are last.
  have read_post : post.filterMap InMemory.label? = [] := by
    rw [List.filterMap_eq_nil_iff]
    rintro v hv
    rw [hpost v hv]
    decide
  have read_labels : (q.key.labels.map fun (k, v) => k ++ "=" ++ v).filterMap InMemory.label? =
      q.key.labels := InMemory.filterMap_label? fun p hp => JobKey.equals_not_mem_label hp
  rw [InMemory.labels_launched, values, List.filterMap_append, List.filterMap_append, read_post,
    read_labels, List.append_nil, Assoc.get?_ofPairs, List.reverse_append, List.lookup_append,
    JobKey.lookup_reverse_labels h]
  rfl

/-! ## A sample -/

/-- A runner with the default configuration, for which every trajectory has the
    same task. -/
def sample : Runner where
  config := .resolve {} .empty "x86_64"
  instances := fun _ => .ok { repo := "astro/astropy" }
  host := .empty

/-- A request to the sample runner. -/
def sampleRequest (key : JobKey) : StartRequest where
  key
  function := { module := "worker.jobs", name := "run" }

end Runner

end ContainerJobs
