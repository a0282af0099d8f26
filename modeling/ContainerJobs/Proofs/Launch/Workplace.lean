import ContainerJobs.Proofs.Job.Record
import ContainerJobs.Proofs.Launch.Arguments
import ContainerJobs.Proofs.Launch.Entrypoint
import ContainerJobs.Task.Directory

/-!
# Where a job works, and in which image

A job works in a directory under the workspace that is named by the last part of its
repository, and in an image that may come from its task. A directory of task instances refuses
an instance whose repository is blank, and no other (`Directory.exists_instances_iff`), which
is not enough: the last part of the repository may still be empty or lead elsewhere, and the
image may be blank. `TaskInstance.isLaunchable_iff` says when neither is so.
-/

namespace ContainerJobs

open Reader

namespace Layout

/-- The names that do not lead into a directory: the empty one, the one of the directory
    itself, and the one of the directory above. -/
def staying : List String := ["", ".", ".."]

/-- The text names something in a directory. -/
structure IsSegment (name : String) : Prop where
  /-- It is one part of a path. -/
  single : '/' ∉ name.toList
  /-- It leads into the directory. -/
  leads : name ∉ staying

end Layout

/-! ## The image -/

theorem Text.isBlankText_eq_false_iff {s : String} :
    isBlankText s = false ↔ ∃ c ∈ s.toList, isBlank c = false := by
  rw [isBlankText, List.all_eq_false]
  simp only [Bool.not_eq_true]

/-- Without an image of the runner the image of a job is blank only if the one of its task is,
    and no other was asked for. -/
theorem isBlankText_resolveImage_eq_false_iff {c : Config} (undecided : c.defaultImage = none)
    (explicit : Option String) (i : TaskInstance) (trajectory : String) :
    Text.isBlankText (resolveImage explicit c i trajectory) = false ↔
      ∀ image ∈ i.image, Text.isBlankText image = true →
        ∃ s ∈ explicit, Text.isBlankText s = false := by
  cases chosen : explicit.filter fun s => !Text.isBlankText s with
  | some s =>
    obtain ⟨asked, filled⟩ := Option.filter_eq_some_iff.1 chosen
    rw [Bool.not_eq_true'] at filled
    rw [resolveImage, chosen]
    exact iff_of_true filled fun _ _ _ => ⟨s, asked, filled⟩
  | none =>
    have unasked : ¬∃ s ∈ explicit, Text.isBlankText s = false := by
      rintro ⟨s, asked, filled⟩
      exact Option.filter_eq_none_iff.1 chosen s asked (by rw [filled, Bool.not_false])
    rw [resolveImage, chosen, undecided]
    cases named : i.image with
    | none =>
      -- The derived image has a slash in it.
      refine iff_of_true (Text.isBlankText_eq_false_iff.2 ⟨'/', ?_, by decide⟩) nofun
      simp
    | some image =>
      change Text.isBlankText image = false ↔ _
      rw [← Bool.not_eq_true]
      constructor
      · rintro filled _ ⟨⟩ blank
        exact absurd blank filled
      · exact fun h blank => unasked (h image rfl blank)

/-! ## The directory -/

namespace TaskInstance

variable {i : TaskInstance} {name : String}

theorem slash_not_mem_repoName (i : TaskInstance) : '/' ∉ i.repoName.toList := by
  rw [repoName]
  split
  · next cut =>
    rw [String.toList_ofList]
    exact (Text.cutLast?_eq_some_iff.1 cut).2
  · next cut => exact Text.cutLast?_eq_none_iff.1 cut

/-- The last part of a repository is the text behind its last slash, or all of it. -/
theorem repoName_eq_iff (single : '/' ∉ name.toList) :
    i.repoName = name ↔ i.repo = name ∨ ∃ owner, i.repo = owner ++ "/" ++ name := by
  constructor
  · rintro rfl
    rw [repoName]
    split
    · next owner last cut =>
      refine .inr ⟨.ofList owner, String.toList_inj.1 ?_⟩
      simp [(Text.cutLast?_eq_some_iff.1 cut).1]
    · exact .inl rfl
  · rintro (whole | ⟨owner, split⟩)
    · rw [← whole] at single ⊢
      rw [repoName, Text.cutLast?_eq_none_iff.2 single]
    · have text : i.repo.toList = owner.toList ++ '/' :: name.toList := by simp [split]
      rw [repoName, text, Text.cutLast?_append single]
      exact String.ofList_toList

/-- The last part names something in a directory unless the repository is, or ends in, a name
    that does not lead into one. -/
theorem isSegment_repoName_iff : Layout.IsSegment i.repoName ↔
    ∀ name ∈ Layout.staying, i.repo ≠ name ∧ ∀ owner, i.repo ≠ owner ++ "/" ++ name := by
  have single : ∀ name ∈ Layout.staying, '/' ∉ name.toList := by decide
  constructor
  · rintro ⟨-, leads⟩ name stays
    have other : i.repoName ≠ name := fun same => leads (same ▸ stays)
    rwa [Ne, repoName_eq_iff (single name stays), not_or, not_exists] at other
  · intro h
    refine ⟨slash_not_mem_repoName i, fun stays => ?_⟩
    obtain ⟨whole, split⟩ := h _ stays
    rcases (repoName_eq_iff (slash_not_mem_repoName i)).1 rfl with same | ⟨owner, same⟩
    · exact whole same
    · exact split owner same

/-- The job works in a directory: the variable for it has this value, and the entrypoint enters
    it for the checkout. -/
structure WorksIn (i : TaskInstance) (c : Config) (directory : String) : Prop where
  /-- The variable has this value and no other. -/
  variable_iff : ∀ (input : LaunchInput) (v : String),
    ("REPO_DIR", v) ∈ { input with task := i }.env c ↔ v = directory
  /-- The checkout is made there. -/
  entered : [.text "cd", .text directory, .sign .both, .text "git", .text "checkout"] <:+:
    Shell.lexemes (Shell.tokens (entrypoint c i).toList)

theorem worksIn_repoDir (i : TaskInstance) (c : Config) : i.WorksIn c i.repoDir where
  variable_iff input _ := (LaunchInput.mem_env_repo c { input with task := i }).1
  entered := by
    rw [Entrypoint.lexemes_items, Entrypoint.items, List.map_append, List.append_assoc]
    -- Behind the update, if there is one.
    have first : [.text "cd", .text i.repoDir, .sign .both, .text "git", .text "checkout"] <+:
        (Entrypoint.jobItems i).map Entrypoint.Item.read ++
          [.text c.dispatchModule, .sign .endOfFile] := ⟨_, rfl⟩
    exact first.isInfix.trans (List.suffix_append _ _).isInfix

/-- There is one such directory. -/
theorem WorksIn.eq {c : Config} {directory : String} (h : i.WorksIn c directory) :
    directory = i.repoDir := by
  let input := Runner.sample.launchInput (Runner.sampleRequest ⟨"lens", "run-1"⟩) i
  exact ((worksIn_repoDir i c).variable_iff input directory).1
    ((h.variable_iff input directory).2 rfl)

end TaskInstance

/-! ## What a directory of instances accepts -/

namespace Directory

variable {i : TaskInstance}

theorem isBlankText_of_instances {d : Directory} {trajectory : String}
    (h : d.instances trajectory = .ok i) : Text.isBlankText i.repo = false := by
  rw [instances, instanceOf] at h
  split at h
  · cases h
  · simp only [bind, Except.bind, pure, Except.pure] at h
    split at h
    · cases h
    · split at h
      · cases h
      · next read _ =>
        split at h
        · cases h
        · next named =>
          cases h
          exact Bool.eq_false_iff.2 named

/-- The directory with one file, in which an instance is written. -/
def sole (i : TaskInstance) : Directory where
  path := "instances"
  entries := [("run-1.json", .file (Text.bytes i.toJson.render))]

theorem readText_sole (i : TaskInstance) : (sole i).readText "run-1.json" = .ok i.toJson.render := by
  have found : (sole i).entries.reverse.lookup "run-1.json" =
      some (.file (Text.bytes i.toJson.render)) := rfl
  rw [readText, if_neg (by decide), if_neg (by decide), found]
  simp only [Text.ofBytes?_bytes]

/-- The instances that some directory has for some trajectory are those with a repository that
    is not blank. -/
theorem exists_instances_iff : (∃ (d : Directory) (trajectory : String),
    d.instances trajectory = .ok i) ↔ Text.isBlankText i.repo = false := by
  constructor
  · rintro ⟨d, trajectory, accepted⟩
    exact isBlankText_of_instances accepted
  · intro named
    have notNull (s : String) : Json.string s ≠ .null := by
      intro h
      cases h
    have returns : Returns TaskInstance.reader TaskInstance.toJson Json.maxDepth i := by
      change Returns TaskInstance.reader TaskInstance.toJson (Json.maxDepth - 1 + 1) i
      refine TaskInstance.isRecord.returns ?_
      simp only [TaskInstance.recordFields, List.forall_mem_cons]
      exact ⟨Field.returns_required (returns_string _),
        Field.returns_orNull (fun _ _ => returns_string _) notNull,
        Field.returns_orNull (fun _ _ => returns_string _) notNull, List.forall_mem_nil _⟩
    have plain : isPlainName "run-1" = true := by decide
    have file : fileName "run-1" = "run-1.json" := by decide
    refine ⟨sole i, "run-1", ?_⟩
    rw [instances, instanceOf]
    simp only [plain, file, readText_sole, Bool.not_true, Bool.false_eq_true, if_false,
      Except.mapError, bind, Except.bind, pure, Except.pure, returns.ofText?_render, named]

end Directory

/-! ## The plan -/

namespace TaskInstance

variable {i : TaskInstance}

/-- What a launch needs: an image, and a directory of its own in the workspace. -/
structure IsLaunchable (i : TaskInstance) (c : Config) (explicit : Option String)
    (trajectory : String) : Prop where
  /-- The image is not blank. -/
  image : Text.isBlankText (resolveImage explicit c i trajectory) = false
  /-- The job works in something in the workspace. -/
  workplace : ∃ name, Layout.IsSegment name ∧ i.WorksIn c ("/workspace/" ++ name)

theorem repoDir_eq (i : TaskInstance) : i.repoDir = "/workspace/" ++ i.repoName := by
  have workspace : Layout.workspace ++ "/" = "/workspace/" := by decide
  rw [repoDir, Layout.repository, workspace]

theorem exists_worksIn_iff {c : Config} :
    (∃ name, Layout.IsSegment name ∧ i.WorksIn c ("/workspace/" ++ name)) ↔
      Layout.IsSegment i.repoName := by
  constructor
  · rintro ⟨name, segment, works⟩
    have same := works.eq
    rw [repoDir_eq, String.append_right_inj] at same
    exact same ▸ segment
  · exact fun segment => ⟨_, segment, repoDir_eq i ▸ worksIn_repoDir i c⟩

/-- Which instances a directory of instances accepts, where their jobs work, and which of them
    can be launched with a runner that has no image of its own: those with an image that is not
    blank, or with another one asked for, and a repository whose last part leads into the
    workspace. -/
theorem isLaunchable_iff {c : Config} (undecided : c.defaultImage = none) (i : TaskInstance) :
    ((∃ (d : Directory) (trajectory : String), d.instances trajectory = .ok i) ↔
        Text.isBlankText i.repo = false) ∧
      (∃ name, '/' ∉ name.toList ∧ (i.repo = name ∨ ∃ owner, i.repo = owner ++ "/" ++ name) ∧
        i.WorksIn c ("/workspace/" ++ name)) ∧
      ∀ (explicit : Option String) (trajectory : String),
        i.IsLaunchable c explicit trajectory ↔
          (∀ image ∈ i.image, Text.isBlankText image = true →
            ∃ s ∈ explicit, Text.isBlankText s = false) ∧
          ∀ name ∈ Layout.staying, i.repo ≠ name ∧ ∀ owner, i.repo ≠ owner ++ "/" ++ name := by
  refine ⟨Directory.exists_instances_iff, ⟨i.repoName, slash_not_mem_repoName i, ?_, ?_⟩, ?_⟩
  · exact (repoName_eq_iff (slash_not_mem_repoName i)).1 rfl
  · exact repoDir_eq i ▸ worksIn_repoDir i c
  · intro explicit trajectory
    rw [← isBlankText_resolveImage_eq_false_iff undecided explicit i trajectory,
      ← isSegment_repoName_iff, ← exists_worksIn_iff (c := c)]
    exact ⟨fun h => ⟨h.image, h.workplace⟩, fun ⟨image, workplace⟩ => ⟨image, workplace⟩⟩

/-- Both instances are accepted, and neither can be launched as it is: one has nothing behind
    the last slash, and the image of the other is a blank. -/
theorem isLaunchable_iff_sample :
    Runner.sample.config.defaultImage = none ∧
      (∃ (d : Directory) (trajectory : String),
        d.instances trajectory = .ok { repo := "django/" }) ∧
      (∃ (d : Directory) (trajectory : String),
        d.instances trajectory = .ok { repo := "django/django", image := some " " }) ∧
      ∀ trajectory,
        ¬IsLaunchable { repo := "django/" } Runner.sample.config none trajectory ∧
          ¬IsLaunchable { repo := "django/django", image := some " " } Runner.sample.config none
            trajectory ∧
          IsLaunchable { repo := "django/django", image := some " " } Runner.sample.config
            (some "python:3") trajectory := by
  have undecided : Runner.sample.config.defaultImage = none := rfl
  obtain ⟨accepted, -, slash⟩ := isLaunchable_iff undecided { repo := "django/" }
  obtain ⟨accepted', -, blank⟩ :=
    isLaunchable_iff undecided { repo := "django/django", image := some " " }
  refine ⟨undecided, accepted.2 (by decide), accepted'.2 (by decide), fun trajectory => ⟨?_, ?_, ?_⟩⟩
  · intro launchable
    obtain ⟨-, leads⟩ := (slash none trajectory).1 launchable
    exact (leads "" (by decide)).2 "django" (by decide)
  · intro launchable
    obtain ⟨image, -⟩ := (blank none trajectory).1 launchable
    obtain ⟨s, asked, -⟩ := image " " rfl (by decide)
    cases asked
  · refine (blank (some "python:3") trajectory).2 ⟨fun _ _ _ => ⟨_, rfl, by decide⟩, ?_⟩
    have segment : Layout.IsSegment (repoName { repo := "django/django", image := some " " }) :=
      ⟨by decide, by decide⟩
    exact isSegment_repoName_iff.1 segment

end TaskInstance

end ContainerJobs
