import ContainerJobs.Proofs.Launch.Variables
import ContainerJobs.Proofs.Shell.Lexeme

/-!
# What a shell reads as the entrypoint

An entrypoint is a row of items with single blanks between them
(`Entrypoint.toList_entrypoint`): plain words, quoted words, the sign between two steps, and one
word with the time in it. Each item says its own thing to a shell whatever the others
are (`Entrypoint.Item.reads`), so the shell reads the steps of the configuration, in which what
comes from outside is one word each (`lexemes_entrypoint`).
-/

namespace ContainerJobs

open Shell

namespace Entrypoint

/-! ## The word with the time -/

/-- The word that tells when the job starts, as it is written. -/
def stamp : List Char :=
  '"' :: ("Starting job at ".toList ++
    '$' :: '(' :: ("date".toList ++
      ' ' :: ('\'' :: ("+%Y-%m-%d %H:%M:%S".toList.flatMap quoteChar ++ ['\'']) ++ [')'])) ++ ['"'])

/-- The parts of this word: a text, and the output of a fixed command. -/
def stampParts : List Part :=
  "Starting job at ".toList.map .char ++
    [.output [.text "date", .text "+%Y-%m-%d %H:%M:%S", .sign .closing]]

theorem adds_stamp : Adds false stamp stampParts := by
  have text : Adds true "Starting job at ".toList ("Starting job at ".toList.map .char) :=
    adds_chars (by decide)
  have date : Adds false "date".toList ("date".toList.map .char) := adds_plain (by decide)
  exact (text.append (date.substitution ⟨'d', _, rfl, by decide, by decide⟩ (adds_single _)
    ⟨'\'', _, rfl, by decide, by decide⟩)).double

/-! ## The items of an entrypoint -/

/-- A word or a sign of an entrypoint. -/
inductive Item where
  /-- A word that is written as it is. -/
  | plain (s : String)
  /-- A word that is quoted. -/
  | quoted (s : String)
  /-- The word with the time. -/
  | stamp
  /-- The sign behind a step. -/
  | both

namespace Item

/-- The item as it is written. -/
def written : Item → List Char
  | plain s => s.toList
  | quoted s => (quote s).toList
  | stamp => Entrypoint.stamp
  | both => ['&', '&']

/-- The item as it is read. -/
def read : Item → Lexeme
  | plain s => .text s
  | quoted s => .text s
  | stamp => .word stampParts
  | both => .sign .both

/-- A word that is written as it is has nothing but plain characters. -/
def isSound : Item → Bool
  | plain s => !s.toList.isEmpty && s.toList.all isPlain
  | _ => true

theorem reads {x : Item} (h : x.isSound = true) : Reads x.written x.read := by
  cases x with
  | plain s =>
    simp only [isSound, Bool.and_eq_true] at h
    exact (adds_plain h.2).reads (begins_plain (by simpa using h.1) h.2)
  | quoted s =>
    rw [written, quote, String.toList_ofList]
    exact (adds_quoted s.toList).reads (begins_quoted s.toList)
  | stamp => exact adds_stamp.reads ⟨'"', _, rfl, by decide, by decide⟩
  | both => exact reads_both

end Item

/-- The items of the update. -/
def updateItems (c : Config) : List Item :=
  [.plain Layout.updateScript, .plain "--branch", .quoted c.updateBranch, .both]

/-- The items of all other steps, but for the last word. -/
def jobItems (i : TaskInstance) : List Item :=
  [.plain "cd", .quoted i.repoDir, .both,
    .plain "git", .plain "checkout", .quoted (i.baseCommit.getD "HEAD"), .both,
    .plain "pip", .plain "install", .plain "--quiet", .plain "uv", .both,
    .plain "cd", .plain Layout.source, .both, .plain "uv", .plain "sync", .both,
    .plain "echo", .stamp, .both, .plain "uv", .plain "run", .plain "python", .plain "-m"]

/-- The items of an entrypoint, but for the last word. -/
def items (c : Config) (i : TaskInstance) : List Item :=
  (if c.updateOnStart && c.sourceDir.isNone then updateItems c else []) ++ jobItems i

theorem toList_entrypoint (c : Config) (i : TaskInstance) : (entrypoint c i).toList =
    (items c i).flatMap (fun x => x.written ++ [' ']) ++
      quoted c.dispatchModule.toList := by
  have job : " && ".toList.intercalate (List.map String.toList
      ["cd " ++ Shell.quote i.repoDir ++ " && git checkout " ++
          Shell.quote (i.baseCommit.getD "HEAD"),
        "pip install --quiet uv && cd " ++ Layout.source ++ " && uv sync",
        "echo \"Starting job at $(date '+%Y-%m-%d %H:%M:%S')\"",
        "uv run python -m " ++ Shell.quote c.dispatchModule]) =
      (jobItems i).flatMap (fun x => x.written ++ [' ']) ++ quoted c.dispatchModule.toList := by
    simp [List.intercalate_cons_cons, jobItems, Item.written, Shell.quote, Layout.source, stamp,
      quoteChar]
  rw [entrypoint, String.toList_intercalate, entrypointSteps, items]
  split
  · rw [List.singleton_append, List.map_cons, List.map_cons, List.intercalate_cons_cons,
      ← List.map_cons, job]
    simp [updateItems, Item.written, Shell.quote, Layout.updateScript]
  · rw [List.nil_append, job, List.nil_append]

theorem isSound_items (c : Config) (i : TaskInstance) :
    ∀ x ∈ items c i, x.isSound = true := by
  rw [← List.all_eq_true, items, List.all_append, Bool.and_eq_true]
  refine ⟨?_, rfl⟩
  split <;> rfl

/-- A shell reads the items one by one, and then the last word. -/
theorem lexemes_items (c : Config) (i : TaskInstance) :
    lexemes (tokens (entrypoint c i).toList) =
      (items c i).map Item.read ++ [.text c.dispatchModule, .sign .endOfFile] := by
  have read := lexemes_tokens ((items c i).map fun x => (x.written, x.read))
    (fun x hx => by
      obtain ⟨y, hy, rfl⟩ := List.mem_map.1 hx
      exact Item.reads (isSound_items c i y hy))
    (adds_quoted c.dispatchModule.toList) (begins_quoted c.dispatchModule.toList)
  rw [List.flatMap_map, List.map_map] at read
  rw [toList_entrypoint]
  exact read

end Entrypoint

/-! ## The variables -/

namespace LaunchInput

variable (c : Config) (i : LaunchInput) {value : String}

/-- Both variables of the repository have this value and no other. -/
theorem mem_env_repo :
    (("REPO_DIR", value) ∈ i.env c ↔ value = i.task.repoDir) ∧
      (("REPO_PATH", value) ∈ i.env c ↔ value = i.task.repoDir) := by
  have own {name : String} (h : (name, i.task.repoDir) ∈ i.fixedEnv) :
      (name, i.task.repoDir) ∈ i.ownEnv c :=
    List.mem_append_left _ (List.mem_append_left _ h)
  exact ⟨mem_env_iff (own (by simp [fixedEnv])), mem_env_iff (own (by simp [fixedEnv]))⟩

end LaunchInput

/-! ## What is read -/

/-- What a shell reads as an entrypoint. -/
def entrypointLexemes (c : Config) (i : TaskInstance) : List Lexeme :=
  (if c.updateOnStart && c.sourceDir.isNone then
    [.text Layout.updateScript, .text "--branch", .text c.updateBranch, .sign .both]
  else []) ++
    [.text "cd", .text i.repoDir, .sign .both,
      .text "git", .text "checkout", .text (i.baseCommit.getD "HEAD"), .sign .both,
      .text "pip", .text "install", .text "--quiet", .text "uv", .sign .both,
      .text "cd", .text Layout.source, .sign .both, .text "uv", .text "sync", .sign .both,
      .text "echo", .word Entrypoint.stampParts, .sign .both,
      .text "uv", .text "run", .text "python", .text "-m", .text c.dispatchModule,
      .sign .endOfFile]

/-- Whatever comes from outside is exactly one word of an entrypoint, and stands where
    it belongs; the rest does not depend on it. The directory is the one that the
    variables of the job name. -/
theorem lexemes_entrypoint (c : Config) (i : TaskInstance) :
    lexemes (tokens (entrypoint c i).toList) = entrypointLexemes c i ∧
      (∀ (input : LaunchInput) (v : String),
        (("REPO_DIR", v) ∈ { input with task := i }.env c ↔ v = i.repoDir) ∧
          (("REPO_PATH", v) ∈ { input with task := i }.env c ↔ v = i.repoDir)) ∧
      ∀ s : String, lexemes (tokens (quote s).toList) = [.text s, .sign .endOfFile] := by
  refine ⟨?_, fun input _ => LaunchInput.mem_env_repo c { input with task := i }, lexemes_quote⟩
  have read := lexemes_tokens ((Entrypoint.items c i).map fun x => (x.written, x.read))
    (fun x hx => by
      obtain ⟨y, hy, rfl⟩ := List.mem_map.1 hx
      exact Entrypoint.Item.reads (Entrypoint.isSound_items c i y hy))
    (adds_quoted c.dispatchModule.toList) (begins_quoted c.dispatchModule.toList)
  rw [Entrypoint.toList_entrypoint]
  rw [List.flatMap_map] at read
  rw [read, Entrypoint.items, entrypointLexemes]
  split <;> rfl

end ContainerJobs
