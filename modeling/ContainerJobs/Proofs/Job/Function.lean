import ContainerJobs.Job.Function
import ContainerJobs.Proofs.Job.Label

/-!
# References to functions

The grammar of references, said without their reader. An *identifier* is a letter or
underscore with letters, digits and underscores behind it (`IsIdentifier`), and a *path*
is made of identifiers with single dots between them (`IsPath`).

* `JobFunction.parse_eq_ok_iff`: what is read as a function is its whole reference, with
  blanks around it or none, and each valid function is read from its reference;
* `JobFunction.exists_parse_eq_ok_iff`: what is read at all is a path of two identifiers
  or more;
* `JobFunction.IsValid.qualifiedName_cases`: what a job is told is the reference of its
  function, unless the module is named after the function; then it is the module alone,
  which is the reference of a function in the module around it.
-/

namespace ContainerJobs

/-! ## The grammar -/

/-- A letter of the ASCII alphabet, or the underscore. -/
def IsInitial (c : Char) : Prop :=
  ('A' ≤ c ∧ c ≤ 'Z') ∨ ('a' ≤ c ∧ c ≤ 'z') ∨ c = '_'

/-- A character of identifiers: one that they begin with, or an ASCII digit. -/
def IsWordChar (c : Char) : Prop :=
  IsInitial c ∨ ('0' ≤ c ∧ c ≤ '9')

/-- A word that begins as identifiers do, and goes on with their characters. -/
inductive IsIdentifier : List Char → Prop
  | intro {c : Char} {r : List Char} :
      IsInitial c → (∀ d ∈ r, IsWordChar d) → IsIdentifier (c :: r)

/-- The text is made of some words with single dots between them, all identifiers. -/
structure IsPath (words : List (List Char)) (l : List Char) : Prop where
  /-- There is a word. -/
  nonempty : words ≠ []
  /-- The words are identifiers. -/
  identifiers : ∀ w ∈ words, IsIdentifier w
  /-- The text is made of them. -/
  joined : l = ['.'].intercalate words

variable {l : List Char} {words : List (List Char)} {c : Char}

theorem isInitial_iff : IsInitial c ↔ (c.isAlpha || c == '_') = true := by
  have upper : ('A' ≤ c ∧ c ≤ 'Z') ↔ c.isUpper = true := by
    change _ ↔ decide (c.val ≥ 'A'.val ∧ c.val ≤ 'Z'.val) = true
    rw [decide_eq_true_eq]
    rfl
  have lower : ('a' ≤ c ∧ c ≤ 'z') ↔ c.isLower = true := by
    change _ ↔ (c.val ≥ 'a'.val && c.val ≤ 'z'.val) = true
    rw [Bool.and_eq_true, decide_eq_true_eq, decide_eq_true_eq]
    rfl
  have letter : c.isAlpha = (c.isUpper || c.isLower) := rfl
  rw [IsInitial, upper, lower, letter, Bool.or_eq_true, Bool.or_eq_true, beq_iff_eq, or_assoc]

theorem isWordChar_iff : IsWordChar c ↔ (c.isAlphanum || c == '_') = true := by
  have digit : ('0' ≤ c ∧ c ≤ '9') ↔ c.isDigit = true := by
    change _ ↔ (c.val ≥ '0'.val && c.val ≤ '9'.val) = true
    rw [Bool.and_eq_true, decide_eq_true_eq, decide_eq_true_eq]
    rfl
  rw [IsWordChar, isInitial_iff, digit, Char.isAlphanum, ← Bool.or_eq_true, Bool.or_right_comm]

/-- The test for identifiers is right. -/
theorem isIdentifier_iff : isIdentifier l = true ↔ IsIdentifier l := by
  cases l with
  | nil => exact ⟨nofun, nofun⟩
  | cons c r =>
    rw [isIdentifier, Bool.and_eq_true, ← isInitial_iff, List.all_eq_true]
    simp only [← isWordChar_iff]
    exact ⟨fun ⟨first, rest⟩ => .intro first rest, fun ⟨first, rest⟩ => ⟨first, rest⟩⟩

theorem IsIdentifier.isWordChar (h : IsIdentifier l) : ∀ c ∈ l, IsWordChar c := by
  rcases h with ⟨first, rest⟩
  exact List.forall_mem_cons.2 ⟨.inl first, rest⟩

theorem not_isWordChar_dot : ¬ IsWordChar '.' := by
  rw [isWordChar_iff]
  decide

theorem IsIdentifier.dot_not_mem (h : IsIdentifier l) : '.' ∉ l := fun mem =>
  not_isWordChar_dot (h.isWordChar _ mem)

/-- A word character is no blank. -/
theorem IsWordChar.isBlank_eq_false (h : IsWordChar c) : Text.isBlank c = false := by
  rw [isWordChar_iff, Bool.or_eq_true, Label.isAlphanum_iff, beq_iff_eq] at h
  by_contra blank
  have bounds := Label.isBlank_iff (Bool.of_not_eq_false blank)
  rcases h with h | rfl
  · omega
  · revert bounds
    decide

/-- The words of a path are the pieces between its dots. -/
theorem isPath_iff : IsPath words l ↔ Text.split '.' l = words ∧ ∀ w ∈ words, IsIdentifier w := by
  rw [Text.split_eq_iff]
  constructor
  · rintro ⟨nonempty, identifiers, joined⟩
    exact ⟨⟨nonempty, fun w hw => (identifiers w hw).dot_not_mem, joined⟩, identifiers⟩
  · rintro ⟨⟨nonempty, -, joined⟩, identifiers⟩
    exact ⟨nonempty, identifiers, joined⟩

/-- A path has word characters and dots in it. -/
theorem IsPath.isWordChar_or (h : IsPath words l) : ∀ c ∈ l, IsWordChar c ∨ c = '.' := by
  intro c mem
  by_contra other
  rw [not_or] at other
  have absent := Text.not_mem_intercalate other.2 fun w hw hc =>
    other.1 ((h.identifiers w hw).isWordChar c hc)
  exact absent (h.joined ▸ mem)

theorem IsPath.trimmed_eq (h : IsPath words l) : Text.trimmed l = l := by
  refine Text.trimmed_eq_self fun c hc => ?_
  rcases h.isWordChar_or c hc with word | rfl
  · exact word.isBlank_eq_false
  · rfl

/-- A path goes on with a dot and one more identifier. -/
theorem IsPath.concat {w : List Char} (h : IsPath words l) (hw : IsIdentifier w) :
    IsPath (words ++ [w]) (l ++ '.' :: w) := by
  obtain ⟨rfl, identifiers⟩ := isPath_iff.1 h
  refine isPath_iff.2 ⟨?_, List.forall_mem_append.2 ⟨identifiers, List.forall_mem_singleton.2 hw⟩⟩
  rw [Text.split_append_cons, Text.split_of_not_mem hw.dot_not_mem]

/-- A path of two words or more is a path, a dot and one more identifier. -/
theorem IsPath.exists_eq_concat (h : IsPath words l) (two : 2 ≤ words.length) :
    ∃ words' a w, IsPath words' a ∧ IsIdentifier w ∧ l = a ++ '.' :: w := by
  obtain ⟨rfl, identifiers⟩ := isPath_iff.1 h
  rcases cut : Text.cutLast? '.' l with _ | ⟨a, w⟩
  · -- Without a dot there is one word only.
    rw [Text.split_of_not_mem (Text.cutLast?_eq_none_iff.1 cut)] at two
    simp at two
  · obtain ⟨rfl, free⟩ := Text.cutLast?_eq_some_iff.1 cut
    rw [Text.split_append_cons, Text.split_of_not_mem free, List.forall_mem_append,
      List.forall_mem_singleton] at identifiers
    exact ⟨_, a, w, isPath_iff.2 ⟨rfl, identifiers.1⟩, identifiers.2, rfl⟩

namespace JobFunction

variable {f g : JobFunction} {s : String}

/-! ## Valid functions -/

/-- The module is a path, and the name an identifier. -/
structure IsValid (f : JobFunction) : Prop where
  /-- The module is a path. -/
  module : ∃ words, IsPath words f.module.toList
  /-- The name is an identifier. -/
  name : IsIdentifier f.name.toList

/-- Whether a function is valid is judged by the grammar. -/
theorem validate_eq_ok_iff : f.validate = .ok g ↔ g = f ∧ f.IsValid := by
  have path : (Text.split '.' f.module.toList).all isIdentifier = true ↔
      ∃ words, IsPath words f.module.toList := by
    simp [isPath_iff, isIdentifier_iff]
  rw [validate]
  split
  · next bad =>
    refine ⟨nofun, fun ⟨_, valid⟩ => ?_⟩
    simp [isIdentifier_iff.2 valid.name] at bad
  · next name =>
    rw [Bool.not_eq_true, Bool.not_eq_false', isIdentifier_iff] at name
    split
    · next bad =>
      refine ⟨nofun, fun ⟨_, valid⟩ => ?_⟩
      simp [path.2 valid.module] at bad
    · next module =>
      rw [Bool.not_eq_true, Bool.not_eq_false', path] at module
      rw [Except.ok.injEq]
      exact ⟨fun h => ⟨h.symm, module, name⟩, fun h => h.1.symm⟩

theorem toList_reference (f : JobFunction) :
    f.reference.toList = f.module.toList ++ '.' :: f.name.toList := by
  simp [reference]

theorem IsValid.exists_isPath_reference (h : f.IsValid) :
    ∃ words, 2 ≤ words.length ∧ IsPath words f.reference.toList := by
  obtain ⟨words, path⟩ := h.module
  have some := List.length_pos_iff.2 path.nonempty
  refine ⟨words ++ [f.name.toList], ?_, toList_reference f ▸ path.concat h.name⟩
  rw [List.length_append, List.length_singleton]
  omega

/-! ## What is read -/

/-- A function is read from its reference, with or without blanks around it, and from
    nothing else. -/
theorem parse_eq_ok_iff : parse s = .ok f ↔ Text.trim s = f.reference ∧ f.IsValid := by
  rw [← String.toList_inj, Text.toList_trim, toList_reference, parse]
  constructor
  · intro h
    split at h
    · cases h
    · next cut =>
      obtain ⟨rfl, valid⟩ := validate_eq_ok_iff.1 h
      exact ⟨by simpa using (Text.cutLast?_eq_some_iff.1 cut).1, valid⟩
  · rintro ⟨text, valid⟩
    rw [text, Text.cutLast?_append valid.name.dot_not_mem]
    exact validate_eq_ok_iff.2 ⟨by simp, by simpa using valid⟩

/-- What is read as some function is a path of two words or more. -/
theorem exists_parse_eq_ok_iff :
    (∃ f, parse s = .ok f) ↔
      ∃ words, 2 ≤ words.length ∧ IsPath words (Text.trimmed s.toList) := by
  constructor
  · rintro ⟨f, read⟩
    obtain ⟨text, valid⟩ := parse_eq_ok_iff.1 read
    rw [← Text.toList_trim, text]
    exact valid.exists_isPath_reference
  · rintro ⟨words, two, path⟩
    obtain ⟨words', a, w, module, name, joined⟩ := path.exists_eq_concat two
    refine ⟨⟨.ofList a, .ofList w⟩, parse_eq_ok_iff.2 ⟨?_, ⟨words', ?_⟩, ?_⟩⟩
    · rw [← String.toList_inj, Text.toList_trim, toList_reference, joined, String.toList_ofList,
        String.toList_ofList]
    · rwa [String.toList_ofList]
    · rwa [String.toList_ofList]

/-! ## What a job is told -/

/-- The module is one named after the function, in the module `a`. -/
theorem isSuffixOf_iff : ('.' :: f.name.toList).isSuffixOf f.module.toList = true ↔
    ∃ a, f.module = a ++ "." ++ f.name := by
  rw [List.isSuffixOf_iff_suffix]
  constructor
  · rintro ⟨a, eq⟩
    refine ⟨.ofList a, ?_⟩
    rw [← String.toList_inj, ← eq]
    simp
  · rintro ⟨a, eq⟩
    refine ⟨a.toList, ?_⟩
    rw [eq]
    simp

/-- What a job is told of a valid function is the reference of a valid function: of one in
    the module around the module, if this is named after the function. -/
theorem IsValid.qualifiedName_cases (h : f.IsValid) :
    (∃ a, f.module = a ++ "." ++ f.name ∧ (⟨a, f.name⟩ : JobFunction).IsValid ∧
        f.qualifiedName = (⟨a, f.name⟩ : JobFunction).reference) ∨
      (¬ ∃ a, f.module = a ++ "." ++ f.name) ∧ f.qualifiedName = f.reference := by
  rw [qualifiedName]
  split
  · next named =>
    obtain ⟨a, eq⟩ := isSuffixOf_iff.1 named
    obtain ⟨words, path⟩ := h.module
    have around : IsPath (Text.split '.' a.toList) a.toList := by
      obtain ⟨rfl, identifiers⟩ := isPath_iff.1 path
      rw [eq, String.toList_append, String.toList_append, List.append_assoc] at identifiers
      change ∀ w ∈ Text.split '.' (a.toList ++ '.' :: f.name.toList), _ at identifiers
      rw [Text.split_append_cons, List.forall_mem_append] at identifiers
      exact isPath_iff.2 ⟨rfl, identifiers.1⟩
    exact .inl ⟨a, eq, ⟨⟨_, around⟩, h.name⟩, eq⟩
  · next other => exact .inr ⟨mt isSuffixOf_iff.2 other, rfl⟩

theorem parse_reference (h : f.IsValid) : parse f.reference = .ok f := by
  obtain ⟨words, -, path⟩ := h.exists_isPath_reference
  exact parse_eq_ok_iff.2 ⟨by rw [Text.trim, path.trimmed_eq, String.ofList_toList], h⟩

/-- A text is read as a function exactly if, but for blanks around it, it is two identifiers
    or more with single dots between them; then module and name with a dot between them
    are the text. What a job is told of a valid function has nothing but word characters
    and dots in it, and is read as a function again: as the same one, unless the module is
    named after the function, and then as one of the module around it. -/
theorem parse_accepts_paths :
    (∀ s, (∃ f, parse s = .ok f) ↔
        ∃ words, 2 ≤ words.length ∧ IsPath words (Text.trimmed s.toList)) ∧
      (∀ s f, parse s = .ok f → f.module ++ "." ++ f.name = Text.trim s) ∧
      ∀ f : JobFunction, f.validate = .ok f →
        (∀ c ∈ f.qualifiedName.toList, IsWordChar c ∨ c = '.') ∧
          (∃ g, parse f.qualifiedName = .ok g) ∧
          ((¬ ∃ a, f.module = a ++ "." ++ f.name) → parse f.qualifiedName = .ok f) ∧
          ∀ a, f.module = a ++ "." ++ f.name → parse f.qualifiedName = .ok ⟨a, f.name⟩ := by
  refine ⟨fun s => exists_parse_eq_ok_iff, fun s f read => (parse_eq_ok_iff.1 read).1.symm, ?_⟩
  intro f passes
  rcases (validate_eq_ok_iff.1 passes).2.qualifiedName_cases with
    ⟨a, named, valid, told⟩ | ⟨other, told⟩
  · obtain ⟨words, -, path⟩ := valid.exists_isPath_reference
    rw [told]
    refine ⟨path.isWordChar_or, ⟨_, parse_reference valid⟩, fun other => absurd ⟨a, named⟩ other,
      fun b named' => ?_⟩
    obtain rfl : a = b := by
      rw [named, String.append_left_inj, String.append_left_inj] at named'
      exact named'
    exact parse_reference valid
  · have valid := (validate_eq_ok_iff.1 passes).2
    obtain ⟨words, -, path⟩ := valid.exists_isPath_reference
    rw [told]
    exact ⟨path.isWordChar_or, ⟨_, parse_reference valid⟩, fun _ => parse_reference valid,
      fun a named => absurd ⟨a, named⟩ other⟩

/-- A reference with blanks around it, a function that is read back from what a job is told
    of it, and one that is not, since its module has its name. -/
theorem parse_accepts_paths_sample :
    (∃ f, parse "\u2003agents.jobs.run_2\n" = .ok f ∧
      f.module ++ "." ++ f.name = "agents.jobs.run_2") ∧
    (⟨"agents.rerun", "run"⟩ : JobFunction).validate = .ok ⟨"agents.rerun", "run"⟩ ∧
    (¬ ∃ a, "agents.rerun" = a ++ "." ++ "run") ∧
    parse (⟨"agents.rerun", "run"⟩ : JobFunction).qualifiedName = .ok ⟨"agents.rerun", "run"⟩ ∧
    (⟨"agents.run", "run"⟩ : JobFunction).validate = .ok ⟨"agents.run", "run"⟩ ∧
    parse (⟨"agents.run", "run"⟩ : JobFunction).qualifiedName = .ok ⟨"agents", "run"⟩ := by
  obtain ⟨-, joined, told⟩ := parse_accepts_paths
  have read : parse "\u2003agents.jobs.run_2\n" = .ok ⟨"agents.jobs", "run_2"⟩ := by decide
  have plain : (⟨"agents.rerun", "run"⟩ : JobFunction).validate = .ok ⟨"agents.rerun", "run"⟩ := by
    decide
  have other : ¬ ∃ a, "agents.rerun" = a ++ "." ++ "run" := fun named =>
    absurd (isSuffixOf_iff (f := ⟨"agents.rerun", "run"⟩).2 named) (by decide)
  have named : (⟨"agents.run", "run"⟩ : JobFunction).validate = .ok ⟨"agents.run", "run"⟩ := by
    decide
  exact ⟨⟨_, read, (joined _ _ read).trans (by decide)⟩, plain, other,
    (told _ plain).2.2.1 other, named, (told _ named).2.2.2 "agents" rfl⟩

end JobFunction

end ContainerJobs
