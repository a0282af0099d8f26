import ContainerJobs.Launch.Plan
import ContainerJobs.Proofs.Base64
import ContainerJobs.Proofs.Job.Record
import ContainerJobs.Proofs.Launch.Arguments
import ContainerJobs.Proofs.Text.Field

/-!
# Descriptors arrive

The text of a descriptor is Base64 and has no blank in it, so it may be surrounded by
blanks. A container finds it among its variables, and decodes the call that it was
launched for (`JobDescriptor.decode_encode_of_build`).
-/

namespace ContainerJobs

namespace JobDescriptor

/-- The node that the call resumes from has a 64-bit id. -/
def IsWord (node : Option Nat) : Prop := ∀ n ∈ node, n ≤ Text.maxUnsigned

variable {depth : Nat} {d : JobDescriptor}

theorem returns (h : IsWord d.node) : Reader.Returns reader toJson (depth + 2) d := by
  have args : Reader.Returns argsReader argsToJson (depth + 1) (d.key, d.node) := by
    refine isRecord_args.returns ?_
    simp only [argsFields, List.forall_mem_cons]
    exact ⟨Reader.Field.returns_required (Reader.returns_string _),
      Reader.Field.returns_required (Reader.returns_string _),
      Reader.Field.returns_optional (fun n hn => Reader.returns_unsigned (h n hn))
        (by simp [Json.nat, Json.int]), List.forall_mem_nil _⟩
  refine isRecord.returns ?_
  simp only [recordFields, List.forall_mem_cons]
  exact ⟨Reader.Field.returns_required (Reader.returns_string _),
    Reader.Field.returns_required (Reader.returns_string _),
    Reader.Field.returns_required args, List.forall_mem_nil _⟩

theorem ofBytes?_render (h : IsWord d.node) :
    reader.ofBytes? (Text.bytes d.toJson.render) = some d := by
  rw [Reader.ofBytes?, Text.chars_bytes]
  exact (returns h).ofText?_render

theorem toList_encode (d : JobDescriptor) :
    d.encode.toList = Base64.encode (Text.bytes d.toJson.render) :=
  String.toList_ofList

theorem isSymbol_of_mem_encode : ∀ c ∈ d.encode.toList, Base64.isSymbol c = true := by
  rw [toList_encode]
  exact Base64.isSymbol_of_mem_encode

theorem trim_encode {before after : String} (hb : Text.isBlankText before = true)
    (ha : Text.isBlankText after = true) : Text.trim (before ++ d.encode ++ after) = d.encode := by
  have plain : ∀ c ∈ d.encode.toList, Text.isBlank c = false :=
    fun c hc => Base64.isBlank_of_isSymbol (isSymbol_of_mem_encode c hc)
  rw [Text.trim, String.toList_append, String.toList_append,
    Text.trimmed_append (List.all_eq_true.1 hb) (List.all_eq_true.1 ha),
    Text.trimmed_eq_self plain, String.ofList_toList]

theorem decode_of_trim_eq {s : String} (h : IsWord d.node) (trimmed : Text.trim s = d.encode) :
    decode s = .ok d := by
  have ascii : ∀ c ∈ Base64.encode (Text.bytes d.toJson.render), c.toNat < 128 :=
    fun c hc => (Base64.toNat_of_isSymbol (Base64.isSymbol_of_mem_encode c hc)).2
  have content : Base64.decode (Text.bytes (Text.trim s)) = .ok (Text.bytes d.toJson.render) := by
    rw [trimmed, encode, Text.bytes_ofList ascii, Base64.decode_encode]
  simp only [decode, content, Except.mapError, bind, Except.bind, ofBytes?_render h]
  rfl

end JobDescriptor

theorem LaunchPlan.envValue?_descriptor {c : Config} {i : LaunchInput} {p : LaunchPlan}
    (h : build c i = .ok p) : p.envValue? "JOB_DESCRIPTOR" = some i.descriptor.encode := by
  rw [build] at h
  cases valid : i.function.validate with
  | error fault =>
    rw [valid] at h
    cases h
  | ok f =>
    rw [valid] at h
    cases h
    rfl

namespace JobDescriptor

/-- The text of a descriptor consists of symbols, and the descriptor is decoded from it,
    whatever blanks surround it. So a container that was launched by a plan decodes the
    call that the plan was made for. -/
theorem decode_encode_of_build (f : JobFunction) (key : JobKey) (node : Option Nat)
    (word : IsWord node) :
    (∀ before after : String, Text.isBlankText before = true → Text.isBlankText after = true →
      decode (before ++ (ofFunction f key node).encode ++ after) = .ok (ofFunction f key node)) ∧
    (∀ c ∈ (ofFunction f key node).encode.toList,
      c.isAlphanum = true ∨ c = '+' ∨ c = '/' ∨ c = '=') ∧
    ∀ (c : Config) (i : LaunchInput) (p : LaunchPlan),
      i.function = f → i.key = key → i.node = node → LaunchPlan.build c i = .ok p →
        ∃ text, p.envValue? "JOB_DESCRIPTOR" = some text ∧
          decode text = .ok { module := f.module, function := f.name, key, node } := by
  have decoded (before after : String) (hb : Text.isBlankText before = true)
      (ha : Text.isBlankText after = true) :=
    decode_of_trim_eq (d := ofFunction f key node) word (trim_encode hb ha)
  refine ⟨decoded, fun c hc => ?_, ?_⟩
  · have symbol := isSymbol_of_mem_encode c hc
    simpa [Base64.isSymbol, or_assoc] using symbol
  · rintro c i p rfl rfl rfl built
    have plain := decoded "" "" rfl rfl
    rw [String.append_empty, String.empty_append] at plain
    exact ⟨_, LaunchPlan.envValue?_descriptor built, plain⟩

/-- The input of a launch for ids with a control character and a letter outside of ASCII,
    which resumes from the last of all nodes. -/
def sampleInput : LaunchInput :=
  Runner.sample.launchInput
    { Runner.sampleRequest ⟨"le\x00ns", "run\u2028é"⟩ with node := some Text.maxUnsigned }
    { repo := "astro/astropy" }

theorem decode_encode_of_build_sampleInput :
    decode (" \t" ++ sampleInput.descriptor.encode ++ "\n") = .ok sampleInput.descriptor ∧
      (∀ c ∈ sampleInput.descriptor.encode.toList,
        c.isAlphanum = true ∨ c = '+' ∨ c = '/' ∨ c = '=') ∧
      ∃ p, LaunchPlan.build Runner.sample.config sampleInput = .ok p ∧
        ∃ text, p.envValue? "JOB_DESCRIPTOR" = some text ∧
          decode text = .ok sampleInput.descriptor := by
  have word : IsWord sampleInput.node := by
    rintro n ⟨rfl⟩
    exact Nat.le_refl _
  obtain ⟨decoded, symbols, arrives⟩ :=
    decode_encode_of_build sampleInput.function sampleInput.key sampleInput.node word
  obtain ⟨p, built, -⟩ :=
    LaunchPlan.build_of_valid Runner.sample.config (i := sampleInput) (by decide)
  exact ⟨decoded " \t" "\n" (by decide) (by decide), symbols, p, built,
    arrives Runner.sample.config sampleInput p rfl rfl rfl built⟩

end JobDescriptor

end ContainerJobs
