import ContainerJobs.Proofs.Job.Key

/-!
# When two keys have one name

The legible part of a name is lossy, so keys are told apart by the digest at its
end, and the digest by what is hashed: both ids with a zero byte between them. Two
keys share a name exactly if their legible parts agree and either the hash fails,
which is a collision proper, or what is hashed is the same although the keys are
not (`resourceName_collisions`). The latter takes a project id with a zero character
in it (`eq_of_digestInput_eq`), which can be read as the byte between the ids
(`digestInput_eq_iff`), and it does happen: a zero character moved from the end of
one id to the start of the other changes no name.
-/

namespace ContainerJobs

namespace Text

theorem bytes_injective : Function.Injective bytes := fun s t h =>
  Option.some.inj (by rw [← ofBytes?_bytes s, h, ofBytes?_bytes])

@[simp] theorem bytes_append (s t : String) : bytes (s ++ t) = bytes s ++ bytes t := by
  simp [bytes]

end Text

namespace Sha256

theorem length_digest (m : List UInt8) : (digest m).length = 32 := rfl

theorem length_hex (l : List UInt8) : (hex l).length = 2 * l.length := by
  simp [hex, List.length_flatMap, Nat.mul_comm]

end Sha256

namespace JobKey

/-! ## What is hashed -/

/-- The zero character, which is also the byte between the ids. -/
def zero : String := "\x00"

theorem digestInput_eq_bytes (k : JobKey) :
    k.digestInput = Text.bytes (k.project ++ zero ++ k.trajectory) := by
  have byte : Text.bytes zero = [0] := by decide
  simp [digestInput, byte]

/-- A zero character within the project id of `k` stands between the ids of `k'`. -/
def IsShiftOf (k k' : JobKey) : Prop :=
  ∃ part, k.project = k'.project ++ zero ++ part ∧ k'.trajectory = part ++ zero ++ k.trajectory

theorem IsShiftOf.zero_mem {k k' : JobKey} (h : k.IsShiftOf k') :
    '\x00' ∈ k.project.toList ∧ '\x00' ∈ k'.trajectory.toList := by
  obtain ⟨part, project, trajectory⟩ := h
  rw [project, trajectory]
  simp [zero]

theorem IsShiftOf.digestInput_eq {k k' : JobKey} (h : k.IsShiftOf k') :
    k.digestInput = k'.digestInput := by
  obtain ⟨part, project, trajectory⟩ := h
  rw [digestInput_eq_bytes, digestInput_eq_bytes, project, trajectory]
  simp only [String.append_assoc]

/-- A text with a zero character in front of each of two rests is cut in one place,
    or a zero character stands between the two cuts. -/
theorem shift_of_append_eq {k k' : JobKey} {gap : List Char}
    (project : k'.project.toList = k.project.toList ++ gap)
    (rest : '\x00' :: k.trajectory.toList = gap ++ '\x00' :: k'.trajectory.toList) :
    k = k' ∨ k'.IsShiftOf k := by
  cases gap with
  | nil =>
    refine .inl ?_
    obtain ⟨p, t⟩ := k
    obtain ⟨p', t'⟩ := k'
    simp_all [String.toList_inj]
  | cons c part =>
    obtain ⟨rfl, trajectory⟩ := List.cons.inj rest
    refine .inr ⟨String.ofList part, ?_, ?_⟩
    · rw [← String.toList_inj, project]
      simp [zero]
    · rw [← String.toList_inj, trajectory]
      simp [zero]

/-- What is hashed tells keys apart, up to a zero character that is part of an id. -/
theorem digestInput_eq_iff {k k' : JobKey} :
    k.digestInput = k'.digestInput ↔ k = k' ∨ k.IsShiftOf k' ∨ k'.IsShiftOf k := by
  constructor
  · intro h
    rw [digestInput_eq_bytes, digestInput_eq_bytes] at h
    have texts := congrArg String.toList (Text.bytes_injective h)
    simp only [String.toList_append, zero, List.append_assoc] at texts
    -- The project id of one key is the beginning of that of the other.
    obtain ⟨gap, project, rest⟩ | ⟨gap, project, rest⟩ := List.append_eq_append_iff.1 texts
    · exact (shift_of_append_eq project rest).imp_right .inr
    · exact (shift_of_append_eq project rest).elim (fun h => .inl h.symm) fun h => .inr (.inl h)
  · rintro (rfl | shift | shift)
    · rfl
    · exact shift.digestInput_eq
    · exact shift.digestInput_eq.symm

/-- What is hashed tells keys apart whose project ids have no zero character. -/
theorem eq_of_digestInput_eq {k k' : JobKey} (h : k.digestInput = k'.digestInput)
    (free : '\x00' ∉ k.project.toList) (free' : '\x00' ∉ k'.project.toList) : k = k' := by
  obtain equal | shift | shift := digestInput_eq_iff.1 h
  · exact equal
  · exact absurd shift.zero_mem.1 free
  · exact absurd shift.zero_mem.1 free'

/-! ## Names -/

variable (stem : String) (k : JobKey)

/-- The part of a name that can be read. -/
def legible : List Char :=
  Label.segment 24 stem ++ '-' :: Label.segment 40 k.project ++
    '-' :: Label.segment 40 k.trajectory

theorem length_digest : k.digest.length = digestLength := by
  rw [digest, List.length_take, Sha256.length_hex, Sha256.length_digest]
  rfl

variable {k} in
theorem digest_congr {k' : JobKey} (h : k.digestInput = k'.digestInput) :
    k.digest = k'.digest := by
  rw [digest, h, ← digest]

theorem resourceName_eq_iff (k' : JobKey) : k.resourceName stem = k'.resourceName stem ↔
    k.legible stem = k'.legible stem ∧ k.digest = k'.digest := by
  have parts (k : JobKey) : (k.resourceName stem).toList = k.legible stem ++ '-' :: k.digest := by
    rw [toList_resourceName, legible]
  rw [← String.toList_inj, parts, parts]
  constructor
  · -- All digests are equally long, so the names are cut in the same place.
    intro h
    obtain ⟨legible, digest⟩ := List.append_inj' h (by simp [length_digest])
    exact ⟨legible, (List.cons.inj digest).2⟩
  · rintro ⟨legible, digest⟩
    rw [legible, digest]

/-- A zero character at the end of one id and at the start of the other. -/
theorem legible_zero (p t : String) :
    legible stem ⟨p ++ zero, t⟩ = legible stem ⟨p, zero ++ t⟩ := by
  have notAlphanum : (Label.charOf '\x00').isAlphanum = false := by decide
  simp only [legible, Label.segment, String.toList_append, zero]
  rw [show "\x00".toList = ['\x00'] from by decide, Label.sanitized_concat notAlphanum,
    List.singleton_append, Label.sanitized_cons notAlphanum]

/-- When keys share a name. Apart from true collisions of the hash there are those
    where a zero character that is part of an id is taken for the one between the
    ids, and such a pair of keys can be made from any ids. Where project ids have no
    zero character, there are none but true collisions. -/
theorem resourceName_collisions (stem : String) (k k' : JobKey) :
    (k.resourceName stem = k'.resourceName stem ↔ k.legible stem = k'.legible stem ∧
      (k = k' ∨ (k.digestInput ≠ k'.digestInput ∧ k.digest = k'.digest) ∨
        k.IsShiftOf k' ∨ k'.IsShiftOf k)) ∧
      (⟨k.project ++ zero, k.trajectory⟩ : JobKey) ≠ ⟨k.project, zero ++ k.trajectory⟩ ∧
      resourceName stem ⟨k.project ++ zero, k.trajectory⟩ =
        resourceName stem ⟨k.project, zero ++ k.trajectory⟩ ∧
      ('\x00' ∉ k.project.toList → '\x00' ∉ k'.project.toList → k ≠ k' →
        k.resourceName stem = k'.resourceName stem →
          k.digestInput ≠ k'.digestInput ∧ k.digest = k'.digest) := by
  refine ⟨?_, ?_, ?_, fun free free' distinct same => ?_⟩
  · rw [resourceName_eq_iff]
    refine and_congr_right fun _ => ⟨fun same => ?_, ?_⟩
    · by_cases inputs : k.digestInput = k'.digestInput
      · exact (digestInput_eq_iff.1 inputs).imp_right .inr
      · exact .inr (.inl ⟨inputs, same⟩)
    · rintro (equal | ⟨-, same⟩ | shift)
      · exact digest_congr (digestInput_eq_iff.2 (.inl equal))
      · exact same
      · exact digest_congr (digestInput_eq_iff.2 (.inr shift))
  · intro h
    have longer := congrArg (fun k : JobKey => k.project.toList.length) h
    simp [zero] at longer
  · have shift : IsShiftOf ⟨k.project ++ zero, k.trajectory⟩ ⟨k.project, zero ++ k.trajectory⟩ :=
      ⟨"", by simp, by simp⟩
    rw [resourceName_eq_iff]
    exact ⟨legible_zero stem _ _, digest_congr shift.digestInput_eq⟩
  · exact ⟨fun inputs => distinct (eq_of_digestInput_eq inputs free free'),
      ((resourceName_eq_iff stem k k').1 same).2⟩

end JobKey

end ContainerJobs
