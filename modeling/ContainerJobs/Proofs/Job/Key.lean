import ContainerJobs.Job.Key
import ContainerJobs.Proofs.Job.Label

/-!
# What names of job containers look like

The name that a key has under any stem is made of legal characters
(`isLegal_of_mem_resourceName`), begins with a letter or digit, and has a hyphen
in it. So a name is never taken for an option of a command or for the beginning
of an engine id, and it passes through every listing as it is.
-/

namespace ContainerJobs.JobKey

theorem isLegal_digitChar {n : Nat} (h : n < 16) : Label.isLegal n.digitChar = true := by
  have all : ∀ n < 16, Label.isLegal n.digitChar = true := by decide
  exact all n h

theorem isLegal_of_mem_digest {k : JobKey} {c : Char} (h : c ∈ k.digest) :
    Label.isLegal c = true := by
  obtain ⟨b, -, hb⟩ := List.mem_flatMap.1 (List.mem_of_mem_take h)
  have := b.toNat_lt
  simp only [List.mem_cons, List.not_mem_nil, or_false] at hb
  rcases hb with rfl | rfl <;> exact isLegal_digitChar (by omega)

variable (k : JobKey) (stem : String)

theorem toList_resourceName : (k.resourceName stem).toList =
    Label.segment 24 stem ++ '-' :: Label.segment 40 k.project ++
      '-' :: Label.segment 40 k.trajectory ++ '-' :: k.digest := by
  rw [resourceName, String.toList_ofList]

variable {k stem} in
theorem isLegal_of_mem_resourceName {c : Char} (h : c ∈ (k.resourceName stem).toList) :
    Label.isLegal c = true := by
  simp only [toList_resourceName, List.mem_append, List.mem_cons] at h
  rcases h with ((h | rfl | h) | rfl | h) | rfl | h
  any_goals rfl
  any_goals exact Label.isLegal_of_mem_segment h
  exact isLegal_of_mem_digest h

theorem resourceName_eq_cons :
    ∃ c r, (k.resourceName stem).toList = c :: r ∧ c.isAlphanum = true := by
  obtain ⟨c, r, hr, hc⟩ := Label.clip_eq_cons 24 (Label.sanitized stem.toList)
  exact ⟨c, _, by rw [toList_resourceName, Label.segment, hr]; rfl, hc⟩

theorem hyphen_mem_resourceName : '-' ∈ (k.resourceName stem).toList := by
  simp [toList_resourceName]

theorem resourceName_ne_empty : k.resourceName stem ≠ "" := by
  obtain ⟨c, r, hr, -⟩ := resourceName_eq_cons k stem
  rintro h
  simp [h] at hr

theorem isValue_resourceName : Label.IsValue (k.resourceName stem) :=
  ⟨fun _ => isLegal_of_mem_resourceName, resourceName_ne_empty k stem⟩

/-- A name does not look like an option. -/
theorem head?_resourceName_ne_hyphen : (k.resourceName stem).toList.head? ≠ some '-' := by
  obtain ⟨c, r, hr, hc⟩ := resourceName_eq_cons k stem
  rw [hr]
  rintro h
  rw [Option.some.inj h] at hc
  exact absurd hc (by decide)

end ContainerJobs.JobKey
