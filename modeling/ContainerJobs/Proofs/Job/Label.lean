import ContainerJobs.Job.Label
import ContainerJobs.Proofs.Text.Field

/-!
# What label values look like

Every label value is made of *legal* characters, lower-case letters, digits, `.`,
`_` and `-`, none of which is a blank or a separator of any format that carries
labels. A value begins with a letter or digit. Blanks around a text make no
difference to its label (`sanitize_trim`), and a blank text has the label `x`.
-/

namespace ContainerJobs.Label

/-- The characters of label values and of names. -/
def isLegal (c : Char) : Bool :=
  c.isLower || c.isDigit || c == '.' || c == '_' || c == '-'

/-! ## Characters -/

theorem isAlphanum_iff {c : Char} : c.isAlphanum = true ↔
    (65 ≤ c.toNat ∧ c.toNat ≤ 90) ∨ (97 ≤ c.toNat ∧ c.toNat ≤ 122) ∨
      (48 ≤ c.toNat ∧ c.toNat ≤ 57) := by
  change ((decide (c.val ≥ 'A'.val ∧ c.val ≤ 'Z'.val) ||
    (c.val ≥ 'a'.val && c.val ≤ 'z'.val)) || (c.val ≥ '0'.val && c.val ≤ '9'.val)) = true ↔ _
  simp [UInt32.le_iff_toNat_le, or_assoc]

theorem isLegal_iff {c : Char} : isLegal c = true ↔
    (97 ≤ c.toNat ∧ c.toNat ≤ 122) ∨ (48 ≤ c.toNat ∧ c.toNat ≤ 57) ∨ c = '.' ∨ c = '_' ∨
      c = '-' := by
  change ((c.val ≥ 'a'.val && c.val ≤ 'z'.val) || (c.val ≥ '0'.val && c.val ≤ '9'.val) ||
    c == '.' || c == '_' || c == '-') = true ↔ _
  simp [UInt32.le_iff_toNat_le, or_assoc]

theorem toNat_toLower (c : Char) :
    c.toLower.toNat = if 65 ≤ c.toNat ∧ c.toNat ≤ 90 then c.toNat + 32 else c.toNat := by
  have hc : (c.val ≥ 'A'.val ∧ c.val ≤ 'Z'.val) ↔ 65 ≤ c.toNat ∧ c.toNat ≤ 90 := by
    simp [UInt32.le_iff_toNat_le]
  delta Char.toLower
  by_cases h : c.val ≥ 'A'.val ∧ c.val ≤ 'Z'.val
  · rw [dif_pos h, if_pos (hc.1 h)]
    have bounds := hc.1 h
    change (c.val.toNat + 32) % 2 ^ 32 = _
    rw [Char.toNat_val]
    omega
  · rw [dif_neg h, if_neg (mt hc.2 h)]

theorem toNat_of_isLegal {c : Char} (h : isLegal c = true) :
    45 ≤ c.toNat ∧ c.toNat ≤ 122 ∧ c.toNat ≠ 61 := by
  rcases isLegal_iff.1 h with h | h | rfl | rfl | rfl
  · omega
  · omega
  all_goals decide

theorem isBlank_iff {c : Char} : Text.isBlank c = true → c.toNat < 33 ∨ 128 ≤ c.toNat := by
  simp only [Text.isBlank, Bool.or_eq_true, Bool.and_eq_true, decide_eq_true_eq, beq_iff_eq]
  omega

theorem isBlank_of_isLegal {c : Char} (h : isLegal c = true) : Text.isBlank c = false := by
  have bounds := toNat_of_isLegal h
  by_contra hb
  have := isBlank_iff (Bool.of_not_eq_false hb)
  omega

theorem not_mem_of_isLegal {l : List Char} (h : ∀ c ∈ l, isLegal c = true) {d : Char}
    (hd : isLegal d = false) : d ∉ l := fun hm => by
  simp [h d hm] at hd

theorem trimmed_of_isLegal {l : List Char} (h : ∀ c ∈ l, isLegal c = true) :
    Text.trimmed l = l :=
  Text.trimmed_eq_self fun c hc => isBlank_of_isLegal (h c hc)

theorem isLegal_charOf (c : Char) : isLegal (charOf c) = true := by
  simp only [charOf]
  split
  · next h =>
    have hl := toNat_toLower c
    rw [isLegal_iff]
    simp only [Bool.or_eq_true, isAlphanum_iff, beq_iff_eq] at h
    rcases h with ((h | h) | h) | h
    · split at hl <;> omega
    · exact .inr (.inr (.inl h))
    · exact .inr (.inr (.inr (.inl h)))
    · exact .inr (.inr (.inr (.inr h)))
  · rfl

/-- A blank becomes a character that does not stay at the ends of a label. -/
theorem isAlphanum_charOf_of_isBlank {c : Char} (h : Text.isBlank c = true) :
    (charOf c).isAlphanum = false := by
  have hc := isBlank_iff h
  have hl := toNat_toLower c
  rw [if_neg (by omega)] at hl
  have hne {d : Char} (hd : 33 ≤ d.toNat ∧ d.toNat < 128) : c.toLower ≠ d := by
    rintro rfl
    omega
  have halnum : c.toLower.isAlphanum = false := by
    by_contra ha
    have := isAlphanum_iff.1 (Bool.of_not_eq_false ha)
    omega
  simp only [charOf]
  rw [if_neg]
  · rfl
  · simp [halnum, hne (d := '.') (by decide), hne (d := '_') (by decide),
      hne (d := '-') (by decide)]

/-! ## Clipped texts -/

variable {max : Nat} {l : List Char}

theorem mem_of_mem_dropEnd {c : Char} (h : c ∈ dropEnd l) : c ∈ l :=
  (List.rdropWhile_prefix _ l).subset h

/-- What is left of a text that begins with a letter or digit begins with it. -/
theorem dropEnd_cons {c : Char} (h : c.isAlphanum = true) : ∃ r, dropEnd (c :: l) = c :: r := by
  have hne : dropEnd (c :: l) ≠ [] := by
    rw [dropEnd, Ne, List.reverse_eq_nil_iff, List.dropWhile_eq_nil_iff]
    exact fun all => by simpa [h] using all c (by simp)
  obtain ⟨t, ht⟩ := List.rdropWhile_prefix (fun c : Char => !c.isAlphanum) (c :: l)
  obtain ⟨d, r, hr⟩ := List.exists_cons_of_ne_nil hne
  rw [show (c :: l).rdropWhile (fun c => !c.isAlphanum) = d :: r from hr, List.cons_append,
    List.cons.injEq] at ht
  exact ⟨r, by rw [hr, ht.1]⟩

theorem mem_clip {c : Char} (h : c ∈ clip max l) : c ∈ l ∨ c = 'x' := by
  simp only [clip] at h
  split at h
  · exact .inr (by simpa using h)
  · exact .inl ((List.dropWhile_suffix _).subset
      (mem_of_mem_dropEnd (List.mem_of_mem_take (mem_of_mem_dropEnd h))))

theorem clip_eq_cons (max : Nat) (l : List Char) :
    ∃ c r, clip max l = c :: r ∧ c.isAlphanum = true := by
  simp only [clip]
  split
  · exact ⟨'x', [], rfl, rfl⟩
  · next h =>
    cases hl : l.dropWhile fun c => !c.isAlphanum with
    | nil => simp [hl, dropEnd] at h
    | cons c r =>
      have hc : c.isAlphanum = true := by
        have := List.head_dropWhile_not (fun c : Char => !c.isAlphanum) (l := l) (by simp [hl])
        simpa [hl] using this
      obtain ⟨r₁, h₁⟩ := dropEnd_cons (l := r) hc
      -- The first letter or digit stays through both cuts, unless no room is left for it.
      cases max with
      | zero => simp [dropEnd] at h
      | succ max =>
        obtain ⟨r₂, h₂⟩ := dropEnd_cons (l := r₁.take max) hc
        exact ⟨c, r₂, by rw [h₁, List.take_succ_cons, h₂], hc⟩

/-! ## Label values -/

theorem isLegal_of_mem_sanitized {c : Char} (h : c ∈ sanitized l) : isLegal c = true := by
  rcases mem_clip h with h | rfl
  · obtain ⟨d, -, rfl⟩ := List.mem_map.1 h
    exact isLegal_charOf d
  · rfl

theorem isLegal_of_mem_segment {s : String} {c : Char} (h : c ∈ segment max s) :
    isLegal c = true := by
  rcases mem_clip h with h | rfl
  · exact isLegal_of_mem_sanitized h
  · rfl

/-- A character at the start that is no letter or digit makes no difference to a
    label. -/
theorem sanitized_cons {c : Char} (h : (charOf c).isAlphanum = false) (l : List Char) :
    sanitized (c :: l) = sanitized l := by
  rw [sanitized, sanitized, List.map_cons, clip, clip, List.dropWhile_cons_of_pos (by simp [h])]

/-- Nor does one at the end. -/
theorem sanitized_concat {c : Char} (h : (charOf c).isAlphanum = false) (l : List Char) :
    sanitized (l ++ [c]) = sanitized l := by
  have drop : dropEnd ((l.map charOf ++ [charOf c]).dropWhile fun c => !c.isAlphanum) =
      dropEnd ((l.map charOf).dropWhile fun c => !c.isAlphanum) := by
    rw [List.dropWhile_append]
    split
    · next empty =>
      rw [List.isEmpty_iff.1 empty, List.dropWhile_cons_of_pos (by simp [h]), List.dropWhile_nil]
    · exact List.rdropWhile_concat_pos _ _ _ (by simp [h])
  rw [sanitized, sanitized, List.map_append, List.map_singleton, clip, clip, drop]

theorem sanitized_trimmed (l : List Char) : sanitized (Text.trimmed l) = sanitized l :=
  Text.apply_trimmed (fun _ l hc => sanitized_cons (isAlphanum_charOf_of_isBlank hc) l)
    (fun _ l hc => sanitized_concat (isAlphanum_charOf_of_isBlank hc) l) l

/-- Blanks around a text make no difference to its label. -/
@[simp] theorem sanitize_trim (s : String) : sanitize (Text.trim s) = sanitize s := by
  rw [sanitize, sanitize, Text.toList_trim, sanitized_trimmed]

/-- The label of a text that is nothing but blanks. -/
theorem sanitize_of_trim_eq_empty {s : String} (h : Text.trim s = "") : sanitize s = "x" := by
  rw [← sanitize_trim, h]
  rfl

/-! ## Values -/

/-- The text is made of legal characters, of at least one. -/
def IsValue (s : String) : Prop :=
  (∀ c ∈ s.toList, isLegal c = true) ∧ s ≠ ""

theorem IsValue.trim_eq {s : String} (h : IsValue s) : Text.trim s = s := by
  rw [Text.trim, trimmed_of_isLegal h.1, String.ofList_toList]

theorem isValue_sanitize (s : String) : IsValue (sanitize s) := by
  refine ⟨fun c hc => ?_, fun h => ?_⟩
  · rw [sanitize, String.toList_ofList] at hc
    exact isLegal_of_mem_sanitized hc
  · obtain ⟨c, r, hr, -⟩ := clip_eq_cons maxLength (s.toList.map charOf)
    rw [sanitize, sanitized, hr] at h
    simpa using congrArg String.toList h

end ContainerJobs.Label
