import ContainerJobs.Text.Blank
import ContainerJobs.Text.Split
import Mathlib.Data.List.DropRight

/-!
# Fields and lines

Text that is put together from fields with separators, or from lines with line
ends, comes apart into the same fields and lines: `split_intercalate`,
`lines_append` and `lines_flatMap`. Every text is put together from fields, in one way
(`split_eq_iff`). Fields that are trimmed one by one do not depend on whether the
whole was trimmed before (`map_trimmed_split_trimmed`).
-/

namespace ContainerJobs.Text

variable {sep : Char} {l r : List Char}

/-! ## Cutting and splitting -/

theorem cut?_append (h : sep ∉ l) : cut? sep (l ++ sep :: r) = some (l, r) := by
  induction l with
  | nil => simp [cut?]
  | cons c l ih =>
    rw [List.mem_cons, not_or] at h
    rw [List.cons_append, cut?, if_neg (Ne.symm h.1), ih h.2]
    rfl

theorem split_of_not_mem (h : sep ∉ l) : split sep l = [l] := by
  induction l with
  | nil => rfl
  | cons c l ih =>
    rw [List.mem_cons, not_or] at h
    rw [split, if_neg (Ne.symm h.1), ih h.2]
    rfl

theorem split_append (h : sep ∉ l) : split sep (l ++ sep :: r) = l :: split sep r := by
  induction l with
  | nil => simp [split]
  | cons c l ih =>
    rw [List.mem_cons, not_or] at h
    rw [List.cons_append, split, if_neg (Ne.symm h.1), ih h.2]
    rfl

theorem split_intercalate {fields : List (List Char)} (h : ∀ f ∈ fields, sep ∉ f)
    (hne : fields ≠ []) : split sep ([sep].intercalate fields) = fields := by
  induction fields with
  | nil => exact absurd rfl hne
  | cons f fields ih =>
    have hf := h f List.mem_cons_self
    cases fields with
    | nil => rw [List.intercalate_singleton, split_of_not_mem hf]
    | cons g fields =>
      have rest := ih (fun x hx => h x (List.mem_cons_of_mem _ hx)) (List.cons_ne_nil _ _)
      rw [List.intercalate_cons_cons, List.append_assoc, List.singleton_append, split_append hf,
        rest]

theorem intercalate_split (sep : Char) (l : List Char) : [sep].intercalate (split sep l) = l := by
  induction l with
  | nil => rfl
  | cons c l ih =>
    obtain ⟨f, fields, hf⟩ := List.exists_cons_of_ne_nil (split_ne_nil sep l)
    rw [hf] at ih
    rw [split, hf]
    split
    · next h => rw [List.intercalate_cons_cons, ih, h, List.nil_append, List.singleton_append]
    · cases fields with
      | nil => rw [consHead, List.intercalate_singleton, ← ih, List.intercalate_singleton]
      | cons g fields =>
        rw [consHead, List.intercalate_cons_cons, ← ih, List.intercalate_cons_cons]
        rfl

theorem not_mem_of_mem_split {f : List Char} (h : f ∈ split sep l) : sep ∉ f := by
  induction l generalizing f with
  | nil =>
    obtain rfl := List.mem_singleton.1 h
    exact List.not_mem_nil
  | cons c l ih =>
    obtain ⟨g, fields, hg⟩ := List.exists_cons_of_ne_nil (split_ne_nil sep l)
    rw [hg] at ih
    rw [split, hg] at h
    split at h
    · obtain rfl | h := List.mem_cons.1 h
      · exact List.not_mem_nil
      · exact ih h
    · next hc =>
      obtain rfl | h := List.mem_cons.1 h
      · exact List.not_mem_cons_of_ne_of_not_mem (Ne.symm hc) (ih List.mem_cons_self)
      · exact ih (List.mem_cons_of_mem _ h)

/-- A field is part of the text. -/
theorem mem_of_mem_split {c : Char} {f : List Char} (hf : f ∈ split sep l) (hc : c ∈ f) :
    c ∈ l := by
  induction l generalizing f with
  | nil =>
    obtain rfl := List.mem_singleton.1 hf
    cases hc
  | cons d l ih =>
    obtain ⟨g, fields, hg⟩ := List.exists_cons_of_ne_nil (split_ne_nil sep l)
    rw [hg] at ih
    rw [split, hg] at hf
    split at hf
    · rcases List.mem_cons.1 hf with rfl | hf
      · cases hc
      · exact List.mem_cons_of_mem _ (ih hf hc)
    · rcases List.mem_cons.1 hf with rfl | hf
      · rcases List.mem_cons.1 hc with rfl | hc
        · exact List.mem_cons_self
        · exact List.mem_cons_of_mem _ (ih List.mem_cons_self hc)
      · exact List.mem_cons_of_mem _ (ih (List.mem_cons_of_mem _ hf) hc)

/-- A text has one way only to be put together from fields. -/
theorem split_eq_iff {fields : List (List Char)} : split sep l = fields ↔
    fields ≠ [] ∧ (∀ f ∈ fields, sep ∉ f) ∧ l = [sep].intercalate fields := by
  constructor
  · rintro rfl
    exact ⟨split_ne_nil sep l, fun _ => not_mem_of_mem_split, (intercalate_split sep l).symm⟩
  · rintro ⟨some, free, rfl⟩
    exact split_intercalate free some

/-- Each separator begins a field. -/
theorem length_split (sep : Char) (l : List Char) :
    (split sep l).length = l.count sep + 1 := by
  induction l with
  | nil => rfl
  | cons c l ih =>
    rw [split]
    split
    · next h => rw [h, List.length_cons, ih, List.count_cons_self]
    · next h =>
      obtain ⟨f, fields, hf⟩ := List.exists_cons_of_ne_nil (split_ne_nil sep l)
      rw [List.count_cons_of_ne h, ← ih, hf]
      rfl

/-- A separator divides the fields into those before it and those after it. -/
theorem split_append_cons (sep : Char) (l r : List Char) :
    split sep (l ++ sep :: r) = split sep l ++ split sep r := by
  induction l with
  | nil => simp [split]
  | cons c l ih =>
    obtain ⟨f, fields, hf⟩ := List.exists_cons_of_ne_nil (split_ne_nil sep l)
    rw [List.cons_append, split, split, ih, hf]
    split <;> rfl

theorem cutLast?_eq_none_iff : cutLast? sep l = none ↔ sep ∉ l := by
  induction l with
  | nil => simp [cutLast?]
  | cons c l ih =>
    rw [cutLast?, List.mem_cons, not_or, ← ih]
    rcases cutLast? sep l with _ | ⟨a, b⟩
    · simp [eq_comm]
    · simp

theorem cutLast?_append (h : sep ∉ r) : cutLast? sep (l ++ sep :: r) = some (l, r) := by
  induction l with
  | nil => rw [List.nil_append, cutLast?, cutLast?_eq_none_iff.2 h, if_pos rfl]
  | cons c l ih => rw [List.cons_append, cutLast?, ih]

/-- The last separator is the one with none behind it. -/
theorem cutLast?_eq_some_iff {a b : List Char} :
    cutLast? sep l = some (a, b) ↔ l = a ++ sep :: b ∧ sep ∉ b := by
  refine ⟨fun h => ?_, ?_⟩
  · induction l generalizing a with
    | nil => cases h
    | cons c l ih =>
      rw [cutLast?] at h
      split at h
      · next heq =>
        cases h
        obtain ⟨rfl, free⟩ := ih heq
        exact ⟨rfl, free⟩
      · next heq =>
        split at h
        · next hc =>
          cases h
          exact ⟨by rw [hc, List.nil_append], cutLast?_eq_none_iff.1 heq⟩
        · cases h
  · rintro ⟨rfl, free⟩
    exact cutLast?_append free

theorem not_mem_intercalate {c : Char} {fields : List (List Char)} (hc : c ≠ sep)
    (h : ∀ f ∈ fields, c ∉ f) : c ∉ [sep].intercalate fields := by
  induction fields with
  | nil => simp
  | cons f fields ih =>
    have hf := h f List.mem_cons_self
    cases fields with
    | nil => rwa [List.intercalate_singleton]
    | cons g fields =>
      have rest := ih fun x hx => h x (List.mem_cons_of_mem _ hx)
      simp [List.intercalate_cons_cons, hf, hc, rest]

/-! ## Lines -/

/-- The text of a line, without the one carriage return that belongs to the line
    end. -/
def chomp (l : List Char) : List Char :=
  if l.getLast? = some '\r' then l.dropLast else l

theorem chomp_cons {c : Char} (h : l ≠ []) : chomp (c :: l) = c :: chomp l := by
  obtain ⟨d, l, rfl⟩ := List.exists_cons_of_ne_nil h
  simp only [chomp, List.getLast?_cons_cons, List.dropLast_cons_cons]
  split <;> rfl

theorem chomp_append (h : r ≠ []) : chomp (l ++ r) = l ++ chomp r := by
  induction l with
  | nil => rfl
  | cons c l ih => rw [List.cons_append, chomp_cons (by simp [h]), ih, List.cons_append]

theorem chomp_cons_of_ne {c : Char} (h : c ≠ '\r') : chomp (c :: l) = c :: chomp l := by
  by_cases hl : l = []
  · simp [hl, chomp, h]
  · exact chomp_cons hl

theorem chomp_eq_self (h : l.getLast? ≠ some '\r') : chomp l = l := if_neg h

theorem lines_append (h : '\n' ∉ l) : lines (l ++ '\n' :: r) = chomp l :: lines r := by
  induction l with
  | nil => rfl
  | cons c l ih =>
    rw [List.mem_cons, not_or] at h
    by_cases hl : l = []
    · subst hl
      by_cases hc : c = '\r'
      · subst hc
        rfl
      · rw [List.cons_append, List.nil_append, lines.eq_3 _ _ (fun _ hc' => absurd hc' hc),
          if_neg (Ne.symm h.1)]
        simp [lines, consHead, chomp, hc]
    · -- Not the two characters of a line end, as `l` has no line feed in front.
      rw [List.cons_append, lines.eq_3, if_neg (Ne.symm h.1), ih h.2, chomp_cons hl]
      · rfl
      · rintro r' rfl hr
        obtain ⟨d, l, rfl⟩ := List.exists_cons_of_ne_nil hl
        simp only [List.cons_append, List.cons.injEq] at hr
        exact h.2 (hr.1 ▸ List.mem_cons_self)

/-- Lines do not reach over a line feed. -/
theorem lines_append_lineFeed (l r : List Char) :
    lines (l ++ '\n' :: r) = lines (l ++ ['\n']) ++ lines r := by
  by_cases h : '\n' ∈ l
  · -- The first line ends within `l`; the rest of `l` is shorter.
    obtain ⟨first, rest, rfl, hfirst⟩ := List.eq_append_cons_of_mem h
    rw [List.append_assoc, List.append_assoc, List.cons_append, List.cons_append,
      lines_append hfirst, lines_append hfirst, lines_append_lineFeed rest r, List.cons_append]
  · rw [lines_append h, lines_append h]
    rfl
termination_by l.length

/-- The lines of a text that is put together from ended texts are theirs. -/
theorem lines_flatMap {α : Type} (f : α → List Char) (xs : List α) :
    lines (xs.flatMap fun x => f x ++ ['\n']) = xs.flatMap fun x => lines (f x ++ ['\n']) := by
  induction xs with
  | nil => rfl
  | cons x xs ih =>
    rw [List.flatMap_cons, List.append_assoc, List.singleton_append, lines_append_lineFeed, ih,
      List.flatMap_cons]

/-- A line has no line feed in it. -/
theorem not_mem_of_mem_lines {line : List Char} (h : line ∈ lines l) : '\n' ∉ line := by
  fun_induction lines l generalizing line with
  | case1 => cases h
  | case2 r ih =>
    rcases List.mem_cons.1 h with rfl | h
    · exact List.not_mem_nil
    · exact ih h
  | case3 r _ ih =>
    rcases List.mem_cons.1 h with rfl | h
    · exact List.not_mem_nil
    · exact ih h
  | case4 c r _ hc ih =>
    cases hl : lines r with
    | nil =>
      rw [hl, consHead, List.mem_singleton] at h
      subst h
      exact fun mem => hc (List.mem_singleton.1 mem).symm
    | cons w ws =>
      rw [hl] at ih h
      rcases List.mem_cons.1 h with rfl | h
      · exact List.not_mem_cons_of_ne_of_not_mem (Ne.symm hc) (ih List.mem_cons_self)
      · exact ih (List.mem_cons_of_mem _ h)

/-! ## Trimming -/

theorem dropEndWhile_eq_rdropWhile {α : Type} (p : α → Bool) (l : List α) :
    dropEndWhile p l = l.rdropWhile p := rfl

theorem dropEndWhile_sublist {α : Type} (p : α → Bool) (l : List α) : (dropEndWhile p l).Sublist l :=
  (List.rdropWhile_prefix p l).sublist

theorem trimmed_sublist (l : List Char) : (trimmed l).Sublist l :=
  (dropEndWhile_sublist _ _).trans (List.dropWhile_sublist _)

theorem skipBlanks_cons {c : Char} (h : isBlank c = true) : skipBlanks (c :: l) = skipBlanks l :=
  List.dropWhile_cons_of_pos h

theorem skipBlanks_cons_of_not {c : Char} (h : isBlank c = false) (l : List Char) :
    skipBlanks (c :: l) = c :: l :=
  List.dropWhile_cons_of_neg (by simp [h])

/-- All of a text is blank if nothing is left without its leading blanks. -/
theorem skipBlanks_eq_nil_iff : skipBlanks l = [] ↔ ∀ c ∈ l, isBlank c = true :=
  List.dropWhile_eq_nil_iff

theorem trimmed_cons {c : Char} (h : isBlank c = true) : trimmed (c :: l) = trimmed l := by
  rw [trimmed, skipBlanks_cons h, trimmed]

theorem trimmed_concat {c : Char} (h : isBlank c = true) : trimmed (l ++ [c]) = trimmed l := by
  by_cases hl : skipBlanks l = []
  · have blank : ∀ d ∈ l ++ [c], isBlank d = true := by
      simpa [or_imp, forall_and, h] using skipBlanks_eq_nil_iff.1 hl
    rw [trimmed, trimmed, skipBlanks_eq_nil_iff.2 blank, hl]
  · rw [trimmed, trimmed, skipBlanks, List.dropWhile_append,
      if_neg (by rw [List.isEmpty_iff]; exact hl)]
    exact List.rdropWhile_concat_pos _ _ _ h

/-- Blanks around a text are trimmed away. -/
theorem trimmed_append {before after : List Char} (hb : ∀ c ∈ before, isBlank c = true)
    (ha : ∀ c ∈ after, isBlank c = true) : trimmed (before ++ l ++ after) = trimmed l := by
  have front : trimmed (before ++ l) = trimmed l := by
    induction before with
    | nil => rfl
    | cons c before ih =>
      obtain ⟨first, rest⟩ := List.forall_mem_cons.1 hb
      rw [List.cons_append, trimmed_cons first, ih rest]
  induction after using List.reverseRecOn with
  | nil => rw [List.append_nil, front]
  | append_singleton after c ih =>
    obtain ⟨rest, last⟩ := List.forall_mem_append.1 ha
    rw [← List.append_assoc, trimmed_concat (last c List.mem_cons_self), ih rest]

/-- What blanks at the ends of a text make no difference to is the same for the
    trimmed text. -/
theorem apply_trimmed {α : Type} {g : List Char → α}
    (cons : ∀ c l, isBlank c = true → g (c :: l) = g l)
    (concat : ∀ c l, isBlank c = true → g (l ++ [c]) = g l) (l : List Char) :
    g (trimmed l) = g l := by
  have skip (l : List Char) : g (skipBlanks l) = g l := by
    induction l with
    | nil => rfl
    | cons c l ih =>
      cases hc : isBlank c with
      | false => rw [skipBlanks_cons_of_not hc]
      | true => rw [skipBlanks_cons hc, ih, cons c l hc]
  have dropEnd (l : List Char) : g (l.rdropWhile isBlank) = g l := by
    -- From the end, as the trailing blanks go one by one.
    induction l using List.reverseRecOn with
    | nil => rfl
    | append_singleton l c ih =>
      cases hc : isBlank c with
      | false => rw [List.rdropWhile_concat_neg _ _ _ (by simp [hc])]
      | true => rw [List.rdropWhile_concat_pos _ _ _ hc, ih, concat c l hc]
  rw [trimmed, dropEndWhile_eq_rdropWhile, dropEnd, skip]

theorem trimmed_trimmed (l : List Char) : trimmed (trimmed l) = trimmed l :=
  apply_trimmed (fun _ _ => trimmed_cons) (fun _ _ => trimmed_concat) l

/-- A text is trimmed if there are no blanks at its ends. -/
theorem trimmed_eq_self_iff : trimmed l = l ↔
    (∀ c ∈ l.head?, isBlank c = false) ∧ ∀ c ∈ l.getLast?, isBlank c = false := by
  have front : skipBlanks l = l ↔ ∀ c ∈ l.head?, isBlank c = false := by
    cases l with
    | nil => simp [skipBlanks]
    | cons c l => simp [skipBlanks, List.dropWhile_eq_self_iff]
  have back : l.rdropWhile isBlank = l ↔ ∀ c ∈ l.getLast?, isBlank c = false := by
    rw [List.rdropWhile_eq_self_iff]
    by_cases hl : l = []
    · simp [hl]
    · simp [hl, List.getLast?_eq_some_getLast hl]
  rw [← front, ← back, trimmed, dropEndWhile_eq_rdropWhile]
  constructor
  · intro h
    have skip : skipBlanks l = l := by
      refine (List.dropWhile_suffix _).eq_of_length_le ?_
      conv_lhs => rw [← h]
      exact (List.rdropWhile_prefix isBlank (skipBlanks l)).length_le
    exact ⟨skip, by rwa [skip] at h⟩
  · rintro ⟨skip, drop⟩
    rw [skip, drop]

theorem trimmed_chomp : trimmed (chomp l) = trimmed l := by
  rw [chomp]
  split
  · next h =>
    obtain ⟨l, rfl⟩ := List.getLast?_eq_some_iff.1 h
    rw [List.dropLast_concat, trimmed_concat (by decide)]
  · rfl

/-- A text without blanks is trimmed. -/
theorem trimmed_eq_self (h : ∀ c ∈ l, isBlank c = false) : trimmed l = l :=
  trimmed_eq_self_iff.2 ⟨fun c hc => h c (List.mem_of_mem_head? hc),
    fun c hc => h c (List.mem_of_mem_getLast? hc)⟩

/-- There is some text, and no blank in it. -/
def IsSolid (l : List Char) : Prop :=
  l ≠ [] ∧ ∀ c ∈ l, isBlank c = false

/-- A text that begins and ends with a word is trimmed. -/
theorem trimmed_between {first middle last : List Char} (hf : IsSolid first) (hl : IsSolid last) :
    trimmed (first ++ (middle ++ last)) = first ++ (middle ++ last) := by
  refine trimmed_eq_self_iff.2 ⟨fun c hc => hf.2 c ?_, fun c hc => hl.2 c ?_⟩
  · rw [List.head?_append_of_ne_nil _ hf.1] at hc
    exact List.mem_of_mem_head? hc
  · rw [← List.append_assoc, List.getLast?_append_of_ne_nil _ hl.1] at hc
    exact List.mem_of_mem_getLast? hc

/-- A character at the end of a text stands at the end of its last field. -/
theorem split_concat (sep : Char) (l : List Char) : ∃ fields last, split sep l = fields ++ [last] ∧
    ∀ c ≠ sep, split sep (l ++ [c]) = fields ++ [last ++ [c]] := by
  induction l with
  | nil => exact ⟨[], [], rfl, fun c hc => by simp [split, hc, consHead]⟩
  | cons d l ih =>
    obtain ⟨fields, last, h, hc⟩ := ih
    by_cases hd : d = sep
    · exact ⟨[] :: fields, last, by simp [split, hd, h],
        fun c hne => by simp [split, hd, hc c hne]⟩
    · cases fields with
      | nil => exact ⟨[], d :: last, by simp [split, hd, h, consHead],
          fun c hne => by simp [split, hd, hc c hne, consHead]⟩
      | cons f fields => exact ⟨(d :: f) :: fields, last, by simp [split, hd, h, consHead],
          fun c hne => by simp [split, hd, hc c hne, consHead]⟩

/-- To trim a text first makes no difference where its fields are trimmed. -/
theorem map_trimmed_split_trimmed (h : isBlank sep = false) (l : List Char) :
    (split sep (trimmed l)).map trimmed = (split sep l).map trimmed := by
  have ne_sep {c : Char} (hc : isBlank c = true) : c ≠ sep := by
    rintro rfl
    rw [h] at hc
    exact Bool.noConfusion hc
  refine apply_trimmed (g := fun l => (split sep l).map trimmed) (fun c l hc => ?_)
    (fun c l hc => ?_) l
  · obtain ⟨f, fields, hf⟩ := List.exists_cons_of_ne_nil (split_ne_nil sep l)
    simp only [split, if_neg (ne_sep hc), hf, consHead, List.map_cons, trimmed_cons hc]
  · obtain ⟨fields, last, hl, hlc⟩ := split_concat sep l
    simp [hl, hlc c (ne_sep hc), trimmed_concat hc]

end ContainerJobs.Text
