/-!
# Splitting text

Splitting at a separator, at its first or last occurrence only, and into lines.
All of them are total functions on lists of characters. Main statements:
`split` always gives a piece, and a cut has exactly the separator between its
two halves, with none in the first.
-/

namespace ContainerJobs.Text

/-- Puts `c` in front of the first piece. -/
def consHead (c : Char) : List (List Char) → List (List Char)
  | [] => [[c]]
  | w :: ws => (c :: w) :: ws

/-- The pieces between the occurrences of `sep`; there is always at least one. -/
def split (sep : Char) : List Char → List (List Char)
  | [] => [[]]
  | c :: r => if c = sep then [] :: split sep r else consHead c (split sep r)

/-- The text before and after the first `sep`. -/
def cut? (sep : Char) : List Char → Option (List Char × List Char)
  | [] => none
  | c :: r => if c = sep then some ([], r) else (cut? sep r).map fun (a, b) => (c :: a, b)

/-- The text before and after the last `sep`. -/
def cutLast? (sep : Char) : List Char → Option (List Char × List Char)
  | [] => none
  | c :: r =>
    match cutLast? sep r with
    | some (a, b) => some (c :: a, b)
    | none => if c = sep then some ([], r) else none

/-- The lines of a text. A line ends at a line feed, and one carriage return
    right before the line feed belongs to the line end. An empty last line does
    not count. -/
def lines : List Char → List (List Char)
  | [] => []
  | '\r' :: '\n' :: r => [] :: lines r
  | c :: r => if c = '\n' then [] :: lines r else consHead c (lines r)

/-- `part` occurs in the text. -/
def occurs (part : List Char) : List Char → Bool
  | [] => part.isEmpty
  | c :: r => part.isPrefixOf (c :: r) || occurs part r

/-- What follows `part` at the start of the text, if the text starts with it. -/
def after? : (part text : List Char) → Option (List Char)
  | [], l => some l
  | _ :: _, [] => none
  | p :: ps, c :: r => if p = c then after? ps r else none

/-! ## Laws -/

theorem split_ne_nil (sep : Char) (l : List Char) : split sep l ≠ [] := by
  cases l with
  | nil => simp [split]
  | cons c r =>
    rw [split]
    split
    · simp
    · cases ContainerJobs.Text.split sep r <;> simp [consHead]

theorem after?_eq_some_iff {part text rest : List Char} :
    after? part text = some rest ↔ text = part ++ rest := by
  induction part generalizing text with
  | nil => simp [after?, eq_comm]
  | cons p ps ih =>
    cases text with
    | nil => simp [after?]
    | cons c r =>
      rw [after?]
      split
      · next h => simp [h, ih]
      · next h => simp [Ne.symm h]

theorem eq_of_cut? {sep : Char} {l a b : List Char} (h : cut? sep l = some (a, b)) :
    l = a ++ sep :: b ∧ sep ∉ a := by
  induction l generalizing a b with
  | nil => simp [cut?] at h
  | cons c r ih =>
    rw [cut?] at h
    split at h
    · next hc =>
      simp only [Option.some.injEq, Prod.mk.injEq] at h
      obtain ⟨rfl, rfl⟩ := h
      simp [hc]
    · next hc =>
      simp only [Option.map_eq_some_iff, Prod.mk.injEq, Prod.exists] at h
      obtain ⟨x, y, hxy, rfl, rfl⟩ := h
      obtain ⟨h₁, h₂⟩ := ih hxy
      exact ⟨by simp [h₁], by simp [h₂, Ne.symm hc]⟩

end ContainerJobs.Text
