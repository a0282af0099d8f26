import ContainerJobs.Proofs.Job.Label
import ContainerJobs.Text.Decimal
import Mathlib.Algebra.Group.Nat.Defs
import Mathlib.Data.List.Induction

/-!
# Numerals

An integer is read as it was written, as long as it fits its machine word
(`signed?_ofInt`). A numeral has no blank and no separator in it. Zeros in front of a
numeral fill it up to a width and change nothing about its value (`length_padded`,
`ofDigitChars_padded`). Zero is read from zeros alone (`signed?_eq_some_zero_iff`).
-/

namespace ContainerJobs.Text

theorem ofDigits?_digits (n : Nat) : ofDigits? (digits n) = some n := by
  have nonempty : (digits n).isEmpty = false := by
    rw [List.isEmpty_eq_false_iff]
    exact Nat.toDigits_ne_nil
  have all : (digits n).all Char.isDigit = true :=
    List.all_eq_true.2 fun c hc => Nat.isDigit_of_mem_toDigits (by decide) (Nat.le_refl 10) hc
  rw [ofDigits?, nonempty, all]
  exact congrArg some Nat.ofDigitChars_ten_toDigits

theorem isDigit_of_mem_digits {n : Nat} {c : Char} (h : c ∈ digits n) : c.isDigit = true :=
  Nat.isDigit_of_mem_toDigits (by decide) (Nat.le_refl 10) h

theorem exists_digits_eq_cons (n : Nat) : ∃ c l, digits n = c :: l ∧ c.isDigit = true := by
  obtain ⟨c, l, h⟩ := List.exists_cons_of_ne_nil (Nat.toDigits_ne_nil (b := 10) (n := n))
  have mem : c ∈ digits n := by rw [digits, h]; exact List.mem_cons_self
  exact ⟨c, l, h, isDigit_of_mem_digits mem⟩

theorem isDigit_iff {c : Char} : c.isDigit = true ↔ 48 ≤ c.toNat ∧ c.toNat ≤ 57 := by
  change (c.val ≥ '0'.val && c.val ≤ '9'.val) = true ↔ _
  simp [UInt32.le_iff_toNat_le]

/-- So many digits make no greater number. -/
theorem ofDigitChars_lt {l : List Char} (h : ∀ c ∈ l, c.isDigit = true) :
    Nat.ofDigitChars 10 l 0 < 10 ^ l.length := by
  induction l using List.reverseRecOn with
  | nil => simp
  | append_singleton l c ih =>
    obtain ⟨front, last⟩ := List.forall_mem_append.1 h
    have value := ih front
    have digit := isDigit_iff.1 (last c List.mem_cons_self)
    rw [Nat.ofDigitChars_append, Nat.ofDigitChars_cons, Nat.ofDigitChars_nil, List.length_append,
      List.length_singleton, Nat.pow_succ]
    change 10 * _ + (c.toNat - 48) < _
    omega

theorem ofDigitChars_digits (n : Nat) : Nat.ofDigitChars 10 (digits n) 0 = n :=
  Nat.ofDigitChars_ten_toDigits

/-- No zero stands in front of other digits. -/
theorem head?_digits_ne_zero {n : Nat} (h : 1 < (digits n).length) :
    (digits n).head? ≠ some '0' := by
  induction n using Nat.strongRecOn with
  | ind n ih =>
    rw [digits, Nat.toDigits_eq_if (by decide)] at h ⊢
    split at h
    · simp at h
    · next large =>
      rw [if_neg large, List.head?_append_of_ne_nil _ Nat.toDigits_ne_nil]
      by_cases one : n / 10 < 10
      · rw [Nat.toDigits_of_lt_base one, List.head?_singleton, Ne, Option.some.injEq,
          Nat.digitChar_eq_zero]
        omega
      · refine ih (n / 10) (by omega) ?_
        rw [digits, Nat.toDigits_of_base_le (by decide) (by omega), List.length_append]
        have := Nat.length_toDigits_pos (b := 10) (n := n / 10 / 10)
        simp only [List.length_singleton]
        omega

/-! ## Padded numerals -/

theorem isDigit_of_mem_padded {width n : Nat} {c : Char} (h : c ∈ padded width n) :
    c.isDigit = true := by
  obtain h | h := List.mem_append.1 h
  · rw [List.eq_of_mem_replicate h]
    rfl
  · exact isDigit_of_mem_digits h

theorem ofDigitChars_padded (width n : Nat) : Nat.ofDigitChars 10 (padded width n) 0 = n := by
  rw [padded, Nat.ofDigitChars_append, Nat.ofDigitChars_replicate_zero, Nat.mul_zero,
    ofDigitChars_digits]

theorem length_padded {width n : Nat} (pos : 0 < width) (h : n < 10 ^ width) :
    (padded width n).length = width := by
  have fits : (digits n).length ≤ width := (Nat.length_toDigits_le_iff (by decide) pos).2 h
  rw [padded, List.length_append, List.length_replicate, Nat.sub_add_cancel fits]

theorem exists_padded_eq_cons (width n : Nat) :
    ∃ c l, padded width n = c :: l ∧ c.isDigit = true := by
  have nonempty : padded width n ≠ [] := fun h => Nat.toDigits_ne_nil (List.append_eq_nil_iff.1 h).2
  obtain ⟨c, l, h⟩ := List.exists_cons_of_ne_nil nonempty
  exact ⟨c, l, h, isDigit_of_mem_padded (h ▸ List.mem_cons_self)⟩

/-- A digit is no blank. -/
theorem isBlank_of_isDigit {c : Char} (h : c.isDigit = true) : isBlank c = false :=
  Label.isBlank_of_isLegal (by simp [Label.isLegal, h])

theorem isBlank_of_mem_padded {width n : Nat} {c : Char} (h : c ∈ padded width n) :
    isBlank c = false :=
  isBlank_of_isDigit (isDigit_of_mem_padded h)

/-! ## Integers -/

theorem isLegal_of_mem_digits {n : Nat} {c : Char} (h : c ∈ digits n) :
    Label.isLegal c = true := by
  have digit : c.isDigit = true := Nat.isDigit_of_mem_toDigits (by decide) (Nat.le_refl 10) h
  simp [Label.isLegal, digit]

theorem isLegal_of_mem_ofInt {n : Int} {c : Char} (h : c ∈ ofInt n) : Label.isLegal c = true := by
  rw [ofInt] at h
  split at h
  · rcases List.mem_cons.1 h with rfl | h
    · rfl
    · exact isLegal_of_mem_digits h
  · exact isLegal_of_mem_digits h

theorem signed?_ofInt {n : Int} (h : isSigned n = true) : signed? (ofInt n) = some n := by
  rw [ofInt]
  split
  · next neg =>
    have value : -((n.natAbs : Nat) : Int) = n := by omega
    rw [signed?, ofDigits?_digits]
    change (if isSigned (-(n.natAbs : Int)) then some (-(n.natAbs : Int)) else none) = some n
    rw [value, if_pos h]
  · next nonneg =>
    have value : ((n.natAbs : Nat) : Int) = n := by omega
    obtain ⟨c, r, hcr⟩ := List.exists_cons_of_ne_nil (Nat.toDigits_ne_nil (n := n.natAbs) (b := 10))
    have digits : digits n.natAbs = c :: r := hcr
    -- The first character is a digit, so it is taken for no sign.
    have digit : c.isDigit = true := Nat.isDigit_of_mem_toDigits (by decide) (Nat.le_refl 10)
      (hcr ▸ List.mem_cons_self)
    have read := ofDigits?_digits n.natAbs
    rw [digits] at read ⊢
    rw [signed?]
    · rw [read]
      change (if isSigned (n.natAbs : Int) then some (n.natAbs : Int) else none) = some n
      rw [value, if_pos h]
    all_goals
      intro r heq
      rw [(List.cons.inj heq).1] at digit
      exact absurd digit (by decide)

/-! ## Zero -/

/-- A numeral of zero: zeros, at least one, after either sign or none. -/
def IsZero (l : List Char) : Prop :=
  ∃ sign ∈ [[], ['+'], ['-']], ∃ n, l = sign ++ List.replicate (n + 1) '0'

theorem ofDigitChars_eq_zero_iff {l : List Char} (h : ∀ c ∈ l, c.isDigit = true) :
    Nat.ofDigitChars 10 l 0 = 0 ↔ ∀ c ∈ l, c = '0' := by
  induction l using List.reverseRecOn with
  | nil => simp
  | append_singleton l c ih =>
    obtain ⟨front, last⟩ := List.forall_mem_append.1 h
    have digit := isDigit_iff.1 (last c List.mem_cons_self)
    have zero : c.toNat - 48 = 0 ↔ c = '0' := by
      rw [← Char.toNat_inj]
      change _ ↔ c.toNat = 48
      omega
    rw [Nat.ofDigitChars_append, Nat.ofDigitChars_cons, Nat.ofDigitChars_nil,
      List.forall_mem_append, List.forall_mem_singleton, ← ih front, ← zero]
    change 10 * _ + (c.toNat - 48) = 0 ↔ _
    omega

theorem ofDigits?_eq_some_zero_iff {l : List Char} :
    ofDigits? l = some 0 ↔ ∃ n, l = List.replicate (n + 1) '0' := by
  constructor
  · intro h
    rw [ofDigits?, Option.ite_none_left_eq_some, Bool.or_eq_true, not_or, Bool.not_eq_true',
      Bool.not_eq_false, List.all_eq_true, Option.some.injEq] at h
    obtain ⟨⟨some, digits⟩, value⟩ := h
    obtain ⟨n, length⟩ := Nat.exists_eq_succ_of_ne_zero
      (List.length_pos_iff.2 (mt List.isEmpty_iff.2 some)).ne'
    exact ⟨n, List.eq_replicate_iff.2 ⟨length, (ofDigitChars_eq_zero_iff digits).1 value⟩⟩
  · rintro ⟨n, rfl⟩
    have zeros : ∀ c ∈ List.replicate (n + 1) '0', c = '0' := fun _ => List.eq_of_mem_replicate
    have digits : ∀ c ∈ List.replicate (n + 1) '0', c.isDigit = true := by
      rintro c hc
      rw [zeros c hc]
      rfl
    rw [ofDigits?, List.all_eq_true.2 digits, (ofDigitChars_eq_zero_iff digits).2 zeros]
    rfl

theorem signed?_eq_some_zero_iff {l : List Char} : signed? l = some 0 ↔ IsZero l := by
  have value {r : List Char} {f : Nat → Int} (hf : ∀ n, f n = 0 ↔ n = 0) :
      ((ofDigits? r).map f).bind (fun n => if isSigned n then some n else none) = some 0 ↔
        ∃ n, r = List.replicate (n + 1) '0' := by
    rw [← ofDigits?_eq_some_zero_iff]
    cases ofDigits? r with
    | none => simp
    | some n =>
      rw [Option.map_some, Option.bind_some, Option.ite_none_right_eq_some, Option.some.injEq,
        Option.some.injEq, hf, and_iff_right_iff_imp]
      rintro rfl
      rw [(hf 0).2 rfl]
      decide
  have zeros {n : Nat} : List.replicate (n + 1) '0' = '0' :: List.replicate n '0' := rfl
  have cast (r : List Char) : (do let n ← ofDigits? r; pure (n : Int)) = (ofDigits? r).map (↑) := by
    cases ofDigits? r <;> rfl
  unfold signed?
  simp only [cast, Option.bind_eq_bind, Option.map_map]
  split
  · next r =>
    refine (value fun n => Int.neg_eq_zero.trans Int.natCast_eq_zero).trans ?_
    simp [IsZero, zeros]
  · next r =>
    refine (value fun n => Int.natCast_eq_zero).trans ?_
    simp [IsZero, zeros]
  · next minus plus =>
    refine (value fun n => Int.natCast_eq_zero).trans
      ⟨fun ⟨n, h⟩ => ⟨[], List.mem_cons_self, n, h⟩, ?_⟩
    rintro ⟨sign, hsign, n, rfl⟩
    simp only [List.mem_cons, List.not_mem_nil, or_false] at hsign
    obtain rfl | rfl | rfl := hsign
    · exact ⟨n, rfl⟩
    · exact (plus _ rfl).elim
    · exact (minus _ rfl).elim

end ContainerJobs.Text
