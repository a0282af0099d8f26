import ContainerJobs.Container.Store
import Mathlib.Algebra.Group.Nat.Defs
import Mathlib.Algebra.Order.Group.Nat
import Mathlib.Data.List.Induction
import Mathlib.Order.Monotone.Basic
import Mathlib.Tactic.Ring

/-!
# Engine ids

An id is made from a number, of which it holds two forms in hexadecimal digits.
Read as one hexadecimal number, ids ascend with the numbers that they are made
from (`idValue_strictMono`), so no two are the same (`idOf_injective`). The short
form of an id, its first twelve characters, tells the number as long as fewer than
`shortIdCount` ids were given; up to then, ids ascend as texts too (`idOf_lt`).
-/

namespace ContainerJobs.ContainerStore

/-! ## Hexadecimal numbers -/

/-- The number that hexadecimal digits stand for. -/
def hexValue (l : List Char) : Nat :=
  l.foldl (fun n c => 16 * n + ((List.range 16).find? (·.digitChar == c)).getD 0) 0

theorem hexValue_concat (l : List Char) {d : Nat} (h : d < 16) :
    hexValue (l ++ [d.digitChar]) = 16 * hexValue l + d := by
  have digit : ∀ d < 16, ((List.range 16).find? (·.digitChar == d.digitChar)).getD 0 = d := by
    decide
  simp only [hexValue, List.foldl_append, List.foldl_cons, List.foldl_nil, digit d h]

theorem hexValue_toDigits (n : Nat) : hexValue (Nat.toDigits 16 n) = n := by
  induction n using Nat.strongRecOn with
  | ind n ih =>
    rw [Nat.toDigits_eq_if (by decide)]
    split
    · next h => simpa [hexValue] using hexValue_concat [] h
    · next h =>
      rw [hexValue_concat _ (Nat.mod_lt _ (by decide)), ih (n / 16) (by omega)]
      omega

theorem hexValue_zeros (k : Nat) (l : List Char) :
    hexValue (List.replicate k '0' ++ l) = hexValue l := by
  induction k with
  | zero => rfl
  | succ k ih =>
    rw [List.replicate_succ, List.cons_append, ← ih]
    rfl

theorem hexValue_hexNumber (width n : Nat) : hexValue (hexNumber width n) = n := by
  rw [hexNumber, hexValue_zeros, hexValue_toDigits]

theorem hexNumber_injective (width : Nat) : Function.Injective (hexNumber width) :=
  Function.LeftInverse.injective (hexValue_hexNumber width)

theorem length_hexNumber {width n : Nat} (hw : 0 < width) (h : n < 16 ^ width) :
    (hexNumber width n).length = width := by
  have := (Nat.length_toDigits_le_iff (by decide) hw).2 h
  simp only [hexNumber, List.length_append, List.length_replicate]
  omega

theorem eq_digitChar_of_mem_toDigits {n : Nat} {c : Char} (h : c ∈ Nat.toDigits 16 n) :
    ∃ d < 16, c = d.digitChar := by
  induction n using Nat.strongRecOn with
  | ind n ih =>
    rw [Nat.toDigits_eq_if (by decide)] at h
    split at h
    · next hn => exact ⟨n, hn, by simpa using h⟩
    · next hn =>
      rcases List.mem_append.1 h with h | h
      · exact ih (n / 16) (by omega) h
      · exact ⟨n % 16, Nat.mod_lt _ (by decide), by simpa using h⟩

theorem eq_digitChar_of_mem_hexNumber {width n : Nat} {c : Char} (h : c ∈ hexNumber width n) :
    ∃ d < 16, c = d.digitChar := by
  rcases List.mem_append.1 h with h | h
  · exact ⟨0, by decide, List.eq_of_mem_replicate h⟩
  · exact eq_digitChar_of_mem_toDigits h

/-! ## Ids -/

theorem toList_idOf (n : Nat) : (idOf n).toList = hexNumber 12 n ++ hexNumber 52 n := by
  rw [idOf, String.toList_ofList]

theorem not_mem_idOf {c : Char} (h : ∀ d < 16, c ≠ d.digitChar) (n : Nat) :
    c ∉ (idOf n).toList := by
  rw [toList_idOf, List.mem_append, not_or]
  constructor <;> intro hc
  all_goals
    obtain ⟨d, hd, heq⟩ := eq_digitChar_of_mem_hexNumber hc
    exact h d hd heq

theorem hyphen_not_mem_idOf (n : Nat) : '-' ∉ (idOf n).toList :=
  not_mem_idOf (by decide) n

/-- How many ids there can be before two of them have the same short form. -/
def shortIdCount : Nat := 16 ^ 12

theorem take_idOf {n : Nat} (h : n < shortIdCount) : (idOf n).toList.take 12 = hexNumber 12 n := by
  rw [toList_idOf, List.take_append_of_le_length (length_hexNumber (by decide) h).ge,
    List.take_of_length_le (length_hexNumber (by decide) h).le]

/-- From then on, there are ids with the same short form. -/
theorem shortId_ambiguous :
    (idOf (16 ^ 11)).toList.take 12 = (idOf shortIdCount).toList.take 12 := by
  decide

/-! ## The order of the ids -/

theorem hexValue_append (l r : List Char) :
    hexValue (l ++ r) = hexValue l * 16 ^ r.length + hexValue r := by
  induction r using List.reverseRecOn with
  | nil => simp [hexValue]
  | append_singleton r c ih =>
    have concat (l : List Char) : hexValue (l ++ [c]) = 16 * hexValue l +
        ((List.range 16).find? (·.digitChar == c)).getD 0 := by
      simp only [hexValue, List.foldl_append, List.foldl_cons, List.foldl_nil]
    rw [← List.append_assoc, concat, concat, ih, List.length_append, List.length_singleton,
      pow_succ]
    ring

theorem length_hexNumber_mono (width : Nat) : Monotone fun n => (hexNumber width n).length := by
  intro m n h
  have digits : (Nat.toDigits 16 m).length ≤ (Nat.toDigits 16 n).length := by
    have pos := Nat.length_toDigits_pos (b := 16) (n := n)
    -- As many digits as the larger number has are enough for the smaller one.
    exact (Nat.length_toDigits_le_iff (by decide) pos).2
      (h.trans_lt ((Nat.length_toDigits_le_iff (by decide) pos).1 le_rfl))
  simp only [hexNumber, List.length_append, List.length_replicate]
  omega

/-- An id as a number. -/
def idValue (id : String) : Nat := hexValue id.toList

theorem idValue_strictMono : StrictMono fun n => idValue (idOf n) := by
  intro m n h
  simp only [idValue, toList_idOf, hexValue_append, hexValue_hexNumber]
  have longer := Nat.pow_le_pow_right (show 0 < 16 by decide)
    (length_hexNumber_mono 52 (Nat.le_of_lt h))
  exact Nat.add_lt_add_of_le_of_lt (Nat.mul_le_mul (Nat.le_of_lt h) longer) h

theorem idOf_injective : Function.Injective idOf := fun _ _ h =>
  idValue_strictMono.injective (congrArg idValue h)

theorem hexNumber_succ {width : Nat} (hw : 0 < width) (n : Nat) :
    hexNumber (width + 1) n = hexNumber width (n / 16) ++ [(n % 16).digitChar] := by
  have digits := Nat.toDigits_eq_if (b := 16) (n := n) (by decide)
  split at digits
  · next h =>
    obtain ⟨width, rfl⟩ := Nat.exists_eq_add_of_lt hw
    have zero : n / 16 = 0 := Nat.div_eq_of_lt h
    have zeros : Nat.toDigits 16 0 = ['0'] := by decide
    simp [hexNumber, digits, zero, zeros, Nat.mod_eq_of_lt h, ← List.replicate_succ']
  · simp [hexNumber, digits]

theorem append_lt_append {l l' r r' : List Char} (length : l.length = l'.length) (h : l < l') :
    l ++ r < l' ++ r' := by
  induction l generalizing l' with
  | nil => cases l' <;> simp_all
  | cons c l ih =>
    obtain ⟨c', l', rfl⟩ := List.exists_cons_of_length_pos (l := l') (by simp [← length])
    rw [List.cons_append, List.cons_append, List.cons_lt_cons_iff]
    exact (List.cons_lt_cons_iff.1 h).imp_right fun ⟨heq, hlt⟩ =>
      ⟨heq, ih (by simpa using length) hlt⟩

theorem hexNumber_lt {width m n : Nat} (hw : 0 < width) (h : m < n) (hn : n < 16 ^ width) :
    hexNumber width m < hexNumber width n := by
  have digit : ∀ n < 16, ∀ m < n, [m.digitChar] < [n.digitChar] := by decide
  induction width, hw using Nat.le_induction generalizing m n with
  | base =>
    rw [hexNumber, hexNumber, Nat.toDigits_of_lt_base (by omega), Nat.toDigits_of_lt_base (by omega)]
    exact digit n (by omega) m h
  | succ width hw ih =>
    rw [hexNumber_succ hw, hexNumber_succ hw]
    rw [pow_succ] at hn
    obtain front | front := Nat.lt_or_eq_of_le (Nat.div_le_div_right (c := 16) (Nat.le_of_lt h))
    · -- The digits in front decide, as there are equally many of them.
      refine append_lt_append ?_ (ih front (by omega))
      rw [length_hexNumber hw (by omega), length_hexNumber hw (by omega)]
    · rw [front]
      exact List.append_left_lt (digit _ (Nat.mod_lt _ (by decide)) _ (by omega))

/-- As texts, ids ascend until the short forms are used up. -/
theorem idOf_lt {m n : Nat} (h : m < n) (hn : n < shortIdCount) : idOf m < idOf n := by
  rw [String.lt_iff, toList_idOf, toList_idOf]
  refine append_lt_append ?_ (hexNumber_lt (by decide) h hn)
  rw [length_hexNumber (by decide) (h.trans hn), length_hexNumber (by decide) hn]

end ContainerJobs.ContainerStore
