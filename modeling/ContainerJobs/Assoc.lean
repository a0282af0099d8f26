/-!
# Association lists in key order

Maps from strings are lists of pairs in strictly ascending order of their keys,
by code point. `insert` keeps the order and lets the later value win, so the
map of some pairs does not depend on how they are arranged except through
repeated keys. Main statements: `sorted_insert` and `sorted_ofPairs`.
-/

namespace ContainerJobs.Assoc

variable {α : Type}

/-- The keys ascend strictly, so each occurs once. -/
def Sorted (l : List (String × α)) : Prop :=
  l.Pairwise fun a b => a.1 < b.1

/-- The list with `key` mapped to `value`, whatever it was mapped to before. -/
def insert (key : String) (value : α) : List (String × α) → List (String × α)
  | [] => [(key, value)]
  | (k, v) :: r =>
    if key < k then (key, value) :: (k, v) :: r
    else if key = k then (key, value) :: r
    else (k, v) :: insert key value r

/-- The map of some pairs; of two pairs with one key the later wins. -/
def ofPairs (l : List (String × α)) : List (String × α) :=
  l.foldl (fun m p => insert p.1 p.2 m) []

/-- The value of a key. -/
def get? (l : List (String × α)) (key : String) : Option α :=
  l.lookup key

/-- The list without a key. -/
def erase (l : List (String × α)) (key : String) : List (String × α) :=
  l.filter (·.1 ≠ key)

/-! ## The order is kept -/

theorem mem_keys_insert {key : String} {value : α} {l : List (String × α)} {p : String × α}
    (h : p ∈ insert key value l) : p = (key, value) ∨ p ∈ l := by
  induction l with
  | nil => simpa [insert] using h
  | cons a r ih =>
    rw [insert] at h
    split at h
    · simpa using h
    · split at h
      · rcases List.mem_cons.1 h with h | h
        · exact .inl h
        · exact .inr (List.mem_cons_of_mem _ h)
      · rcases List.mem_cons.1 h with h | h
        · exact .inr (h ▸ List.mem_cons_self)
        · exact (ih h).imp id (List.mem_cons_of_mem _)

theorem sorted_insert {key : String} {value : α} {l : List (String × α)} (h : Sorted l) :
    Sorted (insert key value l) := by
  induction l with
  | nil => simp [insert, Sorted]
  | cons a r ih =>
    obtain ⟨ha, hr⟩ := List.pairwise_cons.1 h
    rw [insert]
    split
    · next hlt =>
      refine List.pairwise_cons.2 ⟨fun b hb => ?_, h⟩
      rcases List.mem_cons.1 hb with rfl | hb
      · exact hlt
      · exact String.lt_trans hlt (ha b hb)
    · split
      · next heq => exact List.pairwise_cons.2 ⟨fun b hb => heq ▸ ha b hb, hr⟩
      · next hlt heq =>
        refine List.pairwise_cons.2 ⟨fun b hb => ?_, ih hr⟩
        rcases mem_keys_insert hb with rfl | hb
        · exact Classical.byContradiction fun hn =>
            heq (String.le_antisymm (String.not_lt.1 hn) (String.not_lt.1 hlt))
        · exact ha b hb

theorem sorted_ofPairs (l : List (String × α)) : Sorted (ofPairs l) := by
  suffices h : ∀ m : List (String × α), Sorted m →
      Sorted (l.foldl (fun m p => insert p.1 p.2 m) m) from h [] List.Pairwise.nil
  induction l with
  | nil => exact fun m hm => hm
  | cons p r ih => exact fun m hm => ih _ (sorted_insert hm)

end ContainerJobs.Assoc
