import ContainerJobs.Assoc
import Mathlib.Data.List.Induction
import Mathlib.Data.List.Nodup

/-!
# Lookups in association lists

A key has the value that was inserted for it last. In the map of some pairs it
has the value of the last pair with it (`get?_ofPairs`). The map of pairs that are in
the order of their keys already is the list of these pairs (`ofPairs_of_sorted`).

Where no key occurs twice it does not matter from which end a list is searched
(`lookup_reverse`), and what a list in key order has under some keys is known from its
lookups (`filter_eq_filter`).
-/

namespace ContainerJobs.Assoc

variable {α : Type} {key other : String} {value : α} {l : List (String × α)}

@[simp] theorem get?_insert_self : get? (insert key value l) key = some value := by
  induction l with
  | nil => simp [insert, get?]
  | cons p l ih =>
    obtain ⟨k, v⟩ := p
    rw [insert]
    split
    · simp [get?]
    · split
      · simp [get?]
      · next h =>
        have hb : (key == k) = false := by simpa using h
        rw [get?, List.lookup_cons, hb]
        exact ih

theorem get?_insert_of_ne (h : other ≠ key) : get? (insert key value l) other = get? l other := by
  have hb : (other == key) = false := by simpa using h
  induction l with
  | nil => simp [insert, get?, List.lookup_cons, hb]
  | cons p l ih =>
    obtain ⟨k, v⟩ := p
    rw [insert]
    split
    · simp [get?, List.lookup_cons, hb]
    · split
      · next heq => simp [get?, List.lookup_cons, hb, ← show key = k from heq]
      · simp only [get?, List.lookup_cons] at ih ⊢
        rw [ih]

theorem get?_ofPairs (l : List (String × α)) (key : String) :
    get? (ofPairs l) key = l.reverse.lookup key := by
  induction l using List.reverseRecOn with
  | nil => rfl
  | append_singleton l p ih =>
    rw [List.reverse_append, List.reverse_singleton, List.singleton_append, List.lookup_cons,
      ← ih, ofPairs, List.foldl_append, List.foldl_cons, List.foldl_nil, ← ofPairs]
    cases h : key == p.1 with
    | true =>
      rw [beq_iff_eq.1 h]
      exact get?_insert_self
    | false => exact get?_insert_of_ne (by simpa using h)

theorem mem_of_mem_ofPairs {l : List (String × α)} {p : String × α} (h : p ∈ ofPairs l) :
    p ∈ l := by
  induction l using List.reverseRecOn with
  | nil => exact h
  | append_singleton l q ih =>
    rw [ofPairs, List.foldl_append, List.foldl_cons, List.foldl_nil, ← ofPairs] at h
    obtain rfl | h := mem_keys_insert h
    · exact List.mem_append_right _ List.mem_cons_self
    · exact List.mem_append_left _ (ih h)

/-- Only the keys count for the order. -/
theorem sorted_iff_keys : Sorted l ↔ (l.map (·.1)).Pairwise (· < ·) :=
  List.pairwise_map.symm

/-- What is greater than all keys is inserted at the end. -/
theorem insert_of_forall_lt (h : ∀ p ∈ l, p.1 < key) :
    insert key value l = l ++ [(key, value)] := by
  induction l with
  | nil => rfl
  | cons p l ih =>
    have lt := h p List.mem_cons_self
    rw [insert, if_neg (String.lt_asymm lt), if_neg (String.ne_of_lt lt).symm,
      ih fun q hq => h q (List.mem_cons_of_mem _ hq), List.cons_append]

theorem ofPairs_of_sorted (h : Sorted l) : ofPairs l = l := by
  induction l using List.reverseRecOn with
  | nil => rfl
  | append_singleton l p ih =>
    obtain ⟨sorted, -, lt⟩ := List.pairwise_append.1 h
    rw [ofPairs, List.foldl_append, List.foldl_cons, List.foldl_nil, ← ofPairs, ih sorted]
    exact insert_of_forall_lt fun q hq => lt q hq p List.mem_cons_self

theorem lookup_map_value {β : Type} (g : String → α → β) (l : List (String × α)) :
    (l.map fun (k, v) => (k, g k v)).lookup key = (l.lookup key).map (g key) := by
  induction l with
  | nil => rfl
  | cons p l ih =>
    obtain ⟨k, v⟩ := p
    rw [List.map_cons, List.lookup_cons, List.lookup_cons]
    cases h : key == k with
    | true => rw [beq_iff_eq.1 h, Option.map_some]
    | false => exact ih

/-! ## Distinct keys -/

theorem Sorted.nodup_keys (h : Sorted l) : (l.map (·.1)).Nodup :=
  (sorted_iff_keys.1 h).imp String.ne_of_lt

theorem lookup_eq_none_iff_not_mem : l.lookup key = none ↔ key ∉ l.map (·.1) := by
  rw [List.lookup_eq_none_iff, List.mem_map]
  constructor
  · rintro h ⟨p, mem, rfl⟩
    simpa using h p mem
  · intro h p mem
    exact bne_iff_ne.2 fun same => h ⟨p, mem, same.symm⟩

theorem mem_of_lookup_eq_some (h : l.lookup key = some value) : (key, value) ∈ l := by
  obtain ⟨before, after, rfl, -⟩ := List.lookup_eq_some_iff.1 h
  exact List.mem_append_right _ List.mem_cons_self

theorem exists_lookup_of_mem (h : key ∈ l.map (·.1)) : ∃ value, l.lookup key = some value := by
  rw [← Option.ne_none_iff_exists']
  exact fun none => lookup_eq_none_iff_not_mem.1 none h

theorem lookup_eq_some_iff_mem (h : (l.map (·.1)).Nodup) :
    l.lookup key = some value ↔ (key, value) ∈ l := by
  refine ⟨mem_of_lookup_eq_some, fun mem => ?_⟩
  obtain ⟨before, after, rfl⟩ := List.append_of_mem mem
  rw [List.map_append, List.map_cons, List.nodup_append] at h
  refine List.lookup_eq_some_iff.2 ⟨before, after, rfl, fun p hp => bne_iff_ne.2 ?_⟩
  exact (h.2.2 p.1 (List.mem_map_of_mem hp) key List.mem_cons_self).symm

theorem lookup_reverse (h : (l.map (·.1)).Nodup) (key : String) :
    l.reverse.lookup key = l.lookup key := by
  have nodup : (l.reverse.map (·.1)).Nodup := by rwa [List.map_reverse, List.nodup_reverse]
  refine Option.ext fun value => ?_
  rw [lookup_eq_some_iff_mem nodup, lookup_eq_some_iff_mem h, List.mem_reverse]

/-- Pairs with distinct keys are all in their map. -/
theorem mem_ofPairs_iff (h : (l.map (·.1)).Nodup) {p : String × α} : p ∈ ofPairs l ↔ p ∈ l := by
  refine ⟨mem_of_mem_ofPairs, fun mem => ?_⟩
  have found : get? (ofPairs l) p.1 = some p.2 := by
    rw [get?_ofPairs, lookup_reverse h]
    exact (lookup_eq_some_iff_mem h).2 mem
  exact (lookup_eq_some_iff_mem (sorted_ofPairs l).nodup_keys).1 found

/-- Lists in key order that agree on some keys have the same pairs with these keys. -/
theorem filter_eq_filter {m : List (String × α)} (hl : Sorted l) (hm : Sorted m)
    {q : String → Bool} (agree : ∀ key, q key = true → get? l key = get? m key) :
    l.filter (fun p => q p.1) = m.filter (fun p => q p.1) := by
  have mem (p : String × α) : p ∈ l.filter (fun p => q p.1) ↔ p ∈ m.filter (fun p => q p.1) := by
    rw [List.mem_filter, List.mem_filter]
    refine and_congr_left fun hq => ?_
    rw [← lookup_eq_some_iff_mem hl.nodup_keys, ← lookup_eq_some_iff_mem hm.nodup_keys]
    exact (congrArg (· = some p.2) (agree p.1 hq)).to_iff
  have nodup {l : List (String × α)} (h : Sorted l) : (l.filter fun p => q p.1).Nodup :=
    h.nodup_keys.of_map.filter _
  -- The order of the keys leaves only one way to arrange the pairs.
  refine ((List.perm_ext_iff_of_nodup (nodup hl) (nodup hm)).2 mem).eq_of_pairwise ?_
    (hl.filter _) (hm.filter _)
  exact fun a b _ _ hab hba => absurd hba (String.lt_asymm hab)

theorem get?_erase_self : get? (erase l key) key = none := by
  rw [get?, erase, List.lookup_eq_none_iff]
  intro p hp
  have hne : p.1 ≠ key := by simpa using (List.mem_filter.1 hp).2
  simpa using hne.symm

theorem get?_erase_of_ne (h : other ≠ key) : get? (erase l key) other = get? l other := by
  induction l with
  | nil => rfl
  | cons p l ih =>
    obtain ⟨k, v⟩ := p
    simp only [get?, erase] at ih ⊢
    by_cases hp : k = key
    · have hb : (other == k) = false := by simpa [hp] using h
      rw [List.filter_cons_of_neg (by simpa using hp), ih, List.lookup_cons, hb]
    · rw [List.filter_cons_of_pos (by simpa using hp), List.lookup_cons, List.lookup_cons, ih]

end ContainerJobs.Assoc
