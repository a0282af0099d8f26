import ContainerJobs.Proofs.Container.Id
import ContainerJobs.Proofs.Job.Key
import Mathlib.Algebra.Group.Nat.Defs
import Mathlib.Data.List.Find
import Mathlib.Data.List.Nodup

/-!
# Addresses of containers

A store finds a container by its name or by the beginning of its id. Names of
jobs have a hyphen in them and ids have none, so such a name means the container
of that name and no other (`find?_of_mem`, `erase_name`). The short form of an id
means its container as long as fewer than `shortIdCount` ids were given and no
container has such a form as its name (`answersTo_shortId`); after that, two
containers may share a short form (`shortId_ambiguous`).
-/

namespace ContainerJobs.ContainerStore

variable {s t : ContainerStore} {c d : Container} {address : String}

/-! ## Numbered stores -/

/-- The ids are made from different numbers up to the last one that was used, in
    ascending order. -/
def Numbered (s : ContainerStore) : Prop :=
  (s.containers.map (·.id)).Sublist ((List.range' 1 s.lastNumber).map idOf)

theorem numbered_empty : Numbered {} := List.Sublist.slnil

theorem Numbered.add (h : s.Numbered) {f : String → Container} (hf : ∀ id, (f id).id = id) :
    (s.add f).Numbered := by
  simp only [Numbered, ContainerStore.add, List.map_append, List.map_singleton,
    List.range'_1_concat, hf, Nat.add_comm 1]
  exact h.append (List.Sublist.refl _)

theorem Numbered.exists_number (h : s.Numbered) (hc : c ∈ s.containers) :
    ∃ n ≤ s.lastNumber, c.id = idOf n := by
  obtain ⟨n, hn, heq⟩ := List.mem_map.1 (h.subset (List.mem_map_of_mem hc))
  rw [List.mem_range'_1] at hn
  exact ⟨n, by omega, heq.symm⟩

theorem Numbered.hyphen_not_mem (h : s.Numbered) (hc : c ∈ s.containers) :
    '-' ∉ c.id.toList := by
  obtain ⟨n, -, hn⟩ := h.exists_number hc
  exact hn ▸ hyphen_not_mem_idOf n

theorem Numbered.pairwise (h : s.Numbered) {R : String → String → Prop}
    (ascends : ∀ m n, m < n → n ≤ s.lastNumber → R (idOf m) (idOf n)) :
    s.containers.Pairwise fun c d => R c.id d.id := by
  refine List.pairwise_map.1 (List.Pairwise.sublist h (List.pairwise_map.2 ?_))
  refine List.Pairwise.imp_of_mem (fun {m n} _ hn hlt => ascends m n hlt ?_)
    (List.pairwise_lt_range' (s := 1) (n := s.lastNumber))
  rw [List.mem_range'_1] at hn
  omega

theorem Numbered.ascend (h : s.Numbered) :
    s.containers.Pairwise fun c d => idValue c.id < idValue d.id :=
  h.pairwise (R := fun a b => idValue a < idValue b) fun _ _ hlt _ => idValue_strictMono hlt

theorem Numbered.ascend_text (h : s.Numbered) (few : s.lastNumber < shortIdCount) :
    s.containers.Pairwise fun c d => c.id < d.id :=
  h.pairwise fun _ _ hlt hle => idOf_lt hlt (hle.trans_lt few)

theorem Numbered.nodup_ids (h : s.Numbered) : (s.containers.map (·.id)).Nodup :=
  List.pairwise_map.2 (h.pairwise fun _ _ hlt _ heq => hlt.ne (idOf_injective heq))

/-! ## Parts -/

theorem map_modifyFirst {α : Type} {f : Container → Container} {g : Container → α}
    (hg : ∀ c, g (f c) = g c) (l : List Container) :
    (modifyFirst f address l).map g = l.map g := by
  induction l with
  | nil => rfl
  | cons c l ih =>
    rw [modifyFirst]
    split <;> simp [hg, ih]

theorem mem_modifyFirst {f : Container → Container} {l : List Container}
    (h : d ∈ modifyFirst f address l) : d ∈ l ∨ ∃ c ∈ l, d = f c := by
  induction l with
  | nil => exact .inl h
  | cons c l ih =>
    rw [modifyFirst] at h
    split at h
    · rcases List.mem_cons.1 h with rfl | h
      · exact .inr ⟨c, List.mem_cons_self, rfl⟩
      · exact .inl (List.mem_cons_of_mem _ h)
    · rcases List.mem_cons.1 h with rfl | h
      · exact .inl List.mem_cons_self
      · exact (ih h).imp (List.mem_cons_of_mem _)
          fun ⟨c, hc, heq⟩ => ⟨c, List.mem_cons_of_mem _ hc, heq⟩

/-- The store `t` has some of the containers of `s`, each with its name and id, but
    otherwise perhaps changed. -/
structure IsPart (t s : ContainerStore) : Prop where
  /-- The names and ids are some of the others. -/
  addresses : (t.containers.map fun c => (c.id, c.name)).Sublist
    (s.containers.map fun c => (c.id, c.name))
  /-- No id was given. -/
  last : t.lastNumber = s.lastNumber

theorem IsPart.exists_mem (h : t.IsPart s) (hc : c ∈ t.containers) :
    ∃ d ∈ s.containers, d.id = c.id ∧ d.name = c.name := by
  obtain ⟨d, hd, heq⟩ := List.mem_map.1
    (h.addresses.subset (List.mem_map_of_mem (f := fun c => (c.id, c.name)) hc))
  exact ⟨d, hd, Prod.mk.inj heq⟩

theorem IsPart.ids (h : t.IsPart s) :
    (t.containers.map (·.id)).Sublist (s.containers.map (·.id)) := by
  simpa [Function.comp_def] using h.addresses.map Prod.fst

theorem IsPart.names (h : t.IsPart s) :
    (t.containers.map (·.name)).Sublist (s.containers.map (·.name)) := by
  simpa [Function.comp_def] using h.addresses.map Prod.snd

theorem isPart_filter (s : ContainerStore) (p : Container → Bool) :
    IsPart { s with containers := s.containers.filter p } s where
  addresses := List.filter_sublist.map _
  last := rfl

theorem isPart_modify (s : ContainerStore) (address : String) {f : Container → Container}
    (hf : ∀ c, ((f c).id, (f c).name) = (c.id, c.name)) : (s.modify address f).IsPart s where
  addresses := by
    rw [modify, map_modifyFirst (g := fun c => (c.id, c.name)) hf]
  last := rfl

theorem isPart_erase (s : ContainerStore) (address : String) : (s.erase address).IsPart s where
  addresses := List.eraseP_sublist.map _
  last := rfl

theorem IsPart.refl (s : ContainerStore) : s.IsPart s := ⟨.refl _, rfl⟩

theorem IsPart.trans {u : ContainerStore} (h : t.IsPart s) (h' : s.IsPart u) : t.IsPart u :=
  ⟨h.addresses.trans h'.addresses, h.last.trans h'.last⟩

theorem Numbered.of_isPart (h : s.Numbered) (ht : t.IsPart s) : t.Numbered := by
  rw [Numbered, ht.last]
  exact ht.ids.trans h

/-! ## Addresses that one container at most answers to -/

theorem eraseP_eq_filter {p : Container → Bool} {l : List Container}
    (one : l.Pairwise fun c d => p c = true → p d = false) :
    l.eraseP p = l.filter fun c => !p c := by
  induction l with
  | nil => rfl
  | cons c l ih =>
    obtain ⟨head, tail⟩ := List.pairwise_cons.1 one
    cases hc : p c with
    | true =>
      rw [List.eraseP_cons_of_pos hc, List.filter_cons_of_neg (by simp [hc]), eq_comm,
        List.filter_eq_self]
      -- No later container answers, so the filter keeps them all.
      exact fun d hd => by simp [head d hd hc]
    | false =>
      rw [List.eraseP_cons_of_neg (by simp [hc]), List.filter_cons_of_pos (by simp [hc]), ih tail]

theorem modifyFirst_eq_map {f : Container → Container} {l : List Container}
    (one : l.Pairwise fun c d => c.answersTo address = true → d.answersTo address = false) :
    modifyFirst f address l = l.map fun c => if c.answersTo address then f c else c := by
  induction l with
  | nil => rfl
  | cons c l ih =>
    obtain ⟨head, tail⟩ := List.pairwise_cons.1 one
    rw [modifyFirst, List.map_cons]
    cases hc : c.answersTo address with
    | true =>
      have rest : l.map (fun c => if c.answersTo address then f c else c) = l.map id :=
        List.map_congr_left fun d hd => by simp [head d hd hc]
      simp [rest]
    | false => simp [ih tail]

theorem erase_of_find?_eq_none (h : s.find? address = none) : s.erase address = s := by
  rw [erase, List.eraseP_of_forall_not]
  exact fun c hc => by simpa using List.find?_eq_none.1 h c hc

theorem modify_of_find?_eq_none (h : s.find? address = none) (f : Container → Container) :
    s.modify address f = s := by
  have list (l : List Container) (hl : ∀ c ∈ l, c.answersTo address = false) :
      modifyFirst f address l = l := by
    induction l with
    | nil => rfl
    | cons c l ih =>
      rw [modifyFirst, hl c List.mem_cons_self, ih fun d hd => hl d (List.mem_cons_of_mem _ hd)]
      rfl
  rw [modify, list _ fun c hc => by simpa using List.find?_eq_none.1 h c hc]

theorem isSome_find?_modify {f : Container → Container} {other : String}
    (hf : ∀ c, (f c).answersTo other = c.answersTo other) :
    ((s.modify address f).find? other).isSome = (s.find? other).isSome := by
  have any (t : ContainerStore) : (t.find? other).isSome =
      (t.containers.map (·.answersTo other)).any id := by
    rw [find?, List.isSome_find?, List.any_map]
    rfl
  rw [any, any, modify, map_modifyFirst hf]

/-- A container is removed no matter how it was changed before. -/
theorem erase_modify (s : ContainerStore) (address : String) {f : Container → Container}
    (hf : ∀ c, (f c).answersTo address = c.answersTo address) :
    (s.modify address f).erase address = s.erase address := by
  have list (l : List Container) : (modifyFirst f address l).eraseP (·.answersTo address) =
      l.eraseP (·.answersTo address) := by
    induction l with
    | nil => rfl
    | cons c l ih =>
      rw [modifyFirst]
      cases hc : c.answersTo address with
      | true => simp [hc, hf]
      | false => simp [hc, ih]
  rw [erase, modify, list, erase]

/-! ## Containers by name -/

theorem answersTo_of_hyphen (hid : '-' ∉ c.id.toList) (h : '-' ∈ address.toList) :
    c.answersTo address = (c.name == address) := by
  have hp : address.toList.isPrefixOf c.id.toList = false := by
    rw [← Bool.not_eq_true, List.isPrefixOf_iff_prefix]
    exact fun pre => hid (pre.subset h)
  simp [Container.answersTo, hp]

theorem find?_name (hs : s.Numbered) (h : '-' ∈ address.toList) :
    s.find? address = s.containers.find? (·.name == address) :=
  List.find?_congr fun _ hc => answersTo_of_hyphen (hs.hyphen_not_mem hc) h

/-- No two containers have the same name. -/
structure NamesDistinct (s : ContainerStore) : Prop where
  /-- The ids are made from numbers. -/
  numbered : s.Numbered
  /-- No two containers have the same name. -/
  nodup : (s.containers.map (·.name)).Nodup

theorem NamesDistinct.eq_of_name (h : s.NamesDistinct) (hc : c ∈ s.containers)
    (hd : d ∈ s.containers) (name : c.name = d.name) : c = d :=
  List.inj_on_of_nodup_map h.nodup hc hd name

theorem NamesDistinct.find?_of_mem (h : s.NamesDistinct) (hc : c ∈ s.containers)
    (hyphen : '-' ∈ c.name.toList) : s.find? c.name = some c := by
  rw [find?_name h.numbered hyphen]
  have found : (s.containers.find? (·.name == c.name)).isSome = true :=
    List.find?_isSome.2 ⟨c, hc, beq_self_eq_true _⟩
  obtain ⟨d, hd⟩ := Option.isSome_iff_exists.1 found
  have same := h.eq_of_name (List.mem_of_find?_eq_some hd) hc (by simpa using List.find?_some hd)
  rw [hd, same]

theorem NamesDistinct.pairwise (h : s.NamesDistinct) (ha : '-' ∈ address.toList) :
    s.containers.Pairwise
      fun c d => c.answersTo address = true → d.answersTo address = false := by
  -- No id begins with an address that has a hyphen, so it is compared with names alone.
  refine (List.pairwise_map.1 h.nodup).imp_of_mem fun hc hd hne => ?_
  rw [answersTo_of_hyphen (h.numbered.hyphen_not_mem hc) ha,
    answersTo_of_hyphen (h.numbered.hyphen_not_mem hd) ha]
  simp only [beq_iff_eq, beq_eq_false_iff_ne]
  rintro rfl
  exact Ne.symm hne

theorem NamesDistinct.erase_name (h : s.NamesDistinct) (ha : '-' ∈ address.toList) :
    s.erase address = { s with containers := s.containers.filter (·.name ≠ address) } := by
  rw [erase, eraseP_eq_filter (h.pairwise ha)]
  congr 1
  refine List.filter_congr fun c hc => ?_
  rw [answersTo_of_hyphen (h.numbered.hyphen_not_mem hc) ha]
  simp [beq_eq_decide]

theorem NamesDistinct.modify_name (h : s.NamesDistinct) (ha : '-' ∈ address.toList)
    (f : Container → Container) : s.modify address f =
      { s with containers := s.containers.map fun c => if c.name = address then f c else c } := by
  rw [modify, modifyFirst_eq_map (h.pairwise ha)]
  congr 1
  refine List.map_congr_left fun c hc => ?_
  rw [answersTo_of_hyphen (h.numbered.hyphen_not_mem hc) ha]
  simp

theorem NamesDistinct.of_isPart (h : s.NamesDistinct) (ht : t.IsPart s) : t.NamesDistinct where
  numbered := h.numbered.of_isPart ht
  nodup := h.nodup.sublist ht.names

theorem NamesDistinct.find?_erase (h : s.NamesDistinct) (ha : '-' ∈ address.toList) :
    (s.erase address).find? address = none := by
  rw [find?_name (h.of_isPart (isPart_erase s address)).numbered ha, h.erase_name ha]
  simp

theorem NamesDistinct.add (h : s.NamesDistinct) {f : String → Container} {name : String}
    (hf : ∀ id, (f id).id = id ∧ (f id).name = name)
    (free : ∀ c ∈ s.containers, c.name ≠ name) : (s.add f).NamesDistinct where
  numbered := h.numbered.add fun id => (hf id).1
  nodup := by
    simp only [ContainerStore.add, List.map_append, List.map_singleton, (hf _).2]
    refine List.nodup_append.2 ⟨h.nodup, List.nodup_singleton _, ?_⟩
    simp only [List.mem_map, List.mem_singleton]
    rintro _ ⟨c, hc, rfl⟩ _ rfl
    exact free c hc

/-- Nothing is found under an address only if it is no name. -/
theorem name_ne_of_find?_eq_none (h : s.find? address = none) (hc : c ∈ s.containers) :
    c.name ≠ address := by
  rintro rfl
  simpa [Container.answersTo] using List.find?_eq_none.1 h c hc

/-- Names tell the containers apart: each has a name that no other one has, and
    that is not the beginning of an id. -/
structure NamesApart (s : ContainerStore) : Prop where
  /-- The ids are made from numbers. -/
  numbered : s.Numbered
  /-- No name is taken for an id. -/
  hyphens : ∀ c ∈ s.containers, '-' ∈ c.name.toList
  /-- No two containers have the same name. -/
  nodup : (s.containers.map (·.name)).Nodup

theorem NamesApart.distinct (h : s.NamesApart) : s.NamesDistinct :=
  ⟨h.numbered, h.nodup⟩

theorem namesApart_empty : NamesApart {} :=
  ⟨numbered_empty, by simp, List.nodup_nil⟩

theorem find?_of_mem (h : s.NamesApart) (hc : c ∈ s.containers) : s.find? c.name = some c :=
  h.distinct.find?_of_mem hc (h.hyphens c hc)

theorem NamesApart.of_isPart (h : s.NamesApart) (ht : t.IsPart s) : t.NamesApart where
  numbered := h.numbered.of_isPart ht
  hyphens c hc := by
    obtain ⟨d, hd, -, hname⟩ := ht.exists_mem hc
    exact hname ▸ h.hyphens d hd
  nodup := h.nodup.sublist ht.names

theorem NamesApart.add (h : s.NamesApart) {f : String → Container} {name : String}
    (hf : ∀ id, (f id).id = id ∧ (f id).name = name)
    (ha : '-' ∈ name.toList) (free : s.find? name = none) : (s.add f).NamesApart where
  numbered := h.numbered.add fun id => (hf id).1
  hyphens c hc := by
    rcases List.mem_append.1 hc with hc | hc
    · exact h.hyphens c hc
    · rw [List.mem_singleton.1 hc, (hf _).2]
      exact ha
  nodup := (h.distinct.add hf fun _ => name_ne_of_find?_eq_none free).nodup

/-! ## Containers by short ids -/

/-- Short ids tell the containers apart: few enough ids were given, and no
    container has a name that an id begins with. -/
structure ShortIdsApart (s : ContainerStore) : Prop where
  /-- The ids are made from numbers. -/
  numbered : s.Numbered
  /-- No two ids have the same short form. -/
  few : s.lastNumber < shortIdCount
  /-- No name is taken for an id. -/
  names : ∀ c ∈ s.containers, ∀ n, ¬ c.name.toList <+: (idOf n).toList

theorem NamesApart.shortIdsApart (h : s.NamesApart) (few : s.lastNumber < shortIdCount) :
    s.ShortIdsApart :=
  ⟨h.numbered, few, fun c hc n pre => hyphen_not_mem_idOf n (pre.subset (h.hyphens c hc))⟩

theorem answersTo_shortId (h : s.ShortIdsApart) (hc : c ∈ s.containers) (hd : d ∈ s.containers) :
    d.answersTo c.shortId = true ↔ d.id = c.id := by
  obtain ⟨m, hm, hcm⟩ := h.numbered.exists_number hc
  obtain ⟨n, hn, hdn⟩ := h.numbered.exists_number hd
  have few := h.few
  have length {k : Nat} (hk : k ≤ s.lastNumber) : (hexNumber 12 k).length = 12 :=
    length_hexNumber (by decide) (by rw [shortIdCount] at few; omega)
  have short : c.shortId.toList = hexNumber 12 m := by
    rw [Container.shortId, String.toList_ofList, hcm, take_idOf (by omega)]
  have name_ne : d.name ≠ c.shortId := fun heq =>
    h.names d hd m ⟨hexNumber 52 m, by rw [heq, short, toList_idOf]⟩
  have ne_empty : c.shortId ≠ "" := fun heq => by
    simpa [heq, length hm] using congrArg List.length short
  have answers : d.answersTo c.shortId = true ↔ hexNumber 12 m <+: (idOf n).toList := by
    simp [Container.answersTo, name_ne, ne_empty, short, hdn, List.isPrefixOf_iff_prefix]
  rw [answers, toList_idOf, hcm, hdn]
  constructor
  · intro pre
    -- Both short forms are beginnings of one id, and equally long.
    have := List.prefix_of_prefix_length_le pre (List.prefix_append _ (hexNumber 52 n))
      (by rw [length hm, length hn])
    rw [hexNumber_injective 12 (this.eq_of_length (by rw [length hm, length hn]))]
  · intro heq
    have same := congrArg (fun id : String => id.toList.take 12) heq
    simp only [take_idOf (show m < shortIdCount by omega),
      take_idOf (show n < shortIdCount by omega)] at same
    exact ⟨_, by rw [same]⟩

theorem isSome_find?_shortId (h : s.ShortIdsApart) (hc : c ∈ s.containers) :
    (s.find? c.shortId).isSome = true :=
  List.find?_isSome.2 ⟨c, hc, (answersTo_shortId h hc hc).2 rfl⟩

theorem ShortIdsApart.pairwise (h : s.ShortIdsApart) (hc : c ∈ s.containers) :
    s.containers.Pairwise
      fun d d' => d.answersTo c.shortId = true → d'.answersTo c.shortId = false := by
  refine (List.pairwise_map.1 h.numbered.nodup_ids).imp_of_mem fun hd hd' hne => ?_
  rw [answersTo_shortId h hc hd, ← Bool.not_eq_true, answersTo_shortId h hc hd']
  exact fun heq heq' => hne (heq.trans heq'.symm)

theorem erase_shortId (h : s.ShortIdsApart) (hc : c ∈ s.containers) :
    s.erase c.shortId = { s with containers := s.containers.filter (·.id ≠ c.id) } := by
  rw [erase, eraseP_eq_filter (h.pairwise hc)]
  congr 1
  refine List.filter_congr fun d hd => ?_
  rw [Bool.eq_iff_iff]
  simp [← answersTo_shortId h hc hd]

theorem modify_shortId (h : s.ShortIdsApart) (hc : c ∈ s.containers)
    (f : Container → Container) : s.modify c.shortId f =
      { s with containers := s.containers.map fun d => if d.id = c.id then f d else d } := by
  rw [modify, modifyFirst_eq_map (h.pairwise hc)]
  congr 1
  refine List.map_congr_left fun d hd => ?_
  simp only [answersTo_shortId h hc hd]

theorem ShortIdsApart.of_isPart (h : s.ShortIdsApart) (ht : t.IsPart s) : t.ShortIdsApart where
  numbered := h.numbered.of_isPart ht
  few := ht.last ▸ h.few
  names c hc := by
    obtain ⟨d, hd, -, hname⟩ := ht.exists_mem hc
    exact hname ▸ h.names d hd

end ContainerJobs.ContainerStore
