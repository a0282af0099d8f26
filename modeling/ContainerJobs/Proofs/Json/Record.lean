import ContainerJobs.Json.Record
import ContainerJobs.Proofs.Json.Value
import Mathlib.Data.List.Forall2

/-!
# Reading a record back

A value *returns* if it is read from what is written for it (`Reader.Returns`). What a
reader takes from a text may be spelt in many ways; a reader *restores* if all that it
reads returns (`Reader.Restores`, `Reader.RestoresText`). If reader and writer of a record
go along one list of fields (`Reader.IsRecord`), then a record returns if its fields do,
and its reader restores if those of the fields do, whether the record was read from an
object with members in any order or from an array.
-/

namespace ContainerJobs

/-! ## Lists of readings -/

section

variable {α β : Type} {f : α → Option β} {l : List α} {r : List β}

theorem mapM_eq_some_map {g : α → β} (h : ∀ x ∈ l, f x = some (g x)) :
    l.mapM f = some (l.map g) := by
  induction l with
  | nil => rfl
  | cons x l ih =>
    obtain ⟨first, rest⟩ := List.forall_mem_cons.1 h
    rw [List.mapM_cons, first, ih rest]
    rfl

theorem mem_of_mapM_eq_some (h : l.mapM f = some r) : ∀ y ∈ r, ∃ x ∈ l, f x = some y := by
  induction l generalizing r with
  | nil => cases h; exact List.forall_mem_nil _
  | cons x l ih =>
    simp only [List.mapM_cons, Option.bind_eq_bind, Option.bind_eq_some_iff, Option.pure_def,
      Option.some.injEq] at h
    obtain ⟨y, first, r, rest, rfl⟩ := h
    refine List.forall_mem_cons.2 ⟨⟨x, List.mem_cons_self, first⟩, fun z hz => ?_⟩
    obtain ⟨x, hx, read⟩ := ih rest z hz
    exact ⟨x, List.mem_cons_of_mem _ hx, read⟩

theorem exists_mem_of_forall₂ {R : α → β → Prop} (h : List.Forall₂ R l r) :
    ∀ x ∈ l, ∃ y ∈ r, R x y := by
  induction h with
  | nil => exact List.forall_mem_nil _
  | cons first _ ih =>
    refine List.forall_mem_cons.2 ⟨⟨_, List.mem_cons_self, first⟩, fun x hx => ?_⟩
    obtain ⟨y, hy, related⟩ := ih x hx
    exact ⟨y, List.mem_cons_of_mem _ hy, related⟩

end

namespace Node

theorem ofItems_eq_map (l : List Json) : ofItems l = l.map ofJson := by
  induction l with
  | nil => rfl
  | cons v l ih => rw [ofItems, ih, List.map_cons]

theorem ofMembers_eq_map (l : List (String × Json)) :
    ofMembers l = l.map fun m => (some m.1, ofJson m.2) := by
  induction l with
  | nil => rfl
  | cons m l ih => rw [ofMembers, ih, List.map_cons]

end Node

/-- A record as an object: its fields in order, without those that have no value. -/
def Json.record (fields : List (String × Option Json)) : Json :=
  .object (fields.filterMap fun f => f.2.map (f.1, ·))

theorem Json.isWhole_record {fields : List (String × Option Json)}
    (h : ∀ f ∈ fields, ∀ v ∈ f.2, v.IsWhole) : (record fields).IsWhole := by
  refine .object fun m hm => ?_
  obtain ⟨f, hf, value⟩ := List.mem_filterMap.1 hm
  obtain ⟨v, hv, rfl⟩ := Option.map_eq_some_iff.1 value
  exact h f hf v hv

namespace Reader

variable {α β : Type} {r : Reader α} {w : α → Json} {P : α → Prop} {Q : β → Prop} {depth : Nat}

/-- Once written, the value has only 64-bit integers for numbers, and is read as itself at
    this depth. -/
def Returns (r : Reader α) (w : α → Json) (depth : Nat) (v : α) : Prop :=
  (w v).IsWhole ∧ r depth (.ofJson (w v)) = some v

/-- Such values as are read at this depth return, if they have the property `P`. -/
def Restores (r : Reader α) (w : α → Json) (P : α → Prop) (depth : Nat) : Prop :=
  ∀ n v, n.IsBounded → r depth n = some v → P v → Returns r w depth v

/-- The value that was read from a text is read from the text written for it, in either
    layout, if it has the property `P`. -/
def RestoresText (r : Reader α) (w : α → Json) (P : α → Prop) : Prop :=
  ∀ text v, r.ofText? text = some v → P v →
    r.ofText? (w v).render = some v ∧ r.ofText? (w v).pretty = some v

theorem Returns.ofText?_render {v : α} (h : Returns r w Json.maxDepth v) :
    r.ofText? (w v).render = some v := by
  rw [ofText?, Json.render, String.toList_ofList, Json.parse_compact h.1]
  exact h.2

theorem Returns.ofText?_pretty {v : α} (h : Returns r w Json.maxDepth v) :
    r.ofText? (w v).pretty = some v := by
  rw [ofText?, Json.pretty, String.toList_ofList, Json.parse_prettyAt h.1]
  exact h.2

theorem Restores.text (h : Restores r w P Json.maxDepth) : RestoresText r w P := by
  intro text v read hv
  obtain ⟨n, parsed, read⟩ := Option.bind_eq_some_iff.1 read
  have returns := h n v (Json.isBounded_of_parse parsed) read hv
  exact ⟨returns.ofText?_render, returns.ofText?_pretty⟩

/-! ## Plain values -/

theorem returns_string (s : String) : Returns string .string depth s :=
  ⟨.string s, rfl⟩

theorem restores_string : Restores string .string (fun _ => True) depth :=
  fun _ s _ _ _ => returns_string s

theorem returns_unsigned {n : Nat} (h : n ≤ Text.maxUnsigned) : Returns unsigned .nat depth n := by
  refine ⟨.integer ⟨by omega, Int.ofNat_le.2 h⟩, ?_⟩
  change (if 0 ≤ (n : Int) then some (n : Int).toNat else none) = some n
  rw [if_pos (Int.natCast_nonneg n), Int.toNat_natCast]

theorem restores_unsigned : Restores unsigned .nat (fun _ => True) depth := by
  intro n k bounded h _
  unfold unsigned at h
  split at h
  · next _ _ i =>
    obtain ⟨nonneg, eq⟩ := Option.ite_none_right_eq_some.1 h
    obtain rfl : i.toNat = k := Option.some.inj eq
    cases bounded with
    | number word => exact returns_unsigned (Int.toNat_le.2 (word i rfl).2)
  · cases h

theorem restores_value : Restores value (fun v => v) Json.IsWhole depth :=
  fun _ _ _ h whole => ⟨whole, (Node.isFree_of_value? h).value?_ofJson⟩

theorem restores_object : Restores object .object (fun l => ∀ m ∈ l, m.2.IsWhole) depth := by
  intro n l _ h whole
  obtain ⟨v, read, members⟩ := Option.bind_eq_some_iff.1 h
  obtain rfl : v = .object l := by
    cases v <;> cases members
    rfl
  refine ⟨.object whole, ?_⟩
  rw [object, (Node.isFree_of_value? read).value?_ofJson, Option.bind_some, Json.members?]

theorem restores_name {of? : String → Option α} {name : α → String}
    (h : ∀ v, of? (name v) = some v) :
    Restores (Reader.name of?) (fun v => .string (name v)) (fun _ => True) depth := by
  intro _ v _ _ _
  refine ⟨.string _, ?_⟩
  rw [Node.ofJson, Reader.name, h]

theorem Restores.list (h : ∀ depth, Restores r w P depth) :
    Restores r.list (fun l => .array (l.map w)) (fun l => ∀ v ∈ l, P v) depth := by
  intro n l bounded read hl
  unfold Reader.list at read
  split at read
  · next depth items =>
    cases bounded with
    | array bounded =>
      have each : ∀ v ∈ l, Returns r w depth v := by
        intro v hv
        obtain ⟨n, hn, read⟩ := mem_of_mapM_eq_some read v hv
        exact h depth n v (bounded n hn) read (hl v hv)
      refine ⟨.array (List.forall_mem_map.2 fun v hv => (each v hv).1), ?_⟩
      rw [Node.ofJson, Reader.list, Node.ofItems_eq_map, List.map_map, List.mapM_map]
      have back := mapM_eq_some_map (g := id) fun v hv => (each v hv).2
      rwa [List.map_id] at back
  · cases read

theorem restores_items : Restores value.list .array (fun l => ∀ v ∈ l, v.IsWhole) depth := by
  intro n l bounded read whole
  have returns := Restores.list (fun _ => restores_value) n l bounded read whole
  rwa [Returns, List.map_id'] at returns

/-! ## The fields of a record -/

/-- A field of a record: its name, what is read for it when the record is `v`, and what is
    written. -/
structure Field (α : Type) where
  /-- The name. -/
  name : FieldName
  /-- From this node, or none, the value of the field in the record is read. -/
  Reads (depth : Nat) (m : Option Node) (v : α) : Prop
  /-- What is written for the field. -/
  write (v : α) : Option Json

namespace Field

/-- A field that must be there. -/
def required (key : String) (r : Reader β) (w : β → Json) (get : α → β) : Field α where
  name := ⟨key, false⟩
  Reads depth m v := r.required depth m = some (get v)
  write v := some (w (get v))

/-- A field that is left out when it has no value. -/
def optional (key : String) (r : Reader β) (w : β → Json) (get : α → Option β) : Field α where
  name := ⟨key, false⟩
  Reads depth m v := r.optional depth m = some (get v)
  write v := (get v).map w

/-- A field that is written as `null` when it has no value. -/
def orNull (key : String) (r : Reader β) (w : β → Json) (get : α → Option β) : Field α where
  name := ⟨key, true⟩
  Reads depth m v := r.optional depth m = some (get v)
  write v := some ((get v).elim .null w)

/-- A field that has the value `absent` when it is missing. -/
def withDefault (key : String) (r : Reader β) (absent : β) (w : β → Json) (get : α → β) :
    Field α where
  name := ⟨key, true⟩
  Reads depth m v := r.withDefault absent depth m = some (get v)
  write v := some (w (get v))

/-- The field of the record is read from what is written for it. -/
def Returns (f : Field α) (depth : Nat) (v : α) : Prop :=
  (∀ j ∈ f.write v, j.IsWhole) ∧ f.Reads depth ((f.write v).map .ofJson) v

/-- What is read for the field returns, in records with the property `P`. -/
def Restores (f : Field α) (P : α → Prop) (depth : Nat) : Prop :=
  ∀ m v, (∀ n ∈ m, n.IsBounded) → f.Reads depth m v → P v → f.Returns depth v

variable {key : String} {r : Reader β} {w : β → Json} {absent : β} {v : α}

theorem returns_required {get : α → β} (h : Reader.Returns r w depth (get v)) :
    (required key r w get).Returns depth v :=
  ⟨fun _ hj => Option.some.inj hj ▸ h.1, h.2⟩

theorem restores_required {get : α → β} (h : Reader.Restores r w Q depth)
    (free : ∀ v, P v → Q (get v)) : (required key r w get).Restores P depth := by
  intro m v bounded reads hv
  obtain ⟨n, rfl, read⟩ := Option.bind_eq_some_iff.1 reads
  exact returns_required (h n (get v) (bounded n rfl) read (free v hv))

/-- A field whose reader returns all that it reads does so in all records. -/
theorem restores_required_any {get : α → β} (h : Reader.Restores r w (fun _ => True) depth) :
    (required key r w get).Restores P depth :=
  restores_required h fun _ _ => trivial

/-- What is read for an optional field is nothing, or read from a node. -/
theorem optional_eq_some {m : Option Node} {b : β} (h : r.optional depth m = some (some b)) :
    ∃ n, m = some n ∧ r depth n = some b := by
  cases m with
  | none => cases h
  | some n =>
    refine ⟨n, rfl, ?_⟩
    cases n
    case null => cases h
    all_goals
      obtain ⟨_, read, eq⟩ := Option.map_eq_some_iff.1 h
      exact read.trans eq

theorem optional_some_ofJson {v : Json} {b : β} (h : r depth (.ofJson v) = some b)
    (ne : v ≠ .null) : r.optional depth (some (.ofJson v)) = some (some b) := by
  have present : r.nullable depth (.ofJson v) = (r depth (.ofJson v)).map some := by
    cases v <;> first | rfl | exact absurd rfl ne
  rw [Reader.optional, present, h, Option.map_some]

theorem returns_optional {get : α → Option β} (h : ∀ b ∈ get v, Reader.Returns r w depth b)
    (ne : ∀ b, w b ≠ .null) : (optional key r w get).Returns depth v := by
  simp only [Returns, optional]
  cases value : get v with
  | none => exact ⟨nofun, rfl⟩
  | some b =>
    obtain ⟨whole, back⟩ := h b value
    exact ⟨fun _ hj => Option.some.inj hj ▸ whole, optional_some_ofJson back (ne b)⟩

theorem returns_orNull {get : α → Option β} (h : ∀ b ∈ get v, Reader.Returns r w depth b)
    (ne : ∀ b, w b ≠ .null) : (orNull key r w get).Returns depth v := by
  simp only [Returns, orNull]
  cases value : get v with
  | none => exact ⟨fun _ hj => Option.some.inj hj ▸ .null, rfl⟩
  | some b =>
    obtain ⟨whole, back⟩ := h b value
    exact ⟨fun _ hj => Option.some.inj hj ▸ whole, optional_some_ofJson back (ne b)⟩

/-- A value that was read for an optional field was read from a node. -/
theorem returns_of_optional {m : Option Node} {get : α → Option β}
    (h : Reader.Restores r w Q depth) (bounded : ∀ n ∈ m, n.IsBounded)
    (reads : r.optional depth m = some (get v)) (free : ∀ b ∈ get v, Q b) :
    ∀ b ∈ get v, Reader.Returns r w depth b := by
  intro b value
  obtain ⟨n, rfl, read⟩ := optional_eq_some (reads.trans (congrArg some value))
  exact h n b (bounded n rfl) read (free b value)

theorem restores_optional {get : α → Option β} (h : Reader.Restores r w Q depth)
    (ne : ∀ b, w b ≠ .null) (free : ∀ v, P v → ∀ b ∈ get v, Q b) :
    (optional key r w get).Restores P depth :=
  fun _ v bounded reads hv => returns_optional (returns_of_optional h bounded reads (free v hv)) ne

theorem restores_optional_any {get : α → Option β}
    (h : Reader.Restores r w (fun _ => True) depth) (ne : ∀ b, w b ≠ .null) :
    (optional key r w get).Restores P depth :=
  restores_optional h ne fun _ _ _ _ => trivial

theorem restores_orNull {get : α → Option β} (h : Reader.Restores r w Q depth)
    (ne : ∀ b, w b ≠ .null) (free : ∀ v, P v → ∀ b ∈ get v, Q b) :
    (orNull key r w get).Restores P depth :=
  fun _ v bounded reads hv => returns_orNull (returns_of_optional h bounded reads (free v hv)) ne

theorem restores_withDefault {get : α → β} (h : Reader.Restores r w Q depth)
    (default : Reader.Returns r w depth absent) (free : ∀ v, P v → Q (get v)) :
    (withDefault key r absent w get).Restores P depth := by
  intro m v bounded reads hv
  have returns : Reader.Returns r w depth (get v) := by
    cases m with
    | none =>
      obtain rfl : absent = get v := Option.some.inj reads
      exact default
    | some n => exact h n (get v) (bounded n rfl) reads (free v hv)
  exact ⟨fun _ hj => Option.some.inj hj ▸ returns.1, returns.2⟩

end Field

/-! ## Records -/

theorem isBounded_of_ofItems? {l : List FieldName} {items : List Node} {vs : List (Option Node)}
    (h : ofItems? l items = some vs) (bounded : ∀ n ∈ items, n.IsBounded) :
    ∀ v ∈ vs, ∀ m ∈ v, m.IsBounded := by
  fun_induction ofItems? l items generalizing vs with
  | case1 => cases h; exact List.forall_mem_nil _
  | case2 => cases h
  | case3 f fs default ih =>
    obtain ⟨vs, rest, rfl⟩ := Option.map_eq_some_iff.1 h
    exact List.forall_mem_cons.2 ⟨nofun, ih rest bounded⟩
  | case4 => cases h
  | case5 f fs n items ih =>
    obtain ⟨vs, rest, rfl⟩ := Option.map_eq_some_iff.1 h
    obtain ⟨first, bounded⟩ := List.forall_mem_cons.1 bounded
    exact List.forall_mem_cons.2 ⟨fun _ hm => Option.some.inj hm ▸ first, ih rest bounded⟩

/-- The values for the fields of a record come from its node. -/
theorem fields_eq_some {l : List FieldName} {n : Node} {d : Nat} {vs : List (Option Node)}
    (h : fields l depth n = some (d, vs)) (bounded : n.IsBounded) :
    depth = d + 1 ∧ ∀ v ∈ vs, ∀ m ∈ v, m.IsBounded := by
  unfold fields at h
  split at h
  · next depth members =>
    obtain ⟨vs, found, eq⟩ := Option.map_eq_some_iff.1 h
    cases eq
    cases bounded with
    | object bounded =>
      refine ⟨rfl, fun v hv m hm => ?_⟩
      obtain ⟨f, -, value⟩ :=
        mem_of_mapM_eq_some (Option.ite_none_left_eq_some.1 found).2 v hv
      split at value
      · cases value; cases hm
      · next filtered =>
        cases value; cases hm
        have mem := List.mem_filter.1 (filtered ▸ List.mem_cons_self)
        exact bounded _ mem.1
      · cases value
  · next depth items =>
    obtain ⟨vs, found, eq⟩ := Option.map_eq_some_iff.1 h
    cases eq
    cases bounded with
    | array bounded =>
      exact ⟨rfl, isBounded_of_ofItems? found bounded⟩
  · cases h

theorem filter_key {fs : List (String × Option Json)} (distinct : (fs.map Prod.fst).Nodup)
    {f : String × Option Json} (hf : f ∈ fs) : fs.filter (·.1 == f.1) = [f] := by
  induction fs with
  | nil => cases hf
  | cons g fs ih =>
    obtain ⟨new, distinct⟩ := List.nodup_cons.1 distinct
    obtain rfl | hf := List.mem_cons.1 hf
    · have others : fs.filter (·.1 == f.1) = [] := by
        refine List.filter_eq_nil_iff.2 fun g hg same => new ?_
        exact beq_iff_eq.1 same ▸ List.mem_map_of_mem hg
      rw [List.filter_cons_of_pos (by simp), others]
    · have ne : g.1 ≠ f.1 := fun same => new (same ▸ List.mem_map_of_mem hf)
      rw [List.filter_cons_of_neg (by simpa using ne), ih distinct hf]

/-- The only member of a written record with the key of a field is that of the field. -/
theorem filter_record {fs : List (String × Option Json)} (distinct : (fs.map Prod.fst).Nodup)
    {f : String × Option Json} (hf : f ∈ fs) :
    (Node.ofMembers (fs.filterMap fun f => f.2.map (f.1, ·))).filter (·.1 == some f.1) =
      (f.2.map fun v => (some f.1, Node.ofJson v)).toList := by
  rw [Node.ofMembers_eq_map, List.map_filterMap, List.filter_filterMap]
  -- Keys are distinct, so no other field is left by the filter, whatever it writes.
  calc fs.filterMap (fun g => ((g.2.map (g.1, ·)).map fun m => (some m.1, Node.ofJson m.2)).filter
        (·.1 == some f.1))
      = fs.filterMap (fun g => if g.1 == f.1 then g.2.map fun v => (some g.1, Node.ofJson v)
          else none) := by
        congr 1
        funext ⟨key, v⟩
        cases v <;> simp [Option.filter]
    _ = [f].filterMap (fun g => g.2.map fun v => (some g.1, Node.ofJson v)) := by
        rw [← List.filterMap_filter, filter_key distinct hf]
    _ = (f.2.map fun v => (some f.1, Node.ofJson v)).toList := by
        cases h : f.2 <;> simp [h]

theorem mapM_filter_record {fs : List (String × Option Json)}
    (distinct : (fs.map Prod.fst).Nodup) :
    (fs.map Prod.fst).mapM (fun key =>
      match (Node.ofMembers (fs.filterMap fun f => f.2.map (f.1, ·))).filter (·.1 == some key) with
      | [] => some none
      | [(_, v)] => some (some v)
      | _ => none) = some (fs.map fun f => f.2.map .ofJson) := by
  rw [List.mapM_map]
  refine mapM_eq_some_map fun f hf => ?_
  simp only [Function.comp_apply, filter_record distinct hf]
  cases f.2 <;> rfl

/-- In a written record each field is found with the value that was written. -/
theorem fields_record {l : List FieldName} {fs : List (String × Option Json)}
    (keys : l.map FieldName.key = fs.map Prod.fst) (distinct : (fs.map Prod.fst).Nodup) (d : Nat) :
    fields l (d + 1) (.ofJson (.record fs)) = some (d, fs.map fun f => f.2.map .ofJson) := by
  have named : (Node.ofMembers (fs.filterMap fun f => f.2.map (f.1, ·))).any (·.1.isNone) =
      false := by
    rw [Node.ofMembers_eq_map, List.any_map]
    exact List.any_eq_false.2 fun _ _ => nofun
  have found := mapM_filter_record distinct
  rw [← keys, List.mapM_map] at found
  rw [Json.record, Node.ofJson, fields, ofMembers?, named]
  exact Option.map_eq_some_iff.2 ⟨_, found, rfl⟩

/-- Reader and writer of a record go along the same fields. -/
structure IsRecord (r : Reader α) (w : α → Json) (fs : List (Field α)) : Prop where
  /-- The record is read if all its fields are. -/
  reads : ∀ depth n v, r depth n = some v ↔
    ∃ d l, fields (fs.map Field.name) depth n = some (d, l) ∧
      List.Forall₂ (fun (f : Field α) m => f.Reads d m v) fs l
  /-- The fields are written in their order. -/
  writes : ∀ v, w v = .record (fs.map fun f => (f.name.key, f.write v))
  /-- No two fields have one key. -/
  distinct : (fs.map fun f => f.name.key).Nodup

/-- A reader that looks for the fields first and then builds the record from them. -/
theorem IsRecord.of_build {fs : List (Field α)} (build : Nat × List (Option Node) → Option α)
    (looks : ∀ depth n, r depth n = (fields (fs.map Field.name) depth n).bind build)
    (builds : ∀ d l v, build (d, l) = some v ↔
      List.Forall₂ (fun (f : Field α) m => f.Reads d m v) fs l)
    (writes : ∀ v, w v = .record (fs.map fun f => (f.name.key, f.write v)))
    (distinct : (fs.map fun f => f.name.key).Nodup) : IsRecord r w fs where
  reads depth n v := by
    simp only [looks, Option.bind_eq_some_iff, Prod.exists, builds]
  writes := writes
  distinct := distinct

variable {fs : List (Field α)} {v : α}

/-- A record returns if all its fields do. -/
theorem IsRecord.returns (h : IsRecord r w fs) (each : ∀ f ∈ fs, f.Returns depth v) :
    Returns r w (depth + 1) v := by
  rw [Returns, h.writes v]
  refine ⟨Json.isWhole_record (List.forall_mem_map.2 fun f hf => (each f hf).1), ?_⟩
  have found := @fields_record (fs.map Field.name) (fs.map fun f => (f.name.key, f.write v))
    (by simp) (by simpa [Function.comp_def] using h.distinct) depth
  refine (h.reads (depth + 1) _ v).2 ⟨depth, _, found, ?_⟩
  rw [List.map_map, List.forall₂_map_right_iff, List.forall₂_same]
  exact fun f hf => (each f hf).2

theorem IsRecord.restores (h : IsRecord r w fs)
    (each : ∀ f ∈ fs, ∀ d, depth = d + 1 → f.Restores P d) : Restores r w P depth := by
  intro n v bounded read hv
  obtain ⟨d, l, found, reads⟩ := (h.reads depth n v).1 read
  obtain ⟨rfl, bounded⟩ := fields_eq_some found bounded
  -- Each field was read from a node in the one of the record, so what it read returns.
  refine h.returns fun f hf => ?_
  obtain ⟨m, hm, read⟩ := exists_mem_of_forall₂ reads f hf
  exact each f hf d rfl m v (bounded m hm) read hv

end Reader

end ContainerJobs
