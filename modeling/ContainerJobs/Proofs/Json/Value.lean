import ContainerJobs.Proofs.Assoc
import ContainerJobs.Proofs.Json.Tree

/-!
# Reading a value back

A value that was read has its objects in key order, and is nested no deeper than was
allowed (`Json.IsFree`). Such a value is taken out of its own tree as it is
(`Json.IsFree.value?_ofJson`). So a free-form value with no numbers but 64-bit integers
is read back from its text, in either layout (`Json.ofText?_render`,
`Json.ofText?_pretty`).
-/

namespace ContainerJobs

/-- Objects are in key order, and arrays and objects are nested at most so deep. -/
inductive Json.IsFree : (depth : Nat) → Json → Prop where
  | null {depth : Nat} : IsFree depth .null
  | bool {depth : Nat} (b : Bool) : IsFree depth (.bool b)
  | number {depth : Nat} (n : Number) : IsFree depth (.number n)
  | string {depth : Nat} (s : String) : IsFree depth (.string s)
  | array {depth : Nat} {items : List Json} (h : ∀ v ∈ items, IsFree depth v) :
    IsFree (depth + 1) (.array items)
  | object {depth : Nat} {members : List (String × Json)} (sorted : Assoc.Sorted members)
    (h : ∀ m ∈ members, IsFree depth m.2) : IsFree (depth + 1) (.object members)

namespace Json

variable {depth : Nat}

@[simp] theorem isFree_bool (b : Bool) : (bool b).IsFree depth := .bool b

@[simp] theorem isFree_int (n : Int) : (int n).IsFree depth := .number _

@[simp] theorem isFree_string (s : String) : (string s).IsFree depth := .string s

@[simp] theorem isFree_array_iff {items : List Json} :
    (array items).IsFree (depth + 1) ↔ ∀ v ∈ items, v.IsFree depth :=
  ⟨fun | .array h => h, .array⟩

@[simp] theorem isFree_object_iff {members : List (String × Json)} :
    (object members).IsFree (depth + 1) ↔
      Assoc.Sorted members ∧ ∀ m ∈ members, m.2.IsFree depth :=
  ⟨fun | .object sorted h => ⟨sorted, h⟩, fun h => .object h.1 h.2⟩

end Json

namespace Node

variable {depth : Nat}

/-! ## What is taken out of a tree -/

mutual

theorem isFree_of_value? {depth : Nat} : ∀ {n : Node} {v : Json},
    n.value? depth = some v → v.IsFree depth
  | .null, v, h => by cases h; exact .null
  | .bool b, v, h => by cases h; exact .bool b
  | .number n, v, h => by obtain ⟨_, -, rfl⟩ := Option.map_eq_some_iff.1 h; exact .number _
  | .string s, v, h => by obtain ⟨_, -, rfl⟩ := Option.map_eq_some_iff.1 h; exact .string _
  | .array items, v, h => by
    cases depth with
    | zero => cases h
    | succ depth =>
      obtain ⟨l, read, rfl⟩ := Option.map_eq_some_iff.1 h
      exact .array (isFree_of_items? read)
  | .object members, v, h => by
    cases depth with
    | zero => cases h
    | succ depth =>
      obtain ⟨l, read, rfl⟩ := Option.map_eq_some_iff.1 h
      exact .object (Assoc.sorted_ofPairs l) fun m hm =>
        isFree_of_members? read m (Assoc.mem_of_mem_ofPairs hm)

theorem isFree_of_items? {depth : Nat} : ∀ {items : List Node} {l : List Json},
    items? depth items = some l → ∀ v ∈ l, v.IsFree depth
  | [], l, h => by cases h; exact List.forall_mem_nil _
  | n :: items, l, h => by
    simp only [items?, Option.bind_eq_bind, Option.bind_eq_some_iff, Option.pure_def,
      Option.some.injEq] at h
    obtain ⟨v, value, r, rest, rfl⟩ := h
    exact List.forall_mem_cons.2 ⟨isFree_of_value? value, isFree_of_items? rest⟩

theorem isFree_of_members? {depth : Nat} :
    ∀ {members : List (Option String × Node)} {l : List (String × Json)},
    members? depth members = some l → ∀ m ∈ l, m.2.IsFree depth
  | [], l, h => by cases h; exact List.forall_mem_nil _
  | (k, n) :: members, l, h => by
    simp only [members?, Option.bind_eq_bind, Option.bind_eq_some_iff, Option.pure_def,
      Option.some.injEq] at h
    obtain ⟨k, -, v, value, r, rest, rfl⟩ := h
    exact List.forall_mem_cons.2 ⟨isFree_of_value? value, isFree_of_members? rest⟩

end

/-! ## What is put into a tree and taken out again -/

theorem items?_ofItems {items : List Json} (h : ∀ v ∈ items, (ofJson v).value? depth = some v) :
    items? depth (ofItems items) = some items := by
  induction items with
  | nil => rfl
  | cons v items ih =>
    obtain ⟨first, rest⟩ := List.forall_mem_cons.1 h
    rw [ofItems, items?, first, ih rest]
    rfl

theorem members?_ofMembers {members : List (String × Json)}
    (h : ∀ m ∈ members, (ofJson m.2).value? depth = some m.2) :
    members? depth (ofMembers members) = some members := by
  induction members with
  | nil => rfl
  | cons m members ih =>
    obtain ⟨first, rest⟩ := List.forall_mem_cons.1 h
    rw [ofMembers, members?, first, ih rest]
    rfl

end Node

namespace Json

theorem IsFree.value?_ofJson {depth : Nat} {v : Json} (h : v.IsFree depth) :
    (Node.ofJson v).value? depth = some v := by
  induction h with
  | null => rfl
  | bool b => rfl
  | number n => rfl
  | string s => rfl
  | array _ ih => rw [Node.ofJson, Node.value?, Node.items?_ofItems ih, Option.map_some]
  | object sorted _ ih =>
    rw [Node.ofJson, Node.value?, Node.members?_ofMembers ih, Option.map_some,
      Assoc.ofPairs_of_sorted sorted]

/-! ## Texts -/

/-- Both layouts of a value have its tree. -/
theorem parse_compact {v : Json} (h : v.IsWhole) : parse v.compact = some (.ofJson v) :=
  (scans_compact h).parse

theorem parse_prettyAt {v : Json} (h : v.IsWhole) (level : Nat) :
    parse (v.prettyAt level) = some (.ofJson v) :=
  (scans_prettyAt h level).parse

theorem ofText?_render {v : Json} (whole : v.IsWhole) (free : v.IsFree maxDepth) :
    ofText? v.render = some v := by
  rw [ofText?, render, String.toList_ofList, parse_compact whole]
  exact free.value?_ofJson

theorem ofText?_pretty {v : Json} (whole : v.IsWhole) (free : v.IsFree maxDepth) :
    ofText? v.pretty = some v := by
  rw [ofText?, pretty, String.toList_ofList, parse_prettyAt whole]
  exact free.value?_ofJson

end Json

end ContainerJobs
