import ContainerJobs.Json.Parser
import ContainerJobs.Proofs.Json.Token

/-!
# The tree of a written value

From the tokens of a value the parser builds the tree of the value, wherever the value
stands (`Json.Progress.run_tokensOf`). So the text of a value has the tree of the value
in both layouts (`Json.parse_compact`, `Json.parse_prettyAt`). The other way round, an
integer in the tree of a text is always a 64-bit integer, since the scanner takes a
larger one for a number of double precision (`Json.isBounded_of_parse`).
-/

namespace ContainerJobs

/-! ## Induction -/

/-- Induction on a value, with the items of an array and the members of an object. -/
@[elab_as_elim]
theorem Json.induct {P : Json → Prop} (null : P .null) (bool : ∀ b, P (.bool b))
    (number : ∀ n, P (.number n)) (string : ∀ s, P (.string s))
    (array : ∀ items, (∀ v ∈ items, P v) → P (.array items))
    (object : ∀ members, (∀ m ∈ members, P m.2) → P (.object members)) (v : Json) : P v := by
  refine @Json.rec P (fun items => ∀ v ∈ items, P v) (fun members => ∀ m ∈ members, P m.2)
    (fun m => P m.2) null bool number string array object ?_ ?_ ?_ ?_ ?_ v
  · exact List.forall_mem_nil _
  · exact fun w items hw hitems => List.forall_mem_cons.2 ⟨hw, hitems⟩
  · exact List.forall_mem_nil _
  · exact fun m members hm hmembers => List.forall_mem_cons.2 ⟨hm, hmembers⟩
  · exact fun _ _ hv => hv

namespace Json

/-! ## From tokens to the tree -/

namespace Progress

variable {p q : Progress} {stack : List Frame} {rest : List Token}

theorem run_cons (p : Progress) (t : Token) (l : List Token) :
    p.run (t :: l) = (p.step t).bind fun q => q.run l := by
  rw [run, List.foldlM_cons]
  rfl

/-- A value may follow, to stand on top of `stack`. -/
def Awaits (p : Progress) (stack : List Frame) : Prop :=
  ∀ t, t ≠ .endArray → p.step t = begin? stack t

theorem awaits_value (stack : List Frame) : (value stack).Awaits stack := fun _ _ => rfl

theorem awaits_firstItem (stack : List Frame) :
    (firstItem stack).Awaits (.array [] :: stack) := by
  intro t ne
  cases t
  case endArray => exact absurd rfl ne
  all_goals rfl

theorem Awaits.run_cons (hp : p.Awaits stack) {t : Token} (ne : t ≠ .endArray) (l : List Token) :
    p.run (t :: l) = (begin? stack t).bind fun q => q.run l := by
  rw [Progress.run_cons, hp t ne]

/-- The tokens of the value lead to the tree of the value, wherever it stands. -/
def Builds (v : Json) : Prop :=
  ∀ p stack rest, Awaits p stack →
    p.run (v.tokensOf ++ rest) = (complete (.ofJson v) stack).run rest

theorem run_tokensOfItems {items : List Json} (h : ∀ v ∈ items, Builds v) (ne : items ≠ [])
    {done : List Node} (hp : p.Awaits (.array done :: stack)) :
    p.run (tokensOfItems items ++ .endArray :: rest) =
      (complete (.array (done.reverse ++ Node.ofItems items)) stack).run rest := by
  induction items generalizing p done with
  | nil => exact absurd rfl ne
  | cons v items ih =>
    have first := h v List.mem_cons_self
    cases items with
    | nil =>
      rw [tokensOfItems, first _ _ _ hp, run_cons]
      simp [step, Node.ofItems]
    | cons w items =>
      have rest := ih (fun u hu => h u (List.mem_cons_of_mem _ hu)) (List.cons_ne_nil _ _)
        (awaits_value (.array (.ofJson v :: done) :: stack))
      rw [tokensOfItems, List.append_assoc, first _ _ _ hp, List.cons_append, run_cons]
      simpa [step, Node.ofItems] using rest

theorem run_tokensOfMembers {members : List (String × Json)} (h : ∀ m ∈ members, Builds m.2)
    (ne : members ≠ []) {done : List (Option String × Node)}
    (hp : ∀ k, p.step (.string k) = some (colon done k stack)) :
    p.run (tokensOfMembers members ++ .endObject :: rest) =
      (complete (.object (done.reverse ++ Node.ofMembers members)) stack).run rest := by
  induction members generalizing p done with
  | nil => exact absurd rfl ne
  | cons m members ih =>
    obtain ⟨k, v⟩ := m
    have first := h (k, v) List.mem_cons_self
    have key (l : List Token) : p.run (.string (some k) :: .colon :: (v.tokensOf ++ l)) =
        (complete (.ofJson v) (.object done (some k) :: stack)).run l := by
      rw [run_cons, hp, Option.bind_some, run_cons, step, Option.bind_some,
        first _ _ _ (awaits_value _)]
    cases members with
    | nil =>
      rw [tokensOfMembers, List.cons_append, List.cons_append, key, run_cons]
      simp [step, Node.ofMembers]
    | cons m members =>
      have rest := ih (fun u hu => h u (List.mem_cons_of_mem _ hu)) (List.cons_ne_nil _ _)
        (p := .key ((some k, .ofJson v) :: done) stack) (fun _ => rfl)
      rw [tokensOfMembers, List.cons_append, List.cons_append, List.append_assoc, key,
        List.cons_append, run_cons]
      simpa [step, Node.ofMembers] using rest

theorem run_tokensOf (v : Json) : Builds v := by
  induction v using Json.induct with
  | null => exact fun _ _ rest hp => hp.run_cons (t := .scalar _) (by simp) rest
  | bool b => exact fun _ _ rest hp => hp.run_cons (t := .scalar _) (by simp) rest
  | number n => exact fun _ _ rest hp => hp.run_cons (t := .scalar _) (by simp) rest
  | string s => exact fun _ _ rest hp => hp.run_cons (t := .string _) (by simp) rest
  | array items ih =>
    intro p stack rest hp
    rw [tokensOf, List.cons_append, hp.run_cons (t := .beginArray) (by simp), begin?,
      Option.bind_some, List.append_assoc, List.singleton_append]
    cases items with
    | nil => rfl
    | cons v items => exact run_tokensOfItems ih (List.cons_ne_nil _ _) (awaits_firstItem stack)
  | object members ih =>
    intro p stack rest hp
    rw [tokensOf, List.cons_append, hp.run_cons (t := .beginObject) (by simp), begin?,
      Option.bind_some, List.append_assoc, List.singleton_append]
    cases members with
    | nil => rfl
    | cons m members =>
      exact run_tokensOfMembers (p := .firstKey stack) ih (List.cons_ne_nil _ _) fun _ => rfl

end Progress

/-- A text with the tokens of a value has the tree of the value. -/
theorem Scans.parse {l : List Char} {v : Json} (h : Scans l v.tokensOf) :
    parse l = some (.ofJson v) := by
  have built := Progress.run_tokensOf v (.value []) [] [] (Progress.awaits_value [])
  rw [List.append_nil] at built
  rw [Json.parse, parseChars, h.tokens, Option.bind_eq_bind, Option.bind_some, built]
  rfl

end Json

/-! ## The integers in a tree -/

/-- All integers in the tree are 64-bit integers. -/
inductive Node.IsBounded : Node → Prop where
  | null : IsBounded .null
  | bool (b : Bool) : IsBounded (.bool b)
  | number {n : Option Number} (h : ∀ k, n = some (.integer k) → Number.IsWord k) :
    IsBounded (.number n)
  | string (s : Option String) : IsBounded (.string s)
  | array {items : List Node} (h : ∀ n ∈ items, IsBounded n) : IsBounded (.array items)
  | object {members : List (Option String × Node)} (h : ∀ m ∈ members, IsBounded m.2) :
    IsBounded (.object members)

/-- A numeral that is too large for a 64-bit integer stands for no integer. -/
theorem Numeral.isWord_of_number? {n : Numeral} {k : Int} (h : n.number? = some (.integer k)) :
    Number.IsWord k := by
  simp only [number?] at h
  split at h
  · next small =>
    simp only [Bool.and_eq_true, decide_eq_true_eq] at small
    obtain rfl : ((Nat.ofDigitChars 10 n.whole 0 : Nat) : Int) = k := by simpa using h
    constructor <;> omega
  · split at h
    · next small =>
      simp only [Bool.and_eq_true, decide_eq_true_eq] at small
      obtain rfl : -((Nat.ofDigitChars 10 n.whole 0 : Nat) : Int) = k := by simpa using h
      constructor <;> omega
    · simp at h

namespace Json

/-- The scalar of a token has no larger integer. -/
def Token.IsBounded : Token → Prop
  | .scalar n => n.IsBounded
  | _ => True

theorem isBounded_of_literal? {l : List Char} {n : Node} (h : Mode.literal? l = some n) :
    n.IsBounded := by
  simp only [Mode.literal?] at h
  split at h
  · cases h; exact .null
  · split at h
    · cases h; exact .bool _
    · split at h
      · cases h; exact .bool _
      · cases h

theorem isBounded_of_finish {m : Mode} {ts : List Token} (h : m.finish = some ts) :
    ∀ t ∈ ts, t.IsBounded := by
  cases m with
  | between => cases h; exact List.forall_mem_nil _
  | word l =>
    obtain ⟨n, literal, rfl⟩ := Option.map_eq_some_iff.1 h
    simpa [Token.IsBounded] using isBounded_of_literal? literal
  | numeral l =>
    obtain ⟨n, -, rfl⟩ := Option.map_eq_some_iff.1 h
    simpa [Token.IsBounded] using Node.IsBounded.number fun _ => Numeral.isWord_of_number?
  | string s => cases h

theorem isBounded_of_first {c : Char} {x : List Token × Mode} (h : Mode.first c = some x) :
    ∀ t ∈ x.1, t.IsBounded := by
  unfold Mode.first at h
  split at h
  case h_12 =>
    split at h
    · cases h; exact List.forall_mem_nil _
    · split at h
      · cases h; exact List.forall_mem_nil _
      · cases h
  all_goals
    cases h
    simp [Token.IsBounded]

/-- Within a string there are no scalars. -/
theorem isBounded_of_stringStep {s : OpenString} {c : Char} {x : List Token × Mode}
    (h : Mode.stringStep s c = some x) : ∀ t ∈ x.1, t.IsBounded := by
  rw [Mode.stringStep] at h
  split at h
  · split at h
    · cases h; simp [Token.IsBounded]
    split at h
    · cases h; exact List.forall_mem_nil _
    split at h
    · cases h
    · cases h; exact List.forall_mem_nil _
  · split at h
    · cases h; exact List.forall_mem_nil _
    · obtain ⟨d, -, rfl⟩ := Option.map_eq_some_iff.1 h
      exact List.forall_mem_nil _
  · obtain ⟨d, -, rfl⟩ := Option.map_eq_some_iff.1 h
    split <;> exact List.forall_mem_nil _

theorem isBounded_of_stepChar {m : Mode} {c : Char} {x : List Token × Mode}
    (h : m.stepChar c = some x) : ∀ t ∈ x.1, t.IsBounded := by
  have ended {m : Mode} (h : Mode.stepChar.ended m c = some x) : ∀ t ∈ x.1, t.IsBounded := by
    simp only [Mode.stepChar.ended, Option.bind_eq_bind, Option.bind_eq_some_iff, Option.pure_def,
      Option.some.injEq] at h
    obtain ⟨done, finish, y, first, rfl⟩ := h
    exact List.forall_mem_append.2 ⟨isBounded_of_finish finish, isBounded_of_first first⟩
  cases m with
  | between => exact isBounded_of_first h
  | string s => exact isBounded_of_stringStep h
  | word l =>
    rw [Mode.stepChar] at h
    split at h
    · cases h; exact List.forall_mem_nil _
    · exact ended h
  | numeral l =>
    rw [Mode.stepChar] at h
    split at h
    · cases h; exact List.forall_mem_nil _
    · exact ended h

theorem isBounded_of_tokensFrom {m : Mode} {l : List (Option Char)} {ts : List Token}
    (h : tokensFrom m l = some ts) : ∀ t ∈ ts, t.IsBounded := by
  induction l generalizing m ts with
  | nil => exact isBounded_of_finish h
  | cons c l ih =>
    simp only [tokensFrom, Option.bind_eq_bind, Option.bind_eq_some_iff, Option.pure_def,
      Option.some.injEq] at h
    obtain ⟨x, step, rest, tail, rfl⟩ := h
    refine List.forall_mem_append.2 ⟨?_, ih tail⟩
    cases c with
    | some c => exact isBounded_of_stepChar step
    | none =>
      obtain ⟨m, -, rfl⟩ := Option.map_eq_some_iff.1 step
      exact List.forall_mem_nil _

/-- The trees in an open array or object. -/
def Frame.nodes : Frame → List Node
  | .array items => items
  | .object members _ => members.map (·.2)

namespace Progress

/-- The trees that have been built. -/
def nodes : Progress → List Node
  | value stack | firstItem stack | firstKey stack => stack.flatMap Frame.nodes
  | key members stack | colon members _ stack => members.map (·.2) ++ stack.flatMap Frame.nodes
  | complete n stack => n :: stack.flatMap Frame.nodes

/-- They have no integers but 64-bit integers. -/
def IsBounded (p : Progress) : Prop := ∀ n ∈ p.nodes, n.IsBounded

variable {p q : Progress} {t : Token}

theorem isBounded_begin? (stack : List Frame)
    (hp : ∀ n ∈ stack.flatMap Frame.nodes, n.IsBounded) (ht : t.IsBounded)
    (h : begin? stack t = some q) : q.IsBounded := by
  cases t with
  | beginArray => cases h; exact hp
  | beginObject => cases h; exact hp
  | string s => cases h; exact List.forall_mem_cons.2 ⟨.string s, hp⟩
  | scalar n => cases h; exact List.forall_mem_cons.2 ⟨ht, hp⟩
  | _ => cases h

theorem IsBounded.step (hp : p.IsBounded) (ht : t.IsBounded) (h : p.step t = some q) :
    q.IsBounded := by
  unfold Progress.step at h
  split at h
  case h_1 => exact isBounded_begin? _ hp ht h
  case h_3 stack _ => exact isBounded_begin? (.array [] :: stack) hp ht h
  case h_12 => cases h
  all_goals
    cases h
    simp only [IsBounded, nodes, List.flatMap_cons, Frame.nodes, List.map_cons, List.map_nil,
      List.nil_append, List.cons_append, List.forall_mem_cons, List.forall_mem_append] at hp ⊢
  -- What is completed by the token holds the trees before it; otherwise none has changed.
  case h_2 => exact ⟨.array (List.forall_mem_nil _), hp⟩
  case h_4 => exact ⟨.object (List.forall_mem_nil _), hp⟩
  case h_9 =>
    refine ⟨.array fun n hn => ?_, hp.2.2⟩
    exact List.forall_mem_cons.2 ⟨hp.1, hp.2.1⟩ n (List.mem_reverse.1 hn)
  case h_11 =>
    refine ⟨.object fun m hm => ?_, hp.2.2⟩
    obtain rfl | hm := List.mem_cons.1 (List.mem_reverse.1 hm)
    · exact hp.1
    · exact hp.2.1 m.2 (List.mem_map_of_mem hm)
  all_goals exact hp

theorem IsBounded.run {l : List Token} (hp : p.IsBounded) (ht : ∀ t ∈ l, t.IsBounded)
    (h : p.run l = some q) : q.IsBounded := by
  induction l generalizing p with
  | nil => cases h; exact hp
  | cons t l ih =>
    obtain ⟨r, step, run⟩ := Option.bind_eq_some_iff.1 (run_cons p t l ▸ h)
    exact ih (hp.step (ht t List.mem_cons_self) step)
      (fun u hu => ht u (List.mem_cons_of_mem _ hu)) run

end Progress

/-- In the tree of a text all integers are 64-bit integers. -/
theorem isBounded_of_parse {l : List Char} {n : Node} (h : parse l = some n) : n.IsBounded := by
  simp only [parse, parseChars, Option.bind_eq_bind, Option.bind_eq_some_iff] at h
  obtain ⟨ts, scanned, p, run, tree⟩ := h
  have bounded : p.IsBounded := Progress.IsBounded.run (p := .value []) (List.forall_mem_nil _)
    (isBounded_of_tokensFrom scanned) run
  match p, tree with
  | .complete _ [], rfl => exact bounded _ List.mem_cons_self

end Json

end ContainerJobs
