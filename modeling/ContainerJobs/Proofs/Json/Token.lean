import ContainerJobs.Json.Printer
import ContainerJobs.Json.Scanner
import ContainerJobs.Proofs.Text.Decimal
import Mathlib.Data.List.TakeDrop

/-!
# The tokens of a written value

A value is written in two layouts, and both have the same tokens (`Json.tokensOf`).
A string and a bracket end by themselves, but a word and a numeral end where the text
goes on with something else. So what a text adds to the tokens is said together with
what may follow it (`Json.Scans`). The scanner finds exactly the tokens of a value in
its compact text (`scans_compact`) and in its pretty text (`scans_prettyAt`), as long as
all its numbers are 64-bit integers.
-/

namespace ContainerJobs

/-- The integer fits a signed or an unsigned 64-bit word. -/
def Number.IsWord (n : Int) : Prop :=
  -((Text.maxSigned + 1 : Nat) : Int) ≤ n ∧ n ≤ Text.maxUnsigned

namespace Json

/-- All numbers in the value are 64-bit integers. -/
inductive IsWhole : Json → Prop where
  | null : IsWhole .null
  | bool (b : Bool) : IsWhole (.bool b)
  | integer {n : Int} (h : Number.IsWord n) : IsWhole (.number (.integer n))
  | string (s : String) : IsWhole (.string s)
  | array {items : List Json} (h : ∀ v ∈ items, IsWhole v) : IsWhole (.array items)
  | object {members : List (String × Json)} (h : ∀ m ∈ members, IsWhole m.2) :
    IsWhole (.object members)

@[simp] theorem isWhole_bool (b : Bool) : (bool b).IsWhole := .bool b

@[simp] theorem isWhole_string (s : String) : (string s).IsWhole := .string s

@[simp] theorem isWhole_int_iff {n : Int} : (int n).IsWhole ↔ Number.IsWord n :=
  ⟨fun | .integer h => h, .integer⟩

@[simp] theorem isWhole_array_iff {items : List Json} :
    (array items).IsWhole ↔ ∀ v ∈ items, v.IsWhole :=
  ⟨fun | .array h => h, .array⟩

@[simp] theorem isWhole_object_iff {members : List (String × Json)} :
    (object members).IsWhole ↔ ∀ m ∈ members, m.2.IsWhole :=
  ⟨fun | .object h => h, .object⟩

/-! ## Tokens -/

mutual

/-- The tokens of a value. -/
def tokensOf : Json → List Token
  | null => [.scalar .null]
  | bool b => [.scalar (.bool b)]
  | number n => [.scalar (.number (some n))]
  | string s => [.string (some s)]
  | array items => .beginArray :: (tokensOfItems items ++ [.endArray])
  | object members => .beginObject :: (tokensOfMembers members ++ [.endObject])

/-- The tokens of the items of an array. -/
def tokensOfItems : List Json → List Token
  | [] => []
  | [v] => tokensOf v
  | v :: w :: r => tokensOf v ++ .comma :: tokensOfItems (w :: r)

/-- The tokens of the members of an object. -/
def tokensOfMembers : List (String × Json) → List Token
  | [] => []
  | [(k, v)] => .string (some k) :: .colon :: tokensOf v
  | (k, v) :: m :: r =>
    .string (some k) :: .colon :: (tokensOf v ++ .comma :: tokensOfMembers (m :: r))

end

/-- A word or a numeral ends before the character. -/
def isEnd (c : Char) : Bool :=
  c == ',' || c == ']' || c == '}' || c == '\n'

/-- A word or a numeral ends where the text goes on with `r`. -/
def Ends (r : List Char) : Prop := ∀ c ∈ r.head?, isEnd c = true

/-- Read between tokens, the text has these tokens, whatever follows that ends the last
    one. -/
def Scans (l : List Char) (ts : List Token) : Prop :=
  ∀ r, Ends r → tokensFrom .between ((l ++ r).map some) =
    (tokensFrom .between (r.map some)).map (ts ++ ·)

/-- The same, whatever follows at all. -/
def ScansAlone (l : List Char) (ts : List Token) : Prop :=
  ∀ r, tokensFrom .between ((l ++ r).map some) =
    (tokensFrom .between (r.map some)).map (ts ++ ·)

theorem ScansAlone.scans {l : List Char} {ts : List Token} (h : ScansAlone l ts) : Scans l ts :=
  fun r _ => h r

theorem scansAlone_nil : ScansAlone [] [] := fun r => by simp

theorem ScansAlone.append {a b : List Char} {ts us : List Token} (ha : ScansAlone a ts)
    (hb : ScansAlone b us) : ScansAlone (a ++ b) (ts ++ us) := fun r => by
  rw [List.append_assoc, ha, hb, Option.map_map]
  congr 1
  funext rest
  simp

theorem ScansAlone.append_scans {a b : List Char} {ts us : List Token} (ha : ScansAlone a ts)
    (hb : Scans b us) : Scans (a ++ b) (ts ++ us) := fun r hr => by
  rw [List.append_assoc, ha, hb r hr, Option.map_map]
  congr 1
  funext rest
  simp

/-- What comes after the end of a token starts with a character that ends it. -/
theorem Scans.append_alone {a b : List Char} {ts us : List Token} (ha : Scans a ts)
    (hb : ScansAlone b us) (hne : b ≠ []) (ends : Ends b) : ScansAlone (a ++ b) (ts ++ us) :=
  fun r => by
    obtain ⟨c, l, rfl⟩ := List.exists_cons_of_ne_nil hne
    rw [List.append_assoc, ha (c :: l ++ r) ends, hb, Option.map_map]
    congr 1
    funext rest
    simp

/-! ## Signs and blanks -/

theorem tokensFrom_cons (m : Mode) (c : Char) (r : List Char) :
    tokensFrom m ((c :: r).map some) = (m.stepChar c).bind fun x =>
      (tokensFrom x.2 (r.map some)).map (x.1 ++ ·) := by
  rw [List.map_cons, tokensFrom]
  simp only [Mode.step, Option.bind_eq_bind, Option.pure_def, Option.map_eq_bind, Function.comp_def]

/-- A character that goes on with no token but its own. -/
theorem scansAlone_singleton {c : Char} {ts : List Token}
    (h : Mode.first c = some (ts, .between)) : ScansAlone [c] ts := fun r => by
  rw [List.singleton_append, tokensFrom_cons, Mode.stepChar, h, Option.bind_some]

theorem scansAlone_comma : ScansAlone [','] [.comma] := scansAlone_singleton rfl

theorem scansAlone_colon : ScansAlone [':'] [.colon] := scansAlone_singleton rfl

theorem scansAlone_beginArray : ScansAlone ['['] [.beginArray] := scansAlone_singleton rfl

theorem scansAlone_endArray : ScansAlone [']'] [.endArray] := scansAlone_singleton rfl

theorem scansAlone_beginObject : ScansAlone ['{'] [.beginObject] := scansAlone_singleton rfl

theorem scansAlone_endObject : ScansAlone ['}'] [.endObject] := scansAlone_singleton rfl

theorem scansAlone_space : ScansAlone [' '] [] := scansAlone_singleton rfl

theorem scansAlone_newLine (level : Nat) : ScansAlone (newLine level) [] := by
  have spaces (n : Nat) : ScansAlone (List.replicate n ' ') [] := by
    induction n with
    | zero => exact scansAlone_nil
    | succ n ih => exact scansAlone_space.append ih
  exact (scansAlone_singleton rfl : ScansAlone ['\n'] []).append (spaces _)

/-! ## Words and numerals -/

theorem tokensFrom_of_ends {m : Mode} {done : List Token} (finish : m.finish = some done)
    (ended : ∀ c, isEnd c = true → m.stepChar c = Mode.stepChar.ended m c) {r : List Char}
    (hr : Ends r) :
    tokensFrom m (r.map some) = (tokensFrom .between (r.map some)).map (done ++ ·) := by
  cases r with
  | nil =>
    rw [List.map_nil, tokensFrom, tokensFrom, finish, Mode.finish, Option.map_some, List.append_nil]
  | cons c r =>
    have first : m.stepChar c = (Mode.first c).map fun x => (done ++ x.1, x.2) := by
      rw [ended c (hr c rfl), Mode.stepChar.ended, finish]
      rw [Option.map_eq_bind]
      rfl
    rw [tokensFrom_cons, tokensFrom_cons, first, Mode.stepChar, Option.bind_map, Option.map_bind]
    congr 1
    funext x
    simp [Option.map_map, Function.comp_def]

/-- A token that is open from its first character on, while characters of one kind
    follow. -/
theorem scans_of_open {f : List Char → Mode} {p : Char → Bool} {c : Char} {l : List Char}
    {ts : List Token} (first : Mode.first c = some ([], f [c]))
    (step : ∀ acc d, p d = true → (f acc).stepChar d = some ([], f (d :: acc)))
    (ended : ∀ acc d, p d = false → (f acc).stepChar d = Mode.stepChar.ended (f acc) d)
    (stops : ∀ d, isEnd d = true → p d = false) (all : ∀ d ∈ l, p d = true)
    (finish : (f (c :: l).reverse).finish = some ts) : Scans (c :: l) ts := fun r hr => by
  have runs (acc : List Char) : tokensFrom (f acc) ((l ++ r).map some) =
      tokensFrom (f (l.reverse ++ acc)) (r.map some) := by
    clear finish
    induction l generalizing acc with
    | nil => rfl
    | cons d l ih =>
      rw [List.cons_append, tokensFrom_cons, step acc d (all d List.mem_cons_self),
        Option.bind_some, ih fun e he => all e (List.mem_cons_of_mem _ he)]
      simp
  rw [List.cons_append, tokensFrom_cons, Mode.stepChar, first, Option.bind_some, runs,
    ← List.reverse_cons, tokensFrom_of_ends finish (fun d hd => ended _ d (stops d hd)) hr]
  simp [Function.comp_def]

theorem isAlpha_of_isEnd {c : Char} (h : isEnd c = true) : c.isAlpha = false := by
  simp only [isEnd, Bool.or_eq_true, beq_iff_eq] at h
  obtain ((rfl | rfl) | rfl) | rfl := h <;> rfl

theorem isNumeral_of_isEnd {c : Char} (h : isEnd c = true) : Mode.isNumeral c = false := by
  simp only [isEnd, Bool.or_eq_true, beq_iff_eq] at h
  obtain ((rfl | rfl) | rfl) | rfl := h <;> rfl

theorem scans_word {c : Char} {l : List Char} {n : Node}
    (first : Mode.first c = some ([], .word [c])) (all : l.all Char.isAlpha = true)
    (literal : Mode.literal? (c :: l) = some n) : Scans (c :: l) [.scalar n] := by
  refine scans_of_open (f := .word) first (fun acc d hd => ?_) (fun acc d hd => ?_)
    (fun _ => isAlpha_of_isEnd) (List.all_eq_true.1 all) ?_
  · rw [Mode.stepChar, if_pos hd]
  · rw [Mode.stepChar, hd, if_neg Bool.false_ne_true]
  · rw [Mode.finish, List.reverse_reverse, literal, Option.map_some]

theorem scans_null : Scans ['n', 'u', 'l', 'l'] [.scalar .null] :=
  scans_word rfl rfl rfl

theorem scans_boolText (b : Bool) : Scans (boolText b) [.scalar (.bool b)] := by
  cases b
  · exact scans_word rfl rfl rfl
  · exact scans_word rfl rfl rfl

theorem scans_numeral {c : Char} {l : List Char} {n : Numeral}
    (first : c.isDigit = true ∨ c = '-') (all : ∀ d ∈ l, Mode.isNumeral d = true)
    (numeral : Numeral.ofText? (c :: l) = some n) :
    Scans (c :: l) [.scalar (.number n.number?)] := by
  have begins : Mode.first c = some ([], .numeral [c]) := by
    obtain digit | rfl := first
    · unfold Mode.first
      split
      case h_12 => rw [digit, Bool.true_or, if_pos rfl]
      all_goals exact absurd digit (by decide)
    · rfl
  refine scans_of_open (f := .numeral) begins (fun acc d hd => ?_) (fun acc d hd => ?_)
    (fun _ => isNumeral_of_isEnd) all ?_
  · rw [Mode.stepChar, if_pos hd]
  · rw [Mode.stepChar, hd, if_neg Bool.false_ne_true]
  · rw [Mode.finish, List.reverse_reverse, numeral, Option.map_some]

end Json

namespace Numeral

theorem digits?_digits (n : Nat) : digits? (Text.digits n) = some (Text.digits n, []) := by
  have all : ∀ c ∈ Text.digits n, c.isDigit = true := fun _ => Text.isDigit_of_mem_digits
  obtain ⟨c, l, cons, -⟩ := Text.exists_digits_eq_cons n
  rw [digits?, List.span_eq_takeWhile_dropWhile, List.takeWhile_eq_self_iff.2 all,
    List.dropWhile_eq_nil_iff.2 all, cons]

theorem whole?_digits (n : Nat) : whole? (Text.digits n) = some (Text.digits n, []) := by
  rw [whole?, digits?_digits]
  by_cases h : 1 < (Text.digits n).length
  · simp [Text.head?_digits_ne_zero h]
  · simp [h]

/-- An integer is written as a numeral of digits alone. -/
theorem ofText?_ofInt (n : Int) : ofText? (Text.ofInt n) =
    some ⟨decide (n < 0), Text.digits n.natAbs, none, none⟩ := by
  rw [Text.ofInt]
  split
  · next neg => simp [ofText?, whole?_digits, fraction?, exponent?, neg]
  · next nonneg =>
    obtain ⟨c, l, cons, digit⟩ := Text.exists_digits_eq_cons n.natAbs
    have sign : c ≠ '-' := by
      rintro rfl
      exact absurd digit (by decide)
    have whole := whole?_digits n.natAbs
    rw [cons] at whole ⊢
    simp [ofText?, whole, fraction?, exponent?, nonneg, sign]

theorem number?_ofInt {n : Int} (h : Number.IsWord n) :
    (⟨decide (n < 0), Text.digits n.natAbs, none, none⟩ : Numeral).number? =
      some (.integer n) := by
  have value : Nat.ofDigitChars 10 (Text.digits n.natAbs) 0 = n.natAbs :=
    Text.ofDigitChars_digits _
  obtain ⟨low, high⟩ := h
  simp only [number?, value, Option.isNone_none, Bool.and_self, Bool.true_and]
  by_cases neg : n < 0
  · have small : n.natAbs ≠ 0 ∧ n.natAbs ≤ Text.maxSigned + 1 := by omega
    have negated : -((n.natAbs : Nat) : Int) = n := by omega
    generalize n.natAbs = m at small negated ⊢
    simp [neg, small, negated]
  · have small : n.natAbs ≤ Text.maxUnsigned := by omega
    have same : ((n.natAbs : Nat) : Int) = n := by omega
    generalize n.natAbs = m at small same ⊢
    simp [neg, small, same]

end Numeral

namespace Json

theorem scans_integer {n : Int} (h : Number.IsWord n) :
    Scans (Number.integer n).text [.scalar (.number (some (.integer n)))] := by
  have all {k : Nat} {c : Char} (hc : c ∈ Text.digits k) : Mode.isNumeral c = true := by
    rw [Mode.isNumeral, Text.isDigit_of_mem_digits hc]
    rfl
  have read := Numeral.ofText?_ofInt n
  rw [← Numeral.number?_ofInt h, Number.text]
  by_cases neg : n < 0
  · rw [Text.ofInt, if_pos neg] at read ⊢
    exact scans_numeral (.inr rfl) (fun _ => all) read
  · rw [Text.ofInt, if_neg neg] at read ⊢
    obtain ⟨c, l, cons, digit⟩ := Text.exists_digits_eq_cons n.natAbs
    rw [cons] at read ⊢
    exact scans_numeral (.inl digit) (fun d hd => all (cons ▸ List.mem_cons_of_mem _ hd)) read

/-! ## Strings -/

theorem hexValue?_digitChar : ∀ d < 16, hexValue? d.digitChar = some d := by decide

/-- A character within a string. -/
theorem tokensFrom_string {s t : OpenString} {c : Char}
    (h : Mode.stringStep s c = some ([], .string t)) (r : List Char) :
    tokensFrom (.string s) ((c :: r).map some) = tokensFrom (.string t) (r.map some) := by
  rw [tokensFrom_cons, Mode.stepChar, h, Option.bind_some]
  simp

/-- The first character of an escape. -/
theorem tokensFrom_backslash (text r : List Char) :
    tokensFrom (.string { text := some text }) (('\\' :: r).map some) =
      tokensFrom (.string { text := some text, escape := .backslash }) (r.map some) :=
  tokensFrom_string (by simp [Mode.stringStep]) r

/-- A hexadecimal digit of an escape, but the last one. -/
theorem tokensFrom_hexDigit {text : List Char} {count value d : Nat} (more : count < 3)
    (hd : d < 16) (r : List Char) :
    tokensFrom (.string { text := some text, escape := .digits count value })
        ((d.digitChar :: r).map some) =
      tokensFrom (.string { text := some text, escape := .digits (count + 1) (value * 16 + d) })
        (r.map some) :=
  tokensFrom_string (by simp [Mode.stringStep, hexValue?_digitChar d hd, more]) r

/-- A character of a string is read back from its escape. -/
theorem tokensFrom_escapeChar (c : Char) (text r : List Char) :
    tokensFrom (.string { text := some text }) ((escapeChar c ++ r).map some) =
      tokensFrom (.string { text := some (c :: text) }) (r.map some) := by
  have letter {d : Char} (hd : simpleEscape? d = some c) (ne : d ≠ 'u') :
      tokensFrom (.string { text := some text }) ((['\\', d] ++ r).map some) =
        tokensFrom (.string { text := some (c :: text) }) (r.map some) := by
    rw [List.cons_append, tokensFrom_backslash, List.singleton_append]
    exact tokensFrom_string (by simp [Mode.stringStep, hd, ne, OpenString.push]) r
  have ofCode {n : Nat} (h : c.toNat = n) : Char.ofNat n = c := by rw [← h, c.ofNat_toNat]
  rw [escapeChar]
  split
  · next h => subst h; exact letter rfl (by decide)
  split
  · next h => subst h; exact letter rfl (by decide)
  split
  · next h => subst h; exact letter rfl (by decide)
  split
  · next h => subst h; exact letter rfl (by decide)
  split
  · next h => subst h; exact letter rfl (by decide)
  split
  · next h => exact letter (by rw [← ofCode h]; rfl) (by decide)
  split
  · next h => exact letter (by rw [← ofCode h]; rfl) (by decide)
  split
  · next control =>
    -- Two zeros and the two digits of the code, which is no half of a surrogate pair.
    have code : c.toNat / 16 * 16 + c.toNat % 16 = c.toNat := by omega
    have last : Mode.stringStep
        { text := some text, escape := .digits 3 (((0 * 16 + 0) * 16 + 0) * 16 + c.toNat / 16) }
        (c.toNat % 16).digitChar = some ([], .string { text := some (c :: text) }) := by
      simp [Mode.stringStep, hexValue?_digitChar _ (Nat.mod_lt c.toNat (by decide : 0 < 16)), code,
        OpenString.pushUnit, show ¬ 0xD800 ≤ c.toNat by omega, show ¬ 0xDC00 ≤ c.toNat by omega]
    simp only [List.cons_append, List.nil_append]
    rw [tokensFrom_backslash, tokensFrom_string (t :=
        { text := some text, escape := .digits 0 0 }) (by simp [Mode.stringStep]),
      show '0' = Nat.digitChar 0 from rfl, tokensFrom_hexDigit (by decide) (by decide),
      tokensFrom_hexDigit (by decide) (by decide), tokensFrom_hexDigit (by decide) (by omega)]
    exact tokensFrom_string last r
  · next quote backslash _ _ _ _ _ control =>
    rw [List.singleton_append]
    exact tokensFrom_string
      (by simp [Mode.stringStep, quote, backslash, control, OpenString.push]) r

theorem scansAlone_quoted (s : String) : ScansAlone (quoted s) [.string (some s)] := by
  have chars (l text r : List Char) :
      tokensFrom (.string { text := some text }) ((l.flatMap escapeChar ++ r).map some) =
        tokensFrom (.string { text := some (l.reverse ++ text) }) (r.map some) := by
    induction l generalizing text with
    | nil => rfl
    | cons c l ih =>
      rw [List.flatMap_cons, List.append_assoc, tokensFrom_escapeChar, ih]
      simp
  have closed : Mode.stringStep { text := some s.toList.reverse } '"' =
      some ([.string (some s)], .between) := by
    simp [Mode.stringStep, OpenString.close]
  intro r
  rw [quoted, List.cons_append, List.append_assoc, tokensFrom_cons, Mode.stepChar]
  change (tokensFrom (.string {}) _).map ([] ++ ·) = _
  rw [chars, List.append_nil, List.singleton_append, tokensFrom_cons, Mode.stepChar, closed,
    Option.bind_some]
  simp [Function.comp_def]

/-! ## The compact layout -/

theorem ends_cons {c : Char} (h : isEnd c = true) (r : List Char) : Ends (c :: r) := by
  intro d hd
  rwa [← Option.some.inj hd]

theorem scans_compactItems {items : List Json} (h : ∀ v ∈ items, Scans v.compact v.tokensOf)
    (ne : items ≠ []) : Scans (compactItems items) (tokensOfItems items) := by
  induction items with
  | nil => exact absurd rfl ne
  | cons v items ih =>
    have first := h v List.mem_cons_self
    cases items with
    | nil => exact first
    | cons w items =>
      have rest := ih (fun u hu => h u (List.mem_cons_of_mem _ hu)) (List.cons_ne_nil _ _)
      have comma := first.append_alone scansAlone_comma (List.cons_ne_nil _ _) (ends_cons rfl _)
      simpa [compactItems, tokensOfItems] using comma.append_scans rest

theorem scans_compactMembers {members : List (String × Json)}
    (h : ∀ m ∈ members, Scans m.2.compact m.2.tokensOf) (ne : members ≠ []) :
    Scans (compactMembers members) (tokensOfMembers members) := by
  induction members with
  | nil => exact absurd rfl ne
  | cons m members ih =>
    obtain ⟨k, v⟩ := m
    have key := (scansAlone_quoted k).append scansAlone_colon
    have first := key.append_scans (h (k, v) List.mem_cons_self)
    cases members with
    | nil => simpa [compactMembers, tokensOfMembers] using first
    | cons m members =>
      have rest := ih (fun u hu => h u (List.mem_cons_of_mem _ hu)) (List.cons_ne_nil _ _)
      have comma := first.append_alone scansAlone_comma (List.cons_ne_nil _ _) (ends_cons rfl _)
      simpa [compactMembers, tokensOfMembers] using comma.append_scans rest

/-- The compact text of a value has the tokens of the value. -/
theorem scans_compact {v : Json} (h : v.IsWhole) : Scans v.compact v.tokensOf := by
  induction h with
  | null => exact scans_null
  | bool b => exact scans_boolText b
  | integer h => exact scans_integer h
  | string s => exact (scansAlone_quoted s).scans
  | @array items _ ih =>
    have inside :
        ScansAlone (compactItems items ++ [']']) (tokensOfItems items ++ [.endArray]) := by
      cases items with
      | nil => exact scansAlone_endArray
      | cons v items =>
        exact (scans_compactItems ih (List.cons_ne_nil _ _)).append_alone scansAlone_endArray
          (List.cons_ne_nil _ _) (ends_cons rfl _)
    exact (scansAlone_beginArray.append inside).scans
  | @object members _ ih =>
    have inside : ScansAlone (compactMembers members ++ ['}'])
        (tokensOfMembers members ++ [.endObject]) := by
      cases members with
      | nil => exact scansAlone_endObject
      | cons m members =>
        exact (scans_compactMembers ih (List.cons_ne_nil _ _)).append_alone scansAlone_endObject
          (List.cons_ne_nil _ _) (ends_cons rfl _)
    exact (scansAlone_beginObject.append inside).scans

/-! ## The pretty layout -/

/-- A new line ends what stands before it. -/
theorem Scans.append_newLine {l : List Char} {ts : List Token} (h : Scans l ts) (level : Nat) :
    ScansAlone (l ++ newLine level) ts := by
  simpa using h.append_alone (scansAlone_newLine level) (List.cons_ne_nil _ _) (ends_cons rfl _)

/-- So do a comma and a new line. -/
theorem Scans.append_comma {l : List Char} {ts : List Token} (h : Scans l ts) (level : Nat) :
    ScansAlone (l ++ ',' :: newLine level) (ts ++ [.comma]) :=
  h.append_alone (scansAlone_comma.append (scansAlone_newLine level)) (List.cons_ne_nil _ _)
    (ends_cons rfl _)

variable {level : Nat}

theorem scans_prettyItems {items : List Json}
    (h : ∀ v ∈ items, Scans (v.prettyAt level) v.tokensOf) (ne : items ≠ []) :
    Scans (prettyItems level items) (tokensOfItems items) := by
  induction items with
  | nil => exact absurd rfl ne
  | cons v items ih =>
    have first := h v List.mem_cons_self
    cases items with
    | nil => exact first
    | cons w items =>
      have rest := ih (fun u hu => h u (List.mem_cons_of_mem _ hu)) (List.cons_ne_nil _ _)
      simpa [prettyItems, tokensOfItems] using (first.append_comma level).append_scans rest

theorem scans_prettyMembers {members : List (String × Json)}
    (h : ∀ m ∈ members, Scans (m.2.prettyAt level) m.2.tokensOf) (ne : members ≠ []) :
    Scans (prettyMembers level members) (tokensOfMembers members) := by
  induction members with
  | nil => exact absurd rfl ne
  | cons m members ih =>
    obtain ⟨k, v⟩ := m
    have key := ((scansAlone_quoted k).append scansAlone_colon).append scansAlone_space
    have first := key.append_scans (h (k, v) List.mem_cons_self)
    cases members with
    | nil => simpa [prettyMembers, tokensOfMembers] using first
    | cons m members =>
      have rest := ih (fun u hu => h u (List.mem_cons_of_mem _ hu)) (List.cons_ne_nil _ _)
      simpa [prettyMembers, tokensOfMembers] using (first.append_comma level).append_scans rest

/-- The pretty text of a value has the tokens of the value, too. -/
theorem scans_prettyAt {v : Json} (h : v.IsWhole) (level : Nat) :
    Scans (v.prettyAt level) v.tokensOf := by
  induction h generalizing level with
  | null => exact scans_null
  | bool b => exact scans_boolText b
  | integer h => exact scans_integer h
  | string s => exact (scansAlone_quoted s).scans
  | @array items _ ih =>
    cases items with
    | nil => exact (scansAlone_beginArray.append scansAlone_endArray).scans
    | cons v items =>
      have inside := scans_prettyItems (fun u hu => ih u hu (level + 1)) (List.cons_ne_nil v items)
      have opened := scansAlone_beginArray.append (scansAlone_newLine (level + 1))
      have closed := (inside.append_newLine level).append scansAlone_endArray
      simpa [prettyAt, tokensOf] using (opened.append closed).scans
  | @object members _ ih =>
    cases members with
    | nil => exact (scansAlone_beginObject.append scansAlone_endObject).scans
    | cons m members =>
      have inside := scans_prettyMembers (fun u hu => ih u hu (level + 1))
        (List.cons_ne_nil m members)
      have opened := scansAlone_beginObject.append (scansAlone_newLine (level + 1))
      have closed := (inside.append_newLine level).append scansAlone_endObject
      simpa [prettyAt, tokensOf] using (opened.append closed).scans

/-- A text by itself has the tokens that it has in front of others. -/
theorem Scans.tokens {l : List Char} {ts : List Token} (h : Scans l ts) :
    tokens (l.map some) = some ts := by
  have alone := h [] (fun _ hc => nomatch hc)
  simpa [Json.tokens, tokensFrom, Mode.finish] using alone

end Json

end ContainerJobs
