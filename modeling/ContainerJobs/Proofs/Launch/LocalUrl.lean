import ContainerJobs.Launch.LocalUrl
import ContainerJobs.Proofs.Text.Decimal
import ContainerJobs.Proofs.Text.Field
import Mathlib.Data.List.Forall2
import Mathlib.Data.List.TakeDrop
import Mathlib.Data.Option.Basic

/-!
# The grammar of local addresses

`LocalUrl.IsLocal` says what the parts of a local address may be. All of them but the host
may be missing, and some characters may stand in several parts, but an address has no more
than one way to be local, and reading finds it (`LocalUrl.parse?_eq_some_iff`): scheme and
host have no colon in them, and no port begins as the end of a scheme does. An address with
the host's alias in it is not local any more (`LocalUrl.parse?_alias`), whatever its path
is, so it stays as it is (`containerUrl_rewrites`).
-/

namespace ContainerJobs

namespace LocalUrl

variable {l r scheme host port path : List Char} {c d : Char} {u : LocalUrl}

/-! ## Grammar -/

/-- The character is `small` in either case, or becomes it when its case is folded: the long
    s and the Kelvin sign do. -/
def IsCaseOf (small c : Char) : Prop :=
  c.toLower = small ∨ (small = 's' ∧ c = 'ſ') ∨ (small = 'k' ∧ c.toNat = 0x212A)

/-- The character is an ASCII letter, or becomes one when its case is folded. -/
def IsLetter (c : Char) : Prop :=
  c.isAlpha = true ∨ c = 'ſ' ∨ c.toNat = 0x212A

/-- A letter, then letters, digits and some signs, then `://`. -/
def IsScheme (l : List Char) : Prop :=
  ∃ c name, l = c :: name ++ [':', '/', '/'] ∧ IsLetter c ∧
    ∀ d ∈ name, IsLetter d ∨ d.isDigit = true ∨ d ∈ ['+', '.', '-']

/-- A local name of the host, in any case. -/
def IsHost (l : List Char) : Prop :=
  ∃ name ∈ ["localhost", "127.0.0.1"], List.Forall₂ IsCaseOf name.toList l

/-- A colon and decimal digits, at least one. -/
def IsPort (l : List Char) : Prop :=
  ∃ ds, l = ':' :: ds ∧ ds ≠ [] ∧ ∀ d ∈ ds, Text.isDecimalDigit d = true

/-- A slash and characters other than line feeds. -/
def IsRooted (l : List Char) : Prop :=
  ∃ r, l = '/' :: r ∧ '\n' ∉ r

/-- The text is a local address, with this host and these other parts. -/
structure IsLocal (l : List Char) (u : LocalUrl) (host : List Char) : Prop where
  /-- The parts make up the text. -/
  whole : l = u.scheme ++ host ++ u.port ++ u.path
  /-- The scheme, if there is one. -/
  scheme : u.scheme = [] ∨ IsScheme u.scheme
  /-- The host. -/
  host : IsHost host
  /-- The port, if there is one. -/
  port : u.port = [] ∨ IsPort u.port
  /-- The path, if there is one. -/
  path : u.path = [] ∨ IsRooted u.path

/-! ## Characters -/

/-- Two characters have a case besides those of ASCII. -/
theorem fold_cases (c : Char) : (c = 'ſ' ∧ fold c = 's') ∨
    (c ≠ 'ſ' ∧ c.toNat = 0x212A ∧ fold c = 'k') ∨
    (c ≠ 'ſ' ∧ c.toNat ≠ 0x212A ∧ fold c = c.toLower) := by
  rw [fold]
  by_cases long : c = 'ſ'
  · simp [long]
  · by_cases kelvin : c.toNat = 0x212A
    · simp [long, kelvin]
    · simp [long, kelvin]

theorem fold_eq_iff (ascii : d.toNat < 128) : fold c = d ↔ IsCaseOf d c := by
  have high {c : Char} (h : 128 ≤ c.toNat) : c.toLower ≠ d := by
    have same := Label.toNat_toLower c
    rintro rfl
    split at same <;> omega
  rw [IsCaseOf]
  obtain ⟨rfl, h⟩ | ⟨long, kelvin, h⟩ | ⟨long, kelvin, h⟩ := fold_cases c
  · rw [h, or_iff_right (high (by decide))]
    simp [eq_comm]
  · rw [h, or_iff_right (high (by omega))]
    simp [long, kelvin, eq_comm]
  · simp [h, long, kelvin]

theorem map_fold_eq_iff {name : List Char} (ascii : ∀ d ∈ name, d.toNat < 128) :
    l.map fold = name ↔ List.Forall₂ IsCaseOf name l := by
  induction name generalizing l with
  | nil => simp
  | cons d name ih =>
    obtain ⟨first, rest⟩ := List.forall_mem_cons.1 ascii
    cases l with
    | nil => simp
    | cons c l => rw [List.map_cons, List.cons.injEq, fold_eq_iff first, ih rest,
        List.forall₂_cons]

theorem isAlpha_iff : c.isAlpha = true ↔
    (65 ≤ c.toNat ∧ c.toNat ≤ 90) ∨ (97 ≤ c.toNat ∧ c.toNat ≤ 122) := by
  change (decide (c.val ≥ 'A'.val ∧ c.val ≤ 'Z'.val) ||
    (c.val ≥ 'a'.val && c.val ≤ 'z'.val)) = true ↔ _
  simp [UInt32.le_iff_toNat_le]

theorem isAlpha_fold_iff : (fold c).isAlpha = true ↔ IsLetter c := by
  rw [IsLetter]
  obtain ⟨long, h⟩ | ⟨-, kelvin, h⟩ | ⟨long, kelvin, h⟩ := fold_cases c
  · exact iff_of_true (by rw [h]; decide) (.inr (.inl long))
  · exact iff_of_true (by rw [h]; decide) (.inr (.inr kelvin))
  · rw [h, isAlpha_iff, isAlpha_iff, Label.toNat_toLower, or_iff_left (not_or.2 ⟨long, kelvin⟩)]
    split <;> omega

theorem isDigit_fold (c : Char) : (fold c).isDigit = c.isDigit := by
  rw [Bool.eq_iff_iff, Text.isDigit_iff, Text.isDigit_iff]
  obtain ⟨rfl, h⟩ | ⟨-, kelvin, h⟩ | ⟨-, -, h⟩ := fold_cases c
  · rw [h]
    decide
  · rw [h, kelvin]
    decide
  · rw [h, Label.toNat_toLower]
    split <;> omega

theorem isSchemeChar_iff : isSchemeChar c = true ↔
    IsLetter c ∨ c.isDigit = true ∨ c ∈ ['+', '.', '-'] := by
  simp only [isSchemeChar, Char.isAlphanum, Bool.or_eq_true, beq_iff_eq, isAlpha_fold_iff,
    isDigit_fold, List.mem_cons, List.not_mem_nil, or_false, or_assoc]

/-! ## Schemes -/

theorem span_append {p : Char → Bool} (hl : ∀ c ∈ l, p c = true)
    (hr : ∀ c ∈ r.head?, p c = false) : (l ++ r).span p = (l, r) := by
  rw [List.span_eq_takeWhile_dropWhile, List.takeWhile_append_of_pos hl,
    List.dropWhile_append_of_pos hl]
  cases r with
  | nil => rw [List.takeWhile_nil, List.dropWhile_nil, List.append_nil]
  | cons c r =>
    have stop : ¬p c = true := by simp [hr c rfl]
    rw [List.takeWhile_cons_of_neg stop, List.dropWhile_cons_of_neg stop, List.append_nil]

theorem isSchemeChar_of_mem_name {name : List Char} (hc : IsLetter c)
    (h : ∀ d ∈ name, IsLetter d ∨ d.isDigit = true ∨ d ∈ ['+', '.', '-']) :
    ∀ d ∈ c :: name, isSchemeChar d = true :=
  List.forall_mem_cons.2 ⟨isSchemeChar_iff.2 (.inl hc), fun d hd => isSchemeChar_iff.2 (h d hd)⟩

/-- A scheme is read if there is one. -/
theorem scheme?_eq_some_iff : scheme? l = some (scheme, r) ↔ IsScheme scheme ∧ l = scheme ++ r := by
  constructor
  · intro h
    rw [scheme?, List.span_eq_takeWhile_dropWhile] at h
    dsimp only at h
    split at h
    · next first =>
      obtain ⟨rest, after, whole⟩ := Option.map_eq_some_iff.1 h
      obtain ⟨rfl, rfl⟩ := Prod.mk.inj whole
      have all : ∀ c ∈ l.takeWhile isSchemeChar, isSchemeChar c = true :=
        fun _ => List.mem_takeWhile_imp
      refine ⟨?_, ?_⟩
      · -- The first character of the name is a letter, so there is one.
        generalize l.takeWhile isSchemeChar = name at first all
        match name, first, all with
        | c :: name, first, all =>
          refine ⟨c, name, rfl, isAlpha_fold_iff.1 (by simpa using first), fun d hd => ?_⟩
          exact isSchemeChar_iff.1 (all d (List.mem_cons_of_mem _ hd))
      · rw [List.append_assoc, ← Text.after?_eq_some_iff.1 after, List.takeWhile_append_dropWhile]
    · cases h
  · rintro ⟨⟨c, name, rfl, hc, hname⟩, rfl⟩
    have stop : ∀ d ∈ ([':', '/', '/'] ++ r).head?, isSchemeChar d = false := by
      rintro d ⟨⟩
      decide
    have letter : (((c :: name).head?.map fun c => (fold c).isAlpha) == some true) = true := by
      simpa using isAlpha_fold_iff.2 hc
    have after : Text.after? [':', '/', '/'] ([':', '/', '/'] ++ r) = some r :=
      Text.after?_eq_some_iff.2 rfl
    rw [scheme?, List.append_assoc, span_append (isSchemeChar_of_mem_name hc hname) stop]
    dsimp only
    rw [if_pos letter, after, Option.map_some]

theorem eq_slash_of_head? (hpath : path = [] ∨ IsRooted path) : ∀ c ∈ path.head?, c = '/' := by
  rcases hpath with rfl | ⟨r, rfl, -⟩
  · intro c hc
    cases hc
  · rintro c ⟨⟩
    rfl

/-- What may follow a host ends a scheme, and not in the way that schemes end. -/
theorem scheme?_append_eq_none (hl : ∀ c ∈ l, isSchemeChar c = true)
    (hport : port = [] ∨ IsPort port) (hpath : path = [] ∨ IsRooted path) :
    scheme? (l ++ (port ++ path)) = none := by
  have stop : ∀ d ∈ (port ++ path).head?, isSchemeChar d = false := by
    rcases hport with rfl | ⟨ds, rfl, -⟩
    · intro d hd
      rw [eq_slash_of_head? hpath d hd]
      decide
    · rintro d ⟨⟩
      decide
  have after : Text.after? [':', '/', '/'] (port ++ path) = none := by
    rw [Option.eq_none_iff_forall_ne_some]
    intro s h
    have begins := Text.after?_eq_some_iff.1 h
    rcases hport with rfl | ⟨ds, rfl, some, digits⟩
    · rcases hpath with rfl | ⟨s, rfl, -⟩ <;> simp at begins
    · obtain ⟨d, ds, rfl⟩ := List.exists_cons_of_ne_nil some
      have digit := digits d List.mem_cons_self
      obtain rfl : d = '/' := by simpa using (List.cons.inj (List.cons.inj begins).2).1
      exact absurd digit (by decide)
  rw [scheme?, span_append hl stop]
  dsimp only
  rw [after, Option.map_none, ite_self]

/-! ## Hosts -/

theorem afterName?_eq_some_iff {name : List Char} (ascii : ∀ d ∈ name, d.toNat < 128) :
    afterName? name l = some r ↔ ∃ host, List.Forall₂ IsCaseOf name host ∧ l = host ++ r := by
  simp only [← map_fold_eq_iff ascii]
  rw [afterName?]
  constructor
  · intro h
    obtain ⟨same, rest⟩ := Option.ite_none_right_eq_some.1 h
    exact ⟨l.take name.length, same, by rw [← Option.some.inj rest, List.take_append_drop]⟩
  · rintro ⟨host, rfl, rfl⟩
    simp

theorem toNat_lt_of_mem_name {name : String} (h : name ∈ ["localhost", "127.0.0.1"]) :
    ∀ d ∈ name.toList, d.toNat < 128 := by
  simp only [List.mem_cons, List.not_mem_nil, or_false] at h
  rcases h with rfl | rfl <;> simp

theorem IsHost.length_eq (h : IsHost host) : host.length = 9 := by
  obtain ⟨name, hname, same⟩ := h
  rw [← same.length_eq]
  simp only [List.mem_cons, List.not_mem_nil, or_false] at hname
  rcases hname with rfl | rfl <;> rfl

/-- A host is read if there is one. -/
theorem afterHost?_eq_some_iff : afterHost? l = some r ↔ ∃ host, IsHost host ∧ l = host ++ r := by
  have named {name : String} (h : name ∈ ["localhost", "127.0.0.1"]) (r : List Char) :
      afterName? name.toList l = some r ↔
        ∃ host, List.Forall₂ IsCaseOf name.toList host ∧ l = host ++ r :=
    afterName?_eq_some_iff (toNat_lt_of_mem_name h)
  have first := named (List.mem_cons_self (a := "localhost"))
  have second := named (List.mem_cons_of_mem "localhost" (List.mem_singleton_self "127.0.0.1"))
  rw [afterHost?, Option.orElse_eq_some, first, second]
  constructor
  · rintro (⟨host, same, whole⟩ | ⟨-, host, same, whole⟩)
    · exact ⟨host, ⟨_, List.mem_cons_self, same⟩, whole⟩
    · exact ⟨host, ⟨_, List.mem_cons_of_mem _ (List.mem_singleton_self _), same⟩, whole⟩
  · rintro ⟨host, hhost, whole⟩
    have ⟨name, hname, same⟩ := hhost
    obtain rfl | rfl : name = "localhost" ∨ name = "127.0.0.1" := by simpa using hname
    · exact .inl ⟨host, same, whole⟩
    · cases other : afterName? "localhost".toList l with
      | none => exact .inr ⟨rfl, host, same, whole⟩
      | some r' =>
        -- Both hosts have the same length, so they are one.
        obtain ⟨host', same', whole'⟩ := (first r').1 other
        have lengths : host.length = host'.length :=
          hhost.length_eq.trans (IsHost.length_eq ⟨_, List.mem_cons_self, same'⟩).symm
        obtain ⟨rfl, rfl⟩ := List.append_inj (whole.symm.trans whole') lengths
        exact .inl ⟨host, same', whole⟩

/-! ## Ports and paths -/

theorem isPath_eq_true_iff : isPath l = true ↔ l = [] ∨ IsRooted l := by
  cases l with
  | nil => simp [isPath]
  | cons c r =>
    simp only [isPath, Bool.and_eq_true, beq_iff_eq, Bool.not_eq_true', IsRooted, List.cons.injEq,
      reduceCtorEq, false_or, List.contains_eq_mem, decide_eq_false_iff_not]
    exact ⟨fun ⟨slash, plain⟩ => ⟨r, ⟨slash, rfl⟩, plain⟩,
      fun ⟨_, ⟨slash, rest⟩, plain⟩ => ⟨slash, rest ▸ plain⟩⟩

theorem takePort_cases (l : List Char) :
    l = (takePort l).1 ++ (takePort l).2 ∧ ((takePort l).1 = [] ∨ IsPort (takePort l).1) := by
  unfold takePort
  split
  · next r =>
    rw [List.span_eq_takeWhile_dropWhile]
    dsimp only
    split
    · exact ⟨rfl, .inl rfl⟩
    · next some =>
      refine ⟨?_, .inr ⟨_, rfl, by simpa using some, fun _ => List.mem_takeWhile_imp⟩⟩
      rw [List.cons_append, List.takeWhile_append_dropWhile]
  · exact ⟨rfl, .inl rfl⟩

theorem takePort_append (hport : port = [] ∨ IsPort port) (hpath : path = [] ∨ IsRooted path) :
    takePort (port ++ path) = (port, path) := by
  rcases hport with rfl | ⟨ds, rfl, some, digits⟩
  · rcases hpath with rfl | ⟨r, rfl, -⟩ <;> rfl
  · have stop : ∀ c ∈ path.head?, Text.isDecimalDigit c = false := by
      intro c hc
      rw [eq_slash_of_head? hpath c hc]
      decide
    rw [List.cons_append, takePort, span_append digits stop]
    dsimp only
    rw [if_neg (by simpa using some)]

/-! ## Addresses -/

theorem afterScheme?_eq_some_iff : afterScheme? scheme l = some u ↔
    u.scheme = scheme ∧ ∃ host, IsHost host ∧ l = host ++ (u.port ++ u.path) ∧
      (u.port = [] ∨ IsPort u.port) ∧ (u.path = [] ∨ IsRooted u.path) := by
  simp only [afterScheme?, Option.bind_eq_bind, Option.bind_eq_some_iff,
    Option.ite_none_right_eq_some, Option.some.injEq, afterHost?_eq_some_iff, isPath_eq_true_iff]
  constructor
  · rintro ⟨r, ⟨host, hhost, rfl⟩, hpath, rfl⟩
    obtain ⟨whole, hport⟩ := takePort_cases r
    exact ⟨rfl, host, hhost, by rw [← whole], hport, hpath⟩
  · rintro ⟨rfl, host, hhost, rfl, hport, hpath⟩
    exact ⟨_, ⟨host, hhost, rfl⟩, by rw [takePort_append hport hpath]; exact ⟨hpath, rfl⟩⟩

theorem IsHost.isSchemeChar (h : IsHost host) : ∀ c ∈ host, LocalUrl.isSchemeChar c = true := by
  obtain ⟨name, hname, same⟩ := h
  intro c hc
  have mem : fold c ∈ name.toList := by
    rw [← (map_fold_eq_iff (toNat_lt_of_mem_name hname)).2 same]
    exact List.mem_map_of_mem hc
  have plain : ∀ d ∈ name.toList, d.isAlphanum = true ∨ d = '.' := by
    obtain rfl | rfl : name = "localhost" ∨ name = "127.0.0.1" := by simpa using hname
    all_goals simp
  obtain alphanum | dot := plain _ mem
  · simp [LocalUrl.isSchemeChar, alphanum]
  · obtain ⟨-, h⟩ | ⟨-, -, h⟩ | ⟨-, -, h⟩ := fold_cases c
    · exact absurd (h.symm.trans dot) (by decide)
    · exact absurd (h.symm.trans dot) (by decide)
    · -- A full stop is in lower case only if it was one before.
      have lower := Label.toNat_toLower c
      rw [← h, dot, show '.'.toNat = 46 from rfl] at lower
      have code : c.toNat = '.'.toNat := by
        rw [show '.'.toNat = 46 from rfl]
        split at lower <;> omega
      obtain rfl := Char.toNat_inj.1 code
      decide

/-- An address is read if it is local, so there is one way at most to take it apart. -/
theorem parse?_eq_some_iff : parse? l = some u ↔ ∃ host, IsLocal l u host := by
  rw [parse?, Option.orElse_eq_some]
  constructor
  · rintro (h | ⟨-, h⟩)
    · obtain ⟨⟨scheme, r⟩, hscheme, after⟩ := Option.bind_eq_some_iff.1 h
      obtain ⟨isScheme, rfl⟩ := scheme?_eq_some_iff.1 hscheme
      obtain ⟨rfl, host, hhost, rfl, hport, hpath⟩ := afterScheme?_eq_some_iff.1 after
      exact ⟨host, by simp, .inr isScheme, hhost, hport, hpath⟩
    · obtain ⟨hscheme, host, hhost, rfl, hport, hpath⟩ := afterScheme?_eq_some_iff.1 h
      exact ⟨host, by simp [hscheme], .inl hscheme, hhost, hport, hpath⟩
  · rintro ⟨host, h⟩
    have after : afterScheme? u.scheme (host ++ (u.port ++ u.path)) = some u :=
      afterScheme?_eq_some_iff.2 ⟨rfl, host, h.host, rfl, h.port, h.path⟩
    rw [h.whole, List.append_assoc, List.append_assoc]
    obtain none | some := h.scheme
    · rw [none] at after ⊢
      rw [List.nil_append, scheme?_append_eq_none h.host.isSchemeChar h.port h.path]
      exact .inr ⟨rfl, after⟩
    · rw [scheme?_eq_some_iff.2 ⟨some, rfl⟩]
      exact .inl after

theorem IsLocal.unique {u' : LocalUrl} {host' : List Char} (h : IsLocal l u host)
    (h' : IsLocal l u' host') : u' = u ∧ host' = host := by
  have read := parse?_eq_some_iff.2 ⟨host, h⟩
  rw [parse?_eq_some_iff.2 ⟨host', h'⟩, Option.some.injEq] at read
  subst read
  refine ⟨rfl, ?_⟩
  have same := h'.whole.symm.trans h.whole
  exact List.append_cancel_left (List.append_cancel_right (List.append_cancel_right same))

/-! ## Addresses in containers -/

theorem afterScheme?_alias (scheme r : List Char) :
    afterScheme? scheme (hostAlias.toList ++ r) = none := by
  have other : afterHost? (hostAlias.toList ++ r) = none := rfl
  simp only [afterScheme?, other, Option.bind_eq_bind, Option.bind_none]

/-- The host's alias is no local name of the host. -/
theorem parse?_alias (hscheme : scheme = [] ∨ IsScheme scheme) (hport : port = [] ∨ IsPort port)
    (hpath : path = [] ∨ IsRooted path) :
    parse? (scheme ++ hostAlias.toList ++ port ++ path) = none := by
  have alias_isSchemeChar : ∀ c ∈ hostAlias.toList, isSchemeChar c = true :=
    List.all_eq_true.1 (by decide)
  rw [List.append_assoc, List.append_assoc, parse?, Option.orElse_eq_none]
  rcases hscheme with rfl | isScheme
  · rw [List.nil_append, scheme?_append_eq_none alias_isSchemeChar hport hpath]
    exact ⟨rfl, afterScheme?_alias _ _⟩
  · have read : scheme? (scheme ++ (hostAlias.toList ++ (port ++ path))) =
        some (scheme, hostAlias.toList ++ (port ++ path)) := scheme?_eq_some_iff.2 ⟨isScheme, rfl⟩
    refine ⟨by rw [read]; exact afterScheme?_alias _ _, ?_⟩
    -- Without the scheme there would be a host in its place, but no scheme begins with one.
    rw [Option.eq_none_iff_forall_ne_some]
    intro u h
    obtain ⟨-, host, hhost, whole, hport', hpath'⟩ := afterScheme?_eq_some_iff.1 h
    rw [whole, scheme?_append_eq_none hhost.isSchemeChar hport' hpath'] at read
    cases read

end LocalUrl

open LocalUrl

theorem containerUrl_of_isLocal {url : String} {u : LocalUrl} {host : List Char}
    (h : IsLocal (Text.trimmed url.toList) u host) : containerUrl url = u.inContainer := by
  rw [containerUrl, parse?_eq_some_iff.2 ⟨host, h⟩]

theorem containerUrl_of_not_isLocal {url : String}
    (h : ¬∃ u host, IsLocal (Text.trimmed url.toList) u host) : containerUrl url = url := by
  cases read : parse? (Text.trimmed url.toList) with
  | none => rw [containerUrl, read]
  | some u => exact absurd ⟨u, parse?_eq_some_iff.1 read⟩ h

/-- Blanks around the address in the container would have been around the local address. -/
theorem LocalUrl.IsLocal.trimmed_alias {l host : List Char} {u : LocalUrl}
    (h : IsLocal (Text.trimmed l) u host) :
    Text.trimmed (u.scheme ++ hostAlias.toList ++ u.port ++ u.path) =
      u.scheme ++ hostAlias.toList ++ u.port ++ u.path := by
  obtain ⟨front, back⟩ := Text.trimmed_eq_self_iff.1 (Text.trimmed_trimmed l)
  rw [h.whole] at front back
  rw [List.append_assoc, List.append_assoc] at front
  rw [List.append_assoc, List.getLast?_append] at back
  refine Text.trimmed_eq_self_iff.2 ⟨?_, ?_⟩
  · rw [List.append_assoc, List.append_assoc]
    cases hs : u.scheme with
    | nil =>
      rintro c ⟨⟩
      decide
    | cons c r => rwa [hs] at front
  · rw [List.append_assoc, List.getLast?_append]
    cases hlast : (u.port ++ u.path).getLast? with
    | none =>
      rw [Option.none_or, List.getLast?_append]
      rintro c ⟨⟩
      decide
    | some c => rwa [hlast] at back

theorem containerUrl_containerUrl (url : String) :
    containerUrl (containerUrl url) = containerUrl url := by
  by_cases h : ∃ u host, IsLocal (Text.trimmed url.toList) u host
  · obtain ⟨u, host, h⟩ := h
    rw [containerUrl_of_isLocal h, containerUrl, inContainer, String.toList_ofList,
      h.trimmed_alias, parse?_alias h.scheme h.port h.path]
  · rw [containerUrl_of_not_isLocal h, containerUrl_of_not_isLocal h]

/-- A local address can be taken apart in one way, and means the same inside a container with
    the host's alias in place of its name. Any other address stays as it is, and so does one
    that was already rewritten. -/
theorem containerUrl_rewrites (url : String) :
    (∀ u host, IsLocal (Text.trimmed url.toList) u host →
      (∀ u' host', IsLocal (Text.trimmed url.toList) u' host' → u' = u ∧ host' = host) ∧
        (containerUrl url).toList =
          u.scheme ++ "host.docker.internal".toList ++ u.port ++ u.path) ∧
      ((¬∃ u host, IsLocal (Text.trimmed url.toList) u host) → containerUrl url = url) ∧
      containerUrl (containerUrl url) = containerUrl url := by
  refine ⟨fun u host h => ⟨fun u' host' h' => h.unique h', ?_⟩, containerUrl_of_not_isLocal,
    containerUrl_containerUrl url⟩
  rw [containerUrl_of_isLocal h, inContainer, String.toList_ofList]
  rfl

/-- A local address in mixed case, with blanks around it. -/
def sampleUrl : String := " Http://LocalHoſt:8080/a b\t"

theorem containerUrl_rewrites_sampleUrl :
    (∃ host, IsLocal (Text.trimmed sampleUrl.toList)
      ⟨"Http://".toList, ":8080".toList, "/a b".toList⟩ host) ∧
      containerUrl sampleUrl = "Http://host.docker.internal:8080/a b" := by
  obtain ⟨host, h⟩ := parse?_eq_some_iff.1
    (show parse? (Text.trimmed sampleUrl.toList) =
      some ⟨"Http://".toList, ":8080".toList, "/a b".toList⟩ by decide)
  exact ⟨⟨host, h⟩, String.toList_inj.1 (((containerUrl_rewrites sampleUrl).1 _ host h).2.trans
    (by decide))⟩

end ContainerJobs
