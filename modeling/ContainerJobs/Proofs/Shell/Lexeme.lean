import ContainerJobs.Shell.Lexer
import ContainerJobs.Shell.Quote

/-!
# What a shell reads

What the tokens of a script say (`lexemes`), which leaves out their lines and how
words are quoted: a word is the characters that it stands for, and the output of a
script within it what that script says.

A text is followed through the lexer in two stages. Within a word, each stretch of
text adds some parts and leaves quotes as they were (`Adds`), so stretches can be put
one behind the other; a quoted text adds exactly its characters (`adds_quoted`).
Between words, each word or sign with a blank behind it says one thing (`Reads`), so
what a script says follows item by item (`lexemes_tokens`).
-/

namespace ContainerJobs.Shell

mutual

/-- A part of a word, as far as a shell takes it literally. -/
inductive Part where
  /-- A character that stands for itself. -/
  | char (c : Char)
  /-- The output of a script. -/
  | output (script : List Lexeme)
  /-- Anything else. -/
  | other

/-- What a token says, apart from its line and from how a word is quoted. -/
inductive Lexeme where
  /-- A word. -/
  | word (parts : List Part)
  /-- A sign. -/
  | sign (s : Sign)
  /-- Anything else. -/
  | other

end

mutual

/-- The parts of a word. Of the characters outside of quotes, only plain ones are sure
    to stand for themselves. -/
def partsOf : List Piece → List Part
  | [] => []
  | .char c quoted :: r => (if quoted || isPlain c then .char c else .other) :: partsOf r
  | .quotes :: r => partsOf r
  | .substitution script _ :: r => .output (lexemes script) :: partsOf r
  | _ :: r => .other :: partsOf r

/-- What some tokens say. -/
def lexemes : List Token → List Lexeme
  | [] => []
  | .word pieces _ :: r => .word (partsOf pieces) :: lexemes r
  | .sign s _ :: r => .sign s :: lexemes r
  | _ :: r => .other :: lexemes r

end

/-- The word that a text is. -/
def Lexeme.text (s : String) : Lexeme := .word (s.toList.map .char)

theorem partsOf_append (l r : List Piece) : partsOf (l ++ r) = partsOf l ++ partsOf r := by
  induction l with
  | nil => rw [partsOf]; rfl
  | cons x l ih => cases x <;> simp [partsOf, ih]

theorem lexemes_append (l r : List Token) : lexemes (l ++ r) = lexemes l ++ lexemes r := by
  induction l with
  | nil => rw [lexemes]; rfl
  | cons x l ih => cases x <;> simp [lexemes, ih]

/-! ## Characters -/

variable {c d : Char}

theorem ne_of_isPlain (h : isPlain c = true) (hd : isPlain d = false) : c ≠ d := by
  rintro rfl
  simp [h] at hd

theorem isSeparator_of_isPlain (h : isPlain c = true) : Place.isSeparator c = false := by
  have separators : (" \t\n&|;()<>".toList.all fun d => !isPlain d) = true := by decide
  rw [Place.isSeparator, List.contains_eq_mem, decide_eq_false_iff_not]
  intro hc
  have := List.all_eq_true.1 separators c hc
  exact ne_of_isPlain h (by simpa using this) rfl

namespace Place

/-- The character has a meaning within a word. -/
def isSpecial (c : Char) : Bool :=
  c == '\\' || c == '$' || c == backquote || c == '"' || c == '\''

theorem isSpecial_of_isPlain (h : isPlain c = true) : isSpecial c = false := by
  have ne {d : Char} (hd : isPlain d = false) : (c == d) = false :=
    beq_eq_false_iff_ne.2 (ne_of_isPlain h hd)
  simp only [isSpecial, Bool.or_eq_false_iff]
  exact ⟨⟨⟨⟨ne (by decide), ne (by decide)⟩, ne (by decide)⟩, ne (by decide)⟩, ne (by decide)⟩

variable {line : Nat} {a : Passage} {s : Stretch} {fs : List Frame}

theorem charStep_of_not_isSpecial (p : Place) (role : s.role = .word) (h : isSpecial c = false) :
    p.charStep s c = p.toText.pushChar c := by
  simp only [isSpecial, Bool.or_eq_false_iff, beq_eq_false_iff_ne] at h
  obtain ⟨⟨⟨⟨backslash, dollar⟩, quote⟩, double⟩, single⟩ := h
  simp only [charStep, if_neg backslash, if_neg dollar, if_neg quote, role]

/-- Between two words of a script. -/
def between (line : Nat) (a : Passage) (fs : List Frame) : Place where
  line
  frames := .passage a :: fs

/-- In a word of a script. -/
def inWord (line : Nat) (mode : Mode) (s : Stretch) (a : Passage) (fs : List Frame) : Place where
  line
  mode
  frames := .stretch s :: .passage a :: fs

/-- The line after a character. -/
def lineAfter (line : Nat) (c : Char) : Nat := if c = '\n' then line + 1 else line

theorem step_eq {p q : Place} (counts : countsLine p.mode = true) (h : p.stepIn c = q)
    (same : q.line = p.line) : p.step c = { q with line := lineAfter p.line c } := by
  rw [step, h, counts, Bool.and_true, lineAfter]
  by_cases hc : c = '\n' <;> simp [hc, ← same]

/-- A character that can begin a word begins it. -/
theorem step_between (h : isSeparator c = false) (hc : c ≠ '#') :
    (between line a fs).step c = (inWord line .text {} a fs).step c := by
  have text : (between line a fs).stepIn c = (inWord line .text {} a fs).stepIn c := by
    simp only [stepIn, textStep, between, inWord, h, Bool.false_eq_true, if_false, if_neg hc,
      Bool.and_false]
    rfl
  rw [step, step, text]
  rfl

variable {inner : Bool} {before : List Piece}

theorem step_inWord (hc : isSpecial c = false) (h : inner = true ∨ isSeparator c = false) :
    (inWord line .text { inner, pieces := before } a fs).step c =
      inWord (lineAfter line c) .text { inner, pieces := .char c inner :: before } a fs := by
  have inside : ¬ ((Stretch.mk .word false inner before).role = .word &&
      !(Stretch.mk .word false inner before).isQuoted && isSeparator c) = true := by
    rcases h with rfl | h <;> simp [Stretch.isQuoted, *]
  have text : (inWord line .text { inner, pieces := before } a fs).stepIn c =
      (inWord line .text { inner, pieces := before } a fs).charStep { inner, pieces := before } c :=
    if_neg inside
  rw [charStep_of_not_isSpecial _ rfl hc] at text
  refine step_eq (q := inWord line .text { inner, pieces := .char c inner :: before } a fs)
    rfl (text.trans ?_) rfl
  simp [pushChar, push, mapStretch, toText, isQuoted, Stretch.isQuoted, inWord]

/-! ## Quotes -/

theorem step_single (hc : c ≠ '\'') :
    (inWord line .single { pieces := before } a fs).step c =
      inWord (lineAfter line c) .single { pieces := .char c true :: before } a fs :=
  step_eq (q := inWord line .single { pieces := .char c true :: before } a fs) rfl
    (if_neg hc) rfl

theorem step_openSingle : (inWord line .text { pieces := before } a fs).step '\'' =
    inWord line .single { pieces := .quotes :: before } a fs := rfl

theorem step_closeSingle : (inWord line .single { pieces := before } a fs).step '\'' =
    inWord line .text { pieces := .quotes :: before } a fs := rfl

/-- Single quotes end and begin again around a single quote behind a backslash. -/
theorem foldl_quoteChar_single :
    (quoteChar '\'').foldl step (inWord line .single { pieces := before } a fs) =
      inWord line .single { pieces := .quotes :: .char '\'' true :: .quotes :: before } a fs := rfl

theorem step_openDouble : (inWord line .text { pieces := before } a fs).step '"' =
    inWord line .text { inner := true, pieces := .quotes :: before } a fs := rfl

theorem step_closeDouble : (inWord line .text { inner := true, pieces := before } a fs).step '"' =
    inWord line .text { pieces := .quotes :: before } a fs := rfl

/-! ## Signs and scripts between words -/

/-- A blank ends a word. -/
theorem step_blank (h : before ≠ []) :
    (inWord line .text { pieces := before } a fs).step ' ' =
      between line (a.addWord before.reverse line) fs := by
  obtain ⟨x, r, rfl⟩ := List.exists_cons_of_ne_nil h
  have ends : (inWord line .text { pieces := x :: r } a fs).stepIn ' ' =
      (inWord line .text { pieces := x :: r } a fs).leaveWord.separatorStep ' ' := by
    simp [stepIn, textStep, inWord, isSeparator, Stretch.isQuoted]
  exact step_eq (q := between line (a.addWord (x :: r).reverse line) fs) rfl ends rfl

theorem foldl_both : ['&', '&', ' '].foldl step (between line a fs) =
    between line (a.addSign .both line) fs := rfl

/-- A dollar sign and a parenthesis begin a script. -/
theorem step_enter (h : c ≠ '(') (free : a.redirection = none) :
    (((inWord line .text { inner, pieces := before } a fs).step '$').step '(').step c =
      (between line { nested := true }
        (.stretch { inner, pieces := before } :: .passage a :: fs)).step c := by
  have opened : ((inWord line .text { inner, pieces := before } a fs).step '$').step '(' =
      inWord line .parenthesis { inner, pieces := before } a fs := by
    obtain ⟨tokens, nested, groups, phase, redirection, awaited⟩ := a
    obtain rfl : redirection = none := free
    cases inner <;> rfl
  have entered : (inWord line .parenthesis { inner, pieces := before } a fs).stepIn c =
      (between line { nested := true }
        (.stretch { inner, pieces := before } :: .passage a :: fs)).stepIn c := if_neg h
  rw [opened, step, step, entered]
  rfl

/-- The piece that a script makes at its closing parenthesis. -/
def closed (b : Passage) (line : Nat) (quoted : Bool) : Piece :=
  .substitution (.sign .closing line :: b.tokens).reverse quoted

/-- A parenthesis ends it behind a word. -/
theorem step_leave {b : Passage} {s : Stretch} (h : before ≠ [])
    (closable : (b.addWord before.reverse line).isClosable = true) :
    (inWord line .text { pieces := before } b (.stretch s :: .passage a :: fs)).step ')' =
      inWord line .text { s with
        pieces := closed (b.addWord before.reverse line) line s.isQuoted :: s.pieces } a fs := by
  obtain ⟨x, r, rfl⟩ := List.exists_cons_of_ne_nil h
  have ends : (inWord line .text { pieces := x :: r } b
      (.stretch s :: .passage a :: fs)).stepIn ')' = (inWord line .text { pieces := x :: r } b
      (.stretch s :: .passage a :: fs)).leaveWord.separatorStep ')' := by
    simp [stepIn, textStep, inWord, isSeparator, Stretch.isQuoted]
  have left : (inWord line .text { pieces := x :: r } b
      (.stretch s :: .passage a :: fs)).leaveWord.separatorStep ')' =
      (between line (b.addWord (x :: r).reverse line) (.stretch s :: .passage a :: fs)).leavePassage :=
    if_pos closable
  exact step_eq (q := (between line (b.addWord (x :: r).reverse line)
    (.stretch s :: .passage a :: fs)).leavePassage) rfl (ends.trans left) rfl

end Place

/-! ## Scripts so far -/

/-- The script says this so far, and the next word belongs to no redirection. -/
structure Passage.Says (a : Passage) (ls : List Lexeme) : Prop where
  /-- The tokens say this. -/
  tokens : lexemes a.tokens.reverse = ls
  /-- No redirection is open. -/
  free : a.redirection = none

namespace Passage

variable {a : Passage} {ls : List Lexeme}

theorem Says.addWord (h : a.Says ls) (w : Word) (line : Nat) :
    (a.addWord w line).Says (ls ++ [.word (partsOf w)]) := by
  have added : (a.addWord w line).tokens = .word w line :: a.tokens ∧
      (a.addWord w line).redirection = none := by
    simp [Passage.addWord, h.free]
  refine ⟨?_, added.2⟩
  rw [added.1, List.reverse_cons, lexemes_append, h.tokens]
  simp [lexemes]

theorem Says.addSign_both (h : a.Says ls) (line : Nat) :
    (a.addSign .both line).Says (ls ++ [.sign .both]) := by
  have added : (a.addSign .both line).tokens = .sign .both line :: a.tokens ∧
      (a.addSign .both line).redirection = none := ⟨rfl, rfl⟩
  refine ⟨?_, added.2⟩
  rw [added.1, List.reverse_cons, lexemes_append, h.tokens]
  simp [lexemes]

/-- Behind no group, a word opens one only where the branches of a choice begin. -/
theorem follow_groups (groups : a.groups = []) (phase : a.phase ≠ .subjectEnd)
    (text : Option String) : (a.follow text).1 = [] := by
  obtain ⟨tokens, nested, open_, phase', redirection, awaited⟩ := a
  obtain rfl : open_ = [] := groups
  cases phase' <;> simp only [follow, ne_eq, not_true_eq_false] at phase ⊢
  all_goals first | rfl | (split <;> simp_all)

theorem follow_phase (groups : a.groups = []) (phase : a.phase = .start) (text : Option String) :
    (a.follow text).2 ≠ .subjectEnd := by
  obtain ⟨tokens, nested, open_, phase', redirection, awaited⟩ := a
  obtain rfl : open_ = [] := groups
  obtain rfl : phase' = .start := phase
  simp only [follow]
  split <;> simp_all
  split <;> simp

/-- After two words, a script in parentheses can end. -/
theorem isClosable_addWord (w w' : Word) (line line' : Nat) :
    ((({ nested := true } : Passage).addWord w line).addWord w' line').isClosable = true := by
  have first : (({ nested := true } : Passage).addWord w line).groups = [] ∧
      (({ nested := true } : Passage).addWord w line).phase ≠ .subjectEnd ∧
      (({ nested := true } : Passage).addWord w line).nested = true ∧
      (({ nested := true } : Passage).addWord w line).redirection = none :=
    ⟨follow_groups rfl (by decide) _, follow_phase rfl rfl _, rfl, rfl⟩
  obtain ⟨groups, phase, nested, free⟩ := first
  generalize ({ nested := true } : Passage).addWord w line = a at *
  simp [isClosable, addWord, free, nested, follow_groups groups phase]

end Passage

/-! ## Texts within a word -/

open Place

/-- Within a word, in double quotes or not, the text adds these parts. -/
def Adds (inner : Bool) (w : List Char) (ps : List Part) : Prop :=
  ∀ line before a fs, a.redirection = none → ∃ line' pieces,
    w.foldl step (inWord line .text { inner, pieces := before } a fs) =
      inWord line' .text { inner, pieces := pieces ++ before } a fs ∧
    partsOf pieces.reverse = ps ∧ (pieces = [] → w = [])

variable {inner : Bool} {w w' : List Char} {ps ps' : List Part}

theorem adds_nil : Adds inner [] [] :=
  fun line before a fs _ => ⟨line, [], rfl, by rw [List.reverse_nil, partsOf], fun _ => rfl⟩

theorem Adds.append (h : Adds inner w ps) (h' : Adds inner w' ps') :
    Adds inner (w ++ w') (ps ++ ps') := by
  intro line before a fs free
  obtain ⟨line₁, pieces, run, parts, empty⟩ := h line before a fs free
  obtain ⟨line₂, pieces', run', parts', empty'⟩ := h' line₁ (pieces ++ before) a fs free
  refine ⟨line₂, pieces' ++ pieces, ?_, ?_, fun none => ?_⟩
  · rw [List.foldl_append, run, run', List.append_assoc]
  · rw [List.reverse_append, partsOf_append, parts, parts']
  · obtain ⟨none', none⟩ := List.append_eq_nil_iff.1 none
    rw [empty none, empty' none', List.append_nil]

/-- Characters that mean nothing add themselves. -/
theorem adds_chars {l : List Char}
    (h : (l.all fun c => !isSpecial c && (inner || isPlain c)) = true) :
    Adds inner l (l.map .char) := by
  induction l with
  | nil => exact adds_nil
  | cons c l ih =>
    simp only [List.all_cons, Bool.and_eq_true, Bool.not_eq_true', Bool.or_eq_true] at h
    obtain ⟨⟨hc, unquoted⟩, rest⟩ := h
    have first : Adds inner [c] [.char c] := by
      intro line before a fs _
      refine ⟨_, [.char c inner], step_inWord hc (unquoted.imp_right isSeparator_of_isPlain), ?_,
        fun none => absurd none (List.cons_ne_nil _ _)⟩
      simp [partsOf, unquoted]
    exact first.append (ih (by simpa using rest))

/-- A text of plain characters adds itself. -/
theorem adds_plain {l : List Char} (h : l.all isPlain = true) : Adds false l (l.map .char) := by
  refine adds_chars (List.all_eq_true.2 fun c hc => ?_)
  have plain := List.all_eq_true.1 h c hc
  simp [plain, isSpecial_of_isPlain plain]

/-- Between single quotes every text stands for itself. -/
theorem adds_single (l : List Char) :
    Adds false ('\'' :: (l.flatMap quoteChar ++ ['\''])) (l.map .char) := by
  intro line before a fs _
  -- Each character leaves the lexer between single quotes, a single quote too.
  have inside : ∃ line' pieces,
      (l.flatMap quoteChar).foldl step
          (inWord line .single { pieces := .quotes :: before } a fs) =
        inWord line' .single { pieces := pieces ++ .quotes :: before } a fs ∧
      partsOf pieces.reverse = l.map .char := by
    generalize Piece.quotes :: before = before
    induction l generalizing line before with
    | nil => exact ⟨line, [], rfl, by simp [partsOf]⟩
    | cons c l ih =>
      rw [List.flatMap_cons, List.foldl_append]
      by_cases hc : c = '\''
      · subst hc
        obtain ⟨line', pieces, run, parts⟩ := ih line
          (.quotes :: .char '\'' true :: .quotes :: before)
        refine ⟨line', pieces ++ [.quotes, .char '\'' true, .quotes], ?_, ?_⟩
        · rw [foldl_quoteChar_single, run, List.append_assoc]
          rfl
        · simp [partsOf, parts]
      · obtain ⟨line', pieces, run, parts⟩ := ih (lineAfter line c) (.char c true :: before)
        refine ⟨line', pieces ++ [.char c true], ?_, ?_⟩
        · rw [quoteChar, if_neg hc, List.foldl_cons, List.foldl_nil, step_single hc, run,
            List.append_assoc]
          rfl
        · simp [partsOf, parts]
  obtain ⟨line', pieces, run, parts⟩ := inside
  refine ⟨line', .quotes :: (pieces ++ [.quotes]), ?_, ?_, fun none => ?_⟩
  · rw [List.foldl_cons, step_openSingle, List.foldl_append, run, List.foldl_cons, List.foldl_nil,
      step_closeSingle]
    simp
  · simp [partsOf_append, partsOf, parts]
  · cases none

/-- A quoted text adds itself, whatever it is. -/
theorem adds_quoted (l : List Char) : Adds false (quoted l) (l.map .char) := by
  rw [quoted]
  split
  · next h =>
    rw [Bool.and_eq_true] at h
    exact adds_plain h.2
  · exact adds_single l

/-- Double quotes only change what is between them. -/
theorem Adds.double (h : Adds true w ps) : Adds false ('"' :: (w ++ ['"'])) ps := by
  intro line before a fs free
  obtain ⟨line', pieces, run, parts, -⟩ := h line (.quotes :: before) a fs free
  refine ⟨line', .quotes :: (pieces ++ [.quotes]), ?_, ?_, fun none => ?_⟩
  · rw [List.foldl_cons, step_openDouble, List.foldl_append, run, List.foldl_cons, List.foldl_nil,
      step_closeDouble]
    simp
  · simp [partsOf_append, partsOf, parts]
  · cases none

/-! ## Words of a script -/

/-- The text can begin a word. -/
def Begins (w : List Char) : Prop :=
  ∃ c r, w = c :: r ∧ isSeparator c = false ∧ c ≠ '#'

theorem begins_plain {l : List Char} (some : l ≠ []) (h : l.all isPlain = true) : Begins l := by
  obtain ⟨c, r, rfl⟩ := List.exists_cons_of_ne_nil some
  have plain := List.all_eq_true.1 h c List.mem_cons_self
  exact ⟨c, r, rfl, isSeparator_of_isPlain plain, ne_of_isPlain plain (by decide)⟩

theorem begins_quoted (l : List Char) : Begins (quoted l) := by
  rw [quoted]
  split
  · next h =>
    rw [Bool.and_eq_true] at h
    exact begins_plain (by simpa using h.1) h.2
  · exact ⟨'\'', _, rfl, by decide, by decide⟩

theorem Begins.foldl (h : Begins w) (line : Nat) (a : Passage) (fs : List Frame) :
    w.foldl step (between line a fs) = w.foldl step (inWord line .text {} a fs) := by
  obtain ⟨c, r, rfl, separator, sign⟩ := h
  rw [List.foldl_cons, List.foldl_cons, step_between separator sign]

/-- A word and a blank behind it. -/
theorem Adds.foldl_word (h : Adds false w ps) (begins : Begins w) (line : Nat) {a : Passage}
    (fs : List Frame) (free : a.redirection = none) :
    ∃ line' pieces, w.foldl step (between line a fs) =
        inWord line' .text { pieces } a fs ∧ pieces ≠ [] ∧ partsOf pieces.reverse = ps := by
  obtain ⟨line', pieces, run, parts, empty⟩ := h line [] a fs free
  refine ⟨line', pieces, ?_, fun none => ?_, parts⟩
  · rw [begins.foldl, run, List.append_nil]
  · obtain ⟨c, r, rfl, -⟩ := begins
    exact absurd (empty none) (List.cons_ne_nil _ _)

/-- The output of a script of two words. -/
theorem Adds.substitution (h : Adds false w ps) (begins : Begins w) (h' : Adds false w' ps')
    (begins' : Begins w') : Adds inner ('$' :: '(' :: (w ++ ' ' :: (w' ++ [')'])))
      [.output [.word ps, .word ps', .sign .closing]] := by
  intro line before a fs free
  have entered : ('$' :: '(' :: w).foldl step (inWord line .text { inner, pieces := before } a fs) =
      w.foldl step (between line { nested := true }
        (.stretch { inner, pieces := before } :: .passage a :: fs)) := by
    obtain ⟨c, r, rfl, separator, -⟩ := begins
    have ne : c ≠ '(' := by
      rintro rfl
      exact absurd separator (by decide)
    simp only [List.foldl_cons, step_enter ne free]
  -- The script is read like any other one, with the word around it waiting below.
  have told : ({ nested := true } : Passage).Says [] := ⟨by simp [lexemes], rfl⟩
  obtain ⟨line₁, pieces, run, some, rfl⟩ := h.foldl_word begins line
    (.stretch { inner, pieces := before } :: .passage a :: fs) told.free
  have told₁ := told.addWord pieces.reverse line₁
  obtain ⟨line₂, pieces', run', some', rfl⟩ := h'.foldl_word begins' line₁
    (.stretch { inner, pieces := before } :: .passage a :: fs) told₁.free
  have told₂ := told₁.addWord pieces'.reverse line₂
  refine ⟨line₂, [closed ((({ nested := true } : Passage).addWord pieces.reverse line₁).addWord
    pieces'.reverse line₂) line₂ inner], ?_, ?_, fun none => absurd none (List.cons_ne_nil _ _)⟩
  · have split : '$' :: '(' :: (w ++ ' ' :: (w' ++ [')'])) =
        ('$' :: '(' :: w) ++ ([' '] ++ (w' ++ [')'])) := by simp
    rw [split, List.foldl_append, entered, run, List.foldl_append, List.foldl_cons, List.foldl_nil,
      step_blank some, List.foldl_append, run', List.foldl_cons, List.foldl_nil,
      step_leave some' (Passage.isClosable_addWord _ _ _ _)]
    simp [Stretch.isQuoted]
  · simp [partsOf, closed, lexemes_append, lexemes, told₂.tokens]

/-! ## Scripts -/

/-- Between two words of a script, the text and a blank say this. -/
def Reads (w : List Char) (x : Lexeme) : Prop :=
  ∀ line a fs ls, Passage.Says a ls → ∃ line' a',
    (w ++ [' ']).foldl step (between line a fs) = between line' a' fs ∧
      Passage.Says a' (ls ++ [x])

theorem Adds.reads (h : Adds false w ps) (begins : Begins w) : Reads w (.word ps) := by
  intro line a fs ls told
  obtain ⟨line', pieces, run, some, rfl⟩ := h.foldl_word begins line fs told.free
  refine ⟨line', _, ?_, told.addWord pieces.reverse line'⟩
  rw [List.foldl_append, run, List.foldl_cons, List.foldl_nil, step_blank some]

theorem reads_both : Reads ['&', '&'] (.sign .both) :=
  fun line _ _ _ told => ⟨line, _, foldl_both, told.addSign_both line⟩

/-- What a script says whose words and signs have single blanks between them. -/
theorem lexemes_tokens (items : List (List Char × Lexeme)) (h : ∀ i ∈ items, Reads i.1 i.2)
    (last : Adds false w ps) (begins : Begins w) :
    lexemes (tokens (items.flatMap (fun i => i.1 ++ [' ']) ++ w)) =
      items.map (·.2) ++ [.word ps, .sign .endOfFile] := by
  -- Each item starts where the one before it ended, between two words.
  have front : ∀ line a ls, Passage.Says a ls → ∃ line' a',
      (items.flatMap fun i => i.1 ++ [' ']).foldl step (between line a []) = between line' a' [] ∧
        Passage.Says a' (ls ++ items.map (·.2)) := by
    induction items with
    | nil => exact fun line a ls told => ⟨line, a, rfl, by simpa using told⟩
    | cons i items ih =>
      intro line a ls told
      obtain ⟨line₁, a₁, run, told₁⟩ := h i List.mem_cons_self line a [] ls told
      obtain ⟨line₂, a₂, run', told₂⟩ := ih (fun j hj => h j (List.mem_cons_of_mem _ hj))
        line₁ a₁ _ told₁
      refine ⟨line₂, a₂, ?_, by simpa using told₂⟩
      rw [List.flatMap_cons, List.foldl_append, run, run']
  obtain ⟨line, a, run, told⟩ := front 1 {} [] ⟨by simp [lexemes], rfl⟩
  obtain ⟨line', pieces, run', some, rfl⟩ := last.foldl_word begins line [] told.free
  have told' := told.addWord pieces.reverse line'
  have read : (items.flatMap (fun i => i.1 ++ [' ']) ++ w).foldl step {} =
      inWord line' .text { pieces } a [] := by
    rw [List.foldl_append, ← run']
    exact congrArg (fun p => w.foldl step p) run
  have finished : (inWord line' .text { pieces } a []).finish = .piece (.substitution
      (.sign .endOfFile line' :: (a.addWord pieces.reverse line').tokens).reverse true) := by
    obtain ⟨x, r, rfl⟩ := List.exists_cons_of_ne_nil some
    rfl
  rw [tokens, read, finished]
  simp [lexemes_append, lexemes, told'.tokens]

/-- A quoted text is one word, and says the text. -/
theorem lexemes_quote (s : String) :
    lexemes (tokens (quote s).toList) = [.text s, .sign .endOfFile] := by
  rw [quote, String.toList_ofList]
  exact lexemes_tokens [] (by simp) (adds_quoted s.toList) (begins_quoted s.toList)

end ContainerJobs.Shell
