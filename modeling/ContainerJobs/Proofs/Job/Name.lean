import ContainerJobs.Proofs.Job.Collision
import Mathlib.Data.String.Basic

/-!
# Labels and names are legal

Whatever text a label value is made from, engines take it: it has legal characters only,
not too many of them, and a letter or digit at both ends (`Label.isLegalText_sanitize`). So
do they take the name of any key under any stem. A text is cut twice on its way into a
name, but the second cut alone would leave the same (`Label.clip_clip`). Cuts are made at a
byte, which always is the edge of a character, since what is cut is in ASCII
(`Text.isCutAt_of_ascii`). `JobKey.label_and_name_legal` puts it all together.
-/

namespace ContainerJobs

namespace Text

/-- Byte `n` of the text, or its end if that comes first, is the edge of a character, and
    before it stand the first `n` characters. -/
def IsCutAt (n : Nat) (l : List Char) : Prop :=
  let text := String.ofList l
  let edge : String.Pos.Raw := ⟨min text.utf8ByteSize n⟩
  edge.IsValid text ∧ String.Pos.Raw.extract text 0 edge = String.ofList (l.take n)

/-- A text in ASCII has as many bytes as characters. -/
theorem utf8Len_of_ascii {l : List Char} (h : ∀ c ∈ l, c.toNat < 128) :
    String.utf8Len l = l.length := by
  induction l with
  | nil => rfl
  | cons c l ih =>
    obtain ⟨first, rest⟩ := List.forall_mem_cons.1 h
    have single : c.utf8Size = 1 := by
      rw [Char.utf8Size_eq_one_iff, UInt32.le_iff_toNat_le]
      exact Nat.le_of_lt_succ first
    rw [String.utf8Len_cons, ih rest, single, List.length_cons]

theorem isCutAt_of_ascii {l : List Char} (h : ∀ c ∈ l, c.toNat < 128) (n : Nat) :
    IsCutAt n l := by
  have front : String.utf8Len (l.take n) = min (String.utf8Len l) n := by
    rw [utf8Len_of_ascii h, utf8Len_of_ascii fun c hc => h c (List.mem_of_mem_take hc),
      List.length_take, Nat.min_comm]
  rw [IsCutAt, String.utf8ByteSize_ofList, ← front]
  refine ⟨String.Pos.Raw.isValid_iff_exists_append.2
    ⟨String.ofList (l.take n), String.ofList (l.drop n), ?_, ?_⟩, ?_⟩
  · rw [← String.ofList_append, List.take_append_drop]
  · rw [String.rawEndPos, String.utf8ByteSize_ofList]
  · have cut := String.extract_of_valid [] (l.take n) (l.drop n)
    rwa [List.nil_append, List.take_append_drop, String.utf8Len_nil, Nat.zero_add] at cut

end Text

namespace Label

variable {max : Nat} {l : List Char}

/-- What an engine takes for a label value or a name of at most `max` characters. -/
structure IsLegalText (max : Nat) (l : List Char) : Prop where
  /-- All characters are legal. -/
  legal : ∀ c ∈ l, isLegal c = true
  /-- The text is not too long. -/
  length : l.length ≤ max
  /-- It begins with a letter or digit. -/
  first : ∃ c, l.head? = some c ∧ c.isAlphanum = true
  /-- It ends with a letter or digit. -/
  last : ∃ c, l.getLast? = some c ∧ c.isAlphanum = true

/-- What is kept of a text where there is room for `max` characters. -/
inductive IsKept (max : Nat) (l : List Char) : List Char → Prop where
  /-- The text is kept from its first letter or digit up to the last one that there is
      room for. -/
  | part {before kept after : List Char} (whole : l = before ++ kept ++ after)
      (none : ∀ c ∈ before, c.isAlphanum = false)
      (first : ∃ c, kept.head? = some c ∧ c.isAlphanum = true)
      (last : ∃ c, kept.getLast? = some c ∧ c.isAlphanum = true)
      (fits : kept.length ≤ max)
      (most : ∀ c ∈ after.take (max - kept.length), c.isAlphanum = false) : IsKept max l kept
  /-- For a text without letters and digits there is an `x`. -/
  | nothing (none : ∀ c ∈ l, c.isAlphanum = false) : IsKept max l ['x']

/-! ## Clipping twice -/

/-- The text from its first letter or digit to its last one. -/
def core (l : List Char) : List Char :=
  dropEnd (l.dropWhile fun c => !c.isAlphanum)

theorem mem_of_mem_core {c : Char} (h : c ∈ core l) : c ∈ l :=
  (List.dropWhile_suffix _).subset (mem_of_mem_dropEnd h)

/-- To clip a text is to cut what lies between its first and last letter or digit. -/
theorem clip_eq (max : Nat) (l : List Char) :
    clip max l = if (dropEnd ((core l).take max)).isEmpty then ['x']
      else dropEnd ((core l).take max) := rfl

theorem dropEnd_append {r : List Char} (h : ∀ c ∈ r, c.isAlphanum = false) :
    dropEnd (l ++ r) = dropEnd l := by
  induction r using List.reverseRecOn with
  | nil => rw [List.append_nil]
  | append_singleton r c ih =>
    obtain ⟨front, last⟩ := List.forall_mem_append.1 h
    rw [← ih front, ← List.append_assoc]
    exact List.rdropWhile_concat_pos _ _ _ (by simp [last c List.mem_cons_self])

theorem exists_eq_dropEnd_append (l : List Char) :
    ∃ r, l = dropEnd l ++ r ∧ ∀ c ∈ r, c.isAlphanum = false := by
  refine ⟨l.rtakeWhile fun c => !c.isAlphanum, List.rdropWhile_append_rtakeWhile.symm, ?_⟩
  exact fun c hc => by simpa using List.mem_rtakeWhile_imp hc

theorem dropEnd_dropEnd (l : List Char) : dropEnd (dropEnd l) = dropEnd l :=
  List.rdropWhile_idempotent _ l

/-- What ends without a letter or digit may be dropped before a cut. -/
theorem dropEnd_take_dropEnd (n : Nat) (l : List Char) :
    dropEnd ((dropEnd l).take n) = dropEnd (l.take n) := by
  obtain ⟨r, whole, none⟩ := exists_eq_dropEnd_append l
  conv_rhs => rw [whole, List.take_append]
  rw [dropEnd_append fun c hc => none c (List.mem_of_mem_take hc)]

/-- A text with a letter or digit in front is its own core but for its end. -/
theorem core_cons {c : Char} (h : c.isAlphanum = true) (l : List Char) :
    core (c :: l) = dropEnd (c :: l) := by
  rw [core, List.dropWhile_cons_of_neg (by simp [h])]

/-- The core of a text begins with a letter or digit, if there is one. -/
theorem core_cases (l : List Char) :
    core l = [] ∨ ∃ c r, core l = c :: r ∧ c.isAlphanum = true := by
  cases hl : l.dropWhile fun c => !c.isAlphanum with
  | nil => exact .inl (by rw [core, hl]; rfl)
  | cons c r =>
    have hc : c.isAlphanum = true := by
      have := List.head_dropWhile_not (fun c : Char => !c.isAlphanum) (l := l) (by simp [hl])
      simpa [hl] using this
    obtain ⟨r', hr⟩ := dropEnd_cons (l := r) hc
    exact .inr ⟨c, r', by rw [core, hl, hr], hc⟩

/-- Around the core of a text there are no letters and digits. -/
theorem exists_eq_append_core (l : List Char) : ∃ before after, l = before ++ core l ++ after ∧
    (∀ c ∈ before, c.isAlphanum = false) ∧ ∀ c ∈ after, c.isAlphanum = false := by
  obtain ⟨after, cut, none⟩ := exists_eq_dropEnd_append (l.dropWhile fun c => !c.isAlphanum)
  refine ⟨l.takeWhile fun c => !c.isAlphanum, after, ?_, fun c hc => ?_, none⟩
  · rw [List.append_assoc, core, ← cut, List.takeWhile_append_dropWhile]
  · simpa using List.mem_takeWhile_imp hc

theorem core_eq_nil_iff : core l = [] ↔ ∀ c ∈ l, c.isAlphanum = false := by
  obtain ⟨before, after, whole, front, back⟩ := exists_eq_append_core l
  constructor
  · intro none
    rw [none, List.append_nil] at whole
    rw [whole]
    exact List.forall_mem_append.2 ⟨front, back⟩
  · intro none
    obtain empty | ⟨c, r, begins, hc⟩ := core_cases l
    · exact empty
    · rw [none c (mem_of_mem_core (begins ▸ List.mem_cons_self))] at hc
      cases hc

/-- Where there is room for a letter or digit, clipping leaves one if it finds one. -/
theorem clip_of_core_eq_cons {c : Char} {r : List Char} (h : core l = c :: r)
    (hc : c.isAlphanum = true) (pos : 0 < max) : clip max l = dropEnd ((core l).take max) := by
  obtain ⟨n, rfl⟩ := Nat.exists_eq_add_of_lt pos
  obtain ⟨r', left⟩ := dropEnd_cons (l := r.take (0 + n)) hc
  rw [clip_eq, h, List.take_succ_cons, left]
  rfl

theorem clip_of_core_eq_nil (h : core l = []) (max : Nat) : clip max l = ['x'] := by
  rw [clip_eq, h, List.take_nil]
  rfl

theorem clip_x (max : Nat) : clip max ['x'] = ['x'] := by
  cases max with
  | zero => rfl
  | succ n => rw [clip_eq, show core ['x'] = ['x'] from rfl, List.take_succ_cons, List.take_nil]; rfl

/-- A text that is clipped twice is as short as the shorter clip makes it, and no shorter. -/
theorem clip_clip {n : Nat} (h : max ≤ n) (l : List Char) : clip max (clip n l) = clip max l := by
  obtain rfl | pos := Nat.eq_zero_or_pos n
  · obtain rfl : max = 0 := Nat.le_zero.1 h
    rfl
  obtain none | ⟨c, r, some, hc⟩ := core_cases l
  · rw [clip_of_core_eq_nil none, clip_of_core_eq_nil none, clip_x]
  · have first := clip_of_core_eq_cons some hc pos
    obtain ⟨d, s, begins, hd⟩ := clip_eq_cons n l
    -- The first clip leaves a text that is its own core.
    have core_clip : core (clip n l) = clip n l := by
      rw [begins, core_cons hd, ← begins, first, dropEnd_dropEnd]
    rw [clip_eq, core_clip, first, dropEnd_take_dropEnd, List.take_take, Nat.min_eq_left h,
      clip_eq]

/-! ## Legal texts -/

theorem length_clip_le (pos : 0 < max) (l : List Char) : (clip max l).length ≤ max := by
  rw [clip_eq]
  split
  · exact pos
  · exact ((List.rdropWhile_prefix _ _).length_le).trans
      ((List.length_take_le max _))

theorem getLast?_clip (max : Nat) (l : List Char) :
    ∃ c, (clip max l).getLast? = some c ∧ c.isAlphanum = true := by
  rw [clip_eq]
  split
  · exact ⟨'x', rfl, rfl⟩
  · next h =>
    have left : dropEnd ((core l).take max) ≠ [] := by simpa using h
    have last : ¬(!((dropEnd ((core l).take max)).getLast left).isAlphanum) = true :=
      List.rdropWhile_last_not _ _ left
    exact ⟨_, List.getLast?_eq_some_getLast left, by simpa using last⟩

/-- A clip keeps what there is room for. -/
theorem isKept_clip (pos : 0 < max) (l : List Char) : IsKept max l (clip max l) := by
  obtain none | ⟨c, r, some, hc⟩ := core_cases l
  · rw [clip_of_core_eq_nil none]
    exact .nothing (core_eq_nil_iff.1 none)
  · have kept := clip_of_core_eq_cons some hc pos
    obtain ⟨before, after, whole, front, back⟩ := exists_eq_append_core l
    obtain ⟨rest, cut, dropped⟩ := exists_eq_dropEnd_append ((core l).take max)
    rw [← kept] at cut
    have room : (clip max l).length + rest.length = min max (core l).length := by
      rw [← List.length_append, ← cut, List.length_take]
    have split : l = before ++ clip max l ++ (rest ++ ((core l).drop max ++ after)) := by
      conv_lhs => rw [whole, ← List.take_append_drop max (core l), cut]
      simp only [List.append_assoc]
    refine .part split front ?_ (getLast?_clip max l) (by omega) fun d hd => ?_
    · obtain ⟨d, s, begins, hd⟩ := clip_eq_cons max l
      exact ⟨d, by rw [begins]; rfl, hd⟩
    · -- Either the core has filled the room, or nothing of it is left.
      rw [List.take_append, List.mem_append] at hd
      obtain hd | hd := hd
      · exact dropped d (List.mem_of_mem_take hd)
      · obtain long | short := Nat.le_total max (core l).length
        · rw [show max - (clip max l).length - rest.length = 0 by omega, List.take_zero] at hd
          cases hd
        · rw [List.drop_of_length_le short, List.nil_append] at hd
          exact back d (List.mem_of_mem_take hd)

theorem isLegalText_clip (pos : 0 < max) (h : ∀ c ∈ l, isLegal c = true) :
    IsLegalText max (clip max l) where
  legal c hc := by
    rcases mem_clip hc with hc | rfl
    · exact h c hc
    · rfl
  length := length_clip_le pos l
  first := by
    obtain ⟨c, r, begins, hc⟩ := clip_eq_cons max l
    exact ⟨c, by rw [begins]; rfl, hc⟩
  last := getLast?_clip max l

/-- The characters that stand for those of a text. -/
theorem isLegal_of_mem_map_charOf {c : Char} (h : c ∈ l.map charOf) : isLegal c = true := by
  obtain ⟨d, -, rfl⟩ := List.mem_map.1 h
  exact isLegal_charOf d

theorem isLegalText_sanitize (s : String) : IsLegalText maxLength (sanitize s).toList := by
  rw [sanitize, String.toList_ofList]
  exact isLegalText_clip (by decide) fun _ => isLegal_of_mem_map_charOf

theorem isKept_sanitize (s : String) :
    IsKept maxLength (s.toList.map charOf) (sanitize s).toList := by
  rw [sanitize, String.toList_ofList]
  exact isKept_clip (by decide) _

theorem toLower_of_isLegal {c : Char} (h : isLegal c = true) : c.toLower = c := by
  have lower := toNat_toLower c
  have bounds := isLegal_iff.1 h
  rw [if_neg] at lower
  · exact Char.toNat_inj.1 lower
  · rcases bounds with b | b | rfl | rfl | rfl
    · omega
    · omega
    all_goals decide

theorem charOf_of_isLegal {c : Char} (h : isLegal c = true) : charOf c = c := by
  have kept : (c.isAlphanum || c == '.' || c == '_' || c == '-') = true := by
    simp only [Bool.or_eq_true, beq_iff_eq, isAlphanum_iff]
    rcases isLegal_iff.1 h with b | b | b | b | b
    · exact .inl (.inl (.inl (.inr (.inl b))))
    · exact .inl (.inl (.inl (.inr (.inr b))))
    · exact .inl (.inl (.inr b))
    · exact .inl (.inr b)
    · exact .inr b
  rw [charOf, toLower_of_isLegal h, if_pos kept]

/-- A label value is the label value of itself. -/
theorem sanitize_sanitize (s : String) : sanitize (sanitize s) = sanitize s := by
  have same : (sanitized s.toList).map charOf = sanitized s.toList :=
    (List.map_congr_left fun c hc => charOf_of_isLegal (isLegal_of_mem_sanitized hc)).trans
      (List.map_id' _)
  have twice : sanitized (sanitized s.toList) = sanitized s.toList := by
    rw [sanitized, same, sanitized, clip_clip (Nat.le_refl _)]
  rw [sanitize, sanitize, String.toList_ofList, twice]

/-- A part of a name is cut from the whole text, as if no label value had been made of it. -/
theorem segment_eq_clip (h : max ≤ maxLength) (s : String) :
    segment max s = clip max (s.toList.map charOf) :=
  clip_clip h _

/-! ## Cuts -/

theorem toNat_lt_of_isLegal {c : Char} (h : isLegal c = true) : c.toNat < 128 := by
  have := toNat_of_isLegal h
  omega

theorem isCutAt_core (h : ∀ c ∈ l, isLegal c = true) (n : Nat) : Text.IsCutAt n (core l) :=
  Text.isCutAt_of_ascii (fun c hc => toNat_lt_of_isLegal (h c (mem_of_mem_core hc))) n

end Label

namespace JobKey

variable {k : JobKey} {c : Char}

theorem isAlphanum_digitChar {n : Nat} (h : n < 16) : n.digitChar.isAlphanum = true := by
  have all : ∀ n < 16, n.digitChar.isAlphanum = true := by decide
  exact all n h

theorem isAlphanum_of_mem_hex {m : List UInt8} (h : c ∈ Sha256.hex m) : c.isAlphanum = true := by
  obtain ⟨b, -, hb⟩ := List.mem_flatMap.1 h
  have := b.toNat_lt
  simp only [List.mem_cons, List.not_mem_nil, or_false] at hb
  rcases hb with rfl | rfl <;> exact isAlphanum_digitChar (by omega)

theorem isAlphanum_of_mem_digest (h : c ∈ k.digest) : c.isAlphanum = true :=
  isAlphanum_of_mem_hex (List.mem_of_mem_take h)

/-- The name of a key is its legible part and its digest. -/
theorem toList_resourceName_eq (k : JobKey) (stem : String) :
    (k.resourceName stem).toList = k.legible stem ++ '-' :: k.digest := by
  rw [toList_resourceName, legible]

theorem length_resourceName_le (k : JobKey) (stem : String) :
    (k.resourceName stem).toList.length ≤ 128 := by
  have stemLength : (Label.segment 24 stem).length ≤ 24 := Label.length_clip_le (by decide) _
  have idLength (s : String) : (Label.segment 40 s).length ≤ 40 := Label.length_clip_le (by decide) _
  have project := idLength k.project
  have trajectory := idLength k.trajectory
  have digest : k.digest.length = 12 := k.length_digest
  simp only [toList_resourceName, List.length_append, List.length_cons]
  omega

theorem isLegalText_resourceName (k : JobKey) (stem : String) :
    Label.IsLegalText 128 (k.resourceName stem).toList where
  legal _ := isLegal_of_mem_resourceName
  length := length_resourceName_le k stem
  first := by
    obtain ⟨c, r, begins, hc⟩ := resourceName_eq_cons k stem
    exact ⟨c, by rw [begins]; rfl, hc⟩
  last := by
    have left : k.digest ≠ [] := by
      rw [← List.length_pos_iff, length_digest]
      decide
    refine ⟨k.digest.getLast left, ?_, isAlphanum_of_mem_digest (List.getLast_mem left)⟩
    rw [toList_resourceName_eq, List.getLast?_append, List.getLast?_cons_of_ne_nil left,
      List.getLast?_eq_some_getLast left, Option.some_or]

/-- Engines take the label value of any text and the name of any key. A label value stays as
    it is when one is made of it, and blanks around a text make no difference to it. A label
    value, and each part of a name, is the text that it stands for, mapped and clipped once:
    what lies between the first letter or digit and the last one that there is room for, or
    an `x`. The digest is at the end of a name. Wherever a text is cut, the cut is between
    two characters. -/
theorem label_and_name_legal (s stem : String) (k : JobKey) :
    Label.IsLegalText 63 (Label.sanitize s).toList ∧
      Label.sanitize (Label.sanitize s) = Label.sanitize s ∧
      Label.sanitize (Text.trim s) = Label.sanitize s ∧
      Label.IsKept 63 (s.toList.map Label.charOf) (Label.sanitize s).toList ∧
      Label.IsLegalText 128 (k.resourceName stem).toList ∧
      (k.resourceName stem).toList = Label.clip 24 (stem.toList.map Label.charOf) ++
        '-' :: Label.clip 40 (k.project.toList.map Label.charOf) ++
        '-' :: Label.clip 40 (k.trajectory.toList.map Label.charOf) ++ '-' :: k.digest ∧
      (∀ max text, 0 < max → Label.IsKept max text (Label.clip max text)) ∧
      k.digest.length = 12 ∧
      (∀ n, Text.IsCutAt n (Label.core (s.toList.map Label.charOf)) ∧
        Text.IsCutAt n (Label.core (Label.sanitized s.toList)) ∧
        Text.IsCutAt n (Sha256.hex (Sha256.digest k.digestInput))) := by
  refine ⟨Label.isLegalText_sanitize s, Label.sanitize_sanitize s, Label.sanitize_trim s,
    Label.isKept_sanitize s, isLegalText_resourceName k stem, ?_,
    fun _ text pos => Label.isKept_clip pos text, k.length_digest, fun n => ⟨?_, ?_, ?_⟩⟩
  · simp only [toList_resourceName,
      Label.segment_eq_clip (show 24 ≤ Label.maxLength by decide),
      Label.segment_eq_clip (show 40 ≤ Label.maxLength by decide)]
  · exact Label.isCutAt_core (fun _ => Label.isLegal_of_mem_map_charOf) n
  · exact Label.isCutAt_core (fun _ => Label.isLegal_of_mem_sanitized) n
  · refine Text.isCutAt_of_ascii (fun c hc => ?_) n
    have := Label.isAlphanum_iff.1 (isAlphanum_of_mem_hex hc)
    omega

end JobKey

end ContainerJobs
