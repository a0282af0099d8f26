import ContainerJobs.Base64
import ContainerJobs.Proofs.Job.Label
import ContainerJobs.Text.Utf8

/-!
# Encodings are decoded

An encoding is made of symbols and equals signs (`isSymbol_of_mem_encode`), all of them
ASCII characters. Its groups are decoded one by one, the last one by its padding, so the
byte string that was encoded comes back (`decode_encode`).
-/

namespace ContainerJobs

/-! ## ASCII texts -/

/-- The byte of an ASCII character. -/
def Text.asciiByte (c : Char) : UInt8 := UInt8.ofNat c.toNat

/-- An ASCII text has one byte for each character. -/
theorem Text.bytes_ofList {l : List Char} (h : ∀ c ∈ l, c.toNat < 128) :
    bytes (String.ofList l) = l.map asciiByte := by
  have encoded : l.utf8Encode = (l.map asciiByte).toByteArray := by
    induction l with
    | nil => simp
    | cons c l ih =>
      obtain ⟨ascii, rest⟩ := List.forall_mem_cons.1 h
      have single : c.utf8Size = 1 :=
        Char.utf8Size_eq_one_iff.2 (UInt32.le_iff_toNat_le.2 (Nat.le_of_lt_succ ascii))
      rw [List.utf8Encode_cons, ih rest, List.utf8Encode_singleton,
        String.utf8EncodeChar_eq_singleton single, List.map_cons, ← List.toByteArray_append]
      rfl
  rw [bytes, String.toUTF8, String.toByteArray_ofList, encoded]
  simp

namespace Base64

/-- The character may stand in an encoding. -/
def isSymbol (c : Char) : Bool :=
  c.isAlphanum || c == '+' || c == '/' || c == '='

variable {n : Nat}

theorem isSymbol_symbol (h : n < 64) : isSymbol (symbol n) = true := by
  revert n
  decide

theorem isSymbol_of_mem_encode {l : List UInt8} : ∀ c ∈ encode l, isSymbol c = true := by
  have byte (a : UInt8) : a.toNat < 256 := a.toNat_lt
  fun_induction encode l with
  | case1 => nofun
  | case2 a =>
    have := byte a
    simp only [List.forall_mem_cons]
    exact ⟨isSymbol_symbol (by omega), isSymbol_symbol (by omega), rfl, rfl, nofun⟩
  | case3 a b =>
    have := byte a
    have := byte b
    simp only [List.forall_mem_cons]
    exact ⟨isSymbol_symbol (by omega), isSymbol_symbol (by omega), isSymbol_symbol (by omega), rfl,
      nofun⟩
  | case4 a b c r ih =>
    have := byte a
    have := byte b
    have := byte c
    simp only [List.forall_mem_cons]
    exact ⟨isSymbol_symbol (by omega), isSymbol_symbol (by omega), isSymbol_symbol (by omega),
      isSymbol_symbol (by omega), ih⟩

theorem toNat_of_isSymbol {c : Char} (h : isSymbol c = true) : 33 ≤ c.toNat ∧ c.toNat < 128 := by
  simp only [isSymbol, Bool.or_eq_true, Label.isAlphanum_iff, beq_iff_eq] at h
  obtain ((h | rfl) | rfl) | rfl := h
  · omega
  all_goals decide

theorem isBlank_of_isSymbol {c : Char} (h : isSymbol c = true) : Text.isBlank c = false := by
  have bounds := toNat_of_isSymbol h
  refine Bool.eq_false_iff.2 fun blank => ?_
  have outside := Label.isBlank_iff blank
  omega

/-- The byte of the symbol of a value. -/
def code (n : Nat) : UInt8 := Text.asciiByte (symbol n)

theorem value?_code (h : n < 64) : value? (code n) = some n := by
  revert n
  decide

theorem code_ne_pad (h : n < 64) : code n ≠ pad := by
  revert n
  decide

theorem valueAt_code (h : n < 64) (offset : Nat) : valueAt (code n) offset = .ok n := by
  rw [valueAt, value?_code h]

theorem lastGroup_code (h : n < 64) (base i : Nat) (r : List UInt8) :
    lastGroup base i (code n :: r) =
      (lastGroup base (i + 1) r).map fun (vs, pads) => ((code n, n) :: vs, pads) := by
  rw [lastGroup, if_neg (by simpa using code_ne_pad h), valueAt_code h]
  cases lastGroup base (i + 1) r <;> rfl

/-! ## Groups -/

variable {v w x y : Nat}

/-- Four symbols and no padding stand for three bytes. -/
def three (v w x y : Nat) : List UInt8 :=
  [UInt8.ofNat (v * 4 + w / 16), UInt8.ofNat (w % 16 * 16 + x / 4), UInt8.ofNat (x % 4 * 64 + y)]

theorem decodeLast_pads (base : Nat) (hv : v < 64) (hw : w < 64) (unused : w % 16 = 0) :
    decodeLast base [code v, code w, pad, pad] = .ok [UInt8.ofNat (v * 4 + w / 16)] := by
  have padding : lastGroup base 2 [pad, pad] = .ok ([], 2) := rfl
  rw [decodeLast, lastGroup_code hv, lastGroup_code hw, padding]
  simp only [Except.map, bind, Except.bind]
  simp [pure, Except.pure, unused]

theorem decodeLast_pad (base : Nat) (hv : v < 64) (hw : w < 64) (hx : x < 64)
    (unused : x % 4 = 0) : decodeLast base [code v, code w, code x, pad] =
      .ok [UInt8.ofNat (v * 4 + w / 16), UInt8.ofNat (w % 16 * 16 + x / 4)] := by
  have padding : lastGroup base 3 [pad] = .ok ([], 1) := rfl
  rw [decodeLast, lastGroup_code hv, lastGroup_code hw, lastGroup_code hx, padding]
  simp only [Except.map, bind, Except.bind]
  simp [pure, Except.pure, unused]

theorem decodeLast_full (base : Nat) (hv : v < 64) (hw : w < 64) (hx : x < 64) (hy : y < 64) :
    decodeLast base [code v, code w, code x, code y] = .ok (three v w x y) := by
  rw [decodeLast, lastGroup_code hv, lastGroup_code hw, lastGroup_code hx, lastGroup_code hy]
  rfl

theorem decodeFrom_group (base : Nat) (hv : v < 64) (hw : w < 64) (hx : x < 64) (hy : y < 64)
    {l : List UInt8} (more : l ≠ []) :
    decodeFrom base (code v :: code w :: code x :: code y :: l) =
      (decodeFrom (base + 4) l).map (three v w x y ++ ·) := by
  obtain ⟨e, r, rfl⟩ := List.exists_cons_of_ne_nil more
  rw [decodeFrom, valueAt_code hv, valueAt_code hw, valueAt_code hx, valueAt_code hy]
  cases decodeFrom (base + 4) (e :: r) <;> rfl

theorem ofNat_eq {n : Nat} {a : UInt8} (h : n = a.toNat) : UInt8.ofNat n = a := by
  rw [h, UInt8.ofNat_toNat]

/-- The symbols of three bytes stand for these bytes. -/
theorem three_eq (a b c : UInt8) :
    three (a.toNat / 4) (a.toNat % 4 * 16 + b.toNat / 16) (b.toNat % 16 * 4 + c.toNat / 64)
      (c.toNat % 64) = [a, b, c] := by
  have := b.toNat_lt
  have := c.toNat_lt
  rw [three, ofNat_eq (a := a) (by omega), ofNat_eq (a := b) (by omega),
    ofNat_eq (a := c) (by omega)]

/-! ## Encodings -/

theorem encode_ne_nil {l : List UInt8} (h : l ≠ []) : encode l ≠ [] := by
  fun_cases encode l with
  | case1 => exact absurd rfl h
  | _ => nofun

theorem length_encode_mod (l : List UInt8) : (encode l).length % 4 = 0 := by
  fun_induction encode l with
  | case4 a b c r ih =>
    simp only [List.length_cons]
    omega
  | _ => simp

theorem decodeFrom_encode {l : List UInt8} (h : l ≠ []) (base : Nat) :
    decodeFrom base ((encode l).map Text.asciiByte) = .ok l := by
  fun_induction encode l generalizing base with
  | case1 => exact absurd rfl h
  | case2 a =>
    have := a.toNat_lt
    change decodeLast base [code _, code _, pad, pad] = _
    rw [decodeLast_pads base (by omega) (by omega) (by omega), ofNat_eq (a := a) (by omega)]
  | case3 a b =>
    have := a.toNat_lt
    have := b.toNat_lt
    change decodeLast base [code _, code _, code _, pad] = _
    rw [decodeLast_pad base (by omega) (by omega) (by omega) (by omega),
      ofNat_eq (a := a) (by omega), ofNat_eq (a := b) (by omega)]
  | case4 a b c r ih =>
    have := a.toNat_lt
    have := b.toNat_lt
    have := c.toNat_lt
    -- The last group may have padding, so it is decoded apart from those before it.
    by_cases last : r = []
    · rw [last]
      change decodeLast base [code _, code _, code _, code _] = _
      rw [decodeLast_full base (by omega) (by omega) (by omega) (by omega), three_eq]
    · have more : (encode r).map Text.asciiByte ≠ [] := by simpa using encode_ne_nil last
      change decodeFrom base (code _ :: code _ :: code _ :: code _ :: _) = _
      rw [decodeFrom_group base (by omega) (by omega) (by omega) (by omega) more, ih last,
        three_eq]
      rfl

/-- A byte string is decoded from its encoding. -/
theorem decode_encode (l : List UInt8) : decode ((encode l).map Text.asciiByte) = .ok l := by
  by_cases empty : l = []
  · rw [empty]
    rfl
  · have decoded := decodeFrom_encode empty 0
    have length : ((encode l).map Text.asciiByte).length % 4 = 0 := by
      rw [List.length_map, length_encode_mod]
    have last := List.getLast?_eq_some_getLast
      (show (encode l).map Text.asciiByte ≠ [] by simpa using encode_ne_nil empty)
    simp only [decode, last, length]
    exact decoded

end Base64

end ContainerJobs
