import Mathlib.Tactic.IntervalCases
import Mathlib.Algebra.Ring.Nat

/-!
# `convertUTF16toUTF8` and `convertUTF8toUTF16`

Each converter works unit by unit: the encoder turns a code unit into one, two or three bytes by
its size, the decoder reads the class off the first byte.  The shifts and masks below are the
source's, in 32-bit `int` arithmetic.

* `leadByte2`, `leadByte3`, `middleByte`, `lastByte`, `unit2`, `unit3` — the shift-and-mask
  expressions.
* `unit3_bytes` — the three-byte expressions give the unit back; `unit2_bytes` — the two-byte ones
  keep its lowest ten bits only, since the mask `0xcf00` has no bit 12.
* `decode_encode` — what the round trip gives for every text that the `int` counters can hold.
* `round_trip_iff` — the round trip gives the text back exactly if no unit lies in 0x400..0x7FF.
-/

set_option autoImplicit false

namespace IMonPlatform.Convert

/-- `wchar_t`, unsigned with 16 bits. -/
abbrev WChar := BitVec 16

/-- `char`, a signed byte. -/
abbrev Byte := BitVec 8

/-- The integral promotion of a `wchar_t`. -/
def ofWChar (w : WChar) : BitVec 32 := w.setWidth 32

/-- The integral promotion of a `char`. -/
def ofByte (b : Byte) : BitVec 32 := b.signExtend 32

def INT_MAX : Nat := 2 ^ 31 - 1

/-- Bytes that a program can address; the projects are built for Win32, without large addresses. -/
def ADDRESS_SPACE : Nat := 2 ^ 31

/-! ## The encoder -/

def lastByte (wChar : WChar) : Byte := ((ofWChar wChar &&& 0x3f#32) ||| 0x80#32).setWidth 8

def leadByte2 (wChar : WChar) : Byte :=
  ((((ofWChar wChar <<< 2) &&& 0xcf00#32) ||| 0xc000#32) >>> 8).setWidth 8

def middleByte (wChar : WChar) : Byte :=
  ((((ofWChar wChar <<< 2) &&& 0x3f00#32) ||| 0x8000#32) >>> 8).setWidth 8

def leadByte3 (wChar : WChar) : Byte :=
  ((((ofWChar wChar <<< 4) &&& 0x3f0000#32) ||| 0xe00000#32) >>> 16).setWidth 8

/-- `szBytes[ 0 .. nBytes )` for one unit. -/
def szBytes (wChar : WChar) : List Byte :=
  if wChar < 0x80#16 then [wChar.setWidth 8]
  else if wChar < 0x800#16 then [leadByte2 wChar, lastByte wChar]
  else [leadByte3 wChar, middleByte wChar, lastByte wChar]

/-- The loop of `convertUTF16toUTF8` over the units left, with the bytes stored so far.  `none` is
an overflow of the `int` counter `nTotalBytes`. -/
def encodeLoop : List WChar → List Byte → Option (List Byte × Nat)
  | [], pszUTF8 => some (pszUTF8 ++ [0], pszUTF8.length)
  | wChar :: pwszBuffer, pszUTF8 =>
    if INT_MAX < pszUTF8.length + (szBytes wChar).length then none
    else encodeLoop pwszBuffer (pszUTF8 ++ szBytes wChar)

/-- The bytes stored, the closing NUL included, and the result.  The argument is the text up to
its NUL. -/
def convertUTF16toUTF8 (pwszUTF16 : List WChar) : Option (List Byte × Nat) :=
  encodeLoop pwszUTF16 []

/-! ## The decoder -/

def unit2 (b0 b1 : Byte) : WChar :=
  (((ofByte b0 &&& 0x1F#32) <<< 6) ||| (ofByte b1 &&& 0x3F#32)).setWidth 16

def unit3 (b0 b1 b2 : Byte) : WChar :=
  (((ofByte b0 &&& 0x0f#32) <<< 12) ||| ((ofByte b1 &&& 0x3F#32) <<< 6) |||
    (ofByte b2 &&& 0x3F#32)).setWidth 16

/-- The loop of `convertUTF8toUTF16` over the bytes from `iIndex` on, with the units stored so far.
`none` is a read beyond the bytes. -/
def decodeLoop : List Byte → List WChar → Option (List WChar × Nat)
  | [], _ => none
  | b0 :: rest, pwszUTF16 =>
    if b0 = 0 then some (pwszUTF16 ++ [0], pwszUTF16.length)
    else if 0xE0#32 = ofByte b0 &&& 0xE0#32 then
      match rest with
      | b1 :: b2 :: rest => decodeLoop rest (pwszUTF16 ++ [unit3 b0 b1 b2])
      | _ => none
    else if 0xC0#32 = ofByte b0 &&& 0xC0#32 then
      match rest with
      | b1 :: rest => decodeLoop rest (pwszUTF16 ++ [unit2 b0 b1])
      | _ => none
    else decodeLoop rest (pwszUTF16 ++ [(ofByte b0 &&& 0x7F#32).setWidth 16])

/-- The units stored, the closing NUL included, and the result. -/
def convertUTF8toUTF16 (pszUTF8 : List Byte) : Option (List WChar × Nat) :=
  decodeLoop pszUTF8 []

/-! ## One unit, bit by bit -/

/-- The three-byte class loses nothing. -/
theorem unit3_bytes (w : WChar) : unit3 (leadByte3 w) (middleByte w) (lastByte w) = w := by
  apply BitVec.eq_of_getElem_eq
  intro i hi
  interval_cases i <;>
    simp [unit3, leadByte3, middleByte, lastByte, ofByte, ofWChar, BitVec.getElem_signExtend]

/-- The two-byte class keeps ten bits. -/
theorem unit2_bytes (w : WChar) : unit2 (leadByte2 w) (lastByte w) = w &&& 0x3ff#16 := by
  apply BitVec.eq_of_getElem_eq
  intro i hi
  interval_cases i <;>
    simp [unit2, leadByte2, lastByte, ofByte, ofWChar, BitVec.getElem_signExtend]

theorem leadByte3_class (w : WChar) : ofByte (leadByte3 w) &&& 0xE0#32 = 0xE0#32 := by
  apply BitVec.eq_of_getElem_eq
  intro i hi
  interval_cases i <;> simp [leadByte3, ofByte, ofWChar, BitVec.getElem_signExtend]

theorem leadByte2_class (w : WChar) : ofByte (leadByte2 w) &&& 0xE0#32 = 0xC0#32 := by
  apply BitVec.eq_of_getElem_eq
  intro i hi
  interval_cases i <;> simp [leadByte2, ofByte, ofWChar, BitVec.getElem_signExtend]

theorem leadByte2_high (w : WChar) : ofByte (leadByte2 w) &&& 0xC0#32 = 0xC0#32 := by
  apply BitVec.eq_of_getElem_eq
  intro i hi
  interval_cases i <;> simp [leadByte2, ofByte, ofWChar, BitVec.getElem_signExtend]

/-- Promoting the byte of an ASCII unit gives the unit. -/
theorem ofByte_ascii {w : WChar} (h : w < 0x80#16) : ofByte (w.setWidth 8) = ofWChar w := by
  have hw : w.toNat < 128 := by simpa [BitVec.lt_def] using h
  have hmsb : (w.setWidth 8).msb = false := by
    rw [BitVec.msb_eq_decide]
    simp
    omega
  unfold ofByte ofWChar
  rw [BitVec.signExtend_eq_setWidth_of_msb_false hmsb]
  apply BitVec.eq_of_toNat_eq
  simp
  omega

/-- Bit 7 of an ASCII unit is clear. -/
theorem ascii_bit {w : WChar} (h : w < 0x80#16) : w[7] = false := by
  have hw : w.toNat < 2 ^ 7 := by simpa [BitVec.lt_def] using h
  rw [← BitVec.getLsbD_eq_getElem, BitVec.getLsbD]
  exact Nat.testBit_lt_two_pow hw

theorem ascii_class {w : WChar} (h : w < 0x80#16) {m : BitVec 32} (hm : m[7] = true) :
    m ≠ ofByte (w.setWidth 8) &&& m := by
  intro heq
  have hbit : m[7] = (ofByte (w.setWidth 8) &&& m)[7] := by rw [← heq]
  rw [ofByte_ascii h, BitVec.getElem_and, hm, ofWChar, BitVec.getElem_setWidth,
    BitVec.getLsbD_eq_getElem (by decide), ascii_bit h] at hbit
  simp at hbit

theorem unit1_byte {w : WChar} (h : w < 0x80#16) :
    (ofByte (w.setWidth 8) &&& 0x7F#32).setWidth 16 = w := by
  have hw : w.toNat < 128 := by simpa [BitVec.lt_def] using h
  rw [ofByte_ascii h]
  apply BitVec.eq_of_toNat_eq
  have hmask : w.toNat &&& 127 = w.toNat := by
    rw [show 127 = 2 ^ 7 - 1 from rfl, Nat.and_two_pow_sub_one_eq_mod]
    omega
  simp only [ofWChar, BitVec.setWidth_and, BitVec.toNat_and]
  simp [hmask]

/-! ## The round trip -/

/-- What the round trip makes of a unit. -/
def kept (w : WChar) : WChar := if w < 0x80#16 ∨ ¬ w < 0x800#16 then w else w &&& 0x3ff#16

theorem decodeLoop_one {b0 : Byte} (h0 : b0 ≠ 0) (h3 : 0xE0#32 ≠ ofByte b0 &&& 0xE0#32)
    (h2 : 0xC0#32 ≠ ofByte b0 &&& 0xC0#32) (rest : List Byte) (out : List WChar) :
    decodeLoop (b0 :: rest) out =
      decodeLoop rest (out ++ [(ofByte b0 &&& 0x7F#32).setWidth 16]) := by
  rw [decodeLoop.eq_def]
  simp only [if_neg h0, if_neg h3, if_neg h2]

theorem decodeLoop_two {b0 : Byte} (h0 : b0 ≠ 0) (h3 : 0xE0#32 ≠ ofByte b0 &&& 0xE0#32)
    (h2 : 0xC0#32 = ofByte b0 &&& 0xC0#32) (b1 : Byte) (rest : List Byte) (out : List WChar) :
    decodeLoop (b0 :: b1 :: rest) out = decodeLoop rest (out ++ [unit2 b0 b1]) := by
  rw [decodeLoop.eq_def]
  simp only [if_neg h0, if_neg h3, if_pos h2]

theorem decodeLoop_three {b0 : Byte} (h0 : b0 ≠ 0) (h3 : 0xE0#32 = ofByte b0 &&& 0xE0#32)
    (b1 b2 : Byte) (rest : List Byte) (out : List WChar) :
    decodeLoop (b0 :: b1 :: b2 :: rest) out = decodeLoop rest (out ++ [unit3 b0 b1 b2]) := by
  rw [decodeLoop.eq_def]
  simp only [if_neg h0, if_pos h3]

theorem decodeLoop_szBytes {w : WChar} (hw : w ≠ 0) (rest : List Byte) (out : List WChar) :
    decodeLoop (szBytes w ++ rest) out = decodeLoop rest (out ++ [kept w]) := by
  unfold szBytes
  split
  · rename_i h
    have hb : w.setWidth 8 ≠ (0 : Byte) := by
      intro h0
      apply hw
      have := unit1_byte h
      rw [h0] at this
      exact this.symm
    rw [List.singleton_append, decodeLoop_one hb (ascii_class h (by decide))
      (ascii_class h (by decide)), unit1_byte h, kept, if_pos (.inl h)]
  · rename_i h
    split
    · rename_i h'
      have hb : leadByte2 w ≠ 0 := by
        intro h0
        have := leadByte2_class w
        rw [h0] at this
        simp [ofByte] at this
      have hclass : 0xE0#32 ≠ ofByte (leadByte2 w) &&& 0xE0#32 := by
        rw [leadByte2_class]
        decide
      rw [List.cons_append, List.singleton_append,
        decodeLoop_two hb hclass (leadByte2_high w).symm, unit2_bytes, kept, if_neg (by tauto)]
    · rename_i h'
      have hb : leadByte3 w ≠ 0 := by
        intro h0
        have := leadByte3_class w
        rw [h0] at this
        simp [ofByte] at this
      rw [List.cons_append, List.cons_append, List.singleton_append,
        decodeLoop_three hb (leadByte3_class w).symm, unit3_bytes, kept, if_pos (.inr h')]

/-- The bytes that a text takes, its NUL not counted. -/
def byteCount (w : List WChar) : Nat := (w.map fun wChar => (szBytes wChar).length).sum

theorem encodeLoop_eq (w : List WChar) (out : List Byte)
    (h : out.length + byteCount w ≤ INT_MAX) :
    encodeLoop w out = some (out ++ w.flatMap szBytes ++ [0], out.length + byteCount w) := by
  induction w generalizing out with
  | nil => simp [encodeLoop, byteCount]
  | cons c w ih =>
    have hcount : byteCount (c :: w) = (szBytes c).length + byteCount w := by simp [byteCount]
    rw [hcount] at h ⊢
    rw [encodeLoop, if_neg (by omega), ih _ (by simp; omega)]
    simp [Nat.add_assoc]

theorem encodeLoop_overflow (w : List WChar) (out : List Byte)
    (h : INT_MAX < out.length + byteCount w) (hout : out.length ≤ INT_MAX) :
    encodeLoop w out = none := by
  induction w generalizing out with
  | nil =>
    simp [byteCount] at h
    omega
  | cons c w ih =>
    have hcount : byteCount (c :: w) = (szBytes c).length + byteCount w := by simp [byteCount]
    rw [hcount] at h
    rw [encodeLoop]
    split
    · rfl
    · exact ih _ (by simp; omega) (by simp; omega)

theorem decodeLoop_flatMap (w : List WChar) (hw : 0 ∉ w) (out : List WChar) :
    decodeLoop (w.flatMap szBytes ++ [0]) out =
      some (out ++ w.map kept ++ [0], out.length + w.length) := by
  induction w generalizing out with
  | nil => simp [decodeLoop]
  | cons c w ih =>
    have hc : c ≠ 0 := fun h => hw (h ▸ List.mem_cons_self)
    have hrest : 0 ∉ w := fun h => hw (List.mem_cons_of_mem c h)
    rw [List.flatMap_cons, List.append_assoc, decodeLoop_szBytes hc, ih hrest]
    simp
    omega

/-- The two conversions one after the other. -/
def roundTrip (w : List WChar) : Option (List WChar × Nat) :=
  (convertUTF16toUTF8 w).bind fun bytes => convertUTF8toUTF16 bytes.1

theorem decode_encode (w : List WChar) (hw : 0 ∉ w) (h : byteCount w ≤ INT_MAX) :
    roundTrip w = some (w.map kept ++ [0], w.length) := by
  have henc : convertUTF16toUTF8 w = some (w.flatMap szBytes ++ [0], byteCount w) := by
    unfold convertUTF16toUTF8
    rw [encodeLoop_eq w [] (by simpa using h)]
    simp
  have hdec := decodeLoop_flatMap w hw []
  simp only [roundTrip, henc, Option.bind_some, convertUTF8toUTF16, hdec, List.nil_append,
    List.length_nil, Nat.zero_add]

/-- The units that the two-byte mask damages. -/
def Damaged (w : WChar) : Prop := 0x400#16 ≤ w ∧ w < 0x800#16

theorem kept_eq_iff (w : WChar) : kept w = w ↔ ¬ Damaged w := by
  unfold kept Damaged
  simp only [BitVec.lt_def, BitVec.le_def, BitVec.toNat_ofNat]
  split
  · simp only [true_iff]
    omega
  · rename_i h
    have hmask : (w &&& 0x3ff#16).toNat = w.toNat % 1024 := by
      rw [BitVec.toNat_and]
      exact Nat.and_two_pow_sub_one_eq_mod w.toNat 10
    rw [← BitVec.toNat_inj, hmask]
    omega

theorem map_kept_iff (w : List WChar) : w.map kept = w ↔ ∀ c ∈ w, ¬ Damaged c := by
  induction w with
  | nil => simp
  | cons c w ih => simp [ih, kept_eq_iff]

/-- **The round trip gives a text back, with its length, exactly if none of its units lies in
0x400..0x7FF** and the `int` counter can hold its bytes. -/
theorem round_trip_iff (w : List WChar) (hw : 0 ∉ w) :
    roundTrip w = some (w ++ [0], w.length) ↔
      (∀ c ∈ w, ¬ Damaged c) ∧ byteCount w ≤ INT_MAX := by
  by_cases hb : byteCount w ≤ INT_MAX
  · rw [decode_encode w hw hb]
    simp [hb, map_kept_iff]
  · have henc : convertUTF16toUTF8 w = none :=
      encodeLoop_overflow w [] (by simpa using hb) (Nat.zero_le _)
    simp [roundTrip, henc, hb]

theorem round_trip_hangul :
    roundTrip [0xD55C, 0x41, 0xE9] = some ([0xD55C, 0x41, 0xE9] ++ [0], 3) := by
  have hd : ∀ c ∈ [(0xD55C : WChar), 0x41, 0xE9], ¬ Damaged c := by simp [Damaged]
  exact (round_trip_iff [0xD55C, 0x41, 0xE9] (by decide)).mpr ⟨hd, by decide⟩

/-- The Cyrillic letter U+0410 comes back as U+0010. -/
theorem cyrillic_damaged :
    (0 : WChar) ∉ [(0x0410 : WChar)] ∧ roundTrip [0x0410] = some ([0x0010, 0], 1) ∧
      roundTrip [0x0410] ≠ some ([0x0410, 0], 1) := by
  have hk : kept 0x0410 = 0x0010 := by decide
  have h : roundTrip [0x0410] = some ([0x0010, 0], 1) := by
    rw [decode_encode [0x0410] (by decide) (by decide), List.map_singleton, hk]
    rfl
  refine ⟨by decide, h, ?_⟩
  rw [h]
  decide

end IMonPlatform.Convert
