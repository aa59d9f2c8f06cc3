import IMonPlatform.Convert.Decode

/-!
# `getBytesUTF16toUTF8` beside `convertUTF16toUTF8`

`CU2U8::convert` allocates what `getBytesUTF16toUTF8` counts, and one byte more.  The count classifies
the units by itself, in a loop of its own, and begins with the byte of the NUL, so that its `int`
would overflow one byte before the one of the encoder; no text gets there that lies in memory with
its bytes.

* `getBytesUTF16toUTF8`, `CU2U8.convert` — the source's functions.
* `utf8Size` — the bytes of the units by their classes; `byteCount_eq` — the encoder stores as many.
* `SizeMatches` — the count is one more than what the encoder returns, and the buffer is large
  enough.
* `size_matches_iff` — that holds exactly where the bytes and the NUL can be counted in an `int`;
  `size_matches` — for every text in memory.
* `count_basic_plane` — for text of the basic plane the count is that of its UTF-8.
-/

set_option autoImplicit false

namespace IMonPlatform.Convert

/-! ## The count -/

/-- What a unit adds to `nBytes`. -/
def unitBytes (wChar : WChar) : Nat :=
  if wChar < 0x80#16 then 1
  else if wChar < 0x800#16 then 2
  else 3

/-- The loop of `getBytesUTF16toUTF8`; `none` is an overflow of the `int` counter `nBytes`. -/
def countLoop : List WChar → Nat → Option Nat
  | [], nBytes => some nBytes
  | wChar :: wszBuffer, nBytes =>
    if INT_MAX < nBytes + unitBytes wChar then none
    else countLoop wszBuffer (nBytes + unitBytes wChar)

/-- The argument is the text up to its NUL. -/
def getBytesUTF16toUTF8 (pwszUTF16 : List WChar) : Option Nat := countLoop pwszUTF16 1

/-! ## The conversion -/

structure Conversion where
  /-- The bytes of the array that is allocated. -/
  allocated : Nat
  /-- What the encoder stores there, from the front on. -/
  stored : List Byte
  nRetSize : Nat
  /-- `_szText`; a null pointer is `none`. -/
  szText : Option (List Byte)

/-- The portable branch of `CU2U8::convert`; `none` is an overflow of a counter. -/
def CU2U8.convert (szText : List WChar) : Option Conversion := do
  let nReqSize ← getBytesUTF16toUTF8 szText
  if nReqSize ≤ 0 then some ⟨0, [], nReqSize, none⟩
  else do
    let (stored, nRetSize) ← convertUTF16toUTF8 szText
    some ⟨nReqSize + 1, stored, nRetSize, if nRetSize ≤ 0 then none else some stored⟩

/-! ## What is promised -/

/-- The count is the number of bytes that the encoder returns and one for the NUL, and what is
allocated for it is enough. -/
def SizeMatches (w : List WChar) : Prop :=
  (∃ stored nTotalBytes, convertUTF16toUTF8 w = some (stored, nTotalBytes) ∧
    getBytesUTF16toUTF8 w = some (nTotalBytes + 1)) ∧
  ∃ run, CU2U8.convert w = some run ∧ run.stored.length ≤ run.allocated

/-- One byte for a unit below 0x80, two for any other below 0x800, and three for the rest. -/
def utf8Size (w : List WChar) : Nat :=
  w.countP (· < 0x80#16) + 2 * w.countP (fun c => ¬ c < 0x80#16 ∧ c < 0x800#16) +
    3 * w.countP (fun c => ¬ c < 0x800#16)

/-! ## The classes -/

theorem szBytes_length (c : WChar) : (szBytes c).length = unitBytes c := by
  rw [szBytes, unitBytes]
  split
  · rfl
  · split <;> rfl

theorem utf8Size_cons (c : WChar) (w : List WChar) :
    utf8Size (c :: w) = unitBytes c + utf8Size w := by
  have hclasses : c < 0x80#16 → c < 0x800#16 := by
    simp only [BitVec.lt_def, BitVec.toNat_ofNat]
    omega
  simp only [utf8Size, unitBytes, List.countP_cons, decide_eq_true_eq]
  by_cases h : c < 0x80#16
  · simp only [h, hclasses h, if_true, not_true_eq_false, false_and, if_false]
    omega
  · by_cases h' : c < 0x800#16
    · simp only [h, h', if_true, not_true_eq_false, not_false_eq_true, true_and, if_false]
      omega
    · simp only [h, h', if_true, not_false_eq_true, and_false, if_false]
      omega

/-- The encoder goes by the same classes. -/
theorem byteCount_eq (w : List WChar) : byteCount w = utf8Size w := by
  induction w with
  | nil => rfl
  | cons c w ih =>
    rw [utf8Size_cons, ← ih, ← szBytes_length]
    rfl

/-! ## The two loops -/

theorem countLoop_eq (w : List WChar) : ∀ nBytes : Nat, nBytes ≤ INT_MAX →
    countLoop w nBytes = if INT_MAX < nBytes + utf8Size w then none
      else some (nBytes + utf8Size w) := by
  induction w with
  | nil =>
    intro nBytes hle
    exact (if_neg (Nat.not_lt.mpr hle)).symm
  | cons c w ih =>
    intro nBytes hle
    rw [countLoop, utf8Size_cons, ← Nat.add_assoc]
    by_cases hover : INT_MAX < nBytes + unitBytes c
    · rw [if_pos hover, if_pos (by omega)]
    · rw [if_neg hover, ih _ (by omega)]

/-- **The count**, where it can be made. -/
theorem getBytes_eq (w : List WChar) : getBytesUTF16toUTF8 w =
    if utf8Size w < INT_MAX then some (utf8Size w + 1) else none := by
  have hone : 1 ≤ INT_MAX := by decide
  rw [getBytesUTF16toUTF8, countLoop_eq w 1 hone]
  by_cases h : utf8Size w < INT_MAX
  · rw [if_pos h, if_neg (by omega), Nat.add_comm]
  · rw [if_neg h, if_pos (by omega)]

theorem convert_eq {w : List WChar} (h : utf8Size w ≤ INT_MAX) :
    convertUTF16toUTF8 w = some (w.flatMap szBytes ++ [0], utf8Size w) := by
  rw [← byteCount_eq] at h ⊢
  rw [convertUTF16toUTF8, encodeLoop_eq w [] (by simpa using h), List.nil_append, List.length_nil,
    Nat.zero_add]

theorem flatMap_length (w : List WChar) : (w.flatMap szBytes).length = utf8Size w := by
  rw [← byteCount_eq, List.length_flatMap]
  rfl

/-- **The count matches the encoder exactly where the bytes and the NUL can be counted in an
`int`.** -/
theorem size_matches_iff (w : List WChar) : SizeMatches w ↔ utf8Size w < INT_MAX := by
  constructor
  · rintro ⟨⟨stored, nTotalBytes, -, hcount⟩, -⟩
    rw [getBytes_eq] at hcount
    by_contra h
    rw [if_neg h] at hcount
    cases hcount
  · intro h
    have hcount : getBytesUTF16toUTF8 w = some (utf8Size w + 1) := by
      rw [getBytes_eq, if_pos h]
    have hencode := convert_eq (Nat.le_of_lt h)
    refine ⟨⟨_, _, hencode, hcount⟩, ?_⟩
    rw [CU2U8.convert, hcount, hencode]
    refine ⟨_, rfl, ?_⟩
    show (w.flatMap szBytes ++ [0]).length ≤ utf8Size w + 1 + 1
    rw [List.length_append, flatMap_length, List.length_singleton]
    omega

/-! ## Texts in memory -/

/-- The text with its NUL and the bytes that the encoder stores for it lie in memory together. -/
def InMemory (w : List WChar) : Prop := 2 * (w.length + 1) + (utf8Size w + 1) ≤ ADDRESS_SPACE

/-- **The count matches the encoder for every text in memory.** -/
theorem size_matches {w : List WChar} (h : InMemory w) : SizeMatches w := by
  have hmem : 2 * (w.length + 1) + (utf8Size w + 1) ≤ INT_MAX + 1 := h
  exact (size_matches_iff w).mpr (by omega)

/-- The units at the boundaries of the classes, a lone surrogate among them. -/
theorem class_boundaries_match :
    SizeMatches [0x7F, 0x80, 0x7FF, 0x800, 0xD800, 0xFFFF] ∧
      getBytesUTF16toUTF8 [0x7F, 0x80, 0x7FF, 0x800, 0xD800, 0xFFFF] = some 15 :=
  ⟨size_matches (show _ ≤ _ by decide), by decide⟩

/-! ## The basic plane -/

/-- A character has as many bytes in UTF-8 as are counted for its unit. -/
theorem unitBytes_codePoint (c : BasicChar) : unitBytes c.codePoint = c.utf8.length := by
  have hlength : c.utf8.length = c.char.utf8Size := by
    rw [BasicChar.utf8, List.length_map, String.length_utf8EncodeChar]
  rw [hlength, unitBytes]
  simp only [BitVec.lt_def, BasicChar.codePoint_toNat, BitVec.toNat_ofNat]
  rcases Char.utf8Size_eq c.char with h | h | h | h
  · have hle : c.char.toNat ≤ 127 := Char.utf8Size_eq_one_iff.mp h
    rw [h, if_pos (by omega)]
  · have hrange : 127 < c.char.toNat ∧ c.char.toNat ≤ 0x7FF := Char.utf8Size_eq_two_iff.mp h
    rw [h, if_neg (by omega), if_pos (by omega)]
  · have hrange : 0x7FF < c.char.toNat ∧ c.char.toNat ≤ 0xFFFF := Char.utf8Size_eq_three_iff.mp h
    rw [h, if_neg (by omega), if_neg (by omega)]
  · exact absurd c.basic (UInt32.not_le.mpr (Char.utf8Size_eq_four_iff.mp h))

theorem utf8Size_codePoints (cs : List BasicChar) :
    utf8Size (cs.map BasicChar.codePoint) = (cs.flatMap BasicChar.utf8).length := by
  induction cs with
  | nil => rfl
  | cons c cs ih =>
    rw [List.map_cons, utf8Size_cons, ih, unitBytes_codePoint, List.flatMap_cons,
      List.length_append]

/-- **For text of the basic plane the count is that of its UTF-8**, the NUL included. -/
theorem count_basic_plane {cs : List BasicChar}
    (h : (cs.flatMap BasicChar.utf8).length < INT_MAX) :
    getBytesUTF16toUTF8 (cs.map BasicChar.codePoint) =
      some ((cs.flatMap BasicChar.utf8).length + 1) := by
  rw [getBytes_eq, utf8Size_codePoints, if_pos h]

end IMonPlatform.Convert
