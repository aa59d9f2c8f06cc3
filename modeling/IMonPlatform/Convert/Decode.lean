import Mathlib.Data.List.Basic
import IMonPlatform.Convert.Utf8

/-!
# `getActualUTF8Length` beside `convertUTF8toUTF16`

`CU82U::convert` allocates what `getActualUTF8Length` counts, the bytes that are no continuation
byte, and one unit more.  The decoder goes by lead bytes instead and never looks at what follows
one.

* `Piece` — the bytes the decoder takes for one unit: a first byte and as many more as it
  announces.
* `decodeLoop_pieces`, `pieces_of_decodeLoop` — the decoder stops at the terminator exactly if the
  text is a sequence of pieces; each gives one unit.
* `actualLength_pieces` — what the count makes of a sequence of pieces.
* `decode_in_bounds_iff` — when reads and writes both stay in bounds.
* `decode_basic_plane` — well-formed text of the basic plane, with its length.

The `int` counters are natural numbers here; `counters_fit` — in memory they do not overflow.
-/

set_option autoImplicit false

namespace IMonPlatform.Convert

/-! ## The count -/

/-- `( *szUTF8 & 0xc0 ) != 0x80` -/
def notContinuation (b : Byte) : Bool := ofByte b &&& 0xc0#32 != 0x80#32

/-- The argument is the text up to its NUL. -/
def getActualUTF8Length (szUTF8 : List Byte) : Nat :=
  szUTF8.foldl (fun nLength b => nLength + (notContinuation b).toNat) 0

theorem actualLength_loop (s : List Byte) (nLength : Nat) :
    s.foldl (fun nLength b => nLength + (notContinuation b).toNat) nLength =
      nLength + s.countP notContinuation := by
  induction s generalizing nLength with
  | nil => rfl
  | cons b s ih =>
    rw [List.foldl_cons, ih, List.countP_cons]
    cases notContinuation b <;> simp
    omega

theorem actualLength_eq (s : List Byte) : getActualUTF8Length s = s.countP notContinuation := by
  rw [getActualUTF8Length, actualLength_loop, Nat.zero_add]

/-! ## Pieces -/

/-- How far `iIndex` moves at a byte. -/
def stride (b : Byte) : Nat :=
  if 0xE0#32 = ofByte b &&& 0xE0#32 then 3
  else if 0xC0#32 = ofByte b &&& 0xC0#32 then 2
  else 1

/-- A first byte with all the bytes that the decoder takes together with it. -/
structure Piece where
  lead : Byte
  tail : List Byte
  complete : tail.length + 1 = stride lead

namespace Piece

def bytes (p : Piece) : List Byte := p.lead :: p.tail

/-- The unit that the decoder makes of a piece. -/
def unit (p : Piece) : WChar :=
  match p.tail with
  | [b1, b2] => unit3 p.lead b1 b2
  | [b1] => unit2 p.lead b1
  | _ => (ofByte p.lead &&& 0x7F#32).setWidth 16

end Piece

theorem stride_eq_three {b : Byte} (h : 0xE0#32 = ofByte b &&& 0xE0#32) : stride b = 3 :=
  if_pos h

theorem stride_eq_two {b : Byte} (h3 : 0xE0#32 ≠ ofByte b &&& 0xE0#32)
    (h2 : 0xC0#32 = ofByte b &&& 0xC0#32) : stride b = 2 := by
  rw [stride, if_neg h3, if_pos h2]

theorem stride_eq_one {b : Byte} (h3 : 0xE0#32 ≠ ofByte b &&& 0xE0#32)
    (h2 : 0xC0#32 ≠ ofByte b &&& 0xC0#32) : stride b = 1 := by
  rw [stride, if_neg h3, if_neg h2]

theorem decodeLoop_piece (p : Piece) (h0 : p.lead ≠ 0) (rest : List Byte) (out : List WChar) :
    decodeLoop (p.bytes ++ rest) out = decodeLoop rest (out ++ [p.unit]) := by
  obtain ⟨b0, tail, hlen⟩ := p
  by_cases h3 : 0xE0#32 = ofByte b0 &&& 0xE0#32
  · rw [stride_eq_three h3] at hlen
    obtain ⟨b1, b2, rfl⟩ := List.length_eq_two.mp (Nat.succ.inj hlen)
    exact decodeLoop_three h0 h3 b1 b2 rest out
  · by_cases h2 : 0xC0#32 = ofByte b0 &&& 0xC0#32
    · rw [stride_eq_two h3 h2] at hlen
      obtain ⟨b1, rfl⟩ := List.length_eq_one_iff.mp (Nat.succ.inj hlen)
      exact decodeLoop_two h0 h3 h2 b1 rest out
    · rw [stride_eq_one h3 h2] at hlen
      obtain rfl := List.length_eq_zero_iff.mp (Nat.succ.inj hlen)
      exact decodeLoop_one h0 h3 h2 rest out

/-- The decoder gives one unit for each piece. -/
theorem decodeLoop_pieces (ps : List Piece) (h : ∀ p ∈ ps, p.lead ≠ 0) (out : List WChar) :
    decodeLoop (ps.flatMap Piece.bytes ++ [0]) out =
      some (out ++ ps.map Piece.unit ++ [0], out.length + ps.length) := by
  induction ps generalizing out with
  | nil => simp [decodeLoop]
  | cons p ps ih =>
    rw [List.flatMap_cons, List.append_assoc, decodeLoop_piece p (h p List.mem_cons_self),
      ih fun q hq => h q (List.mem_cons_of_mem p hq)]
    simp
    omega

theorem pieces_length_le (ps : List Piece) : ps.length ≤ (ps.flatMap Piece.bytes).length := by
  induction ps with
  | nil => exact Nat.le_refl _
  | cons p ps ih =>
    rw [List.flatMap_cons, List.length_append, List.length_cons, Piece.bytes, List.length_cons]
    omega

/-- Where the decoder stops at the terminator, it has taken the text piece by piece. -/
theorem pieces_of_decodeLoop (s : List Byte) (hs : 0 ∉ s) (out : List WChar)
    (h : (decodeLoop (s ++ [0]) out).isSome) : ∃ ps : List Piece, s = ps.flatMap Piece.bytes := by
  induction hn : s.length using Nat.strong_induction_on generalizing s out with
  | _ n ih =>
    cases s with
    | nil => exact ⟨[], rfl⟩
    | cons b0 s =>
      have h0 : b0 ≠ 0 := fun h' => hs (h' ▸ List.mem_cons_self)
      -- the rest after a piece is shorter, so it is a sequence of pieces
      have hpiece : ∀ (p : Piece) (rest : List Byte), b0 :: s = p.bytes ++ rest →
          ∃ ps : List Piece, b0 :: s = ps.flatMap Piece.bytes := by
        intro p rest heq
        have hlead : p.lead ≠ 0 := by
          have : b0 = p.lead := (List.cons.inj heq).1
          exact this ▸ h0
        have hlt : rest.length < n := by
          have := congrArg List.length heq
          simp only [Piece.bytes, List.length_append, List.length_cons] at this hn
          omega
        have hrest : 0 ∉ rest := fun hmem => hs (heq ▸ List.mem_append_right _ hmem)
        rw [heq, List.append_assoc, decodeLoop_piece p hlead] at h
        obtain ⟨ps, rfl⟩ := ih rest.length hlt rest hrest _ h rfl
        exact ⟨p :: ps, heq⟩
      by_cases h3 : 0xE0#32 = ofByte b0 &&& 0xE0#32
      · rcases s with _ | ⟨b1, _ | ⟨b2, rest⟩⟩
        · exact absurd (by simpa [decodeLoop, if_pos h3] using h) h0
        · exact absurd (by simpa [decodeLoop, if_pos h3] using h) h0
        · exact hpiece ⟨b0, [b1, b2], (stride_eq_three h3).symm⟩ rest rfl
      · by_cases h2 : 0xC0#32 = ofByte b0 &&& 0xC0#32
        · cases s with
          | nil => exact absurd (by simpa [decodeLoop, if_neg h3, if_pos h2] using h) h0
          | cons b1 rest => exact hpiece ⟨b0, [b1], (stride_eq_two h3 h2).symm⟩ rest rfl
        · exact hpiece ⟨b0, [], (stride_eq_one h3 h2).symm⟩ s rfl

/-! ## The count of a sequence of pieces -/

/-- The pieces that start with a continuation byte: units that are not counted. -/
def strays (ps : List Piece) : Nat := ps.countP fun p => !notContinuation p.lead

/-- The bytes taken behind a first byte that are no continuation bytes: counted, but no units. -/
def swallowed (ps : List Piece) : Nat := (ps.map fun p => p.tail.countP notContinuation).sum

theorem actualLength_pieces (ps : List Piece) :
    getActualUTF8Length (ps.flatMap Piece.bytes) + strays ps = ps.length + swallowed ps := by
  induction ps with
  | nil => rfl
  | cons p ps ih =>
    rw [actualLength_eq] at ih ⊢
    simp only [List.flatMap_cons, List.countP_append, Piece.bytes, List.countP_cons, strays,
      swallowed, List.map_cons, List.sum_cons, List.length_cons] at ih ⊢
    cases notContinuation p.lead <;> simp <;> omega

/-! ## Bounds -/

/-- `convertUTF8toUTF16` reads no byte behind the terminator of a text and stores no unit behind
the `getActualUTF8Length` units and the zero that `CU82U::convert` allocates. -/
def InBounds (s : List Byte) : Prop :=
  ∃ units nRetSize, convertUTF8toUTF16 (s ++ [0]) = some (units, nRetSize) ∧
    units.length ≤ getActualUTF8Length s + 1

theorem lead_ne_zero {ps : List Piece} (h : 0 ∉ ps.flatMap Piece.bytes) :
    ∀ p ∈ ps, p.lead ≠ 0 := by
  intro p hp h0
  apply h
  exact List.mem_flatMap.mpr ⟨p, hp, h0 ▸ List.mem_cons_self⟩

/-- **The decoder stays in bounds exactly if no first byte announces more bytes than are left, and
no more continuation bytes stand first than other bytes behind a first byte.** -/
theorem decode_in_bounds_iff (s : List Byte) (hs : 0 ∉ s) :
    InBounds s ↔ ∃ ps : List Piece, s = ps.flatMap Piece.bytes ∧ strays ps ≤ swallowed ps := by
  constructor
  · rintro ⟨units, nRetSize, hdec, hlen⟩
    obtain ⟨ps, rfl⟩ := pieces_of_decodeLoop s hs [] (Option.isSome_iff_exists.mpr ⟨_, hdec⟩)
    have heq := decodeLoop_pieces ps (lead_ne_zero hs) []
    rw [show decodeLoop _ [] = _ from hdec] at heq
    obtain ⟨rfl, -⟩ := Prod.mk.inj (Option.some.inj heq)
    have hcount := actualLength_pieces ps
    simp only [List.nil_append, List.length_append, List.length_map, List.length_singleton] at hlen
    exact ⟨ps, rfl, by omega⟩
  · rintro ⟨ps, rfl, hle⟩
    refine ⟨_, _, decodeLoop_pieces ps (lead_ne_zero hs) [], ?_⟩
    have hcount := actualLength_pieces ps
    simp only [List.nil_append, List.length_append, List.length_map, List.length_singleton]
    omega

/-- The count, and the result of a decoder that stops at the terminator, are `int`s for every text
in memory. -/
theorem counters_fit {s : List Byte} (hs : 0 ∉ s) (h : s.length < ADDRESS_SPACE) :
    getActualUTF8Length s ≤ INT_MAX ∧
      ∀ units nRetSize, convertUTF8toUTF16 (s ++ [0]) = some (units, nRetSize) →
        nRetSize ≤ INT_MAX := by
  have hmem : s.length < INT_MAX + 1 := h
  constructor
  · have hle : s.countP notContinuation ≤ s.length := List.countP_le_length
    rw [actualLength_eq]
    omega
  · intro units nRetSize hdec
    obtain ⟨ps, rfl⟩ := pieces_of_decodeLoop s hs [] (Option.isSome_iff_exists.mpr ⟨_, hdec⟩)
    have heq := decodeLoop_pieces ps (lead_ne_zero hs) []
    rw [show decodeLoop _ [] = _ from hdec] at heq
    obtain ⟨-, rfl⟩ := Prod.mk.inj (Option.some.inj heq)
    have hle := pieces_length_le ps
    rw [List.length_nil]
    omega

/-- `é` and a Hangul syllable. -/
theorem hangul_in_bounds : InBounds [0xC3, 0xA9, 0xED, 0x95, 0x9C] :=
  (decode_in_bounds_iff [0xC3, 0xA9, 0xED, 0x95, 0x9C] (by decide)).mpr
    ⟨[⟨0xC3, [0xA9], by decide⟩, ⟨0xED, [0x95, 0x9C], by decide⟩], by decide, by decide⟩

/-- U+1F600 takes two units and the zero where one unit is counted, and the byte `E0` alone has the
decoder read on behind the terminator. -/
theorem emoji_out_of_bounds :
    (0 : Byte) ∉ [(0xF0 : Byte), 0x9F, 0x98, 0x80] ∧ ¬ InBounds [0xF0, 0x9F, 0x98, 0x80] ∧
      (0 : Byte) ∉ [(0xE0 : Byte)] ∧ ¬ InBounds [0xE0] := by
  refine ⟨by decide, ?_, by decide, ?_⟩
  · rintro ⟨units, nRetSize, hdec, hlen⟩
    have h : convertUTF8toUTF16 ([0xF0, 0x9F, 0x98, 0x80] ++ [0]) = some ([0x07D8, 0, 0], 2) := by
      decide
    rw [h] at hdec
    obtain ⟨rfl, -⟩ := Prod.mk.inj (Option.some.inj hdec)
    exact absurd hlen (by decide)
  · rintro ⟨units, nRetSize, hdec, -⟩
    exact absurd hdec (by simp [convertUTF8toUTF16, decodeLoop, ofByte])

/-- The portable branch of `CU82U::convert`: the units of `_szText` and what the decoder does with
them.  Where nothing is counted the branch is left before anything is allocated. -/
def CU82U.convert (szText : List Byte) : Option (Nat × Option (List WChar × Nat)) :=
  let nRetSize := getActualUTF8Length szText
  if nRetSize ≤ 0 then none else some (nRetSize + 1, convertUTF8toUTF16 (szText ++ [0]))

/-- A text of continuation bytes alone is not decoded at all. -/
theorem convert_fits_iff (s : List Byte) :
    (∀ size run, CU82U.convert s = some (size, run) →
      ∃ units nRetSize, run = some (units, nRetSize) ∧ units.length ≤ size) ↔
    getActualUTF8Length s = 0 ∨ InBounds s := by
  unfold CU82U.convert
  by_cases h : getActualUTF8Length s = 0
  · simp [h]
  · simp only [if_neg (show ¬ getActualUTF8Length s ≤ 0 by omega), h, false_or]
    constructor
    · intro hfits
      exact hfits _ _ rfl
    · rintro hin size run heq
      obtain ⟨rfl, rfl⟩ := Prod.mk.inj (Option.some.inj heq)
      exact hin

/-! ## The basic plane -/

/-- A character other than NUL that a single unit can hold. -/
structure BasicChar where
  char : Char
  ne_nul : char.val ≠ 0
  basic : char.val ≤ 0xFFFF

namespace BasicChar

def utf8 (c : BasicChar) : List Byte := (String.utf8EncodeChar c.char).map UInt8.toBitVec

def codePoint (c : BasicChar) : WChar := BitVec.ofNat 16 c.char.toNat

theorem codePoint_toNat (c : BasicChar) : c.codePoint.toNat = c.char.toNat := by
  have h : c.char.toNat ≤ 0xFFFF := c.basic
  rw [codePoint, BitVec.toNat_ofNat]
  omega

end BasicChar

theorem continuation_byte (v : UInt32) :
    notContinuation (v.toUInt8 &&& 0x3f ||| 0x80).toBitVec = false := by
  have h : ofByte (v.toUInt8 &&& 0x3f ||| 0x80).toBitVec &&& 0xc0#32 = 0x80#32 := by
    apply BitVec.eq_of_getElem_eq
    intro i hi
    interval_cases i <;> simp [ofByte, BitVec.getElem_signExtend]
  rw [notContinuation, h]
  rfl

theorem lead_two (v : UInt32) :
    ofByte ((v >>> 6).toUInt8 &&& 0x1f ||| 0xc0).toBitVec &&& 0xE0#32 = 0xC0#32 := by
  apply BitVec.eq_of_getElem_eq
  intro i hi
  interval_cases i <;> simp [ofByte, BitVec.getElem_signExtend]

theorem lead_three (v : UInt32) :
    ofByte ((v >>> 12).toUInt8 &&& 0x0f ||| 0xe0).toBitVec &&& 0xE0#32 = 0xE0#32 := by
  apply BitVec.eq_of_getElem_eq
  intro i hi
  interval_cases i <;> simp [ofByte, BitVec.getElem_signExtend]

theorem unit_two (v : UInt32) :
    unit2 ((v >>> 6).toUInt8 &&& 0x1f ||| 0xc0).toBitVec (v.toUInt8 &&& 0x3f ||| 0x80).toBitVec =
      v.toBitVec.setWidth 16 &&& 0x7ff#16 := by
  apply BitVec.eq_of_getElem_eq
  intro i hi
  interval_cases i <;> simp [unit2, ofByte, BitVec.getElem_signExtend]

theorem unit_three (v : UInt32) :
    unit3 ((v >>> 12).toUInt8 &&& 0x0f ||| 0xe0).toBitVec
      ((v >>> 6).toUInt8 &&& 0x3f ||| 0x80).toBitVec (v.toUInt8 &&& 0x3f ||| 0x80).toBitVec =
      v.toBitVec.setWidth 16 := by
  apply BitVec.eq_of_getElem_eq
  intro i hi
  interval_cases i <;> simp [unit3, ofByte, BitVec.getElem_signExtend]

/-- The two highest bits follow from the three highest. -/
theorem class_two_bits {b : Byte} {m : BitVec 32} (h : ofByte b &&& 0xE0#32 = m) :
    ofByte b &&& 0xC0#32 = m &&& 0xC0#32 := by
  rw [← h, BitVec.and_assoc]
  rfl

theorem lead_counts {b : Byte} {m : BitVec 32} (h : ofByte b &&& 0xE0#32 = m)
    (hm : m &&& 0xC0#32 = 0xC0#32) : notContinuation b = true := by
  rw [notContinuation, class_two_bits h, hm]
  rfl

theorem lead_nonzero {b : Byte} {m : BitVec 32} (h : ofByte b &&& 0xE0#32 = m) (hm : m ≠ 0) :
    b ≠ 0 := by
  rintro rfl
  exact hm (h.symm.trans (by decide))

theorem ascii_counts {w : WChar} (h : w < 0x80#16) : notContinuation (w.setWidth 8) = true := by
  have hbit : (ofByte (w.setWidth 8) &&& 0xc0#32)[7] = false := by
    rw [ofByte_ascii h, BitVec.getElem_and, ofWChar, BitVec.getElem_setWidth,
      BitVec.getLsbD_eq_getElem (by decide), ascii_bit h, Bool.false_and]
  have hne : ofByte (w.setWidth 8) &&& 0xc0#32 ≠ 0x80#32 := by
    intro heq
    rw [heq] at hbit
    exact absurd hbit (by decide)
  simpa [notContinuation] using hne

namespace BasicChar

theorem codePoint_eq (c : BasicChar) : c.codePoint = c.char.val.toBitVec.setWidth 16 :=
  rfl

/-- A character of one byte is its byte. -/
theorem utf8_one {c : BasicChar} (h : c.char.utf8Size = 1) :
    c.codePoint < 0x80#16 ∧ c.utf8 = [c.codePoint.setWidth 8] := by
  have hle : c.char.toNat ≤ 127 := Char.utf8Size_eq_one_iff.mp h
  constructor
  · rw [BitVec.lt_def, codePoint_toNat]
    exact Nat.lt_succ_of_le hle
  · rw [utf8, String.utf8EncodeChar_eq_singleton h, codePoint_eq, List.map_singleton,
      UInt32.toBitVec_toUInt8, BitVec.setWidth_setWidth_of_le _ (by decide)]

/-- The bytes of a character are one piece, whose unit is the character. -/
theorem exists_piece (c : BasicChar) :
    ∃ p : Piece, p.bytes = c.utf8 ∧ p.unit = c.codePoint ∧ p.lead ≠ 0 ∧
      notContinuation p.lead = true ∧ p.tail.countP notContinuation = 0 := by
  rcases Char.utf8Size_eq c.char with h | h | h | h
  · obtain ⟨hlt, hutf8⟩ := utf8_one h
    have hstride : stride (c.codePoint.setWidth 8) = 1 :=
      stride_eq_one (ascii_class hlt (by decide)) (ascii_class hlt (by decide))
    refine ⟨⟨c.codePoint.setWidth 8, [], hstride.symm⟩, hutf8.symm, unit1_byte hlt, ?_,
      ascii_counts hlt, rfl⟩
    intro h0
    apply c.ne_nul
    have hpoint : c.codePoint = 0 := by
      rw [← unit1_byte hlt]
      rw [show c.codePoint.setWidth 8 = (0 : Byte) from h0]
      rfl
    have hnat : c.char.toNat = 0 := by rw [← codePoint_toNat, hpoint]; rfl
    exact UInt32.toNat_inj.mp hnat
  · have hclass := lead_two c.char.val
    have hle : c.char.toNat ≤ 0x7FF := (Char.utf8Size_eq_two_iff.mp h).2
    have h3 : ¬ 0xE0#32 = ofByte ((c.char.val >>> 6).toUInt8 &&& 0x1f ||| 0xc0).toBitVec
        &&& 0xE0#32 := by
      rw [hclass]
      decide
    have hstride := stride_eq_two h3 (class_two_bits hclass).symm
    refine ⟨⟨_, [(c.char.val.toUInt8 &&& 0x3f ||| 0x80).toBitVec], hstride.symm⟩, ?_, ?_,
      lead_nonzero hclass (by decide), lead_counts hclass (by decide), ?_⟩
    · rw [utf8, String.utf8EncodeChar_eq_cons_cons h]
      rfl
    · have hmask : c.codePoint &&& 0x7ff#16 = c.codePoint := by
        apply BitVec.eq_of_toNat_eq
        rw [BitVec.toNat_and, codePoint_toNat]
        exact (Nat.and_two_pow_sub_one_eq_mod c.char.toNat 11).trans (Nat.mod_eq_of_lt (by omega))
      exact (unit_two c.char.val).trans hmask
    · simp only [List.countP_cons, continuation_byte, List.countP_nil]
      rfl
  · have hclass := lead_three c.char.val
    have hstride := stride_eq_three hclass.symm
    refine ⟨⟨_, [((c.char.val >>> 6).toUInt8 &&& 0x3f ||| 0x80).toBitVec,
      (c.char.val.toUInt8 &&& 0x3f ||| 0x80).toBitVec], hstride.symm⟩, ?_, unit_three c.char.val,
      lead_nonzero hclass (by decide), lead_counts hclass (by decide), ?_⟩
    · rw [utf8, String.utf8EncodeChar_eq_cons_cons_cons h]
      rfl
    · simp only [List.countP_cons, continuation_byte, List.countP_nil]
      rfl
  · exact absurd c.basic (UInt32.not_le.mpr (Char.utf8Size_eq_four_iff.mp h))

/-- A text of the basic plane is a piece for each character, none of them a stray. -/
theorem exists_pieces (cs : List BasicChar) :
    ∃ ps : List Piece, ps.flatMap Piece.bytes = cs.flatMap utf8 ∧
      ps.map Piece.unit = cs.map codePoint ∧ (∀ p ∈ ps, p.lead ≠ 0) ∧ strays ps = 0 ∧
      swallowed ps = 0 := by
  induction cs with
  | nil => exact ⟨[], rfl, rfl, by simp, rfl, rfl⟩
  | cons c cs ih =>
    obtain ⟨p, hbytes, hunit, hlead, hcounts, htail⟩ := c.exists_piece
    obtain ⟨ps, hbytes', hunit', hlead', hstrays, hswallowed⟩ := ih
    refine ⟨p :: ps, ?_, ?_, ?_, ?_, ?_⟩
    · rw [List.flatMap_cons, List.flatMap_cons, hbytes, hbytes']
    · rw [List.map_cons, List.map_cons, hunit, hunit']
    · exact List.forall_mem_cons.mpr ⟨hlead, hlead'⟩
    · rw [strays] at hstrays ⊢
      simp [hstrays, hcounts]
    · rw [swallowed] at hswallowed ⊢
      rw [List.map_cons, List.sum_cons, htail, hswallowed]

end BasicChar

/-- **Text of the basic plane is decoded to its code points**, and the count is their number. -/
theorem decode_basic_plane (cs : List BasicChar) :
    convertUTF8toUTF16 (cs.flatMap BasicChar.utf8 ++ [0]) =
        some (cs.map BasicChar.codePoint ++ [0],
          getActualUTF8Length (cs.flatMap BasicChar.utf8)) ∧
      getActualUTF8Length (cs.flatMap BasicChar.utf8) = cs.length := by
  obtain ⟨ps, hbytes, hunits, hlead, hstrays, hswallowed⟩ := BasicChar.exists_pieces cs
  have hlength : ps.length = cs.length := by simpa using congrArg List.length hunits
  have hcount : getActualUTF8Length (cs.flatMap BasicChar.utf8) = cs.length := by
    have h := actualLength_pieces ps
    rw [hbytes, hstrays, hswallowed, hlength] at h
    exact h
  refine ⟨?_, hcount⟩
  rw [convertUTF8toUTF16, ← hbytes, decodeLoop_pieces ps hlead [], hunits, hbytes, hcount,
    hlength, List.nil_append, List.length_nil, Nat.zero_add]

end IMonPlatform.Convert
