import IMonPlatform.Format.DoFormat

/-!
# `clsRenderer< CharT* >`: a buffer that grows

The renderer keeps a buffer with its size and the number of free cells.  `getBuffer` grows the
buffer by multiples of 256 unless there is *more* room than required, stops when there is *enough*,
and copies the old text up to its first NUL.  A render call asks for three cells more than its
text: one for the NUL and two for the line end that the logger appends.

* `BufferRenderer`, `getBuffer`, `bufferRenderer` — the renderer; `none` is an access outside the
  allocation.
* `Fits` — the buffer holds a text followed by NULs; `getBuffer_fits`, `render_fits`.
* `counted` — a renderer that counts its calls; `doFormat_counted` — counting changes nothing else.
* `buffer_simulates` — the buffer and the string agree call by call.
* `buffer_agrees` — from a missing or cleared buffer, formatting into the buffer gives the same
  result as formatting into a string.
-/

set_option autoImplicit false

namespace IMonPlatform.Format

variable {Arg σ : Type}

/-! ## The renderer -/

structure BufferRenderer where
  /-- The cells of the allocation, or `NULL`. -/
  textBuffer : Option (List CharT)
  bufferSize : Nat
  remainBufferSize : Nat

/-- The `do`-`while` loop of `getBuffer`: the total and the remaining size. -/
def growSizes (nRequiredSize totalBufferSize nRemainBufferSize : Nat) : Nat × Nat :=
  if nRemainBufferSize + DEFAULT_BUFFER_SIZE < nRequiredSize then
    growSizes nRequiredSize (totalBufferSize + DEFAULT_BUFFER_SIZE)
      (nRemainBufferSize + DEFAULT_BUFFER_SIZE)
  else (totalBufferSize + DEFAULT_BUFFER_SIZE, nRemainBufferSize + DEFAULT_BUFFER_SIZE)
termination_by nRequiredSize - nRemainBufferSize
decreasing_by
  unfold DEFAULT_BUFFER_SIZE at *
  omega

/-- The text of the old buffer up to its NUL; without a NUL it is read beyond its end. -/
def oldText : Option (List CharT) → Option (List CharT)
  | none => some []
  | some cells => if 0 ∈ cells then some (cstr cells) else none

def getBuffer (b : BufferRenderer) (nRequiredSize : Nat) : Option BufferRenderer :=
  if nRequiredSize < b.remainBufferSize then some b
  else
    match oldText b.textBuffer with
    | none => none
    | some text =>
      let sizes := growSizes nRequiredSize b.bufferSize b.remainBufferSize
      if text.length ≤ sizes.1 then
        some ⟨some (overwrite (List.replicate sizes.1 0) text), sizes.1, sizes.2⟩
      else none

/-- `memcpy` to a place in the buffer; without characters there is no access. -/
def writeAt (cells : List CharT) (pos : Int) (text : List CharT) : Option (List CharT) :=
  if text = [] ∨ 0 ≤ pos ∧ pos + text.length ≤ cells.length then
    some (cells.take pos.toNat ++ text ++ cells.drop (pos.toNat + text.length))
  else none

/-- An offset is a difference of two `size_t`: the logger may hand over a renderer with more room
    than its buffer has, and the offset is then in front of the buffer. -/
def bufferRenderer : Renderer BufferRenderer where
  render b rsh rshLength := do
    let beforeLength : Int := b.bufferSize - b.remainBufferSize
    let text := rendered rsh rshLength
    let b ← getBuffer b (text.length + 1 + 2)
    let cells ← b.textBuffer
    let cells ← writeAt cells ((b.bufferSize : Int) - b.remainBufferSize) text
    let remain := b.remainBufferSize - text.length
    some (((b.bufferSize : Int) - remain - beforeLength).toNat, ⟨some cells, b.bufferSize, remain⟩)

/-- A buffer as a caller may hand it over: `NULL` of size 0, or cleared with its true size. -/
inductive StartBuffer where
  | null
  | cleared (size : Nat) (pos : 1 ≤ size)

def StartBuffer.renderer : StartBuffer → BufferRenderer
  | .null => ⟨none, 0, 0⟩
  | .cleared size _ => ⟨some (List.replicate size 0), size, size⟩

/-! ## The invariant -/

/-- The buffer holds the text, `free` cells are left and all of them are NUL. -/
structure Fits (b : BufferRenderer) (text : List CharT) : Prop where
  nulFree : 0 ∉ text
  size : b.bufferSize = text.length + b.remainBufferSize
  cells : b.textBuffer = some (text ++ List.replicate b.remainBufferSize 0)

/-- Before the first call there may be no buffer at all. -/
def Ready (b : BufferRenderer) (text : List CharT) : Prop :=
  (b = ⟨none, 0, 0⟩ ∧ text = []) ∨ Fits b text ∧ 1 ≤ b.remainBufferSize

/-- The loop adds one multiple of the block size to both sizes until there is enough room. -/
theorem growSizes_spec (required total remain : Nat) :
    ∃ grown, growSizes required total remain = (total + grown, remain + grown) ∧
      required ≤ remain + grown ∧ 1 ≤ grown ∧ DEFAULT_BUFFER_SIZE ∣ grown := by
  fun_induction growSizes required total remain with
  | case1 total remain h ih =>
    obtain ⟨grown, hsizes, hroom, hgrown, hblocks⟩ := ih
    refine ⟨DEFAULT_BUFFER_SIZE + grown, ?_, by omega, by omega, ?_⟩
    · rw [hsizes, Nat.add_assoc, Nat.add_assoc]
    · exact Nat.dvd_add (Nat.dvd_refl _) hblocks
  | case2 total remain h =>
    exact ⟨DEFAULT_BUFFER_SIZE, rfl, by omega, by decide, Nat.dvd_refl _⟩

theorem overwrite_cleared (text : List CharT) (free : Nat) :
    overwrite (List.replicate (text.length + free) 0) text = text ++ List.replicate free 0 := by
  unfold overwrite
  rw [List.drop_replicate, Nat.add_sub_cancel_left]

/-- The NUL behind the text stops the copy. -/
theorem oldText_fits {b : BufferRenderer} {text : List CharT} (h : Fits b text)
    (hfree : 1 ≤ b.remainBufferSize) : oldText b.textBuffer = some text := by
  obtain ⟨free, hremain⟩ := Nat.exists_eq_add_of_le' hfree
  have hcells : b.textBuffer = some (text ++ 0 :: List.replicate free 0) := by
    rw [h.cells, hremain, List.replicate_succ]
  rw [hcells]
  simp only [oldText]
  rw [if_pos (List.mem_append_right _ List.mem_cons_self)]
  congr 1
  unfold cstr
  rw [List.takeWhile_append_of_pos (fun c hc => ?_)]
  · simp
  · rw [bne_iff_ne]
    rintro rfl
    exact h.nulFree hc

/-- **Growing** keeps the text and leaves at least the room that is asked for. -/
theorem getBuffer_fits {b : BufferRenderer} {text : List CharT} (h : Ready b text)
    (required : Nat) :
    ∃ b', getBuffer b required = some b' ∧ Fits b' text ∧ required ≤ b'.remainBufferSize := by
  obtain ⟨grown, hsizes, hroom, _, _⟩ :=
    growSizes_spec required b.bufferSize b.remainBufferSize
  rcases h with ⟨rfl, rfl⟩ | ⟨hfits, hfree⟩
  · -- there is no buffer: the new one is clear
    refine ⟨⟨some (List.replicate grown 0), grown, grown⟩, ?_, ⟨by simp, by simp, by simp⟩, ?_⟩
    · simp [getBuffer, oldText, overwrite, hsizes]
    · simpa using hroom
  · unfold getBuffer
    split
    · rename_i hlt
      exact ⟨b, rfl, hfits, Nat.le_of_lt hlt⟩
    · rw [oldText_fits hfits hfree]
      have hlen : text.length ≤ b.bufferSize + grown := by
        have := hfits.size
        omega
      have hcells : overwrite (List.replicate (b.bufferSize + grown) 0) text =
          text ++ List.replicate (b.remainBufferSize + grown) 0 := by
        rw [hfits.size, Nat.add_assoc]
        exact overwrite_cleared text _
      refine ⟨⟨some (text ++ List.replicate (b.remainBufferSize + grown) 0),
        b.bufferSize + grown, b.remainBufferSize + grown⟩, ?_, ⟨hfits.nulFree, ?_, rfl⟩, hroom⟩
      · simp [hsizes, hlen, hcells]
      · show b.bufferSize + grown = text.length + (b.remainBufferSize + grown)
        rw [hfits.size, Nat.add_assoc]

/-- The new text goes over the first free cells. -/
theorem writeAt_free (text new : List CharT) {free : Nat} (h : new.length ≤ free) :
    writeAt (text ++ List.replicate free 0) text.length new =
      some (text ++ new ++ List.replicate (free - new.length) 0) := by
  unfold writeAt
  have hroom : (text.length : Int) + new.length ≤ (text ++ List.replicate free 0).length := by
    rw [List.length_append, List.length_replicate]
    omega
  rw [if_pos (.inr ⟨Int.natCast_nonneg _, hroom⟩)]
  congr 1
  rw [Int.toNat_natCast, List.take_left, List.drop_append, List.drop_replicate]
  simp

/-- **A render call** appends its text and leaves three cells. -/
theorem render_fits {b : BufferRenderer} {text : List CharT} (h : Ready b text)
    (rsh : List CharT) (rshLength : Int) (hrsh : 0 ∉ rendered rsh rshLength) :
    ∃ b', bufferRenderer.render b rsh rshLength = some ((rendered rsh rshLength).length, b') ∧
      Fits b' (text ++ rendered rsh rshLength) ∧ 3 ≤ b'.remainBufferSize := by
  have hbefore : (b.bufferSize : Int) - b.remainBufferSize = text.length := by
    rcases h with ⟨rfl, rfl⟩ | ⟨hfits, _⟩
    · rfl
    · rw [hfits.size, Int.natCast_add, Int.add_sub_cancel]
  obtain ⟨b', hget, hfits, hroom⟩ := getBuffer_fits h ((rendered rsh rshLength).length + 1 + 2)
  have hafter : (b'.bufferSize : Int) - b'.remainBufferSize = text.length := by
    rw [hfits.size, Int.natCast_add, Int.add_sub_cancel]
  have hcount : ((b'.bufferSize : Int) -
      (b'.remainBufferSize - (rendered rsh rshLength).length : Nat) - text.length).toNat =
        (rendered rsh rshLength).length := by
    rw [hfits.size]
    omega
  refine ⟨⟨some (text ++ rendered rsh rshLength ++
      List.replicate (b'.remainBufferSize - (rendered rsh rshLength).length) 0), b'.bufferSize,
    b'.remainBufferSize - (rendered rsh rshLength).length⟩, ?_, ⟨?_, ?_, rfl⟩, ?_⟩
  · simp only [bufferRenderer, hget, hbefore, hafter, hfits.cells, Option.bind_eq_bind,
      Option.bind_some]
    rw [writeAt_free text _ (by omega)]
    simp only [Option.bind_some, hcount]
  · intro hmem
    rcases List.mem_append.mp hmem with hold | hnew
    · exact hfits.nulFree hold
    · exact hrsh hnew
  · show b'.bufferSize = _ + (_ - _)
    rw [hfits.size, List.length_append]
    omega
  · show 3 ≤ _ - _
    omega

/-! ## Counted calls -/

/-- A renderer that counts its calls. -/
def counted (R : Renderer σ) : Renderer (σ × Nat) where
  render out rsh rshLength := do
    let r ← R.render out.1 rsh rshLength
    some (r.1, r.2, out.2 + 1)

/-- A result without the number of calls. -/
def uncounted {ρ : Type} (r : ρ × σ × Nat) : ρ × σ := (r.1, r.2.1)

section Counted

variable (R : Renderer σ) (formatValue : Arg → Flags → List CharT → CText)
  (env : Nat → EnvKind → ScratchText) (args : List Arg)

theorem render_counted (out : σ × Nat) (rsh : List CharT) (rshLength : Int) :
    ((counted R).render out rsh rshLength).map uncounted = R.render out.1 rsh rshLength := by
  cases h : R.render out.1 rsh rshLength with
  | none => simp [counted, h]
  | some r => simp [counted, uncounted, h]

theorem renderIf_counted (c : Prop) [Decidable c] (out : σ × Nat) (rsh : List CharT)
    (rshLength : Int) :
    ((counted R).renderIf c out rsh rshLength).map uncounted =
      R.renderIf c out.1 rsh rshLength := by
  unfold Renderer.renderIf
  split
  · exact render_counted R out rsh rshLength
  · rfl

theorem formatRound_counted (p : Parsed) (out : σ × Nat) :
    (formatRound (counted R) formatValue args p out).map uncounted =
      formatRound R formatValue args p out.1 := by
  unfold formatRound
  rw [← renderIf_counted]
  cases (counted R).renderIf (0 < p.prefixLength) out p.prefixText p.prefixLength with
  | none => rfl
  | some r₁ =>
    simp only [Option.bind_eq_bind, Option.map_some, Option.bind_some, uncounted]
    rw [← renderIf_counted]
    cases (counted R).renderIf (p.fmtBuffer.headD 0 ≠ 0 ∧ p.fmtSpec.argIndex = 0) r₁.2
        p.fmtBuffer (-1) with
    | none => rfl
    | some r₂ =>
      simp only [Option.map_some, Option.bind_some, uncounted]
      split
      · rfl
      · cases args[(p.fmtSpec.argIndex - 1).toNat]? with
        | none => rfl
        | some value =>
          simp only [Option.bind_some]
          rw [← render_counted]
          cases (counted R).render r₂.2
              (formatValue value p.fmtSpec.flags (cstr p.fmtBuffer)).chars (-1) with
          | none => rfl
          | some r₃ => rfl

theorem doFormatLoop_counted : ∀ (bound round : Nat) (fmtSpec : FormatSpec)
    (format : List CharT) (count : Nat) (out : σ × Nat),
    (doFormatLoop (counted R) formatValue env args bound round fmtSpec format count out).map
        uncounted =
      doFormatLoop R formatValue env args bound round fmtSpec format count out.1 := by
  intro bound
  induction bound with
  | zero =>
    intro round fmtSpec format count out
    rfl
  | succ bound ih =>
    intro round fmtSpec format count out
    simp only [doFormatLoop]
    split
    · rfl
    · rename_i p _
      split
      · rfl
      · rw [← formatRound_counted]
        cases formatRound (counted R) formatValue args p out with
        | none => rfl
        | some r =>
          simp only [Option.map_some, uncounted]
          split
          · rfl
          · exact ih _ _ _ _ _

/-- **Counting changes nothing else.** -/
theorem doFormat_counted (format : List CharT) (out : σ) (calls : Nat) :
    (doFormat (counted R) formatValue env args format (out, calls)).map uncounted =
      doFormat R formatValue env args format out :=
  doFormatLoop_counted R formatValue env args _ _ _ _ _ _

end Counted

/-! ## Agreement with the string -/

/-- The string and the buffer after the same number of calls. -/
structure Agree (string : List CharT × Nat) (buffer : BufferRenderer × Nat) : Prop where
  calls : buffer.2 = string.2
  ready : Ready buffer.1 string.1
  held : 0 < string.2 → Fits buffer.1 string.1 ∧ 3 ≤ buffer.1.remainBufferSize

theorem agree_start (start : StartBuffer) : Agree ([], 0) (start.renderer, 0) := by
  refine ⟨rfl, ?_, fun h => absurd h (Nat.lt_irrefl 0)⟩
  cases start with
  | null => exact .inl ⟨rfl, rfl⟩
  | cleared size pos => exact .inr ⟨⟨by simp, (Nat.zero_add size).symm, rfl⟩, pos⟩

/-- The two renderers agree call by call. -/
theorem buffer_simulates : Simulates (counted stringRenderer) (counted bufferRenderer) Agree := by
  rintro ⟨text, calls⟩ ⟨b, calls'⟩ rsh rshLength ⟨hcalls, hready, _⟩ hrsh
  obtain ⟨b', hrender, hfits, hfree⟩ := render_fits hready rsh rshLength hrsh
  refine ⟨(rendered rsh rshLength).length, (text ++ rendered rsh rshLength, calls + 1),
    (b', calls' + 1), ?_, ?_, ?_⟩
  · simp [counted, stringRenderer_render]
  · simp [counted, hrender]
  · exact ⟨congrArg (· + 1) hcalls, .inr ⟨hfits, Nat.le_trans (by decide) hfree⟩,
      fun _ => ⟨hfits, hfree⟩⟩

/-- What the caller finds in the buffer. -/
structure Holds (buffer : BufferRenderer) (text : List CharT) : Prop where
  cells : ∃ free, 3 ≤ free ∧ buffer.textBuffer = some (text ++ List.replicate free 0) ∧
    buffer.bufferSize = (text ++ List.replicate free 0).length

theorem Fits.holds {buffer : BufferRenderer} {text : List CharT} (h : Fits buffer text)
    (hfree : 3 ≤ buffer.remainBufferSize) : Holds buffer text := by
  refine ⟨buffer.remainBufferSize, hfree, h.cells, ?_⟩
  rw [List.length_append, List.length_replicate]
  exact h.size

/-- **The buffer renderer agrees with the string renderer.**  For every format, every list of
    arguments and every buffer to start with, either a directive of the format writes behind the
    scratch buffer in both, or both return the same; when there was a render call, the buffer
    holds the text of the string followed by NULs, `bufferSize` is the size of the allocation, and
    at least three cells remain behind the text. -/
theorem buffer_agrees (formatValue : Arg → Flags → List CharT → CText)
    (env : Nat → EnvKind → ScratchText) (args : List Arg) (format : CText)
    (start : StartBuffer) :
    (doFormat stringRenderer formatValue env args format.chars [] = none ∧
        doFormat bufferRenderer formatValue env args format.chars start.renderer = none ∧
        Overflows env args format.chars) ∨
      ∃ (result : Option Nat) (string : List CharT) (buffer : BufferRenderer) (calls : Nat),
        doFormat stringRenderer formatValue env args format.chars [] = some (result, string) ∧
        doFormat bufferRenderer formatValue env args format.chars start.renderer =
          some (result, buffer) ∧
        doFormat (counted bufferRenderer) formatValue env args format.chars
          (start.renderer, 0) = some (result, buffer, calls) ∧
        (0 < calls → Holds buffer string) := by
  rw [← doFormat_counted stringRenderer formatValue env args format.chars [] 0,
    ← doFormat_counted bufferRenderer formatValue env args format.chars start.renderer 0]
  rcases doFormat_simulates buffer_simulates (agree_start start) format.nulFree with
    ⟨hstring, hbuffer, hover⟩ |
      ⟨result, ⟨string, calls⟩, ⟨buffer, calls'⟩, hstring, hbuffer, hcalls, _, hheld⟩
  · rw [hstring, hbuffer]
    exact .inl ⟨rfl, rfl, hover⟩
  · obtain rfl : calls' = calls := hcalls
    refine .inr ⟨result, string, buffer, calls', ?_, ?_, hbuffer, fun hpos => ?_⟩
    · rw [hstring]
      rfl
    · rw [hbuffer]
      rfl
    · obtain ⟨hfits, hfree⟩ := hheld hpos
      exact hfits.holds hfree

end IMonPlatform.Format
