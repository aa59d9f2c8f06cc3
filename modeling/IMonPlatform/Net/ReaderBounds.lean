import IMonPlatform.Net.CommonSocket

/-!
# Buffer bounds of the frame reader

The size in a header is chosen by the peer and `startReadBody` resizes the buffer to
`_PACKET_HEADER_SIZE + _PACKET_BODY_SIZE` in 32-bit unsigned arithmetic.  A size of `2^32 - 4` or
more wraps to a buffer of at most three cells, and a size of `0` leaves a buffer without the cell
number `4` whose address is taken.

* `HeaderIn` — the sizes announced by the headers of an arbitrary byte stream.
* `Bounded`, `run_bounded` — the reader invariant on a stream whose headers are in range.
* `body_read_in_bounds_iff` — every body read lies in the buffer exactly when every header of the
  stream announces between `1` and `2^32 - 5` bytes.
* `body_read_out_of_bounds` — both ways to leave the range, on concrete bytes.
-/

set_option autoImplicit false

namespace IMonPlatform

open Transition Framing CCommonSocket

variable {Slot : Type}

/-- A size announced by a header of the byte stream, reading frame after frame. -/
inductive HeaderIn : Bytes → Nat → Prop where
  | here {st : Bytes} : PACKET_HEADER_SIZE ≤ st.length → HeaderIn st (decodeHeader st)
  | later {st : Bytes} {size : Nat} : PACKET_HEADER_SIZE ≤ st.length →
      HeaderIn (st.drop (PACKET_HEADER_SIZE + decodeHeader st)) size → HeaderIn st size

/-- A body size for which the 32-bit buffer size does not wrap and the body is not empty. -/
def SizeOk (size : Nat) : Prop := 0 < size ∧ PACKET_HEADER_SIZE + size < 2 ^ 32

/-- The region of an issued body read lies in the buffer, and the subscript `4`, taken there and
    in `queuePacketFromDataBuffer`, names a cell. -/
structure InBounds (s : CCommonSocket Slot) : Prop where
  region : s.pending = .body → PACKET_HEADER_SIZE + s.packetBodySize ≤ s.readBuffer.length
  subscript : s.pending = .body → PACKET_HEADER_SIZE < s.readBuffer.length
  delivered : ∀ slot buffer, .message slot buffer ∈ s.calls → PACKET_HEADER_SIZE < buffer.length

/-- The reader on a stream whose headers are all in range; `future` has not arrived yet. -/
structure Bounded (future : Bytes) (s : CCommonSocket Slot) : Prop where
  live : s.pending ≠ .overrun
  header : s.pending = .header → s.readBuffer.length = PACKET_HEADER_SIZE ∧
    ∀ size, HeaderIn (s.inbox ++ future) size → SizeOk size
  body : s.pending = .body → SizeOk s.packetBodySize ∧
    s.readBuffer.length = PACKET_HEADER_SIZE + s.packetBodySize ∧
    ∀ size, HeaderIn ((s.inbox ++ future).drop s.packetBodySize) size → SizeOk size
  delivered : ∀ slot buffer, .message slot buffer ∈ s.calls → PACKET_HEADER_SIZE < buffer.length

theorem Bounded.inBounds {future : Bytes} {s : CCommonSocket Slot} (hb : Bounded future s) :
    InBounds s := by
  refine ⟨fun hp => ?_, fun hp => ?_, hb.delivered⟩
  · exact Nat.le_of_eq (hb.body hp).2.1.symm
  · have h := hb.body hp
    rw [h.2.1]
    exact Nat.lt_add_of_pos_right h.1.1

theorem decodeHeader_append {a b : Bytes} (h : PACKET_HEADER_SIZE ≤ a.length) :
    decodeHeader (a ++ b) = decodeHeader a := by
  rw [← decodeHeader_take a h, ← decodeHeader_take (a ++ b) (by simp; omega),
    List.take_append_of_le_length h]

/-- The buffer after the header bytes have been transferred. -/
theorem transfer_header {s : CCommonSocket Slot} (hlen : s.readBuffer.length = PACKET_HEADER_SIZE)
    (hn : PACKET_HEADER_SIZE ≤ s.inbox.length) :
    decodeHeader (s.transfer 0 PACKET_HEADER_SIZE).readBuffer = decodeHeader s.inbox := by
  have htake : (s.inbox.take PACKET_HEADER_SIZE).length = PACKET_HEADER_SIZE := by
    rw [List.length_take]; omega
  simp only [transfer]
  rw [Buffer.overwrite_tail (by rw [htake, hlen]; omega), List.take_zero, List.nil_append]
  exact decodeHeader_take _ hn

/-- A completed header read issues the body read of the decoded size. -/
theorem complete_header {s : CCommonSocket Slot} (hp : s.pending = .header)
    (hlen : s.readBuffer.length = PACKET_HEADER_SIZE) (hn : PACKET_HEADER_SIZE ≤ s.inbox.length) :
    ∃ t, s.complete = some t ∧ t.pending = .body ∧ t.packetBodySize = decodeHeader s.inbox ∧
      t.readBuffer.length = u32 (PACKET_HEADER_SIZE + decodeHeader s.inbox) ∧
      t.inbox = s.inbox.drop PACKET_HEADER_SIZE ∧ t.calls = s.calls ∧ t.hungUp = s.hungUp := by
  refine ⟨readHeader false (s.transfer 0 PACKET_HEADER_SIZE), ?_, rfl, transfer_header hlen hn,
    ?_, rfl, rfl, rfl⟩
  · simp [complete, outstanding, hp, hlen, hn]
  · rw [← transfer_header hlen hn]
    exact Buffer.length_resize _ _ _

/-- A completed body read delivers the buffer and asks for the next header. -/
theorem complete_body {s : CCommonSocket Slot} (hp : s.pending = .body)
    (hlen : s.readBuffer.length = PACKET_HEADER_SIZE + s.packetBodySize)
    (hn : s.packetBodySize ≤ s.inbox.length) :
    ∃ t, s.complete = some t ∧ t.pending = .header ∧ t.readBuffer.length = PACKET_HEADER_SIZE ∧
      t.inbox = s.inbox.drop s.packetBodySize ∧
      ∃ buffer, buffer.length = s.readBuffer.length ∧
        t.calls = s.calls ++ s.vecSltMessage.map (.message · buffer) := by
  refine ⟨readBody false (s.transfer PACKET_HEADER_SIZE s.packetBodySize), ?_, rfl,
    Buffer.length_resize _ _ _, rfl, (s.transfer PACKET_HEADER_SIZE s.packetBodySize).readBuffer,
    ?_, rfl⟩
  · simp [complete, outstanding, hp, hlen, hn]
  · refine Buffer.length_overwrite ?_
    rw [List.length_take, hlen]
    omega

/-- A read cut short by the end of the connection delivers nothing. -/
theorem complete_error {s t : CCommonSocket Slot} {off n : Nat}
    {handler : Bool → CCommonSocket Slot → CCommonSocket Slot}
    (ho : s.outstanding = some (off, n, handler)) (hin : off + n ≤ s.readBuffer.length)
    (hn : s.inbox.length < n) (h : s.complete = some t) :
    t.pending = .closed ∧ t.calls = s.calls ++ s.vecSltDisconnect.map .disconnect := by
  simp only [complete, ho, if_neg (Nat.not_lt.mpr hin), if_neg (Nat.not_le.mpr hn)] at h
  split at h
  · cases h
    unfold outstanding at ho
    split at ho <;> cases ho <;> exact ⟨rfl, rfl⟩
  · cases h

theorem started_bounded {msg disc : List Slot} {st : Bytes}
    (hok : ∀ size, HeaderIn st size → SizeOk size) : Bounded st (started msg disc) :=
  ⟨by simp [started, receivePacket, startReadHeader],
    fun _ => ⟨Buffer.length_resize _ _ _, hok⟩, fun h => (by cases h), fun _ _ h => (by cases h)⟩

/-- A closed reader keeps only what it had delivered. -/
theorem bounded_of_closed {future : Bytes} {s : CCommonSocket Slot} {t : CCommonSocket Slot}
    (hd : ∀ slot buffer, .message slot buffer ∈ s.calls → PACKET_HEADER_SIZE < buffer.length)
    (hp : t.pending = .closed) (hc : t.calls = s.calls ++ s.vecSltDisconnect.map .disconnect) :
    Bounded future t := by
  refine ⟨by simp [hp], fun h => by simp [hp] at h, fun h => by simp [hp] at h, ?_⟩
  intro slot buffer hm
  rw [hc, List.mem_append] at hm
  rcases hm with hm | hm
  · exact hd slot buffer hm
  · simp at hm

theorem complete_bounded {future : Bytes} {s t : CCommonSocket Slot} (hb : Bounded future s)
    (h : s.complete = some t) : Bounded future t := by
  cases hp : s.pending with
  | closed => simp [complete, outstanding, hp] at h
  | overrun => exact absurd hp hb.live
  | header =>
    obtain ⟨hlen, hok⟩ := hb.header hp
    by_cases hn : PACKET_HEADER_SIZE ≤ s.inbox.length
    · obtain ⟨t', ht', hp', hsize, hbuf, hinbox, hcalls, -⟩ := complete_header hp hlen hn
      obtain rfl : t' = t := by rw [h] at ht'; exact (Option.some.inj ht').symm
      have hlong : PACKET_HEADER_SIZE ≤ (s.inbox ++ future).length := by
        rw [List.length_append]; omega
      have hdec : decodeHeader (s.inbox ++ future) = decodeHeader s.inbox := decodeHeader_append hn
      have hthis := hok _ (.here hlong)
      rw [hdec] at hthis
      refine ⟨by simp [hp'], fun hc => by simp [hp'] at hc, fun _ => ⟨?_, ?_, ?_⟩, ?_⟩
      · rw [hsize]; exact hthis
      · rw [hbuf, hsize]; exact Nat.mod_eq_of_lt hthis.2
      · intro size hin
        refine hok size (.later hlong ?_)
        rw [hinbox, hsize, ← List.drop_append_of_le_length hn, List.drop_drop] at hin
        rwa [hdec]
      · rw [hcalls]; exact hb.delivered
    · obtain ⟨hp', hc⟩ := complete_error (by simp only [outstanding, hp]; rfl) (by omega)
        (by omega) h
      exact bounded_of_closed hb.delivered hp' hc
  | body =>
    obtain ⟨hsize, hlen, hok⟩ := hb.body hp
    by_cases hn : s.packetBodySize ≤ s.inbox.length
    · obtain ⟨t', ht', hp', hbuf, hinbox, buffer, hblen, hcalls⟩ := complete_body hp hlen hn
      obtain rfl : t' = t := by rw [h] at ht'; exact (Option.some.inj ht').symm
      refine ⟨by simp [hp'], fun _ => ⟨hbuf, ?_⟩, fun hc => by simp [hp'] at hc, ?_⟩
      · rw [hinbox, ← List.drop_append_of_le_length hn]; exact hok
      · intro slot buf hm
        rw [hcalls, List.mem_append] at hm
        rcases hm with hm | hm
        · exact hb.delivered slot buf hm
        · obtain ⟨_, _, heq⟩ := List.mem_map.mp hm
          cases heq
          rw [hblen, hlen]
          exact Nat.lt_add_of_pos_right hsize.1
    · obtain ⟨hp', hc⟩ := complete_error (by simp only [outstanding, hp]; rfl) (by omega)
        (by omega) h
      exact bounded_of_closed hb.delivered hp' hc

theorem step_bounded {future : Bytes} {s s' : CCommonSocket Slot} {e : NetEvent}
    (hb : Bounded (e.bytes ++ future) s) (h : s.step e = some s') : Bounded future s' := by
  cases e with
  | arrive chunk =>
    simp only [step] at h
    split at h <;> cases h
    obtain ⟨h1, h2, h3, h4⟩ := hb
    refine ⟨h1, fun hp => ?_, fun hp => ?_, h4⟩
    · simpa [NetEvent.bytes, List.append_assoc] using h2 hp
    · simpa [NetEvent.bytes, List.append_assoc] using h3 hp
  | hangup =>
    simp only [step] at h
    split at h <;> cases h
    exact ⟨hb.live, hb.header, hb.body, hb.delivered⟩
  | complete => exact complete_bounded hb h

theorem run_bounded {future : Bytes} :
    ∀ (evs : List NetEvent) (s t : CCommonSocket Slot), Bounded (arrivals evs ++ future) s →
      run step s evs = some t → Bounded future t
  | [], s, t, hb, h => by cases h; exact hb
  | e :: evs, s, t, hb, h => by
    obtain ⟨s', hs, ht⟩ := run_cons.mp h
    refine run_bounded evs s' t (step_bounded ?_ hs) ht
    simpa [arrivals, List.append_assoc] using hb

/-- A completed header read whose body read is in bounds has announced a size that fits. -/
theorem header_read_sizeOk {s : CCommonSocket Slot} (hp : s.pending = .header)
    (hlen : s.readBuffer.length = PACKET_HEADER_SIZE)
    (hn : PACKET_HEADER_SIZE ≤ s.inbox.length)
    (hall : ∀ k t, run step s (List.replicate k .complete) = some t → InBounds t) :
    ∃ t, s.complete = some t ∧ t.pending = .body ∧ t.packetBodySize = decodeHeader s.inbox ∧
      t.readBuffer.length = PACKET_HEADER_SIZE + decodeHeader s.inbox ∧
      t.inbox = s.inbox.drop PACKET_HEADER_SIZE ∧ SizeOk (decodeHeader s.inbox) := by
  obtain ⟨t, ht, hp', hsize, hbuf, hinbox, -, -⟩ := complete_header hp hlen hn
  have hb := hall 1 t (run_cons.mpr ⟨t, ht, rfl⟩)
  have hregion := hb.region hp'
  have hsub := hb.subscript hp'
  rw [hbuf, hsize] at hregion
  rw [hbuf] at hsub
  -- a wrapped size is smaller than the region it has to hold
  have hlt : PACKET_HEADER_SIZE + decodeHeader s.inbox < 2 ^ 32 := by
    have := Nat.mod_lt (PACKET_HEADER_SIZE + decodeHeader s.inbox) (show 0 < 2 ^ 32 by decide)
    exact Nat.lt_of_le_of_lt hregion this
  have hnowrap : u32 (PACKET_HEADER_SIZE + decodeHeader s.inbox) =
      PACKET_HEADER_SIZE + decodeHeader s.inbox := Nat.mod_eq_of_lt hlt
  rw [hnowrap] at hbuf hsub
  exact ⟨t, ht, hp', hsize, hbuf, hinbox, Nat.lt_add_right_iff_pos.mp hsub, hlt⟩

/-- From a state that reads a header, the reader meets every header of the waiting bytes; if the
    reads it issues are all in bounds, so is the announced size. -/
theorem sizeOk_of_inBounds {st : Bytes} {size : Nat} (hin : HeaderIn st size) :
    ∀ s : CCommonSocket Slot, s.pending = .header → s.readBuffer.length = PACKET_HEADER_SIZE →
      s.inbox = st →
      (∀ k t, run step s (List.replicate k .complete) = some t → InBounds t) → SizeOk size := by
  induction hin with
  | here hlong =>
    intro s hp hlen hst hall
    subst hst
    obtain ⟨_, _, _, _, _, _, hok⟩ := header_read_sizeOk hp hlen hlong hall
    exact hok
  | later hlong hrest ih =>
    rename_i st size
    intro s hp hlen hst hall
    subst hst
    obtain ⟨t, ht, hp', hsize, hbuf, hinbox, -⟩ := header_read_sizeOk hp hlen hlong hall
    have hn : t.packetBodySize ≤ t.inbox.length := by
      by_contra hshort
      have hnil : s.inbox.drop (PACKET_HEADER_SIZE + decodeHeader s.inbox) = [] := by
        rw [← List.drop_drop, ← hinbox, ← hsize]
        exact List.drop_eq_nil_of_le (by omega)
      rw [hnil] at hrest
      cases hrest <;> simp [PACKET_HEADER_SIZE] at *
    obtain ⟨t', ht', hp'', hlen'', hinbox'', -⟩ := complete_body hp' (by rw [hbuf, hsize]) hn
    refine ih t' hp'' hlen'' (by rw [hinbox'', hinbox, hsize, List.drop_drop]) ?_
    intro k u hu
    exact hall (k + 2) u (run_cons.mpr ⟨t, ht, run_cons.mpr ⟨t', ht', hu⟩⟩)

/-- **Exact bound condition.**  On a byte stream `st` (any bytes, in any chunks, cut anywhere)
    every body read the reader issues lies inside its buffer, with subscript `4` naming a cell,
    exactly when every header of the stream announces at least one byte and fewer than
    `2^32 - 4`. -/
theorem body_read_in_bounds_iff (msg disc : List Slot) (st : Bytes) :
    (∀ evs s, arrivals evs <+: st → run step (started msg disc) evs = some s → InBounds s) ↔
      ∀ size, HeaderIn st size → 0 < size ∧ PACKET_HEADER_SIZE + size < 2 ^ 32 := by
  constructor
  · intro hall size hin
    have harrive : (started msg disc).step (.arrive st) =
        some { started msg disc with inbox := st } := rfl
    refine sizeOk_of_inBounds hin { started msg disc with inbox := st } rfl
      (Buffer.length_resize _ _ _) rfl (fun k t ht => ?_)
    refine hall (.arrive st :: List.replicate k .complete) t ?_ (run_cons.mpr ⟨_, harrive, ht⟩)
    simp [arrivals, NetEvent.bytes, List.flatMap_replicate]
  · rintro hok evs s ⟨future, hst⟩ hrun
    have hb : Bounded (arrivals evs ++ future) (started msg disc) := by
      rw [hst]; exact started_bounded hok
    exact (run_bounded evs _ s hb hrun).inBounds

/-- A header of `2^32 - 4` makes the buffer size wrap to zero, and an empty body leaves no cell
    number `4`. -/
theorem body_read_out_of_bounds :
    (∃ s, run step (started [0] [0]) [.arrive [255, 255, 255, 252], .complete] = some s ∧
      s.pending = .body ∧ s.packetBodySize = 2 ^ 32 - 4 ∧ s.readBuffer = [] ∧ ¬ InBounds s) ∧
    (∃ s, run step (started [0] [0]) [.arrive [0, 0, 0, 0], .complete] = some s ∧
      s.pending = .body ∧ s.readBuffer.length = 4 ∧ ¬ InBounds s) := by
  refine ⟨⟨_, rfl, rfl, rfl, rfl, fun h => ?_⟩, ⟨_, rfl, rfl, rfl, fun h => ?_⟩⟩
  · exact absurd (h.region rfl) (by decide)
  · exact absurd (h.subscript rfl) (by decide)

end IMonPlatform
