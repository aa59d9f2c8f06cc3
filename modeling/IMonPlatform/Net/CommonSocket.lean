import Mathlib.Data.List.Induction
import IMonPlatform.Lib.Transition
import IMonPlatform.Net.Framing

/-!
# The frame reader of `CCommonSocket`

The reader is a two-phase callback machine: `startReadHeader` asks for the four header bytes,
`readHeader` decodes the body size and `startReadBody` asks for the body behind the header in the
same buffer, `readBody` hands the buffer to the message slots and starts over.  A failed read
runs the disconnect slots and issues no further read.

`async_read` is the part outside this repository: it completes with exactly the requested bytes,
or with an error when the connection ends before they have arrived.  Bytes wait in `inbox`
between their arrival and their transfer, so a run interleaves arrivals of chunks (`arrive`), the
end of the connection (`hangup`) and completions (`complete`) in any order.

* `Tracks` — the reader invariant on a stream of frames: what was consumed, what the buffer and
  the body size hold, and which calls were made.  `step_tracks`, `run_tracks`.
* `frame_stream_round_trip` — on every cut of every stream of frames, and on every truncation of
  it, the slots see exactly the complete frames, in order, and then the disconnect slots once.
-/

set_option autoImplicit false

namespace IMonPlatform

open Transition Framing

/-- The outstanding `async_read`.  `overrun`: the body read was aimed at cells outside the
    buffer, after which the program's memory is no longer described by this model. -/
inductive Pending where
  | header
  | body
  | closed
  | overrun
  deriving DecidableEq, Repr

/-- A call of a registered slot. -/
inductive Call (Slot : Type) where
  | message (slot : Slot) (buffer : Bytes)
  | disconnect (slot : Slot)
  deriving DecidableEq, Repr

/-- `CCommonSocket`, with the state of its connection and the history of slot calls. -/
structure CCommonSocket (Slot : Type) where
  readBuffer : Bytes
  packetBodySize : Nat
  vecSltMessage : List Slot
  vecSltDisconnect : List Slot
  pending : Pending
  inbox : Bytes
  hungUp : Bool
  calls : List (Call Slot)
  deriving DecidableEq, Repr

/-- What can happen on a connection. -/
inductive NetEvent where
  | arrive (chunk : Bytes)
  | hangup
  | complete
  deriving DecidableEq, Repr

namespace CCommonSocket

variable {Slot : Type}

def startReadHeader (s : CCommonSocket Slot) : CCommonSocket Slot :=
  { s with readBuffer := Buffer.resize s.readBuffer PACKET_HEADER_SIZE 0, pending := .header }

def receivePacket (s : CCommonSocket Slot) : CCommonSocket Slot := s.startReadHeader

def startReadBody (s : CCommonSocket Slot) : CCommonSocket Slot :=
  { s with
    readBuffer := Buffer.resize s.readBuffer (u32 (PACKET_HEADER_SIZE + s.packetBodySize)) 0
    pending := .body }

/-- The loop over `_vecSltDisconnect`, the same in `readHeader` and `readBody`. -/
def fireDisconnect (s : CCommonSocket Slot) : CCommonSocket Slot :=
  { s with calls := s.calls ++ s.vecSltDisconnect.map .disconnect, pending := .closed }

def readHeader (err : Bool) (s : CCommonSocket Slot) : CCommonSocket Slot :=
  if err then s.fireDisconnect
  else startReadBody { s with packetBodySize := decodeHeader s.readBuffer }

def readBody (err : Bool) (s : CCommonSocket Slot) : CCommonSocket Slot :=
  if err then s.fireDisconnect
  else receivePacket { s with
    calls := s.calls ++ s.vecSltMessage.map (.message · s.readBuffer), packetBodySize := 0 }

/-- Offset, size and handler of the outstanding read. -/
def outstanding (s : CCommonSocket Slot) :
    Option (Nat × Nat × (Bool → CCommonSocket Slot → CCommonSocket Slot)) :=
  match s.pending with
  | .header => some (0, s.readBuffer.length, readHeader)
  | .body => some (PACKET_HEADER_SIZE, s.packetBodySize, readBody)
  | .closed | .overrun => none

/-- Move `n` waiting bytes into the buffer at `off`. -/
def transfer (s : CCommonSocket Slot) (off n : Nat) : CCommonSocket Slot :=
  { s with
    readBuffer := Buffer.overwrite s.readBuffer off (s.inbox.take n)
    inbox := s.inbox.drop n }

/-- Completion of the outstanding `async_read`. -/
def complete (s : CCommonSocket Slot) : Option (CCommonSocket Slot) :=
  match s.outstanding with
  | none => none
  | some (off, n, handler) =>
    if s.readBuffer.length < off + n then some { s with pending := .overrun }
    else if n ≤ s.inbox.length then some (handler false (s.transfer off n))
    else if s.hungUp then some (handler true (s.transfer off n))
    else none

def step (s : CCommonSocket Slot) : NetEvent → Option (CCommonSocket Slot)
  | .arrive chunk => if s.hungUp then none else some { s with inbox := s.inbox ++ chunk }
  | .hangup => if s.hungUp then none else some { s with hungUp := true }
  | .complete => s.complete

/-- A connected socket with its slots registered, after `receivePacket`. -/
def started (msg disc : List Slot) : CCommonSocket Slot :=
  receivePacket ⟨[], 0, msg, disc, .closed, [], false, []⟩

end CCommonSocket

open CCommonSocket

variable {Slot : Type}

/-- The bytes that an event brings in. -/
def NetEvent.bytes : NetEvent → Bytes
  | .arrive chunk => chunk
  | _ => []

/-- All bytes that arrive during a run. -/
def CCommonSocket.arrivals (evs : List NetEvent) : Bytes := evs.flatMap NetEvent.bytes

/-- The calls that delivering the frames of `bodies` makes. -/
def messageCalls (msg : List Slot) (bodies : List Bytes) : List (Call Slot) :=
  bodies.flatMap (fun b => msg.map (.message · (frame b)))

def disconnectCalls (disc : List Slot) : List (Call Slot) := disc.map .disconnect

/-- No completion is possible until more bytes arrive or the connection ends. -/
def Quiescent (s : CCommonSocket Slot) : Prop := s.complete = none

/-! ## Arrivals -/

@[simp] theorem arrivals_snoc (evs : List NetEvent) (e : NetEvent) :
    arrivals (evs ++ [e]) = arrivals evs ++ e.bytes := by
  simp [arrivals]

theorem messageCalls_snoc (msg : List Slot) (bodies : List Bytes) (b : Bytes) :
    messageCalls msg (bodies ++ [b]) =
      messageCalls msg bodies ++ msg.map (.message · (frame b)) := by
  simp [messageCalls]

/-- A prefix that reaches past `a` contains `a`. -/
theorem take_eq_of_prefix {w a rest : Bytes} (h : w <+: a ++ rest) (hl : a.length ≤ w.length) :
    w.take a.length = a := by
  obtain ⟨t, ht⟩ := h
  have := congrArg (List.take a.length) ht
  rwa [List.take_append_of_le_length hl, List.take_left] at this

/-! ## The reader invariant on a stream of frames -/

/-- The reader has consumed a prefix of the frames of `bodies` out of the arrived bytes `w`. -/
inductive Tracks (msg disc : List Slot) (bodies : List Bytes) (w : Bytes)
    (s : CCommonSocket Slot) : Prop where
  | header (done rest : List Bytes) (hb : bodies = done ++ rest) (hp : s.pending = .header)
      (hw : w = stream done ++ s.inbox) (hlen : s.readBuffer.length = PACKET_HEADER_SIZE)
      (hc : s.calls = messageCalls msg done)
  | body (done rest : List Bytes) (b : Bytes) (hb : bodies = done ++ b :: rest)
      (hp : s.pending = .body) (hw : w = stream done ++ (Framing.header b.length ++ s.inbox))
      (hsize : s.packetBodySize = b.length)
      (hbuf : s.readBuffer.take PACKET_HEADER_SIZE = Framing.header b.length)
      (hlen : s.readBuffer.length = PACKET_HEADER_SIZE + b.length)
      (hc : s.calls = messageCalls msg done)
  | closed (hp : s.pending = .closed) (hh : s.hungUp = true)
      (hc : s.calls = messageCalls msg (completeBodies w.length bodies) ++ disconnectCalls disc)

/-- The slot lists the invariant speaks about are the socket's own. -/
structure Registered (msg disc : List Slot) (s : CCommonSocket Slot) : Prop where
  msg : s.vecSltMessage = msg
  disc : s.vecSltDisconnect = disc

theorem started_tracks (msg disc : List Slot) (bodies : List Bytes) :
    Tracks msg disc bodies [] (started msg disc) :=
  .header [] bodies rfl rfl rfl (Buffer.length_resize _ _ _) rfl

theorem step_registered {msg disc : List Slot} {s s' : CCommonSocket Slot} {e : NetEvent}
    (hr : Registered msg disc s) (h : s.step e = some s') : Registered msg disc s' := by
  obtain ⟨h1, h2⟩ := hr
  cases e with
  | arrive chunk => simp only [step] at h; split at h <;> cases h; exact ⟨h1, h2⟩
  | hangup => simp only [step] at h; split at h <;> cases h; exact ⟨h1, h2⟩
  | complete =>
    simp only [step, complete, outstanding] at h
    split at h
    · cases h
    rename_i off n handler ho
    have hkeep : ∀ err t, Registered msg disc t → Registered msg disc (handler err t) := by
      intro err t ht
      split at ho <;> cases ho <;> cases err <;> exact ⟨ht.msg, ht.disc⟩
    split at h
    · cases h; exact ⟨h1, h2⟩
    split at h
    · cases h; exact hkeep _ _ ⟨h1, h2⟩
    split at h
    · cases h; exact hkeep _ _ ⟨h1, h2⟩
    · cases h

/-- A stream cut inside the next header leaves exactly the frames before it. -/
theorem completeBodies_cut_header {done rest : List Bytes} {w tail : Bytes}
    (hw : w = stream done ++ tail) (hcut : tail.length < PACKET_HEADER_SIZE) :
    completeBodies w.length (done ++ rest) = done := by
  refine completeBodies_eq (by simp [hw]) (fun b bs _ => ?_)
  rw [hw, List.length_append, length_frame]
  omega

/-- A stream cut inside the next body leaves exactly the frames before it. -/
theorem completeBodies_cut_body {done rest : List Bytes} {w b tail : Bytes}
    (hw : w = stream done ++ (Framing.header b.length ++ tail)) (hcut : tail.length < b.length) :
    completeBodies w.length (done ++ b :: rest) = done := by
  refine completeBodies_eq (by simp [hw]) (fun b' bs hbs => ?_)
  cases hbs
  rw [hw, List.length_append, List.length_append, length_header, length_frame]
  omega

/-- Completion of a header read: the next frame's size is decoded and its body requested. -/
theorem readHeader_tracks {msg disc : List Slot} {bodies done rest : List Bytes} {w : Bytes}
    {s : CCommonSocket Slot} (hsmall : ∀ b ∈ bodies, b.length < 2 ^ 31)
    (hb : bodies = done ++ rest) (hw : w = stream done ++ s.inbox) (hpre : w <+: stream bodies)
    (hlen : s.readBuffer.length = PACKET_HEADER_SIZE) (hc : s.calls = messageCalls msg done)
    (hn : PACKET_HEADER_SIZE ≤ s.inbox.length) :
    Tracks msg disc bodies w (readHeader false (s.transfer 0 PACKET_HEADER_SIZE)) := by
  have hinbox : s.inbox <+: stream rest := by
    rwa [hw, hb, stream_append, List.prefix_append_right_inj] at hpre
  -- the stream does not end here, so there is a next frame
  obtain ⟨b, rest', rfl⟩ : ∃ b rest', rest = b :: rest' := by
    cases rest with
    | nil =>
      rw [stream_nil, List.prefix_nil] at hinbox
      simp [hinbox, PACKET_HEADER_SIZE] at hn
    | cons b rest' => exact ⟨b, rest', rfl⟩
  have hhead : s.inbox.take PACKET_HEADER_SIZE = Framing.header b.length := by
    have hsplit : s.inbox <+: Framing.header b.length ++ (b ++ stream rest') := by
      simpa [frame] using hinbox
    have := take_eq_of_prefix hsplit (by simpa using hn)
    rwa [length_header] at this
  have hbsmall : b.length < 2 ^ 31 := hsmall b (by simp [hb])
  have hbuf : (s.transfer 0 PACKET_HEADER_SIZE).readBuffer = Framing.header b.length := by
    simp only [transfer, hhead]
    rw [Buffer.overwrite_tail (by rw [length_header, hlen]; omega)]
    simp
  have hsize : decodeHeader (s.transfer 0 PACKET_HEADER_SIZE).readBuffer = b.length := by
    rw [hbuf]
    exact decodeHeader_header (by omega)
  have hnowrap : u32 (PACKET_HEADER_SIZE + b.length) = PACKET_HEADER_SIZE + b.length :=
    Nat.mod_eq_of_lt (by simp only [PACKET_HEADER_SIZE]; omega)
  refine .body done rest' b hb rfl ?_ ?_ ?_ ?_ hc
  · show w = stream done ++ (Framing.header b.length ++ s.inbox.drop PACKET_HEADER_SIZE)
    rw [← hhead, List.take_append_drop]
    exact hw
  · exact hsize
  · show (Buffer.resize _ (u32 (PACKET_HEADER_SIZE + decodeHeader _)) 0).take _ = _
    rw [hsize, hbuf, hnowrap, ← length_header b.length]
    exact Buffer.take_resize (by omega)
  · show (Buffer.resize _ (u32 (PACKET_HEADER_SIZE + decodeHeader _)) 0).length = _
    rw [hsize, Buffer.length_resize, hnowrap]

/-- Completion of a body read: the frame is delivered and the next header requested. -/
theorem readBody_tracks {msg disc : List Slot} {bodies done rest : List Bytes} {w b : Bytes}
    {s : CCommonSocket Slot} (hmsg : s.vecSltMessage = msg) (hb : bodies = done ++ b :: rest)
    (hw : w = stream done ++ (Framing.header b.length ++ s.inbox)) (hpre : w <+: stream bodies)
    (hbuf : s.readBuffer.take PACKET_HEADER_SIZE = Framing.header b.length)
    (hlen : s.readBuffer.length = PACKET_HEADER_SIZE + b.length)
    (hc : s.calls = messageCalls msg done) (hn : b.length ≤ s.inbox.length) :
    Tracks msg disc bodies w (readBody false (s.transfer PACKET_HEADER_SIZE b.length)) := by
  have hinbox : s.inbox <+: b ++ stream rest := by
    rwa [hw, hb, stream_append, stream_cons, frame, List.append_assoc,
      List.prefix_append_right_inj, List.prefix_append_right_inj] at hpre
  have hbody : s.inbox.take b.length = b := take_eq_of_prefix hinbox hn
  have hframe : (s.transfer PACKET_HEADER_SIZE b.length).readBuffer = frame b := by
    simp only [transfer, hbody]
    rw [Buffer.overwrite_tail hlen.symm, hbuf, frame]
  refine .header (done ++ [b]) rest (by simp [hb]) rfl ?_ (Buffer.length_resize _ _ _) ?_
  · show w = stream (done ++ [b]) ++ s.inbox.drop b.length
    rw [hw, stream_append]
    conv_lhs => rw [← List.take_append_drop b.length s.inbox, hbody]
    simp [frame]
  · show s.calls ++ s.vecSltMessage.map
      (.message · (s.transfer PACKET_HEADER_SIZE b.length).readBuffer) = _
    rw [hframe, hc, hmsg, messageCalls_snoc]

theorem arrive_tracks {msg disc : List Slot} {bodies : List Bytes} {w : Bytes}
    {s : CCommonSocket Slot} (chunk : Bytes) (hopen : ¬ s.hungUp = true)
    (ht : Tracks msg disc bodies w s) :
    Tracks msg disc bodies (w ++ chunk) { s with inbox := s.inbox ++ chunk } := by
  cases ht with
  | header done rest hb hp hw hlen hc => exact .header done rest hb hp (by simp [hw]) hlen hc
  | body done rest b hb hp hw hsize hbuf hlen hc =>
    exact .body done rest b hb hp (by simp [hw]) hsize hbuf hlen hc
  | closed hp hh hc => exact absurd hh hopen

theorem hangup_tracks {msg disc : List Slot} {bodies : List Bytes} {w : Bytes}
    {s : CCommonSocket Slot} (ht : Tracks msg disc bodies w s) :
    Tracks msg disc bodies w { s with hungUp := true } := by
  cases ht with
  | header done rest hb hp hw hlen hc => exact .header done rest hb hp hw hlen hc
  | body done rest b hb hp hw hsize hbuf hlen hc =>
    exact .body done rest b hb hp hw hsize hbuf hlen hc
  | closed hp hh hc => exact .closed hp rfl hc

/-- A completed read delivers the frame it completes; a failed one ends the reader. -/
theorem complete_tracks {msg disc : List Slot} {bodies : List Bytes} {w : Bytes}
    {s s' : CCommonSocket Slot} (hsmall : ∀ b ∈ bodies, b.length < 2 ^ 31)
    (hr : Registered msg disc s) (ht : Tracks msg disc bodies w s) (hpre : w <+: stream bodies)
    (h : s.complete = some s') : Tracks msg disc bodies w s' := by
  cases ht with
  | header done rest hb hp hw hlen hc =>
    simp only [complete, outstanding, hp, hlen, Nat.zero_add, Nat.lt_irrefl, if_false] at h
    split at h
    · rename_i hn
      cases h
      exact readHeader_tracks hsmall hb hw hpre hlen hc hn
    · rename_i hn
      split at h
      · rename_i hh
        cases h
        refine .closed rfl hh ?_
        show s.calls ++ s.vecSltDisconnect.map .disconnect = _
        rw [hb, completeBodies_cut_header hw (by omega), hc, hr.disc, disconnectCalls]
      · cases h
  | body done rest b hb hp hw hsize hbuf hlen hc =>
    simp only [complete, outstanding, hp, hlen, hsize, Nat.lt_irrefl, if_false] at h
    split at h
    · rename_i hn
      cases h
      exact readBody_tracks hr.msg hb hw hpre hbuf hlen hc hn
    · rename_i hn
      split at h
      · rename_i hh
        cases h
        refine .closed rfl hh ?_
        show s.calls ++ s.vecSltDisconnect.map .disconnect = _
        rw [hb, completeBodies_cut_body hw (by omega), hc, hr.disc, disconnectCalls]
      · cases h
  | closed hp hh hc => simp [complete, outstanding, hp] at h

/-- **One step keeps the invariant**, as long as the arrived bytes are a prefix of the stream. -/
theorem step_tracks {msg disc : List Slot} {bodies : List Bytes} {w : Bytes}
    {s s' : CCommonSocket Slot} {e : NetEvent} (hsmall : ∀ b ∈ bodies, b.length < 2 ^ 31)
    (hr : Registered msg disc s) (ht : Tracks msg disc bodies w s)
    (hpre : w ++ e.bytes <+: stream bodies) (h : s.step e = some s') :
    Tracks msg disc bodies (w ++ e.bytes) s' := by
  cases e with
  | arrive chunk =>
    simp only [step] at h
    split at h
    · cases h
    · rename_i hopen
      cases h
      exact arrive_tracks chunk hopen ht
  | hangup =>
    simp only [step] at h
    split at h
    · cases h
    · cases h
      simp only [NetEvent.bytes, List.append_nil]
      exact hangup_tracks ht
  | complete =>
    simp only [NetEvent.bytes, List.append_nil] at hpre ⊢
    exact complete_tracks hsmall hr ht hpre h

/-- **The invariant holds along every run** whose arrivals are a prefix of the stream. -/
theorem run_tracks {msg disc : List Slot} {bodies : List Bytes}
    (hsmall : ∀ b ∈ bodies, b.length < 2 ^ 31) (evs : List NetEvent) :
    ∀ s, run step (started msg disc) evs = some s → arrivals evs <+: stream bodies →
      Registered msg disc s ∧ Tracks msg disc bodies (arrivals evs) s := by
  induction evs using List.reverseRecOn with
  | nil =>
    intro s h _
    cases h
    exact ⟨⟨rfl, rfl⟩, started_tracks msg disc bodies⟩
  | append_singleton evs e ih =>
    intro s h hpre
    rw [arrivals_snoc] at hpre ⊢
    obtain ⟨m, hm, hs⟩ := run_snoc.mp h
    obtain ⟨hr, ht⟩ := ih m hm ((List.prefix_append _ _).trans hpre)
    exact ⟨step_registered hr hs, step_tracks hsmall hr ht hpre hs⟩

/-! ## Progress: every byte that has arrived is eventually used -/

/-- The buffer has the header's size while a header is read. -/
def HeaderSized (s : CCommonSocket Slot) : Prop :=
  s.pending = .header → s.readBuffer.length = PACKET_HEADER_SIZE

/-- Bytes still to transfer, and the phase: a body read of size zero consumes nothing. -/
def readerMeasure (s : CCommonSocket Slot) : Nat :=
  2 * s.inbox.length + match s.pending with
    | .header => 1
    | .body => 2
    | .closed | .overrun => 0

/-- What a completion does: the phase it starts in and what it consumes. -/
theorem complete_cases {s s' : CCommonSocket Slot} (h : s.complete = some s') :
    s'.pending = .overrun ∧ s'.inbox = s.inbox ∧ (s.pending = .header ∨ s.pending = .body) ∨
    s'.pending = .closed ∧ s'.inbox.length ≤ s.inbox.length ∧
      (s.pending = .header ∨ s.pending = .body) ∨
    s.pending = .header ∧ s'.pending = .body ∧ s.readBuffer.length ≤ s.inbox.length ∧
      s'.inbox.length = s.inbox.length - s.readBuffer.length ∨
    s.pending = .body ∧ s'.pending = .header ∧ s'.inbox.length ≤ s.inbox.length ∧
      s'.readBuffer.length = PACKET_HEADER_SIZE := by
  unfold complete outstanding at h
  split at h
  · cases h
  rename_i off n handler ho
  split at ho
  · rename_i hp
    cases ho
    split at h
    · cases h; exact .inl ⟨rfl, rfl, .inl hp⟩
    split at h
    · rename_i hn
      cases h
      exact .inr (.inr (.inl ⟨hp, rfl, hn, List.length_drop⟩))
    split at h
    · cases h
      refine .inr (.inl ⟨rfl, ?_, .inl hp⟩)
      show (s.inbox.drop _).length ≤ _
      rw [List.length_drop]; omega
    · cases h
  · rename_i hp
    cases ho
    split at h
    · cases h; exact .inl ⟨rfl, rfl, .inr hp⟩
    split at h
    · cases h
      refine .inr (.inr (.inr ⟨hp, rfl, ?_, Buffer.length_resize _ _ _⟩))
      show (s.inbox.drop _).length ≤ _
      rw [List.length_drop]; omega
    split at h
    · cases h
      refine .inr (.inl ⟨rfl, ?_, .inr hp⟩)
      show (s.inbox.drop _).length ≤ _
      rw [List.length_drop]; omega
    · cases h
  · cases ho
  · cases ho

theorem complete_headerSized {s s' : CCommonSocket Slot} (h : s.step .complete = some s') :
    HeaderSized s' := by
  intro hp
  rcases complete_cases h with ⟨h1, _⟩ | ⟨h1, _⟩ | ⟨_, h1, _⟩ | ⟨_, _, _, h1⟩
  · rw [hp] at h1; cases h1
  · rw [hp] at h1; cases h1
  · rw [hp] at h1; cases h1
  · exact h1

theorem complete_decreases {s s' : CCommonSocket Slot} (hi : HeaderSized s)
    (h : s.step .complete = some s') : readerMeasure s' < readerMeasure s := by
  unfold readerMeasure
  rcases complete_cases h with ⟨h1, h2, h3⟩ | ⟨h1, h2, h3⟩ | ⟨h1, h2, h3, h4⟩ | ⟨h1, h2, h3, _⟩
  · rcases h3 with h3 | h3 <;> simp [h1, h2, h3]
  · rcases h3 with h3 | h3 <;> simp only [h1, h3] <;> omega
  · have := hi h1
    simp only [h1, h2, PACKET_HEADER_SIZE] at this ⊢
    omega
  · simp only [h1, h2]
    omega

/-- **The reader settles**: finitely many completions lead to a state that waits for the peer. -/
theorem reader_settles (s : CCommonSocket Slot) (hi : HeaderSized s) :
    ∃ n t, run step s (List.replicate n .complete) = some t ∧ Quiescent t :=
  exists_replicate_stuck readerMeasure (fun _ _ _ h => complete_headerSized h)
    (fun _ _ hi h => complete_decreases hi h) (readerMeasure s) s hi (Nat.le_refl _)

/-! ## The round trip -/

theorem Tracks.headerSized {msg disc : List Slot} {bodies : List Bytes} {w : Bytes}
    {s : CCommonSocket Slot} (ht : Tracks msg disc bodies w s) : HeaderSized s := by
  intro hp
  cases ht with
  | header _ _ _ _ _ hlen _ => exact hlen
  | body _ _ _ _ hp' _ _ _ _ _ => rw [hp] at hp'; cases hp'
  | closed hp' _ _ => rw [hp] at hp'; cases hp'

/-- Whatever was delivered so far are whole frames from the front of the list. -/
theorem Tracks.whole_frames {msg disc : List Slot} {bodies : List Bytes} {w : Bytes}
    {s : CCommonSocket Slot} (ht : Tracks msg disc bodies w s) :
    ∃ done, done <+: bodies ∧ (stream done).length ≤ w.length ∧
      s.calls =
        messageCalls msg done ++ if s.pending = .closed then disconnectCalls disc else [] := by
  cases ht with
  | header done rest hb hp hw _ hc =>
    exact ⟨done, ⟨rest, hb.symm⟩, by simp [hw], by simp [hc, hp]⟩
  | body done rest b hb hp hw _ _ _ hc =>
    exact ⟨done, ⟨b :: rest, hb.symm⟩, by simp [hw], by simp [hc, hp]⟩
  | closed hp _ hc =>
    refine ⟨completeBodies w.length bodies, completeBodies_prefix _ _, ?_, by simp [hc, hp]⟩
    exact completeBodies_length_le _ _

/-- A waiting reader has delivered every frame that has arrived completely. -/
theorem Tracks.quiescent {msg disc : List Slot} {bodies : List Bytes} {w : Bytes}
    {s : CCommonSocket Slot} (ht : Tracks msg disc bodies w s) (hq : Quiescent s) :
    s.calls = messageCalls msg (completeBodies w.length bodies) ++
      if s.hungUp then disconnectCalls disc else [] := by
  cases ht with
  | header done rest hb hp hw hlen hc =>
    simp only [Quiescent, complete, outstanding, hp, hlen, Nat.zero_add, Nat.lt_irrefl,
      if_false] at hq
    split at hq
    · cases hq
    rename_i hn
    split at hq
    · cases hq
    rename_i hh
    rw [hb, completeBodies_cut_header hw (by omega), hc]
    simp [hh]
  | body done rest b hb hp hw hsize hbuf hlen hc =>
    simp only [Quiescent, complete, outstanding, hp, hlen, hsize, Nat.lt_irrefl, if_false] at hq
    split at hq
    · cases hq
    rename_i hn
    split at hq
    · cases hq
    rename_i hh
    rw [hb, completeBodies_cut_body hw (by omega), hc]
    simp [hh]
  | closed hp hh hc => simp [hc, hh]

/-- The buffers handed to one message slot. -/
def buffersTo [DecidableEq Slot] (slot : Slot) (calls : List (Call Slot)) : List Bytes :=
  calls.filterMap fun
    | .message slot' buffer => if slot' = slot then some buffer else none
    | .disconnect _ => none

/-- What the slots have seen of the frames of `bodies`: every message slot every frame, in
    order, and every disconnect slot one call if the connection ended. -/
structure Delivered [DecidableEq Slot] (msg disc : List Slot) (bodies : List Bytes)
    (s : CCommonSocket Slot) : Prop where
  calls : s.calls = messageCalls msg bodies ++ if s.hungUp then disconnectCalls disc else []
  messages : ∀ slot, msg.count slot = 1 → buffersTo slot s.calls = bodies.map frame
  disconnects : ∀ slot, s.calls.count (.disconnect slot) = if s.hungUp then disc.count slot else 0

section Slots

variable [DecidableEq Slot]

theorem buffersTo_append (slot : Slot) (as bs : List (Call Slot)) :
    buffersTo slot (as ++ bs) = buffersTo slot as ++ buffersTo slot bs := by
  simp [buffersTo]

theorem buffersTo_disconnectCalls (slot : Slot) (disc : List Slot) :
    buffersTo slot (disconnectCalls disc) = [] := by
  simp [buffersTo, disconnectCalls, List.filterMap_map]

theorem buffersTo_one_frame (slot : Slot) (msg : List Slot) (buffer : Bytes) :
    buffersTo slot (msg.map (.message · buffer)) = List.replicate (msg.count slot) buffer := by
  induction msg with
  | nil => rfl
  | cons m msg ih =>
    simp only [buffersTo, List.map_cons, List.filterMap_cons] at ih ⊢
    by_cases hm : m = slot
    · simp [hm, ih, List.replicate_succ]
    · simp [hm, ih]

theorem buffersTo_messageCalls (slot : Slot) (msg : List Slot) (h : msg.count slot = 1)
    (bodies : List Bytes) : buffersTo slot (messageCalls msg bodies) = bodies.map frame := by
  induction bodies with
  | nil => rfl
  | cons b bs ih =>
    rw [messageCalls, List.flatMap_cons, ← messageCalls, buffersTo_append, buffersTo_one_frame, h,
      ih]
    rfl

theorem count_disconnect_messageCalls (slot : Slot) (msg : List Slot) (bodies : List Bytes) :
    (messageCalls msg bodies).count (.disconnect slot) = 0 := by
  rw [List.count_eq_zero]
  simp [messageCalls]

theorem count_disconnect_disconnectCalls (slot : Slot) (disc : List Slot) :
    (disconnectCalls disc).count (.disconnect slot) = disc.count slot := by
  unfold disconnectCalls
  induction disc with
  | nil => rfl
  | cons d disc ih =>
    by_cases hd : d = slot
    · simp [hd, ih]
    · rw [List.map_cons, List.count_cons_of_ne (by simpa using hd), List.count_cons_of_ne hd, ih]

theorem delivered_of_calls {msg disc : List Slot} {bodies : List Bytes} {s : CCommonSocket Slot}
    (hc : s.calls = messageCalls msg bodies ++ if s.hungUp then disconnectCalls disc else []) :
    Delivered msg disc bodies s := by
  refine ⟨hc, fun slot hslot => ?_, fun slot => ?_⟩
  · rw [hc, buffersTo_append, buffersTo_messageCalls slot msg hslot]
    split
    · rw [buffersTo_disconnectCalls, List.append_nil]
    · simp [buffersTo]
  · rw [hc, List.count_append, count_disconnect_messageCalls, Nat.zero_add]
    split
    · exact count_disconnect_disconnectCalls slot disc
    · rfl

/-- **Frame stream round trip.**  `evs` is any interleaving of arriving chunks, completions and
    the end of the connection; the arrived bytes are the stream of `bodies` cut at an arbitrary
    position, `rest` being what never arrived.  At every moment the slots have seen whole frames
    only; finitely many completions bring the reader to rest; at rest it has delivered exactly
    the frames that arrived completely, and all of them if nothing was cut off. -/
theorem frame_stream_round_trip (msg disc : List Slot) (bodies : List Bytes)
    (hsmall : ∀ b ∈ bodies, b.length < 2 ^ 31) (evs : List NetEvent) (rest : Bytes)
    (s : CCommonSocket Slot) (hrun : run step (started msg disc) evs = some s)
    (hcut : arrivals evs ++ rest = stream bodies) :
    (∃ done, done <+: bodies ∧ (stream done).length ≤ (arrivals evs).length ∧
      s.calls = messageCalls msg done ++ if s.pending = .closed then disconnectCalls disc else []) ∧
    (∃ n t, run step s (List.replicate n .complete) = some t ∧ Quiescent t) ∧
    (Quiescent s → Delivered msg disc (completeBodies (arrivals evs).length bodies) s) ∧
    (rest = [] → completeBodies (arrivals evs).length bodies = bodies) ∧
    (∀ b ∈ bodies, parseRegion (frame b) = b) := by
  obtain ⟨-, ht⟩ := run_tracks hsmall evs s hrun ⟨rest, hcut⟩
  refine ⟨ht.whole_frames, reader_settles s ht.headerSized,
    fun hq => delivered_of_calls (ht.quiescent hq), fun hr => ?_,
    fun b hb => parseRegion_frame (hsmall b hb)⟩
  rw [hr, List.append_nil] at hcut
  rw [hcut]
  exact completeBodies_all bodies

end Slots

/-- Two frames, one of them empty, cut inside the first header and inside the first body; the
    connection ends after the last byte. -/
def twoFrames : List NetEvent :=
  [.arrive [0, 0], .arrive [0, 2, 7], .complete, .arrive [8, 0, 0, 0, 0], .complete, .complete,
    .complete, .hangup, .complete]

theorem frame_stream_round_trip_twoFrames :
    ∃ s : CCommonSocket Nat, run step (started [1, 2] [3]) twoFrames = some s ∧
      Quiescent s ∧ Delivered [1, 2] [3] [[7, 8], []] s := by
  obtain ⟨s, hrun, hq⟩ : ∃ s : CCommonSocket Nat,
      run step (started [1, 2] [3]) twoFrames = some s ∧ Quiescent s := ⟨_, rfl, rfl⟩
  have h := frame_stream_round_trip [1, 2] [3] [[7, 8], []] (by decide) twoFrames [] s hrun rfl
  have hall := h.2.2.2.1 rfl
  exact ⟨s, hrun, hq, hall ▸ h.2.2.1 hq⟩

end IMonPlatform
