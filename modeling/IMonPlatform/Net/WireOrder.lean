import IMonPlatform.Lib.TaggedLog
import IMonPlatform.Net.BusySender

/-!
# What is on the wire of a socket

With the SERVER_BUSY feature off and no write error, one sender serves one queue, so every socket
receives the frames of its packets in the order in which `sendPacket` pushed them.

* `step_calls` — every `sendPacket` call pushes at most once, and returns the message id of what
  it pushed.
* `Wire`, `step_wire` — the invariant: the packets pushed are those written, the one in the
  sender's hand and those waiting, in this order, and the bytes of a socket are the frames of its
  written packets and the written part of the frame in hand.
* `wire_order` — both, over whole runs.
-/

set_option autoImplicit false

namespace IMonPlatform

open Framing CGPBManagerV2 Transition TaggedLog

variable {Packet ReqCode ResCode : Type} {cfg : Config Packet ReqCode ResCode}
  {m m' : CGPBManagerV2 Packet}

/-! ## Calls of `sendPacket` -/

/-- What a call has pushed at a pc. -/
def PushedAt (cfg : Config Packet ReqCode ResCode) :
    CallPc Packet → List (Sock × Packet) → Prop
  | .ret p, l => ∃ s, l = [(s, p)]
  | .done r, l => l = [] ∧ r = -1 ∨ ∃ s p, l = [(s, p)] ∧ cfg.traits.msgid p = r
  | _, l => l = []

def CallsOk (cfg : Config Packet ReqCode ResCode) (m : CGPBManagerV2 Packet) : Prop :=
  ∀ c, PushedAt cfg (m.calls c) (entriesOf m.log.enqueued c)

/-- One call moves on and pushes `l`. -/
theorem CallsOk.update (h : CallsOk cfg m) {c : Nat} {pc : CallPc Packet}
    {l : List (Sock × Packet)} (hcalls : m'.calls = Function.update m.calls c pc)
    (hlog : m'.log.enqueued = m.log.enqueued ++ l.map (Prod.mk c))
    (hpc : PushedAt cfg pc (entriesOf m.log.enqueued c ++ l)) : CallsOk cfg m' := by
  intro k
  rw [hcalls, hlog, entriesOf_append]
  by_cases hk : k = c
  · subst hk
    rw [Function.update_self, entriesOf_map_self]
    exact hpc
  · rw [Function.update_of_ne hk, entriesOf_map_ne (Ne.symm hk), List.append_nil]
    exact h k

theorem CallsOk.congr (h : CallsOk cfg m) (hcalls : m'.calls = m.calls)
    (hlog : m'.log.enqueued = m.log.enqueued) : CallsOk cfg m' := by
  intro k
  rw [hcalls, hlog]
  exact h k

theorem sendStep_calls {c : Nat} {a : SendAct Packet} (hc : CallsOk cfg m)
    (h : sendStep cfg m c a = some m') : CallsOk cfg m' := by
  cases a with
  | start target packet auto =>
    obtain ⟨nm, pc, hidle, _, rfl, hpc⟩ := sendStart_cases h
    have hnone : entriesOf m.log.enqueued c = [] := by simpa [PushedAt, hidle] using hc c
    refine hc.update (l := []) rfl (by simp) ?_
    rcases hpc with rfl | ⟨s, rfl⟩
    · exact .inl ⟨by simp [hnone], rfl⟩
    · simpa [PushedAt] using hnone
  | assign =>
    obtain ⟨s, p, auto, id, p', hpc, rfl⟩ := sendAssign_cases h
    have hnone : entriesOf m.log.enqueued c = [] := by simpa [PushedAt, hpc] using hc c
    exact hc.update (l := []) rfl (by simp) (by simpa [PushedAt] using hnone)
  | push =>
    obtain ⟨s, p, hpc, rfl⟩ := sendPush_cases h
    have hnone : entriesOf m.log.enqueued c = [] := by simpa [PushedAt, hpc] using hc c
    exact hc.update (l := [(s, p)]) rfl rfl ⟨s, by simp [hnone]⟩
  | ret =>
    obtain ⟨p, hpc, rfl⟩ := sendReturn_cases h
    obtain ⟨s, hs⟩ : ∃ s, entriesOf m.log.enqueued c = [(s, p)] := by
      simpa [PushedAt, hpc] using hc c
    exact hc.update (l := []) rfl (by simp) (.inr ⟨s, p, by simpa using hs, rfl⟩)

/-- The slot's answer is sent by a call of its own. -/
theorem dispatchStep_calls [DecidableEq ReqCode] [DecidableEq ResCode] {d : Nat}
    {a : DispatchAct Packet} (hc : CallsOk cfg m) (h : dispatchStep cfg m d a = some m') :
    CallsOk cfg m' := by
  cases a with
  | pop =>
    obtain ⟨x, rest, _, _, rfl⟩ := dispatchPop_cases h
    exact hc.congr rfl rfl
  | message result call =>
    obtain ⟨n, x, _, ⟨_, ⟨hidle, rfl⟩ | rfl⟩ | ⟨_, ⟨_, rfl⟩ | ⟨_, rfl⟩⟩⟩ :=
      dispatchMessage_cases h
    · have hnone : entriesOf m.log.enqueued call = [] := by simpa [PushedAt, hidle] using hc call
      exact hc.update (l := []) rfl (by simp) (by simpa [PushedAt] using hnone)
    · exact hc.congr rfl rfl
    · exact hc.congr rfl rfl
    · exact hc.congr rfl rfl
  | ret =>
    obtain ⟨c, _, rfl⟩ := dispatchReturn_cases h
    exact hc.congr rfl rfl
  | store time =>
    obtain ⟨n, i, x, _, rfl⟩ := dispatchStore_cases h
    exact hc.congr rfl rfl

/-- **Calls**: every step keeps the relation between a call's pc and what it has pushed. -/
theorem step_calls [DecidableEq ReqCode] [DecidableEq ResCode] {e : Event Packet}
    (hc : CallsOk cfg m) (h : step cfg m e = some m') : CallsOk cfg m' := by
  cases e with
  | send c a => exact sendStep_calls hc h
  | sender a => exact hc.congr (senderStep_frame h).calls (senderStep_frame h).enqueued
  | recv n a => exact hc.congr (recvStep_frame h).calls (recvStep_frame h).enqueued
  | dispatch d a => exact dispatchStep_calls hc h
  | receivePacket i id =>
    cases h
    rcases receivePacket_cases m i id with heq | ⟨f, v, _, _, heq⟩ <;> rw [heq] <;>
      exact hc.congr rfl rfl
  | disconnect i =>
    cases h
    rcases disconnect_cases m i with heq | ⟨nm, _, heq⟩ <;> rw [heq] <;> exact hc.congr rfl rfl
  | setIsUseServerBusyWaiting b =>
    cases h
    exact hc.congr rfl rfl

/-! ## Bytes on the wire -/

/-- The concatenated frames of packets. -/
def framesOf (cfg : Config Packet ReqCode ResCode) (ps : List Packet) : Bytes :=
  stream (ps.map cfg.traits.SerializeToArray)

def frameOf (cfg : Config Packet ReqCode ResCode) (p : Packet) : Bytes :=
  frame (cfg.traits.SerializeToArray p)

theorem framesOf_append (ps qs : List Packet) :
    framesOf cfg (ps ++ qs) = framesOf cfg ps ++ framesOf cfg qs := by
  simp [framesOf, stream_append]

theorem framesOf_singleton (p : Packet) : framesOf cfg [p] = frameOf cfg p := by
  simp [framesOf, frameOf]

/-- The written part of the frame in the sender's hand, on the wire of `s`. -/
def unfinished (cfg : Config Packet ReqCode ResCode) (s : Sock) : SenderPc Packet → Bytes
  | .write e n => if e.1 = s then (frameOf cfg e.2).take n else []
  | _ => []

/-- What the sender's buffer holds at a pc. -/
def BufferAt (cfg : Config Packet ReqCode ResCode) (buffer : Bytes) : SenderPc Packet → Prop
  | .loop | .pop => True
  | .popped e | .index e | .record e _ => buffer = frameOf cfg e.2
  | .write e n => buffer = frameOf cfg e.2 ∧ n < buffer.length

/-- The invariant with the feature off. -/
structure Wire (cfg : Config Packet ReqCode ResCode) (m : CGPBManagerV2 Packet) : Prop where
  off : m.isUseWaitingWhenServerBusy = false
  handlers : ∀ n s p i, m.handlers n ≠ .store s p i ∧ m.handlers n ≠ .locked s p i
  fifo : m.log.enqueued.map Prod.snd = m.log.written ++ m.inHand ++ m.outgoingQueue
  buffer : BufferAt cfg m.writeBuffer m.sender
  wire : ∀ s, m.wire s = framesOf cfg (entriesOf m.log.written s) ++ unfinished cfg s m.sender

theorem create_wire (nm : CNetworkCommunicator) (announced : SockIndex → Bool) :
    Wire cfg (create nm announced false : CGPBManagerV2 Packet) :=
  ⟨rfl, fun _ _ _ _ => ⟨nofun, nofun⟩, rfl, trivial, fun _ => rfl⟩

/-- A step that the wire does not see. -/
theorem Wire.congr (hw : Wire cfg m)
    (huse : m'.isUseWaitingWhenServerBusy = m.isUseWaitingWhenServerBusy)
    (hh : m'.handlers = m.handlers) (hlog : m'.log.enqueued = m.log.enqueued)
    (hwritten : m'.log.written = m.log.written) (hpc : m'.sender = m.sender)
    (hq : m'.outgoingQueue = m.outgoingQueue) (hbuf : m'.writeBuffer = m.writeBuffer)
    (hwire : m'.wire = m.wire) : Wire cfg m' := by
  refine ⟨huse.trans hw.off, ?_, ?_, ?_, ?_⟩
  · rw [hh]
    exact hw.handlers
  · unfold inHand
    rw [hlog, hwritten, hpc, hq]
    exact hw.fifo
  · rw [hbuf, hpc]
    exact hw.buffer
  · rw [hwire, hwritten, hpc]
    exact hw.wire

theorem sendStep_wire {c : Nat} {a : SendAct Packet} (hw : Wire cfg m)
    (h : sendStep cfg m c a = some m') : Wire cfg m' := by
  cases a with
  | start target packet auto =>
    obtain ⟨nm, pc, _, _, rfl, _⟩ := sendStart_cases h
    exact hw.congr rfl rfl rfl rfl rfl rfl rfl rfl
  | assign =>
    obtain ⟨s, p, auto, id, p', _, rfl⟩ := sendAssign_cases h
    exact hw.congr rfl rfl rfl rfl rfl rfl rfl rfl
  | push =>
    obtain ⟨s, p, _, rfl⟩ := sendPush_cases h
    refine ⟨hw.off, hw.handlers, ?_, hw.buffer, hw.wire⟩
    have hfifo := hw.fifo
    simp only [inHand] at hfifo ⊢
    simp [hfifo]
  | ret =>
    obtain ⟨p, _, rfl⟩ := sendReturn_cases h
    exact hw.congr rfl rfl rfl rfl rfl rfl rfl rfl

/-- A move of the sender that keeps the packet in hand and writes nothing. -/
theorem Wire.setSender {pc : SenderPc Packet} (hw : Wire cfg m)
    (hhand : ({ m with sender := pc } : CGPBManagerV2 Packet).inHand = m.inHand)
    (hbuf : BufferAt cfg m.writeBuffer pc)
    (hun : ∀ s, unfinished cfg s pc = unfinished cfg s m.sender) :
    Wire cfg { m with sender := pc } := by
  refine ⟨hw.off, hw.handlers, ?_, hbuf, fun s => ?_⟩
  · rw [hhand]
    exact hw.fifo
  · simp only [hun]
    exact hw.wire s

theorem frameOf_pos (p : Packet) : 0 < (frameOf cfg p).length := by
  unfold frameOf
  rw [length_frame]
  exact Nat.add_pos_left (by decide) _

/-- Some bytes of the frame in hand are written to its socket. -/
theorem senderWrite_wire {k : Nat} (hw : Wire cfg m) (h : senderWrite m k = some m') :
    Wire cfg m' := by
  obtain ⟨e, n, hpc, hk, hle, hcases⟩ := senderWrite_cases h
  obtain ⟨hbuf, hn⟩ : m.writeBuffer = frameOf cfg e.2 ∧ n < m.writeBuffer.length := by
    simpa [BufferAt, hpc] using hw.buffer
  have hfifo := hw.fifo
  simp only [inHand, hpc] at hfifo
  -- the bytes of the other sockets do not change
  have hother : ∀ s, s ≠ e.1 → m.wire s = framesOf cfg (entriesOf m.log.written s) := by
    intro s hs
    simpa [unfinished, hpc, Ne.symm hs] using hw.wire s
  have hown : m.wire e.1 ++ (m.writeBuffer.drop n).take k =
      framesOf cfg (entriesOf m.log.written e.1) ++ (frameOf cfg e.2).take (n + k) := by
    rw [hw.wire e.1, hbuf, hpc]
    simp [unfinished, List.take_add]
  rcases hcases with ⟨hend, rfl⟩ | ⟨hlt, rfl⟩
  · refine ⟨hw.off, hw.handlers, by simpa [inHand] using hfifo, trivial, fun s => ?_⟩
    simp only [unfinished, entriesOf_append, framesOf_append, List.append_nil]
    by_cases hs : s = e.1
    · subst hs
      rw [Function.update_self, hown, ← hbuf, hend, List.take_length, hbuf]
      simp [entriesOf, framesOf_singleton]
    · rw [Function.update_of_ne hs, hother s hs]
      simp [entriesOf, Ne.symm hs, framesOf]
  · refine ⟨hw.off, hw.handlers, by simpa [inHand] using hfifo, ⟨hbuf, hlt⟩, fun s => ?_⟩
    by_cases hs : s = e.1
    · subst hs
      simp only [Function.update_self, hown, unfinished, if_true]
    · simp [Function.update_of_ne hs, hother s hs, unfinished, Ne.symm hs]

theorem senderStep_wire {a : SenderAct} (hw : Wire cfg m) (herr : a ≠ .writeError)
    (h : senderStep cfg m a = some m') : Wire cfg m' := by
  cases a with
  | test =>
    obtain ⟨hpc, ⟨_, _, rfl⟩ | ⟨_, rfl⟩⟩ := senderTest_cases h
    · exact hw
    · exact hw.setSender (by simp [inHand, hpc]) trivial (by simp [unfinished, hpc])
  | pop =>
    obtain ⟨e, rest, hpc, hq, rfl⟩ := senderPop_cases h
    refine ⟨hw.off, hw.handlers, ?_, writeFrame_eq _ (cfg.traits.byteSize_lt e.2), fun s => ?_⟩
    · have hfifo := hw.fifo
      simp only [inHand, hpc, hq] at hfifo ⊢
      simpa using hfifo
    · simpa [unfinished, hpc] using hw.wire s
  | check =>
    obtain ⟨e, hpc, ⟨hon, _, rfl⟩ | ⟨hon, _, rfl⟩ | ⟨_, rfl⟩⟩ := senderCheck_cases h
    · rw [hw.off] at hon
      cases hon
    · rw [hw.off] at hon
      cases hon
    · have hbuf : m.writeBuffer = frameOf cfg e.2 := by simpa [BufferAt, hpc] using hw.buffer
      exact hw.setSender (by simp [inHand, hpc]) ⟨hbuf, hbuf ▸ frameOf_pos e.2⟩
        (by simp [unfinished, hpc])
  | index =>
    obtain ⟨e, hpc, hcases⟩ := senderIndex_cases h
    have hbuf : m.writeBuffer = frameOf cfg e.2 := by simpa [BufferAt, hpc] using hw.buffer
    rcases hcases with ⟨_, rfl⟩ | ⟨_, rfl⟩
    · exact hw.setSender (by simp [inHand, hpc]) hbuf (by simp [unfinished, hpc])
    · exact hw.setSender (by simp [inHand, hpc]) ⟨hbuf, hbuf ▸ frameOf_pos e.2⟩
        (by simp [unfinished, hpc])
  | record =>
    obtain ⟨e, i, hpc, hcases⟩ := senderRecord_cases h
    have hbuf : m.writeBuffer = frameOf cfg e.2 := by simpa [BufferAt, hpc] using hw.buffer
    have hnext : Wire cfg { m with sender := .write e 0 } :=
      hw.setSender (by simp [inHand, hpc]) ⟨hbuf, hbuf ▸ frameOf_pos e.2⟩
        (by simp [unfinished, hpc])
    rcases hcases with ⟨f, _, rfl⟩ | ⟨_, rfl⟩
    · exact ⟨hnext.off, hnext.handlers, hnext.fifo, hnext.buffer, hnext.wire⟩
    · exact hnext
  | write k => exact senderWrite_wire hw h
  | writeError => exact absurd rfl herr

/-- With the feature off a received packet goes straight to `_incomingQueue`. -/
theorem recvStep_wire [DecidableEq ResCode] {n : Nat} {a : RecvAct} (hw : Wire cfg m)
    (h : recvStep cfg m n a = some m') : Wire cfg m' := by
  have hset : ∀ pc : HandlerPc Packet, (∀ s p i, pc ≠ .store s p i ∧ pc ≠ .locked s p i) →
      ∀ k s p i, Function.update m.handlers n pc k ≠ .store s p i ∧
        Function.update m.handlers n pc k ≠ .locked s p i := by
    intro pc hpc k s p i
    by_cases hk : k = n
    · subst hk
      rw [Function.update_self]
      exact hpc s p i
    · rw [Function.update_of_ne hk]
      exact hw.handlers k s p i
  cases a with
  | start s buffer =>
    obtain ⟨_, ⟨_, rfl⟩ | ⟨p, _, ⟨hon, _, rfl⟩ | ⟨hon, _, rfl⟩ | ⟨_, rfl⟩⟩⟩ := recvStart_cases h
    · exact ⟨hw.off, hset _ (by simp), hw.fifo, hw.buffer, hw.wire⟩
    · rw [hw.off] at hon
      cases hon
    · rw [hw.off] at hon
      cases hon
    · exact ⟨hw.off, hset _ (by simp), hw.fifo, hw.buffer, hw.wire⟩
  | store =>
    obtain ⟨s, p, i, hst, _⟩ := recvStore_cases h
    exact absurd hst (hw.handlers n s p i).1
  | locked =>
    obtain ⟨s, p, i, hl, _⟩ := recvLocked_cases h
    exact absurd hl (hw.handlers n s p i).2

/-- The packets pushed for `s`, in order. -/
def enqueuedFor (m : CGPBManagerV2 Packet) (s : Sock) : List Packet :=
  entriesOf (m.log.enqueued.map Prod.snd) s

/-- The bytes of `s` are the frames of the first packets pushed for it, cut at a frame boundary or
    inside the frame of the next packet, which the sender is writing. -/
def CutAtFrame (cfg : Config Packet ReqCode ResCode) (m : CGPBManagerV2 Packet) (s : Sock) :
    Prop :=
  ∃ sent rest, enqueuedFor m s = sent ++ rest ∧
    (m.wire s = framesOf cfg sent ∨
      ∃ p rest' n, rest = p :: rest' ∧ m.sender = .write (s, p) n ∧
        n < (frameOf cfg p).length ∧ m.wire s = framesOf cfg sent ++ (frameOf cfg p).take n)

theorem Wire.cutAtFrame (hw : Wire cfg m) (s : Sock) : CutAtFrame cfg m s := by
  have hfor : enqueuedFor m s = entriesOf m.log.written s ++
      (entriesOf m.inHand s ++ entriesOf m.outgoingQueue s) := by
    unfold enqueuedFor
    rw [hw.fifo]
    simp
  refine ⟨entriesOf m.log.written s, _, hfor, ?_⟩
  have hwire := hw.wire s
  cases hpc : m.sender with
  | write e n =>
    obtain ⟨hbuf, hn⟩ : m.writeBuffer = frameOf cfg e.2 ∧ n < m.writeBuffer.length := by
      simpa [BufferAt, hpc] using hw.buffer
    rw [hpc] at hwire
    by_cases hs : e.1 = s
    · subst hs
      right
      refine ⟨e.2, entriesOf m.outgoingQueue e.1, n, ?_, rfl, hbuf ▸ hn, ?_⟩
      · simp [inHand, hpc, entriesOf]
      · simpa [unfinished] using hwire
    · left
      simpa [unfinished, hs] using hwire
  | _ =>
    left
    rw [hpc] at hwire
    simpa [unfinished] using hwire

/-! ## Whole runs -/

section Runs

variable [DecidableEq ReqCode] [DecidableEq ResCode]

/-- The feature is not switched on and no write fails. -/
def FeatureOff : Event Packet → Prop
  | .sender a => a ≠ .writeError
  | .setIsUseServerBusyWaiting b => b = false
  | _ => True

theorem step_wire {e : Event Packet} (hw : Wire cfg m) (he : FeatureOff e)
    (h : step cfg m e = some m') : Wire cfg m' := by
  cases e with
  | send c a => exact sendStep_wire hw h
  | sender a => exact senderStep_wire hw he h
  | recv n a => exact recvStep_wire hw h
  | dispatch d a =>
    have hf := dispatchStep_frame h
    exact hw.congr hf.use hf.handlers hf.enqueued hf.written hf.sender hf.outgoing hf.buffer
      hf.wire
  | receivePacket i id =>
    cases h
    rcases receivePacket_cases m i id with heq | ⟨f, v, _, _, heq⟩ <;> rw [heq] <;>
      exact hw.congr rfl rfl rfl rfl rfl rfl rfl rfl
  | disconnect i =>
    cases h
    rcases disconnect_cases m i with heq | ⟨nm, _, heq⟩ <;> rw [heq] <;>
      exact hw.congr rfl rfl rfl rfl rfl rfl rfl rfl
  | setIsUseServerBusyWaiting b =>
    cases h
    exact ⟨he, hw.handlers, hw.fifo, hw.buffer, hw.wire⟩

/-- **Per-socket wire order.**  With the feature off and no write error, along every interleaving:
    the bytes of every socket are a prefix of the frames of the packets pushed for it, in the order
    of the pushes, cut at a frame boundary or inside the one frame being written; and every call
    that has returned a message id other than a refusal has pushed exactly one packet, with that
    id. -/
theorem wire_order (cfg : Config Packet ReqCode ResCode) (nm : CNetworkCommunicator)
    (announced : SockIndex → Bool) (es : List (Event Packet)) (m : CGPBManagerV2 Packet)
    (hoff : ∀ e ∈ es, FeatureOff e)
    (hrun : run (step cfg) (create nm announced false) es = some m) :
    (∀ s, m.wire s <+: framesOf cfg (enqueuedFor m s) ∧ CutAtFrame cfg m s) ∧
      ∀ c r, m.calls c = .done r →
        entriesOf m.log.enqueued c = [] ∧ r = -1 ∨
          ∃ s p, entriesOf m.log.enqueued c = [(s, p)] ∧ cfg.traits.msgid p = r := by
  have hw : Wire cfg m := run_preserves (C := fun _ e => FeatureOff e)
    (fun _ _ _ hi hc hs => step_wire hi hc hs) es _ m (create_wire nm announced)
    (meets_of_forall es _ (fun e he _ => hoff e he)) hrun
  have hstart : CallsOk cfg (create nm announced false : CGPBManagerV2 Packet) := fun _ => rfl
  have hc : CallsOk cfg m := run_invariant (fun _ _ _ hi hs => step_calls hi hs) hstart hrun
  refine ⟨fun s => ⟨?_, hw.cutAtFrame s⟩, fun c r hr => ?_⟩
  · obtain ⟨sent, rest, hfor, hwire | ⟨p, rest', n, rfl, _, _, hwire⟩⟩ := hw.cutAtFrame s
    · rw [hwire, hfor, framesOf_append]
      exact List.prefix_append _ _
    · have hp : framesOf cfg (p :: rest') = frameOf cfg p ++ framesOf cfg rest' := by
        rw [← framesOf_singleton, ← framesOf_append, List.singleton_append]
      rw [hwire, hfor, framesOf_append, hp, List.prefix_append_right_inj]
      exact (List.take_prefix n _).trans (List.prefix_append _ _)
  · have := hc c
    rwa [hr] at this

end Runs

namespace SamplePacket

/-- Two packets for different sockets; the second one is being written. -/
def twoSends : List (Event SamplePacket) :=
  sendCall 0 1 ⟨0, 3, 0⟩ ++ sendCall 1 2 ⟨0, 4, 0⟩ ++
    [.sender .test, .sender .pop, .sender .check, .sender (.write 7),
      .sender .test, .sender .pop, .sender .check, .sender (.write 5)]

end SamplePacket

open SamplePacket in
theorem wire_order_two_sockets :
    ∃ m, run (step config) (manager false) twoSends = some m ∧
      m.wire 0 = [0, 0, 0, 3, 1, 3, 0] ∧ m.wire 1 = [0, 0, 0, 3, 2] ∧
      (∀ s, m.wire s <+: framesOf config (enqueuedFor m s) ∧ CutAtFrame config m s) ∧
      (∀ c r, m.calls c = .done r →
        entriesOf m.log.enqueued c = [] ∧ r = -1 ∨
          ∃ s p, entriesOf m.log.enqueued c = [(s, p)] ∧ config.traits.msgid p = r) := by
  obtain ⟨m, hrun, h0, h1⟩ : ∃ m, run (step config) (manager false) twoSends = some m ∧
      m.wire 0 = [0, 0, 0, 3, 1, 3, 0] ∧ m.wire 1 = [0, 0, 0, 3, 2] := ⟨_, rfl, rfl, rfl⟩
  have hoff : ∀ e ∈ twoSends, FeatureOff e := by
    simp [twoSends, sendCall, FeatureOff]
  exact ⟨m, hrun, h0, h1, wire_order config registry (fun i => i == 1 || i == 2) twoSends m
    hoff hrun⟩

end IMonPlatform
