import IMonPlatform.Net.DuplexDelivery

/-!
# A connection can always be emptied

While the connection is up, the sender of one side, the network and the reader of the other bring
everything accepted so far to its queue.  No other thread has to help, and none of them can be in
the way.

* `SlotCalls`, `step_slotCalls` — a slot call returns in its first step, so the reader is never kept
  from its next read.
* `sender_moves`, `reader_moves` — while something is under way, one of the parties has a step that
  brings it closer.
* `duplex_drains` — the steps put together.
-/

set_option autoImplicit false

namespace IMonPlatform

open Framing CGPBManagerV2 Transition TaggedLog CCommonSocket

variable {Packet ReqCode ResCode : Type} {L : DuplexConfig Packet ReqCode ResCode}
  {st st' : Duplex Packet}

/-! ## Calls of the message slot -/

/-- Only finitely many slot calls have been made, and the last one has returned. -/
structure SlotCalls (p : Endpoint Packet) : Prop where
  fresh : ∃ N, ∀ n, N ≤ n → p.manager.handlers n = .idle
  returned : ∀ n, p.call = some n → (p.manager.handlers n).returned = true

/-- With the feature off a slot call returns in its first step. -/
theorem recvStart_returns [DecidableEq ResCode] {cfg : Config Packet ReqCode ResCode}
    {m m' : CGPBManagerV2 Packet} {n : Nat} {s : Sock} {buffer : Bytes} (hw : Wire cfg m)
    (h : recvStart cfg m n s buffer = some m') :
    m.handlers n = .idle ∧
      ∃ pc, pc.returned = true ∧ m'.handlers = Function.update m.handlers n pc := by
  obtain ⟨hidle, ⟨_, rfl⟩ | ⟨p, _, ⟨hon, _, _⟩ | ⟨hon, _, _⟩ | ⟨_, rfl⟩⟩⟩ := recvStart_cases h
  · exact ⟨hidle, _, rfl, rfl⟩
  · rw [hw.off] at hon
    cases hon
  · rw [hw.off] at hon
    cases hon
  · exact ⟨hidle, _, rfl, rfl⟩

/-- An idle call can be made. -/
theorem recvStart_enabled [DecidableEq ResCode] (cfg : Config Packet ReqCode ResCode)
    {m : CGPBManagerV2 Packet} {n : Nat} (hidle : m.handlers n = .idle) (s : Sock)
    (buffer : Bytes) : ∃ m', recvStart cfg m n s buffer = some m' := by
  simp only [recvStart, hidle]
  split
  · exact ⟨_, rfl⟩
  · split
    · split <;> exact ⟨_, rfl⟩
    · exact ⟨_, rfl⟩

/-- One call is made and returns; the reader's last call is that one or the one before. -/
theorem SlotCalls.update {p p' : Endpoint Packet} {n : Nat} {pc : HandlerPc Packet}
    (hp : SlotCalls p) (hidle : p.manager.handlers n = .idle) (hpc : pc.returned = true)
    (hh : p'.manager.handlers = Function.update p.manager.handlers n pc)
    (hcall : p'.call = p.call ∨ p'.call = some n) : SlotCalls p' := by
  obtain ⟨N, hN⟩ := hp.fresh
  have hself : (p'.manager.handlers n).returned = true := by
    rw [hh, Function.update_self]
    exact hpc
  refine ⟨⟨max N (n + 1), fun k hk => ?_⟩, fun k hk => ?_⟩
  · rw [hh, Function.update_of_ne (by omega)]
    exact hN k (by omega)
  · rcases hcall with hc | hc
    · by_cases hkn : k = n
      · subst hkn
        exact hself
      · rw [hh, Function.update_of_ne hkn]
        exact hp.returned k (hc ▸ hk)
    · obtain rfl : n = k := Option.some.inj (hc.symm.trans hk)
      exact hself

theorem SlotCalls.congr {p p' : Endpoint Packet} (hp : SlotCalls p)
    (hh : p'.manager.handlers = p.manager.handlers) (hcall : p'.call = p.call) : SlotCalls p' :=
  ⟨by rw [hh]; exact hp.fresh, by rw [hh, hcall]; exact hp.returned⟩

theorem slotCalls_update {p : Endpoint Packet} {side : Side} (hs : ∀ s, SlotCalls (st s))
    (hp : SlotCalls p) (s : Side) : SlotCalls (Function.update st side p s) := by
  by_cases hside : s = side
  · subst hside
    rw [Function.update_self]
    exact hp
  · rw [Function.update_of_ne hside]
    exact hs s

theorem step_slotCalls [DecidableEq ReqCode] [DecidableEq ResCode] {e : DuplexEvent Packet}
    (hf : ∀ s, Flow L st s) (hs : ∀ s, SlotCalls (st s)) (h : Duplex.step L st e = some st')
    (side : Side) : SlotCalls (st' side) := by
  cases e with
  | manager s e =>
    obtain ⟨m, _, hm, rfl⟩ := manager_step h
    refine slotCalls_update hs ?_ side
    by_cases hrecv : ∃ n a, e = .recv n a
    · obtain ⟨n, a, rfl⟩ := hrecv
      cases a with
      | start r buffer =>
        obtain ⟨hidle, pc, hpc, hh⟩ := recvStart_returns (hf s).wire hm
        exact (hs s).update hidle hpc hh (.inl rfl)
      | store =>
        obtain ⟨r, p, i, hst, _⟩ := recvStore_cases hm
        exact absurd hst ((hf s).wire.handlers n r p i).1
      | locked =>
        obtain ⟨r, p, i, hl, _⟩ := recvLocked_cases hm
        exact absurd hl ((hf s).wire.handlers n r p i).2
    · exact (hs s).congr (step_handlers hm fun n a he => hrecv ⟨n, a, he⟩) rfl
  | arrive s k =>
    obtain ⟨r, _, _, rfl⟩ := arrive_step h
    refine slotCalls_update hs ?_ side
    exact (hs s).congr rfl rfl
  | hangup s =>
    obtain ⟨r, _, rfl⟩ := hangup_step h
    refine slotCalls_update hs ?_ side
    exact (hs s).congr rfl rfl
  | complete s =>
    obtain ⟨r, _, _, rfl⟩ := complete_step h
    refine slotCalls_update hs ?_ side
    exact (hs s).congr rfl rfl
  | queue s n =>
    obtain ⟨buffer, m, _, hm, rfl⟩ := queue_step h
    obtain ⟨hidle, pc, hpc, hh⟩ := recvStart_returns (hf s).wire hm
    exact slotCalls_update hs ((hs s).update hidle hpc hh (.inr rfl)) side

/-! ## The sender -/

/-- Steps that the sender has before it. -/
def senderMeasure (m : CGPBManagerV2 Packet) : Nat :=
  6 * m.outgoingQueue.length + match m.sender with
    | .loop => 1
    | .pop => 0
    | .popped _ => 5
    | .index _ => 4
    | .record _ _ => 3
    | .write _ _ => 2

/-- Nothing is waiting for the sender or in its hand. -/
def SenderDone (m : CGPBManagerV2 Packet) : Prop := m.outgoingQueue = [] ∧ m.inHand = []

/-- **A sender with work has a step that takes it on**, whatever the other threads do. -/
theorem sender_moves {cfg : Config Packet ReqCode ResCode} {m : CGPBManagerV2 Packet}
    (hw : Wire cfg m) (hwork : ¬ SenderDone m) :
    ∃ a m', a ≠ SenderAct.writeError ∧ senderStep cfg m a = some m' ∧
      senderMeasure m' < senderMeasure m := by
  have hoff := hw.off
  cases hpc : m.sender with
  | loop =>
    refine ⟨.test, { m with sender := .pop }, by simp, ?_, ?_⟩
    · simp [senderStep, senderTest, hpc, hoff]
    · simp [senderMeasure, hpc]
  | pop =>
    cases hq : m.outgoingQueue with
    | nil => exact absurd ⟨hq, by simp [inHand, hpc]⟩ hwork
    | cons e rest =>
      obtain ⟨m', h⟩ : ∃ m', senderPop cfg m = some m' := by
        simp [senderPop, hpc, hq]
      refine ⟨.pop, m', by simp, h, ?_⟩
      obtain ⟨e', rest', _, hq', rfl⟩ := senderPop_cases h
      simp only [senderMeasure, hpc, hq', List.length_cons]
      omega
  | popped e =>
    refine ⟨.check, { m with sender := .write e 0 }, by simp, ?_, ?_⟩
    · simp [senderStep, senderCheck, hpc, hoff]
    · simp [senderMeasure, hpc]
  | index e =>
    by_cases hi : 0 < m.networkManager.getSocketIndex e.1
    · refine ⟨.index, { m with sender := .record e (m.networkManager.getSocketIndex e.1) },
        by simp, ?_, ?_⟩
      · simp [senderStep, senderIndex, hpc, hi]
      · simp [senderMeasure, hpc]
    · refine ⟨.index, { m with sender := .write e 0 }, by simp, ?_, ?_⟩
      · simp [senderStep, senderIndex, hpc, hi]
      · simp [senderMeasure, hpc]
  | record e i =>
    cases hs : m.mapSocketToSendedPacket i with
    | none =>
      refine ⟨.record, { m with sender := .write e 0 }, by simp, ?_, ?_⟩
      · simp [senderStep, senderRecord, hpc, hs]
      · simp [senderMeasure, hpc]
    | some f =>
      refine ⟨.record, { m.setSended i (some (insertNew f (cfg.traits.msgid e.2) e.2)) with
        sender := .write e 0 }, by simp, ?_, ?_⟩
      · simp [senderStep, senderRecord, hpc, hs]
      · simp [senderMeasure, hpc]
  | write e n =>
    obtain ⟨_, hn⟩ : m.writeBuffer = frameOf cfg e.2 ∧ n < m.writeBuffer.length := by
      simpa [BufferAt, hpc] using hw.buffer
    -- the rest of the frame in one piece
    have hpos : 0 < m.writeBuffer.length - n := by omega
    have hend : n + (m.writeBuffer.length - n) = m.writeBuffer.length := by omega
    obtain ⟨m', h⟩ : ∃ m', senderWrite m (m.writeBuffer.length - n) = some m' := by
      simp only [senderWrite, hpc, hpos, hend, Nat.le_refl, and_self, if_true]
      exact ⟨_, rfl⟩
    refine ⟨.write (m.writeBuffer.length - n), m', by simp, h, ?_⟩
    obtain ⟨e', n', hpc', _, _, ⟨_, rfl⟩ | ⟨hlt, rfl⟩⟩ := senderWrite_cases h
    · simp [senderMeasure, hpc]
    · rw [hpc] at hpc'
      cases hpc'
      omega

/-! ## The reader -/

/-- A completed read hands out at most one buffer. -/
theorem complete_buffers {s s' : CCommonSocket Unit} (hr : Registered [()] [()] s)
    (h : s.complete = some s') :
    (buffersTo () s'.calls).length ≤ (buffersTo () s.calls).length + 1 := by
  have hclosed : ∀ t : CCommonSocket Unit, t.calls = s.calls →
      (buffersTo () t.fireDisconnect.calls).length ≤ (buffersTo () s.calls).length + 1 := by
    intro t ht
    show (buffersTo () (t.calls ++ disconnectCalls t.vecSltDisconnect)).length ≤ _
    rw [buffersTo_append, buffersTo_disconnectCalls, List.append_nil, ht]
    exact Nat.le_succ _
  have hbody : ∀ t : CCommonSocket Unit, t.calls = s.calls → t.vecSltMessage = [()] →
      (buffersTo () (readBody false t).calls).length ≤ (buffersTo () s.calls).length + 1 := by
    intro t ht hmsg
    show (buffersTo () (t.calls ++ t.vecSltMessage.map (.message · t.readBuffer))).length ≤ _
    rw [buffersTo_append, buffersTo_one_frame, ht, hmsg, List.length_append]
    exact Nat.le_refl _
  simp only [complete, outstanding] at h
  split at h
  · cases h
  rename_i off n handler ho
  split at h
  · cases h
    exact Nat.le_succ _
  split at ho <;> cases ho
  · split at h
    · cases h
      exact Nat.le_succ _
    split at h <;> cases h
    exact hclosed _ rfl
  · split at h
    · cases h
      exact hbody _ rfl hr.msg
    split at h <;> cases h
    exact hclosed _ rfl

/-- Reads that the reader has before it, and buffers that the message slot has. -/
def endpointMeasure (p : Endpoint Packet) : Nat :=
  2 * readerMeasure p.reader + (p.buffers.length - p.handled)

/-- The reader waits for bytes and every buffer has been handled. -/
def ReaderDone (p : Endpoint Packet) : Prop :=
  Quiescent p.reader ∧ p.handled = p.buffers.length

/-- **A reader with work has a step that takes it on.** -/
theorem reader_moves [DecidableEq ReqCode] [DecidableEq ResCode] {side : Side}
    (hf : Flow L st side) (hpeer : Flow L st side.peer) (hs : SlotCalls (st side))
    (hwork : ¬ ReaderDone (st side)) :
    ∃ e st', (e = .complete side ∨ ∃ n, e = .queue side n) ∧ Duplex.step L st e = some st' ∧
      endpointMeasure (st' side) < endpointMeasure (st side) := by
  by_cases hall : (st side).handled = (st side).buffers.length
  · -- every buffer handled: the outstanding read completes
    obtain ⟨r, hr⟩ := Option.ne_none_iff_exists'.mp fun hq => hwork ⟨hq, hall⟩
    have hready : (st side).ready = true := by
      unfold Endpoint.ready
      cases hcall : (st side).call with
      | none => simp [hall]
      | some n => simp [hall, hs.returned n hcall]
    refine ⟨.complete side, Function.update st side { st side with reader := r }, .inl rfl,
      ?_, ?_⟩
    · simp only [Duplex.step, hready, if_true, CCommonSocket.step, hr, Option.map_some]
    · obtain ⟨hreg, htracks⟩ := hf.tracks hpeer
      have hdec : readerMeasure r < readerMeasure (st side).reader :=
        complete_decreases htracks.headerSized hr
      have hone : (buffersTo () r.calls).length ≤ (st side).buffers.length + 1 :=
        complete_buffers hreg hr
      rw [Function.update_self]
      simp only [endpointMeasure, Endpoint.buffers] at hall hone ⊢
      omega
  · have hlt : (st side).handled < (st side).buffers.length :=
      Nat.lt_of_le_of_ne hf.handled_le hall
    obtain ⟨N, hN⟩ := hs.fresh
    obtain ⟨m, hm⟩ := recvStart_enabled (L.config side) (hN N (Nat.le_refl _))
      (L.sock side) ((st side).buffers[(st side).handled])
    refine ⟨.queue side N, Function.update st side
      { st side with manager := m, handled := (st side).handled + 1, call := some N },
      .inr ⟨N, rfl⟩, ?_, ?_⟩
    · simp only [Duplex.step, List.getElem?_eq_getElem hlt, CGPBManagerV2.step, recvStep, hm,
        Option.map_some]
    · rw [Function.update_self]
      simp only [endpointMeasure, Endpoint.buffers] at hlt ⊢
      omega

/-! ## The steps put together -/

/-- A step of the sender of the peer, of the network towards `side` or of the reader of `side`. -/
def DuplexEvent.Carries (side : Side) : DuplexEvent Packet → Prop
  | .manager s (.sender a) => s = side.peer ∧ a ≠ .writeError
  | .arrive s _ | .complete s | .queue s _ => s = side
  | _ => False

/-- What such steps keep. -/
structure Carrying (L : DuplexConfig Packet ReqCode ResCode) (side : Side) (goal : List Packet)
    (st : Duplex Packet) : Prop where
  flow : ∀ s, Flow L st s
  calls : ∀ s, SlotCalls (st s)
  accepted : Duplex.accepted L st side.peer = goal
  up : (st side).reader.hungUp = false

/-- No event but `hangup` ends a connection. -/
theorem step_up {s s' : CCommonSocket Unit} {e : NetEvent} (h : s.step e = some s')
    (he : e ≠ .hangup) : s'.hungUp = s.hungUp := by
  cases e with
  | arrive chunk =>
    simp only [CCommonSocket.step] at h
    split at h <;> cases h
    rfl
  | hangup => exact absurd rfl he
  | complete =>
    simp only [CCommonSocket.step, complete, outstanding] at h
    split at h
    · cases h
    rename_i off n handler ho
    have hkeep : ∀ err t, (handler err t).hungUp = t.hungUp := by
      intro err t
      split at ho <;> cases ho <;> cases err <;> rfl
    split at h
    · cases h
      rfl
    split at h
    · cases h
      exact hkeep _ _
    split at h
    · cases h
      exact hkeep _ _
    · cases h

/-- The feature is not touched by a step that carries. -/
theorem DuplexEvent.Carries.featureOff {side : Side} {e : DuplexEvent Packet}
    (he : e.Carries side) : e.FeatureOff := by
  cases e with
  | manager s e =>
    cases e with
    | sender a => exact he.2
    | _ => exact absurd he id
  | _ => trivial

section Drain

variable [DecidableEq ReqCode] [DecidableEq ResCode]

theorem step_carrying {side : Side} {goal : List Packet} {e : DuplexEvent Packet}
    (hc : Carrying L side goal st) (he : e.Carries side) (h : Duplex.step L st e = some st') :
    Carrying L side goal st' := by
  refine ⟨step_flow hc.flow he.featureOff h, step_slotCalls hc.flow hc.calls h, ?_, ?_⟩
  · cases e with
    | manager s e =>
      cases e with
      | sender a =>
        obtain ⟨rfl, _⟩ := he
        obtain ⟨m, _, hm, rfl⟩ := manager_step h
        rw [← hc.accepted]
        unfold Duplex.accepted enqueuedFor
        rw [Function.update_self, (senderStep_frame hm).enqueued]
      | _ => exact absurd he id
    | arrive s k =>
      obtain rfl : s = side := he
      obtain ⟨r, _, _, rfl⟩ := arrive_step h
      rw [← hc.accepted, Duplex.accepted, Function.update_of_ne s.peer_ne]
      rfl
    | hangup s => exact absurd he id
    | complete s =>
      obtain rfl : s = side := he
      obtain ⟨r, _, _, rfl⟩ := complete_step h
      rw [← hc.accepted, Duplex.accepted, Function.update_of_ne s.peer_ne]
      rfl
    | queue s n =>
      obtain rfl : s = side := he
      obtain ⟨buffer, m, _, _, rfl⟩ := queue_step h
      rw [← hc.accepted, Duplex.accepted, Function.update_of_ne s.peer_ne]
      rfl
  · cases e with
    | manager s e =>
      cases e with
      | sender a =>
        obtain ⟨rfl, _⟩ := he
        obtain ⟨m, _, _, rfl⟩ := manager_step h
        rw [Function.update_of_ne side.peer_ne.symm]
        exact hc.up
      | _ => exact absurd he id
    | arrive s k =>
      obtain rfl : s = side := he
      obtain ⟨r, _, hr, rfl⟩ := arrive_step h
      rw [Function.update_self]
      exact (step_up hr nofun).trans hc.up
    | hangup s => exact absurd he id
    | complete s =>
      obtain rfl : s = side := he
      obtain ⟨r, _, hr, rfl⟩ := complete_step h
      rw [Function.update_self]
      exact (step_up hr nofun).trans hc.up
    | queue s n =>
      obtain rfl : s = side := he
      obtain ⟨buffer, m, _, _, rfl⟩ := queue_step h
      rw [Function.update_self]
      exact hc.up

/-- The sender empties its queue. -/
theorem sender_drains {side : Side} {goal : List Packet} (hc : Carrying L side goal st) :
    ∃ es st', run (Duplex.step L) st es = some st' ∧ (∀ e ∈ es, e.Carries side) ∧
      Carrying L side goal st' ∧ SenderDone (st' side.peer).manager := by
  refine exists_run_until (I := Carrying L side goal)
    (fun st => senderMeasure (st side.peer).manager) (fun st hc hwork => ?_) _ st hc
    (Nat.le_refl _)
  obtain ⟨a, m, ha, hm, hlt⟩ := sender_moves (hc.flow side.peer).wire hwork
  have hstep : Duplex.step L st (.manager side.peer (.sender a)) =
      some (Function.update st side.peer { st side.peer with manager := m }) := by
    simp only [Duplex.step, receivesOn, CGPBManagerV2.step, hm, Option.map_some]
    rfl
  have hcarries : (DuplexEvent.manager side.peer (.sender a) : DuplexEvent Packet).Carries side :=
    ⟨rfl, ha⟩
  refine ⟨_, _, hstep, hcarries, step_carrying hc hcarries hstep, ?_⟩
  rw [Function.update_self]
  exact hlt

/-- The network brings everything that has been written. -/
theorem network_drains {side : Side} {goal : List Packet} (hc : Carrying L side goal st)
    (hdone : SenderDone (st side.peer).manager) :
    ∃ e st', Duplex.step L st e = some st' ∧ e.Carries side ∧ Carrying L side goal st' ∧
      SenderDone (st' side.peer).manager ∧ Duplex.inTransit L st' side = [] := by
  have hstep : ∃ st', Duplex.step L st (.arrive side (Duplex.inTransit L st side).length) =
      some st' := by
    simp only [Duplex.step, Nat.le_refl, if_true, CCommonSocket.step, hc.up]
    exact ⟨_, rfl⟩
  obtain ⟨st', hstep⟩ := hstep
  have hcarries : (DuplexEvent.arrive side (Duplex.inTransit L st side).length :
      DuplexEvent Packet).Carries side := rfl
  refine ⟨_, st', hstep, hcarries, step_carrying hc hcarries hstep, ?_⟩
  obtain ⟨r, _, _, rfl⟩ := arrive_step hstep
  refine ⟨?_, ?_⟩
  · rw [Function.update_of_ne side.peer_ne]
    exact hdone
  · have harrived := (hc.flow side).arrived_le
    rw [Duplex.inTransit, Function.update_self, Function.update_of_ne side.peer_ne,
      List.drop_eq_nil_iff]
    show _ ≤ (st side).arrived + (Duplex.inTransit L st side).length
    rw [Duplex.inTransit, List.length_drop]
    omega

/-- The reader uses everything that has arrived. -/
theorem reader_drains {side : Side} {goal : List Packet} (hc : Carrying L side goal st)
    (hdone : SenderDone (st side.peer).manager) (htransit : Duplex.inTransit L st side = []) :
    ∃ es st', run (Duplex.step L) st es = some st' ∧ (∀ e ∈ es, e.Carries side) ∧
      (Carrying L side goal st' ∧ SenderDone (st' side.peer).manager ∧
        Duplex.inTransit L st' side = []) ∧ ReaderDone (st' side) := by
  refine exists_run_until (I := fun st => Carrying L side goal st ∧
      SenderDone (st side.peer).manager ∧ Duplex.inTransit L st side = [])
    (fun st => endpointMeasure (st side)) (fun st ⟨hc, hdone, htransit⟩ hwork => ?_) _ st
    ⟨hc, hdone, htransit⟩ (Nat.le_refl _)
  obtain ⟨e, st', he, hstep, hlt⟩ :=
    reader_moves (hc.flow side) (hc.flow side.peer) (hc.calls side) hwork
  have hcarries : e.Carries side := by
    rcases he with rfl | ⟨n, rfl⟩ <;> rfl
  -- neither step touches the peer or brings bytes
  have hsame : st' side.peer = st side.peer ∧ (st' side).arrived = (st side).arrived := by
    rcases he with rfl | ⟨n, rfl⟩
    · obtain ⟨r, _, _, rfl⟩ := complete_step hstep
      rw [Function.update_of_ne side.peer_ne, Function.update_self]
      exact ⟨rfl, rfl⟩
    · obtain ⟨buffer, m, _, _, rfl⟩ := queue_step hstep
      rw [Function.update_of_ne side.peer_ne, Function.update_self]
      exact ⟨rfl, rfl⟩
  refine ⟨e, st', hstep, hcarries, ⟨step_carrying hc hcarries hstep, ?_, ?_⟩, hlt⟩
  · rw [hsame.1]
    exact hdone
  · rw [Duplex.inTransit, hsame.1, hsame.2]
    exact htransit

/-- What the steps keep holds in every state of a run with the feature off. -/
theorem run_carrying {nm : Side → CNetworkCommunicator} {announced : Side → SockIndex → Bool}
    {es : List (DuplexEvent Packet)} (hoff : ∀ e ∈ es, e.FeatureOff)
    (h : run (Duplex.step L) (Duplex.create nm announced) es = some st) {side : Side}
    (hup : (st side).reader.hungUp = false) :
    Carrying L side (Duplex.accepted L st side.peer) st := by
  have hstart : ∀ s, SlotCalls ((Duplex.create nm announced : Duplex Packet) s) := by
    intro s
    exact ⟨⟨0, fun n _ => rfl⟩, fun n hn => absurd hn.symm (Option.some_ne_none n)⟩
  obtain ⟨hflow, hcalls⟩ := run_preserves
    (I := fun st => (∀ s, Flow L st s) ∧ ∀ s, SlotCalls (st s))
    (C := fun _ e => e.FeatureOff)
    (fun _ _ _ hi hc hs => ⟨step_flow hi.1 hc hs, step_slotCalls hi.1 hi.2 hs⟩) es _ st
    ⟨create_flow nm announced, hstart⟩ (meets_of_forall es _ (fun e he _ => hoff e he)) h
  exact ⟨hflow, hcalls, rfl, hup⟩

/-- **A connection can always be emptied.**  From every state that a run with the feature off
    reaches while the connection is up, steps of the sender, of the network and of the reader alone
    lead to a state in which everything that the peer had accepted has been queued, as it parses. -/
theorem duplex_drains (L : DuplexConfig Packet ReqCode ResCode)
    (nm : Side → CNetworkCommunicator) (announced : Side → SockIndex → Bool)
    (es : List (DuplexEvent Packet)) (st : Duplex Packet) (hoff : ∀ e ∈ es, e.FeatureOff)
    (hrun : run (Duplex.step L) (Duplex.create nm announced) es = some st) (side : Side)
    (hup : (st side).reader.hungUp = false) :
    ∃ es' st', run (Duplex.step L) st es' = some st' ∧ (∀ e ∈ es', e.Carries side) ∧
      Duplex.accepted L st' side.peer = Duplex.accepted L st side.peer ∧
      Duplex.delivered L st' side =
        (Duplex.accepted L st side.peer).filterMap L.transmitted := by
  obtain ⟨es₁, st₁, hrun₁, hes₁, hc₁, hdone₁⟩ := sender_drains (run_carrying hoff hrun hup)
  obtain ⟨e₂, st₂, hstep₂, he₂, hc₂, hdone₂, htransit₂⟩ := network_drains hc₁ hdone₁
  obtain ⟨es₃, st₃, hrun₃, hes₃, ⟨hc₃, hdone₃, htransit₃⟩, hreader₃⟩ :=
    reader_drains hc₂ hdone₂ htransit₂
  refine ⟨es₁ ++ e₂ :: es₃, st₃, ?_, ?_, hc₃.accepted, ?_⟩
  · exact run_append.mpr ⟨st₁, hrun₁, run_cons.mpr ⟨st₂, hstep₂, hrun₃⟩⟩
  · intro e he
    rcases List.mem_append.mp he with he | he
    · exact hes₁ e he
    · rcases List.mem_cons.mp he with rfl | he
      · exact he₂
      · exact hes₃ e he
  · have hrest : AtRest L st₃ side := by
      refine ⟨?_, ?_, htransit₃, hreader₃.1, hreader₃.2⟩
      · rw [hdone₃.1]
        rfl
      · rw [hdone₃.2]
        rfl
    rw [(hc₃.flow side).delivered_all (hc₃.flow side.peer) hrest, hc₃.accepted]

end Drain

open SamplePacket in
/-- The connection is cut off in the middle of a frame's journey and can still be emptied. -/
theorem duplex_drains_oneWay :
    ∃ st, run (Duplex.step pair) linked (oneWay.take 9) = some st ∧
      Duplex.delivered pair st .server = [] ∧
      ∃ es' st', run (Duplex.step pair) st es' = some st' ∧ (∀ e ∈ es', e.Carries .server) ∧
        Duplex.accepted pair st' .client = Duplex.accepted pair st .client ∧
        Duplex.delivered pair st' .server =
          (Duplex.accepted pair st .client).filterMap pair.transmitted := by
  obtain ⟨st, hrun, hnone, hup⟩ : ∃ st,
      run (Duplex.step pair) linked (oneWay.take 9) = some st ∧
      Duplex.delivered pair st .server = [] ∧ (st .server).reader.hungUp = false :=
    ⟨_, rfl, rfl, rfl⟩
  have hoff : ∀ e ∈ oneWay.take 9, e.FeatureOff := by
    simp [oneWay, sendCall, plainRound, DuplexEvent.FeatureOff, FeatureOff]
  exact ⟨st, hrun, hnone, duplex_drains pair _ _ _ st hoff hrun .server hup⟩

end IMonPlatform
