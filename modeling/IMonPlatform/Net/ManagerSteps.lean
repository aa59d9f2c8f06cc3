import IMonPlatform.Net.Manager

/-!
# What the steps of the manager do

Proofs about runs use these lemmas and never unfold a step.

* `senderTest_cases`, `recvLocked_cases`, … — what each step requires and what the state is
  afterwards.
* `sendStep_frame`, `senderStep_frame`, `recvStep_frame`, `dispatchStep_frame` — what the steps of
  a party leave alone.
* `step_registry`, `step_sended_isSome`, `step_handlers`, `step_dispatchers` — what only a few steps
  change.
-/

set_option autoImplicit false

namespace IMonPlatform

open Framing CNetworkCommunicator CGPBManagerV2

variable {Packet ReqCode ResCode : Type}

/-! ## What each step requires and does -/

section Inversion

variable {cfg : Config Packet ReqCode ResCode} {m m' : CGPBManagerV2 Packet}

/-- A call begins: it is refused, or it has a socket and a packet. -/
theorem sendStart_cases {c : Nat} {target : Target} {packet : Packet} {auto : Bool}
    (h : sendStart m c target packet auto = some m') :
    ∃ nm pc, m.calls c = .idle ∧ nm.mapIndexToSocket = m.networkManager.mapIndexToSocket ∧
      m' = { m with networkManager := nm, calls := Function.update m.calls c pc } ∧
      (pc = .done (-1) ∨ ∃ s, pc = .assign s packet auto) := by
  unfold sendStart at h
  split at h
  · rename_i i hidle
    split at h <;> cases h
    · exact ⟨_, _, hidle, rfl, rfl, .inl rfl⟩
    · exact ⟨_, _, hidle, getSocket_map _ i, rfl, .inr ⟨_, rfl⟩⟩
  · rename_i hidle
    cases h
    exact ⟨_, _, hidle, rfl, rfl, .inl rfl⟩
  · rename_i s hidle
    cases h
    exact ⟨_, _, hidle, rfl, rfl, .inr ⟨s, rfl⟩⟩
  · cases h

theorem sendAssign_cases {c : Nat} (h : sendAssign cfg m c = some m') :
    ∃ s p auto id p', m.calls c = .assign s p auto ∧
      m' = { m with globalMessageID := id, calls := Function.update m.calls c (.push s p') } := by
  unfold sendAssign at h
  split at h <;> cases h
  · exact ⟨_, _, _, _, _, ‹_›, rfl⟩
  · exact ⟨_, _, _, _, _, ‹_›, rfl⟩

theorem sendPush_cases {c : Nat} (h : sendPush m c = some m') :
    ∃ s p, m.calls c = .push s p ∧ m' = (m.pushOutgoing c (s, p)).setCall c (.ret p) := by
  unfold sendPush at h
  split at h <;> cases h
  exact ⟨_, _, ‹_›, rfl⟩

theorem sendReturn_cases {c : Nat} (h : sendReturn cfg m c = some m') :
    ∃ p, m.calls c = .ret p ∧ m' = m.setCall c (.done (cfg.traits.msgid p)) := by
  unfold sendReturn at h
  split at h <;> cases h
  exact ⟨_, ‹_›, rfl⟩

theorem senderTest_cases (h : senderTest m = some m') :
    m.sender = .loop ∧ (m.isUseWaitingWhenServerBusy = true ∧ m.isBusy = true ∧ m' = m ∨
      ¬ (m.isUseWaitingWhenServerBusy = true ∧ m.isBusy = true) ∧
        m' = { m with sender := .pop }) := by
  unfold senderTest at h
  split at h
  · rename_i hloop
    split at h <;> cases h <;> simp_all
  · cases h

theorem senderPop_cases (h : senderPop cfg m = some m') :
    ∃ e rest, m.sender = .pop ∧ m.outgoingQueue = e :: rest ∧
      m' = { m with
        outgoingQueue := rest
        writeBuffer := writeFrame m.writeBuffer (cfg.traits.SerializeToArray e.2)
        sender := .popped e } := by
  unfold senderPop at h
  split at h <;> cases h
  exact ⟨_, _, ‹_›, ‹_›, rfl⟩

theorem senderCheck_cases (h : senderCheck m = some m') :
    ∃ e, m.sender = .popped e ∧
      (m.isUseWaitingWhenServerBusy = true ∧ m.isBusy = true ∧ m' = { m with sender := .loop } ∨
        m.isUseWaitingWhenServerBusy = true ∧ m.isBusy = false ∧
          m' = { m with sender := .index e } ∨
        m.isUseWaitingWhenServerBusy = false ∧ m' = { m with sender := .write e 0 }) := by
  unfold senderCheck at h
  split at h
  · rename_i e he
    refine ⟨e, he, ?_⟩
    split at h
    · split at h <;> cases h <;> simp_all
    · cases h
      simp_all
  · cases h

theorem senderIndex_cases (h : senderIndex m = some m') :
    ∃ e, m.sender = .index e ∧
      (0 < m.networkManager.getSocketIndex e.1 ∧
          m' = { m with sender := .record e (m.networkManager.getSocketIndex e.1) } ∨
        m.networkManager.getSocketIndex e.1 ≤ 0 ∧ m' = { m with sender := .write e 0 }) := by
  unfold senderIndex at h
  split at h
  · rename_i e he
    refine ⟨e, he, ?_⟩
    split at h <;> cases h
    · exact .inl ⟨‹_›, rfl⟩
    · exact .inr ⟨Int.not_lt.mp ‹_›, rfl⟩
  · cases h

theorem senderRecord_cases (h : senderRecord cfg m = some m') :
    ∃ e i, m.sender = .record e i ∧
      ((∃ f, m.mapSocketToSendedPacket i = some f ∧
          m' = { m.setSended i (some (insertNew f (cfg.traits.msgid e.2) e.2)) with
            sender := .write e 0 }) ∨
        m.mapSocketToSendedPacket i = none ∧ m' = { m with sender := .write e 0 }) := by
  unfold senderRecord at h
  split at h
  · rename_i e i he
    refine ⟨e, i, he, ?_⟩
    split at h <;> cases h
    · exact .inl ⟨_, ‹_›, rfl⟩
    · exact .inr ⟨‹_›, rfl⟩
  · cases h

/-- Some more bytes are on the wire; the packet is done with the last of them. -/
theorem senderWrite_cases {k : Nat} (h : senderWrite m k = some m') :
    ∃ e n, m.sender = .write e n ∧ 0 < k ∧ n + k ≤ m.writeBuffer.length ∧
      (n + k = m.writeBuffer.length ∧ m' = { m with
          wire := Function.update m.wire e.1 (m.wire e.1 ++ (m.writeBuffer.drop n).take k)
          sender := .loop
          log := { m.log with written := m.log.written ++ [e] } } ∨
        n + k < m.writeBuffer.length ∧ m' = { m with
          wire := Function.update m.wire e.1 (m.wire e.1 ++ (m.writeBuffer.drop n).take k)
          sender := .write e (n + k) }) := by
  unfold senderWrite at h
  split at h
  · rename_i e n he
    split at h
    · rename_i hk
      refine ⟨e, n, he, hk.1, hk.2, ?_⟩
      cases h
      by_cases hend : n + k = m.writeBuffer.length
      · left
        simp [hend]
      · right
        simp only [hend, if_false, and_true]
        omega
    · cases h
  · cases h

theorem senderWriteError_cases (h : senderWriteError m = some m') :
    ∃ e n, m.sender = .write e n ∧ m' = { m with sender := .loop } := by
  unfold senderWriteError at h
  split at h <;> cases h
  exact ⟨_, _, ‹_›, rfl⟩

theorem dispatchPop_cases {d : Nat} (h : dispatchPop m d = some m') :
    ∃ e rest, m.dispatchers d = .loop ∧ m.incomingQueue = e :: rest ∧
      m' = { m with
        incomingQueue := rest
        log := { m.log with taken := m.log.taken + 1 } }.setDispatcher d
          (.popped m.log.taken e) := by
  unfold dispatchPop at h
  split at h <;> cases h
  exact ⟨_, _, ‹_›, ‹_›, rfl⟩

theorem dispatchReturn_cases {d : Nat} (h : dispatchReturn m d = some m') :
    ∃ c, m.dispatchers d = .calling c ∧ m' = m.setDispatcher d .loop := by
  unfold dispatchReturn at h
  split at h
  · split at h <;> cases h
    exact ⟨_, ‹_›, rfl⟩
  · cases h

theorem dispatchStore_cases {d : Nat} {time : Int} (h : dispatchStore cfg m d time = some m') :
    ∃ n i e, m.dispatchers d = .store n i e ∧
      m' = (m.setResPacket i (insertNew ((m.mapSocketToResPacket i).getD (fun _ => none))
        (cfg.traits.msgid e.2) (time, e.2))).setDispatcher d .loop := by
  unfold dispatchStore at h
  split at h <;> cases h
  exact ⟨_, _, _, ‹_›, rfl⟩

theorem receivePacket_cases (m : CGPBManagerV2 Packet) (i : SockIndex) (id : Int) :
    receivePacket m i id = m ∨
      ∃ f v, m.mapSocketToResPacket i = some f ∧ f id = some v ∧
        receivePacket m i id = { m.setResPacket i (Function.update f id none) with
          log := { m.log with returned := m.log.returned ++ [((i, id), v.2)] } } := by
  unfold receivePacket
  split
  · exact .inl rfl
  · split
    · exact .inl rfl
    · split
      · exact .inl rfl
      · rename_i f hf
        split
        · exact .inl rfl
        · rename_i v hv
          exact .inr ⟨f, v, hf, hv, rfl⟩

theorem disconnect_cases (m : CGPBManagerV2 Packet) (i : SockIndex) :
    disconnect m i = m ∨
      ∃ nm, nm.mapIndexToSocket = m.networkManager.mapIndexToSocket.erase i ∧
        disconnect m i = { m.setSended i none with networkManager := nm } := by
  unfold disconnect
  split
  · exact .inr ⟨_, getSocket_map _ i, rfl⟩
  · exact .inl rfl

/-- A received buffer is dropped, delivered (feature off), or goes on with the socket's index. -/
theorem recvStart_cases {n : Nat} {s : Sock} {buffer : Bytes}
    (h : recvStart cfg m n s buffer = some m') :
    m.handlers n = .idle ∧
      (cfg.traits.ParseFromArray (parseRegion buffer) = none ∧ m' = m.setHandler n .unparsed ∨
        ∃ p, cfg.traits.ParseFromArray (parseRegion buffer) = some p ∧
          (m.isUseWaitingWhenServerBusy = true ∧ m.networkManager.getSocketIndex s ≤ 0 ∧
              m' = m.setHandler n (.ignored s p (m.networkManager.isRegistered s)) ∨
            m.isUseWaitingWhenServerBusy = true ∧ 0 < m.networkManager.getSocketIndex s ∧
              m' = m.setHandler n (.store s p (m.networkManager.getSocketIndex s)) ∨
            m.isUseWaitingWhenServerBusy = false ∧
              m' = (m.pushIncoming n (s, p)).setHandler n (.passed s p))) := by
  unfold recvStart at h
  split at h
  · rename_i hidle
    refine ⟨hidle, ?_⟩
    split at h
    · cases h
      exact .inl ⟨‹_›, rfl⟩
    · rename_i p hp
      refine .inr ⟨p, hp, ?_⟩
      split at h
      · rename_i huse
        split at h <;> cases h
        · exact .inl ⟨huse, ‹_›, rfl⟩
        · exact .inr (.inl ⟨huse, Int.not_le.mp ‹_›, rfl⟩)
      · rename_i huse
        cases h
        exact .inr (.inr ⟨by simpa using huse, rfl⟩)
  · cases h

section Codes

variable [DecidableEq ResCode]

theorem recvStore_cases {n : Nat} (h : recvStore cfg m n = some m') :
    ∃ s p i, m.handlers n = .store s p i ∧
      m' = { m with isBusy := isBusyReply cfg p }.setHandler n (.locked s p i) := by
  unfold recvStore at h
  split at h <;> cases h
  exact ⟨_, _, _, ‹_›, rfl⟩

/-- The locked section crashes, finds no record, or treats the record by the flag it reads. -/
theorem recvLocked_cases {n : Nat} (h : recvLocked cfg m n = some m') :
    ∃ s p i, m.handlers n = .locked s p i ∧
      (m.mapSocketToSendedPacket i = none ∧ m' = m.setHandler n (.crashed s p) ∨
        ∃ f, m.mapSocketToSendedPacket i = some f ∧
          (f (cfg.traits.msgid p) = none ∧ m' = m.setHandler n (.finished s p none) ∨
            ∃ q, f (cfg.traits.msgid p) = some q ∧
              m' = (noteAnswer cfg
                ((if m.isBusy then m.requeue n (s, q) else m.pushIncoming n (s, p)).setSended i
                  (some (Function.update f (cfg.traits.msgid p) none))) s p q).setHandler n
                (.finished s p (some q)))) := by
  unfold recvLocked at h
  split at h
  · rename_i s p i hl
    refine ⟨s, p, i, hl, ?_⟩
    split at h
    · cases h
      exact .inl ⟨‹_›, rfl⟩
    · rename_i f hf
      refine .inr ⟨f, hf, ?_⟩
      split at h <;> cases h
      · exact .inl ⟨‹_›, rfl⟩
      · exact .inr ⟨_, ‹_›, rfl⟩
  · cases h

/-- A popped packet goes to its slot, or it is looked up and kept for the index found or thrown
    away. -/
theorem dispatchMessage_cases [DecidableEq ReqCode] {d : Nat} {result : Packet × Bool} {call : Nat}
    (h : dispatchMessage cfg m d result call = some m') :
    ∃ n e, m.dispatchers d = .popped n e ∧
      (isProcess cfg e.2 = true ∧
          (m.calls call = .idle ∧ m' = (m.setCall call (.assign e.1
              (cfg.traits.set_msgid result.1 (cfg.traits.msgid result.1)) false)).setDispatcher d
                (.calling call) ∨
            m' = m.setDispatcher d .loop) ∨
        isProcess cfg e.2 = false ∧
          (0 < m.networkManager.getSocketIndex e.1 ∧
              m' = ((m.noteLookup n e).noteDispatch n (m.networkManager.getSocketIndex e.1)
                e).setDispatcher d (.store n (m.networkManager.getSocketIndex e.1) e) ∨
            m.networkManager.getSocketIndex e.1 ≤ 0 ∧
              m' = (m.noteLookup n e).setDispatcher d .loop)) := by
  unfold dispatchMessage at h
  split at h
  · rename_i n e he
    refine ⟨n, e, he, ?_⟩
    split at h
    · rename_i hslot
      split at h
      · split at h <;> cases h
        exact .inl ⟨hslot, .inl ⟨‹_›, rfl⟩⟩
      · cases h
        exact .inl ⟨hslot, .inr rfl⟩
    · rename_i hslot
      have hslot : isProcess cfg e.2 = false := by simpa using hslot
      split at h <;> cases h
      · exact .inr ⟨hslot, .inl ⟨‹_›, rfl⟩⟩
      · exact .inr ⟨hslot, .inr ⟨Int.not_lt.mp ‹_›, rfl⟩⟩
  · cases h

end Codes

end Inversion

/-! ## What each party leaves alone -/

/-- What a thread in `sendPacket` leaves alone; only the number of sockets ever created may change
    in the communicator. -/
structure SendFrame (m m' : CGPBManagerV2 Packet) : Prop where
  registry : m'.networkManager.mapIndexToSocket = m.networkManager.mapIndexToSocket
  incoming : m'.incomingQueue = m.incomingQueue
  use : m'.isUseWaitingWhenServerBusy = m.isUseWaitingWhenServerBusy
  sended : m'.mapSocketToSendedPacket = m.mapSocketToSendedPacket
  responses : m'.mapSocketToResPacket = m.mapSocketToResPacket
  buffer : m'.writeBuffer = m.writeBuffer
  wire : m'.wire = m.wire
  sender : m'.sender = m.sender
  handlers : m'.handlers = m.handlers
  dispatchers : m'.dispatchers = m.dispatchers
  requeued : m'.log.requeued = m.log.requeued
  delivered : m'.log.delivered = m.log.delivered
  answered : m'.log.answered = m.log.answered
  written : m'.log.written = m.log.written
  taken : m'.log.taken = m.log.taken
  lookedUp : m'.log.lookedUp = m.log.lookedUp
  dispatched : m'.log.dispatched = m.log.dispatched
  returned : m'.log.returned = m.log.returned

/-- What `dispatchSendMessage` leaves alone. -/
structure SenderFrame (m m' : CGPBManagerV2 Packet) : Prop where
  network : m'.networkManager = m.networkManager
  counter : m'.globalMessageID = m.globalMessageID
  incoming : m'.incomingQueue = m.incomingQueue
  busy : m'.isBusy = m.isBusy
  use : m'.isUseWaitingWhenServerBusy = m.isUseWaitingWhenServerBusy
  responses : m'.mapSocketToResPacket = m.mapSocketToResPacket
  calls : m'.calls = m.calls
  handlers : m'.handlers = m.handlers
  dispatchers : m'.dispatchers = m.dispatchers
  enqueued : m'.log.enqueued = m.log.enqueued
  requeued : m'.log.requeued = m.log.requeued
  delivered : m'.log.delivered = m.log.delivered
  taken : m'.log.taken = m.log.taken
  lookedUp : m'.log.lookedUp = m.log.lookedUp
  dispatched : m'.log.dispatched = m.log.dispatched
  returned : m'.log.returned = m.log.returned

/-- What a thread in `queuePacketFromDataBuffer` leaves alone. -/
structure RecvFrame (m m' : CGPBManagerV2 Packet) : Prop where
  network : m'.networkManager = m.networkManager
  counter : m'.globalMessageID = m.globalMessageID
  use : m'.isUseWaitingWhenServerBusy = m.isUseWaitingWhenServerBusy
  responses : m'.mapSocketToResPacket = m.mapSocketToResPacket
  buffer : m'.writeBuffer = m.writeBuffer
  wire : m'.wire = m.wire
  calls : m'.calls = m.calls
  sender : m'.sender = m.sender
  dispatchers : m'.dispatchers = m.dispatchers
  enqueued : m'.log.enqueued = m.log.enqueued
  written : m'.log.written = m.log.written
  taken : m'.log.taken = m.log.taken
  lookedUp : m'.log.lookedUp = m.log.lookedUp
  dispatched : m'.log.dispatched = m.log.dispatched
  returned : m'.log.returned = m.log.returned

/-- What a thread in `dispatchReceiveMessage` leaves alone. -/
structure DispatchFrame (m m' : CGPBManagerV2 Packet) : Prop where
  network : m'.networkManager = m.networkManager
  counter : m'.globalMessageID = m.globalMessageID
  outgoing : m'.outgoingQueue = m.outgoingQueue
  busy : m'.isBusy = m.isBusy
  use : m'.isUseWaitingWhenServerBusy = m.isUseWaitingWhenServerBusy
  sended : m'.mapSocketToSendedPacket = m.mapSocketToSendedPacket
  buffer : m'.writeBuffer = m.writeBuffer
  wire : m'.wire = m.wire
  sender : m'.sender = m.sender
  handlers : m'.handlers = m.handlers
  enqueued : m'.log.enqueued = m.log.enqueued
  requeued : m'.log.requeued = m.log.requeued
  delivered : m'.log.delivered = m.log.delivered
  answered : m'.log.answered = m.log.answered
  written : m'.log.written = m.log.written
  returned : m'.log.returned = m.log.returned

section Frames

variable {cfg : Config Packet ReqCode ResCode} {m m' : CGPBManagerV2 Packet}

theorem sendStep_frame {c : Nat} {a : SendAct Packet} (h : sendStep cfg m c a = some m') :
    SendFrame m m' := by
  cases a with
  | start target packet auto =>
    obtain ⟨nm, pc, _, hmap, rfl, _⟩ := sendStart_cases h
    constructor <;> first | exact hmap | rfl
  | assign =>
    obtain ⟨s, p, auto, id, p', _, rfl⟩ := sendAssign_cases h
    constructor <;> rfl
  | push =>
    obtain ⟨s, p, _, rfl⟩ := sendPush_cases h
    constructor <;> rfl
  | ret =>
    obtain ⟨p, _, rfl⟩ := sendReturn_cases h
    constructor <;> rfl

theorem senderStep_frame {a : SenderAct} (h : senderStep cfg m a = some m') :
    SenderFrame m m' := by
  cases a with
  | test =>
    obtain ⟨_, ⟨_, _, rfl⟩ | ⟨_, rfl⟩⟩ := senderTest_cases h <;> constructor <;> rfl
  | pop =>
    obtain ⟨e, rest, _, _, rfl⟩ := senderPop_cases h
    constructor <;> rfl
  | check =>
    obtain ⟨e, _, ⟨_, _, rfl⟩ | ⟨_, _, rfl⟩ | ⟨_, rfl⟩⟩ := senderCheck_cases h <;>
      constructor <;> rfl
  | index =>
    obtain ⟨e, _, ⟨_, rfl⟩ | ⟨_, rfl⟩⟩ := senderIndex_cases h <;> constructor <;> rfl
  | record =>
    obtain ⟨e, i, _, ⟨f, _, rfl⟩ | ⟨_, rfl⟩⟩ := senderRecord_cases h <;> constructor <;> rfl
  | write k =>
    obtain ⟨e, n, _, _, _, ⟨_, rfl⟩ | ⟨_, rfl⟩⟩ := senderWrite_cases h <;> constructor <;> rfl
  | writeError =>
    obtain ⟨e, n, _, rfl⟩ := senderWriteError_cases h
    constructor <;> rfl

theorem recvStep_frame [DecidableEq ResCode] {n : Nat} {a : RecvAct}
    (h : recvStep cfg m n a = some m') : RecvFrame m m' := by
  cases a with
  | start s buffer =>
    obtain ⟨_, ⟨_, rfl⟩ | ⟨p, _, ⟨_, _, rfl⟩ | ⟨_, _, rfl⟩ | ⟨_, rfl⟩⟩⟩ := recvStart_cases h <;>
      constructor <;> rfl
  | store =>
    obtain ⟨s, p, i, _, rfl⟩ := recvStore_cases h
    constructor <;> rfl
  | locked =>
    obtain ⟨s, p, i, _, ⟨_, rfl⟩ | ⟨f, _, ⟨_, rfl⟩ | ⟨q, _, rfl⟩⟩⟩ := recvLocked_cases h
    · constructor <;> rfl
    · constructor <;> rfl
    · unfold noteAnswer
      cases m.isBusy <;> cases isBusyReply cfg p <;> constructor <;> rfl

theorem dispatchStep_frame [DecidableEq ReqCode] [DecidableEq ResCode] {d : Nat}
    {a : DispatchAct Packet} (h : dispatchStep cfg m d a = some m') : DispatchFrame m m' := by
  cases a with
  | pop =>
    obtain ⟨e, rest, _, _, rfl⟩ := dispatchPop_cases h
    constructor <;> rfl
  | message result call =>
    obtain ⟨n, e, _, ⟨_, ⟨_, rfl⟩ | rfl⟩ | ⟨_, ⟨_, rfl⟩ | ⟨_, rfl⟩⟩⟩ := dispatchMessage_cases h <;>
      constructor <;> rfl
  | ret =>
    obtain ⟨c, _, rfl⟩ := dispatchReturn_cases h
    constructor <;> rfl
  | store time =>
    obtain ⟨n, i, e, _, rfl⟩ := dispatchStore_cases h
    constructor <;> rfl

end Frames

/-! ## What any step leaves alone -/

section Steps

variable [DecidableEq ReqCode] [DecidableEq ResCode] {cfg : Config Packet ReqCode ResCode}
  {m m' : CGPBManagerV2 Packet} {e : Event Packet}

/-- Only `disconnect` changes the registry. -/
theorem step_registry (h : CGPBManagerV2.step cfg m e = some m') (hne : ∀ i, e ≠ .disconnect i) :
    m'.networkManager.mapIndexToSocket = m.networkManager.mapIndexToSocket := by
  cases e with
  | send c a => exact (sendStep_frame h).registry
  | sender a => rw [(senderStep_frame h).network]
  | recv n a => rw [(recvStep_frame h).network]
  | dispatch d a => rw [(dispatchStep_frame h).network]
  | receivePacket i id =>
    cases h
    obtain hsame | ⟨f, v, _, _, hnew⟩ := receivePacket_cases m i id
    · rw [hsame]
    · rw [hnew]
      rfl
  | disconnect i => exact absurd rfl (hne i)
  | setIsUseServerBusyWaiting b =>
    cases h
    rfl

theorem isSome_update {α β : Type} [DecidableEq α] {f : α → Option β} {a : α}
    (ha : (f a).isSome) (v : β) (j : α) :
    (Function.update f a (some v) j).isSome = (f j).isSome := by
  by_cases hj : j = a
  · subst hj
    simp [ha]
  · rw [Function.update_of_ne hj]

/-- Only `disconnect` changes which indices have an entry. -/
theorem step_sended_isSome (h : CGPBManagerV2.step cfg m e = some m')
    (hne : ∀ i, e ≠ .disconnect i) (i : SockIndex) :
    (m'.mapSocketToSendedPacket i).isSome = (m.mapSocketToSendedPacket i).isSome := by
  cases e with
  | send c a => rw [(sendStep_frame h).sended]
  | sender a =>
    cases a with
    | test => obtain ⟨_, ⟨_, _, rfl⟩ | ⟨_, rfl⟩⟩ := senderTest_cases h <;> rfl
    | pop =>
      obtain ⟨e, rest, _, _, rfl⟩ := senderPop_cases h
      rfl
    | check => obtain ⟨e, _, ⟨_, _, rfl⟩ | ⟨_, _, rfl⟩ | ⟨_, rfl⟩⟩ := senderCheck_cases h <;> rfl
    | index => obtain ⟨e, _, ⟨_, rfl⟩ | ⟨_, rfl⟩⟩ := senderIndex_cases h <;> rfl
    | record =>
      obtain ⟨e, j, _, ⟨f, hf, rfl⟩ | ⟨_, rfl⟩⟩ := senderRecord_cases h
      · exact isSome_update (by rw [hf]; rfl) _ i
      · rfl
    | write k => obtain ⟨e, n, _, _, _, ⟨_, rfl⟩ | ⟨_, rfl⟩⟩ := senderWrite_cases h <;> rfl
    | writeError =>
      obtain ⟨e, n, _, rfl⟩ := senderWriteError_cases h
      rfl
  | recv n a =>
    cases a with
    | start s buffer =>
      obtain ⟨_, ⟨_, rfl⟩ | ⟨p, _, ⟨_, _, rfl⟩ | ⟨_, _, rfl⟩ | ⟨_, rfl⟩⟩⟩ := recvStart_cases h <;>
        rfl
    | store =>
      obtain ⟨s, p, j, _, rfl⟩ := recvStore_cases h
      rfl
    | locked =>
      obtain ⟨s, p, j, _, ⟨_, rfl⟩ | ⟨f, hf, ⟨_, rfl⟩ | ⟨q, _, rfl⟩⟩⟩ := recvLocked_cases h
      · rfl
      · rfl
      · have hj : (m.mapSocketToSendedPacket j).isSome := by rw [hf]; rfl
        unfold noteAnswer
        cases m.isBusy <;> cases isBusyReply cfg p <;> exact isSome_update hj _ i
  | dispatch d a => rw [(dispatchStep_frame h).sended]
  | receivePacket j id =>
    cases h
    obtain hsame | ⟨f, v, _, _, hnew⟩ := receivePacket_cases m j id
    · rw [hsame]
    · rw [hnew]
      rfl
  | disconnect j => exact absurd rfl (hne j)
  | setIsUseServerBusyWaiting b =>
    cases h
    rfl

/-- A step that is not made by a thread in `queuePacketFromDataBuffer` leaves these threads
    alone. -/
theorem step_handlers (h : CGPBManagerV2.step cfg m e = some m') (hne : ∀ n a, e ≠ .recv n a) :
    m'.handlers = m.handlers := by
  cases e with
  | send c a => exact (sendStep_frame h).handlers
  | sender a => exact (senderStep_frame h).handlers
  | recv n a => exact absurd rfl (hne n a)
  | dispatch d a => exact (dispatchStep_frame h).handlers
  | receivePacket i id =>
    cases h
    obtain hsame | ⟨f, v, _, _, hnew⟩ := receivePacket_cases m i id
    · rw [hsame]
    · rw [hnew]
      rfl
  | disconnect i =>
    cases h
    obtain hsame | ⟨nm, _, hnew⟩ := disconnect_cases m i
    · rw [hsame]
    · rw [hnew]
      rfl
  | setIsUseServerBusyWaiting b =>
    cases h
    rfl

/-- A step that is not made by a thread in `dispatchReceiveMessage` leaves these threads alone. -/
theorem step_dispatchers (h : CGPBManagerV2.step cfg m e = some m')
    (hne : ∀ d a, e ≠ .dispatch d a) : m'.dispatchers = m.dispatchers := by
  cases e with
  | send c a => exact (sendStep_frame h).dispatchers
  | sender a => exact (senderStep_frame h).dispatchers
  | recv n a => exact (recvStep_frame h).dispatchers
  | dispatch d a => exact absurd rfl (hne d a)
  | receivePacket i id =>
    cases h
    obtain hsame | ⟨f, v, _, _, hnew⟩ := receivePacket_cases m i id
    · rw [hsame]
    · rw [hnew]
      rfl
  | disconnect i =>
    cases h
    obtain hsame | ⟨nm, _, hnew⟩ := disconnect_cases m i
    · rw [hsame]
    · rw [hnew]
      rfl
  | setIsUseServerBusyWaiting b =>
    cases h
    rfl

end Steps

end IMonPlatform
