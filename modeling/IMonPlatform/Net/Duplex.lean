import IMonPlatform.Net.CommonSocket
import IMonPlatform.Net.WireOrder

/-!
# Two managers on one connection

A connection joins a socket object of one program with one of another.  What the manager of one
side has written to its socket (`wire`) arrives at the other side in chunks of any size; the
reader there collects the frames and hands each of them to `queuePacketFromDataBuffer`, its
message slot, before it reads on.  Both managers serve other sockets as well.

* `DuplexConfig`, `Endpoint`, `Duplex.step` — the two programs with the bytes between them.  A run
  is any interleaving of the threads of both sides, of the network and of the two readers.
* `manager_step`, `complete_step`, … — a step of the connection read back as a step of its parts.
* `Flow` — the invariant of one direction: the reader has run on the bytes that have arrived, and
  the manager behind it has queued the packets of the buffers handled so far.
* `step_flow`, `run_flow` — it holds along every run with the SERVER_BUSY feature off.
-/

set_option autoImplicit false

namespace IMonPlatform

open Framing CGPBManagerV2 Transition TaggedLog CCommonSocket

variable {Packet ReqCode ResCode : Type}

/-! ## The connection -/

/-- The program that called `connectTo` and the one that accepted. -/
inductive Side where
  | client
  | server
  deriving DecidableEq, Repr

def Side.peer : Side → Side
  | .client => .server
  | .server => .client

@[simp] theorem Side.peer_peer (side : Side) : side.peer.peer = side := by
  cases side <;> rfl

theorem Side.peer_ne (side : Side) : side.peer ≠ side := by
  cases side <;> decide

/-- What is fixed on a connection.  Both programs are built from the same packet definition; the
    slots and the socket object are each program's own. -/
structure DuplexConfig (Packet ReqCode ResCode : Type) where
  traits : CGPTraits Packet ReqCode ResCode
  resCodeServerBusy : Side → ResCode
  mapRequestToSlot : Side → ReqCode → Bool
  mapResponseToSlot : Side → ResCode → Bool
  sock : Side → Sock

/-- The configuration of the manager of one side. -/
def DuplexConfig.config (L : DuplexConfig Packet ReqCode ResCode) (side : Side) :
    Config Packet ReqCode ResCode :=
  ⟨L.traits, L.resCodeServerBusy side, L.mapRequestToSlot side, L.mapResponseToSlot side⟩

/-- One end of the connection.  The reader's only message slot is `queuePacketFromDataBuffer`. -/
structure Endpoint (Packet : Type) where
  manager : CGPBManagerV2 Packet
  reader : CCommonSocket Unit
  /-- Number of bytes of the peer's wire that have arrived. -/
  arrived : Nat
  /-- Number of buffers handed to the message slot. -/
  handled : Nat
  /-- The call of `queuePacketFromDataBuffer` that the reader made last. -/
  call : Option Nat

abbrev Duplex (Packet : Type) := Side → Endpoint Packet

/-- What can happen: a thread of a manager makes a step, `k` more bytes arrive, the connection
    ends, an outstanding read completes, or the message slot is called. -/
inductive DuplexEvent (Packet : Type) where
  | manager (side : Side) (e : Event Packet)
  | arrive (side : Side) (k : Nat)
  | hangup (side : Side)
  | complete (side : Side)
  | queue (side : Side) (n : Nat)

/-- A buffer received on `s`. -/
def receivesOn (s : Sock) : Event Packet → Bool
  | .recv _ (.start r _) => r == s
  | _ => false

/-- `queuePacketFromDataBuffer` has returned. -/
def HandlerPc.returned : HandlerPc Packet → Bool
  | .idle | .store .. | .locked .. | .crashed .. => false
  | .unparsed | .passed .. | .ignored .. | .finished .. => true

namespace Endpoint

/-- The buffers that the reader has handed out. -/
def buffers (p : Endpoint Packet) : List Bytes := buffersTo () p.reader.calls

/-- The message slot has returned for every buffer, so the reader goes on. -/
def ready (p : Endpoint Packet) : Bool :=
  p.handled == p.buffers.length && match p.call with
    | none => true
    | some n => (p.manager.handlers n).returned

end Endpoint

namespace Duplex

section Steps

variable [DecidableEq ReqCode] [DecidableEq ResCode] (L : DuplexConfig Packet ReqCode ResCode)

/-- Bytes written by the peer that have not arrived yet. -/
def inTransit (st : Duplex Packet) (side : Side) : Bytes :=
  ((st side.peer).manager.wire (L.sock side.peer)).drop (st side).arrived

def step (st : Duplex Packet) : DuplexEvent Packet → Option (Duplex Packet)
  | .manager side e =>
    -- buffers of this connection come from the reader
    if receivesOn (L.sock side) e then none
    else (CGPBManagerV2.step (L.config side) (st side).manager e).map fun m =>
      Function.update st side { st side with manager := m }
  | .arrive side k =>
    if k ≤ (inTransit L st side).length then
      ((st side).reader.step (.arrive ((inTransit L st side).take k))).map fun r =>
        Function.update st side { st side with reader := r, arrived := (st side).arrived + k }
    else none
  | .hangup side =>
    ((st side).reader.step .hangup).map fun r =>
      Function.update st side { st side with reader := r }
  | .complete side =>
    if (st side).ready then
      ((st side).reader.step .complete).map fun r =>
        Function.update st side { st side with reader := r }
    else none
  | .queue side n =>
    match (st side).buffers[(st side).handled]? with
    | none => none
    | some buffer =>
      (CGPBManagerV2.step (L.config side) (st side).manager
        (.recv n (.start (L.sock side) buffer))).map fun m =>
          Function.update st side
            { st side with manager := m, handled := (st side).handled + 1, call := some n }

end Steps

/-- A connection on which nothing has been sent, with the slots of both sides registered. -/
def create (nm : Side → CNetworkCommunicator) (announced : Side → SockIndex → Bool) :
    Duplex Packet := fun side =>
  ⟨CGPBManagerV2.create (nm side) (announced side) false, started [()] [()], 0, 0, none⟩

end Duplex

/-! ## Steps of the connection as steps of its parts -/

section Inversion

variable [DecidableEq ReqCode] [DecidableEq ResCode] {L : DuplexConfig Packet ReqCode ResCode}
  {st st' : Duplex Packet}

theorem manager_step {side : Side} {e : Event Packet}
    (h : Duplex.step L st (.manager side e) = some st') :
    ∃ m, receivesOn (L.sock side) e = false ∧
      CGPBManagerV2.step (L.config side) (st side).manager e = some m ∧
      st' = Function.update st side { st side with manager := m } := by
  simp only [Duplex.step] at h
  split at h
  · cases h
  · rename_i hother
    obtain ⟨m, hm, rfl⟩ := Option.map_eq_some_iff.mp h
    exact ⟨m, by simpa using hother, hm, rfl⟩

theorem arrive_step {side : Side} {k : Nat} (h : Duplex.step L st (.arrive side k) = some st') :
    ∃ r, k ≤ (Duplex.inTransit L st side).length ∧
      (st side).reader.step (.arrive ((Duplex.inTransit L st side).take k)) = some r ∧
      st' = Function.update st side
        { st side with reader := r, arrived := (st side).arrived + k } := by
  simp only [Duplex.step] at h
  split at h
  · rename_i hk
    obtain ⟨r, hr, rfl⟩ := Option.map_eq_some_iff.mp h
    exact ⟨r, hk, hr, rfl⟩
  · cases h

theorem hangup_step {side : Side} (h : Duplex.step L st (.hangup side) = some st') :
    ∃ r, (st side).reader.step .hangup = some r ∧
      st' = Function.update st side { st side with reader := r } := by
  obtain ⟨r, hr, rfl⟩ := Option.map_eq_some_iff.mp h
  exact ⟨r, hr, rfl⟩

theorem complete_step {side : Side} (h : Duplex.step L st (.complete side) = some st') :
    ∃ r, (st side).ready = true ∧ (st side).reader.step .complete = some r ∧
      st' = Function.update st side { st side with reader := r } := by
  simp only [Duplex.step] at h
  split at h
  · rename_i hready
    obtain ⟨r, hr, rfl⟩ := Option.map_eq_some_iff.mp h
    exact ⟨r, hready, hr, rfl⟩
  · cases h

theorem queue_step {side : Side} {n : Nat} (h : Duplex.step L st (.queue side n) = some st') :
    ∃ buffer m, (st side).buffers[(st side).handled]? = some buffer ∧
      CGPBManagerV2.step (L.config side) (st side).manager
        (.recv n (.start (L.sock side) buffer)) = some m ∧
      st' = Function.update st side
        { st side with manager := m, handled := (st side).handled + 1, call := some n } := by
  simp only [Duplex.step] at h
  split at h
  · cases h
  · rename_i buffer hb
    obtain ⟨m, hm, rfl⟩ := Option.map_eq_some_iff.mp h
    exact ⟨buffer, m, hb, hm, rfl⟩

end Inversion

/-! ## What grows -/

/-- Bytes on a wire stay there. -/
theorem wire_grows [DecidableEq ReqCode] [DecidableEq ResCode]
    {cfg : Config Packet ReqCode ResCode} {m m' : CGPBManagerV2 Packet} {e : Event Packet}
    (h : CGPBManagerV2.step cfg m e = some m') (s : Sock) : m.wire s <+: m'.wire s := by
  have hsame : ∀ {w : Sock → Bytes}, w = m.wire → m.wire s <+: w s := by
    rintro _ rfl
    exact List.prefix_refl _
  cases e with
  | send c a => exact hsame (sendStep_frame h).wire
  | sender a =>
    cases a with
    | test => obtain ⟨_, ⟨_, _, rfl⟩ | ⟨_, rfl⟩⟩ := senderTest_cases h <;> exact hsame rfl
    | pop =>
      obtain ⟨e, rest, _, _, rfl⟩ := senderPop_cases h
      exact hsame rfl
    | check =>
      obtain ⟨e, _, ⟨_, _, rfl⟩ | ⟨_, _, rfl⟩ | ⟨_, rfl⟩⟩ := senderCheck_cases h <;>
        exact hsame rfl
    | index => obtain ⟨e, _, ⟨_, rfl⟩ | ⟨_, rfl⟩⟩ := senderIndex_cases h <;> exact hsame rfl
    | record =>
      obtain ⟨e, i, _, ⟨f, _, rfl⟩ | ⟨_, rfl⟩⟩ := senderRecord_cases h <;> exact hsame rfl
    | write k =>
      obtain ⟨e, n, _, _, _, hcases⟩ := senderWrite_cases h
      have hmore : ∀ l, m.wire s <+: Function.update m.wire e.1 (m.wire e.1 ++ l) s := by
        intro l
        by_cases hs : s = e.1
        · subst hs
          rw [Function.update_self]
          exact List.prefix_append _ _
        · rw [Function.update_of_ne hs]
      rcases hcases with ⟨_, rfl⟩ | ⟨_, rfl⟩
      · exact hmore _
      · exact hmore _
    | writeError =>
      obtain ⟨e, n, _, rfl⟩ := senderWriteError_cases h
      exact hsame rfl
  | recv n a => exact hsame (recvStep_frame h).wire
  | dispatch d a => exact hsame (dispatchStep_frame h).wire
  | receivePacket i id =>
    cases h
    rcases receivePacket_cases m i id with heq | ⟨f, v, _, _, heq⟩
    · rw [heq]
    · rw [heq]
      exact hsame rfl
  | disconnect i =>
    cases h
    rcases disconnect_cases m i with heq | ⟨nm, _, heq⟩
    · rw [heq]
    · rw [heq]
      exact hsame rfl
  | setIsUseServerBusyWaiting b =>
    cases h
    exact hsame rfl

/-- A reader's calls stay made. -/
theorem calls_grow {Slot : Type} {s s' : CCommonSocket Slot} {e : NetEvent}
    (h : s.step e = some s') : s.calls <+: s'.calls := by
  cases e with
  | arrive chunk =>
    simp only [CCommonSocket.step] at h
    split at h <;> cases h
    exact List.prefix_refl _
  | hangup =>
    simp only [CCommonSocket.step] at h
    split at h <;> cases h
    exact List.prefix_refl _
  | complete =>
    simp only [CCommonSocket.step, complete, outstanding] at h
    split at h
    · cases h
    rename_i off n handler ho
    have hcalls : ∀ err t, t.calls = s.calls → s.calls <+: (handler err t).calls := by
      intro err t ht
      rw [← ht]
      split at ho <;> cases ho <;> cases err
      · exact List.prefix_refl _
      · exact List.prefix_append _ _
      · exact List.prefix_append _ _
      · exact List.prefix_append _ _
    split at h
    · cases h
      exact List.prefix_refl _
    split at h
    · cases h
      exact hcalls _ _ rfl
    split at h
    · cases h
      exact hcalls _ _ rfl
    · cases h

theorem buffers_grow {calls calls' : List (Call Unit)} (h : calls <+: calls') :
    buffersTo () calls <+: buffersTo () calls' := by
  obtain ⟨l, rfl⟩ := h
  rw [buffersTo_append]
  exact List.prefix_append _ _

/-- With the feature off, only a buffer received on a socket queues a packet of it. -/
theorem step_entries [DecidableEq ReqCode] [DecidableEq ResCode]
    {cfg : Config Packet ReqCode ResCode} {m m' : CGPBManagerV2 Packet} {e : Event Packet}
    (hw : Wire cfg m) {s : Sock} (hother : receivesOn s e = false)
    (h : CGPBManagerV2.step cfg m e = some m') :
    entriesOf (m'.log.delivered.map Prod.snd) s = entriesOf (m.log.delivered.map Prod.snd) s := by
  cases e with
  | send c a => rw [(sendStep_frame h).delivered]
  | sender a => rw [(senderStep_frame h).delivered]
  | recv n a =>
    cases a with
    | start r buffer =>
      have hr : r ≠ s := by simpa [receivesOn] using hother
      obtain ⟨_, ⟨_, rfl⟩ | ⟨p, _, ⟨_, _, rfl⟩ | ⟨_, _, rfl⟩ | ⟨_, rfl⟩⟩⟩ := recvStart_cases h
      · rfl
      · rfl
      · rfl
      · simp [entriesOf_singleton_ne hr]
    | store =>
      obtain ⟨r, p, i, hst, _⟩ := recvStore_cases h
      exact absurd hst (hw.handlers n r p i).1
    | locked =>
      obtain ⟨r, p, i, hl, _⟩ := recvLocked_cases h
      exact absurd hl (hw.handlers n r p i).2
  | dispatch d a => rw [(dispatchStep_frame h).delivered]
  | receivePacket i id =>
    cases h
    rcases receivePacket_cases m i id with heq | ⟨f, v, _, _, heq⟩ <;> rw [heq]
  | disconnect i =>
    cases h
    rcases disconnect_cases m i with heq | ⟨nm, _, heq⟩ <;> rw [heq]
    rfl
  | setIsUseServerBusyWaiting b =>
    cases h
    rfl

/-- With the feature off, a buffer that parses is queued at once. -/
theorem recvStart_entries [DecidableEq ResCode] {cfg : Config Packet ReqCode ResCode}
    {m m' : CGPBManagerV2 Packet} {n : Nat} {s : Sock} {buffer : Bytes} (hw : Wire cfg m)
    (h : recvStart cfg m n s buffer = some m') :
    entriesOf (m'.log.delivered.map Prod.snd) s = entriesOf (m.log.delivered.map Prod.snd) s ++
      (cfg.traits.ParseFromArray (parseRegion buffer)).toList := by
  obtain ⟨_, ⟨hp, rfl⟩ | ⟨p, hp, ⟨hon, _, _⟩ | ⟨hon, _, _⟩ | ⟨_, rfl⟩⟩⟩ := recvStart_cases h
  · simp [hp]
  · rw [hw.off] at hon
    cases hon
  · rw [hw.off] at hon
    cases hon
  · simp [hp]

/-! ## One direction of the connection -/

/-- The packets of the connection that the manager of `side` has queued, in order. -/
def Duplex.delivered (L : DuplexConfig Packet ReqCode ResCode) (st : Duplex Packet) (side : Side) :
    List Packet :=
  entriesOf ((st side).manager.log.delivered.map Prod.snd) (L.sock side)

/-- The packets that the manager of `side` has accepted for the connection, in order. -/
def Duplex.accepted (L : DuplexConfig Packet ReqCode ResCode) (st : Duplex Packet) (side : Side) :
    List Packet :=
  enqueuedFor (st side).manager (L.sock side)

/-- The bytes that have arrived at `side`. -/
def Duplex.received (L : DuplexConfig Packet ReqCode ResCode) (st : Duplex Packet) (side : Side) :
    Bytes :=
  ((st side.peer).manager.wire (L.sock side.peer)).take (st side).arrived

/-- The invariant of the direction that ends at `side`. -/
structure Flow (L : DuplexConfig Packet ReqCode ResCode) (st : Duplex Packet) (side : Side) :
    Prop where
  wire : Wire (L.config side) (st side).manager
  arrived_le : (st side).arrived ≤ ((st side.peer).manager.wire (L.sock side.peer)).length
  reads : ∃ evs, run CCommonSocket.step (started [()] [()]) evs = some (st side).reader ∧
    CCommonSocket.arrivals evs = Duplex.received L st side
  handled_le : (st side).handled ≤ (st side).buffers.length
  queued : Duplex.delivered L st side = ((st side).buffers.take (st side).handled).filterMap
    fun buffer => L.traits.ParseFromArray (parseRegion buffer)

variable {L : DuplexConfig Packet ReqCode ResCode} {st st' : Duplex Packet}

theorem create_flow (nm : Side → CNetworkCommunicator) (announced : Side → SockIndex → Bool)
    (side : Side) : Flow L (Duplex.create nm announced) side := by
  refine ⟨create_wire _ _, Nat.le_refl _, ⟨[], rfl, ?_⟩, Nat.le_refl _, rfl⟩
  simp [Duplex.received, Duplex.create, CCommonSocket.arrivals]

/-- A step of one side leaves the direction that ends at the other as it was. -/
theorem flow_update {side : Side} {p : Endpoint Packet} (hf : ∀ s, Flow L st s)
    (hown : Flow L (Function.update st side p) side)
    (hwire : (st side).manager.wire (L.sock side) <+: p.manager.wire (L.sock side)) (s : Side) :
    Flow L (Function.update st side p) s := by
  by_cases hs : s = side
  · subst hs
    exact hown
  -- the peer of the other side is this one
  obtain rfl : s.peer = side := by
    cases s <;> cases side <;> first | rfl | exact absurd rfl hs
  have hsame : Function.update st s.peer p s = st s := Function.update_of_ne hs _ _
  have hnew : Function.update st s.peer p s.peer = p := Function.update_self ..
  obtain ⟨h1, h2, h3, h4, h5⟩ := hf s
  obtain ⟨l, hl⟩ := hwire
  refine ⟨by rwa [hsame], ?_, ?_, by rwa [hsame], by unfold Duplex.delivered; rwa [hsame]⟩
  · rw [hsame, hnew, ← hl, List.length_append]
    exact Nat.le_add_right_of_le h2
  · have hreceived :
        Duplex.received L (Function.update st s.peer p) s = Duplex.received L st s := by
      unfold Duplex.received
      rw [hsame, hnew, ← hl, List.take_append_of_le_length h2]
    rw [hsame, hreceived]
    exact h3

/-- The reader of a side makes a step on `bytes`, which may be none. -/
theorem Flow.reader_moves {side : Side} {e : NetEvent} {r : CCommonSocket Unit} {k : Nat}
    (hf : Flow L st side) (hr : (st side).reader.step e = some r)
    (hle : (st side).arrived + k ≤ ((st side.peer).manager.wire (L.sock side.peer)).length)
    (hbytes : e.bytes = (Duplex.inTransit L st side).take k) :
    Flow L (Function.update st side { st side with reader := r, arrived := (st side).arrived + k })
      side := by
  obtain ⟨h1, h2, ⟨evs, hrun, harr⟩, h4, h5⟩ := hf
  have hpeer : Function.update st side
      { st side with reader := r, arrived := (st side).arrived + k } side.peer = st side.peer :=
    Function.update_of_ne side.peer_ne _ _
  obtain ⟨more, hmore⟩ : buffersTo () (st side).reader.calls <+: buffersTo () r.calls :=
    buffers_grow (calls_grow hr)
  refine ⟨?_, ?_, ⟨evs ++ [e], ?_, ?_⟩, ?_, ?_⟩
  · simpa using h1
  · simpa [hpeer] using hle
  · rw [Function.update_self]
    exact run_snoc.mpr ⟨_, hrun, hr⟩
  · rw [arrivals_snoc, harr, hbytes]
    unfold Duplex.received Duplex.inTransit
    rw [hpeer, Function.update_self, List.take_add]
  · simp only [Function.update_self, Endpoint.buffers] at h4 ⊢
    rw [← hmore, List.length_append]
    exact Nat.le_add_right_of_le h4
  · simp only [Duplex.delivered, Function.update_self, Endpoint.buffers] at h4 h5 ⊢
    rw [h5, ← hmore, List.take_append_of_le_length h4]

/-- The manager of a side makes a step that no buffer of the connection causes. -/
theorem Flow.manager_moves [DecidableEq ReqCode] [DecidableEq ResCode] {side : Side}
    {e : Event Packet} {m : CGPBManagerV2 Packet} (hf : Flow L st side) (he : FeatureOff e)
    (hother : receivesOn (L.sock side) e = false)
    (hm : CGPBManagerV2.step (L.config side) (st side).manager e = some m) :
    Flow L (Function.update st side { st side with manager := m }) side := by
  obtain ⟨h1, h2, h3, h4, h5⟩ := hf
  have hpeer : Function.update st side { st side with manager := m } side.peer = st side.peer :=
    Function.update_of_ne side.peer_ne _ _
  have hentries := step_entries h1 hother hm
  refine ⟨?_, ?_, ?_, ?_, ?_⟩
  · rw [Function.update_self]
    exact step_wire h1 he hm
  · rw [Function.update_self, hpeer]
    exact h2
  · unfold Duplex.received
    rw [Function.update_self, hpeer]
    exact h3
  · rw [Function.update_self]
    exact h4
  · unfold Duplex.delivered at h5 ⊢
    rw [Function.update_self, hentries, h5]
    rfl

/-- The message slot is called with the next buffer. -/
theorem Flow.queue_moves [DecidableEq ReqCode] [DecidableEq ResCode] {side : Side} {n : Nat}
    {buffer : Bytes} {m : CGPBManagerV2 Packet} (hf : Flow L st side)
    (hb : (st side).buffers[(st side).handled]? = some buffer)
    (hm : recvStart (L.config side) (st side).manager n (L.sock side) buffer = some m) :
    Flow L (Function.update st side
      { st side with manager := m, handled := (st side).handled + 1, call := some n }) side := by
  obtain ⟨h1, h2, h3, h4, h5⟩ := hf
  have hpeer : Function.update st side
      { st side with manager := m, handled := (st side).handled + 1, call := some n } side.peer =
        st side.peer := Function.update_of_ne side.peer_ne _ _
  obtain ⟨hlt, hget⟩ := List.getElem?_eq_some_iff.mp hb
  have hentries := recvStart_entries h1 hm
  refine ⟨?_, ?_, ?_, ?_, ?_⟩
  · rw [Function.update_self]
    exact recvStep_wire (a := .start (L.sock side) buffer) h1 hm
  · rw [Function.update_self, hpeer]
    exact h2
  · unfold Duplex.received
    rw [Function.update_self, hpeer]
    exact h3
  · rw [Function.update_self]
    exact hlt
  · unfold Duplex.delivered at h5 ⊢
    rw [Function.update_self, hentries, h5]
    show _ = List.filterMap _ ((st side).buffers.take ((st side).handled + 1))
    rw [List.take_add_one, hb, List.filterMap_append]
    cases hparse : L.traits.ParseFromArray (parseRegion buffer) <;>
      simp [DuplexConfig.config, hparse]

/-! ## Runs -/

/-- The SERVER_BUSY feature stays off on both sides and no write fails. -/
def DuplexEvent.FeatureOff : DuplexEvent Packet → Prop
  | .manager _ e => IMonPlatform.FeatureOff e
  | _ => True

section Runs

variable [DecidableEq ReqCode] [DecidableEq ResCode]

/-- **A step keeps both directions in order.** -/
theorem step_flow {e : DuplexEvent Packet} (hf : ∀ side, Flow L st side) (he : e.FeatureOff)
    (h : Duplex.step L st e = some st') (side : Side) : Flow L st' side := by
  cases e with
  | manager s e =>
    obtain ⟨m, hother, hm, rfl⟩ := manager_step h
    exact flow_update hf ((hf s).manager_moves he hother hm) (wire_grows hm _) side
  | arrive s k =>
    obtain ⟨r, hk, hr, rfl⟩ := arrive_step h
    have harrived := (hf s).arrived_le
    rw [Duplex.inTransit, List.length_drop] at hk
    have hown := (hf s).reader_moves hr (by omega) rfl
    exact flow_update hf hown (List.prefix_refl _) side
  | hangup s =>
    obtain ⟨r, hr, rfl⟩ := hangup_step h
    have hown := (hf s).reader_moves (k := 0) hr (hf s).arrived_le rfl
    exact flow_update hf hown (List.prefix_refl _) side
  | complete s =>
    obtain ⟨r, _, hr, rfl⟩ := complete_step h
    have hown := (hf s).reader_moves (k := 0) hr (hf s).arrived_le rfl
    exact flow_update hf hown (List.prefix_refl _) side
  | queue s n =>
    obtain ⟨buffer, m, hb, hm, rfl⟩ := queue_step h
    exact flow_update hf ((hf s).queue_moves hb hm) (wire_grows hm _) side

/-- **Both directions stay in order along every run** with the feature off. -/
theorem run_flow {nm : Side → CNetworkCommunicator} {announced : Side → SockIndex → Bool}
    {es : List (DuplexEvent Packet)} (hoff : ∀ e ∈ es, e.FeatureOff)
    (h : run (Duplex.step L) (Duplex.create nm announced) es = some st) (side : Side) :
    Flow L st side := by
  refine run_preserves (I := fun st => ∀ side, Flow L st side) (C := fun _ e => e.FeatureOff)
    (fun _ _ _ hi hc hs => step_flow hi hc hs) es _ st (create_flow nm announced)
    (meets_of_forall es _ (fun e he _ => hoff e he)) h side

end Runs

end IMonPlatform
