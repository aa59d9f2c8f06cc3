import Mathlib.Logic.Function.Basic
import IMonPlatform.Lib.Transition
import IMonPlatform.Net.Communicator

/-!
# `CGPBManagerV2` as a system of concurrent parties

The parties are the threads in `sendPacket`, the one `dispatchSendMessage` thread, the I/O threads
in `queuePacketFromDataBuffer`, the `dispatchReceiveMessage` threads and the callers of
`receivePacket`.  A step is what a party does between two accesses to shared data: a queue
operation, a flag, a locked section, a lookup in the registry, a part of a socket write.  A run is
any interleaving of steps.

A run starts with an arbitrary registry and arbitrary announced connections (the indices for which
`receiveNewConnection` has made a map in `_mapSocketToSendedPacket`), so in every situation that
connecting and accepting can have produced; connections may be lost during the run.

* `CGPTraits` — what the manager uses of the packet type; the packet type is a parameter of the
  source too.
* `CGPBManagerV2` — shared data, program counters and a history of what happened (`History`),
  which no step reads.
* `sendStart`, `senderPop`, `recvLocked`, `dispatchStore`, … — what a party does in one step.
* `step` — one step of any party; `none` when the party cannot make it.
* `SamplePacket` — a packet type with bytes, to run the model on.
-/

set_option autoImplicit false

namespace IMonPlatform

open Framing CNetworkCommunicator

/-- The packet type with what the template parameter `TyTraits` provides.  Message codes are the
    `int32` fields of the packet; a packet's size is an `int`. -/
structure CGPTraits (Packet ReqCode ResCode : Type) where
  msgid : Packet → Int
  set_msgid : Packet → Int → Packet
  reqcode : Packet → ReqCode
  rescode : Packet → ResCode
  REQ_NONE : ReqCode
  RES_NONE : ResCode
  SerializeToArray : Packet → Bytes
  ParseFromArray : Bytes → Option Packet
  msgid_set_msgid : ∀ p m, msgid (set_msgid p m) = m
  byteSize_lt : ∀ p, (SerializeToArray p).length < 2 ^ 31

/-- What is fixed while the manager runs: message slots cannot be changed once registered. -/
structure Config (Packet ReqCode ResCode : Type) where
  traits : CGPTraits Packet ReqCode ResCode
  resCodeServerBusy : ResCode
  /-- Keys of `_mapRequestToSlot`. -/
  mapRequestToSlot : ReqCode → Bool
  /-- Keys of `_mapResponseToSlot`. -/
  mapResponseToSlot : ResCode → Bool

/-! ## Program counters -/

/-- A thread in `sendPacket`; the packet is the caller's own object. -/
inductive CallPc (Packet : Type) where
  | idle
  | assign (sendSocket : Sock) (packet : Packet) (autoAssignMsgID : Bool)
  | push (sendSocket : Sock) (packet : Packet)
  | ret (packet : Packet)
  | done (result : Int)

/-- The thread in `dispatchSendMessage`. -/
inductive SenderPc (Packet : Type) where
  /-- Before the first test of `_isBusy`. -/
  | loop
  /-- In `_outgoingQueue.pop`. -/
  | pop
  /-- Serialised, before the second test of `_isBusy`. -/
  | popped (packetData : Sock × Packet)
  /-- Before `getSocketIndex`. -/
  | index (packetData : Sock × Packet)
  /-- Before the section under `_lckSendQueue`. -/
  | record (packetData : Sock × Packet) (socketIndex : SockIndex)
  /-- Writing; `written` bytes of the buffer are on the wire. -/
  | write (packetData : Sock × Packet) (written : Nat)

/-- A thread in `queuePacketFromDataBuffer`. -/
inductive HandlerPc (Packet : Type) where
  | idle
  /-- Before the store to `_isBusy`. -/
  | store (receivedSocket : Sock) (receivedPacket : Packet) (socketIndex : SockIndex)
  /-- Before the section under `_lckSendQueue`. -/
  | locked (receivedSocket : Sock) (receivedPacket : Packet) (socketIndex : SockIndex)
  /-- Returned: the bytes did not parse. -/
  | unparsed
  /-- Returned: the feature was off. -/
  | passed (receivedSocket : Sock) (receivedPacket : Packet)
  /-- Returned: the index found for the socket is not positive, whether the socket was registered
      (`registered`) or not. -/
  | ignored (receivedSocket : Sock) (receivedPacket : Packet) (registered : Bool)
  /-- Returned from the locked section, with the record it found. -/
  | finished (receivedSocket : Sock) (receivedPacket : Packet) (recorded : Option Packet)
  /-- The iterator `_mapSocketToSendedPacket.end()` was dereferenced. -/
  | crashed (receivedSocket : Sock) (receivedPacket : Packet)

/-- A thread in `dispatchReceiveMessage`; the number is the position of the packet among all
    packets taken from `_incomingQueue`. -/
inductive DispatchPc (Packet : Type) where
  | loop
  | popped (position : Nat) (packetData : Sock × Packet)
  /-- Before the section under `_lckQueue`. -/
  | store (position : Nat) (socketIndex : SockIndex) (packetData : Sock × Packet)
  /-- Waiting for its own `sendPacket` call of the slot's answer. -/
  | calling (call : Nat)

/-! ## State -/

/-- What happened so far. -/
structure History (Packet : Type) where
  /-- Packets pushed by `sendPacket`, with the call. -/
  enqueued : List (Nat × Sock × Packet)
  /-- Requests pushed back by `queuePacketFromDataBuffer`, with the call. -/
  requeued : List (Nat × Sock × Packet)
  /-- Packets pushed to `_incomingQueue`, with the call. -/
  delivered : List (Nat × Sock × Packet)
  /-- Recorded requests for which a reply other than the busy code was handled. -/
  answered : List (Sock × Packet)
  /-- Packets written completely. -/
  written : List (Sock × Packet)
  /-- Number of packets taken from `_incomingQueue`. -/
  taken : Nat
  /-- Packets without a slot, when their socket was looked up, with whether it was registered. -/
  lookedUp : List (Nat × Bool × Sock × Packet)
  /-- Those of them that were kept, with the index found for their socket. -/
  dispatched : List (Nat × SockIndex × Sock × Packet)
  /-- Successful `receivePacket` calls, with what they returned. -/
  returned : List ((SockIndex × Int) × Packet)

structure CGPBManagerV2 (Packet : Type) where
  networkManager : CNetworkCommunicator
  globalMessageID : Int
  outgoingQueue : List (Sock × Packet)
  incomingQueue : List (Sock × Packet)
  isBusy : Bool
  isUseWaitingWhenServerBusy : Bool
  mapSocketToSendedPacket : SockIndex → Option (Int → Option Packet)
  mapSocketToResPacket : SockIndex → Option (Int → Option (Int × Packet))
  /-- The sender's `writeBuffer`. -/
  writeBuffer : Bytes
  /-- Bytes written to each socket. -/
  wire : Sock → Bytes
  calls : Nat → CallPc Packet
  sender : SenderPc Packet
  handlers : Nat → HandlerPc Packet
  dispatchers : Nat → DispatchPc Packet
  log : History Packet

variable {Packet ReqCode ResCode : Type}

namespace CGPBManagerV2

/-- A manager whose communicator and announced connections are given, before any traffic. -/
def create (networkManager : CNetworkCommunicator) (announced : SockIndex → Bool)
    (isUse : Bool) : CGPBManagerV2 Packet where
  networkManager := networkManager
  globalMessageID := 0
  outgoingQueue := []
  incomingQueue := []
  isBusy := false
  isUseWaitingWhenServerBusy := isUse
  mapSocketToSendedPacket := fun i => if announced i then some (fun _ => none) else none
  mapSocketToResPacket := fun _ => none
  writeBuffer := []
  wire := fun _ => []
  calls := fun _ => .idle
  sender := .loop
  handlers := fun _ => .idle
  dispatchers := fun _ => .loop
  log := ⟨[], [], [], [], [], 0, [], [], []⟩

/-- The record of a sent packet. -/
def sended (m : CGPBManagerV2 Packet) (i : SockIndex) (id : Int) : Option Packet :=
  (m.mapSocketToSendedPacket i).bind (· id)

/-- A stored response. -/
def resPacket (m : CGPBManagerV2 Packet) (i : SockIndex) (id : Int) : Option (Int × Packet) :=
  (m.mapSocketToResPacket i).bind (· id)

@[simp] def setCall (m : CGPBManagerV2 Packet) (c : Nat) (pc : CallPc Packet) :
    CGPBManagerV2 Packet :=
  { m with calls := Function.update m.calls c pc }

@[simp] def setHandler (m : CGPBManagerV2 Packet) (h : Nat) (pc : HandlerPc Packet) :
    CGPBManagerV2 Packet :=
  { m with handlers := Function.update m.handlers h pc }

@[simp] def setDispatcher (m : CGPBManagerV2 Packet) (d : Nat) (pc : DispatchPc Packet) :
    CGPBManagerV2 Packet :=
  { m with dispatchers := Function.update m.dispatchers d pc }

/-- `_outgoingQueue.push` by `sendPacket` call `c`. -/
@[simp] def pushOutgoing (m : CGPBManagerV2 Packet) (c : Nat) (e : Sock × Packet) :
    CGPBManagerV2 Packet :=
  { m with
    outgoingQueue := m.outgoingQueue ++ [e]
    log := { m.log with enqueued := m.log.enqueued ++ [(c, e)] } }

/-- `_outgoingQueue.push` by `queuePacketFromDataBuffer` call `h`. -/
@[simp] def requeue (m : CGPBManagerV2 Packet) (h : Nat) (e : Sock × Packet) :
    CGPBManagerV2 Packet :=
  { m with
    outgoingQueue := m.outgoingQueue ++ [e]
    log := { m.log with requeued := m.log.requeued ++ [(h, e)] } }

/-- `_incomingQueue.push` by `queuePacketFromDataBuffer` call `h`. -/
@[simp] def pushIncoming (m : CGPBManagerV2 Packet) (h : Nat) (e : Sock × Packet) :
    CGPBManagerV2 Packet :=
  { m with
    incomingQueue := m.incomingQueue ++ [e]
    log := { m.log with delivered := m.log.delivered ++ [(h, e)] } }

/-- A packet without a slot has been looked up. -/
@[simp] def noteLookup (m : CGPBManagerV2 Packet) (n : Nat) (e : Sock × Packet) :
    CGPBManagerV2 Packet :=
  { m with log := { m.log with
      lookedUp := m.log.lookedUp ++ [(n, m.networkManager.isRegistered e.1, e)] } }

/-- A packet without a slot is kept for `receivePacket`. -/
@[simp] def noteDispatch (m : CGPBManagerV2 Packet) (n : Nat) (i : SockIndex)
    (e : Sock × Packet) : CGPBManagerV2 Packet :=
  { m with log := { m.log with dispatched := m.log.dispatched ++ [(n, i, e)] } }

/-- Replace the map of sent packets of an index. -/
@[simp] def setSended (m : CGPBManagerV2 Packet) (i : SockIndex)
    (f : Option (Int → Option Packet)) : CGPBManagerV2 Packet :=
  { m with mapSocketToSendedPacket := Function.update m.mapSocketToSendedPacket i f }

/-- Replace the map of responses of an index. -/
@[simp] def setResPacket (m : CGPBManagerV2 Packet) (i : SockIndex)
    (f : Int → Option (Int × Packet)) : CGPBManagerV2 Packet :=
  { m with mapSocketToResPacket := Function.update m.mapSocketToResPacket i (some f) }

/-- How `sendPacket` is given its socket. -/
inductive Target where
  | index (socketIndex : SockIndex)
  /-- A `tySpCommonSocket`, possibly null. -/
  | socket (sendSocket : Option Sock)

/-! ## `sendPacket` -/

section Send

variable (cfg : Config Packet ReqCode ResCode)

/-- Call `c` begins.  The overload that takes a message id stores it in the packet first and then
    behaves as `autoAssignMsgID = false`. -/
def sendStart (m : CGPBManagerV2 Packet) (c : Nat) (target : Target) (packet : Packet)
    (autoAssignMsgID : Bool) : Option (CGPBManagerV2 Packet) :=
  match m.calls c, target with
  | .idle, .index i =>
    if i ≤ 0 then some (m.setCall c (.done (-1)))
    else some ({ m with networkManager := (m.networkManager.getSocket i).2 }.setCall c
      (.assign (m.networkManager.getSocket i).1 packet autoAssignMsgID))
  | .idle, .socket none => some (m.setCall c (.done (-1)))
  | .idle, .socket (some s) => some (m.setCall c (.assign s packet autoAssignMsgID))
  | _, _ => none

/-- The message id is taken from the global counter and stored in the caller's packet. -/
def sendAssign (m : CGPBManagerV2 Packet) (c : Nat) : Option (CGPBManagerV2 Packet) :=
  match m.calls c with
  | .assign s p true =>
    some ({ m with globalMessageID := interlockedIncrement m.globalMessageID }.setCall c
      (.push s (cfg.traits.set_msgid p (interlockedIncrement m.globalMessageID))))
  | .assign s p false => some (m.setCall c (.push s p))
  | _ => none

def sendPush (m : CGPBManagerV2 Packet) (c : Nat) : Option (CGPBManagerV2 Packet) :=
  match m.calls c with
  | .push s p => some ((m.pushOutgoing c (s, p)).setCall c (.ret p))
  | _ => none

def sendReturn (m : CGPBManagerV2 Packet) (c : Nat) : Option (CGPBManagerV2 Packet) :=
  match m.calls c with
  | .ret p => some (m.setCall c (.done (cfg.traits.msgid p)))
  | _ => none

end Send

/-! ## `dispatchSendMessage` -/

section Sender

variable (cfg : Config Packet ReqCode ResCode)

/-- The first busy test; a busy sender sleeps for the interval and tests again. -/
def senderTest (m : CGPBManagerV2 Packet) : Option (CGPBManagerV2 Packet) :=
  match m.sender with
  | .loop =>
    if m.isUseWaitingWhenServerBusy && m.isBusy then some m
    else some { m with sender := .pop }
  | _ => none

/-- A packet is taken and serialised into the write buffer. -/
def senderPop (m : CGPBManagerV2 Packet) : Option (CGPBManagerV2 Packet) :=
  match m.sender, m.outgoingQueue with
  | .pop, e :: rest => some { m with
      outgoingQueue := rest
      writeBuffer := writeFrame m.writeBuffer (cfg.traits.SerializeToArray e.2)
      sender := .popped e }
  | _, _ => none

/-- The second busy test; `continue` leaves the packet in a variable that is overwritten next. -/
def senderCheck (m : CGPBManagerV2 Packet) : Option (CGPBManagerV2 Packet) :=
  match m.sender with
  | .popped e =>
    if m.isUseWaitingWhenServerBusy then
      if m.isBusy then some { m with sender := .loop } else some { m with sender := .index e }
    else some { m with sender := .write e 0 }
  | _ => none

def senderIndex (m : CGPBManagerV2 Packet) : Option (CGPBManagerV2 Packet) :=
  match m.sender with
  | .index e =>
    if 0 < m.networkManager.getSocketIndex e.1 then
      some { m with sender := .record e (m.networkManager.getSocketIndex e.1) }
    else some { m with sender := .write e 0 }
  | _ => none

/-- `unordered_map::insert`: an existing entry stays. -/
def insertNew {β : Type} (f : Int → Option β) (id : Int) (v : β) : Int → Option β :=
  match f id with
  | none => Function.update f id (some v)
  | some _ => f

def senderRecord (m : CGPBManagerV2 Packet) : Option (CGPBManagerV2 Packet) :=
  match m.sender with
  | .record e i =>
    match m.mapSocketToSendedPacket i with
    | some f => some { m.setSended i (some (insertNew f (cfg.traits.msgid e.2) e.2)) with
        sender := .write e 0 }
    | none => some { m with sender := .write e 0 }
  | _ => none

/-- The socket takes `k` further bytes of the buffer. -/
def senderWrite (m : CGPBManagerV2 Packet) (k : Nat) : Option (CGPBManagerV2 Packet) :=
  match m.sender with
  | .write e n =>
    if 0 < k ∧ n + k ≤ m.writeBuffer.length then
      some { m with
        wire := Function.update m.wire e.1 (m.wire e.1 ++ (m.writeBuffer.drop n).take k)
        sender := if n + k = m.writeBuffer.length then .loop else .write e (n + k)
        log := if n + k = m.writeBuffer.length then
          { m.log with written := m.log.written ++ [e] } else m.log }
    else none
  | _ => none

/-- The write ends with an error, which is logged and forgotten. -/
def senderWriteError (m : CGPBManagerV2 Packet) : Option (CGPBManagerV2 Packet) :=
  match m.sender with
  | .write _ _ => some { m with sender := .loop }
  | _ => none

end Sender

/-! ## `queuePacketFromDataBuffer` -/

section Receive

variable [DecidableEq ResCode] (cfg : Config Packet ReqCode ResCode)

/-- Is this the reply that announces a busy server? -/
def isBusyReply (p : Packet) : Bool := decide (cfg.traits.rescode p = cfg.resCodeServerBusy)

/-- Parse, test the feature and look the socket up. -/
def recvStart (m : CGPBManagerV2 Packet) (h : Nat) (receivedSocket : Sock) (dataBuffer : Bytes) :
    Option (CGPBManagerV2 Packet) :=
  match m.handlers h with
  | .idle =>
    match cfg.traits.ParseFromArray (parseRegion dataBuffer) with
    | none => some (m.setHandler h .unparsed)
    | some p =>
      if m.isUseWaitingWhenServerBusy then
        if m.networkManager.getSocketIndex receivedSocket ≤ 0 then
          some (m.setHandler h
            (.ignored receivedSocket p (m.networkManager.isRegistered receivedSocket)))
        else
          some (m.setHandler h
            (.store receivedSocket p (m.networkManager.getSocketIndex receivedSocket)))
      else
        some ((m.pushIncoming h (receivedSocket, p)).setHandler h (.passed receivedSocket p))
  | _ => none

/-- The store to `_isBusy`. -/
def recvStore (m : CGPBManagerV2 Packet) (h : Nat) : Option (CGPBManagerV2 Packet) :=
  match m.handlers h with
  | .store s p i => some ({ m with isBusy := isBusyReply cfg p }.setHandler h (.locked s p i))
  | _ => none

/-- Enter a recorded request in the history when this reply answers it. -/
def noteAnswer (m : CGPBManagerV2 Packet) (s : Sock) (p q : Packet) : CGPBManagerV2 Packet :=
  if isBusyReply cfg p then m
  else { m with log := { m.log with answered := m.log.answered ++ [(s, q)] } }

/-- The section under `_lckSendQueue`, which reads `_isBusy` again. -/
def recvLocked (m : CGPBManagerV2 Packet) (h : Nat) : Option (CGPBManagerV2 Packet) :=
  match m.handlers h with
  | .locked s p i =>
    match m.mapSocketToSendedPacket i with
    | none => some (m.setHandler h (.crashed s p))
    | some f =>
      match f (cfg.traits.msgid p) with
      | none => some (m.setHandler h (.finished s p none))
      | some q =>
        some ((noteAnswer cfg
          ((if m.isBusy then m.requeue h (s, q) else m.pushIncoming h (s, p)).setSended i
            (some (Function.update f (cfg.traits.msgid p) none))) s p q).setHandler h
          (.finished s p (some q)))
  | _ => none

end Receive

/-! ## `dispatchReceiveMessage` and `receivePacket` -/

section Dispatch

variable [DecidableEq ReqCode] [DecidableEq ResCode] (cfg : Config Packet ReqCode ResCode)

/-- Is a message slot registered for the packet? -/
def isProcess (p : Packet) : Bool :=
  if cfg.traits.reqcode p ≠ cfg.traits.REQ_NONE then cfg.mapRequestToSlot (cfg.traits.reqcode p)
  else if cfg.traits.rescode p ≠ cfg.traits.RES_NONE then
    cfg.mapResponseToSlot (cfg.traits.rescode p)
  else false

def dispatchPop (m : CGPBManagerV2 Packet) (d : Nat) : Option (CGPBManagerV2 Packet) :=
  match m.dispatchers d, m.incomingQueue with
  | .loop, e :: rest => some ({ m with
      incomingQueue := rest
      log := { m.log with taken := m.log.taken + 1 } }.setDispatcher d (.popped m.log.taken e))
  | _, _ => none

/-- A packet with a slot goes to the slot, whose `result` may be an answer to send by a new
    `sendPacket` call; any other packet is looked up in the registry, and thrown away when the
    index found is not positive. -/
def dispatchMessage (m : CGPBManagerV2 Packet) (d : Nat) (result : Packet × Bool) (call : Nat) :
    Option (CGPBManagerV2 Packet) :=
  match m.dispatchers d with
  | .popped n e =>
    if isProcess cfg e.2 then
      if result.2 then
        match m.calls call with
        | .idle => some ((m.setCall call (.assign e.1
            (cfg.traits.set_msgid result.1 (cfg.traits.msgid result.1)) false)).setDispatcher d
              (.calling call))
        | _ => none
      else some (m.setDispatcher d .loop)
    else if 0 < m.networkManager.getSocketIndex e.1 then
      let socketIndex := m.networkManager.getSocketIndex e.1
      some (((m.noteLookup n e).noteDispatch n socketIndex e).setDispatcher d
        (.store n socketIndex e))
    else some ((m.noteLookup n e).setDispatcher d .loop)
  | _ => none

/-- The `sendPacket` call of the slot's answer has returned. -/
def dispatchReturn (m : CGPBManagerV2 Packet) (d : Nat) : Option (CGPBManagerV2 Packet) :=
  match m.dispatchers d with
  | .calling c =>
    match m.calls c with
    | .done _ => some (m.setDispatcher d .loop)
    | _ => none
  | _ => none

/-- The section under `_lckQueue`. -/
def dispatchStore (m : CGPBManagerV2 Packet) (d : Nat) (time : Int) :
    Option (CGPBManagerV2 Packet) :=
  match m.dispatchers d with
  | .store _ i e =>
    some ((m.setResPacket i (insertNew ((m.mapSocketToResPacket i).getD (fun _ => none))
      (cfg.traits.msgid e.2) (time, e.2))).setDispatcher d .loop)
  | _ => none

/-- `receivePacket`, which fails without effect or takes the stored packet. -/
def receivePacket (m : CGPBManagerV2 Packet) (socketIndex : SockIndex) (msgID : Int) :
    CGPBManagerV2 Packet :=
  if socketIndex ≤ 0 then m
  else if msgID < 0 then m
  else
    match m.mapSocketToResPacket socketIndex with
    | none => m
    | some f =>
      match f msgID with
      | none => m
      | some v => { m.setResPacket socketIndex (Function.update f msgID none) with
          log := { m.log with returned := m.log.returned ++ [((socketIndex, msgID), v.2)] } }

end Dispatch

/-- `disconnect`, by a caller or after the peer's close: the registration goes, then
    `receiveDisconnection` deletes the map of sent packets. -/
def disconnect (m : CGPBManagerV2 Packet) (i : SockIndex) : CGPBManagerV2 Packet :=
  if i ∈ m.networkManager.mapIndexToSocket then
    { m.setSended i none with
      networkManager := (CNetworkCommunicator.getSocket { m.networkManager with
        mapIndexToSocket := m.networkManager.mapIndexToSocket.erase i } i).2 }
  else m

/-! ## Steps -/

/-- Steps of a thread in `sendPacket`. -/
inductive SendAct (Packet : Type) where
  | start (target : Target) (packet : Packet) (autoAssignMsgID : Bool)
  | assign
  | push
  | ret

/-- Steps of `dispatchSendMessage`. -/
inductive SenderAct where
  | test
  | pop
  | check
  | index
  | record
  | write (k : Nat)
  | writeError

/-- Steps of a thread in `queuePacketFromDataBuffer`. -/
inductive RecvAct where
  | start (receivedSocket : Sock) (dataBuffer : Bytes)
  | store
  | locked

/-- Steps of a thread in `dispatchReceiveMessage`. -/
inductive DispatchAct (Packet : Type) where
  | pop
  | message (result : Packet × Bool) (call : Nat)
  | ret
  | store (time : Int)

/-- A step with the party that makes it. -/
inductive Event (Packet : Type) where
  | send (c : Nat) (a : SendAct Packet)
  | sender (a : SenderAct)
  | recv (n : Nat) (a : RecvAct)
  | dispatch (d : Nat) (a : DispatchAct Packet)
  | receivePacket (socketIndex : SockIndex) (msgID : Int)
  | disconnect (socketIndex : SockIndex)
  | setIsUseServerBusyWaiting (isUse : Bool)

def sendStep (cfg : Config Packet ReqCode ResCode) (m : CGPBManagerV2 Packet) (c : Nat) :
    SendAct Packet → Option (CGPBManagerV2 Packet)
  | .start target packet auto => sendStart m c target packet auto
  | .assign => sendAssign cfg m c
  | .push => sendPush m c
  | .ret => sendReturn cfg m c

def senderStep (cfg : Config Packet ReqCode ResCode) (m : CGPBManagerV2 Packet) :
    SenderAct → Option (CGPBManagerV2 Packet)
  | .test => senderTest m
  | .pop => senderPop cfg m
  | .check => senderCheck m
  | .index => senderIndex m
  | .record => senderRecord cfg m
  | .write k => senderWrite m k
  | .writeError => senderWriteError m

def recvStep [DecidableEq ResCode] (cfg : Config Packet ReqCode ResCode)
    (m : CGPBManagerV2 Packet) (n : Nat) : RecvAct → Option (CGPBManagerV2 Packet)
  | .start s buffer => recvStart cfg m n s buffer
  | .store => recvStore cfg m n
  | .locked => recvLocked cfg m n

def dispatchStep [DecidableEq ReqCode] [DecidableEq ResCode]
    (cfg : Config Packet ReqCode ResCode) (m : CGPBManagerV2 Packet) (d : Nat) :
    DispatchAct Packet → Option (CGPBManagerV2 Packet)
  | .pop => dispatchPop m d
  | .message result call => dispatchMessage cfg m d result call
  | .ret => dispatchReturn m d
  | .store time => dispatchStore cfg m d time

def step [DecidableEq ReqCode] [DecidableEq ResCode] (cfg : Config Packet ReqCode ResCode)
    (m : CGPBManagerV2 Packet) : Event Packet → Option (CGPBManagerV2 Packet)
  | .send c a => sendStep cfg m c a
  | .sender a => senderStep cfg m a
  | .recv n a => recvStep cfg m n a
  | .dispatch d a => dispatchStep cfg m d a
  | .receivePacket i id => some (receivePacket m i id)
  | .disconnect i => some (disconnect m i)
  | .setIsUseServerBusyWaiting b => some { m with isUseWaitingWhenServerBusy := b }

end CGPBManagerV2

open CGPBManagerV2

/-! ## A concrete packet type -/

/-- A packet of three one-byte fields, to run the model on. -/
structure SamplePacket where
  msgid : Int
  reqcode : Nat
  rescode : Nat
  deriving DecidableEq

namespace SamplePacket

def traits : CGPTraits SamplePacket Nat Nat where
  msgid := SamplePacket.msgid
  set_msgid p id := { p with msgid := id }
  reqcode := SamplePacket.reqcode
  rescode := SamplePacket.rescode
  REQ_NONE := 0
  RES_NONE := 0
  SerializeToArray p :=
    [UInt8.ofNat p.msgid.toNat, UInt8.ofNat p.reqcode, UInt8.ofNat p.rescode]
  ParseFromArray
    | [a, b, c] => some ⟨a.toNat, b.toNat, c.toNat⟩
    | _ => none
  msgid_set_msgid _ _ := rfl
  byteSize_lt _ := by simp

/-- Response code 9 announces a busy server; requests with code 5 have a slot. -/
def config : Config SamplePacket Nat Nat where
  traits := traits
  resCodeServerBusy := 9
  mapRequestToSlot := fun r => r == 5
  mapResponseToSlot := fun _ => false

/-- Sockets 0 and 1 under the indices 1 and 2. -/
def registry : CNetworkCommunicator := ⟨2, ((∅ : SocketMap).insert 1 0).insert 2 1, 2⟩

/-- Socket 0, registered when the counter has reached the end of its range. -/
def wrappedRegistry : CNetworkCommunicator :=
  ⟨-2147483648, (∅ : SocketMap).insert (-2147483648) 0, 1⟩

example : (⟨2147483647, ∅, 0⟩ : CNetworkCommunicator).createSocket =
    some (-2147483648, 0, wrappedRegistry) := rfl

/-- A manager with two announced connections. -/
def manager (isUse : Bool) : CGPBManagerV2 SamplePacket :=
  create registry (fun i => i == 1 || i == 2) isUse

/-- `sendPacket( index, packet )` from start to return, as call `c`. -/
def sendCall (c : Nat) (i : SockIndex) (p : SamplePacket) : List (Event SamplePacket) :=
  [.send c (.start (.index i) p true), .send c .assign, .send c .push, .send c .ret]

/-- A buffer received on socket `s`, handled from start to return as call `n`. -/
def recvCall (n : Nat) (s : Sock) (dataBuffer : Bytes) : List (Event SamplePacket) :=
  [.recv n (.start s dataBuffer), .recv n .store, .recv n .locked]

/-- One round of the sender with the feature on. -/
def senderRound : List (Event SamplePacket) :=
  [.sender .test, .sender .pop, .sender .check, .sender .index, .sender .record,
    .sender (.write 7)]

end SamplePacket

end IMonPlatform
