import Mathlib.Logic.Function.Basic
import IMonPlatform.Lib.Transition
import IMonPlatform.Net.ManagerSteps

/-!
# Connections that come and go while packets are handled

The manager together with the calls that make and end its connections, each cut at its locked
sections.  `receiveNewConnection` registers `queuePacketFromDataBuffer` with the
socket first and makes the entry of `_mapSocketToSendedPacket` in a later section;
`receiveDisconnection` deletes the entry on the thread that disconnects.
`queuePacketFromDataBuffer` obtains the index in one section and dereferences
`_mapSocketToSendedPacket.find( socketIndex )` in another one, without a test for `end()`.

* `Lifecycle` — the manager, the calls under way and the record of the connections' lifetimes.
* `Lifecycle.step` — one section of any thread; while `disconnectAll` runs, it alone has
  `_csMapIndexToSocket`.
* `Tracks` — an index has an entry exactly if the last callback for it was `receiveNewConnection`.
* `sent_lookup_defined_iff` — no missing entry is dereferenced exactly when every locked section of
  `queuePacketFromDataBuffer` comes behind `receiveNewConnection` and before
  `receiveDisconnection`.
-/

set_option autoImplicit false

namespace IMonPlatform

open Framing CNetworkCommunicator CGPBManagerV2 Transition

variable {Packet ReqCode ResCode : Type}

/-! ## Lifetimes -/

/-- The two callbacks of the communicator. -/
inductive Callback where
  | receiveNewConnection
  | receiveDisconnection
  deriving DecidableEq

/-- What happened to the connections; no step reads it. -/
structure Lifetimes where
  /-- Sections under `_lckSendQueue` of the two callbacks, the latest first. -/
  callbacks : List (SockIndex × Callback)
  /-- The connection of the index has ended, and no new one is registered. -/
  ended : SockIndex → Bool
  /-- Number of beginnings and ends of connections under an index. -/
  generation : SockIndex → Nat
  /-- Generation of the index a dispatcher has looked up. -/
  lookedUp : Nat → Nat
  /-- Generation that a stored response belongs to. -/
  storedFor : SockIndex → Int → Nat

def lastCallback (callbacks : List (SockIndex × Callback)) (i : SockIndex) : Option Callback :=
  (callbacks.find? (fun c => c.1 == i)).map Prod.snd

@[simp] theorem lastCallback_cons_self (cs : List (SockIndex × Callback)) (i : SockIndex)
    (c : Callback) : lastCallback ((i, c) :: cs) i = some c := by
  simp [lastCallback]

theorem lastCallback_cons_ne {i j : SockIndex} (cs : List (SockIndex × Callback)) (c : Callback)
    (h : i ≠ j) : lastCallback ((i, c) :: cs) j = lastCallback cs j := by
  simp [lastCallback, h]

namespace Lifetimes

def create : Lifetimes := ⟨[], fun _ => false, fun _ => 0, fun _ => 0, fun _ _ => 0⟩

def called (l : Lifetimes) (i : SockIndex) (c : Callback) : Lifetimes :=
  { l with callbacks := (i, c) :: l.callbacks }

/-- A connection is registered under index `i`. -/
def registered (l : Lifetimes) (i : SockIndex) : Lifetimes :=
  { l with
    ended := Function.update l.ended i false
    generation := Function.update l.generation i (l.generation i + 1) }

/-- The connections of the indices in `R` have ended. -/
def finish (l : Lifetimes) (R : SockIndex → Bool) : Lifetimes :=
  { l with
    ended := fun i => R i || l.ended i
    generation := fun i => if R i then l.generation i + 1 else l.generation i }

/-- What a step of the manager from `m` to `m'` means for the stored responses. -/
def note (cfg : Config Packet ReqCode ResCode) (l : Lifetimes) (m m' : CGPBManagerV2 Packet) :
    Event Packet → Lifetimes
  | .dispatch d (.message _ _) =>
    match m'.dispatchers d with
    | .store _ i _ => { l with lookedUp := Function.update l.lookedUp d (l.generation i) }
    | _ => l
  | .dispatch d (.store _) =>
    match m.dispatchers d with
    | .store _ i e =>
      if (m.resPacket i (cfg.traits.msgid e.2)).isNone then
        { l with
          storedFor := Function.update l.storedFor i
            (Function.update (l.storedFor i) (cfg.traits.msgid e.2) (l.lookedUp d)) }
      else l
    | _ => l
  | _ => l

section Note

variable (cfg : Config Packet ReqCode ResCode) (l : Lifetimes) (m m' : CGPBManagerV2 Packet)
  (e : Event Packet)

/-- A step of the manager begins and ends no connection and runs no callback. -/
theorem note_frame : (l.note cfg m m' e).callbacks = l.callbacks ∧
    (l.note cfg m m' e).ended = l.ended ∧ (l.note cfg m m' e).generation = l.generation := by
  unfold note
  split
  · split <;> exact ⟨rfl, rfl, rfl⟩
  · split
    · split <;> exact ⟨rfl, rfl, rfl⟩
    · exact ⟨rfl, rfl, rfl⟩
  · exact ⟨rfl, rfl, rfl⟩

end Note

end Lifetimes

/-! ## State and steps -/

/-- The function that runs the new-connection slots. -/
inductive Origin where
  | connectTo
  | socketAccept
  deriving DecidableEq

structure Lifecycle (Packet : Type) where
  manager : CGPBManagerV2 Packet
  /-- Sockets handed to an `async_accept` that has not completed. -/
  accepting : List Sock
  /-- `socket_accept` calls whose lookup gave `-1`. -/
  unfound : List Sock
  /-- `registerSocket` calls behind their locked section. -/
  returning : List (Sock × Origin)
  /-- Calls with an index for which the new-connection slots have not run. -/
  toAnnounce : List (SockIndex × Sock × Origin)
  /-- `receiveNewConnection` calls behind `registerQueuePacket`. -/
  announcing : List (SockIndex × Sock × Origin)
  /-- Sockets with `queuePacketFromDataBuffer` as message slot. -/
  queueSlots : List Sock
  /-- Sockets with a read loop. -/
  reading : List Sock
  /-- `disconnect` calls behind their locked section. -/
  removing : List SockIndex
  /-- `receiveDisconnection` calls behind their first section. -/
  purging : List SockIndex
  /-- The indices that a running `disconnectAll` has still to visit. -/
  clearing : Option (List SockIndex)
  lifetimes : Lifetimes

/-- The sections, in any order. -/
inductive LifeEvent (Packet : Type) where
  | manager (e : Event Packet)
  /-- `createSocket`, for the next `async_accept` or for `connectTo`. -/
  | createSocket (accept : Bool)
  /-- The lookup of `socket_accept`. -/
  | acceptLookup (conn : Sock)
  | acceptError (conn : Sock)
  /-- The second registration of `socket_accept`. -/
  | registerSocket (conn : Sock)
  /-- `return _socketIndex`. -/
  | returnIndex (conn : Sock) (origin : Origin)
  /-- `connect` fails. -/
  | connectFail (i : SockIndex) (s : Sock)
  /-- `receiveNewConnection` up to `registerQueuePacket`. -/
  | registerQueuePacket (i : SockIndex) (s : Sock) (origin : Origin)
  /-- The section of `receiveNewConnection` under `_lckSendQueue`. -/
  | newEntry (i : SockIndex) (s : Sock) (origin : Origin)
  /-- The locked section of `disconnect`, called by anyone or after the peer's close. -/
  | disconnect (i : SockIndex)
  /-- The section of `receiveDisconnection` under `_lckSockets`. -/
  | eraseSocket (i : SockIndex)
  /-- The section of `receiveDisconnection` under `_lckSendQueue`. -/
  | deleteEntry (i : SockIndex)
  | disconnectAll
  /-- One round of the loop of `disconnectAll`. -/
  | disconnectNext
  /-- `_mapIndexToSocket.clear()`. -/
  | disconnectEnd

namespace Lifecycle

def create (isUse : Bool) : Lifecycle Packet where
  manager := CGPBManagerV2.create .empty (fun _ => false) isUse
  accepting := []
  unfound := []
  returning := []
  toAnnounce := []
  announcing := []
  queueSlots := []
  reading := []
  removing := []
  purging := []
  clearing := none
  lifetimes := .create

abbrev comm (st : Lifecycle Packet) : CNetworkCommunicator := st.manager.networkManager

abbrev registry (st : Lifecycle Packet) : SocketMap := st.manager.networkManager.mapIndexToSocket

def setComm (st : Lifecycle Packet) (c : CNetworkCommunicator) : Lifecycle Packet :=
  { st with manager := { st.manager with networkManager := c } }

/-- A socket stands under a new index. -/
def registeredUnder (st : Lifecycle Packet) (i : SockIndex) (c : CNetworkCommunicator) :
    Lifecycle Packet :=
  { st.setComm c with lifetimes := st.lifetimes.registered i }

/-- The entry of an index is replaced by a callback. -/
def setEntry (st : Lifecycle Packet) (i : SockIndex) (f : Option (Int → Option Packet))
    (c : Callback) : Lifecycle Packet :=
  { st with manager := st.manager.setSended i f, lifetimes := st.lifetimes.called i c }

section Steps

variable [DecidableEq ReqCode] [DecidableEq ResCode] (cfg : Config Packet ReqCode ResCode)

/-- The step waits for `_csMapIndexToSocket`. -/
def locksRegistry (m : CGPBManagerV2 Packet) : Event Packet → Bool
  | .send _ (.start (.index i) _ _) => 0 < i
  | .sender .index => true
  | .recv _ (.start _ buffer) =>
    (cfg.traits.ParseFromArray (parseRegion buffer)).isSome && m.isUseWaitingWhenServerBusy
  | .dispatch d (.message _ _) =>
    match m.dispatchers d with
    | .popped _ e => !isProcess cfg e.2
    | _ => false
  | _ => false

/-- A frame reaches the manager from a socket that is read and has the slot; `disconnect` has its
    own steps. -/
def arises (st : Lifecycle Packet) : Event Packet → Bool
  | .recv _ (.start s _) => decide (s ∈ st.reading) && decide (s ∈ st.queueSlots)
  | .disconnect _ => false
  | _ => true

def managerStep (st : Lifecycle Packet) (e : Event Packet) : Option (Lifecycle Packet) :=
  if st.arises e && (!locksRegistry cfg st.manager e || st.clearing.isNone) then
    match CGPBManagerV2.step cfg st.manager e with
    | none => none
    | some m => some { st with manager := m, lifetimes := st.lifetimes.note cfg st.manager m e }
  else none

end Steps

def createSocket (st : Lifecycle Packet) (accept : Bool) : Option (Lifecycle Packet) :=
  match st.clearing, st.comm.createSocket with
  | none, some (i, s, c) =>
    if accept then
      some { st.registeredUnder i c with accepting := st.accepting ++ [s] }
    else
      some { st.registeredUnder i c with returning := st.returning ++ [(s, .connectTo)] }
  | _, _ => none

def acceptLookup (st : Lifecycle Packet) (conn : Sock) : Option (Lifecycle Packet) :=
  if conn ∈ st.accepting ∧ st.clearing.isNone then
    if st.comm.getSocketIndex conn = -1 then
      some { st with accepting := st.accepting.erase conn, unfound := st.unfound ++ [conn] }
    else
      some { st with
        accepting := st.accepting.erase conn
        reading := st.reading ++ [conn]
        toAnnounce := st.toAnnounce ++ [(st.comm.getSocketIndex conn, conn, .socketAccept)] }
  else none

def acceptError (st : Lifecycle Packet) (conn : Sock) : Option (Lifecycle Packet) :=
  if conn ∈ st.accepting then some { st with accepting := st.accepting.erase conn } else none

def registerSocket (st : Lifecycle Packet) (conn : Sock) : Option (Lifecycle Packet) :=
  if conn ∈ st.unfound ∧ st.clearing.isNone then
    match st.comm.registerSocket conn with
    | none => none
    | some (i, c) => some { st.registeredUnder i c with
        unfound := st.unfound.erase conn
        returning := st.returning ++ [(conn, .socketAccept)] }
  else none

/-- `return _socketIndex`; `socket_accept` then starts to read. -/
def returnIndex (st : Lifecycle Packet) (conn : Sock) (origin : Origin) :
    Option (Lifecycle Packet) :=
  if (conn, origin) ∈ st.returning then
    some { st with
      returning := st.returning.erase (conn, origin)
      toAnnounce := st.toAnnounce ++ [(st.comm.socketIndex, conn, origin)]
      reading := if origin = .socketAccept then st.reading ++ [conn] else st.reading }
  else none

def connectFail (st : Lifecycle Packet) (i : SockIndex) (s : Sock) : Option (Lifecycle Packet) :=
  if (i, s, Origin.connectTo) ∈ st.toAnnounce ∧ st.clearing.isNone then
    match st.comm.deregisterSocket i with
    | none => none
    | some c => some { st.setComm c with toAnnounce := st.toAnnounce.erase (i, s, .connectTo) }
  else none

def registerQueuePacket (st : Lifecycle Packet) (i : SockIndex) (s : Sock) (origin : Origin) :
    Option (Lifecycle Packet) :=
  if (i, s, origin) ∈ st.toAnnounce then
    some { st with
      toAnnounce := st.toAnnounce.erase (i, s, origin)
      announcing := st.announcing ++ [(i, s, origin)]
      queueSlots := st.queueSlots ++ [s] }
  else none

/-- An entry is made if there is none; `connectTo` then starts to read. -/
def newEntry (st : Lifecycle Packet) (i : SockIndex) (s : Sock) (origin : Origin) :
    Option (Lifecycle Packet) :=
  if (i, s, origin) ∈ st.announcing then
    some { st.setEntry i (some ((st.manager.mapSocketToSendedPacket i).getD (fun _ => none)))
        .receiveNewConnection with
      announcing := st.announcing.erase (i, s, origin)
      reading := if origin = .connectTo then st.reading ++ [s] else st.reading }
  else none

def disconnect (st : Lifecycle Packet) (i : SockIndex) : Option (Lifecycle Packet) :=
  if st.clearing.isNone then
    if i ∈ st.registry then
      some { st.setComm { st.comm with mapIndexToSocket := st.registry.erase i } with
        removing := st.removing ++ [i] }
    else some st
  else none

/-- The socket that is erased from `_setConnectionedSockets` is asked of `getSocket`. -/
def eraseSocket (st : Lifecycle Packet) (i : SockIndex) : Option (Lifecycle Packet) :=
  if i ∈ st.removing ∧ st.clearing.isNone then
    some { st.setComm (st.comm.getSocket i).2 with
      removing := st.removing.erase i
      purging := st.purging ++ [i] }
  else none

/-- With the entry deleted, `disconnect` has finished. -/
def deleteEntry (st : Lifecycle Packet) (i : SockIndex) : Option (Lifecycle Packet) :=
  if i ∈ st.purging then
    some { st.setEntry i none .receiveDisconnection with
      purging := st.purging.erase i
      lifetimes := (st.lifetimes.called i .receiveDisconnection).finish
        (fun j => decide (j = i ∧ i ∉ st.registry)) }
  else none

def disconnectAll (st : Lifecycle Packet) : Option (Lifecycle Packet) :=
  if st.clearing.isNone then some { st with clearing := some st.registry.keys } else none

def disconnectNext (st : Lifecycle Packet) : Option (Lifecycle Packet) :=
  match st.clearing with
  | some (i :: rest) =>
    if i ∈ st.registry then
      some { st.setEntry i none .receiveDisconnection with clearing := some rest }
    else some { st with clearing := none }
  | _ => none

def disconnectEnd (st : Lifecycle Packet) : Option (Lifecycle Packet) :=
  match st.clearing with
  | some [] => some { st.setComm { st.comm with mapIndexToSocket := ∅ } with
      clearing := none
      lifetimes := st.lifetimes.finish (fun j => decide (j ∈ st.registry)) }
  | _ => none

def step [DecidableEq ReqCode] [DecidableEq ResCode] (cfg : Config Packet ReqCode ResCode)
    (st : Lifecycle Packet) : LifeEvent Packet → Option (Lifecycle Packet)
  | .manager e => st.managerStep cfg e
  | .createSocket accept => st.createSocket accept
  | .acceptLookup conn => st.acceptLookup conn
  | .acceptError conn => st.acceptError conn
  | .registerSocket conn => st.registerSocket conn
  | .returnIndex conn origin => st.returnIndex conn origin
  | .connectFail i s => st.connectFail i s
  | .registerQueuePacket i s origin => st.registerQueuePacket i s origin
  | .newEntry i s origin => st.newEntry i s origin
  | .disconnect i => st.disconnect i
  | .eraseSocket i => st.eraseSocket i
  | .deleteEntry i => st.deleteEntry i
  | .disconnectAll => st.disconnectAll
  | .disconnectNext => st.disconnectNext
  | .disconnectEnd => st.disconnectEnd

/-! ## Properties -/

/-- No thread has dereferenced `_mapSocketToSendedPacket.end()`. -/
def LookupDefined (st : Lifecycle Packet) : Prop :=
  ∀ n s p, st.manager.handlers n ≠ .crashed s p

/-- The connection is announced and its entry is not deleted. -/
def Announced (st : Lifecycle Packet) (i : SockIndex) : Prop :=
  lastCallback st.lifetimes.callbacks i = some .receiveNewConnection

/-- The condition on a step: the section of `queuePacketFromDataBuffer` under `_lckSendQueue` comes
    behind `receiveNewConnection` for its index, with no `receiveDisconnection` in between. -/
def InOrder (st : Lifecycle Packet) : LifeEvent Packet → Prop
  | .manager (.recv n .locked) => ∀ s p i, st.manager.handlers n = .locked s p i → st.Announced i
  | _ => True

/-- Thread `n` is between its lookup of index `i` and its locked section. -/
def Handling (m : CGPBManagerV2 Packet) (n : Nat) (i : SockIndex) : Prop :=
  ∃ s p, m.handlers n = .store s p i ∨ m.handlers n = .locked s p i

/-- A discipline that is enough: no frame is looked up before its connection is announced, and no
    entry is deleted while a frame of its index is handled. -/
def Undisturbed (st : Lifecycle Packet) : LifeEvent Packet → Prop
  | .manager (.recv _ (.start s _)) =>
    0 < st.comm.getSocketIndex s → st.Announced (st.comm.getSocketIndex s)
  | .deleteEntry i => ∀ n, ¬ Handling st.manager n i
  | .disconnectNext => ∀ i rest, st.clearing = some (i :: rest) → ∀ n, ¬ Handling st.manager n i
  | _ => True

end Lifecycle

open Lifecycle

/-! ## Threads in `queuePacketFromDataBuffer` -/

section Handlers

variable [DecidableEq ResCode] {cfg : Config Packet ReqCode ResCode}
  {m m' : CGPBManagerV2 Packet} {e : Event Packet}

/-- What the steps of a thread in `queuePacketFromDataBuffer` do to its program counter. -/
theorem recvStep_handlers {n : Nat} {a : RecvAct} (h : recvStep cfg m n a = some m') :
    ∃ pc, m'.handlers = Function.update m.handlers n pc ∧
      (∀ s p, pc = .crashed s p → a = .locked ∧ ∃ i, m.handlers n = .locked s p i ∧
        m.mapSocketToSendedPacket i = none) ∧
      (∀ i, (∃ s p, pc = .store s p i ∨ pc = .locked s p i) → Handling m n i ∨
        ∃ s buffer, a = .start s buffer ∧ 0 < m.networkManager.getSocketIndex s ∧
          i = m.networkManager.getSocketIndex s) := by
  cases a with
  | start s buffer =>
    obtain ⟨_, ⟨_, rfl⟩ | ⟨p, _, ⟨_, _, rfl⟩ | ⟨_, hpos, rfl⟩ | ⟨_, rfl⟩⟩⟩ := recvStart_cases h
    · exact ⟨_, rfl, by simp, by simp⟩
    · exact ⟨_, rfl, by simp, by simp⟩
    · refine ⟨_, rfl, by simp, fun i hi => .inr ⟨s, buffer, rfl, hpos, ?_⟩⟩
      simpa [eq_comm] using hi
    · exact ⟨_, rfl, by simp, by simp⟩
  | store =>
    obtain ⟨s, p, j, hpc, rfl⟩ := recvStore_cases h
    refine ⟨_, rfl, by simp, fun i hi => .inl ⟨s, p, .inl ?_⟩⟩
    have hij : j = i := by simpa using hi
    rw [hpc, hij]
  | locked =>
    obtain ⟨s, p, j, hpc, ⟨hnone, rfl⟩ | ⟨f, hf, ⟨_, rfl⟩ | ⟨q, _, rfl⟩⟩⟩ := recvLocked_cases h
    · refine ⟨_, rfl, ?_, by simp⟩
      rintro s' p' ⟨rfl, rfl⟩
      exact ⟨rfl, j, hpc, hnone⟩
    · exact ⟨_, rfl, by simp, by simp⟩
    · refine ⟨.finished s p (some q), ?_, by simp, by simp⟩
      unfold noteAnswer
      cases m.isBusy <;> cases isBusyReply cfg p <;> rfl

/-- A missing entry is dereferenced in the locked section only. -/
theorem step_crashed [DecidableEq ReqCode] {n : Nat} {s : Sock} {p : Packet}
    (h : CGPBManagerV2.step cfg m e = some m') (hc : m'.handlers n = .crashed s p) :
    m.handlers n = .crashed s p ∨ e = .recv n .locked ∧
      ∃ i, m.handlers n = .locked s p i ∧ m.mapSocketToSendedPacket i = none := by
  by_cases hrecv : ∃ k a, e = .recv k a
  · obtain ⟨k, a, rfl⟩ := hrecv
    obtain ⟨pc, hpc, hcrash, _⟩ := recvStep_handlers h
    rw [hpc] at hc
    by_cases hk : n = k
    · subst hk
      rw [Function.update_self] at hc
      obtain ⟨rfl, hi⟩ := hcrash s p hc
      exact .inr ⟨rfl, hi⟩
    · rw [Function.update_of_ne hk] at hc
      exact .inl hc
  · rw [step_handlers h (fun k a he => hrecv ⟨k, a, he⟩)] at hc
    exact .inl hc

/-- A thread handles a frame of index `i` from its lookup on. -/
theorem step_handling [DecidableEq ReqCode] {n : Nat} {i : SockIndex}
    (h : CGPBManagerV2.step cfg m e = some m') (hh : Handling m' n i) :
    Handling m n i ∨ ∃ s buffer, e = .recv n (.start s buffer) ∧
      0 < m.networkManager.getSocketIndex s ∧ i = m.networkManager.getSocketIndex s := by
  by_cases hrecv : ∃ k a, e = .recv k a
  · obtain ⟨k, a, rfl⟩ := hrecv
    obtain ⟨pc, hpc, _, hhand⟩ := recvStep_handlers h
    unfold Handling at hh
    rw [hpc] at hh
    by_cases hk : n = k
    · subst hk
      rw [Function.update_self] at hh
      obtain hold | ⟨s, buffer, rfl, hpos, hi⟩ := hhand i hh
      · exact .inl hold
      · exact .inr ⟨s, buffer, rfl, hpos, hi⟩
    · rw [Function.update_of_ne hk] at hh
      exact .inl hh
  · unfold Handling at hh
    rw [step_handlers h (fun k a he => hrecv ⟨k, a, he⟩)] at hh
    exact .inl hh

end Handlers

/-! ## What a section does -/

namespace Lifecycle

/-- The sections that run no callback and at most take registrations away. -/
def isQuiet : LifeEvent Packet → Bool
  | .acceptLookup _ | .acceptError _ | .returnIndex _ _ | .connectFail _ _
  | .registerQueuePacket _ _ _ | .disconnect _ | .eraseSocket _ | .disconnectAll => true
  | _ => false

/-- What a section does to the manager and to the record of the lifetimes. -/
inductive SectionEffect [DecidableEq ReqCode] [DecidableEq ResCode]
    (cfg : Config Packet ReqCode ResCode) (st st' : Lifecycle Packet) :
    LifeEvent Packet → Prop where
  | manager {e : Event Packet} (hne : ∀ i, e ≠ .disconnect i)
      (hstep : CGPBManagerV2.step cfg st.manager e = some st'.manager)
      (hl : st'.lifetimes = st.lifetimes.note cfg st.manager st'.manager e) :
      SectionEffect cfg st st' (.manager e)
  | quiet {e : LifeEvent Packet} (hq : isQuiet e = true) (c : CNetworkCommunicator)
      (hm : st'.manager = { st.manager with networkManager := c })
      (hsub : ∀ i ∈ c.mapIndexToSocket, i ∈ st.registry) (hl : st'.lifetimes = st.lifetimes) :
      SectionEffect cfg st st' e
  | createSocket {accept : Bool} {i : SockIndex} {s : Sock} {c : CNetworkCommunicator}
      (hreg : st.comm.createSocket = some (i, s, c))
      (hm : st'.manager = { st.manager with networkManager := c })
      (hl : st'.lifetimes = st.lifetimes.registered i) :
      SectionEffect cfg st st' (.createSocket accept)
  | registerSocket {conn : Sock} {i : SockIndex} {c : CNetworkCommunicator}
      (hreg : st.comm.registerSocket conn = some (i, c))
      (hm : st'.manager = { st.manager with networkManager := c })
      (hl : st'.lifetimes = st.lifetimes.registered i) :
      SectionEffect cfg st st' (.registerSocket conn)
  | newEntry {i : SockIndex} {s : Sock} {origin : Origin} {f : Int → Option Packet}
      (hm : st'.manager = st.manager.setSended i (some f))
      (hl : st'.lifetimes = st.lifetimes.called i .receiveNewConnection) :
      SectionEffect cfg st st' (.newEntry i s origin)
  | deleteEntry {i : SockIndex} (hm : st'.manager = st.manager.setSended i none)
      (hl : st'.lifetimes = (st.lifetimes.called i .receiveDisconnection).finish
        (fun j => decide (j = i ∧ i ∉ st.registry))) : SectionEffect cfg st st' (.deleteEntry i)
  | disconnectNext {i : SockIndex} {rest : List SockIndex} (hc : st.clearing = some (i :: rest))
      (hm : st'.manager = st.manager.setSended i none)
      (hl : st'.lifetimes = st.lifetimes.called i .receiveDisconnection) :
      SectionEffect cfg st st' .disconnectNext
  | disconnectStop (hm : st'.manager = st.manager) (hl : st'.lifetimes = st.lifetimes) :
      SectionEffect cfg st st' .disconnectNext
  | disconnectEnd
      (hm : st'.manager =
        { st.manager with networkManager := { st.comm with mapIndexToSocket := ∅ } })
      (hl : st'.lifetimes = st.lifetimes.finish (fun j => decide (j ∈ st.registry))) :
      SectionEffect cfg st st' .disconnectEnd

end Lifecycle

section Effects

variable [DecidableEq ReqCode] [DecidableEq ResCode] {cfg : Config Packet ReqCode ResCode}
  {st st' : Lifecycle Packet} {e : LifeEvent Packet}

theorem lifecycle_step_effect (h : Lifecycle.step cfg st e = some st') :
    SectionEffect cfg st st' e := by
  cases e with
  | manager e =>
    simp only [Lifecycle.step, managerStep] at h
    split at h
    · rename_i harises
      split at h
      · cases h
      · rename_i m hm
        cases h
        refine .manager (fun i hi => ?_) hm rfl
        subst hi
        simp [arises] at harises
    · cases h
  | createSocket accept =>
    simp only [Lifecycle.step, Lifecycle.createSocket] at h
    split at h
    · rename_i i s c _ hreg
      split at h <;> cases h <;> exact .createSocket hreg rfl rfl
    · cases h
  | acceptLookup conn =>
    simp only [Lifecycle.step, Lifecycle.acceptLookup] at h
    split at h
    · split at h <;> cases h <;> exact .quiet rfl st.comm rfl (fun _ hi => hi) rfl
    · cases h
  | acceptError conn =>
    simp only [Lifecycle.step, Lifecycle.acceptError] at h
    split at h <;> cases h
    exact .quiet rfl st.comm rfl (fun _ hi => hi) rfl
  | registerSocket conn =>
    simp only [Lifecycle.step, Lifecycle.registerSocket] at h
    split at h
    · split at h
      · cases h
      · rename_i i c hreg
        cases h
        exact .registerSocket hreg rfl rfl
    · cases h
  | returnIndex conn origin =>
    simp only [Lifecycle.step, Lifecycle.returnIndex] at h
    split at h <;> cases h
    exact .quiet rfl st.comm rfl (fun _ hi => hi) rfl
  | connectFail i s =>
    simp only [Lifecycle.step, Lifecycle.connectFail] at h
    split at h
    · split at h
      · cases h
      · rename_i c hreg
        cases h
        refine .quiet rfl c rfl (fun j hj => ?_) rfl
        obtain ⟨s, hs⟩ := exists_lookup_of_mem hj
        exact mem_of_lookup (deregisterSocket_lookup hreg hs)
    · cases h
  | registerQueuePacket i s origin =>
    simp only [Lifecycle.step, Lifecycle.registerQueuePacket] at h
    split at h <;> cases h
    exact .quiet rfl st.comm rfl (fun _ hi => hi) rfl
  | newEntry i s origin =>
    simp only [Lifecycle.step, Lifecycle.newEntry] at h
    split at h <;> cases h
    exact .newEntry rfl rfl
  | disconnect i =>
    simp only [Lifecycle.step, Lifecycle.disconnect] at h
    split at h
    · split at h <;> cases h
      · exact .quiet rfl _ rfl (fun _ hi => (AList.mem_erase.mp hi).2) rfl
      · exact .quiet rfl st.comm rfl (fun _ hi => hi) rfl
    · cases h
  | eraseSocket i =>
    simp only [Lifecycle.step, Lifecycle.eraseSocket] at h
    split at h <;> cases h
    refine .quiet rfl _ rfl (fun j hj => ?_) rfl
    rw [getSocket_map] at hj
    exact hj
  | deleteEntry i =>
    simp only [Lifecycle.step, Lifecycle.deleteEntry] at h
    split at h <;> cases h
    exact .deleteEntry rfl rfl
  | disconnectAll =>
    simp only [Lifecycle.step, Lifecycle.disconnectAll] at h
    split at h <;> cases h
    exact .quiet rfl st.comm rfl (fun _ hi => hi) rfl
  | disconnectNext =>
    simp only [Lifecycle.step, Lifecycle.disconnectNext] at h
    split at h
    · rename_i i rest hc
      split at h <;> cases h
      · exact .disconnectNext hc rfl rfl
      · exact .disconnectStop rfl rfl
    · cases h
  | disconnectEnd =>
    simp only [Lifecycle.step, Lifecycle.disconnectEnd] at h
    split at h <;> cases h
    exact .disconnectEnd rfl rfl

/-! ## Entries and callbacks -/

/-- The entry of an index is there exactly between the two callbacks. -/
def Lifecycle.Tracks (st : Lifecycle Packet) : Prop :=
  ∀ i, (st.manager.mapSocketToSendedPacket i).isSome = true ↔ st.Announced i

theorem create_tracks (isUse : Bool) : (Lifecycle.create isUse : Lifecycle Packet).Tracks := by
  intro i
  simp [Lifecycle.create, CGPBManagerV2.create, Announced, Lifetimes.create, lastCallback]

/-- A callback keeps the two together when it makes an entry or takes it away. -/
theorem tracks_called (ht : st.Tracks) {i : SockIndex} {f : Option (Int → Option Packet)}
    {c : Callback} (hf : f.isSome = true ↔ c = .receiveNewConnection)
    (hm : st'.manager = st.manager.setSended i f)
    (hl : st'.lifetimes.callbacks = (i, c) :: st.lifetimes.callbacks) : st'.Tracks := by
  intro j
  unfold Announced
  rw [hm, hl]
  by_cases hj : j = i
  · subst hj
    simp [hf]
  · rw [lastCallback_cons_ne _ _ (Ne.symm hj)]
    simp only [setSended, Function.update_of_ne hj]
    exact ht j

theorem tracks_congr (ht : st.Tracks)
    (hs : ∀ i, (st'.manager.mapSocketToSendedPacket i).isSome =
      (st.manager.mapSocketToSendedPacket i).isSome)
    (hl : st'.lifetimes.callbacks = st.lifetimes.callbacks) : st'.Tracks := by
  intro i
  unfold Announced
  rw [hs i, hl]
  exact ht i

theorem tracks_step (ht : st.Tracks) (h : Lifecycle.step cfg st e = some st') : st'.Tracks := by
  cases lifecycle_step_effect h with
  | manager hne hstep hl =>
    refine tracks_congr ht (step_sended_isSome hstep hne) ?_
    rw [hl]
    exact (Lifetimes.note_frame _ _ _ _ _).1
  | quiet hq c hm hsub hl => exact tracks_congr ht (fun i => by rw [hm]) (by rw [hl])
  | createSocket hreg hm hl =>
    exact tracks_congr ht (fun i => by rw [hm]) (by rw [hl]; rfl)
  | registerSocket hreg hm hl =>
    exact tracks_congr ht (fun i => by rw [hm]) (by rw [hl]; rfl)
  | newEntry hm hl =>
    have hcall := congrArg Lifetimes.callbacks hl
    exact tracks_called ht (by simp) hm hcall
  | deleteEntry hm hl =>
    have hcall := congrArg Lifetimes.callbacks hl
    exact tracks_called ht (by simp) hm hcall
  | disconnectNext hc hm hl =>
    have hcall := congrArg Lifetimes.callbacks hl
    exact tracks_called ht (by simp) hm hcall
  | disconnectStop hm hl => exact tracks_congr ht (fun i => by rw [hm]) (by rw [hl])
  | disconnectEnd hm hl =>
    exact tracks_congr ht (fun i => by rw [hm]) (by rw [hl]; rfl)

/-- Only steps of the manager move the threads in `queuePacketFromDataBuffer`. -/
theorem lifecycle_step_handlers (h : Lifecycle.step cfg st e = some st') :
    st'.manager.handlers = st.manager.handlers ∨
      ∃ a, e = .manager a ∧ CGPBManagerV2.step cfg st.manager a = some st'.manager := by
  cases lifecycle_step_effect h with
  | manager hne hstep hl => exact .inr ⟨_, rfl, hstep⟩
  | quiet hq c hm hsub hl => exact .inl (by rw [hm])
  | createSocket hreg hm hl => exact .inl (by rw [hm])
  | registerSocket hreg hm hl => exact .inl (by rw [hm])
  | newEntry hm hl => exact .inl (by rw [hm]; rfl)
  | deleteEntry hm hl => exact .inl (by rw [hm]; rfl)
  | disconnectNext hc hm hl => exact .inl (by rw [hm]; rfl)
  | disconnectStop hm hl => exact .inl (by rw [hm])
  | disconnectEnd hm hl => exact .inl (by rw [hm])

/-- A step in order dereferences no missing entry. -/
theorem lookupDefined_step (ht : st.Tracks) (hd : st.LookupDefined) (hc : st.InOrder e)
    (h : Lifecycle.step cfg st e = some st') : st'.LookupDefined := by
  intro n s p hcrash
  obtain hsame | ⟨a, rfl, hstep⟩ := lifecycle_step_handlers h
  · rw [hsame] at hcrash
    exact hd n s p hcrash
  · obtain hold | ⟨rfl, i, hpc, hnone⟩ := step_crashed hstep hcrash
    · exact hd n s p hold
    · have hsome := (ht i).mpr (hc s p i hpc)
      rw [hnone] at hsome
      cases hsome

/-- A step out of order does. -/
theorem lookupUndefined_step (ht : st.Tracks) (hc : ¬ st.InOrder e)
    (h : Lifecycle.step cfg st e = some st') : ¬ st'.LookupDefined := by
  unfold InOrder at hc
  split at hc
  · rename_i n
    simp only [not_forall] at hc
    obtain ⟨s, p, i, hpc, hann⟩ := hc
    cases lifecycle_step_effect h with
    | manager hne hstep hl =>
      have hlocked : recvLocked cfg st.manager n = some st'.manager := hstep
      obtain ⟨s', p', i', hpc', hcases⟩ := recvLocked_cases hlocked
      rw [hpc] at hpc'
      cases hpc'
      have hnone : st.manager.mapSocketToSendedPacket i = none :=
        Option.not_isSome_iff_eq_none.mp (fun hs => hann ((ht i).mp hs))
      obtain ⟨_, hm⟩ | ⟨f, hf, _⟩ := hcases
      · intro hall
        refine hall n s p ?_
        rw [hm]
        simp
      · rw [hnone] at hf
        cases hf
    | quiet hq => cases hq
  · exact absurd trivial hc

/-! ## The discipline -/

/-- Every frame under way belongs to an announced connection. -/
def Lifecycle.HandledAnnounced (st : Lifecycle Packet) : Prop :=
  ∀ n i, Handling st.manager n i → st.Announced i

/-- A frame under way belongs to an announced connection after a callback for another index, or
    after any announcement. -/
theorem handledAnnounced_called (hh : st.HandledAnnounced) {i : SockIndex} {c : Callback}
    (hc : c = .receiveNewConnection ∨ ∀ n, ¬ Handling st.manager n i)
    (hsame : st'.manager.handlers = st.manager.handlers)
    (hl : st'.lifetimes.callbacks = (i, c) :: st.lifetimes.callbacks) : st'.HandledAnnounced := by
  intro n j hj
  unfold Handling at hj
  rw [hsame] at hj
  unfold Announced
  rw [hl]
  by_cases hji : j = i
  · subst hji
    rcases hc with rfl | hno
    · exact lastCallback_cons_self _ _ _
    · exact absurd hj (hno n)
  · rw [lastCallback_cons_ne _ _ (Ne.symm hji)]
    exact hh n j hj

theorem handledAnnounced_congr (hh : st.HandledAnnounced)
    (hsame : st'.manager.handlers = st.manager.handlers)
    (hl : st'.lifetimes.callbacks = st.lifetimes.callbacks) : st'.HandledAnnounced := by
  intro n i hi
  unfold Handling at hi
  rw [hsame] at hi
  unfold Announced
  rw [hl]
  exact hh n i hi

theorem handledAnnounced_step (hh : st.HandledAnnounced) (hc : st.Undisturbed e)
    (h : Lifecycle.step cfg st e = some st') : st'.HandledAnnounced := by
  cases lifecycle_step_effect h with
  | manager hne hstep hl =>
    intro n i hi
    unfold Announced
    rw [hl, (Lifetimes.note_frame _ _ _ _ _).1]
    obtain hold | ⟨s, buffer, rfl, hpos, rfl⟩ := step_handling hstep hi
    · exact hh n i hold
    · exact hc hpos
  | quiet hq c hm hsub hl => exact handledAnnounced_congr hh (by rw [hm]) (by rw [hl])
  | createSocket hreg hm hl => exact handledAnnounced_congr hh (by rw [hm]) (by rw [hl]; rfl)
  | registerSocket hreg hm hl => exact handledAnnounced_congr hh (by rw [hm]) (by rw [hl]; rfl)
  | newEntry hm hl =>
    exact handledAnnounced_called hh (.inl rfl) (by rw [hm]; rfl) (by rw [hl]; rfl)
  | deleteEntry hm hl =>
    exact handledAnnounced_called hh (.inr hc) (by rw [hm]; rfl) (by rw [hl]; rfl)
  | disconnectNext hclear hm hl =>
    exact handledAnnounced_called hh (.inr (hc _ _ hclear)) (by rw [hm]; rfl) (by rw [hl]; rfl)
  | disconnectStop hm hl => exact handledAnnounced_congr hh (by rw [hm]) (by rw [hl])
  | disconnectEnd hm hl => exact handledAnnounced_congr hh (by rw [hm]) (by rw [hl]; rfl)

/-- The discipline puts the locked sections in order. -/
theorem inOrder_of_handledAnnounced (hh : st.HandledAnnounced) : st.InOrder e := by
  unfold InOrder
  split
  · intro s p i hpc
    exact hh _ i ⟨s, p, .inr hpc⟩
  · trivial

end Effects

/-- **When the lookup of sent packets is defined.**  In every interleaving of `connectTo`,
    `socket_accept`, `disconnect`, `disconnectAll` and the threads of the manager, no missing entry
    of `_mapSocketToSendedPacket` is dereferenced exactly when every locked section of
    `queuePacketFromDataBuffer` finds the last callback for its index to be `receiveNewConnection`.
    It is enough that no frame is looked up before its connection is announced and that no entry is
    deleted between a thread's lookup and its locked section. -/
theorem sent_lookup_defined_iff [DecidableEq ReqCode] [DecidableEq ResCode]
    (cfg : Config Packet ReqCode ResCode) (isUse : Bool) (es : List (LifeEvent Packet)) :
    (Always (Lifecycle.step cfg) LookupDefined (Lifecycle.create isUse) es ↔
      Meets (Lifecycle.step cfg) InOrder (Lifecycle.create isUse) es) ∧
    (Meets (Lifecycle.step cfg) Undisturbed (Lifecycle.create isUse) es →
      Always (Lifecycle.step cfg) LookupDefined (Lifecycle.create isUse) es) := by
  have hd : (Lifecycle.create isUse : Lifecycle Packet).LookupDefined := by
    intro n s p hcrash
    cases hcrash
  constructor
  · apply always_iff_meets (I := fun st => st.Tracks ∧ st.LookupDefined)
    · exact fun st hi => hi.2
    · exact fun st e st' hi hc h => ⟨tracks_step hi.1 h, lookupDefined_step hi.1 hi.2 hc h⟩
    · exact fun st e st' hi hc h => lookupUndefined_step hi.1 hc h
    · exact ⟨create_tracks isUse, hd⟩
  · refine always_of_meets (I := fun st : Lifecycle Packet =>
      st.Tracks ∧ st.HandledAnnounced ∧ st.LookupDefined) ?_ ?_ es _ ?_
    · exact fun st hi => hi.2.2
    · exact fun st e st' hi hc h => ⟨tracks_step hi.1 h, handledAnnounced_step hi.2.1 hc h,
        lookupDefined_step hi.1 hi.2.2 (inOrder_of_handledAnnounced hi.2.1) h⟩
    · refine ⟨create_tracks isUse, fun n i hi => ?_, hd⟩
      obtain ⟨s, p, hpc | hpc⟩ := hi <;> cases hpc

/-- `connectTo` up to the start of reading, on socket 0 with index 1. -/
def SamplePacket.connected : List (LifeEvent SamplePacket) :=
  [.createSocket false, .returnIndex 0 .connectTo, .registerQueuePacket 1 0 .connectTo,
    .newEntry 1 0 .connectTo]

/-- An accepted client's first packet is handled before `receiveNewConnection` has made the entry;
    and a connection is ended while a packet is handled.  Both dereference a missing entry. -/
theorem sent_lookup_undefined :
    (∃ st, run (Lifecycle.step SamplePacket.config) (Lifecycle.create true)
      [.createSocket true, .acceptLookup 0, .registerQueuePacket 1 0 .socketAccept,
        .manager (.recv 0 (.start 0 [0, 0, 0, 3, 1, 0, 7])), .manager (.recv 0 .store),
        .manager (.recv 0 .locked)] = some st ∧
      st.manager.handlers 0 = .crashed 0 ⟨1, 0, 7⟩) ∧
    ∃ st, run (Lifecycle.step SamplePacket.config) (Lifecycle.create true)
      (SamplePacket.connected ++
        [.manager (.recv 0 (.start 0 [0, 0, 0, 3, 1, 0, 7])), .disconnect 1, .eraseSocket 1,
          .deleteEntry 1, .manager (.recv 0 .store), .manager (.recv 0 .locked)]) = some st ∧
      st.manager.handlers 0 = .crashed 0 ⟨1, 0, 7⟩ :=
  ⟨⟨_, rfl, rfl⟩, ⟨_, rfl, rfl⟩⟩

end IMonPlatform
