import Mathlib.Data.Finset.Image
import IMonPlatform.Lib.Transition
import IMonPlatform.Net.Communicator

/-!
# The connected set of `CGPBManagerV2` and the registry of `CNetworkCommunicator`

Two tables in two classes: the communicator registers every socket object it creates in
`_mapIndexToSocket`, the manager collects the announced ones in `_setConnectionedSockets` and
sends broadcasts to them.  They are kept in step by the notifications `receiveNewConnection` and
`receiveDisconnection` alone.

An operation of the communicator is one step here, with its slots and with the return of
`registerSocket`; `Net.Notifications` and `Net.Lifecycle` cut `connectTo` and `socket_accept` where
other threads come in between, and `Net.Registry` reads the returned index in a step of its own.

`disconnect` erases the registration *before* it notifies, so that `receiveDisconnection` asks
`getSocket` for a missing index, gets a socket invented for the question and erases that one from
the set; `disconnectAll` notifies first and clears the map afterwards.

* `connStep_cases` — what each operation does to the two tables.
* `disconnect_set` — `disconnect` never removes anything from the connected set.
* `disconnectAll_set` — `disconnectAll` removes every registered socket from it.
* `connected_set_registered_iff` — along a run every connected socket is registered exactly when
  no removal takes the last registration of a connected socket; and removing all connections one
  by one agrees with `disconnectAll` exactly when none of them is in the connected set.
-/

set_option autoImplicit false

namespace IMonPlatform

open CNetworkCommunicator Transition

/-! ## State and operations -/

/-- A manager, its communicator and the I/O handlers that are pending. -/
structure Connections where
  comm : CNetworkCommunicator
  setConnectionedSockets : Finset Sock
  /-- Keys of `_mapSocketToSendedPacket`. -/
  sendedKeys : Finset SockIndex
  /-- One entry for each `receiveDisconnectNotify` registered with a socket. -/
  disconnectSlots : List Sock
  /-- One entry for each `queuePacketFromDataBuffer` registered with a socket. -/
  queueSlots : List Sock
  /-- Sockets handed to an `async_accept` that has not completed. -/
  accepting : List Sock
  /-- Sockets with a read loop. -/
  reading : List Sock
  /-- Disconnect slots of ended read loops that are still to be called. -/
  closing : List Sock
  deriving DecidableEq

namespace Connections

/-- A new manager with its communicator. -/
def create : Connections := ⟨.empty, ∅, ∅, [], [], [], [], []⟩

def registerSocket (st : Connections) (connection : Sock) : Option (SockIndex × Connections) :=
  match st.comm.registerSocket connection with
  | none => none
  | some (i, c) =>
    some (i, { st with comm := c, disconnectSlots := st.disconnectSlots ++ [connection] })

def createSocket (st : Connections) : Option (SockIndex × Sock × Connections) :=
  match st.comm.createSocket with
  | none => none
  | some (i, s, c) =>
    some (i, s, { st with comm := c, disconnectSlots := st.disconnectSlots ++ [s] })

def receiveNewConnection (st : Connections) (socketIndex : SockIndex) (newConnection : Sock) :
    Connections :=
  { st with
    setConnectionedSockets := insert newConnection st.setConnectionedSockets
    queueSlots := st.queueSlots ++ [newConnection]
    sendedKeys := insert socketIndex st.sendedKeys }

def receiveDisconnection (st : Connections) (socketIndex : SockIndex) : Connections :=
  { st with
    comm := (st.comm.getSocket socketIndex).2
    setConnectionedSockets := st.setConnectionedSockets.erase (st.comm.getSocket socketIndex).1
    sendedKeys := st.sendedKeys.erase socketIndex }

/-- `_mapIndexToSocket.erase( socketIndex )`. -/
def eraseIndex (st : Connections) (socketIndex : SockIndex) : Connections :=
  { st with comm :=
    { st.comm with mapIndexToSocket := st.comm.mapIndexToSocket.erase socketIndex } }

def disconnect (st : Connections) (socketIndex : SockIndex) : Connections :=
  if socketIndex ∈ st.comm.mapIndexToSocket then
    (st.eraseIndex socketIndex).receiveDisconnection socketIndex
  else st

/-- The loop of `disconnectAll` over the indices, and the `clear` behind it. -/
def disconnectLoop : List SockIndex → Connections → Connections
  | [], st => { st with comm := { st.comm with mapIndexToSocket := ∅ } }
  | i :: is, st =>
    if i ∈ st.comm.mapIndexToSocket then disconnectLoop is (st.receiveDisconnection i) else st

def disconnectAll (st : Connections) : Connections :=
  disconnectLoop st.comm.mapIndexToSocket.keys st

/-- `connectTo`; `ok` is the outcome of the blocking `connect`. -/
def connectTo (st : Connections) (ok : Bool) : Option Connections :=
  match st.createSocket with
  | none => none
  | some (i, s, st₁) =>
    if ok then
      some { st₁.receiveNewConnection i s with reading := st₁.reading ++ [s] }
    else
      match st₁.comm.deregisterSocket i with
      | none => none
      | some c => some { st₁ with comm := c }

/-- `bind_and_accept`; `ok` is the outcome of `bind`. -/
def bindAndAccept (st : Connections) (ok : Bool) : Option Connections :=
  match st.createSocket with
  | none => none
  | some (_, s, st₁) => some (if ok then { st₁ with accepting := st₁.accepting ++ [s] } else st₁)

/-- The branch of `socket_accept` for a connection that came in: the index is looked up, or the
    socket is registered again when it has been removed meanwhile. -/
def accepted (st : Connections) (conn : Sock) : Option Connections :=
  if st.comm.getSocketIndex conn = -1 then
    match st.registerSocket conn with
    | none => none
    | some (i, st₁) =>
      some ({ st₁ with reading := st₁.reading ++ [conn] }.receiveNewConnection i conn)
  else
    some ({ st with reading := st.reading ++ [conn] }.receiveNewConnection
      (st.comm.getSocketIndex conn) conn)

/-- The next `async_accept`, on a new socket. -/
def acceptNext (st : Connections) : Option Connections :=
  match st.createSocket with
  | none => none
  | some (_, s, st₁) => some { st₁ with accepting := st₁.accepting ++ [s] }

/-- `socket_accept` on a pending socket; without error when `ok`. -/
def socketAccept (st : Connections) (ok : Bool) (conn : Sock) : Option Connections :=
  if conn ∈ st.accepting then
    if ok then
      ({ st with accepting := st.accepting.erase conn }.accepted conn).bind acceptNext
    else
      { st with accepting := st.accepting.erase conn }.acceptNext
  else none

/-- A read loop ends with an error: its socket's disconnect slots are due. -/
def peerClose (st : Connections) (s : Sock) : Option Connections :=
  if s ∈ st.reading then
    some { st with
      reading := st.reading.erase s
      closing := st.closing ++ List.replicate (st.disconnectSlots.count s) s }
  else none

/-- One due `receiveDisconnectNotify`. -/
def receiveDisconnectNotify (st : Connections) (s : Sock) : Option Connections :=
  if s ∈ st.closing then
    some ({ st with closing := st.closing.erase s }.disconnect (st.comm.getSocketIndex s))
  else none

/-- The broadcast `sendPacket`: every connected socket with the index reported for it. -/
def broadcast (st : Connections) : Finset (SockIndex × Sock) :=
  st.setConnectionedSockets.image (fun s => (st.comm.getSocketIndex s, s))

end Connections

open Connections

/-- The operations, in any order. -/
inductive ConnOp where
  | connectTo (ok : Bool)
  | bindAndAccept (ok : Bool)
  | socketAccept (ok : Bool) (conn : Sock)
  | disconnect (socketIndex : SockIndex)
  | disconnectAll
  | peerClose (s : Sock)
  | disconnectNotify (s : Sock)
  deriving DecidableEq

/-- One operation; `none` when it is not pending or does not return. -/
def connStep (st : Connections) : ConnOp → Option Connections
  | .connectTo ok => st.connectTo ok
  | .bindAndAccept ok => st.bindAndAccept ok
  | .socketAccept ok conn => st.socketAccept ok conn
  | .disconnect i => some (st.disconnect i)
  | .disconnectAll => some st.disconnectAll
  | .peerClose s => st.peerClose s
  | .disconnectNotify s => st.receiveDisconnectNotify s

/-! ## Properties -/

namespace Connections

/-- `s` stands in `_mapIndexToSocket`. -/
def Registered (st : Connections) (s : Sock) : Prop :=
  ∃ i, st.comm.mapIndexToSocket.lookup i = some s

/-- The connected-set invariant: connected sockets are registered, and a broadcast goes to live
    connections. -/
def ConnectedRegistered (st : Connections) : Prop :=
  (∀ s ∈ st.setConnectionedSockets, st.Registered s) ∧
    ∀ t ∈ st.broadcast, st.comm.mapIndexToSocket.lookup t.1 = some t.2

/-- Index `i` is the only registration of a connected socket. -/
def HoldsConnected (st : Connections) (i : SockIndex) : Prop :=
  ∃ s ∈ st.setConnectionedSockets, st.comm.mapIndexToSocket.lookup i = some s ∧
    ∀ j, j ≠ i → st.comm.mapIndexToSocket.lookup j ≠ some s

/-- The condition on a step: no `disconnect`, and no removal after a peer's close, takes the only
    registration of a connected socket. -/
def KeepsConnected (st : Connections) : ConnOp → Prop
  | .disconnect i => ¬ st.HoldsConnected i
  | .disconnectNotify s => ¬ st.HoldsConnected (st.comm.getSocketIndex s)
  | _ => True

end Connections

/-! ## Growth of the tables -/

/-- Connected and pending sockets have been created. -/
structure Created (st : Connections) : Prop where
  connected_lt : ∀ s ∈ st.setConnectionedSockets, s < st.comm.nextSock
  accepting_lt : ∀ s ∈ st.accepting, s < st.comm.nextSock

/-- What connecting and accepting may do: registrations are kept, and what joins the connected
    set is registered. -/
structure Grows (st st' : Connections) : Prop where
  registered : ∀ s, st.Registered s → st'.Registered s
  connected : ∀ s ∈ st'.setConnectionedSockets, s ∈ st.setConnectionedSockets ∨ st'.Registered s
  created : Created st'

theorem Grows.refl {st : Connections} (hc : Created st) : Grows st st :=
  ⟨fun _ h => h, fun _ h => .inl h, hc⟩

theorem Grows.trans {st₁ st₂ st₃ : Connections} (h₁ : Grows st₁ st₂) (h₂ : Grows st₂ st₃) :
    Grows st₁ st₃ := by
  refine ⟨fun s hs => h₂.registered s (h₁.registered s hs), fun s hs => ?_, h₂.created⟩
  rcases h₂.connected s hs with hs | hs
  · rcases h₁.connected s hs with hs | hs
    · exact .inl hs
    · exact .inr (h₂.registered s hs)
  · exact .inr hs

theorem create_created : Created Connections.create := by
  constructor <;> · intro s hs; simp [Connections.create] at hs

/-- A new entry under a free index. -/
theorem insert_grows {st : Connections} {c : CNetworkCommunicator} {s : Sock} {i : SockIndex}
    (slots : List Sock) (hc : Created st) (hfree : i ∉ st.comm.mapIndexToSocket)
    (hmap : c.mapIndexToSocket = st.comm.mapIndexToSocket.insert i s)
    (hnext : st.comm.nextSock ≤ c.nextSock) :
    Grows st { st with comm := c, disconnectSlots := slots } ∧
      c.mapIndexToSocket.lookup i = some s := by
  refine ⟨⟨?_, fun t ht => .inl ht, ⟨?_, ?_⟩⟩, by simp [hmap]⟩
  · rintro t ⟨k, hk⟩
    refine ⟨k, ?_⟩
    rw [hmap]
    exact lookup_insert_of_free hfree hk
  · exact fun t ht => Nat.lt_of_lt_of_le (hc.connected_lt t ht) hnext
  · exact fun t ht => Nat.lt_of_lt_of_le (hc.accepting_lt t ht) hnext

theorem registerSocket_grows {st st' : Connections} {s : Sock} {i : SockIndex} (hc : Created st)
    (h : st.registerSocket s = some (i, st')) :
    Grows st st' ∧ st'.Registered s ∧ st'.comm.nextSock = st.comm.nextSock := by
  unfold Connections.registerSocket at h
  split at h
  · cases h
  · rename_i j c hreg
    cases h
    obtain ⟨hfree, _, hmap, hnext⟩ := registerSocket_spec hreg
    obtain ⟨hg, hs⟩ :=
      insert_grows (st.disconnectSlots ++ [s]) hc hfree hmap (Nat.le_of_eq hnext.symm)
    exact ⟨hg, ⟨i, hs⟩, hnext⟩

/-- The index given out by `createSocket` was free, and its socket is new. -/
theorem createSocket_grows {st st' : Connections} {s : Sock} {i : SockIndex} (hc : Created st)
    (h : st.createSocket = some (i, s, st')) :
    Grows st st' ∧ st'.Registered s ∧ s < st'.comm.nextSock ∧ i ∉ st.comm.mapIndexToSocket ∧
      st'.comm.mapIndexToSocket = st.comm.mapIndexToSocket.insert i s ∧
      st'.setConnectionedSockets = st.setConnectionedSockets := by
  unfold Connections.createSocket at h
  split at h
  · cases h
  · rename_i j t c hcre
    cases h
    obtain ⟨hs, hfree, _, hmap, hnext⟩ := createSocket_spec hcre
    obtain ⟨hg, hreg⟩ := insert_grows (st.disconnectSlots ++ [s]) hc hfree hmap
      (by rw [hnext]; exact Nat.le_succ _)
    refine ⟨hg, ⟨i, hreg⟩, ?_, hfree, hmap, rfl⟩
    simp only [hs, hnext]
    exact Nat.lt_succ_self _

theorem receiveNewConnection_grows {st : Connections} {s : Sock} (i : SockIndex)
    (readers : List Sock) (hc : Created st) (hreg : st.Registered s)
    (hlt : s < st.comm.nextSock) :
    Grows st { st.receiveNewConnection i s with reading := readers } := by
  refine ⟨fun _ h => h, fun t ht => ?_, ⟨fun t ht => ?_, hc.accepting_lt⟩⟩
  · rcases Finset.mem_insert.mp ht with rfl | ht
    · exact .inr hreg
    · exact .inl ht
  · rcases Finset.mem_insert.mp ht with rfl | ht
    · exact hlt
    · exact hc.connected_lt t ht

/-- A created socket becomes pending. -/
theorem accepting_grows {st : Connections} {s : Sock} (hc : Created st)
    (hlt : s < st.comm.nextSock) :
    Grows st { st with accepting := st.accepting ++ [s] } := by
  refine ⟨fun _ h => h, fun _ h => .inl h, ⟨hc.connected_lt, fun t ht => ?_⟩⟩
  rcases List.mem_append.mp ht with ht | ht
  · exact hc.accepting_lt t ht
  · rw [List.mem_singleton.mp ht]
    exact hlt

/-! ## Connecting -/

/-- A failed `connect` takes back the registration it has made. -/
theorem deregister_grows {st st₁ : Connections} {c : CNetworkCommunicator} {s : Sock}
    {i : SockIndex} (hc : Created st) (hcre : st.createSocket = some (i, s, st₁))
    (hder : st₁.comm.deregisterSocket i = some c) : Grows st { st₁ with comm := c } := by
  obtain ⟨hg, _, _, hfree, hmap, hset⟩ := createSocket_grows hc hcre
  rcases deregisterSocket_cases hder with rfl | rfl
  · exact hg
  · refine ⟨?_, fun t ht => .inl (hset ▸ ht), hg.created.connected_lt, hg.created.accepting_lt⟩
    -- only the index that was free before is erased
    rintro t ⟨k, hk⟩
    have hne : k ≠ i := by
      rintro rfl
      rw [AList.lookup_eq_none.mpr hfree] at hk
      cases hk
    refine ⟨k, lookup_erase_some.mpr ⟨hne, ?_⟩⟩
    rw [hmap]
    exact lookup_insert_of_free hfree hk

theorem connectTo_grows {st st' : Connections} {ok : Bool} (hc : Created st)
    (h : st.connectTo ok = some st') : Grows st st' := by
  unfold Connections.connectTo at h
  split at h
  · cases h
  · rename_i i s st₁ hcre
    obtain ⟨hg, hreg, hlt, _⟩ := createSocket_grows hc hcre
    split at h
    · cases h
      exact hg.trans (receiveNewConnection_grows i _ hg.created hreg hlt)
    · split at h
      · cases h
      · rename_i c hder
        cases h
        exact deregister_grows hc hcre hder

theorem bindAndAccept_grows {st st' : Connections} {ok : Bool} (hc : Created st)
    (h : st.bindAndAccept ok = some st') : Grows st st' := by
  unfold Connections.bindAndAccept at h
  split at h
  · cases h
  · rename_i i s st₁ hcre
    obtain ⟨hg, _, hlt, _⟩ := createSocket_grows hc hcre
    cases h
    split
    · exact hg.trans (accepting_grows hg.created hlt)
    · exact hg

/-- An accepted socket is registered when it is announced, whether or not its first registration
    has been removed while it was pending. -/
theorem accepted_grows {st st' : Connections} {conn : Sock} (hc : Created st)
    (hlt : conn < st.comm.nextSock) (h : st.accepted conn = some st') : Grows st st' := by
  unfold accepted at h
  split at h
  · split at h
    · cases h
    · rename_i i st₁ hregister
      cases h
      obtain ⟨hg, hreg, hnext⟩ := registerSocket_grows hc hregister
      exact hg.trans (receiveNewConnection_grows i _ hg.created hreg (hnext ▸ hlt))
  · rename_i hfound
    cases h
    have hreg : st.Registered conn := ⟨_, getSocketIndex_found hfound⟩
    exact receiveNewConnection_grows _ _ hc hreg hlt

theorem acceptNext_grows {st st' : Connections} (hc : Created st)
    (h : st.acceptNext = some st') : Grows st st' := by
  unfold acceptNext at h
  split at h
  · cases h
  · rename_i i s st₁ hcre
    cases h
    obtain ⟨hg, _, hlt, _⟩ := createSocket_grows hc hcre
    exact hg.trans (accepting_grows hg.created hlt)

theorem socketAccept_grows {st st' : Connections} {ok : Bool} {conn : Sock} (hc : Created st)
    (h : st.socketAccept ok conn = some st') : Grows st st' := by
  unfold socketAccept at h
  split at h
  · rename_i hmem
    have hg₀ : Grows st { st with accepting := st.accepting.erase conn } :=
      ⟨fun _ h => h, fun _ h => .inl h, hc.connected_lt,
        fun t ht => hc.accepting_lt t (List.mem_of_mem_erase ht)⟩
    split at h
    · obtain ⟨st₁, hacc, hnext⟩ := Option.bind_eq_some_iff.mp h
      have hg₁ := hg₀.trans (accepted_grows hg₀.created (hc.accepting_lt conn hmem) hacc)
      exact hg₁.trans (acceptNext_grows hg₁.created hnext)
    · exact hg₀.trans (acceptNext_grows hg₀.created h)
  · cases h

/-! ## Disconnecting -/

/-- **`disconnect` leaves the connected set as it is**: the index is gone when the notification
    asks for its socket, so a socket made up for the question is erased. -/
theorem disconnect_set {st : Connections} (hinv : ∀ s ∈ st.setConnectionedSockets,
    s < st.comm.nextSock) (i : SockIndex) :
    (st.disconnect i).setConnectionedSockets = st.setConnectionedSockets := by
  unfold Connections.disconnect
  split
  · have hget : ((st.eraseIndex i).comm.getSocket i).1 = st.comm.nextSock := by
      simp [getSocket, Connections.eraseIndex, createObject]
    simp only [receiveDisconnection, hget]
    apply Finset.erase_eq_of_notMem
    intro hmem
    exact absurd (hinv _ hmem) (Nat.lt_irrefl _)
  · rfl

theorem disconnect_lookup (st : Connections) (i j : SockIndex) :
    (st.disconnect i).comm.mapIndexToSocket.lookup j =
      if j = i then none else st.comm.mapIndexToSocket.lookup j := by
  unfold Connections.disconnect
  split
  · by_cases hj : j = i
    · subst hj
      simp [receiveDisconnection, getSocket, Connections.eraseIndex, createObject]
    · simp [receiveDisconnection, getSocket, Connections.eraseIndex, createObject, hj,
        AList.lookup_erase_ne hj]
  · rename_i hi
    by_cases hj : j = i
    · subst hj
      simpa using AList.lookup_eq_none.mpr hi
    · simp [hj]

theorem disconnect_nextSock (st : Connections) (i : SockIndex) :
    st.comm.nextSock ≤ (st.disconnect i).comm.nextSock := by
  unfold Connections.disconnect
  split
  · simp [receiveDisconnection, getSocket, Connections.eraseIndex, createObject]
  · exact Nat.le_refl _

theorem disconnect_accepting (st : Connections) (i : SockIndex) :
    (st.disconnect i).accepting = st.accepting := by
  unfold Connections.disconnect
  split <;> rfl

theorem disconnect_created {st : Connections} (hc : Created st) (i : SockIndex) :
    Created (st.disconnect i) := by
  have hnext := disconnect_nextSock st i
  constructor
  · intro s hs
    rw [disconnect_set hc.connected_lt] at hs
    exact Nat.lt_of_lt_of_le (hc.connected_lt s hs) hnext
  · intro s hs
    rw [disconnect_accepting] at hs
    exact Nat.lt_of_lt_of_le (hc.accepting_lt s hs) hnext

/-- Every connected socket stays registered unless its last registration is removed. -/
theorem disconnect_registered_iff {st : Connections} {i : SockIndex} (hc : Created st)
    (hreg : ∀ s ∈ st.setConnectionedSockets, st.Registered s) :
    (∀ s ∈ (st.disconnect i).setConnectionedSockets, (st.disconnect i).Registered s) ↔
      ¬ st.HoldsConnected i := by
  rw [disconnect_set hc.connected_lt]
  constructor
  · rintro hall ⟨s, hs, _, honly⟩
    obtain ⟨j, hj⟩ := hall s hs
    rw [disconnect_lookup] at hj
    split at hj
    · cases hj
    · rename_i hji
      exact honly j hji hj
  · intro hkeep s hs
    obtain ⟨k, hk⟩ := hreg s hs
    by_cases hki : k = i
    · subst hki
      by_contra hnone
      refine hkeep ⟨s, hs, hk, fun j hj hl => hnone ⟨j, ?_⟩⟩
      rw [disconnect_lookup, if_neg hj, hl]
    · exact ⟨k, by rw [disconnect_lookup, if_neg hki, hk]⟩

/-- Removing connections one by one, in whatever order. -/
theorem disconnect_foldl_set : ∀ (order : List SockIndex) (st : Connections), Created st →
    (order.foldl Connections.disconnect st).setConnectionedSockets = st.setConnectionedSockets
  | [], _, _ => rfl
  | i :: order, st, hc => by
    rw [List.foldl_cons, disconnect_foldl_set order _ (disconnect_created hc i),
      disconnect_set hc.connected_lt]

theorem receiveDisconnection_comm {st : Connections} {i : SockIndex}
    (hi : i ∈ st.comm.mapIndexToSocket) : (st.receiveDisconnection i).comm = st.comm := by
  obtain ⟨s, hs⟩ := exists_lookup_of_mem hi
  simp [receiveDisconnection, getSocket, hs]

/-- While the map is full, the loop of `disconnectAll` takes each index's socket from the set. -/
theorem disconnectLoop_spec : ∀ (is : List SockIndex) (st : Connections),
    (∀ i ∈ is, i ∈ st.comm.mapIndexToSocket) →
      (disconnectLoop is st).comm = { st.comm with mapIndexToSocket := ∅ } ∧
        (disconnectLoop is st).accepting = st.accepting ∧
        ∀ s, s ∈ (disconnectLoop is st).setConnectionedSockets ↔
          s ∈ st.setConnectionedSockets ∧
            ∀ i ∈ is, st.comm.mapIndexToSocket.lookup i ≠ some s
  | [], st, _ => by simp [disconnectLoop]
  | i :: is, st, hall => by
    have hi := hall i List.mem_cons_self
    have hcomm := receiveDisconnection_comm hi
    obtain ⟨h1, h2, h3⟩ := disconnectLoop_spec is (st.receiveDisconnection i) (by
      rw [hcomm]
      exact fun j hj => hall j (List.mem_cons_of_mem i hj))
    obtain ⟨t, ht⟩ := exists_lookup_of_mem hi
    have hset : (st.receiveDisconnection i).setConnectionedSockets =
        st.setConnectionedSockets.erase t := by
      simp [receiveDisconnection, getSocket, ht]
    rw [hcomm] at h1
    simp only [disconnectLoop, if_pos hi]
    refine ⟨h1, h2, fun s => ?_⟩
    rw [h3, hset, hcomm, Finset.mem_erase]
    simp only [List.forall_mem_cons, ht, ne_eq, Option.some.injEq]
    constructor
    · rintro ⟨⟨hne, hs⟩, hrest⟩
      exact ⟨hs, fun hts => hne hts.symm, hrest⟩
    · rintro ⟨hs, hne, hrest⟩
      exact ⟨⟨fun hst => hne hst.symm, hs⟩, hrest⟩

/-- **`disconnectAll` takes every registered socket from the connected set.** -/
theorem disconnectAll_set (st : Connections) (s : Sock) :
    s ∈ st.disconnectAll.setConnectionedSockets ↔
      s ∈ st.setConnectionedSockets ∧ ¬ st.Registered s := by
  have hspec := (disconnectLoop_spec st.comm.mapIndexToSocket.keys st
    (fun i hi => AList.mem_keys.mpr hi)).2.2 s
  unfold disconnectAll Connections.Registered
  rw [hspec]
  refine and_congr_right fun _ => ⟨?_, ?_⟩
  · rintro hno ⟨i, hi⟩
    have hmem : i ∈ st.comm.mapIndexToSocket := by
      by_contra habs
      rw [AList.lookup_eq_none.mpr habs] at hi
      cases hi
    exact hno i (AList.mem_keys.mp hmem) hi
  · intro hno i _ hi
    exact hno ⟨i, hi⟩

theorem disconnectAll_created {st : Connections} (hc : Created st) :
    Created st.disconnectAll := by
  obtain ⟨hcomm, hacc, _⟩ := disconnectLoop_spec st.comm.mapIndexToSocket.keys st
    (fun i hi => AList.mem_keys.mpr hi)
  constructor
  · intro s hs
    have hlt := hc.connected_lt s ((disconnectAll_set st s).mp hs).1
    unfold disconnectAll
    rwa [hcomm]
  · intro s hs
    unfold disconnectAll at hs ⊢
    rw [hacc] at hs
    rw [hcomm]
    exact hc.accepting_lt s hs

/-! ## Whole runs -/

/-- What an operation does: the tables grow, or one registration is removed by `disconnect`, or
    everything is removed by `disconnectAll`. -/
theorem connStep_cases {st st' : Connections} {op : ConnOp} (hc : Created st)
    (h : connStep st op = some st') :
    (Grows st st' ∧ st.KeepsConnected op) ∨
      (∃ st₀ i, Created st₀ ∧ st₀.comm = st.comm ∧
        st₀.setConnectionedSockets = st.setConnectionedSockets ∧ st' = st₀.disconnect i ∧
        (st.KeepsConnected op ↔ ¬ st₀.HoldsConnected i)) ∨
      (st' = st.disconnectAll ∧ st.KeepsConnected op) := by
  cases op with
  | connectTo ok => exact .inl ⟨connectTo_grows hc h, trivial⟩
  | bindAndAccept ok => exact .inl ⟨bindAndAccept_grows hc h, trivial⟩
  | socketAccept ok conn => exact .inl ⟨socketAccept_grows hc h, trivial⟩
  | disconnect i =>
    cases h
    exact .inr (.inl ⟨st, i, hc, rfl, rfl, rfl, Iff.rfl⟩)
  | disconnectAll =>
    cases h
    exact .inr (.inr ⟨rfl, trivial⟩)
  | peerClose s =>
    simp only [connStep, Connections.peerClose] at h
    split at h
    · cases h
      exact .inl ⟨⟨fun _ h => h, fun _ h => .inl h, hc.connected_lt, hc.accepting_lt⟩, trivial⟩
    · cases h
  | disconnectNotify s =>
    simp only [connStep, receiveDisconnectNotify] at h
    split at h
    · cases h
      exact .inr (.inl ⟨{ st with closing := st.closing.erase s }, st.comm.getSocketIndex s,
        ⟨hc.connected_lt, hc.accepting_lt⟩, rfl, rfl, rfl, Iff.rfl⟩)
    · cases h

theorem connStep_created {st st' : Connections} {op : ConnOp} (hc : Created st)
    (h : connStep st op = some st') : Created st' := by
  rcases connStep_cases hc h with ⟨hg, _⟩ | ⟨st₀, i, hc₀, _, _, rfl, _⟩ | ⟨rfl, _⟩
  · exact hg.created
  · exact disconnect_created hc₀ i
  · exact disconnectAll_created hc

/-- One step keeps every connected socket registered exactly when it meets the condition. -/
theorem connStep_registered_iff {st st' : Connections} {op : ConnOp} (hc : Created st)
    (hreg : ∀ s ∈ st.setConnectionedSockets, st.Registered s) (h : connStep st op = some st') :
    (∀ s ∈ st'.setConnectionedSockets, st'.Registered s) ↔ st.KeepsConnected op := by
  rcases connStep_cases hc h with ⟨hg, hk⟩ | ⟨st₀, i, hc₀, hcomm, hset, rfl, hk⟩ | ⟨rfl, hk⟩
  · refine iff_of_true (fun s hs => ?_) hk
    rcases hg.connected s hs with hs | hs
    · exact hg.registered s (hreg s hs)
    · exact hs
  · rw [hk]
    apply disconnect_registered_iff hc₀
    unfold Connections.Registered
    rw [hcomm, hset]
    exact hreg
  · refine iff_of_true (fun s hs => ?_) hk
    obtain ⟨hs, hun⟩ := (disconnectAll_set st s).mp hs
    exact absurd (hreg s hs) hun

/-- A broadcast goes to live connections as soon as every connected socket is registered. -/
theorem connectedRegistered_iff (st : Connections) :
    st.ConnectedRegistered ↔ ∀ s ∈ st.setConnectionedSockets, st.Registered s := by
  refine ⟨fun h => h.1, fun h => ⟨h, fun t ht => ?_⟩⟩
  obtain ⟨s, hs, rfl⟩ := Finset.mem_image.mp ht
  obtain ⟨i, hi⟩ := h s hs
  exact getSocketIndex_registered hi

/-- **When the connected set stays registered.**  Along any run from a new manager, every
    connected socket is registered and broadcasts go to live connections exactly when no removal
    takes the only registration of a connected socket.  In every state reached, removing the
    connections one by one, in any order, leaves the set that `disconnectAll` leaves exactly when
    no registered socket is connected. -/
theorem connected_set_registered_iff (ops : List ConnOp) :
    (Always connStep ConnectedRegistered Connections.create ops ↔
      Meets connStep KeepsConnected Connections.create ops) ∧
    ∀ st, run connStep Connections.create ops = some st →
      ∀ order : List SockIndex, order.Perm st.comm.mapIndexToSocket.keys →
        ((order.foldl Connections.disconnect st).setConnectionedSockets =
            st.disconnectAll.setConnectionedSockets ↔
          ∀ s ∈ st.setConnectionedSockets, ¬ st.Registered s) := by
  constructor
  · apply always_iff_meets (I := fun st => Created st ∧ st.ConnectedRegistered)
    · exact fun st hi => hi.2
    · rintro st op st' ⟨hc, hp⟩ hk h
      refine ⟨connStep_created hc h, (connectedRegistered_iff st').mpr ?_⟩
      exact (connStep_registered_iff hc hp.1 h).mpr hk
    · rintro st op st' ⟨hc, hp⟩ hk h hp'
      exact hk ((connStep_registered_iff hc hp.1 h).mp hp'.1)
    · refine ⟨create_created, (connectedRegistered_iff _).mpr fun s hs => ?_⟩
      simp [Connections.create] at hs
  · intro st hrun order _
    have hc : Created st := run_invariant (I := Created)
      (fun _ _ _ hi hs => connStep_created hi hs) create_created hrun
    rw [disconnect_foldl_set order st hc, Finset.ext_iff]
    constructor
    · intro heq s hs
      exact ((disconnectAll_set st s).mp ((heq s).mp hs)).2
    · intro hno s
      rw [disconnectAll_set]
      exact ⟨fun hs => ⟨hs, hno s hs⟩, fun hs => hs.1⟩

/-- One connection, closed by `disconnect( 1 )`: the set still holds its socket, and a broadcast
    would go to it; `disconnectAll` in place of `disconnect( 1 )` would have emptied the set. -/
theorem disconnect_leaves_connected :
    ∃ st st', run connStep Connections.create [.connectTo true] = some st ∧
      run connStep Connections.create [.connectTo true, .disconnect 1] = some st' ∧
      ¬ st'.ConnectedRegistered ∧ st.comm.mapIndexToSocket.keys = [1] ∧
      ([1].foldl Connections.disconnect st).setConnectionedSockets ≠
        st.disconnectAll.setConnectionedSockets := by
  refine ⟨_, _, rfl, rfl, ?_, by decide, by decide⟩
  rintro ⟨hreg, _⟩
  obtain ⟨i, hi⟩ := hreg 0 (by decide)
  cases hi

end IMonPlatform
