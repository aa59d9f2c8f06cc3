import Mathlib.Logic.Function.Basic
import IMonPlatform.Net.Registry

/-!
# Connection notifications

`CNetworkCommunicator` tells its subscribers of a new connection from `connectTo` and from
`socket_accept`, and of a lost one from `disconnect` and `disconnectAll`.  A socket is registered
long before it is announced: a pending accept socket stands in `_mapIndexToSocket` from the start,
and an accepted socket is read before its announcement.

The locked sections and the returns of `registerSocket` are those of `Registry`; over them the
calls are cut where other threads can come in between: `connectTo` before the outcome of `connect`,
`socket_accept` before its slots, `disconnect` between its locked section and its slots.  The slots
of `disconnectAll` run inside its locked section.  The subscriber is the manager, of whose tables
only the keys of `_mapSocketToSendedPacket` are kept: one for each index it has been told of.

* `Notifying` — registry, the calls under way, the manager's keys and what the subscriber was told
  of the latest registration under each index.
* `AllPaired` — every registration is told of as nothing, as new, or as new and then gone.
* `ReturnsOwn` — a caller of `registerSocket` is given the index that the call stored.
* `AnnouncedFirst` — a disconnection is told only for an index that the manager has a key for.
* `Told`, `Waiting` — the two halves of the invariant: what has been told, and the sockets before
  their announcement.
-/

set_option autoImplicit false

namespace IMonPlatform

open CNetworkCommunicator Transition

/-! ## State and steps -/

inductive Notification where
  | newConnection
  | disconnection
  deriving DecidableEq

/-- Where a call stands that is to announce a connection. -/
inductive CallStage where
  /-- `connectTo` inside `registerSocket`, behind the locked section. -/
  | connectStored
  /-- `connectTo` before the outcome of `connect`. -/
  | connecting
  /-- `socket_accept` inside `registerSocket`, behind the locked section. -/
  | acceptStored
  /-- `socket_accept` that reads and has not run the slots. -/
  | accepted
  deriving DecidableEq

/-- Such a call, with the index that was stored and, from the return of `registerSocket` on, with
    the index that was returned. -/
structure ConnCall where
  stage : CallStage
  socketIndex : SockIndex
  connection : Sock
  deriving DecidableEq

structure Notifying where
  registry : Registry
  calls : List ConnCall
  /-- `disconnect` calls behind their locked section that have not run the slots. -/
  leaving : List SockIndex
  /-- One entry for each `receiveDisconnectNotify` registered with a socket. -/
  disconnectSlots : List Sock
  /-- Sockets with a read loop. -/
  reading : List Sock
  /-- Disconnect slots of ended read loops that are still to be called. -/
  closing : List Sock
  /-- Keys of `_mapSocketToSendedPacket`. -/
  sendedKeys : Finset SockIndex
  /-- What the subscriber was told of the latest registration under an index. -/
  notified : SockIndex → List Notification

inductive NotifyOp where
  /-- The section of `createSocket` in `bind_and_accept` or at the end of `socket_accept`. -/
  | createAccept
  /-- Its return, and `async_accept`. -/
  | returnAccept (conn : Sock)
  /-- `socket_accept` with an error, or the end of a `bind_and_accept` that could not bind. -/
  | acceptError (conn : Sock)
  /-- `socket_accept` up to its lookup, and up to `receivePacket` when that finds the socket. -/
  | acceptLookup (conn : Sock)
  /-- The section of the second registration in `socket_accept`. -/
  | acceptAgain (conn : Sock)
  /-- Its return, and `receivePacket`. -/
  | acceptReturn (key : SockIndex) (conn : Sock)
  /-- The new-connection slots of `socket_accept`. -/
  | acceptEnd (socketIndex : SockIndex) (conn : Sock)
  /-- The section of `createSocket` in `connectTo`. -/
  | connectStart
  /-- Its return. -/
  | connectReturn (key : SockIndex) (s : Sock)
  /-- `connectTo` from the outcome of `connect` on. -/
  | connectEnd (socketIndex : SockIndex) (s : Sock) (ok : Bool)
  /-- The locked section of `disconnect`. -/
  | disconnect (socketIndex : SockIndex)
  /-- Its slots. -/
  | disconnectTell (socketIndex : SockIndex)
  | disconnectAll
  | peerClose (s : Sock)
  /-- `receiveDisconnectNotify` up to the end of the section of `disconnect`. -/
  | disconnectNotify (s : Sock)
  deriving DecidableEq

namespace Notifying

def create : Notifying := ⟨.create, [], [], [], [], [], ∅, fun _ => []⟩

/-- The section of a registration: the counter of `r` names it, and nothing has been told of it. -/
def store (st : Notifying) (r : Registry) : Notifying :=
  { st with registry := r, notified := Function.update st.notified r.comm.socketIndex [] }

/-- The new-connection slots. -/
def announce (st : Notifying) (i : SockIndex) : Notifying :=
  { st with
    sendedKeys := insert i st.sendedKeys
    notified := Function.update st.notified i (st.notified i ++ [.newConnection]) }

/-- The disconnection slots. -/
def tellGone (st : Notifying) (i : SockIndex) : Notifying :=
  { st with
    sendedKeys := st.sendedKeys.erase i
    notified := Function.update st.notified i (st.notified i ++ [.disconnection]) }

/-- The socket is read from now on. -/
def startRead (st : Notifying) (s : Sock) : Notifying :=
  { st with reading := st.reading ++ [s] }

def createAccept (st : Notifying) : Option Notifying :=
  (st.registry.step (.createSocket true)).map st.store

def returnAccept (st : Notifying) (conn : Sock) : Option Notifying :=
  (st.registry.step (.returnAccept conn)).map fun r =>
    { st with registry := r, disconnectSlots := st.disconnectSlots ++ [conn] }

def acceptError (st : Notifying) (conn : Sock) : Option Notifying :=
  (st.registry.step (.acceptError conn)).map fun r => { st with registry := r }

def acceptLookup (st : Notifying) (conn : Sock) : Option Notifying :=
  (st.registry.step (.acceptLookup conn)).map fun r =>
    if st.registry.comm.getSocketIndex conn = -1 then { st with registry := r }
    else startRead { st with
      registry := r
      calls := st.calls ++ [⟨.accepted, st.registry.comm.getSocketIndex conn, conn⟩] } conn

def acceptAgain (st : Notifying) (conn : Sock) : Option Notifying :=
  (st.registry.step (.registerSocket conn)).map fun r =>
    { st.store r with calls := st.calls ++ [⟨.acceptStored, r.comm.socketIndex, conn⟩] }

def connectStart (st : Notifying) : Option Notifying :=
  (st.registry.step (.createSocket false)).map fun r => { st.store r with
    calls := st.calls ++ [⟨.connectStored, r.comm.socketIndex, st.registry.comm.nextSock⟩] }

/-- `registerSocket` behind its locked section: `registerDisconnect` and `return _socketIndex`. -/
def registerReturn (st : Notifying) (stage stage' : CallStage) (key : SockIndex) (s : Sock) :
    Option Notifying :=
  if ConnCall.mk stage key s ∈ st.calls then
    (st.registry.step (.returnIndex s)).map fun r => { st with
      registry := r
      disconnectSlots := st.disconnectSlots ++ [s]
      calls := st.calls.erase ⟨stage, key, s⟩ ++ [⟨stage', st.registry.comm.socketIndex, s⟩] }
  else none

def connectReturn (st : Notifying) (key : SockIndex) (s : Sock) : Option Notifying :=
  st.registerReturn .connectStored .connecting key s

def acceptReturn (st : Notifying) (key : SockIndex) (conn : Sock) : Option Notifying :=
  (st.registerReturn .acceptStored .accepted key conn).map (·.startRead conn)

def connectEnd (st : Notifying) (i : SockIndex) (s : Sock) (ok : Bool) : Option Notifying :=
  if ConnCall.mk .connecting i s ∈ st.calls then
    if ok then
      some ((announce { st with calls := st.calls.erase ⟨.connecting, i, s⟩ } i).startRead s)
    else
      (st.registry.step (.deregisterSocket i)).map fun r =>
        { st with registry := r, calls := st.calls.erase ⟨.connecting, i, s⟩ }
  else none

def acceptEnd (st : Notifying) (i : SockIndex) (conn : Sock) : Option Notifying :=
  if ConnCall.mk .accepted i conn ∈ st.calls then
    some (announce { st with calls := st.calls.erase ⟨.accepted, i, conn⟩ } i)
  else none

def disconnect (st : Notifying) (i : SockIndex) : Option Notifying :=
  if i ∈ st.registry.comm.mapIndexToSocket then
    (st.registry.step (.disconnect i)).map fun r =>
      { st with registry := r, leaving := st.leaving ++ [i] }
  else some st

def disconnectTell (st : Notifying) (i : SockIndex) : Option Notifying :=
  if i ∈ st.leaving then some { st.tellGone i with leaving := st.leaving.erase i } else none

def disconnectAll (st : Notifying) : Option Notifying :=
  (st.registry.step .disconnectAll).map fun r =>
    { st.registry.comm.mapIndexToSocket.keys.foldl tellGone st with registry := r }

/-- A read loop ends with an error: its socket's disconnect slots are due. -/
def peerClose (st : Notifying) (s : Sock) : Option Notifying :=
  if s ∈ st.reading then
    some { st with
      reading := st.reading.erase s
      closing := st.closing ++ List.replicate (st.disconnectSlots.count s) s }
  else none

def receiveDisconnectNotify (st : Notifying) (s : Sock) : Option Notifying :=
  if s ∈ st.closing then
    { st with closing := st.closing.erase s }.disconnect (st.registry.comm.getSocketIndex s)
  else none

def step (st : Notifying) : NotifyOp → Option Notifying
  | .createAccept => st.createAccept
  | .returnAccept conn => st.returnAccept conn
  | .acceptError conn => st.acceptError conn
  | .acceptLookup conn => st.acceptLookup conn
  | .acceptAgain conn => st.acceptAgain conn
  | .acceptReturn key conn => st.acceptReturn key conn
  | .acceptEnd i conn => st.acceptEnd i conn
  | .connectStart => st.connectStart
  | .connectReturn key s => st.connectReturn key s
  | .connectEnd i s ok => st.connectEnd i s ok
  | .disconnect i => st.disconnect i
  | .disconnectTell i => st.disconnectTell i
  | .disconnectAll => st.disconnectAll
  | .peerClose s => st.peerClose s
  | .disconnectNotify s => st.receiveDisconnectNotify s

/-! ## Properties -/

/-- Nothing, new, or new and then gone. -/
def Paired (told : List Notification) : Prop :=
  told = [] ∨ told = [.newConnection] ∨ told = [.newConnection, .disconnection]

/-- Every registration is told of in pairs. -/
def AllPaired (st : Notifying) : Prop := ∀ i, Paired (st.notified i)

/-- The index that the next registration stores. -/
def nextIndex (st : Notifying) : Option SockIndex :=
  freeIndex st.registry.comm.mapIndexToSocket (st.registry.comm.mapIndexToSocket.keys.length + 1)
    (interlockedIncrement st.registry.comm.socketIndex)

/-- The first condition on a step: a caller of `registerSocket` that goes on with the index is
    given the one that the call stored, and no registration takes an index whose disconnection is
    still to be told. -/
def ReturnsOwn (st : Notifying) : NotifyOp → Prop
  | .createAccept | .acceptAgain _ | .connectStart => ∀ i ∈ st.leaving, st.nextIndex ≠ some i
  | .acceptReturn key _ | .connectReturn key _ => st.registry.comm.socketIndex = key
  | _ => True

/-- The second condition on a step: only announced indices are told of as gone. -/
def AnnouncedFirst (st : Notifying) : NotifyOp → Prop
  | .disconnectTell i => i ∈ st.sendedKeys
  | .disconnectAll => ∀ i ∈ st.registry.comm.mapIndexToSocket.keys, i ∈ st.sendedKeys
  | _ => True

instance (st : Notifying) : DecidablePred st.ReturnsOwn
  | .createAccept | .acceptAgain _ | .connectStart =>
    inferInstanceAs (Decidable (∀ i ∈ st.leaving, st.nextIndex ≠ some i))
  | .acceptReturn key _ | .connectReturn key _ =>
    inferInstanceAs (Decidable (st.registry.comm.socketIndex = key))
  | .returnAccept _ | .acceptError _ | .acceptLookup _ | .acceptEnd _ _ | .connectEnd _ _ _
  | .disconnect _ | .disconnectTell _ | .disconnectAll | .peerClose _ | .disconnectNotify _ =>
    isTrue trivial

instance (st : Notifying) : DecidablePred st.AnnouncedFirst
  | .disconnectTell i => inferInstanceAs (Decidable (i ∈ st.sendedKeys))
  | .disconnectAll =>
    inferInstanceAs (Decidable (∀ i ∈ st.registry.comm.mapIndexToSocket.keys, i ∈ st.sendedKeys))
  | .createAccept | .returnAccept _ | .acceptError _ | .acceptLookup _ | .acceptAgain _
  | .acceptReturn _ _ | .acceptEnd _ _ | .connectStart | .connectReturn _ _ | .connectEnd _ _ _
  | .disconnect _ | .peerClose _ | .disconnectNotify _ => isTrue trivial

/-- Indices that a call under way is to announce. -/
def due (st : Notifying) : List SockIndex := st.calls.map ConnCall.socketIndex

/-- Index `i` is registered, or its disconnection is still to be told. -/
def Held (st : Notifying) (i : SockIndex) : Prop :=
  i ∈ st.registry.comm.mapIndexToSocket ∨ i ∈ st.leaving

end Notifying

open Notifying

/-! ## What has been told -/

/-- What the subscriber was told, against the manager's keys and the calls under way; `held` are
    the indices that are registered or whose disconnection is still to be told. -/
structure Told (held : SockIndex → Prop) (keys : Finset SockIndex) (due : List SockIndex)
    (notified : SockIndex → List Notification) : Prop where
  /-- A held index has been told of exactly if it has a key. -/
  known : ∀ i, held i → notified i = if i ∈ keys then [.newConnection] else []
  gone : ∀ i, ¬ held i → Paired (notified i)
  keys_held : ∀ i ∈ keys, held i
  due_held : ∀ i ∈ due, held i ∧ i ∉ keys
  due_nodup : due.Nodup

section Told

variable {held held' : SockIndex → Prop} {keys : Finset SockIndex} {due due' : List SockIndex}
  {notified : SockIndex → List Notification} {i : SockIndex}

/-- The invariant gives the pairing. -/
theorem told_paired (h : Told held keys due notified) (i : SockIndex) : Paired (notified i) := by
  by_cases hi : held i
  · rw [h.known i hi]
    split
    · exact .inr (.inl rfl)
    · exact .inl rfl
  · exact h.gone i hi

/-- A disconnection before the announcement is told without one. -/
theorem told_unpaired (h : Told held keys due notified) (hi : held i) (hk : i ∉ keys) :
    ¬ Paired (notified i ++ [.disconnection]) := by
  rw [h.known i hi, if_neg hk]
  simp [Paired]

theorem told_congr (h : Told held keys due notified) (hheld : ∀ j, held' j ↔ held j) :
    Told held' keys due notified := by
  obtain rfl : held' = held := funext fun j => propext (hheld j)
  exact h

theorem told_perm (h : Told held keys due notified) (hperm : due'.Perm due) :
    Told held keys due' notified :=
  ⟨h.known, h.gone, h.keys_held, fun j hj => h.due_held j (hperm.mem_iff.mp hj),
    hperm.nodup_iff.mpr h.due_nodup⟩

/-- A new registration. -/
theorem told_store (h : Told held keys due notified) (hfree : ¬ held i)
    (hheld : ∀ j, held' j ↔ j = i ∨ held j) :
    Told held' keys due (Function.update notified i []) ∧ i ∉ keys ∧ i ∉ due := by
  have hk : i ∉ keys := fun hmem => hfree (h.keys_held i hmem)
  have hd : i ∉ due := fun hmem => hfree (h.due_held i hmem).1
  refine ⟨⟨fun j hj => ?_, fun j hj => ?_, fun j hj => (hheld j).mpr (.inr (h.keys_held j hj)),
    fun j hj => ⟨(hheld j).mpr (.inr (h.due_held j hj).1), (h.due_held j hj).2⟩, h.due_nodup⟩,
    hk, hd⟩
  · by_cases hji : j = i
    · subst hji
      simp [hk]
    · rw [Function.update_of_ne hji]
      exact h.known j (((hheld j).mp hj).resolve_left hji)
  · have hji : j ≠ i := fun hji => hj ((hheld j).mpr (.inl hji))
    rw [Function.update_of_ne hji]
    exact h.gone j (fun hmem => hj ((hheld j).mpr (.inr hmem)))

/-- A call under way will announce index `i`. -/
theorem told_due (h : Told held keys due notified) (hperm : due'.Perm (i :: due)) (hi : held i)
    (hk : i ∉ keys) (hd : i ∉ due) : Told held keys due' notified := by
  refine ⟨h.known, h.gone, h.keys_held, fun j hj => ?_,
    hperm.nodup_iff.mpr (List.nodup_cons.mpr ⟨hd, h.due_nodup⟩)⟩
  rcases List.mem_cons.mp (hperm.mem_iff.mp hj) with rfl | hj
  · exact ⟨hi, hk⟩
  · exact h.due_held j hj

/-- A call ends without an announcement. -/
theorem told_drop (h : Told held keys due notified) (hperm : due.Perm (i :: due')) :
    Told held keys due' notified :=
  ⟨h.known, h.gone, h.keys_held,
    fun j hj => h.due_held j (hperm.mem_iff.mpr (List.mem_cons_of_mem i hj)),
    (List.nodup_cons.mp (hperm.nodup_iff.mp h.due_nodup)).2⟩

/-- **An announcement**: the registration has not been told of before. -/
theorem told_announce (h : Told held keys due notified) (hperm : due.Perm (i :: due')) :
    Told held (insert i keys) due'
      (Function.update notified i (notified i ++ [.newConnection])) := by
  obtain ⟨hi, hik⟩ := h.due_held i (hperm.mem_iff.mpr List.mem_cons_self)
  have hrest : i ∉ due' := (List.nodup_cons.mp (hperm.nodup_iff.mp h.due_nodup)).1
  have h' := told_drop h hperm
  refine ⟨fun j hj => ?_, fun j hj => ?_, fun j hj => ?_, fun j hj => ?_, h'.due_nodup⟩
  · by_cases hji : j = i
    · subst hji
      simp [h.known j hi, hik]
    · rw [Function.update_of_ne hji, h.known j hj]
      simp [hji]
  · have hji : j ≠ i := by
      rintro rfl
      exact hj hi
    rw [Function.update_of_ne hji]
    exact h.gone j hj
  · rcases Finset.mem_insert.mp hj with rfl | hj
    · exact hi
    · exact h.keys_held j hj
  · refine ⟨(h'.due_held j hj).1, fun hmem => ?_⟩
    rcases Finset.mem_insert.mp hmem with rfl | hmem
    · exact hrest hj
    · exact (h'.due_held j hj).2 hmem

/-- A registration that was not announced is taken back without a word. -/
theorem told_forget (h : Told held keys due notified) (hk : i ∉ keys) (hd : i ∉ due)
    (hheld : ∀ j, held' j ↔ j ≠ i ∧ held j) : Told held' keys due notified := by
  refine ⟨fun j hj => h.known j ((hheld j).mp hj).2, fun j _ => told_paired h j, fun j hj => ?_,
    fun j hj => ?_, h.due_nodup⟩
  · exact (hheld j).mpr ⟨fun hji => hk (hji ▸ hj), h.keys_held j hj⟩
  · exact ⟨(hheld j).mpr ⟨fun hji => hd (hji ▸ hj), (h.due_held j hj).1⟩, (h.due_held j hj).2⟩

/-- **Disconnections** of announced indices. -/
theorem told_gone {keys' : Finset SockIndex} {notified' : SockIndex → List Notification}
    (gone : SockIndex → Prop) [DecidablePred gone] (h : Told held keys due notified)
    (hgone : ∀ j, gone j → j ∈ keys) (hheld : ∀ j, held' j ↔ held j ∧ ¬ gone j)
    (hkeys : ∀ j, j ∈ keys' ↔ j ∈ keys ∧ ¬ gone j)
    (hnot : ∀ j, notified' j = if gone j then notified j ++ [.disconnection] else notified j) :
    Told held' keys' due notified' := by
  refine ⟨fun j hj => ?_, fun j hj => ?_, fun j hj => ?_, fun j hj => ?_, h.due_nodup⟩
  · obtain ⟨hj, hg⟩ := (hheld j).mp hj
    rw [hnot j, if_neg hg, h.known j hj]
    simp [hkeys j, hg]
  · by_cases hg : gone j
    · have hk := hgone j hg
      rw [hnot j, if_pos hg, h.known j (h.keys_held j hk), if_pos hk]
      exact .inr (.inr rfl)
    · rw [hnot j, if_neg hg]
      exact h.gone j (fun hm => hj ((hheld j).mpr ⟨hm, hg⟩))
  · obtain ⟨hj, hg⟩ := (hkeys j).mp hj
    exact (hheld j).mpr ⟨h.keys_held j hj, hg⟩
  · obtain ⟨h1, h2⟩ := h.due_held j hj
    exact ⟨(hheld j).mpr ⟨h1, fun hg => h2 (hgone j hg)⟩, fun hk => h2 ((hkeys j).mp hk).1⟩

end Told

/-! ## Sockets before their announcement -/

/-- The sockets on their way to `async_accept`, in it or behind a lookup that failed are neither
    announced nor about to be. -/
structure Waiting (r : Registry) (keys : Finset SockIndex) (due : List SockIndex) : Prop where
  stored_lt : ∀ i s, r.comm.mapIndexToSocket.lookup i = some s → s < r.comm.nextSock
  pending_lt : ∀ s ∈ r.pending, s < r.comm.nextSock
  pending_nodup : r.pending.Nodup
  unannounced : ∀ s ∈ r.pending, ∀ i, r.comm.mapIndexToSocket.lookup i = some s →
    i ∉ keys ∧ i ∉ due

section Waiting

variable {r r' : Registry} {keys keys' : Finset SockIndex} {due due' : List SockIndex}
  {i : SockIndex} {s : Sock}

/-- Nothing is registered and no further index announced. -/
theorem waiting_mono (h : Waiting r keys due)
    (hmap : ∀ j t, r'.comm.mapIndexToSocket.lookup j = some t →
      r.comm.mapIndexToSocket.lookup j = some t)
    (hnext : r.comm.nextSock ≤ r'.comm.nextSock) (hpend : r'.pending.Subperm r.pending)
    (hann : ∀ j, j ∈ keys' ∨ j ∈ due' → j ∈ keys ∨ j ∈ due) : Waiting r' keys' due' := by
  obtain ⟨l, hperm, hsub⟩ := hpend
  have hmem : ∀ t ∈ r'.pending, t ∈ r.pending :=
    fun t ht => hsub.subset (hperm.mem_iff.mpr ht)
  refine ⟨fun j t hj => Nat.lt_of_lt_of_le (h.stored_lt j t (hmap j t hj)) hnext,
    fun t ht => Nat.lt_of_lt_of_le (h.pending_lt t (hmem t ht)) hnext,
    hperm.nodup_iff.mp (h.pending_nodup.sublist hsub), fun t ht j hj => ?_⟩
  have hno : ¬ (j ∈ keys ∨ j ∈ due) :=
    not_or.mpr (h.unannounced t (hmem t ht) j (hmap j t hj))
  exact not_or.mp (fun hj => hno (hann j hj))

/-- **A registration** of a socket that is not pending, or that stands nowhere and whose index is
    not to be announced. -/
theorem waiting_store (h : Waiting r keys due) (hst : Stores r r' i s)
    (hnext : r.comm.nextSock ≤ r'.comm.nextSock) (hs : s < r'.comm.nextSock) (hk : i ∉ keys)
    (hd : i ∉ due) (hnd : r'.pending.Nodup)
    (hpend : ∀ t ∈ r'.pending, t ∈ r.pending ∨
      t = s ∧ ∀ j, r.comm.mapIndexToSocket.lookup j ≠ some s)
    (hdue : ∀ j ∈ due', j ∈ due ∨ j = i ∧ s ∉ r'.pending) : Waiting r' keys due' := by
  refine ⟨fun j t hj => ?_, fun t ht => ?_, hnd, fun t ht j hj => ?_⟩
  · rcases hst.lookup hj with ⟨_, rfl⟩ | hj
    · exact hs
    · exact Nat.lt_of_lt_of_le (h.stored_lt j t hj) hnext
  · rcases hpend t ht with ht | ⟨rfl, _⟩
    · exact Nat.lt_of_lt_of_le (h.pending_lt t ht) hnext
    · exact hs
  · have hjd : j ∈ due' → j ∈ due ∨ j = i ∧ t ≠ s := fun hj =>
      (hdue j hj).imp id (fun hji => ⟨hji.1, fun hts => hji.2 (hts ▸ ht)⟩)
    rcases hst.lookup hj with ⟨rfl, rfl⟩ | hj
    · exact ⟨hk, fun hmem => (hjd hmem).elim hd (fun hne => hne.2 rfl)⟩
    · rcases hpend t ht with ht | ⟨rfl, hno⟩
      · obtain ⟨h1, h2⟩ := h.unannounced t ht j hj
        refine ⟨h1, fun hmem => (hjd hmem).elim h2 ?_⟩
        rintro ⟨rfl, _⟩
        exact hst.free (mem_of_lookup hj)
      · exact absurd hj (hno j)

/-- A pending socket was found under `i`, which will be announced. -/
theorem waiting_due (h : Waiting r keys due) (hcomm : r'.comm = r.comm)
    (hperm : r.pending.Perm (s :: r'.pending)) (hi : r.comm.mapIndexToSocket.lookup i = some s)
    (hdue : ∀ j ∈ due', j ∈ due ∨ j = i) : Waiting r' keys due' := by
  have hmem : ∀ t ∈ r'.pending, t ∈ r.pending :=
    fun t ht => hperm.mem_iff.mpr (List.mem_cons_of_mem s ht)
  obtain ⟨hs, hnd⟩ := List.nodup_cons.mp (hperm.nodup_iff.mp h.pending_nodup)
  refine ⟨by rw [hcomm]; exact h.stored_lt, fun t ht => ?_, hnd, fun t ht j hj => ?_⟩
  · rw [hcomm]
    exact h.pending_lt t (hmem t ht)
  · rw [hcomm] at hj
    obtain ⟨h1, h2⟩ := h.unannounced t (hmem t ht) j hj
    refine ⟨h1, fun hjd => (hdue j hjd).elim h2 ?_⟩
    rintro rfl
    rw [hi] at hj
    cases hj
    exact hs ht

end Waiting

end IMonPlatform
