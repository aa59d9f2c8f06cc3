import IMonPlatform.Lib.Transition
import IMonPlatform.Net.Communicator

/-!
# `_mapIndexToSocket` under concurrent calls

Every section of `CNetworkCommunicator` under `_csMapIndexToSocket` is one step, and so is the read
of `_socketIndex` with which `registerSocket` ends: it stands behind `LeaveCriticalSection`, so
other threads may register in between.  `socket_accept` looks its socket up in one section and
registers it again in another one when the lookup gave `-1`.

* `Registry.step` — one locked section, or one `return _socketIndex`.
* `KeepsRegistry` — the two steps that go wrong: a lookup takes the index `-1`, in use after
  `2^32 - 1` registrations, for "not found"; and the counter names another thread's registration
  when `registerSocket` reads it.
* `registry_invariant_iff` — along a run every socket has one index, `getSocket` and
  `getSocketIndex` are inverse and no index in use is given to another socket exactly when no such
  step is made.
-/

set_option autoImplicit false

namespace IMonPlatform

open Framing CNetworkCommunicator Transition

/-! ## State and steps -/

/-- What a `registerSocket` call returned, and the socket registered under that index then. -/
structure Given where
  connection : Sock
  socketIndex : SockIndex
  holder : Option Sock
  deriving DecidableEq

structure Registry where
  comm : CNetworkCommunicator
  /-- Sockets handed to an `async_accept` that has not completed. -/
  accepting : List Sock
  /-- `socket_accept` calls whose lookup gave `-1`. -/
  unfound : List Sock
  /-- `registerSocket` calls behind their locked section, made for the next `async_accept`. -/
  creating : List Sock
  /-- The other `registerSocket` calls behind their locked section. -/
  returning : List Sock
  /-- The indices `registerSocket` has stored, in order. -/
  stored : List SockIndex
  /-- The indices `registerSocket` has returned. -/
  given : List Given
  deriving DecidableEq

/-- The locked sections and the returns. -/
inductive RegOp where
  /-- The section of `createSocket`; `accept` tells whether `async_accept` comes next. -/
  | createSocket (accept : Bool)
  /-- The lookup of `socket_accept`. -/
  | acceptLookup (conn : Sock)
  /-- `socket_accept` with an error. -/
  | acceptError (conn : Sock)
  /-- The second registration of `socket_accept`. -/
  | registerSocket (conn : Sock)
  /-- `registerSocket` returns to `connectTo` or to `socket_accept`. -/
  | returnIndex (conn : Sock)
  /-- `registerSocket` returns, and the socket goes to `async_accept`. -/
  | returnAccept (conn : Sock)
  | deregisterSocket (socketIndex : SockIndex)
  | disconnect (socketIndex : SockIndex)
  | disconnectAll
  /-- `getSocket`, which makes up a socket for a missing index. -/
  | getSocket (socketIndex : SockIndex)
  deriving DecidableEq

/-- The steps that store an index. -/
def RegOp.registers : RegOp → Bool
  | .createSocket _ | .registerSocket _ => true
  | _ => false

namespace Registry

def create : Registry := ⟨.empty, [], [], [], [], [], []⟩

def createSocket (st : Registry) (accept : Bool) : Option Registry :=
  match st.comm.createSocket with
  | none => none
  | some (i, s, c) =>
    if accept then
      some { st with comm := c, stored := st.stored ++ [i], creating := st.creating ++ [s] }
    else
      some { st with comm := c, stored := st.stored ++ [i], returning := st.returning ++ [s] }

def acceptLookup (st : Registry) (conn : Sock) : Option Registry :=
  if conn ∈ st.accepting then
    if st.comm.getSocketIndex conn = -1 then
      some { st with accepting := st.accepting.erase conn, unfound := st.unfound ++ [conn] }
    else some { st with accepting := st.accepting.erase conn }
  else none

def acceptError (st : Registry) (conn : Sock) : Option Registry :=
  if conn ∈ st.accepting then some { st with accepting := st.accepting.erase conn } else none

def registerSocket (st : Registry) (conn : Sock) : Option Registry :=
  if conn ∈ st.unfound then
    match st.comm.registerSocket conn with
    | none => none
    | some (i, c) => some { st with
        comm := c
        stored := st.stored ++ [i]
        unfound := st.unfound.erase conn
        returning := st.returning ++ [conn] }
  else none

/-- `return _socketIndex`. -/
def give (st : Registry) (conn : Sock) : Given where
  connection := conn
  socketIndex := st.comm.socketIndex
  holder := st.comm.mapIndexToSocket.lookup st.comm.socketIndex

def returnIndex (st : Registry) (conn : Sock) : Option Registry :=
  if conn ∈ st.returning then
    some { st with returning := st.returning.erase conn, given := st.given ++ [st.give conn] }
  else none

def returnAccept (st : Registry) (conn : Sock) : Option Registry :=
  if conn ∈ st.creating then
    some { st with
      creating := st.creating.erase conn
      accepting := st.accepting ++ [conn]
      given := st.given ++ [st.give conn] }
  else none

/-- The map is replaced. -/
def setMap (st : Registry) (m : SocketMap) : Registry :=
  { st with comm := { st.comm with mapIndexToSocket := m } }

def step (st : Registry) : RegOp → Option Registry
  | .createSocket accept => st.createSocket accept
  | .acceptLookup conn => st.acceptLookup conn
  | .acceptError conn => st.acceptError conn
  | .registerSocket conn => st.registerSocket conn
  | .returnIndex conn => st.returnIndex conn
  | .returnAccept conn => st.returnAccept conn
  | .deregisterSocket i =>
    match st.comm.deregisterSocket i with
    | none => none
    | some c => some { st with comm := c }
  | .disconnect i => some (st.setMap (st.comm.mapIndexToSocket.erase i))
  | .disconnectAll => some (st.setMap ∅)
  | .getSocket i => some { st with comm := (st.comm.getSocket i).2 }

/-! ## Properties -/

/-- A socket stands under one index only. -/
def UniqueIndex (st : Registry) : Prop :=
  ∀ i j s, st.comm.mapIndexToSocket.lookup i = some s →
    st.comm.mapIndexToSocket.lookup j = some s → i = j

/-- No index in use was given to another socket. -/
def GivenOwn (st : Registry) : Prop :=
  ∀ g ∈ st.given, ∀ s, g.holder = some s → s = g.connection

/-- The registry invariant. -/
structure RegistryOk (st : Registry) : Prop where
  unique : st.UniqueIndex
  given_own : st.GivenOwn
  index_socket : ∀ i ∈ st.comm.mapIndexToSocket,
    st.comm.getSocketIndex (st.comm.getSocket i).1 = i
  socket_index : ∀ i s, st.comm.mapIndexToSocket.lookup i = some s →
    (st.comm.getSocket (st.comm.getSocketIndex s)).1 = s

/-- The condition on a step: a socket registered again does not stand under `-1`, and the index
    that is returned is not the one of another socket. -/
def KeepsRegistry (st : Registry) : RegOp → Prop
  | .registerSocket conn => st.comm.mapIndexToSocket.lookup (-1) ≠ some conn
  | .returnIndex conn | .returnAccept conn =>
    ∀ s, st.comm.mapIndexToSocket.lookup st.comm.socketIndex = some s → s = conn
  | _ => True

/-- Sockets on their way to `async_accept`, in it, or in `socket_accept`. -/
def pending (st : Registry) : List Sock := st.creating ++ st.accepting ++ st.unfound

/-- What the condition maintains. -/
structure Kept (st : Registry) : Prop where
  unique : st.UniqueIndex
  given_own : st.GivenOwn
  stored_lt : ∀ i s, st.comm.mapIndexToSocket.lookup i = some s → s < st.comm.nextSock
  pending_lt : ∀ s ∈ st.pending, s < st.comm.nextSock
  pending_nodup : st.pending.Nodup
  /-- An unfound socket can only have been missed under `-1`. -/
  unfound_only : ∀ s ∈ st.unfound, ∀ i, st.comm.mapIndexToSocket.lookup i = some s → i = -1

end Registry

open Registry

/-! ## What a step does -/

/-- The index is the next one as long as that is free. -/
theorem registerSocket_next {c c' : CNetworkCommunicator} {s : Sock} {i : SockIndex}
    (h : c.registerSocket s = some (i, c'))
    (hfree : interlockedIncrement c.socketIndex ∉ c.mapIndexToSocket) :
    i = interlockedIncrement c.socketIndex := by
  unfold CNetworkCommunicator.registerSocket freeIndex at h
  rw [if_neg hfree] at h
  cases h
  rfl

/-- A new entry for `s`, under the free index `i`. -/
structure Stores (st st' : Registry) (i : SockIndex) (s : Sock) : Prop where
  free : i ∉ st.comm.mapIndexToSocket
  next : interlockedIncrement st.comm.socketIndex ∉ st.comm.mapIndexToSocket →
    i = interlockedIncrement st.comm.socketIndex
  map : st'.comm.mapIndexToSocket = st.comm.mapIndexToSocket.insert i s
  counter : st'.comm.socketIndex = i
  stored : st'.stored = st.stored ++ [i]
  given : st'.given = st.given

/-- Nothing is registered or returned. -/
structure Removes (st st' : Registry) : Prop where
  map : ∀ i s, st'.comm.mapIndexToSocket.lookup i = some s →
    st.comm.mapIndexToSocket.lookup i = some s
  counter : st'.comm.socketIndex = st.comm.socketIndex
  nextSock : st.comm.nextSock ≤ st'.comm.nextSock
  stored : st'.stored = st.stored
  given : st'.given = st.given
  creating : st'.creating = st.creating
  returning : st'.returning = st.returning
  pending : st'.pending.Subperm st.pending
  unfound : ∀ s ∈ st'.unfound, s ∈ st.unfound ∨ st.comm.getSocketIndex s = -1

/-- An element that moves from one list to another. -/
theorem moved_perm {l k : List Sock} {a : Sock} (h : a ∈ l) :
    (l.erase a ++ (k ++ [a])).Perm (l ++ k) :=
  calc l.erase a ++ (k ++ [a])
      = (l.erase a ++ k) ++ [a] := (List.append_assoc _ _ _).symm
    List.Perm _ (a :: (l.erase a ++ k)) := List.perm_append_singleton _ _
    List.Perm _ (l ++ k) := (List.perm_cons_erase h).symm.append_right k

theorem createSocket_stores {st st' : Registry} {accept : Bool}
    (h : st.createSocket accept = some st') :
    (∃ i, Stores st st' i st.comm.nextSock) ∧ st'.comm.nextSock = st.comm.nextSock + 1 ∧
      st'.unfound = st.unfound ∧
      st'.pending.Perm (if accept then st.comm.nextSock :: st.pending else st.pending) := by
  unfold Registry.createSocket at h
  split at h
  · cases h
  · rename_i i s c hcre
    obtain ⟨rfl, hfree, hcnt, hmap, hnext⟩ := createSocket_spec hcre
    have hstore : interlockedIncrement st.comm.socketIndex ∉ st.comm.mapIndexToSocket →
        i = interlockedIncrement st.comm.socketIndex := by
      unfold CNetworkCommunicator.createSocket at hcre
      split at hcre
      · cases hcre
      · rename_i hreg
        cases hcre
        exact registerSocket_next (c := st.comm.createObject.2) hreg
    split at h
    · rename_i haccept
      cases h
      refine ⟨⟨i, hfree, hstore, hmap, hcnt, rfl, rfl⟩, hnext, rfl, ?_⟩
      rw [if_pos haccept]
      simp only [Registry.pending, List.append_assoc, List.singleton_append]
      exact List.perm_middle
    · rename_i haccept
      cases h
      refine ⟨⟨i, hfree, hstore, hmap, hcnt, rfl, rfl⟩, hnext, rfl, ?_⟩
      rw [if_neg haccept]
      exact .rfl

theorem registerSocket_stores {st st' : Registry} {conn : Sock}
    (h : st.registerSocket conn = some st') :
    conn ∈ st.unfound ∧ (∃ i, Stores st st' i conn) ∧ st'.comm.nextSock = st.comm.nextSock ∧
      st'.unfound = st.unfound.erase conn ∧ st'.creating = st.creating ∧
      st'.accepting = st.accepting := by
  unfold Registry.registerSocket at h
  split at h
  · rename_i hmem
    split at h
    · cases h
    · rename_i i c hreg
      cases h
      obtain ⟨hfree, hcnt, hmap, hnext⟩ := registerSocket_spec hreg
      exact ⟨hmem, ⟨i, hfree, registerSocket_next hreg, hmap, hcnt, rfl, rfl⟩, hnext, rfl, rfl,
        rfl⟩
  · cases h

/-- The socket is no longer on its way to a registration. -/
theorem registerSocket_pending {st st' : Registry} {conn : Sock}
    (h : st.registerSocket conn = some st') : st.pending.Perm (conn :: st'.pending) := by
  obtain ⟨hmem, _, _, hunf, hcre, hacc⟩ := registerSocket_stores h
  unfold Registry.pending
  rw [hunf, hcre, hacc]
  exact ((List.perm_cons_erase hmem).append_left _).trans List.perm_middle

/-- A return gives out the counter and changes no registration. -/
theorem return_gives {st st' : Registry} {conn : Sock}
    (h : st.returnIndex conn = some st' ∨ st.returnAccept conn = some st') :
    (conn ∈ st.returning ∨ conn ∈ st.creating) ∧ st'.comm = st.comm ∧ st'.stored = st.stored ∧
      st'.given = st.given ++ [st.give conn] ∧ st'.unfound = st.unfound ∧
      st'.pending.Perm st.pending := by
  rcases h with h | h
  · unfold returnIndex at h
    split at h
    · rename_i hmem
      cases h
      exact ⟨.inl hmem, rfl, rfl, rfl, rfl, .rfl⟩
    · cases h
  · unfold returnAccept at h
    split at h
    · rename_i hmem
      cases h
      refine ⟨.inr hmem, rfl, rfl, rfl, rfl, ?_⟩
      exact (moved_perm hmem).append_right st.unfound
    · cases h

theorem removed_pending {st st' : Registry} {conn : Sock} (hcre : st'.creating = st.creating)
    (hacc : st'.accepting = st.accepting.erase conn) (hunf : st'.unfound = st.unfound) :
    st'.pending.Subperm st.pending := by
  unfold Registry.pending
  rw [hcre, hacc, hunf]
  exact (((List.erase_sublist).append_left _).append_right _).subperm

theorem setMap_removes {st : Registry} {c : CNetworkCommunicator}
    (hmap : ∀ i s, c.mapIndexToSocket.lookup i = some s →
      st.comm.mapIndexToSocket.lookup i = some s)
    (hcnt : c.socketIndex = st.comm.socketIndex) (hnext : st.comm.nextSock ≤ c.nextSock) :
    Removes st { st with comm := c } :=
  ⟨hmap, hcnt, hnext, rfl, rfl, rfl, rfl, List.Subperm.refl _, fun _ h => .inl h⟩

/-- **What a step does**: one registration, one return, or neither. -/
theorem registry_step_cases {st st' : Registry} {op : RegOp} (h : step st op = some st') :
    (∃ accept, op = .createSocket accept ∧ st.createSocket accept = some st') ∨
    (∃ conn, op = .registerSocket conn ∧ st.registerSocket conn = some st') ∨
    (∃ conn, (op = .returnIndex conn ∧ st.returnIndex conn = some st' ∨
      op = .returnAccept conn ∧ st.returnAccept conn = some st')) ∨
    (Removes st st' ∧ st.KeepsRegistry op ∧ op.registers = false) := by
  cases op with
  | createSocket accept => exact .inl ⟨accept, rfl, h⟩
  | registerSocket conn => exact .inr (.inl ⟨conn, rfl, h⟩)
  | returnIndex conn => exact .inr (.inr (.inl ⟨conn, .inl ⟨rfl, h⟩⟩))
  | returnAccept conn => exact .inr (.inr (.inl ⟨conn, .inr ⟨rfl, h⟩⟩))
  | acceptLookup conn =>
    refine .inr (.inr (.inr ⟨?_, trivial, rfl⟩))
    simp only [Registry.step, acceptLookup] at h
    split at h
    · rename_i hmem
      split at h <;> cases h
      · rename_i hfound
        refine ⟨fun _ _ hs => hs, rfl, Nat.le_refl _, rfl, rfl, rfl, rfl, ?_, fun s hs => ?_⟩
        · simp only [Registry.pending, List.append_assoc]
          exact ((moved_perm hmem).append_left _).subperm
        · rcases List.mem_append.mp hs with hs | hs
          · exact .inl hs
          · exact .inr (List.mem_singleton.mp hs ▸ hfound)
      · exact ⟨fun _ _ hs => hs, rfl, Nat.le_refl _, rfl, rfl, rfl, rfl,
          removed_pending rfl rfl rfl, fun _ hs => .inl hs⟩
    · cases h
  | acceptError conn =>
    refine .inr (.inr (.inr ⟨?_, trivial, rfl⟩))
    simp only [Registry.step, acceptError] at h
    split at h
    · cases h
      exact ⟨fun _ _ hs => hs, rfl, Nat.le_refl _, rfl, rfl, rfl, rfl,
        removed_pending rfl rfl rfl, fun _ hs => .inl hs⟩
    · cases h
  | deregisterSocket i =>
    refine .inr (.inr (.inr ⟨?_, trivial, rfl⟩))
    simp only [Registry.step] at h
    split at h
    · cases h
    · rename_i c hder
      cases h
      have hmap := fun j s => @deregisterSocket_lookup _ _ _ j s hder
      rcases deregisterSocket_cases hder with rfl | rfl
      · exact setMap_removes hmap rfl (Nat.le_refl _)
      · exact setMap_removes hmap rfl (Nat.le_refl _)
  | disconnect i =>
    cases h
    exact .inr (.inr (.inr ⟨setMap_removes (fun _ _ hs => (lookup_erase_some.mp hs).2) rfl
      (Nat.le_refl _), trivial, rfl⟩))
  | disconnectAll =>
    cases h
    refine .inr (.inr (.inr ⟨setMap_removes (fun i s hs => ?_) rfl (Nat.le_refl _), trivial, rfl⟩))
    simp at hs
  | getSocket i =>
    cases h
    obtain ⟨hcnt, hnext⟩ := getSocket_frame st.comm i
    refine .inr (.inr (.inr ⟨setMap_removes (fun _ _ hs => ?_) hcnt hnext, trivial, rfl⟩))
    rwa [getSocket_map] at hs

/-! ## The invariant -/

theorem create_kept : Kept Registry.create := by
  refine ⟨fun i j s hs => ?_, fun g hg => ?_, fun i s hs => ?_, fun s hs => ?_, .nil,
    fun s hs => ?_⟩
  · simp [Registry.create, CNetworkCommunicator.empty] at hs
  · cases hg
  · simp [Registry.create, CNetworkCommunicator.empty] at hs
  · cases hs
  · cases hs

theorem Stores.lookup {st st' : Registry} {i : SockIndex} {s : Sock} (h : Stores st st' i s)
    {j : SockIndex} {t : Sock} (hj : st'.comm.mapIndexToSocket.lookup j = some t) :
    j = i ∧ t = s ∨ st.comm.mapIndexToSocket.lookup j = some t := by
  rw [h.map] at hj
  exact lookup_insert_some hj

/-- Storing a socket that stands nowhere keeps the indices unique. -/
theorem Stores.unique {st st' : Registry} {i : SockIndex} {s : Sock} (h : Stores st st' i s)
    (hu : st.UniqueIndex) (hnew : ∀ j, st.comm.mapIndexToSocket.lookup j ≠ some s) :
    st'.UniqueIndex := by
  intro j k t hj hk
  rcases h.lookup hj with ⟨rfl, rfl⟩ | hj
  · rcases h.lookup hk with ⟨rfl, _⟩ | hk
    · rfl
    · exact absurd hk (hnew k)
  · rcases h.lookup hk with ⟨rfl, rfl⟩ | hk
    · exact absurd hj (hnew j)
    · exact hu j k t hj hk

/-- Storing a socket that stands nowhere keeps the invariant. -/
theorem Stores.kept {st st' : Registry} {i : SockIndex} {s : Sock} (h : Stores st st' i s)
    (hk : Kept st) (hnew : ∀ j, st.comm.mapIndexToSocket.lookup j ≠ some s)
    (hnext : st.comm.nextSock ≤ st'.comm.nextSock) (hs : s < st'.comm.nextSock)
    (hpend : ∀ t ∈ st'.pending, t < st'.comm.nextSock) (hnd : st'.pending.Nodup)
    (hunf : ∀ t ∈ st'.unfound, t ∈ st.unfound ∧ t ≠ s) : Kept st' := by
  refine ⟨h.unique hk.unique hnew, ?_, fun j t hj => ?_, hpend, hnd, fun t ht j hj => ?_⟩
  · unfold GivenOwn
    rw [h.given]
    exact hk.given_own
  · rcases h.lookup hj with ⟨_, rfl⟩ | hj
    · exact hs
    · exact Nat.lt_of_lt_of_le (hk.stored_lt j t hj) hnext
  · obtain ⟨ht, hne⟩ := hunf t ht
    rcases h.lookup hj with ⟨_, rfl⟩ | hj
    · exact absurd rfl hne
    · exact hk.unfound_only t ht j hj

theorem createSocket_kept {st st' : Registry} {accept : Bool} (hk : Kept st)
    (h : st.createSocket accept = some st') : Kept st' := by
  obtain ⟨⟨i, hst⟩, hnext, hunf, hpend⟩ := createSocket_stores h
  have hlt : st.comm.nextSock < st'.comm.nextSock := by
    rw [hnext]
    exact Nat.lt_succ_self _
  have hfresh : ∀ s ∈ st.pending, s ≠ st.comm.nextSock :=
    fun s hs => Nat.ne_of_lt (hk.pending_lt s hs)
  refine hst.kept hk ?_ (Nat.le_of_lt hlt) hlt (fun s hs => ?_) ?_ (fun s hs => ?_)
  · exact fun j hj => absurd (hk.stored_lt j _ hj) (Nat.lt_irrefl _)
  · have hmem : s = st.comm.nextSock ∨ s ∈ st.pending := by
      have hs := hpend.mem_iff.mp hs
      split at hs
      · exact List.mem_cons.mp hs
      · exact .inr hs
    rcases hmem with rfl | hs
    · exact hlt
    · exact Nat.lt_trans (hk.pending_lt s hs) hlt
  · refine hpend.nodup_iff.mpr ?_
    split
    · exact List.nodup_cons.mpr ⟨fun hs => hfresh _ hs rfl, hk.pending_nodup⟩
    · exact hk.pending_nodup
  · rw [hunf] at hs
    exact ⟨hs, hfresh s (List.mem_append_right _ hs)⟩

theorem unfound_nodup {st : Registry} (hk : Kept st) : st.unfound.Nodup :=
  (List.nodup_append.mp hk.pending_nodup).2.1

theorem registerSocket_kept {st st' : Registry} {conn : Sock} (hk : Kept st)
    (hc : st.comm.mapIndexToSocket.lookup (-1) ≠ some conn)
    (h : st.registerSocket conn = some st') : Kept st' := by
  obtain ⟨hmem, ⟨i, hst⟩, hnext, hunf, hcre, hacc⟩ := registerSocket_stores h
  have hsub : st'.pending.Sublist st.pending := by
    unfold Registry.pending
    rw [hunf, hcre, hacc]
    exact List.Sublist.append_left List.erase_sublist _
  refine hst.kept hk (fun j hj => ?_) (Nat.le_of_eq hnext.symm) ?_ (fun s hs => ?_)
    (hk.pending_nodup.sublist hsub) (fun s hs => ?_)
  · obtain rfl := hk.unfound_only conn hmem j hj
    exact hc hj
  · rw [hnext]
    exact hk.pending_lt _ (List.mem_append_right _ hmem)
  · rw [hnext]
    exact hk.pending_lt s (hsub.subset hs)
  · rw [hunf] at hs
    exact ⟨List.mem_of_mem_erase hs, ((unfound_nodup hk).mem_erase_iff.mp hs).1⟩

theorem return_kept {st st' : Registry} {conn : Sock} (hk : Kept st)
    (hc : ∀ s, st.comm.mapIndexToSocket.lookup st.comm.socketIndex = some s → s = conn)
    (h : st.returnIndex conn = some st' ∨ st.returnAccept conn = some st') : Kept st' := by
  obtain ⟨_, hcomm, _, hgiven, hunf, hpend⟩ := return_gives h
  refine ⟨?_, ?_, ?_, fun s hs => ?_, hpend.nodup_iff.mpr hk.pending_nodup, ?_⟩
  · unfold UniqueIndex
    rw [hcomm]
    exact hk.unique
  · intro g hg s hs
    rw [hgiven] at hg
    rcases List.mem_append.mp hg with hg | hg
    · exact hk.given_own g hg s hs
    · obtain rfl := List.mem_singleton.mp hg
      exact hc s hs
  · rw [hcomm]
    exact hk.stored_lt
  · rw [hcomm]
    exact hk.pending_lt s (hpend.mem_iff.mp hs)
  · rw [hcomm, hunf]
    exact hk.unfound_only

theorem removes_kept {st st' : Registry} (hk : Kept st) (h : Removes st st') : Kept st' := by
  obtain ⟨l, hperm, hsub⟩ := h.pending
  refine ⟨fun i j s hi hj => hk.unique i j s (h.map i s hi) (h.map j s hj), ?_,
    fun i s hi => Nat.lt_of_lt_of_le (hk.stored_lt i s (h.map i s hi)) h.nextSock,
    fun s hs => Nat.lt_of_lt_of_le (hk.pending_lt s (h.pending.subset hs)) h.nextSock,
    hperm.nodup_iff.mp (hk.pending_nodup.sublist hsub), fun s hs i hi => ?_⟩
  · unfold GivenOwn
    rw [h.given]
    exact hk.given_own
  · have hi := h.map i s hi
    rcases h.unfound s hs with hs | hs
    · exact hk.unfound_only s hs i hi
    · -- the lookup gave `-1`: the socket stands there
      have hl := getSocketIndex_registered hi
      rw [hs] at hl
      exact hk.unique i (-1) s hi hl

theorem registry_step_kept {st st' : Registry} {op : RegOp} (hk : Kept st)
    (hc : st.KeepsRegistry op) (h : step st op = some st') : Kept st' := by
  rcases registry_step_cases h with ⟨_, rfl, h⟩ | ⟨_, rfl, h⟩ | ⟨_, ⟨rfl, h⟩ | ⟨rfl, h⟩⟩ | ⟨h, _⟩
  · exact createSocket_kept hk h
  · exact registerSocket_kept hk hc h
  · exact return_kept hk hc (.inl h)
  · exact return_kept hk hc (.inr h)
  · exact removes_kept hk h

/-- Unique indices make the two lookups inverse. -/
theorem kept_ok {st : Registry} (hk : Kept st) : RegistryOk st := by
  have hindex : ∀ i s, st.comm.mapIndexToSocket.lookup i = some s →
      st.comm.getSocketIndex s = i := by
    intro i s hi
    exact hk.unique _ i s (getSocketIndex_registered hi) hi
  have hsocket : ∀ i s, st.comm.mapIndexToSocket.lookup i = some s →
      (st.comm.getSocket i).1 = s := by
    intro i s hi
    simp [CNetworkCommunicator.getSocket, hi]
  refine ⟨hk.unique, hk.given_own, fun i hi => ?_, fun i s hi => ?_⟩
  · obtain ⟨s, hs⟩ := exists_lookup_of_mem hi
    rw [hsocket i s hs, hindex i s hs]
  · rw [hindex i s hi, hsocket i s hi]

/-- A step against the condition breaks the registry. -/
theorem registry_step_broken {st st' : Registry} {op : RegOp} (hc : ¬ st.KeepsRegistry op)
    (h : step st op = some st') : ¬ RegistryOk st' := by
  have hreturn : ∀ conn, (st.returnIndex conn = some st' ∨ st.returnAccept conn = some st') →
      (¬ ∀ s, st.comm.mapIndexToSocket.lookup st.comm.socketIndex = some s → s = conn) →
      ¬ RegistryOk st' := by
    intro conn hr hne hok
    obtain ⟨_, _, _, hgiven, _⟩ := return_gives hr
    refine hne (hok.given_own (st.give conn) ?_)
    rw [hgiven]
    exact List.mem_append_right _ List.mem_cons_self
  rcases registry_step_cases h with ⟨_, rfl, h⟩ | ⟨conn, rfl, h⟩ | ⟨_, ⟨rfl, h⟩ | ⟨rfl, h⟩⟩ |
    ⟨_, hk, _⟩
  · exact absurd trivial hc
  · intro hok
    obtain ⟨_, ⟨i, hst⟩, _⟩ := registerSocket_stores h
    have hold : st.comm.mapIndexToSocket.lookup (-1) = some conn := not_not.mp hc
    have hnew : st'.comm.mapIndexToSocket.lookup i = some conn := by simp [hst.map]
    have hstill : st'.comm.mapIndexToSocket.lookup (-1) = some conn := by
      rw [hst.map]
      exact lookup_insert_of_free hst.free hold
    obtain rfl := hok.unique i (-1) conn hnew hstill
    exact absurd hold (by rw [AList.lookup_eq_none.mpr hst.free]; simp)
  · exact hreturn _ (.inl h) hc
  · exact hreturn _ (.inr h) hc
  · exact absurd hk hc

/-- No step puts another socket under an index in use. -/
theorem registry_step_holder {st st' : Registry} {op : RegOp} (h : step st op = some st')
    {i : SockIndex} {s t : Sock} (hs : st.comm.mapIndexToSocket.lookup i = some s)
    (ht : st'.comm.mapIndexToSocket.lookup i = some t) : t = s := by
  have hstores : ∀ j u, Stores st st' j u → t = s := by
    intro j u hst
    have hkeep := lookup_insert_of_free (s := u) hst.free hs
    rw [hst.map, hkeep] at ht
    exact (Option.some.inj ht).symm
  rcases registry_step_cases h with ⟨_, _, h⟩ | ⟨_, _, h⟩ | ⟨_, ⟨_, h⟩ | ⟨_, h⟩⟩ | ⟨h, _⟩
  · obtain ⟨⟨j, hst⟩, _⟩ := createSocket_stores h
    exact hstores _ _ hst
  · obtain ⟨_, ⟨j, hst⟩, _⟩ := registerSocket_stores h
    exact hstores _ _ hst
  · rw [(return_gives (.inl h)).2.1, hs] at ht
    exact (Option.some.inj ht).symm
  · rw [(return_gives (.inr h)).2.1, hs] at ht
    exact (Option.some.inj ht).symm
  · rw [h.map i t ht] at hs
    exact Option.some.inj hs

/-- **When the registry stays consistent.**  Along any run of locked sections and returns every
    socket stands under one index, `getSocket` and `getSocketIndex` are inverse, and no index in
    use is given to another socket, exactly when no socket that stands under `-1` is registered
    again and `registerSocket` never reads the counter while it names another registration.  In
    every run an index in use keeps its socket until it is removed, and the search of
    `registerSocket` ends while fewer than `2^32` sockets are registered. -/
theorem registry_invariant_iff (ops : List RegOp) :
    (Always step RegistryOk Registry.create ops ↔ Meets step KeepsRegistry Registry.create ops) ∧
    ∀ st, run step Registry.create ops = some st →
      (∀ op st', step st op = some st' → ∀ i s t,
        st.comm.mapIndexToSocket.lookup i = some s →
          st'.comm.mapIndexToSocket.lookup i = some t → t = s) ∧
      (st.comm.mapIndexToSocket.keys.length < 2 ^ 32 →
        ∀ s, (st.comm.registerSocket s).isSome) := by
  refine ⟨?_, fun st _ => ⟨fun op st' h i s t hs ht => registry_step_holder h hs ht,
    fun hlt s => ?_⟩⟩
  · apply always_iff_meets (I := Kept)
    · exact fun st hk => kept_ok hk
    · exact fun st op st' hk hc h => registry_step_kept hk hc h
    · exact fun st op st' _ hc h => registry_step_broken hc h
    · exact create_kept
  · rw [Option.isSome_iff_ne_none]
    intro hnone
    exact absurd (registerSocket_none hnone) (Nat.not_le.mpr hlt)

/-! ## Counterexamples -/

/-- `n` connections, each taken down by `disconnectAll`. -/
def rounds : Nat → List RegOp
  | 0 => []
  | n + 1 => rounds n ++ [.createSocket false, .disconnectAll]

/-- A registry without entries whose counter has been advanced `n` times. -/
theorem run_rounds (n : Nat) : ∃ returning stored, run step Registry.create (rounds n) =
    some ⟨⟨i32 n, ∅, n⟩, [], [], [], returning, stored, []⟩ := by
  induction n with
  | zero => exact ⟨[], [], rfl⟩
  | succ n ih =>
    obtain ⟨returning, stored, hrun⟩ := ih
    have hinc : interlockedIncrement (i32 n) = i32 (n + 1 : Nat) := by
      simp [interlockedIncrement, i32, Int.bmod_add_bmod]
    refine ⟨returning ++ [n], stored ++ [i32 (n + 1 : Nat)], run_append.mpr ⟨_, hrun, ?_⟩⟩
    simp [run, Registry.step, Registry.createSocket, CNetworkCommunicator.createSocket,
      createObject, CNetworkCommunicator.registerSocket, freeIndex, hinc, setMap]

/-- A pending socket whose index is `-1` is registered a second time, under 0. -/
theorem accept_registers_twice (n : Nat) (returning : List Sock) (stored : List SockIndex) :
    ∃ st, run step ⟨⟨-2, ∅, n⟩, [], [], [], returning, stored, []⟩ [.createSocket true,
        .returnAccept n, .acceptLookup n, .registerSocket n] = some st ∧
      st.comm.mapIndexToSocket = (AList.singleton (-1) n).insert 0 n := by
  have h1 : interlockedIncrement (-2) = -1 := by decide
  have h2 : interlockedIncrement (-1) = 0 := by decide
  have h3 : CNetworkCommunicator.getSocketIndex ⟨-1, AList.singleton (-1) n, n + 1⟩ n = -1 := by
    simp [CNetworkCommunicator.getSocketIndex, AList.singleton_entries]
  have h4 : (0 : SockIndex) ∉ (AList.singleton (-1) n : SocketMap) := by
    simp [AList.mem_keys, AList.keys_singleton]
  simp [run, Registry.step, Registry.createSocket, CNetworkCommunicator.createSocket,
    createObject, CNetworkCommunicator.registerSocket, freeIndex, h1, h2, returnAccept,
    acceptLookup, Registry.registerSocket, h3, h4]

/-- After `2^32 - 2` connections a socket waiting for `async_accept` stands under `-1`, so
    `socket_accept` takes it for missing and registers it again.  And two threads in
    `registerSocket` at once: the first one returns the index of the second. -/
theorem registry_broken :
    (∃ st conn, run step Registry.create (rounds (2 ^ 32 - 2) ++ [.createSocket true,
        .returnAccept conn, .acceptLookup conn, .registerSocket conn]) = some st ∧
      ¬ RegistryOk st) ∧
    ∃ st, run step Registry.create [.createSocket false, .createSocket false, .returnIndex 0] =
      some st ∧ ¬ RegistryOk st := by
  constructor
  · obtain ⟨returning, stored, hrun⟩ := run_rounds (2 ^ 32 - 2)
    rw [show i32 ((2 ^ 32 - 2 : Nat) : Int) = -2 by decide] at hrun
    obtain ⟨st, htail, hmap⟩ := accept_registers_twice (2 ^ 32 - 2) returning stored
    refine ⟨st, _, run_append.mpr ⟨_, hrun, htail⟩, fun hok => ?_⟩
    have hne := hok.unique (-1) 0 (2 ^ 32 - 2) (by rw [hmap]; rfl) (by rw [hmap]; rfl)
    exact absurd hne (by decide)
  · refine ⟨_, rfl, fun hok => ?_⟩
    exact absurd (hok.given_own _ List.mem_cons_self 1 rfl) (by decide)

end IMonPlatform
