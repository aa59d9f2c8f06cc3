import Mathlib.Logic.Function.Basic
import IMonPlatform.Net.Registry

/-!
# What `registerSocket` returns and what `deregisterSocket` removes

`registerSocket` stores its socket under the counter in a locked section and reads the counter again
for its return value when the lock is released.  `connectTo` announces that value, returns it, and
hands it to `deregisterSocket` when the connection is refused.  `deregisterSocket` tests in its loop
for the counter and erases its argument.

* `deregisterLoop` — the loop round by round; `deregisterSocket_iff_loop`.
* `deregister_exact_iff` — it removes exactly its argument when that is the index registered last.
* `Registrations.step` — the calls of `registerSocket` by their callers, over the steps of
  `Registry`; `registrations_refine`.
* `Sequential` — the first `2^32` registrations get the indices from 1 on, reduced to 32 bits.
* `registration_returns_own` — every call returns its own index if no other registration comes
  between its locked section and its return.
-/

set_option autoImplicit false

namespace IMonPlatform

open Framing CNetworkCommunicator Transition

/-! ## `deregisterSocket` -/

/-- `while( _mapIndexToSocket.find( _socketIndex ) != _mapIndexToSocket.end() )` around the
    `.erase( socketIndex )`, with a bound on its rounds. -/
def deregisterLoop (counter socketIndex : SockIndex) : Nat → SocketMap → Option SocketMap
  | 0, _ => none
  | rounds + 1, m =>
    if counter ∈ m then deregisterLoop counter socketIndex rounds (m.erase socketIndex) else some m

/-- A loop that does not erase the counter's own index does not end. -/
theorem deregisterLoop_stuck {counter i : SockIndex} (hne : counter ≠ i) :
    ∀ (rounds : Nat) {m : SocketMap}, counter ∈ m → deregisterLoop counter i rounds m = none
  | 0, _, _ => rfl
  | rounds + 1, m, hmem => by
    unfold deregisterLoop
    rw [if_pos hmem]
    exact deregisterLoop_stuck hne rounds (AList.mem_erase.mpr ⟨hne, hmem⟩)

/-- The loop ends in the state of `deregisterSocket`, or both do not end. -/
theorem deregisterSocket_iff_loop (c : CNetworkCommunicator) (i : SockIndex) (m : SocketMap) :
    c.deregisterSocket i = some { c with mapIndexToSocket := m } ↔
      ∃ rounds, deregisterLoop c.socketIndex i rounds c.mapIndexToSocket = some m := by
  unfold CNetworkCommunicator.deregisterSocket
  by_cases hmem : c.socketIndex ∈ c.mapIndexToSocket
  · rw [if_pos hmem]
    by_cases hagain : c.socketIndex ∈ c.mapIndexToSocket.erase i
    · rw [if_pos hagain]
      refine ⟨nofun, ?_⟩
      rintro ⟨rounds, h⟩
      rw [deregisterLoop_stuck (AList.mem_erase.mp hagain).1 rounds hmem] at h
      cases h
    · rw [if_neg hagain]
      have hlast : ∀ rounds, deregisterLoop c.socketIndex i (rounds + 2) c.mapIndexToSocket =
          some (c.mapIndexToSocket.erase i) := by
        intro rounds
        simp only [deregisterLoop, if_pos hmem, if_neg hagain]
      constructor
      · intro h
        cases h
        exact ⟨2, hlast 0⟩
      · rintro ⟨rounds, h⟩
        match rounds, h with
        | 0, h => cases h
        | 1, h => simp [deregisterLoop, hmem] at h
        | rounds + 2, h =>
          rw [hlast] at h
          cases h
          rfl
  · rw [if_neg hmem]
    constructor
    · intro h
      rw [Option.some.injEq] at h
      refine ⟨1, ?_⟩
      simp only [deregisterLoop, if_neg hmem]
      rw [h]
    · rintro ⟨rounds, h⟩
      cases rounds with
      | zero => cases h
      | succ rounds =>
        simp only [deregisterLoop, if_neg hmem, Option.some.injEq] at h
        rw [← h]

/-- The call ends and takes its argument, and nothing else, out of the map. -/
def DeregistersExactly (c : CNetworkCommunicator) (i : SockIndex) : Prop :=
  ∃ rounds, deregisterLoop c.socketIndex i rounds c.mapIndexToSocket =
    some (c.mapIndexToSocket.erase i)

/-- **`deregisterSocket` removes exactly its argument** when the counter still stands on it: an
    older index is not removed, or the loop does not end. -/
theorem deregister_exact_iff (c : CNetworkCommunicator) (i : SockIndex)
    (hi : i ∈ c.mapIndexToSocket) : DeregistersExactly c i ↔ c.socketIndex = i := by
  constructor
  · rintro ⟨rounds, h⟩
    by_contra hne
    by_cases hmem : c.socketIndex ∈ c.mapIndexToSocket
    · rw [deregisterLoop_stuck hne rounds hmem] at h
      cases h
    · cases rounds with
      | zero => cases h
      | succ rounds =>
        simp only [deregisterLoop, if_neg hmem, Option.some.injEq] at h
        rw [h] at hi
        exact (AList.mem_erase.mp hi).1 rfl
  · rintro rfl
    have herase : c.socketIndex ∉ c.mapIndexToSocket.erase c.socketIndex :=
      fun h => (AList.mem_erase.mp h).1 rfl
    exact ⟨2, by simp only [deregisterLoop, if_pos hi, if_neg herase]⟩

/-- The socket of a refused `connectTo` was the last one. -/
theorem deregister_last :
    ∃ st, run Registry.step Registry.create [.createSocket true, .createSocket false] = some st ∧
      DeregistersExactly st.comm 2 :=
  ⟨_, rfl, (deregister_exact_iff _ _ (by decide)).mpr rfl⟩

/-- A socket for the next `async_accept` was registered before `connectTo` was refused. -/
theorem deregister_hangs :
    ∃ st, run Registry.step Registry.create [.createSocket false, .createSocket true] = some st ∧
      1 ∈ st.comm.mapIndexToSocket ∧ ¬ DeregistersExactly st.comm 1 := by
  refine ⟨_, rfl, by decide, ?_⟩
  rintro ⟨rounds, h⟩
  rw [deregisterLoop_stuck (by decide) rounds (by decide)] at h
  cases h

/-! ## Calls of `registerSocket` -/

/-- Who calls `registerSocket`. -/
inductive RegCaller where
  | connectTo
  /-- `bind_and_accept` and `socket_accept`, for the next `async_accept`. -/
  | acceptNext
  /-- `socket_accept`, for a socket that it has not found. -/
  | acceptAgain
  deriving DecidableEq

/-- A call of `registerSocket`, and what its caller does with the result. -/
inductive RegCall where
  | idle
  /-- Behind the locked section, which has stored the socket under `key`. -/
  | stored (caller : RegCaller) (connection : Sock) (key : SockIndex)
  /-- Returned. -/
  | returned (caller : RegCaller) (connection : Sock) (key result : SockIndex)
  /-- `connectTo` has announced its connection and returned. -/
  | connected (connection : Sock) (key result : SockIndex)
  /-- `connectTo` was refused and has called `deregisterSocket`. -/
  | refused (connection : Sock) (key result : SockIndex)

namespace RegCall

/-- The index under which the socket of the call was stored. -/
def key : RegCall → Option SockIndex
  | .idle => none
  | .stored _ _ k | .returned _ _ k _ | .connected _ k _ | .refused _ k _ => some k

/-- What the call has returned. -/
def result : RegCall → Option SockIndex
  | .idle | .stored _ _ _ => none
  | .returned _ _ _ v | .connected _ _ v | .refused _ _ v => some v

end RegCall

structure Registrations where
  registry : Registry
  calls : Nat → RegCall
  /-- The call whose locked section came last. -/
  latest : Option Nat
  /-- A `deregisterSocket` loops for ever under `_csMapIndexToSocket`. -/
  hung : Bool
  /-- Indices announced by `connectTo`, with the call. -/
  announced : List (Nat × SockIndex)
  /-- Indices returned by `connectTo`, with the call. -/
  connectResults : List (Nat × SockIndex)
  /-- Arguments of `deregisterSocket`, with the call. -/
  deregistered : List (Nat × SockIndex)

inductive RegEvent where
  /-- The locked section of a `createSocket`; `accept` tells whether `async_accept` comes next. -/
  | store (call : Nat) (accept : Bool)
  /-- The locked section of the second registration in `socket_accept`. -/
  | storeAgain (call : Nat) (connection : Sock)
  /-- `return _socketIndex`. -/
  | ret (call : Nat)
  /-- The `connect` of a `connectTo` succeeds. -/
  | connect (call : Nat)
  /-- It fails. -/
  | refuse (call : Nat)
  /-- A locked section that registers nothing. -/
  | other (op : RegOp)

/-- The locked sections that no call of `registerSocket` makes. -/
def RegOp.isOther : RegOp → Bool
  | .acceptLookup _ | .acceptError _ | .disconnect _ | .disconnectAll | .getSocket _ => true
  | _ => false

namespace Registrations

def create : Registrations := ⟨.create, fun _ => .idle, none, false, [], [], []⟩

def setCall (st : Registrations) (c : Nat) (call : RegCall) : Registrations :=
  { st with calls := Function.update st.calls c call }

/-- The locked section of call `c` has stored `connection` under `key`. -/
def enter (st : Registrations) (r : Registry) (c : Nat) (caller : RegCaller) (connection : Sock)
    (key : SockIndex) : Registrations :=
  { st.setCall c (.stored caller connection key) with registry := r, latest := some c }

def store (st : Registrations) (c : Nat) (accept : Bool) : Option Registrations :=
  match st.calls c, st.registry.comm.createSocket, st.registry.step (.createSocket accept) with
  | .idle, some (i, s, _), some r =>
    if st.hung then none
    else some (st.enter r c (if accept then .acceptNext else .connectTo) s i)
  | _, _, _ => none

def storeAgain (st : Registrations) (c : Nat) (connection : Sock) : Option Registrations :=
  match st.calls c, st.registry.comm.registerSocket connection,
    st.registry.step (.registerSocket connection) with
  | .idle, some (i, _), some r =>
    if st.hung then none else some (st.enter r c .acceptAgain connection i)
  | _, _, _ => none

def ret (st : Registrations) (c : Nat) : Option Registrations :=
  match st.calls c with
  | .stored caller connection key =>
    match st.registry.step
        (if caller = .acceptNext then .returnAccept connection else .returnIndex connection) with
    | none => none
    | some r => some { st.setCall c
        (.returned caller connection key st.registry.comm.socketIndex) with registry := r }
  | _ => none

def connect (st : Registrations) (c : Nat) : Option Registrations :=
  match st.calls c with
  | .returned .connectTo connection key i => some { st.setCall c (.connected connection key i) with
      announced := st.announced ++ [(c, i)]
      connectResults := st.connectResults ++ [(c, i)] }
  | _ => none

def refuse (st : Registrations) (c : Nat) : Option Registrations :=
  match st.calls c, st.hung with
  | .returned .connectTo connection key i, false =>
    let st' := { st.setCall c (.refused connection key i) with
      deregistered := st.deregistered ++ [(c, i)] }
    match st.registry.step (.deregisterSocket i) with
    | none => some { st' with hung := true }
    | some r => some { st' with registry := r }
  | _, _ => none

def other (st : Registrations) (op : RegOp) : Option Registrations :=
  if op.isOther ∧ st.hung = false then
    match st.registry.step op with
    | none => none
    | some r => some { st with registry := r }
  else none

def step (st : Registrations) : RegEvent → Option Registrations
  | .store c accept => st.store c accept
  | .storeAgain c connection => st.storeAgain c connection
  | .ret c => st.ret c
  | .connect c => st.connect c
  | .refuse c => st.refuse c
  | .other op => st.other op

/-- Every call returns the index under which its socket was stored, no two calls return the same
    one, and `connectTo` announces, returns and deregisters that of its own socket. -/
structure OwnIndices (st : Registrations) : Prop where
  own : ∀ c i, (st.calls c).result = some i → (st.calls c).key = some i
  distinct : ∀ c d i, (st.calls c).result = some i → (st.calls d).result = some i → c = d
  announced : ∀ p ∈ st.announced, (st.calls p.1).key = some p.2
  connectResults : ∀ p ∈ st.connectResults, (st.calls p.1).key = some p.2
  deregistered : ∀ p ∈ st.deregistered, (st.calls p.1).key = some p.2

/-- The condition on a step: a call returns while its own locked section is the latest one, and
    fewer than `2^32` registrations have been made. -/
def ReturnsAtOnce (st : Registrations) : RegEvent → Prop
  | .store _ _ | .storeAgain _ _ => st.registry.stored.length < 2 ^ 32
  | .ret c => st.latest = some c
  | _ => True

end Registrations

open Registrations

/-! ## What a step does -/

/-- The registry registers nothing. -/
structure Unregistered (r r' : Registry) : Prop where
  stored : r'.stored = r.stored
  counter : r'.comm.socketIndex = r.comm.socketIndex
  map : ∀ i ∈ r'.comm.mapIndexToSocket, i ∈ r.comm.mapIndexToSocket

theorem Unregistered.refl (r : Registry) : Unregistered r r := ⟨rfl, rfl, fun _ h => h⟩

theorem Removes.unregistered {r r' : Registry} (h : Removes r r') : Unregistered r r' := by
  refine ⟨h.stored, h.counter, fun i hi => ?_⟩
  obtain ⟨s, hs⟩ := exists_lookup_of_mem hi
  exact mem_of_lookup (h.map i s hs)

/-- A section that registers nothing, and a return, leave the counter and the stored indices. -/
theorem step_unregistered {r r' : Registry} {op : RegOp} (hop : op.registers = false)
    (h : Registry.step r op = some r') : Unregistered r r' := by
  rcases registry_step_cases h with ⟨_, rfl, _⟩ | ⟨_, rfl, _⟩ | ⟨_, hret⟩ | ⟨hr, _, _⟩
  · cases hop
  · cases hop
  · have hgives := return_gives (hret.imp And.right And.right)
    exact ⟨hgives.2.2.1, by rw [hgives.2.1], fun i hi => by rwa [hgives.2.1] at hi⟩
  · exact hr.unregistered

/-- One registration by call `c`. -/
structure Enters (st st' : Registrations) (c : Nat) : Prop where
  idle : st.calls c = .idle
  after : ∃ r caller connection i, Stores st.registry r i connection ∧
    st' = st.enter r c caller connection i

/-- A step that registers nothing: no key changes. -/
structure Passes (st st' : Registrations) : Prop where
  registry : Unregistered st.registry st'.registry
  keys : ∀ d, (st'.calls d).key = (st.calls d).key
  latest : st'.latest = st.latest

theorem key_setCall {st : Registrations} {c : Nat} {call : RegCall}
    (h : call.key = (st.calls c).key) (d : Nat) :
    ((st.setCall c call).calls d).key = (st.calls d).key := by
  unfold setCall
  by_cases hd : d = c
  · subst hd
    simp [h]
  · simp [Function.update_of_ne hd]

theorem store_enters {st st' : Registrations} {c : Nat} {accept : Bool}
    (h : st.store c accept = some st') : Enters st st' c := by
  unfold store at h
  split at h
  · rename_i i s d r hidle hcre hstep
    split at h
    · cases h
    cases h
    -- the key is the index that the section stores
    have hstores : Stores st.registry r i s := by
      have hcreate : st.registry.createSocket accept = some r := hstep
      obtain ⟨⟨j, hst⟩, _⟩ := createSocket_stores hcreate
      have hcomm : r.comm = d := by
        simp only [Registry.step, Registry.createSocket, hcre] at hstep
        split at hstep <;> cases hstep <;> rfl
      obtain ⟨rfl, _, hcounter, _⟩ := createSocket_spec hcre
      rw [← hcounter, ← hcomm, hst.counter]
      exact hst
    exact ⟨hidle, r, _, s, i, hstores, rfl⟩
  · cases h

theorem storeAgain_enters {st st' : Registrations} {c : Nat} {connection : Sock}
    (h : st.storeAgain c connection = some st') : Enters st st' c := by
  unfold storeAgain at h
  split at h
  · rename_i i d r hidle hreg hstep
    split at h
    · cases h
    cases h
    have hstores : Stores st.registry r i connection := by
      have hregister : st.registry.registerSocket connection = some r := hstep
      obtain ⟨_, ⟨j, hst⟩, _⟩ := registerSocket_stores hregister
      have hcomm : r.comm = d := by
        simp only [Registry.step, Registry.registerSocket, hreg] at hstep
        split at hstep <;> cases hstep <;> rfl
      obtain ⟨_, hcounter, _⟩ := registerSocket_spec hreg
      rw [← hcounter, ← hcomm, hst.counter]
      exact hst
    exact ⟨hidle, r, _, connection, i, hstores, rfl⟩
  · cases h

theorem ret_passes {st st' : Registrations} {c : Nat} (h : st.ret c = some st') :
    Passes st st' ∧ ∃ caller connection key, st.calls c = .stored caller connection key ∧
      st'.calls = Function.update st.calls c
        (.returned caller connection key st.registry.comm.socketIndex) ∧
      st'.announced = st.announced ∧ st'.connectResults = st.connectResults ∧
      st'.deregistered = st.deregistered := by
  unfold ret at h
  split at h
  · rename_i caller connection key hcall
    split at h
    · cases h
    · rename_i r hstep
      cases h
      have hquiet : Unregistered st.registry r := by
        refine step_unregistered ?_ hstep
        split <;> rfl
      refine ⟨⟨hquiet, key_setCall (by rw [hcall]; rfl), rfl⟩, caller, connection, key, hcall, rfl,
        rfl, rfl, rfl⟩
  · cases h

theorem connect_passes {st st' : Registrations} {c : Nat} (h : st.connect c = some st') :
    Passes st st' ∧ ∃ connection key i, st.calls c = .returned .connectTo connection key i ∧
      st'.calls = Function.update st.calls c (.connected connection key i) ∧
      st'.announced = st.announced ++ [(c, i)] ∧
      st'.connectResults = st.connectResults ++ [(c, i)] ∧ st'.deregistered = st.deregistered := by
  unfold connect at h
  split at h
  · rename_i connection key i hcall
    cases h
    exact ⟨⟨.refl _, key_setCall (by rw [hcall]; rfl), rfl⟩, connection, key, i, hcall, rfl, rfl,
      rfl, rfl⟩
  · cases h

theorem refuse_passes {st st' : Registrations} {c : Nat} (h : st.refuse c = some st') :
    Passes st st' ∧ ∃ connection key i, st.calls c = .returned .connectTo connection key i ∧
      st'.calls = Function.update st.calls c (.refused connection key i) ∧
      st'.announced = st.announced ∧ st'.connectResults = st.connectResults ∧
      st'.deregistered = st.deregistered ++ [(c, i)] := by
  unfold refuse at h
  split at h
  · rename_i connection key i hcall _
    have hkeys := fun d => @key_setCall st c (.refused connection key i) (by rw [hcall]; rfl) d
    simp only at h
    split at h <;> cases h
    · exact ⟨⟨.refl _, hkeys, rfl⟩, connection, key, i, hcall, rfl, rfl, rfl, rfl⟩
    · rename_i r hstep
      exact ⟨⟨step_unregistered rfl hstep, hkeys, rfl⟩, connection, key, i, hcall, rfl, rfl, rfl,
        rfl⟩
  · cases h

theorem other_passes {st st' : Registrations} {op : RegOp} (h : st.other op = some st') :
    Passes st st' ∧ st'.calls = st.calls ∧ st'.announced = st.announced ∧
      st'.connectResults = st.connectResults ∧ st'.deregistered = st.deregistered := by
  unfold other at h
  split at h
  · rename_i hop
    split at h
    · cases h
    · rename_i r hstep
      cases h
      have hno : op.registers = false := by
        obtain ⟨hother, _⟩ := hop
        cases op <;> first | rfl | cases hother
      exact ⟨⟨step_unregistered hno hstep, fun _ => rfl, rfl⟩, rfl, rfl, rfl, rfl⟩
  · cases h

/-! ## The indices of the first `2^32` registrations -/

/-- The indices have been given out in order, and none of them twice. -/
structure Sequential (r : Registry) : Prop where
  stored : r.stored = (List.range r.stored.length).map fun k : Nat => i32 (1 + k)
  counter : r.comm.socketIndex = i32 r.stored.length
  keys : ∀ i ∈ r.comm.mapIndexToSocket, i ∈ r.stored

theorem create_sequential : Sequential Registry.create := by
  refine ⟨rfl, by decide, fun i hi => ?_⟩
  simp [Registry.create, CNetworkCommunicator.empty] at hi

theorem Unregistered.sequential {r r' : Registry} (h : Unregistered r r') (hr : Sequential r) :
    Sequential r' := by
  refine ⟨by rw [h.stored]; exact hr.stored, by rw [h.stored, h.counter]; exact hr.counter, ?_⟩
  intro i hi
  rw [h.stored]
  exact hr.keys i (h.map i hi)

/-- The next index has not been given out before. -/
theorem Sequential.next_free {r : Registry} (hr : Sequential r) (hlt : r.stored.length < 2 ^ 32) :
    i32 (1 + r.stored.length) ∉ r.stored := by
  intro hmem
  rw [hr.stored] at hmem
  obtain ⟨k, hk, hsame⟩ := List.mem_map.mp hmem
  have hk := List.mem_range.mp hk
  rw [List.length_map, List.length_range] at hsame
  have hrange : ∀ j < 2 ^ 32, j ∈ (Finset.range (2 ^ 32) : Set Nat) :=
    fun j hj => Finset.mem_coe.mpr (Finset.mem_range.mpr hj)
  have heq := i32_add_injOn 1 (Nat.le_refl _) (hrange k (Nat.lt_trans hk hlt)) (hrange _ hlt) hsame
  exact absurd heq (Nat.ne_of_lt hk)

theorem Sequential.stores {r r' : Registry} {i : SockIndex} {s : Sock} (hr : Sequential r)
    (hst : Stores r r' i s) (hlt : r.stored.length < 2 ^ 32) :
    Sequential r' ∧ i ∉ r.stored := by
  have hinc : interlockedIncrement r.comm.socketIndex = i32 (1 + r.stored.length) := by
    rw [hr.counter, interlockedIncrement, i32, i32, Int.bmod_add_bmod, i32, Int.add_comm]
  have hi : i = i32 (1 + r.stored.length) := by
    rw [← hinc]
    refine hst.next (fun hmem => ?_)
    rw [hinc] at hmem
    exact hr.next_free hlt (hr.keys _ hmem)
  have hlen : r'.stored.length = r.stored.length + 1 := by
    rw [hst.stored, List.length_append, List.length_singleton]
  refine ⟨⟨?_, ?_, ?_⟩, by rw [hi]; exact hr.next_free hlt⟩
  · rw [hlen, List.range_succ, List.map_append, ← hr.stored, hst.stored, hi]
    rfl
  · rw [hst.counter, hi, hlen]
    congr 1
    omega
  · intro j hj
    rw [hst.map, AList.mem_insert] at hj
    rw [hst.stored]
    rcases hj with rfl | hj
    · exact List.mem_append_right _ List.mem_cons_self
    · exact List.mem_append_left _ (hr.keys j hj)

/-! ## The invariant -/

/-- What the condition maintains. -/
structure Owned (st : Registrations) : Prop where
  sequential : Sequential st.registry
  key_stored : ∀ c i, (st.calls c).key = some i → i ∈ st.registry.stored
  key_inj : ∀ c d i, (st.calls c).key = some i → (st.calls d).key = some i → c = d
  /-- The counter names the registration of the latest call. -/
  latest : ∀ c, st.latest = some c → (st.calls c).key = some st.registry.comm.socketIndex
  own : ∀ c i, (st.calls c).result = some i → (st.calls c).key = some i
  announced : ∀ p ∈ st.announced, (st.calls p.1).key = some p.2
  connectResults : ∀ p ∈ st.connectResults, (st.calls p.1).key = some p.2
  deregistered : ∀ p ∈ st.deregistered, (st.calls p.1).key = some p.2

theorem Owned.ownIndices {st : Registrations} (h : Owned st) : OwnIndices st :=
  ⟨h.own, fun c d i hc hd => h.key_inj c d i (h.own c i hc) (h.own d i hd), h.announced,
    h.connectResults, h.deregistered⟩

theorem create_owned : Owned Registrations.create := by
  refine ⟨create_sequential, ?_, ?_, ?_, ?_, ?_, ?_, ?_⟩
  · intro c i h
    cases h
  · intro c d i h
    cases h
  · intro c h
    cases h
  · intro c i h
    cases h
  · intro p hp
    cases hp
  · intro p hp
    cases hp
  · intro p hp
    cases hp

theorem enters_owned {st st' : Registrations} {c : Nat} (h : Owned st) (he : Enters st st' c)
    (hlt : st.registry.stored.length < 2 ^ 32) : Owned st' := by
  obtain ⟨hidle, r, caller, connection, i, hst, rfl⟩ := he
  obtain ⟨hseq, hfresh⟩ := h.sequential.stores hst hlt
  -- the call is new, so the keys of the others and what they have done stay
  have hself : ((st.enter r c caller connection i).calls c) = .stored caller connection i := by
    simp [enter, setCall]
  have hother : ∀ d, d ≠ c → (st.enter r c caller connection i).calls d = st.calls d := by
    intro d hd
    simp [enter, setCall, Function.update_of_ne hd]
  have hne : ∀ d k, (st.calls d).key = some k → d ≠ c := by
    rintro d k hk rfl
    rw [hidle] at hk
    cases hk
  have hlog : ∀ p : Nat × SockIndex, (st.calls p.1).key = some p.2 →
      ((st.enter r c caller connection i).calls p.1).key = some p.2 := by
    intro p hp
    rw [hother p.1 (hne p.1 p.2 hp)]
    exact hp
  refine ⟨hseq, ?_, ?_, ?_, ?_, fun p hp => hlog p (h.announced p hp),
    fun p hp => hlog p (h.connectResults p hp), fun p hp => hlog p (h.deregistered p hp)⟩
  · intro d k hk
    show k ∈ r.stored
    rw [hst.stored]
    by_cases hd : d = c
    · rw [hd, hself] at hk
      cases hk
      exact List.mem_append_right _ List.mem_cons_self
    · rw [hother d hd] at hk
      exact List.mem_append_left _ (h.key_stored d k hk)
  · intro d e k hd he
    by_cases hdc : d = c <;> by_cases hec : e = c
    · rw [hdc, hec]
    · rw [hdc, hself] at hd
      rw [hother e hec] at he
      cases hd
      exact absurd (h.key_stored e _ he) hfresh
    · rw [hec, hself] at he
      rw [hother d hdc] at hd
      cases he
      exact absurd (h.key_stored d _ hd) hfresh
    · rw [hother d hdc] at hd
      rw [hother e hec] at he
      exact h.key_inj d e k hd he
  · intro d hd
    cases hd
    rw [hself]
    exact congrArg some hst.counter.symm
  · intro d k hk
    by_cases hd : d = c
    · rw [hd, hself] at hk
      cases hk
    · rw [hother d hd] at hk ⊢
      exact h.own d k hk

/-- A step that registers nothing keeps what is said about the keys. -/
theorem passes_owned {st st' : Registrations} (h : Owned st) (hp : Passes st st')
    (hown : ∀ c i, (st'.calls c).result = some i → (st.calls c).key = some i)
    (hann : ∀ p ∈ st'.announced, (st.calls p.1).key = some p.2)
    (hres : ∀ p ∈ st'.connectResults, (st.calls p.1).key = some p.2)
    (hder : ∀ p ∈ st'.deregistered, (st.calls p.1).key = some p.2) : Owned st' := by
  refine ⟨hp.registry.sequential h.sequential, ?_, ?_, ?_, ?_, ?_, ?_, ?_⟩
  · intro c i hc
    rw [hp.keys] at hc
    rw [hp.registry.stored]
    exact h.key_stored c i hc
  · intro c d i hc hd
    rw [hp.keys] at hc hd
    exact h.key_inj c d i hc hd
  · intro c hc
    rw [hp.latest] at hc
    rw [hp.keys, hp.registry.counter]
    exact h.latest c hc
  · intro c i hc
    rw [hp.keys]
    exact hown c i hc
  · intro p hmem
    rw [hp.keys]
    exact hann p hmem
  · intro p hmem
    rw [hp.keys]
    exact hres p hmem
  · intro p hmem
    rw [hp.keys]
    exact hder p hmem

/-- The results after one call has moved on. -/
theorem result_update {st : Registrations} (h : Owned st) {c : Nat} {call : RegCall}
    (hcall : ∀ i, call.result = some i → (st.calls c).key = some i) :
    ∀ d i, (Function.update st.calls c call d).result = some i → (st.calls d).key = some i := by
  intro d i hd
  by_cases hdc : d = c
  · subst hdc
    rw [Function.update_self] at hd
    exact hcall i hd
  · rw [Function.update_of_ne hdc] at hd
    exact h.own d i hd

theorem forall_mem_snoc {P : Nat × SockIndex → Prop} {l : List (Nat × SockIndex)}
    {p : Nat × SockIndex} (hl : ∀ q ∈ l, P q) (hp : P p) : ∀ q ∈ l ++ [p], P q := by
  intro q hq
  rcases List.mem_append.mp hq with hq | hq
  · exact hl q hq
  · rw [List.mem_singleton.mp hq]
    exact hp

theorem registrations_step_owned {st st' : Registrations} {e : RegEvent} (h : Owned st)
    (hc : st.ReturnsAtOnce e) (hstep : step st e = some st') : Owned st' := by
  cases e with
  | store c accept => exact enters_owned h (store_enters hstep) hc
  | storeAgain c connection => exact enters_owned h (storeAgain_enters hstep) hc
  | ret c =>
    obtain ⟨hp, caller, connection, key, hcall, hcalls, hann, hres, hder⟩ := ret_passes hstep
    refine passes_owned h hp ?_ (by rw [hann]; exact h.announced)
      (by rw [hres]; exact h.connectResults) (by rw [hder]; exact h.deregistered)
    rw [hcalls]
    refine result_update h (fun i hi => ?_)
    -- the counter still names the registration of this call
    cases hi
    exact h.latest c hc
  | connect c =>
    obtain ⟨hp, connection, key, i, hcall, hcalls, hann, hres, hder⟩ := connect_passes hstep
    have hkey : (st.calls c).key = some i := h.own c i (by rw [hcall]; rfl)
    refine passes_owned h hp ?_ (by rw [hann]; exact forall_mem_snoc h.announced hkey)
      (by rw [hres]; exact forall_mem_snoc h.connectResults hkey)
      (by rw [hder]; exact h.deregistered)
    rw [hcalls]
    refine result_update h (fun j hj => ?_)
    cases hj
    exact hkey
  | refuse c =>
    obtain ⟨hp, connection, key, i, hcall, hcalls, hann, hres, hder⟩ := refuse_passes hstep
    have hkey : (st.calls c).key = some i := h.own c i (by rw [hcall]; rfl)
    refine passes_owned h hp ?_ (by rw [hann]; exact h.announced)
      (by rw [hres]; exact h.connectResults)
      (by rw [hder]; exact forall_mem_snoc h.deregistered hkey)
    rw [hcalls]
    refine result_update h (fun j hj => ?_)
    cases hj
    exact hkey
  | other op =>
    obtain ⟨hp, hcalls, hann, hres, hder⟩ := other_passes hstep
    refine passes_owned h hp ?_ (by rw [hann]; exact h.announced)
      (by rw [hres]; exact h.connectResults) (by rw [hder]; exact h.deregistered)
    rw [hcalls]
    exact h.own

/-! ## The registry below -/

/-- A step is a step of the registry or leaves it alone. -/
theorem registrations_step_refines {st st' : Registrations} {e : RegEvent}
    (h : step st e = some st') :
    st'.registry = st.registry ∨ ∃ op, Registry.step st.registry op = some st'.registry := by
  cases e with
  | store c accept =>
    simp only [Registrations.step, store] at h
    split at h
    · rename_i hstep
      split at h <;> cases h
      exact .inr ⟨_, hstep⟩
    · cases h
  | storeAgain c connection =>
    simp only [Registrations.step, storeAgain] at h
    split at h
    · rename_i hstep
      split at h <;> cases h
      exact .inr ⟨_, hstep⟩
    · cases h
  | ret c =>
    simp only [Registrations.step, ret] at h
    split at h
    · split at h <;> cases h
      rename_i hstep
      exact .inr ⟨_, hstep⟩
    · cases h
  | connect c =>
    simp only [Registrations.step, connect] at h
    split at h <;> cases h
    exact .inl rfl
  | refuse c =>
    simp only [Registrations.step, refuse] at h
    split at h
    · split at h <;> cases h
      · exact .inl rfl
      · rename_i hstep
        exact .inr ⟨_, hstep⟩
    · cases h
  | other op =>
    simp only [Registrations.step, other] at h
    split at h
    · split at h <;> cases h
      rename_i hstep
      exact .inr ⟨_, hstep⟩
    · cases h

/-- **The registry of a run is one that `Registry` reaches.** -/
theorem registrations_refine {es : List RegEvent} {st : Registrations}
    (h : run step Registrations.create es = some st) :
    ∃ ops, run Registry.step Registry.create ops = some st.registry :=
  run_component Registrations.registry (fun _ _ _ => registrations_step_refines) h

/-! ## Runs -/

/-- **`registerSocket` returns the index it stored**, different calls return different ones, and
    `connectTo` uses that of its own socket, in every state of a run in which no other registration
    comes between the locked section and the return of a call and at most `2^32` are made. -/
theorem registration_returns_own (es : List RegEvent)
    (hmeets : Meets step ReturnsAtOnce Registrations.create es) :
    Always step OwnIndices Registrations.create es :=
  always_of_meets (fun _ h => h.ownIndices)
    (fun _ _ _ h hc hs => registrations_step_owned h hc hs) es _ create_owned hmeets

/-- A `connectTo` and the registration for the next `async_accept`, one after the other. -/
theorem two_registrations_own :
    ∃ st, run step Registrations.create [.store 0 false, .ret 0, .store 1 true, .ret 1,
      .connect 0] = some st ∧ st.OwnIndices := by
  refine ⟨_, rfl, registration_returns_own [.store 0 false, .ret 0, .store 1 true, .ret 1,
    .connect 0] ?_ _ _ (List.prefix_refl _) rfl⟩
  have hfew : ∀ n : Nat, n < 2 → n < 2 ^ 32 := fun n hn => by omega
  exact meets_cons rfl (hfew 0 (by decide)) (meets_cons rfl rfl (meets_cons rfl
    (hfew 1 (by decide)) (meets_cons rfl rfl (meets_cons rfl trivial trivial))))

/-- The accept handler registers a socket before `connectTo` reads its return value: `connectTo`
    gets, announces and returns the index of the other socket. -/
theorem other_index_returned :
    ∃ st, run step Registrations.create [.store 0 false, .store 1 true, .ret 0, .ret 1,
      .connect 0] = some st ∧ ¬ st.OwnIndices := by
  refine ⟨_, rfl, fun h => ?_⟩
  exact absurd (h.own 0 2 rfl) (by decide)

end IMonPlatform
