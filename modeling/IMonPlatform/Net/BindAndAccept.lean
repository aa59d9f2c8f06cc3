import IMonPlatform.Net.Connections

/-!
# `bind_and_accept` with its acceptor

`bind_and_accept` registers the socket for the first connection and opens the acceptor before it
binds.  When `bind` reports an error it closes that socket and returns `false`; the registration and
the open acceptor stay, and nothing in the class closes the acceptor later.

* `Listener`, `bindAndAccept` — the call with the answers of asio; `open` throws on an acceptor that
  is open.
* `listener_refines` — a step is one of `Connections`, where only the outcome of `bind` counts.
* `bindAndAccept_open` — an open acceptor refuses every later call.
* `failed_bind_leaves_traces` — no failed `bind` leaves the communicator as it was.
-/

set_option autoImplicit false

namespace IMonPlatform

open CNetworkCommunicator Connections Transition

/-- The communicator with its manager, and the state of `_acceptor`. -/
structure Listener where
  connections : Connections
  acceptorOpen : Bool

/-- What asio answers during a call. -/
structure BindAnswers where
  /-- `from_string` accepts the address, or the call is for all addresses. -/
  addressValid : Bool
  /-- `open` gets a descriptor for a closed acceptor. -/
  opens : Bool
  /-- `set_option` does not throw. -/
  optionSet : Bool
  /-- The error code of `bind` is set. -/
  bindError : Bool
  /-- `listen` does not throw. -/
  listens : Bool
  deriving DecidableEq

inductive BindResult where
  | returned (isSuccess : Bool)
  | thrown
  deriving DecidableEq

namespace Listener

def create : Listener := ⟨.create, false⟩

/-- The call; `none` when the search for a free index does not end. -/
def bindAndAccept (st : Listener) (a : BindAnswers) : Option (BindResult × Listener) :=
  match st.connections.createSocket with
  | none => none
  | some (_, acceptSocket, c) =>
    if a.addressValid = false then some (.thrown, ⟨c, st.acceptorOpen⟩)
    else if st.acceptorOpen = true ∨ a.opens = false then some (.thrown, ⟨c, st.acceptorOpen⟩)
    else if a.optionSet = false then some (.thrown, ⟨c, true⟩)
    else if a.bindError then some (.returned false, ⟨c, true⟩)
    else
      let accepting := ⟨{ c with accepting := c.accepting ++ [acceptSocket] }, true⟩
      if a.listens then some (.returned true, accepting) else some (.thrown, accepting)

end Listener

/-- The operations of the communicator. -/
inductive ListenOp where
  | bindAndAccept (a : BindAnswers)
  /-- Any other one. -/
  | other (op : ConnOp)

def ConnOp.isBind : ConnOp → Bool
  | .bindAndAccept _ => true
  | _ => false

namespace Listener

def step (st : Listener) : ListenOp → Option Listener
  | .bindAndAccept a => (st.bindAndAccept a).map Prod.snd
  | .other op =>
    if op.isBind then none
    else (connStep st.connections op).map fun c => { st with connections := c }

/-- The call gets as far as `bind`, which reports an error. -/
structure BindFails (st : Listener) (a : BindAnswers) : Prop where
  addressValid : a.addressValid = true
  closed : st.acceptorOpen = false
  opens : a.opens = true
  optionSet : a.optionSet = true
  bindError : a.bindError = true

/-- The call returns `false` and leaves the registry and the acceptor as they were. -/
def LeavesAsWas (st : Listener) (a : BindAnswers) : Prop :=
  ∃ st', st.bindAndAccept a = some (.returned false, st') ∧
    st'.connections.comm.mapIndexToSocket = st.connections.comm.mapIndexToSocket ∧
    st'.acceptorOpen = st.acceptorOpen

end Listener

open Listener

/-! ## The connections below -/

/-- The call registers one socket, and `async_accept` gets it unless the call ends earlier. -/
theorem bindAndAccept_refines {st st' : Listener} {a : BindAnswers} {r : BindResult}
    (h : st.bindAndAccept a = some (r, st')) :
    ∃ ok, st.connections.bindAndAccept ok = some st'.connections := by
  unfold Listener.bindAndAccept at h
  split at h
  · cases h
  · rename_i i s c hcre
    have hbind : ∀ ok, st.connections.bindAndAccept ok =
        some (if ok then { c with accepting := c.accepting ++ [s] } else c) := by
      intro ok
      unfold Connections.bindAndAccept
      rw [hcre]
    split at h
    · cases h
      exact ⟨false, hbind false⟩
    split at h
    · cases h
      exact ⟨false, hbind false⟩
    split at h
    · cases h
      exact ⟨false, hbind false⟩
    split at h
    · cases h
      exact ⟨false, hbind false⟩
    split at h <;> cases h
    · exact ⟨true, hbind true⟩
    · exact ⟨true, hbind true⟩

/-- **A run is one of the connections**, with the outcome of each `bind`. -/
theorem listener_refines {ops : List ListenOp} {st : Listener}
    (h : run step Listener.create ops = some st) :
    ∃ ops', run connStep Connections.create ops' = some st.connections := by
  refine run_component Listener.connections (fun st op st' hstep => ?_) h
  refine .inr ?_
  cases op with
  | bindAndAccept a =>
    obtain ⟨⟨r, st₁⟩, hcall, rfl⟩ := Option.map_eq_some_iff.mp hstep
    obtain ⟨ok, hbind⟩ := bindAndAccept_refines hcall
    exact ⟨.bindAndAccept ok, hbind⟩
  | other op =>
    simp only [Listener.step] at hstep
    split at hstep
    · cases hstep
    · obtain ⟨c, hc, rfl⟩ := Option.map_eq_some_iff.mp hstep
      exact ⟨op, hc⟩

/-! ## The acceptor -/

/-- An open acceptor refuses every call. -/
theorem bindAndAccept_open {st st' : Listener} {a : BindAnswers} {r : BindResult}
    (hopen : st.acceptorOpen = true) (h : st.bindAndAccept a = some (r, st')) :
    r = .thrown ∧ st'.acceptorOpen = true := by
  unfold Listener.bindAndAccept at h
  split at h
  · cases h
  split at h
  · cases h
    exact ⟨rfl, hopen⟩
  · rw [if_pos (Or.inl hopen)] at h
    cases h
    exact ⟨rfl, hopen⟩

/-- No operation closes it. -/
theorem step_acceptorOpen {st st' : Listener} {op : ListenOp} (hopen : st.acceptorOpen = true)
    (h : step st op = some st') : st'.acceptorOpen = true := by
  cases op with
  | bindAndAccept a =>
    obtain ⟨⟨r, st₁⟩, hcall, rfl⟩ := Option.map_eq_some_iff.mp h
    exact (bindAndAccept_open hopen hcall).2
  | other op =>
    simp only [Listener.step] at h
    split at h
    · cases h
    · obtain ⟨c, _, rfl⟩ := Option.map_eq_some_iff.mp h
      exact hopen

/-- What a failed `bind` leaves behind. -/
theorem bindAndAccept_failed {st st' : Listener} {a : BindAnswers} {r : BindResult}
    (hfails : BindFails st a) (h : st.bindAndAccept a = some (r, st')) :
    r = .returned false ∧ st'.acceptorOpen = true ∧
      ∃ i s, i ∉ st.connections.comm.mapIndexToSocket ∧
        st'.connections.comm.mapIndexToSocket =
          st.connections.comm.mapIndexToSocket.insert i s := by
  obtain ⟨hvalid, hclosed, hopens, hoption, herror⟩ := hfails
  unfold Listener.bindAndAccept at h
  split at h
  · cases h
  · rename_i i s c hcre
    simp only [hvalid, hclosed, hopens, hoption, herror, Bool.true_eq_false, Bool.false_eq_true,
      or_self, if_true, if_false, Option.some.injEq, Prod.mk.injEq] at h
    obtain ⟨rfl, rfl⟩ := h
    refine ⟨rfl, rfl, i, s, ?_⟩
    unfold Connections.createSocket at hcre
    split at hcre
    · cases hcre
    · rename_i hcomm
      cases hcre
      obtain ⟨_, hfree, _, hmap, _⟩ := createSocket_spec hcomm
      exact ⟨hfree, hmap⟩

/-- **A failed `bind` never leaves the communicator as it was**: its socket stays registered, the
    acceptor stays open, and every later `bind_and_accept` throws. -/
theorem failed_bind_leaves_traces (st : Listener) (a : BindAnswers) (hfails : BindFails st a) :
    ¬ LeavesAsWas st a ∧
    ∀ r st', st.bindAndAccept a = some (r, st') → r = .returned false ∧
      st'.connections.comm.mapIndexToSocket ≠ st.connections.comm.mapIndexToSocket ∧
      st'.acceptorOpen ≠ st.acceptorOpen ∧
      ∀ ops later, run step st' ops = some later → ∀ a' r' st'',
        later.bindAndAccept a' = some (r', st'') → r' = .thrown := by
  constructor
  · rintro ⟨st', hcall, hmap, hopen⟩
    obtain ⟨_, hopen', _⟩ := bindAndAccept_failed hfails hcall
    rw [hopen', hfails.closed] at hopen
    cases hopen
  · intro r st' hcall
    obtain ⟨hr, hopen, i, s, hfree, hmap⟩ := bindAndAccept_failed hfails hcall
    have hgrown : st'.connections.comm.mapIndexToSocket ≠
        st.connections.comm.mapIndexToSocket := by
      intro hsame
      rw [hmap] at hsame
      have hnew : i ∈ st.connections.comm.mapIndexToSocket.insert i s :=
        (AList.mem_insert _).mpr (.inl rfl)
      rw [hsame] at hnew
      exact hfree hnew
    refine ⟨hr, hgrown, by rw [hopen, hfails.closed]; decide, ?_⟩
    intro ops later hrun a' r' st'' hlater
    have hstill : later.acceptorOpen = true :=
      run_invariant (fun _ _ _ h hs => step_acceptorOpen h hs) hopen hrun
    exact (bindAndAccept_open hstill hlater).1

/-- A port that is in use, and then a free one. -/
def portInUse : BindAnswers := ⟨true, true, true, true, true⟩

theorem port_in_use_fails : BindFails Listener.create portInUse := ⟨rfl, rfl, rfl, rfl, rfl⟩

theorem port_in_use_leaves_traces :
    BindFails Listener.create portInUse ∧ ¬ LeavesAsWas Listener.create portInUse :=
  ⟨port_in_use_fails, (failed_bind_leaves_traces _ _ port_in_use_fails).1⟩

/-- After the failed call one socket is registered, and the call for a free port throws. -/
theorem second_bind_throws :
    ∃ st st', Listener.create.bindAndAccept portInUse = some (.returned false, st) ∧
      1 ∈ st.connections.comm.mapIndexToSocket ∧ ¬ LeavesAsWas Listener.create portInUse ∧
      st.bindAndAccept { portInUse with bindError := false } = some (.thrown, st') := by
  refine ⟨_, _, rfl, by decide, ?_, rfl⟩
  rintro ⟨st, hcall, _, hopen⟩
  cases hcall
  cases hopen

end IMonPlatform
