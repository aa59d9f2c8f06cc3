import IMonPlatform.Net.RemoteCall

/-!
# Programs on any number of connections

A program has one manager for all its sockets.  A server is connected with many clients, whose
managers number their messages independently of each other, and may itself be the client of other
servers.

* `Topology` — the programs and the connections between them.
* `Network`, `Network.step` — the managers, and the bytes and readers of every connection; a run is
  any interleaving of the threads of all programs, of the network and of all readers.
* `Network.view` — one connection with the managers at its ends.
* `step_view` — a step of the network is on every connection a step of the connection or none.
* `network_sound` — along every run, every connection delivers in order and once, and the calls on
  it are answered by their own requests, whatever happens on the other connections.
-/

set_option autoImplicit false

namespace IMonPlatform

open CGPBManagerV2 CNetworkCommunicator Transition CCommonSocket

variable {Packet ReqCode ResCode Program Link : Type}

/-! ## The network -/

/-- What is fixed: the programs, all built from the same packet definition, and the connections. -/
structure Topology (Packet ReqCode ResCode Program Link : Type) where
  traits : CGPTraits Packet ReqCode ResCode
  resCodeServerBusy : Program → ResCode
  mapRequestToSlot : Program → ReqCode → Bool
  mapResponseToSlot : Program → ResCode → Bool
  program : Link → Side → Program
  sock : Link → Side → Sock
  program_ne : ∀ l, program l .client ≠ program l .server
  /-- The end that a socket object of a program is. -/
  endOf : Program → Sock → Option (Link × Side)
  endOf_sock : ∀ l side, endOf (program l side) (sock l side) = some (l, side)

namespace Topology

variable (T : Topology Packet ReqCode ResCode Program Link)

/-- The configuration of the manager of a program. -/
def config (v : Program) : Config Packet ReqCode ResCode :=
  ⟨T.traits, T.resCodeServerBusy v, T.mapRequestToSlot v, T.mapResponseToSlot v⟩

/-- One connection by itself. -/
def duplex (l : Link) : DuplexConfig Packet ReqCode ResCode :=
  ⟨T.traits, fun side => T.resCodeServerBusy (T.program l side),
    fun side => T.mapRequestToSlot (T.program l side),
    fun side => T.mapResponseToSlot (T.program l side), T.sock l⟩

/-- A buffer received on a connection. -/
def receivesOnLink (v : Program) : Event Packet → Bool
  | .recv _ (.start r _) => (T.endOf v r).isSome
  | _ => false

theorem program_peer_ne (l : Link) (side : Side) : T.program l side.peer ≠ T.program l side := by
  cases side with
  | client => exact (T.program_ne l).symm
  | server => exact T.program_ne l

/-- Each end has a socket object of its own. -/
theorem sock_ne {l l' : Link} {side side' : Side}
    (hprogram : T.program l side = T.program l' side') (hne : l ≠ l') :
    T.sock l side ≠ T.sock l' side' := by
  intro hsock
  have hend := T.endOf_sock l side
  rw [hprogram, hsock, T.endOf_sock l' side'] at hend
  exact hne (congrArg Prod.fst (Option.some.inj hend)).symm

end Topology

/-- What `Endpoint` has beside the manager. -/
structure LinkEnd where
  reader : CCommonSocket Unit
  arrived : Nat
  handled : Nat
  call : Option Nat

structure Network (Packet Program Link : Type) where
  managers : Program → CGPBManagerV2 Packet
  ends : Link → Side → LinkEnd

/-- What happens at an end: bytes arrive, the connection ends, a read completes, or the message
    slot is called. -/
inductive LinkAct where
  | arrive (k : Nat)
  | hangup
  | complete
  | queue (n : Nat)

def LinkAct.at (side : Side) : LinkAct → DuplexEvent Packet
  | .arrive k => .arrive side k
  | .hangup => .hangup side
  | .complete => .complete side
  | .queue n => .queue side n

inductive NetworkEvent (Packet Program Link : Type) where
  | manager (v : Program) (e : Event Packet)
  | link (l : Link) (side : Side) (a : LinkAct)

namespace Network

section Steps

variable [DecidableEq ReqCode] [DecidableEq ResCode] [DecidableEq Program] [DecidableEq Link]
  (T : Topology Packet ReqCode ResCode Program Link)

/-- A connection with the managers at its ends. -/
def view (st : Network Packet Program Link) (l : Link) : Duplex Packet := fun side =>
  ⟨st.managers (T.program l side), (st.ends l side).reader, (st.ends l side).arrived,
    (st.ends l side).handled, (st.ends l side).call⟩

/-- An end of a connection has become `p`. -/
def put (st : Network Packet Program Link) (l : Link) (side : Side) (p : Endpoint Packet) :
    Network Packet Program Link where
  managers := Function.update st.managers (T.program l side) p.manager
  ends := Function.update st.ends l
    (Function.update (st.ends l) side ⟨p.reader, p.arrived, p.handled, p.call⟩)

def step (st : Network Packet Program Link) :
    NetworkEvent Packet Program Link → Option (Network Packet Program Link)
  | .manager v e =>
    -- buffers of the connections come from their readers
    if T.receivesOnLink v e then none
    else (CGPBManagerV2.step (T.config v) (st.managers v) e).map fun m =>
      { st with managers := Function.update st.managers v m }
  | .link l side a =>
    (Duplex.step (T.duplex l) (view T st l) (a.at side)).map fun d => put T st l side (d side)

end Steps

/-- Connections on which nothing has been sent. -/
def create (nm : Program → CNetworkCommunicator) (announced : Program → SockIndex → Bool) :
    Network Packet Program Link :=
  ⟨fun v => CGPBManagerV2.create (nm v) (announced v) false,
    fun _ _ => ⟨started [()] [()], 0, 0, none⟩⟩

end Network

/-- The SERVER_BUSY feature stays off in all programs and no write fails. -/
def NetworkEvent.FeatureOff : NetworkEvent Packet Program Link → Prop
  | .manager _ e => IMonPlatform.FeatureOff e
  | .link .. => True

/-- The program at the server's end of a connection sends on it only what its slots answer. -/
def LinkServed [DecidableEq ReqCode] [DecidableEq ResCode]
    (T : Topology Packet ReqCode ResCode Program Link) (answer : Packet → Packet → Prop) (l : Link)
    (st : Network Packet Program Link) : NetworkEvent Packet Program Link → Prop
  | .manager v e => v = T.program l .server →
    OnlyAnswers (T.config v) answer (T.sock l .server) (st.managers v) e
  | .link .. => True

/-! ## One connection of the network -/

section Views

variable {T : Topology Packet ReqCode ResCode Program Link} {st st' : Network Packet Program Link}

/-- A manager has made a step: on a connection this is the manager of one end or of none. -/
theorem view_managers [DecidableEq Program] (T : Topology Packet ReqCode ResCode Program Link)
    (st : Network Packet Program Link) {l : Link} {ends : Link → Side → LinkEnd}
    (hends : ends l = st.ends l) (v : Program) (m : CGPBManagerV2 Packet) :
    Network.view T ⟨Function.update st.managers v m, ends⟩ l = Network.view T st l ∨
      ∃ side, T.program l side = v ∧
        Network.view T ⟨Function.update st.managers v m, ends⟩ l =
          Function.update (Network.view T st l) side
            { Network.view T st l side with manager := m } := by
  by_cases hv : ∃ side, T.program l side = v
  · obtain ⟨side, rfl⟩ := hv
    refine .inr ⟨side, rfl, ?_⟩
    funext s
    by_cases hs : s = side
    · subst hs
      simp [Network.view, hends]
    · obtain rfl : s = side.peer := by
        cases s <;> cases side <;> first | rfl | exact absurd rfl hs
      simp [Network.view, hends, T.program_peer_ne, side.peer_ne]
  · have hv' : ∀ side, T.program l side ≠ v := fun side hside => hv ⟨side, hside⟩
    refine .inl ?_
    funext s
    simp [Network.view, hends, hv' s]

theorem view_put [DecidableEq Program] [DecidableEq Link] (l : Link) (side : Side)
    (p : Endpoint Packet) :
    Network.view T (Network.put T st l side p) l =
      Function.update (Network.view T st l) side p := by
  funext s
  by_cases hs : s = side
  · subst hs
    simp [Network.view, Network.put]
  · obtain rfl : s = side.peer := by
      cases s <;> cases side <;> first | rfl | exact absurd rfl hs
    simp [Network.view, Network.put, T.program_peer_ne, side.peer_ne]

/-- The end of another connection has changed: its manager may be the one of an end of this one. -/
theorem view_put_other [DecidableEq Program] [DecidableEq Link]
    (T : Topology Packet ReqCode ResCode Program Link) (st : Network Packet Program Link)
    {l l' : Link} (hl : l ≠ l') (side' : Side) (p : Endpoint Packet) :
    Network.view T (Network.put T st l' side' p) l = Network.view T st l ∨
      ∃ side, T.program l side = T.program l' side' ∧
        Network.view T (Network.put T st l' side' p) l =
          Function.update (Network.view T st l) side
            { Network.view T st l side with manager := p.manager } :=
  view_managers T st (Function.update_of_ne hl _ _) (T.program l' side') p.manager

/-- What happens at an end changes this end: it leaves the manager, or hands it a buffer. -/
theorem act_cases [DecidableEq ReqCode] [DecidableEq ResCode]
    {L : DuplexConfig Packet ReqCode ResCode} {d d' : Duplex Packet} {side : Side} {a : LinkAct}
    (h : Duplex.step L d (a.at side) = some d') :
    ∃ p, d' = Function.update d side p ∧ (p.manager = (d side).manager ∨
      ∃ n buffer, CGPBManagerV2.step (L.config side) (d side).manager
        (.recv n (.start (L.sock side) buffer)) = some p.manager) := by
  obtain ⟨p, hd, hp⟩ := step_end h
  have hside : (a.at side : DuplexEvent Packet).side = side := by
    cases a <;> rfl
  rw [hside] at hd hp
  refine ⟨p, hd, hp.imp_right fun ⟨e', hm, he⟩ => ?_⟩
  rcases he with he | ⟨n, buffer, rfl⟩
  · cases a <;> cases he
  · exact ⟨n, buffer, hm⟩

/-- A step that is not caused by a buffer of a connection. -/
theorem receivesOn_other {l : Link} {side : Side} {e : Event Packet}
    (h : ¬ T.receivesOnLink (T.program l side) e = true) :
    receivesOn (T.sock l side) e = false := by
  cases e with
  | recv n a =>
    cases a with
    | start r buffer =>
      refine beq_eq_false_iff_ne.mpr fun hr => h ?_
      rw [Topology.receivesOnLink, hr, T.endOf_sock]
      rfl
    | store | locked => rfl
  | send | sender | dispatch | receivePacket | disconnect | setIsUseServerBusyWaiting => rfl

variable [DecidableEq ReqCode] [DecidableEq ResCode]

/-- A manager's step at an end of the connection, that no buffer of the connection causes. -/
theorem manager_view {l : Link} {side : Side} {e : Event Packet} {m : CGPBManagerV2 Packet}
    (hother : receivesOn (T.sock l side) e = false)
    (hm : CGPBManagerV2.step (T.config (T.program l side)) (st.managers (T.program l side)) e =
      some m) :
    Duplex.step (T.duplex l) (Network.view T st l) (.manager side e) =
      some (Function.update (Network.view T st l) side
        { Network.view T st l side with manager := m }) := by
  have hstep : CGPBManagerV2.step ((T.duplex l).config side) (Network.view T st l side).manager e =
      some m := hm
  show (if receivesOn (T.sock l side) e then none else _) = _
  rw [hother, hstep]
  rfl

/-- **A step of the network is on every connection a step or none.** -/
theorem step_view [DecidableEq Program] [DecidableEq Link]
    {e : NetworkEvent Packet Program Link} (h : Network.step T st e = some st') (l : Link) :
    Network.view T st' l = Network.view T st l ∨
      ∃ d, Duplex.step (T.duplex l) (Network.view T st l) d = some (Network.view T st' l) ∧
        (e.FeatureOff → d.FeatureOff) ∧
        ∀ answer, LinkServed T answer l st e →
          ServerAnswers (T.duplex l) answer (Network.view T st l) d := by
  cases e with
  | manager v e =>
    simp only [Network.step] at h
    split at h
    · cases h
    · rename_i hother
      obtain ⟨m, hm, rfl⟩ := Option.map_eq_some_iff.mp h
      rcases view_managers T st (@rfl _ (st.ends l)) v m with hsame | ⟨side, rfl, hview⟩
      · exact .inl hsame
      · refine .inr ⟨.manager side e, ?_, fun he => he, fun answer hserved => ?_⟩
        · rw [hview]
          exact manager_view (receivesOn_other hother) hm
        · cases side with
          | client => trivial
          | server => exact hserved rfl
  | link l' side' a =>
    obtain ⟨d, hd, rfl⟩ := Option.map_eq_some_iff.mp h
    by_cases hl : l = l'
    · subst hl
      obtain ⟨p, rfl, _⟩ := act_cases hd
      refine .inr ⟨a.at side', ?_, fun _ => ?_, fun _ _ => ?_⟩
      · rw [view_put, Function.update_self]
        exact hd
      · cases a <;> trivial
      · cases a <;> trivial
    · obtain ⟨p, rfl, hp⟩ := act_cases hd
      rw [Function.update_self]
      rcases view_put_other T st hl side' p with hsame | ⟨side, hprogram, hview⟩
      · exact .inl hsame
      · rcases hp with hp | ⟨n, buffer, hm⟩
        · refine .inl ?_
          have hmanager : p.manager = (Network.view T st l side).manager := by
            rw [hp]
            exact congrArg st.managers hprogram.symm
          rw [hview, hmanager]
          exact Function.update_eq_self side _
        · -- a buffer of another connection of the same program
          refine .inr ⟨.manager side (.recv n (.start (T.sock l' side') buffer)), ?_,
            fun _ => trivial, fun answer _ => ?_⟩
          · rw [hview]
            refine manager_view (beq_eq_false_iff_ne.mpr ?_) ?_
            · exact T.sock_ne hprogram.symm fun heq => hl heq.symm
            · rw [hprogram]
              exact hm
          · cases side <;> trivial

end Views

/-! ## Runs -/

section Runs

theorem create_view (T : Topology Packet ReqCode ResCode Program Link)
    (nm : Program → CNetworkCommunicator) (announced : Program → SockIndex → Bool) (l : Link) :
    Network.view T (Network.create nm announced) l =
      Duplex.create (fun side => nm (T.program l side)) fun side => announced (T.program l side) :=
  rfl

variable [DecidableEq ReqCode] [DecidableEq ResCode] [DecidableEq Program] [DecidableEq Link]

/-- **Programs on any number of connections.**  From connections with their message slots registered
    at both ends, along every run with the feature off and without write errors, whatever the
    interleaving of the threads of all programs, of the network and of the readers, and for every
    connection: in both directions the packets that are accepted for it are queued at the other end
    once and in order; and if the program at the server's end sends on it only what its slots
    answer, every successful `receivePacket` call of the program at the client's end on its index
    returned the answer to a request of its own that this client has sent on this connection, even
    where other clients use the same message ids. -/
theorem network_sound (T : Topology Packet ReqCode ResCode Program Link)
    (nm : Program → CNetworkCommunicator) (announced : Program → SockIndex → Bool)
    (es : List (NetworkEvent Packet Program Link)) (st : Network Packet Program Link)
    (hoff : ∀ e ∈ es, e.FeatureOff)
    (hrun : run (Network.step T) (Network.create nm announced) es = some st) (l : Link) :
    (∀ side, InOrder (T.duplex l) (Network.view T st l) side) ∧
      ∀ (answer : Packet → Packet → Prop) (i : SockIndex),
        (nm (T.program l .client)).mapIndexToSocket.lookup i = some (T.sock l .client) →
        Meets (Network.step T) (LinkServed T answer l) (Network.create nm announced) es →
        CallsAnswered (T.duplex l) answer (Network.view T st l) i := by
  have hflow : ∀ side, Flow (T.duplex l) (Network.view T st l) side := by
    refine run_preserves (I := fun st => ∀ side, Flow (T.duplex l) (Network.view T st l) side)
      (C := fun _ e => e.FeatureOff) (fun s e s' hi hc hs => ?_) es _ st ?_
      (meets_of_forall es _ fun e he _ => hoff e he) hrun
    · rcases step_view hs l with hsame | ⟨d, hd, hdoff, _⟩
      · rw [hsame]
        exact hi
      · exact step_flow hi (hdoff hc) hd
    · rw [create_view]
      exact create_flow _ _
  refine ⟨fun side => (hflow side).inOrder (hflow side.peer), fun answer i hi hserved => ?_⟩
  have hcalls : Calls (T.duplex l) answer (fun side => nm (T.program l side))
      (Network.view T st l) := by
    refine run_preserves (I := fun st => Calls (T.duplex l) answer
      (fun side => nm (T.program l side)) (Network.view T st l)) (C := LinkServed T answer l)
      (fun s e s' hi hc hs => ?_) es _ st ?_ hserved hrun
    · rcases step_view hs l with hsame | ⟨d, hd, _, hanswers⟩
      · rw [hsame]
        exact hi
      · exact step_calls_kept hi (hanswers answer hc) hd
    · rw [create_view]
      exact create_calls answer _ _
  exact hcalls.callsAnswered hflow hi

end Runs

namespace SamplePacket

/-- A server, the program 0, with a client for every socket object. -/
def hub : Topology SamplePacket Nat Nat Nat Nat where
  traits := traits
  resCodeServerBusy _ := 9
  mapRequestToSlot _ := fun r => r == 5
  mapResponseToSlot _ := fun _ => false
  program
    | l, .client => l + 1
    | _, .server => 0
  sock
    | _, .client => 0
    | l, .server => l
  program_ne l := Nat.succ_ne_zero l
  endOf
    | 0, s => some (s, .server)
    | l + 1, _ => some (l, .client)
  endOf_sock l side := by cases side <;> rfl

/-- The client of a connection sends its first request, which the server takes to its slot. -/
def requestOn (l : Nat) : List (NetworkEvent SamplePacket Nat Nat) :=
  (sendCall 0 1 ⟨0, 5, 0⟩ ++ plainRound).map (.manager (l + 1)) ++
    [.link l .server (.arrive 7), .link l .server .complete, .link l .server .complete,
      .link l .server (.queue l), .manager 0 (.dispatch l .pop)]

/-- The call of the slot's answer, by the thread `l`. -/
def answerCallBy (l : Nat) : List (Event SamplePacket) :=
  [.send l .assign, .send l .push, .send l .ret]

/-- The slot answers with the result `2 + l`, and the client asks for the answer. -/
def answerOn (l : Nat) : List (NetworkEvent SamplePacket Nat Nat) :=
  .manager 0 (.dispatch l (.message (⟨1, 0, 2 + l⟩, true) l)) ::
    ((answerCallBy l ++ plainRound).map (.manager 0) ++
      [.link l .client (.arrive 7), .link l .client .complete, .link l .client .complete,
        .link l .client (.queue 0)] ++ fetch.map (.manager (l + 1)))

/-- Two clients whose requests have the same id, answered in the other order. -/
def twoClients : List (NetworkEvent SamplePacket Nat Nat) :=
  (requestOn 0 ++ requestOn 1) ++ (answerOn 1 ++ answerOn 0)

def disconnected : Network SamplePacket Nat Nat :=
  Network.create (fun _ => registry) fun _ i => i == 1 || i == 2

/-- An answer of a slot that has been given a packet with the id 1. -/
theorem linkServed_answer {l k n : Nat} {s : Sock} {st : Network SamplePacket Nat Nat}
    {result : SamplePacket} (hid : result.msgid = 1)
    (h : (st.managers 0).dispatchers k = .popped n (s, ⟨1, 5, 0⟩)) :
    LinkServed hub keepsId l st (.manager 0 (.dispatch k (.message (result, true) k))) := by
  rintro - n' q hq - -
  rw [h] at hq
  cases hq
  exact hid

theorem twoClients_off : ∀ e ∈ twoClients, e.FeatureOff := by
  simp [twoClients, requestOn, answerOn, answerCallBy, sendCall, fetch, plainRound,
    NetworkEvent.FeatureOff, FeatureOff]

theorem twoClients_served :
    Meets (Network.step hub) (LinkServed hub keepsId 0) disconnected twoClients := by
  obtain ⟨mid, hmid, hpopped⟩ : ∃ mid, run (Network.step hub) disconnected
      (requestOn 0 ++ requestOn 1) = some mid ∧
      (mid.managers 0).dispatchers 1 = .popped 1 (1, ⟨1, 5, 0⟩) := ⟨_, rfl, rfl⟩
  obtain ⟨late, hlate, hpopped'⟩ : ∃ late, run (Network.step hub) disconnected
      (requestOn 0 ++ requestOn 1 ++ answerOn 1) = some late ∧
      (late.managers 0).dispatchers 0 = .popped 0 (0, ⟨1, 5, 0⟩) := ⟨_, rfl, rfl⟩
  -- only the slots' answers have to be looked at
  refine meets_append (meets_of_forall _ _ ?_) fun m hm => ?_
  · simp [requestOn, sendCall, plainRound, LinkServed, OnlyAnswers, hub]
  · cases hmid.symm.trans hm
    refine meets_append (fun s' _ => ⟨linkServed_answer rfl hpopped, meets_of_forall _ _ ?_⟩)
      fun m' hm' => ?_
    · simp [answerCallBy, fetch, plainRound, LinkServed, OnlyAnswers, hub]
    · cases hlate.symm.trans (run_append.mpr ⟨mid, hmid, hm'⟩)
      refine fun s' _ => ⟨linkServed_answer rfl hpopped', meets_of_forall _ _ ?_⟩
      simp [answerCallBy, fetch, plainRound, LinkServed, OnlyAnswers, hub]

end SamplePacket

open SamplePacket in
theorem network_sound_twoClients :
    ∃ st, run (Network.step hub) disconnected twoClients = some st ∧
      (Network.view hub st 0).answers 1 = [((1, 1), ⟨1, 0, 2⟩)] ∧
      (Network.view hub st 1).answers 1 = [((1, 1), ⟨1, 0, 3⟩)] ∧
      CallsAnswered (hub.duplex 0) keepsId (Network.view hub st 0) 1 := by
  obtain ⟨st, hrun, hanswers⟩ : ∃ st, run (Network.step hub) disconnected twoClients = some st ∧
      (Network.view hub st 0).answers 1 = [((1, 1), ⟨1, 0, 2⟩)] ∧
      (Network.view hub st 1).answers 1 = [((1, 1), ⟨1, 0, 3⟩)] := ⟨_, rfl, rfl, rfl⟩
  exact ⟨st, hrun, hanswers.1, hanswers.2,
    (network_sound hub (fun _ => registry) _ twoClients st twoClients_off hrun 0).2 keepsId 1
      (by decide) twoClients_served⟩

end IMonPlatform
