import IMonPlatform.Net.DuplexDelivery
import IMonPlatform.Net.SlotAnswers

/-!
# A remote call over a connection

A client sends requests and asks `receivePacket` for the answers by message id; the server's slots
answer.  Put together from the parts of the way: the connection delivers in order and once, the
server makes at most one answer of a request, and a call returns a packet that no other call has
returned.

* `step_end` — a step of the connection changes one of its ends.
* `step_at` — a step of the connection seen from one manager.
* `AnsweredCall` — a request and the `receivePacket` call that returned its answer.
* `Calls`, `Calls.callsAnswered` — the invariant, and what it says about the calls.
* `remote_call` — along every run, every successful call on the connection answers a request of its
  own.
-/

set_option autoImplicit false

namespace IMonPlatform

open CGPBManagerV2 CNetworkCommunicator Transition TaggedLog Matching

variable {Packet ReqCode ResCode : Type} {L : DuplexConfig Packet ReqCode ResCode}
  {st st' : Duplex Packet}

/-! ## The connection seen from one manager -/

section Views

variable [DecidableEq ReqCode] [DecidableEq ResCode]

/-- The side at which it happens. -/
def DuplexEvent.side : DuplexEvent Packet → Side
  | .manager side _ | .arrive side _ | .hangup side | .complete side | .queue side _ => side

/-- A step changes one end: it leaves the manager there, is a step of its own, or hands it a
    buffer of the connection. -/
theorem step_end {e : DuplexEvent Packet} (h : Duplex.step L st e = some st') :
    ∃ p, st' = Function.update st e.side p ∧ (p.manager = (st e.side).manager ∨
      ∃ e', CGPBManagerV2.step (L.config e.side) (st e.side).manager e' = some p.manager ∧
        (e = .manager e.side e' ∨ ∃ n buffer, e' = .recv n (.start (L.sock e.side) buffer))) := by
  cases e with
  | manager side e =>
    obtain ⟨m, _, hm, rfl⟩ := manager_step h
    exact ⟨_, rfl, .inr ⟨e, hm, .inl rfl⟩⟩
  | arrive side k =>
    obtain ⟨r, _, _, rfl⟩ := arrive_step h
    exact ⟨_, rfl, .inl rfl⟩
  | hangup side =>
    obtain ⟨r, _, rfl⟩ := hangup_step h
    exact ⟨_, rfl, .inl rfl⟩
  | complete side =>
    obtain ⟨r, _, _, rfl⟩ := complete_step h
    exact ⟨_, rfl, .inl rfl⟩
  | queue side n =>
    obtain ⟨buffer, m, _, hm, rfl⟩ := queue_step h
    exact ⟨_, rfl, .inr ⟨_, hm, .inr ⟨n, buffer, rfl⟩⟩⟩

/-- A manager stays as it is, makes a step of its own, or is given a buffer of the connection. -/
theorem step_at {e : DuplexEvent Packet} (h : Duplex.step L st e = some st') (side : Side) :
    (st' side).manager = (st side).manager ∨
      ∃ e', CGPBManagerV2.step (L.config side) (st side).manager e' = some (st' side).manager ∧
        (e = .manager side e' ∨ ∃ n buffer, e' = .recv n (.start (L.sock side) buffer)) := by
  obtain ⟨p, rfl, hp⟩ := step_end h
  by_cases hs : e.side = side
  · subst hs
    rw [Function.update_self]
    exact hp
  · exact .inl (by rw [Function.update_of_ne (Ne.symm hs)])

/-- The program of the server sends on the connection only what its slots answer. -/
def ServerAnswers (L : DuplexConfig Packet ReqCode ResCode) (answer : Packet → Packet → Prop)
    (st : Duplex Packet) : DuplexEvent Packet → Prop
  | .manager .server e =>
    OnlyAnswers (L.config .server) answer (L.sock .server) (st .server).manager e
  | _ => True

/-- The client's responses and the server's answers are made of packets of their own. -/
structure Calls (L : DuplexConfig Packet ReqCode ResCode) (answer : Packet → Packet → Prop)
    (nm : Side → CNetworkCommunicator) (st : Duplex Packet) : Prop where
  book : ∀ side, Book (L.config side) (nm side) (st side).manager
  filed : Filed (L.config .client) (nm .client) (st .client).manager
  served : Served (L.config .server) answer (L.sock .server) (st .server).manager

theorem step_calls_kept {answer : Packet → Packet → Prop} {nm : Side → CNetworkCommunicator}
    {e : DuplexEvent Packet} (hc : Calls L answer nm st) (ha : ServerAnswers L answer st e)
    (h : Duplex.step L st e = some st') : Calls L answer nm st' := by
  refine ⟨fun side => ?_, ?_, ?_⟩
  · rcases step_at h side with heq | ⟨e', hm, _⟩
    · rw [heq]
      exact hc.book side
    · exact step_book (hc.book side) hm
  · rcases step_at h .client with heq | ⟨e', hm, _⟩
    · rw [heq]
      exact hc.filed
    · exact step_filed (hc.book .client) hc.filed hm
  · rcases step_at h .server with heq | ⟨e', hm, rfl | ⟨n, buffer, rfl⟩⟩
    · rw [heq]
      exact hc.served
    · exact step_served (hc.book .server) hc.served hm ha
    · exact step_served (hc.book .server) hc.served hm trivial

end Views

/-! ## The way of a request and its answer -/

/-- What a side has queued are packets of its peer, each parsed from one of its own. -/
theorem Flow.matched {side : Side} (hf : Flow L st side) (hpeer : Flow L st side.peer) :
    Matched (fun p p' => L.transmitted p = some p') (Duplex.accepted L st side.peer)
      (Duplex.delivered L st side) := by
  rw [(hf.delivered_eq hpeer).2]
  refine Matched.mono ((matched_beginning (List.take_prefix _ _)).trans
    (matched_filterMap L.transmitted _)) ?_
  rintro p p' ⟨_, rfl, hp⟩
  exact hp

/-- The entries of an author as a filter of the log. -/
theorem entriesOf_filterMap {α : Type} (log : List (Sock × α)) (s : Sock) :
    entriesOf log s = log.filterMap fun e => if e.1 = s then some e.2 else none := by
  induction log with
  | nil => rfl
  | cons e log ih =>
    unfold entriesOf at ih ⊢
    by_cases he : e.1 = s
    · simp [he, ih]
    · simp [he, ih]

/-- Packets of one socket are found among the arrivals of the socket. -/
theorem matched_entriesOf {α β : Type} {R : Sock × α → β → Prop} {log : List (Sock × α)}
    {ys : List β} {s : Sock} (h : Matched R log ys) (hs : ∀ e y, R e y → e.1 = s) :
    Matched (fun x y => R (s, x) y) (entriesOf log s) ys := by
  rw [entriesOf_filterMap]
  refine h.filterMap_source _ fun e y hR => ⟨e.2, if_pos (hs e y hR), ?_⟩
  rw [← hs e y hR]
  exact hR

/-- The successful `receivePacket` calls of the client on an index. -/
def Duplex.answers (st : Duplex Packet) (i : SockIndex) : List ((SockIndex × Int) × Packet) :=
  (st .client).manager.log.returned.filter fun r => decide (r.1.1 = i)

variable [DecidableEq ReqCode] [DecidableEq ResCode]

/-- The request `r` was parsed by the server, answered by a slot, and the answer as the client
    parsed it is what the call returned. -/
def AnsweredCall (L : DuplexConfig Packet ReqCode ResCode) (answer : Packet → Packet → Prop)
    (r : Packet) (call : (SockIndex × Int) × Packet) : Prop :=
  ∃ q a, L.transmitted r = some q ∧ isProcess (L.config .server) q = true ∧ answer q a ∧
    L.transmitted a = some call.2 ∧ L.traits.msgid call.2 = call.1.2

theorem Calls.answered {answer : Packet → Packet → Prop} {nm : Side → CNetworkCommunicator}
    (hc : Calls L answer nm st) :
    Matched (fun q a => isProcess (L.config .server) q = true ∧ answer q a)
      (Duplex.delivered L st .server) (Duplex.accepted L st .server) := by
  have hmatched := matched_entriesOf hc.served.custody.matched fun e y hR => hR.1
  exact hmatched.mono fun q a hR => hR.2

theorem Calls.returned {answer : Packet → Packet → Prop} {nm : Side → CNetworkCommunicator}
    (hc : Calls L answer nm st) {i : SockIndex}
    (hi : (nm .client).mapIndexToSocket.lookup i = some (L.sock .client)) :
    Matched (fun p call => p = call.2 ∧ L.traits.msgid call.2 = call.1.2)
      (Duplex.delivered L st .client) (st.answers i) := by
  -- the calls on the index, among all calls
  have hsome : st.answers i = (st .client).manager.log.returned.filterMap fun r =>
      if r.1.1 = i then some r else none := by
    unfold Duplex.answers
    rw [← List.filterMap_eq_filter]
    exact List.filterMap_congr fun r _ => by by_cases hr : r.1.1 = i <;> simp [Option.guard, hr]
  have hcalls : Matched (fun e call => ReturnedBy (L.config .client) (nm .client) e call ∧
      call.1.1 = i) (st .client).manager.arrivals (st.answers i) := by
    rw [hsome]
    refine (hc.filed.matched.trans (matched_filterMap _ _)).mono ?_
    rintro e call ⟨r, hR, hr⟩
    split at hr
    · rename_i hri
      cases hr
      exact ⟨hR, hri⟩
    · cases hr
  have hsock : ∀ e call, ReturnedBy (L.config .client) (nm .client) e call ∧ call.1.1 = i →
      e.1 = L.sock .client := by
    rintro e call ⟨⟨hlookup, _⟩, hcall⟩
    rw [hcall, hi] at hlookup
    exact (Option.some.inj hlookup).symm
  exact (matched_entriesOf hcalls hsock).mono fun p call hR => hR.1.2.2

/-- The client's calls on an index next to the requests it has sent on the connection. -/
structure CallsAnswered (L : DuplexConfig Packet ReqCode ResCode)
    (answer : Packet → Packet → Prop) (st : Duplex Packet) (i : SockIndex) : Prop where
  /-- Every call has a request of its own. -/
  matched : Matched (AnsweredCall L answer) (Duplex.accepted L st .client) (st.answers i)
  /-- If ids survive the wire and the slots, it is the request with the id it asked for. -/
  byId : (∀ q a, answer q a → L.traits.msgid a = L.traits.msgid q) →
    (∀ side, ∀ p ∈ Duplex.accepted L st side, ∀ p', L.transmitted p = some p' →
      L.traits.msgid p' = L.traits.msgid p) →
    Matched (fun r call => AnsweredCall L answer r call ∧ L.traits.msgid r = call.1.2)
      (Duplex.accepted L st .client) (st.answers i) ∧
    (((Duplex.accepted L st .client).map L.traits.msgid).Nodup →
      ((st.answers i).map fun call => call.1.2).Nodup)

/-- **The way of a request and its answer**, in flow in both directions. -/
theorem Calls.callsAnswered {answer : Packet → Packet → Prop} {nm : Side → CNetworkCommunicator}
    (hc : Calls L answer nm st) (hflow : ∀ side, Flow L st side) {i : SockIndex}
    (hi : (nm .client).mapIndexToSocket.lookup i = some (L.sock .client)) :
    CallsAnswered L answer st i := by
  -- request, request at the server, answer, answer at the client, call
  have hway := (((hflow .server).matched (hflow .client)).mem.trans hc.answered).trans
    (((hflow .client).matched (hflow .server)).mem.trans (hc.returned hi))
  refine ⟨hway.mono ?_, fun hanswer hwire => ?_⟩
  · rintro r call ⟨a, ⟨q, ⟨_, _, hq⟩, hslot, ha⟩, p, ⟨_, _, hp⟩, rfl, hid⟩
    exact ⟨q, a, hq, hslot, ha, hp, hid⟩
  · have hids : Matched (fun r call => AnsweredCall L answer r call ∧
        L.traits.msgid r = call.1.2) (Duplex.accepted L st .client) (st.answers i) := by
      refine hway.mono ?_
      rintro r call ⟨a, ⟨q, ⟨hr, _, hq⟩, hslot, ha⟩, p, ⟨hmem, _, hp⟩, rfl, hid⟩
      refine ⟨⟨q, a, hq, hslot, ha, hp, hid⟩, ?_⟩
      calc L.traits.msgid r = L.traits.msgid q := (hwire .client r hr q hq).symm
        _ = L.traits.msgid a := (hanswer q a ha).symm
        _ = L.traits.msgid call.2 := (hwire .server a hmem call.2 hp).symm
        _ = call.1.2 := hid
    exact ⟨hids, hids.nodup fun r call h => h.2⟩

theorem create_calls (answer : Packet → Packet → Prop) (nm : Side → CNetworkCommunicator)
    (announced : Side → SockIndex → Bool) : Calls L answer nm (Duplex.create nm announced) :=
  ⟨fun _ => create_book _ _, create_filed _ _, create_served _ _ _⟩

/-- **A remote call over a connection.**  The server sends on the connection only what its slots
    answer.  Then along every run with the feature off, whatever the interleaving of the threads of
    both programs, of the network and of the readers: every successful `receivePacket` call of the
    client on the connection's index returned the answer to a request that the client had sent, and
    no two calls share a request.  If message ids survive the wire and slots keep them, a call
    returned the answer to the request with the id it asked for, and with different ids for the
    requests no id is answered twice. -/
theorem remote_call (L : DuplexConfig Packet ReqCode ResCode) (nm : Side → CNetworkCommunicator)
    (announced : Side → SockIndex → Bool) (answer : Packet → Packet → Prop)
    (es : List (DuplexEvent Packet)) (st : Duplex Packet) (i : SockIndex)
    (hi : (nm .client).mapIndexToSocket.lookup i = some (L.sock .client))
    (hoff : ∀ e ∈ es, e.FeatureOff)
    (hserve : Meets (Duplex.step L) (ServerAnswers L answer) (Duplex.create nm announced) es)
    (hrun : run (Duplex.step L) (Duplex.create nm announced) es = some st) :
    Matched (AnsweredCall L answer) (Duplex.accepted L st .client) (st.answers i) ∧
      ((∀ q a, answer q a → L.traits.msgid a = L.traits.msgid q) →
        (∀ side, ∀ p ∈ Duplex.accepted L st side, ∀ p', L.transmitted p = some p' →
          L.traits.msgid p' = L.traits.msgid p) →
        Matched (fun r call => AnsweredCall L answer r call ∧ L.traits.msgid r = call.1.2)
          (Duplex.accepted L st .client) (st.answers i) ∧
        (((Duplex.accepted L st .client).map L.traits.msgid).Nodup →
          ((st.answers i).map fun call => call.1.2).Nodup)) := by
  have hflow := run_flow hoff hrun
  have hcalls : Calls L answer nm st :=
    run_preserves (I := Calls L answer nm) (C := ServerAnswers L answer)
      (fun _ _ _ hi hc hs => step_calls_kept hi hc hs) es _ st (create_calls answer nm announced)
      hserve hrun
  obtain ⟨hmatched, hid⟩ := hcalls.callsAnswered hflow hi
  exact ⟨hmatched, hid⟩

namespace SamplePacket

/-- A request for which the server has a slot goes to the server. -/
def request : List (DuplexEvent SamplePacket) :=
  (sendCall 0 1 ⟨0, 5, 0⟩ ++ plainRound).map (.manager .client) ++
    [.arrive .server 7, .complete .server, .complete .server, .queue .server 0,
      .manager .server (.dispatch 0 .pop)]

/-- The call of the slot's answer. -/
def answerCall : List (Event SamplePacket) := [.send 0 .assign, .send 0 .push, .send 0 .ret]

/-- A response without a slot is stored and asked for. -/
def fetch : List (Event SamplePacket) :=
  [.dispatch 0 .pop, .dispatch 0 (.message (⟨0, 0, 0⟩, false) 0), .dispatch 0 (.store 0),
    .receivePacket 1 1]

/-- The slot's answer goes back and is fetched. -/
def answered : List (DuplexEvent SamplePacket) :=
  (answerCall ++ plainRound).map (.manager .server) ++
    [.arrive .client 7, .complete .client, .complete .client, .queue .client 0] ++
    fetch.map (.manager .client)

/-- Request, answer and the call for it. -/
def roundTrip : List (DuplexEvent SamplePacket) :=
  request ++ .manager .server (.dispatch 0 (.message (⟨1, 0, 2⟩, true) 0)) :: answered

/-- A slot that returns the id it was given. -/
def keepsId (q a : SamplePacket) : Prop := a.msgid = q.msgid

end SamplePacket

open SamplePacket in
theorem remote_call_roundTrip :
    ∃ st, run (Duplex.step pair) linked roundTrip = some st ∧
      st.answers 1 = [((1, 1), ⟨1, 0, 2⟩)] ∧
      Matched (AnsweredCall pair keepsId) (Duplex.accepted pair st .client) (st.answers 1) := by
  obtain ⟨mid, hmid, hpopped⟩ : ∃ mid, run (Duplex.step pair) linked request = some mid ∧
      (mid .server).manager.dispatchers 0 = .popped 0 (0, ⟨1, 5, 0⟩) := ⟨_, rfl, rfl⟩
  obtain ⟨st, hrun, hcalls⟩ : ∃ st, run (Duplex.step pair) linked roundTrip = some st ∧
      st.answers 1 = [((1, 1), ⟨1, 0, 2⟩)] := ⟨_, rfl, rfl⟩
  have hoff : ∀ e ∈ roundTrip, e.FeatureOff := by
    simp [roundTrip, request, answered, sendCall, answerCall, fetch, plainRound,
      DuplexEvent.FeatureOff, FeatureOff]
  -- only the slot's answer has to be looked at
  have hserve : Meets (Duplex.step pair) (ServerAnswers pair keepsId) linked roundTrip := by
    refine meets_append (meets_of_forall _ _ ?_) fun m hm s' _ => ⟨?_, meets_of_forall _ _ ?_⟩
    · simp [request, sendCall, plainRound, ServerAnswers, OnlyAnswers]
    · rw [hmid] at hm
      cases hm
      intro n q hq _ _
      rw [hpopped] at hq
      cases hq
      rfl
    · simp [answered, answerCall, fetch, plainRound, ServerAnswers, OnlyAnswers]
  exact ⟨st, hrun, hcalls, (remote_call pair _ _ keepsId roundTrip st 1 (by decide) hoff hserve
    hrun).1⟩

end IMonPlatform
