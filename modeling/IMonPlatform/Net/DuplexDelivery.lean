import IMonPlatform.Net.Duplex

/-!
# Delivery over a connection

What one manager accepts for a connection the manager at the other end queues, once and in order,
whatever the interleaving of the threads and however the bytes are cut.  Both ends have their
message slot before the first frame arrives; `AcceptRead` says when `socket_accept` keeps to that.

* `Flow.buffers_eq` — the buffers that a reader has handed out are the frames of the first packets
  that the peer has accepted.
* `InOrder`, `Flow.inOrder` — delivery in order, once.
* `duplex_delivers` — along every run with the feature off, what a side has queued are the first
  packets accepted by its peer, one for each buffer handled, as they parse; and all of them once
  nothing is under way.
-/

set_option autoImplicit false

namespace IMonPlatform

open Framing CGPBManagerV2 Transition TaggedLog CCommonSocket

variable {Packet ReqCode ResCode : Type} {L : DuplexConfig Packet ReqCode ResCode}
  {st st' : Duplex Packet}

/-- A packet as the other side parses it. -/
def DuplexConfig.transmitted (L : DuplexConfig Packet ReqCode ResCode) (p : Packet) :
    Option Packet :=
  L.traits.ParseFromArray (L.traits.SerializeToArray p)

/-- The bodies of packets on the wire. -/
def DuplexConfig.bodies (L : DuplexConfig Packet ReqCode ResCode) (ps : List Packet) : List Bytes :=
  ps.map L.traits.SerializeToArray

theorem DuplexConfig.bodies_small (L : DuplexConfig Packet ReqCode ResCode) (ps : List Packet) :
    ∀ b ∈ L.bodies ps, b.length < 2 ^ 31 := by
  intro b hb
  obtain ⟨p, _, rfl⟩ := List.mem_map.mp hb
  exact L.traits.byteSize_lt p

/-! ## The buffers of a reader -/

/-- What is on a wire is the beginning of the frames of the packets accepted for it. -/
theorem Wire.grows_along {cfg : Config Packet ReqCode ResCode} {m : CGPBManagerV2 Packet}
    (hw : Wire cfg m) (s : Sock) : m.wire s <+: framesOf cfg (enqueuedFor m s) := by
  obtain ⟨sent, rest, hfor, hwire | ⟨p, rest', n, rfl, _, _, hwire⟩⟩ := hw.cutAtFrame s
  · rw [hwire, hfor, framesOf_append]
    exact List.prefix_append _ _
  · rw [hwire, hfor, framesOf_append, List.prefix_append_right_inj]
    show (frameOf cfg p).take n <+: frameOf cfg p ++ framesOf cfg rest'
    exact (List.take_prefix n _).trans (List.prefix_append _ _)

/-- The reader of a side works on the frames of what its peer has accepted. -/
theorem Flow.tracks {side : Side} (hf : Flow L st side) (hpeer : Flow L st side.peer) :
    Registered [()] [()] (st side).reader ∧
      Tracks [()] [()] (L.bodies (Duplex.accepted L st side.peer)) (Duplex.received L st side)
        (st side).reader := by
  obtain ⟨evs, hrun, harr⟩ := hf.reads
  have hprefix : arrivals evs <+: stream (L.bodies (Duplex.accepted L st side.peer)) := by
    rw [harr]
    exact (List.take_prefix _ _).trans (hpeer.wire.grows_along _)
  have htracks := run_tracks (L.bodies_small _) evs _ hrun hprefix
  rwa [harr] at htracks

/-- **The reader has handed out frames of accepted packets**, from the first one on. -/
theorem Flow.buffers_eq {side : Side} (hf : Flow L st side) (hpeer : Flow L st side.peer) :
    ∃ done, done <+: Duplex.accepted L st side.peer ∧
      (st side).buffers = (L.bodies done).map frame := by
  obtain ⟨bodies, hbodies, _, hcalls⟩ := (hf.tracks hpeer).2.whole_frames
  have hbuffers : (st side).buffers = bodies.map frame := by
    rw [Endpoint.buffers, hcalls, buffersTo_append, buffersTo_messageCalls () [()] rfl]
    split
    · rw [buffersTo_disconnectCalls, List.append_nil]
    · exact List.append_nil _
  refine ⟨(Duplex.accepted L st side.peer).take bodies.length, List.take_prefix _ _, ?_⟩
  rw [hbuffers, DuplexConfig.bodies, List.map_take]
  exact congrArg (List.map frame) (List.prefix_iff_eq_take.mp hbodies)

/-- What a buffer with a frame parses to. -/
theorem DuplexConfig.parse_frame (L : DuplexConfig Packet ReqCode ResCode) (p : Packet) :
    L.traits.ParseFromArray (parseRegion (frame (L.traits.SerializeToArray p))) =
      L.transmitted p := by
  rw [parseRegion_frame (L.traits.byteSize_lt p)]
  rfl

/-- **One packet for each buffer handled.** -/
theorem Flow.delivered_eq {side : Side} (hf : Flow L st side) (hpeer : Flow L st side.peer) :
    (st side).handled ≤ (Duplex.accepted L st side.peer).length ∧
      Duplex.delivered L st side =
        ((Duplex.accepted L st side.peer).take (st side).handled).filterMap L.transmitted := by
  obtain ⟨done, hdone, hbuffers⟩ := hf.buffers_eq hpeer
  have hle : (st side).handled ≤ done.length := by
    have := hf.handled_le
    rw [hbuffers] at this
    simpa [DuplexConfig.bodies] using this
  obtain ⟨rest, hrest⟩ := hdone
  refine ⟨?_, ?_⟩
  · rw [← hrest, List.length_append]
    exact Nat.le_add_right_of_le hle
  · rw [hf.queued, hbuffers, ← hrest, List.take_append_of_le_length hle, DuplexConfig.bodies,
      List.map_map, ← List.map_take, List.filterMap_map]
    exact List.filterMap_congr fun p _ => L.parse_frame p

/-! ## At rest -/

/-- Nothing is under way towards `side`. -/
structure AtRest (L : DuplexConfig Packet ReqCode ResCode) (st : Duplex Packet) (side : Side) :
    Prop where
  waiting : entriesOf (st side.peer).manager.outgoingQueue (L.sock side.peer) = []
  hand : entriesOf (st side.peer).manager.inHand (L.sock side.peer) = []
  arrived : Duplex.inTransit L st side = []
  reader : Quiescent (st side).reader
  handled : (st side).handled = (st side).buffers.length

/-- With nothing waiting, the wire holds the frames of all that was accepted. -/
theorem Wire.all_written {cfg : Config Packet ReqCode ResCode} {m : CGPBManagerV2 Packet}
    (hw : Wire cfg m) {s : Sock} (hqueue : entriesOf m.outgoingQueue s = [])
    (hhand : entriesOf m.inHand s = []) : m.wire s = framesOf cfg (enqueuedFor m s) := by
  have hfor : enqueuedFor m s = entriesOf m.log.written s := by
    unfold enqueuedFor
    rw [hw.fifo, entriesOf_append, entriesOf_append, hqueue, hhand]
    simp
  have hun : unfinished cfg s m.sender = [] := by
    cases hpc : m.sender with
    | write e n =>
      by_cases hs : e.1 = s
      · simp [inHand, hpc, entriesOf, hs] at hhand
      · exact if_neg hs
    | _ => rfl
  rw [hw.wire s, hun, hfor, List.append_nil]

/-- **At rest everything accepted has been queued.** -/
theorem Flow.delivered_all {side : Side} (hf : Flow L st side) (hpeer : Flow L st side.peer)
    (hrest : AtRest L st side) :
    Duplex.delivered L st side = (Duplex.accepted L st side.peer).filterMap L.transmitted := by
  have hwire : (st side.peer).manager.wire (L.sock side.peer) =
      stream (L.bodies (Duplex.accepted L st side.peer)) :=
    hpeer.wire.all_written hrest.waiting hrest.hand
  have hreceived : Duplex.received L st side =
      stream (L.bodies (Duplex.accepted L st side.peer)) := by
    have hnone := hrest.arrived
    rw [Duplex.inTransit, List.drop_eq_nil_iff] at hnone
    rw [Duplex.received, List.take_of_length_le hnone, hwire]
  have hcalls := (hf.tracks hpeer).2.quiescent hrest.reader
  rw [hreceived, completeBodies_all] at hcalls
  have hbuffers : (st side).buffers =
      (L.bodies (Duplex.accepted L st side.peer)).map frame := by
    rw [Endpoint.buffers, hcalls, buffersTo_append, buffersTo_messageCalls () [()] rfl]
    split
    · rw [buffersTo_disconnectCalls, List.append_nil]
    · exact List.append_nil _
  have hhandled : (st side).handled = (Duplex.accepted L st side.peer).length := by
    rw [hrest.handled, hbuffers]
    simp [DuplexConfig.bodies]
  rw [(hf.delivered_eq hpeer).2, hhandled, List.take_length]

/-- What a side has queued for the connection, next to what its peer has accepted for it. -/
structure InOrder (L : DuplexConfig Packet ReqCode ResCode) (st : Duplex Packet) (side : Side) :
    Prop where
  handled_le : (st side).handled ≤ (Duplex.accepted L st side.peer).length
  delivered : Duplex.delivered L st side =
    ((Duplex.accepted L st side.peer).take (st side).handled).filterMap L.transmitted
  first : (∀ p ∈ Duplex.accepted L st side.peer, L.transmitted p = some p) →
    Duplex.delivered L st side <+: Duplex.accepted L st side.peer
  all : AtRest L st side →
    Duplex.delivered L st side = (Duplex.accepted L st side.peer).filterMap L.transmitted

/-- **Delivery in order, once**, as long as both directions are in flow. -/
theorem Flow.inOrder {side : Side} (hf : Flow L st side) (hpeer : Flow L st side.peer) :
    InOrder L st side := by
  obtain ⟨hle, heq⟩ := hf.delivered_eq hpeer
  refine ⟨hle, heq, fun hparse => ?_, hf.delivered_all hpeer⟩
  have hsame : ((Duplex.accepted L st side.peer).take (st side).handled).filterMap
      L.transmitted = ((Duplex.accepted L st side.peer).take (st side).handled).filterMap some :=
    List.filterMap_congr fun p hp => hparse p (List.mem_of_mem_take hp)
  rw [heq, hsame, List.filterMap_some]
  exact List.take_prefix _ _

/-! ## Whole runs -/

section Runs

variable [DecidableEq ReqCode] [DecidableEq ResCode]

/-- **Delivery in order, once.**  From a connection with both message slots registered, along every
    run with the feature off and in both directions: the packets that a side has queued for the
    connection are the first ones that its peer has accepted for it, one for each buffer handled, as
    they parse; if they parse to themselves, nothing is lost, repeated or overtaken; and when nothing
    is under way, all of them are there. -/
theorem duplex_delivers (L : DuplexConfig Packet ReqCode ResCode)
    (nm : Side → CNetworkCommunicator) (announced : Side → SockIndex → Bool)
    (es : List (DuplexEvent Packet)) (st : Duplex Packet) (hoff : ∀ e ∈ es, e.FeatureOff)
    (hrun : run (Duplex.step L) (Duplex.create nm announced) es = some st) (side : Side) :
    (st side).handled ≤ (Duplex.accepted L st side.peer).length ∧
      Duplex.delivered L st side =
        ((Duplex.accepted L st side.peer).take (st side).handled).filterMap L.transmitted ∧
      ((∀ p ∈ Duplex.accepted L st side.peer, L.transmitted p = some p) →
        Duplex.delivered L st side <+: Duplex.accepted L st side.peer) ∧
      (AtRest L st side →
        Duplex.delivered L st side =
          (Duplex.accepted L st side.peer).filterMap L.transmitted) := by
  have hflow := run_flow hoff hrun
  obtain ⟨hle, hdelivered, hfirst, hall⟩ := (hflow side).inOrder (hflow side.peer)
  exact ⟨hle, hdelivered, hfirst, hall⟩

end Runs

namespace SamplePacket

/-- Both programs reach the other under the index 1 and the socket 0. -/
def pair : DuplexConfig SamplePacket Nat Nat where
  traits := traits
  resCodeServerBusy _ := 9
  mapRequestToSlot _ := fun r => r == 5
  mapResponseToSlot _ := fun _ => false
  sock _ := 0

def linked : Duplex SamplePacket :=
  Duplex.create (fun _ => registry) (fun _ i => i == 1)

/-- One round of the sender with the feature off. -/
def plainRound : List (Event SamplePacket) :=
  [.sender .test, .sender .pop, .sender .check, .sender (.write 7)]

/-- The client sends a packet, which arrives in two chunks that cut its header. -/
def oneWay : List (DuplexEvent SamplePacket) :=
  (sendCall 0 1 ⟨0, 3, 0⟩ ++ plainRound).map (.manager .client) ++
    [.arrive .server 3, .arrive .server 4, .complete .server, .complete .server,
      .queue .server 0]

end SamplePacket

open SamplePacket in
theorem duplex_delivers_oneWay :
    ∃ st, run (Duplex.step pair) linked oneWay = some st ∧
      Duplex.delivered pair st .server = [⟨1, 3, 0⟩] ∧
      Duplex.delivered pair st .server =
        ((Duplex.accepted pair st .client).take (st .server).handled).filterMap
          pair.transmitted := by
  obtain ⟨st, hrun, hone⟩ : ∃ st, run (Duplex.step pair) linked oneWay = some st ∧
      Duplex.delivered pair st .server = [⟨1, 3, 0⟩] := ⟨_, rfl, rfl⟩
  have hoff : ∀ e ∈ oneWay, e.FeatureOff := by
    simp [oneWay, sendCall, plainRound, DuplexEvent.FeatureOff, FeatureOff]
  exact ⟨st, hrun, hone, (duplex_delivers pair _ _ oneWay st hoff hrun .server).2.1⟩

end IMonPlatform
