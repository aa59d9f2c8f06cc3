import IMonPlatform.Net.Manager

/-!
# `sendPacket` by index

The overload that takes an index asks the communicator for the socket and tests the answer for null.
`getSocket` never answers null: for a missing index it makes a socket up.  Indices that are not
positive are refused before that.

* `sendPacket` — the call from start to return.
* `sendPacket_refused`, `sendPacket_positive` — what it does.
* `unknown_index_iff` — a call fails exactly for the indices that are not registered if and only if
  the index is registered exactly when it is positive.
-/

set_option autoImplicit false

namespace IMonPlatform

open CNetworkCommunicator CGPBManagerV2 Transition

variable {Packet ReqCode ResCode : Type} [DecidableEq ReqCode] [DecidableEq ResCode]

namespace CGPBManagerV2

/-- The call `c` of `sendPacket( socketIndex, packet, autoAssignMsgID )`: its steps in a row, up to
    the result. -/
def sendPacket (cfg : Config Packet ReqCode ResCode) (m : CGPBManagerV2 Packet) (c : Nat)
    (i : SockIndex) (packet : Packet) (auto : Bool) : Option (Int × CGPBManagerV2 Packet) :=
  match sendStart m c (.index i) packet auto with
  | none => none
  | some m₁ =>
    match m₁.calls c with
    | .done result => some (result, m₁)
    | _ =>
      match run (step cfg) m₁ [.send c .assign, .send c .push, .send c .ret] with
      | none => none
      | some m₂ =>
        match m₂.calls c with
        | .done result => some (result, m₂)
        | _ => none

/-- The packet that is queued: with an id of its own, or as it is. -/
def assigned (cfg : Config Packet ReqCode ResCode) (m : CGPBManagerV2 Packet) (packet : Packet)
    (auto : Bool) : Packet :=
  if auto then cfg.traits.set_msgid packet (interlockedIncrement m.globalMessageID) else packet

/-- A call fails cleanly for an index that is not registered, and queues one copy of the packet for
    the socket of one that is. -/
def SendsCleanly (cfg : Config Packet ReqCode ResCode) (m : CGPBManagerV2 Packet) (c : Nat)
    (i : SockIndex) (packet : Packet) (auto : Bool) : Prop :=
  ∃ result m', sendPacket cfg m c i packet auto = some (result, m') ∧
    (i ∉ m.networkManager.mapIndexToSocket → result < 0 ∧ m'.outgoingQueue = m.outgoingQueue) ∧
    ∀ s, m.networkManager.mapIndexToSocket.lookup i = some s →
      m'.outgoingQueue = m.outgoingQueue ++ [(s, assigned cfg m packet auto)] ∧
      result = cfg.traits.msgid (assigned cfg m packet auto)

end CGPBManagerV2

variable {cfg : Config Packet ReqCode ResCode} {m : CGPBManagerV2 Packet} {c : Nat}

/-- An index that is not positive is refused. -/
theorem sendPacket_refused (hidle : m.calls c = .idle) {i : SockIndex} (hi : i ≤ 0)
    (packet : Packet) (auto : Bool) :
    sendPacket cfg m c i packet auto = some (-1, m.setCall c (.done (-1))) := by
  simp [sendPacket, sendStart, hidle, hi]

/-- Any other one is taken, with the socket that `getSocket` gives. -/
theorem sendPacket_positive (cfg : Config Packet ReqCode ResCode) (hidle : m.calls c = .idle)
    {i : SockIndex} (hi : 0 < i) (packet : Packet) (auto : Bool) :
    ∃ m', sendPacket cfg m c i packet auto =
        some (cfg.traits.msgid (assigned cfg m packet auto), m') ∧
      m'.outgoingQueue = m.outgoingQueue ++
        [((m.networkManager.getSocket i).1, assigned cfg m packet auto)] := by
  have hpos : ¬ i ≤ 0 := Int.not_le.mpr hi
  cases auto with
  | true =>
    simp [sendPacket, sendStart, hidle, hpos, run, CGPBManagerV2.step, sendStep, sendAssign,
      sendPush, sendReturn, assigned]
  | false =>
    simp [sendPacket, sendStart, hidle, hpos, run, CGPBManagerV2.step, sendStep, sendAssign,
      sendPush, sendReturn, assigned]

/-- **When sending to an index fails cleanly**: exactly if the index is registered or not positive,
    and not both. -/
theorem unknown_index_iff (cfg : Config Packet ReqCode ResCode) (m : CGPBManagerV2 Packet) (c : Nat)
    (hidle : m.calls c = .idle) (i : SockIndex) (packet : Packet) (auto : Bool) :
    SendsCleanly cfg m c i packet auto ↔ (i ∈ m.networkManager.mapIndexToSocket ↔ 0 < i) := by
  have hgrown : ∀ (q : List (Sock × Packet)) (e : Sock × Packet), q ++ [e] ≠ q := by
    intro q e h
    have := congrArg List.length h
    simp at this
  unfold SendsCleanly
  rcases Int.lt_or_le 0 i with hi | hi
  · obtain ⟨m', hsend, hqueue⟩ := sendPacket_positive cfg hidle hi packet auto
    simp only [hsend, iff_true_intro hi, iff_true]
    constructor
    · rintro ⟨result, m'', hsame, hunknown, _⟩
      cases hsame
      by_contra hmem
      rw [hqueue] at hunknown
      exact hgrown _ _ (hunknown hmem).2
    · intro hmem
      refine ⟨_, m', rfl, fun hno => absurd hmem hno, fun s hs => ⟨?_, rfl⟩⟩
      rw [hqueue, CNetworkCommunicator.getSocket, hs]
  · have hneg : ¬ 0 < i := Int.not_lt.mpr hi
    simp only [sendPacket_refused hidle hi packet auto, hneg, iff_false]
    constructor
    · rintro ⟨result, m', hsame, _, hknown⟩ hmem
      cases hsame
      obtain ⟨s, hs⟩ := exists_lookup_of_mem hmem
      exact hgrown _ _ (hknown s hs).1.symm
    · intro hno
      refine ⟨-1, _, rfl, fun _ => ⟨by decide, rfl⟩, fun s hs => ?_⟩
      exact absurd (mem_of_lookup hs) hno

open SamplePacket

/-- A packet for a registered socket. -/
theorem known_index_sends : SendsCleanly config (manager false) 0 2 ⟨0, 5, 0⟩ true :=
  (unknown_index_iff config (manager false) 0 rfl 2 ⟨0, 5, 0⟩ true).mpr (by decide)

/-- Index 7 belongs to no connection: the packet is queued for socket 2, which was just made up, and
    the call returns an id. -/
theorem unknown_index_queued :
    (∃ m', sendPacket config (manager false) 0 7 ⟨0, 5, 0⟩ true = some (1, m') ∧
      m'.outgoingQueue = [(2, ⟨1, 5, 0⟩)]) ∧
    ¬ SendsCleanly config (manager false) 0 7 ⟨0, 5, 0⟩ true := by
  refine ⟨⟨_, rfl, rfl⟩, ?_⟩
  rintro ⟨result, m', hsend, hunknown, _⟩
  cases hsend
  exact absurd (hunknown (by decide)).1 (by decide)

end IMonPlatform
