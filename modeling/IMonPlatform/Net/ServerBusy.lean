import IMonPlatform.Lib.RequestLedger
import IMonPlatform.Net.BusySender

/-!
# Where accepted packets are

With the SERVER_BUSY feature on, a packet accepted by `sendPacket` should be in exactly one place:
waiting in `_outgoingQueue`, in the sender's hand, recorded in `_mapSocketToSendedPacket` as
written and unanswered, or answered.  The code loses it when the second busy test finds the flag
set after the pop, and misplaces it when a reply is treated by a flag that is not its own or is
handled while the sender still has the request in hand.

* `ledgerOf` — the manager seen as a ledger of outstanding requests.
* `step_simulates` — away from these situations, a step of the manager is a move of the ledger or
  does not concern it.
* `accepted_packet_in_one_place` — along every run on connections that stay up whose steps avoid
  these situations, every accepted packet is in exactly one place in every state reached.
-/

set_option autoImplicit false

namespace IMonPlatform

open Framing CGPBManagerV2 CNetworkCommunicator Transition RequestLedger

variable {Packet ReqCode ResCode : Type}

/-! ## The manager as a ledger -/

/-- Socket and message id, by which a request is recorded. -/
def key (cfg : Config Packet ReqCode ResCode) (e : Sock × Packet) : Sock × Int :=
  (e.1, cfg.traits.msgid e.2)

def handOf : SenderPc Packet → Hand (Sock × Packet)
  | .loop | .pop => .empty
  | .popped e | .index e | .record e _ => .taken e
  | .write e _ => .recorded e

/-- The records of sent packets by socket, given the index of each socket. -/
def recordsOf (idx : Sock → SockIndex) (sended : SockIndex → Option (Int → Option Packet))
    (k : Sock × Int) : Option (Sock × Packet) :=
  if 0 < idx k.1 then ((sended (idx k.1)).bind (· k.2)).map (Prod.mk k.1) else none

/-- The ledger of a manager, given the index of each socket. -/
def ledgerOf (idx : Sock → SockIndex) (m : CGPBManagerV2 Packet) :
    Ledger (Sock × Packet) (Sock × Int) where
  waiting := m.outgoingQueue
  hand := handOf m.sender
  records := recordsOf idx m.mapSocketToSendedPacket
  answered := m.log.answered
  accepted := m.log.enqueued.map Prod.snd

/-- The property: every accepted packet is in exactly one place. -/
def Accounted [DecidableEq Packet] (cfg : Config Packet ReqCode ResCode)
    (m : CGPBManagerV2 Packet) : Prop :=
  ∀ x ∈ m.log.enqueued, (ledgerOf m.networkManager.getSocketIndex m).places (key cfg) x.2 = 1

/-! ## Conditions on the steps -/

/-- The connection has an index and has been announced. -/
def Up (idx : Sock → SockIndex) (m : CGPBManagerV2 Packet) (s : Sock) : Prop :=
  0 < idx s ∧ (m.mapSocketToSendedPacket (idx s)).isSome

/-- The setting: the feature stays on, connections stay up, and `sendPacket` is used on such
    connections with message ids that differ for each socket. -/
def Settled (cfg : Config Packet ReqCode ResCode) (m : CGPBManagerV2 Packet) :
    Event Packet → Prop
  | .send c .push => ∀ s p, m.calls c = .push s p →
      Up m.networkManager.getSocketIndex m s ∧
        key cfg (s, p) ∉ (m.log.enqueued.map Prod.snd).map (key cfg)
  | .sender .writeError => False
  | .disconnect i => i ∉ m.networkManager.mapIndexToSocket
  | .setIsUseServerBusyWaiting b => b = true
  | _ => True

/-- The condition: the second busy test finds the flag cleared, and the locked section for a
    recorded request finds the flag as its own packet set it and the sender done with the
    request. -/
def Undisturbed [DecidableEq ResCode] (cfg : Config Packet ReqCode ResCode)
    (m : CGPBManagerV2 Packet) : Event Packet → Prop
  | .sender .check => m.isBusy = false
  | .recv n .locked => ∀ s p i q, m.handlers n = .locked s p i →
      m.sended i (cfg.traits.msgid p) = some q →
        m.isBusy = isBusyReply cfg p ∧ (s, q) ∉ m.inHand
  | _ => True

/-! ## Records under an index -/

variable {cfg : Config Packet ReqCode ResCode} {m m' : CGPBManagerV2 Packet}
  {idx : Sock → SockIndex}

/-- Different sockets have different indices. -/
theorem getSocketIndex_inj (c : CNetworkCommunicator) {s t : Sock} (hs : 0 < c.getSocketIndex s)
    (h : c.getSocketIndex s = c.getSocketIndex t) : s = t := by
  have h1 := getSocketIndex_pos hs
  have h2 : c.mapIndexToSocket.lookup (c.getSocketIndex t) = some t := getSocketIndex_pos (h ▸ hs)
  rw [h, h2] at h1
  exact (Option.some.inj h1).symm

theorem getSocketIndex_congr {c c' : CNetworkCommunicator}
    (h : c'.mapIndexToSocket = c.mapIndexToSocket) : c'.getSocketIndex = c.getSocketIndex := by
  funext s
  unfold getSocketIndex
  rw [h]

theorem recordsOf_eq {s : Sock} (hs : 0 < idx s) (id : Int) :
    recordsOf idx m.mapSocketToSendedPacket (s, id) = (m.sended (idx s) id).map (Prod.mk s) := by
  unfold recordsOf sended
  rw [if_pos hs]

/-- Changing one entry under a socket's index changes one record. -/
theorem recordsOf_update (hinj : ∀ s t, 0 < idx s → idx s = idx t → s = t) {s : Sock}
    (hs : 0 < idx s) {f : Int → Option Packet} (hf : m.mapSocketToSendedPacket (idx s) = some f)
    (id : Int) (v : Option Packet) :
    recordsOf idx (Function.update m.mapSocketToSendedPacket (idx s)
        (some (Function.update f id v))) =
      Function.update (recordsOf idx m.mapSocketToSendedPacket) (s, id) (v.map (Prod.mk s)) := by
  funext ⟨t, n⟩
  unfold recordsOf
  by_cases ht : t = s
  · subst ht
    simp only [if_pos hs, Function.update_self]
    by_cases hn : n = id
    · subst hn
      simp
    · have hk : (t, n) ≠ (t, id) := by simpa using hn
      rw [Function.update_of_ne hk]
      simp [hf, hs, Function.update_of_ne hn]
  · have hk : (t, n) ≠ (s, id) := by simp [ht]
    rw [Function.update_of_ne hk]
    by_cases hpos : 0 < idx t
    · have hne : idx t ≠ idx s := fun heq => ht (hinj t s hpos heq)
      simp [hpos, Function.update_of_ne hne]
    · simp [hpos]

theorem handOf_toList (m : CGPBManagerV2 Packet) : (handOf m.sender).toList = m.inHand := by
  unfold handOf inHand
  cases m.sender <;> rfl

/-! ## Simulation -/

/-- What ties the manager's data to the ledger while connections stay up. -/
structure Link (idx : Sock → SockIndex) (m : CGPBManagerV2 Packet) : Prop where
  use : m.isUseWaitingWhenServerBusy = true
  index : m.networkManager.getSocketIndex = idx
  up : ∀ x ∈ m.log.enqueued, Up idx m x.2.1
  record : ∀ e i, m.sender = .record e i → i = idx e.1
  pending : ∀ n s p i, m.handlers n = .store s p i ∨ m.handlers n = .locked s p i →
    0 < i ∧ i = idx s

/-- A step that leaves the ledger and its links alone. -/
theorem Link.congr (hL : Link idx m) (huse : m'.isUseWaitingWhenServerBusy = true)
    (hmap : m'.networkManager.mapIndexToSocket = m.networkManager.mapIndexToSocket)
    (hlog : m'.log.enqueued = m.log.enqueued)
    (hsend : m'.mapSocketToSendedPacket = m.mapSocketToSendedPacket)
    (hpc : ∀ e i, m'.sender = .record e i → i = idx e.1) (hh : m'.handlers = m.handlers) :
    Link idx m' := by
  refine ⟨huse, (getSocketIndex_congr hmap).trans hL.index, ?_, hpc, ?_⟩
  · unfold Up
    rw [hlog, hsend]
    exact hL.up
  · rw [hh]
    exact hL.pending

theorem Link.setHandler (hL : Link idx m) (n : Nat) {pc : HandlerPc Packet}
    (hpc : ∀ s p i, pc = .store s p i ∨ pc = .locked s p i → 0 < i ∧ i = idx s) :
    Link idx (m.setHandler n pc) := by
  refine ⟨hL.use, hL.index, hL.up, hL.record, fun k s p i hk => ?_⟩
  by_cases hkn : k = n
  · subst hkn
    exact hpc s p i (by simpa using hk)
  · simp only [CGPBManagerV2.setHandler, Function.update_of_ne hkn] at hk
    exact hL.pending k s p i hk

/-- A map of sent packets is replaced, not removed. -/
theorem Link.setSended (hL : Link idx m) (i : SockIndex) (f : Int → Option Packet) :
    Link idx (m.setSended i (some f)) := by
  refine ⟨hL.use, hL.index, fun x hx => ?_, hL.record, hL.pending⟩
  obtain ⟨hx1, hx2⟩ := hL.up x hx
  refine ⟨hx1, ?_⟩
  by_cases hxi : idx x.2.1 = i
  · simp [hxi]
  · simpa [Function.update_of_ne hxi] using hx2

/-- What a step does to the ledger: nothing, or a move. -/
def Simulated (cfg : Config Packet ReqCode ResCode) (idx : Sock → SockIndex)
    (m m' : CGPBManagerV2 Packet) : Prop :=
  Link idx m' ∧ (ledgerOf idx m' = ledgerOf idx m ∨
    Move (key cfg) (ledgerOf idx m) (ledgerOf idx m'))

theorem sendPush_simulates {c : Nat} (hL : Link idx m) (hset : Settled cfg m (.send c .push))
    (h : sendPush m c = some m') : Simulated cfg idx m m' := by
  obtain ⟨s, p, hcall, rfl⟩ := sendPush_cases h
  obtain ⟨hup, hfresh⟩ := hset s p hcall
  rw [hL.index] at hup
  refine ⟨⟨hL.use, hL.index, ?_, hL.record, hL.pending⟩, .inr ?_⟩
  · intro x hx
    rcases List.mem_append.mp hx with hx | hx
    · exact hL.up x hx
    · rw [List.mem_singleton.mp hx]
      exact hup
  · have hmove := Move.accept (L := ledgerOf idx m) hfresh
    simpa [ledgerOf] using hmove

theorem senderPop_simulates (hL : Link idx m) (h : senderPop cfg m = some m') :
    Simulated cfg idx m m' := by
  obtain ⟨e, rest, hpc, hq, rfl⟩ := senderPop_cases h
  refine ⟨hL.congr hL.use rfl rfl rfl nofun rfl, .inr ?_⟩
  exact Move.take (L := ledgerOf idx m) hq (by simp [ledgerOf, handOf, hpc])

/-- A move of the sender within the loop body that the ledger does not see. -/
theorem sender_stutters {pc : SenderPc Packet} (hL : Link idx m)
    (hhand : handOf pc = handOf m.sender) (hpc : ∀ e i, pc = .record e i → i = idx e.1) :
    Simulated cfg idx m { m with sender := pc } := by
  refine ⟨hL.congr hL.use rfl rfl rfl hpc rfl, .inl ?_⟩
  simp [ledgerOf, hhand]

theorem senderWrite_simulates {k : Nat} (hL : Link idx m) (h : senderWrite m k = some m') :
    Simulated cfg idx m m' := by
  obtain ⟨e, n, hpc, _, _, ⟨_, rfl⟩ | ⟨_, rfl⟩⟩ := senderWrite_cases h
  · refine ⟨hL.congr hL.use rfl rfl rfl nofun rfl, .inr ?_⟩
    exact Move.finish (L := ledgerOf idx m) (e := e) (by simp [ledgerOf, handOf, hpc])
  · refine ⟨hL.congr hL.use rfl rfl rfl nofun rfl, .inl ?_⟩
    simp [ledgerOf, handOf, hpc]

/-- A move of a receiving call that does not touch the record. -/
theorem recv_stutters {n : Nat} {pc : HandlerPc Packet} (hL : Link idx m)
    (hpc : ∀ s p i, pc = .store s p i ∨ pc = .locked s p i → 0 < i ∧ i = idx s) :
    Simulated cfg idx m (m.setHandler n pc) :=
  ⟨hL.setHandler n hpc, .inl rfl⟩

section Balanced

variable [DecidableEq Packet]

/-- The packet in hand has been accepted, so its connection is up. -/
theorem up_of_inHand (hL : Link idx m) (hB : Balanced (key cfg) (ledgerOf idx m))
    {e : Sock × Packet} (he : e ∈ m.inHand) : Up idx m e.1 := by
  have hacc : e ∈ (ledgerOf idx m).accepted :=
    hB.accepted_of_hand (by simpa [ledgerOf, handOf_toList] using he)
  obtain ⟨x, hx, rfl⟩ := List.mem_map.mp hacc
  exact hL.up x hx

theorem senderIndex_simulates (hL : Link idx m) (hB : Balanced (key cfg) (ledgerOf idx m))
    (h : senderIndex m = some m') : Simulated cfg idx m m' := by
  obtain ⟨e, hpc, ⟨_, rfl⟩ | ⟨hneg, rfl⟩⟩ := senderIndex_cases h
  · apply sender_stutters hL
    · simp [handOf, hpc]
    · rintro e' i ⟨⟩
      rw [hL.index]
  · -- the connection of the packet in hand is up, so it has an index
    obtain ⟨hpos, _⟩ := up_of_inHand hL hB (e := e) (by simp [inHand, hpc])
    rw [hL.index] at hneg
    exact absurd hpos (Int.not_lt.mpr hneg)

theorem senderRecord_simulates (hinj : ∀ s t, 0 < idx s → idx s = idx t → s = t)
    (hL : Link idx m) (hB : Balanced (key cfg) (ledgerOf idx m))
    (h : senderRecord cfg m = some m') : Simulated cfg idx m m' := by
  obtain ⟨e, i, hpc, hcases⟩ := senderRecord_cases h
  obtain rfl := hL.record e i hpc
  obtain ⟨hpos, hann⟩ := up_of_inHand hL hB (e := e) (by simp [inHand, hpc])
  rcases hcases with ⟨f, hf, rfl⟩ | ⟨hnone, rfl⟩
  · have hfree : f (cfg.traits.msgid e.2) = none := by
      have := hB.taken e (by simp [ledgerOf, handOf, hpc])
      have hrec : recordsOf idx m.mapSocketToSendedPacket (e.1, cfg.traits.msgid e.2) = none :=
        this
      rw [recordsOf_eq hpos] at hrec
      simpa [sended, hf] using hrec
    have hins : insertNew f (cfg.traits.msgid e.2) e.2 =
        Function.update f (cfg.traits.msgid e.2) (some e.2) := by
      unfold insertNew
      rw [hfree]
    have hrecs := recordsOf_update hinj hpos hf (cfg.traits.msgid e.2) (some e.2)
    constructor
    · obtain ⟨h1, h2, h3, _, h5⟩ := hL.setSended (idx e.1) (insertNew f _ e.2)
      exact ⟨h1, h2, h3, nofun, h5⟩
    · right
      have hmove : Move (key cfg) (ledgerOf idx m) _ :=
        Move.record (e := e) (by simp [ledgerOf, handOf, hpc])
      simp only [ledgerOf, setSended, hins, hrecs]
      exact hmove
  · rw [hnone] at hann
    cases hann

theorem recvLocked_simulates [DecidableEq ResCode]
    (hinj : ∀ s t, 0 < idx s → idx s = idx t → s = t) {n : Nat} (hL : Link idx m)
    (hB : Balanced (key cfg) (ledgerOf idx m)) (hund : Undisturbed cfg m (.recv n .locked))
    (h : recvLocked cfg m n = some m') : Simulated cfg idx m m' := by
  obtain ⟨s, p, i, hl, ⟨_, rfl⟩ | ⟨f, hf, ⟨_, rfl⟩ | ⟨q, hq, rfl⟩⟩⟩ := recvLocked_cases h
  · exact recv_stutters hL (by simp)
  · exact recv_stutters hL (by simp)
  · obtain ⟨hpos, rfl⟩ := hL.pending n s p i (.inr hl)
    obtain ⟨hflag, hhand⟩ := hund s p (idx s) q hl (by simp [sended, hf, hq])
    have hrec : (ledgerOf idx m).records (s, cfg.traits.msgid p) = some (s, q) := by
      simp [ledgerOf, recordsOf_eq hpos, sended, hf, hq]
    have hkey : key cfg (s, q) = (s, cfg.traits.msgid p) := hB.record_key _ _ hrec
    rw [← hkey] at hrec
    have hout : (s, q) ∉ (ledgerOf idx m).hand.toList := by
      simpa [ledgerOf, handOf_toList] using hhand
    have hrecs := recordsOf_update hinj hpos hf (cfg.traits.msgid p) none
    rw [← hkey] at hrecs
    unfold noteAnswer
    cases hb : isBusyReply cfg p with
    | true =>
      rw [hb] at hflag
      refine ⟨?_, .inr ?_⟩
      · simp only [hflag, if_true]
        have hL₁ : Link idx (m.requeue n (s, q)) :=
          ⟨hL.use, hL.index, hL.up, hL.record, hL.pending⟩
        exact (hL₁.setSended _ _).setHandler n (by simp)
      · have hmove := Move.refuse hrec hout
        simp only [hflag, if_true, ledgerOf, setHandler, setSended, requeue, hrecs]
        exact hmove
    | false =>
      rw [hb] at hflag
      refine ⟨?_, .inr ?_⟩
      · simp only [hflag, Bool.false_eq_true, if_false]
        obtain ⟨h1, h2, h3, h4, h5⟩ := hL.setSended (idx s)
          (Function.update f (cfg.traits.msgid p) none)
        refine Link.setHandler ?_ n (by simp)
        exact ⟨h1, h2, h3, h4, h5⟩
      · have hmove := Move.answer hrec hout
        simp only [hflag, Bool.false_eq_true, if_false, ledgerOf, setHandler, setSended,
          pushIncoming, hrecs]
        exact hmove

theorem recvStep_simulates [DecidableEq ResCode]
    (hinj : ∀ s t, 0 < idx s → idx s = idx t → s = t) {n : Nat} {a : RecvAct} (hL : Link idx m)
    (hB : Balanced (key cfg) (ledgerOf idx m)) (hund : Undisturbed cfg m (.recv n a))
    (h : recvStep cfg m n a = some m') : Simulated cfg idx m m' := by
  cases a with
  | start s buffer =>
    obtain ⟨_, ⟨_, rfl⟩ | ⟨p, _, ⟨_, _, rfl⟩ | ⟨_, hpos, rfl⟩ | ⟨hoff, rfl⟩⟩⟩ := recvStart_cases h
    · exact recv_stutters hL (by simp)
    · exact recv_stutters hL (by simp)
    · rw [hL.index] at hpos ⊢
      refine recv_stutters hL ?_
      rintro s' p' i (hpc | hpc) <;> cases hpc
      exact ⟨hpos, rfl⟩
    · rw [hL.use] at hoff
      cases hoff
  | store =>
    obtain ⟨s, p, i, hst, rfl⟩ := recvStore_cases h
    have hL₁ : Link idx { m with isBusy := isBusyReply cfg p } :=
      ⟨hL.use, hL.index, hL.up, hL.record, hL.pending⟩
    refine ⟨hL₁.setHandler n ?_, .inl rfl⟩
    rintro s' p' i' (hpc | hpc) <;> cases hpc
    exact hL.pending n s p i (.inl hst)
  | locked => exact recvLocked_simulates hinj hL hB hund h

theorem senderStep_simulates [DecidableEq ResCode]
    (hinj : ∀ s t, 0 < idx s → idx s = idx t → s = t) {a : SenderAct} (hL : Link idx m)
    (hB : Balanced (key cfg) (ledgerOf idx m)) (hset : Settled cfg m (.sender a))
    (hund : Undisturbed cfg m (.sender a)) (h : senderStep cfg m a = some m') :
    Simulated cfg idx m m' := by
  cases a with
  | test =>
    obtain ⟨hpc, ⟨_, _, rfl⟩ | ⟨_, rfl⟩⟩ := senderTest_cases h
    · exact ⟨hL, .inl rfl⟩
    · exact sender_stutters hL (by simp [handOf, hpc]) nofun
  | pop => exact senderPop_simulates hL h
  | check =>
    obtain ⟨x, hpc, ⟨_, hbusy, rfl⟩ | ⟨_, _, rfl⟩ | ⟨hoff, rfl⟩⟩ := senderCheck_cases h
    · have hclear : m.isBusy = false := hund
      rw [hclear] at hbusy
      cases hbusy
    · exact sender_stutters hL (by simp [handOf, hpc]) nofun
    · rw [hL.use] at hoff
      cases hoff
  | index => exact senderIndex_simulates hL hB h
  | record => exact senderRecord_simulates hinj hL hB h
  | write k => exact senderWrite_simulates hL h
  | writeError => exact absurd hset id

end Balanced

/-! ## Whole runs -/

/-- A step that neither the ledger nor its links see. -/
theorem step_stutters (hL : Link idx m) (huse : m'.isUseWaitingWhenServerBusy = true)
    (hmap : m'.networkManager.mapIndexToSocket = m.networkManager.mapIndexToSocket)
    (hsame : ledgerOf idx m' = ledgerOf idx m) (hlog : m'.log.enqueued = m.log.enqueued)
    (hsend : m'.mapSocketToSendedPacket = m.mapSocketToSendedPacket)
    (hpc : m'.sender = m.sender) (hh : m'.handlers = m.handlers) : Simulated cfg idx m m' :=
  ⟨hL.congr huse hmap hlog hsend (fun e i he => hL.record e i (hpc ▸ he)) hh, .inl hsame⟩

section Runs

variable [DecidableEq Packet] [DecidableEq ReqCode] [DecidableEq ResCode]

/-- **Simulation**: under the conditions, a step of the manager is a move of the ledger or does
    not concern it. -/
theorem step_simulates (hinj : ∀ s t, 0 < idx s → idx s = idx t → s = t) {e : Event Packet}
    (hL : Link idx m) (hB : Balanced (key cfg) (ledgerOf idx m)) (hset : Settled cfg m e)
    (hund : Undisturbed cfg m e) (h : step cfg m e = some m') : Simulated cfg idx m m' := by
  cases e with
  | send c a =>
    cases a with
    | start target packet auto =>
      obtain ⟨nm, pc, _, hmap, rfl, _⟩ := sendStart_cases h
      exact step_stutters hL hL.use hmap rfl rfl rfl rfl rfl
    | assign =>
      obtain ⟨s, p, auto, id, p', _, rfl⟩ := sendAssign_cases h
      exact step_stutters hL hL.use rfl rfl rfl rfl rfl rfl
    | push => exact sendPush_simulates hL hset h
    | ret =>
      obtain ⟨p, _, rfl⟩ := sendReturn_cases h
      exact step_stutters hL hL.use rfl rfl rfl rfl rfl rfl
  | sender a => exact senderStep_simulates hinj hL hB hset hund h
  | recv n a => exact recvStep_simulates hinj hL hB hund h
  | dispatch d a =>
    have hf := dispatchStep_frame h
    refine step_stutters hL (hf.use.trans hL.use) (by rw [hf.network]) ?_ hf.enqueued hf.sended
      hf.sender hf.handlers
    simp only [ledgerOf, hf.outgoing, hf.sender, hf.sended, hf.answered, hf.enqueued]
  | receivePacket i id =>
    cases h
    rcases receivePacket_cases m i id with heq | ⟨f, v, _, _, heq⟩ <;> rw [heq] <;>
      exact step_stutters hL hL.use rfl rfl rfl rfl rfl rfl
  | disconnect i =>
    cases h
    rw [disconnect, if_neg hset]
    exact step_stutters hL hL.use rfl rfl rfl rfl rfl rfl
  | setIsUseServerBusyWaiting b =>
    cases h
    exact step_stutters hL hset rfl rfl rfl rfl rfl rfl

/-- **No packet is lost while nothing disturbs the sender and the replies.**  From a manager with
    the feature on, along every interleaving on connections that stay up in which the sender's
    second test finds the flag cleared, and every reply to a recorded request finds the flag as it
    set it and the sender done with the request, every accepted packet is in exactly one place in
    every state reached. -/
theorem accepted_packet_in_one_place (cfg : Config Packet ReqCode ResCode)
    (nm : CNetworkCommunicator) (announced : SockIndex → Bool) (es : List (Event Packet))
    (hmeets : Meets (step cfg) (fun m e => Settled cfg m e ∧ Undisturbed cfg m e)
      (create nm announced true) es) :
    Always (step cfg) (Accounted cfg) (create nm announced true) es := by
  have hinj : ∀ s t, 0 < nm.getSocketIndex s → nm.getSocketIndex s = nm.getSocketIndex t →
      s = t := fun s t hs hst => getSocketIndex_inj nm hs hst
  refine always_of_meets (I := fun m => Link nm.getSocketIndex m ∧
    Balanced (key cfg) (ledgerOf nm.getSocketIndex m)) ?_ ?_ es _ ?_ hmeets
  · rintro m ⟨hL, hB⟩ x hx
    rw [hL.index]
    exact hB.places_eq_one (List.mem_map_of_mem hx)
  · rintro m e m' ⟨hL, hB⟩ ⟨hset, hund⟩ h
    obtain ⟨hL', heq | hmove⟩ := step_simulates hinj hL hB hset hund h
    · exact ⟨hL', heq ▸ hB⟩
    · exact ⟨hL', hmove.balanced hB⟩
  · have hempty : ∀ k, (ledgerOf nm.getSocketIndex
        (create nm announced true : CGPBManagerV2 Packet)).records k = none := by
      intro k
      unfold ledgerOf recordsOf create
      cases announced (nm.getSocketIndex k.1) <;> simp
    refine ⟨⟨rfl, rfl, nofun, nofun, nofun⟩, ⟨fun e => ?_, List.nodup_nil, fun k q hk => ?_, nofun,
      nofun⟩⟩
    · simp only [Ledger.places, hempty]
      simp [ledgerOf, create, handOf, Hand.toList]
    · rw [hempty] at hk
      cases hk

end Runs

open SamplePacket in
/-- One request, sent and answered: the conditions are met at every step. -/
theorem accepted_packet_in_one_place_answered :
    Always (step config) (Accounted config) (manager true)
      (sendCall 0 1 ⟨0, 3, 0⟩ ++ senderRound ++ recvCall 0 0 (frame [1, 0, 2])) := by
  apply accepted_packet_in_one_place
  refine meets_cons rfl ⟨trivial, trivial⟩ (meets_cons rfl ⟨trivial, trivial⟩
    (meets_cons rfl ⟨?_, trivial⟩ (meets_cons rfl ⟨trivial, trivial⟩
    (meets_cons rfl ⟨trivial, trivial⟩ (meets_cons rfl ⟨trivial, trivial⟩
    (meets_cons rfl ⟨trivial, rfl⟩ (meets_cons rfl ⟨trivial, trivial⟩
    (meets_cons rfl ⟨trivial, trivial⟩ (meets_cons rfl ⟨trivial, trivial⟩
    (meets_cons rfl ⟨trivial, trivial⟩ (meets_cons rfl ⟨trivial, trivial⟩
    (meets_cons rfl ⟨trivial, ?_⟩ trivial))))))))))))
  · rintro s p ⟨⟩
    exact ⟨⟨by decide, rfl⟩, by decide⟩
  · rintro s p i q ⟨⟩ ⟨⟩
    exact ⟨rfl, by decide⟩

open SamplePacket in
/-- The sender waits in the pop when the busy reply to its last request sets the flag and puts the
    request back: the sender takes it, finds the flag set and drops it. -/
theorem popped_packet_dropped :
    ∃ m, run (step config) (manager true)
        (sendCall 0 1 ⟨0, 3, 0⟩ ++ senderRound ++ [.sender .test] ++
          recvCall 0 0 (frame [1, 0, 9]) ++ [.sender .pop, .sender .check]) = some m ∧
      m.log.enqueued = [(0, 0, ⟨1, 3, 0⟩)] ∧ ¬ Accounted config m := by
  refine ⟨_, rfl, rfl, fun h => ?_⟩
  have hone := h (0, 0, ⟨1, 3, 0⟩) (List.mem_singleton_self _)
  exact absurd hone (by decide)

end IMonPlatform
