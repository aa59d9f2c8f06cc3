import IMonPlatform.Lib.TaggedLog
import IMonPlatform.Net.ManagerSteps

/-!
# What becomes of a received packet

`queuePacketFromDataBuffer` stores into `_isBusy` whether the packet in hand is the busy reply,
and reads the flag again in its locked section to decide what to do.  The flag is shared by all
sockets, so between the two another call may have replaced it.

* `step_receives` — the effect of any step on the calls and on what they have pushed.
* `run_outcome` — a call that found a record has pushed exactly one packet: the request back to
  `_outgoingQueue`, or the reply to `_incomingQueue`.
* `reply_treated_by_own_code_iff` — every reply is treated by its own code along a run exactly
  when every locked section that finds a record also finds the flag as its own packet set it.
* `nonbusy_packet_delivered_iff` — every packet other than the busy reply is delivered along a run
  exactly when the index found for its registered socket is positive, and every locked section with
  such a packet finds a record and a cleared flag.
-/

set_option autoImplicit false

namespace IMonPlatform

open Framing CGPBManagerV2 Transition TaggedLog

variable {Packet ReqCode ResCode : Type} {cfg : Config Packet ReqCode ResCode}
  {m m' : CGPBManagerV2 Packet}

namespace CGPBManagerV2

/-- Requests that call `h` pushed back to `_outgoingQueue`. -/
def requeuedBy (m : CGPBManagerV2 Packet) (h : Nat) : List (Sock × Packet) :=
  entriesOf m.log.requeued h

/-- Packets that call `h` pushed to `_incomingQueue`. -/
def deliveredBy (m : CGPBManagerV2 Packet) (h : Nat) : List (Sock × Packet) :=
  entriesOf m.log.delivered h

end CGPBManagerV2

/-! ## One step -/

/-- A pc of a call that has pushed nothing. -/
def HandlerPc.Quiet : HandlerPc Packet → Prop
  | .passed _ _ => False
  | .finished _ _ (some _) => False
  | _ => True

/-- A pc of a call before its locked section, or of one whose bytes did not parse. -/
def HandlerPc.Early : HandlerPc Packet → Prop
  | .store _ _ _ | .locked _ _ _ | .unparsed => True
  | _ => False

/-- The calls of `queuePacketFromDataBuffer` and what they pushed are as before. -/
def SameReceives (m m' : CGPBManagerV2 Packet) : Prop :=
  m'.handlers = m.handlers ∧ m'.log.requeued = m.log.requeued ∧
    m'.log.delivered = m.log.delivered

/-- Call `n` goes to `pc` and pushes back `req` and delivers `del`. -/
structure Acts (m m' : CGPBManagerV2 Packet) (n : Nat) (pc : HandlerPc Packet)
    (req del : List (Sock × Packet)) : Prop where
  quiet : (m.handlers n).Quiet
  handlers : m'.handlers = Function.update m.handlers n pc
  requeued : m'.log.requeued = m.log.requeued ++ req.map (Prod.mk n)
  delivered : m'.log.delivered = m.log.delivered ++ del.map (Prod.mk n)

/-- A call that goes on without pushing. -/
theorem acts_setHandler {n : Nat} (hq : (m.handlers n).Quiet) (pc : HandlerPc Packet) :
    Acts m (m.setHandler n pc) n pc [] [] :=
  ⟨hq, rfl, by simp, by simp⟩

/-- A call that begins with a packet and the feature on finds a positive index. -/
def FindsIndex (cfg : Config Packet ReqCode ResCode) (m : CGPBManagerV2 Packet)
    (e : Event Packet) : Prop :=
  ∀ n s buffer p, e = .recv n (.start s buffer) →
    cfg.traits.ParseFromArray (parseRegion buffer) = some p →
    m.isUseWaitingWhenServerBusy = true → 0 < m.networkManager.getSocketIndex s

/-- What a call may do in one step: go on; deliver because the feature is off; return because the
    index is not positive; find no record; or find one and act on the flag. -/
inductive Effect (cfg : Config Packet ReqCode ResCode) (m : CGPBManagerV2 Packet) :
    Event Packet → Nat → HandlerPc Packet → List (Sock × Packet) → List (Sock × Packet) → Prop
  | early {e n pc} (he : ∀ k, e ≠ .recv k .locked) (hindex : FindsIndex cfg m e) (hpc : pc.Early) :
      Effect cfg m e n pc [] []
  | passed {e n s p} (he : ∀ k, e ≠ .recv k .locked) (hindex : FindsIndex cfg m e) :
      Effect cfg m e n (.passed s p) [] [(s, p)]
  | ignored {n s p buffer} (hp : cfg.traits.ParseFromArray (parseRegion buffer) = some p)
      (huse : m.isUseWaitingWhenServerBusy = true)
      (hneg : m.networkManager.getSocketIndex s ≤ 0) :
      Effect cfg m (.recv n (.start s buffer)) n
        (.ignored s p (m.networkManager.isRegistered s)) [] []
  | unrecorded {n s p i pc} (hl : m.handlers n = .locked s p i)
      (hnone : m.sended i (cfg.traits.msgid p) = none)
      (hpc : pc = .crashed s p ∨ pc = .finished s p none) :
      Effect cfg m (.recv n .locked) n pc [] []
  | recorded {n s p i q} (hl : m.handlers n = .locked s p i)
      (hsome : m.sended i (cfg.traits.msgid p) = some q) :
      Effect cfg m (.recv n .locked) n (.finished s p (some q))
        (if m.isBusy then [(s, q)] else []) (if m.isBusy then [] else [(s, p)])

theorem recvStep_receives [DecidableEq ResCode] {n : Nat} {a : RecvAct}
    (h : recvStep cfg m n a = some m') :
    ∃ pc req del, Acts m m' n pc req del ∧ Effect cfg m (.recv n a) n pc req del := by
  cases a with
  | start s buffer =>
    obtain ⟨hidle, hcases⟩ := recvStart_cases h
    have hq : (m.handlers n).Quiet := by rw [hidle]; trivial
    rcases hcases with ⟨hnone, rfl⟩ | ⟨p, hp, ⟨huse, hneg, rfl⟩ | ⟨_, hpos, rfl⟩ | ⟨hoff, rfl⟩⟩
    · refine ⟨_, _, _, acts_setHandler hq .unparsed, .early nofun ?_ trivial⟩
      rintro k s' b p ⟨⟩ hp
      rw [hnone] at hp
      cases hp
    · exact ⟨_, _, _, acts_setHandler hq _, .ignored hp huse hneg⟩
    · refine ⟨_, _, _, acts_setHandler hq (.store s p _), .early nofun ?_ trivial⟩
      rintro k s' b p' ⟨⟩ _ _
      exact hpos
    · refine ⟨.passed s p, [], [(s, p)], ⟨hq, rfl, by simp, rfl⟩, .passed nofun ?_⟩
      rintro k s' b p' ⟨⟩ _ hon
      rw [hoff] at hon
      cases hon
  | store =>
    obtain ⟨s, p, i, hst, rfl⟩ := recvStore_cases h
    have hq : (m.handlers n).Quiet := by rw [hst]; trivial
    exact ⟨.locked s p i, [], [], ⟨hq, rfl, by simp, by simp⟩, .early nofun nofun trivial⟩
  | locked =>
    obtain ⟨s, p, i, hl, hcases⟩ := recvLocked_cases h
    have hq : (m.handlers n).Quiet := by rw [hl]; trivial
    rcases hcases with ⟨hmap, rfl⟩ | ⟨f, hmap, ⟨hrec, rfl⟩ | ⟨q, hrec, rfl⟩⟩
    · exact ⟨_, _, _, acts_setHandler hq (.crashed s p),
        .unrecorded hl (by simp [sended, hmap]) (.inl rfl)⟩
    · exact ⟨_, _, _, acts_setHandler hq (.finished s p none),
        .unrecorded hl (by simp [sended, hmap, hrec]) (.inr rfl)⟩
    · refine ⟨.finished s p (some q), _, _, ⟨hq, ?_, ?_, ?_⟩,
        .recorded hl (by simp [sended, hmap, hrec])⟩ <;>
      · unfold noteAnswer
        cases m.isBusy <;> split <;> simp

/-- **Effect of a step on received packets.** -/
theorem step_receives [DecidableEq ReqCode] [DecidableEq ResCode] {e : Event Packet}
    (h : step cfg m e = some m') :
    SameReceives m m' ∧ (∀ k a, e ≠ .recv k a) ∨
      ∃ n pc req del, Acts m m' n pc req del ∧ Effect cfg m e n pc req del := by
  cases e with
  | send c a =>
    have hf := sendStep_frame h
    exact .inl ⟨⟨hf.handlers, hf.requeued, hf.delivered⟩, nofun⟩
  | sender a =>
    have hf := senderStep_frame h
    exact .inl ⟨⟨hf.handlers, hf.requeued, hf.delivered⟩, nofun⟩
  | recv n a => exact .inr ⟨n, recvStep_receives h⟩
  | dispatch d a =>
    have hf := dispatchStep_frame h
    exact .inl ⟨⟨hf.handlers, hf.requeued, hf.delivered⟩, nofun⟩
  | receivePacket i id =>
    cases h
    rcases receivePacket_cases m i id with heq | ⟨f, v, _, _, heq⟩ <;> rw [heq] <;>
      exact .inl ⟨⟨rfl, rfl, rfl⟩, nofun⟩
  | disconnect i =>
    cases h
    rcases disconnect_cases m i with heq | ⟨nm, _, heq⟩ <;> rw [heq] <;>
      exact .inl ⟨⟨rfl, rfl, rfl⟩, nofun⟩
  | setIsUseServerBusyWaiting b =>
    cases h
    exact .inl ⟨⟨rfl, rfl, rfl⟩, nofun⟩

/-! ## What a call has pushed -/

/-- What a call at a pc has pushed back (`req`) and delivered (`del`). -/
def OutcomeAt : HandlerPc Packet → List (Sock × Packet) → List (Sock × Packet) → Prop
  | .passed s p, req, del => req = [] ∧ del = [(s, p)]
  | .finished s p (some q), req, del => req = [(s, q)] ∧ del = [] ∨ req = [] ∧ del = [(s, p)]
  | _, req, del => req = [] ∧ del = []

/-- `Q` holds of every call: of its pc, of what it pushed back and of what it delivered. -/
def EachCall (Q : HandlerPc Packet → List (Sock × Packet) → List (Sock × Packet) → Prop)
    (m : CGPBManagerV2 Packet) : Prop :=
  ∀ n, Q (m.handlers n) (m.requeuedBy n) (m.deliveredBy n)

theorem outcomeAt_quiet {req del : List (Sock × Packet)} {pc : HandlerPc Packet}
    (hq : pc.Quiet) : OutcomeAt pc req del ↔ req = [] ∧ del = [] := by
  cases pc with
  | passed s p => exact absurd hq id
  | finished s p r =>
    cases r with
    | none => exact Iff.rfl
    | some q => exact absurd hq id
  | _ => exact Iff.rfl

theorem SameReceives.eachCall
    {Q : HandlerPc Packet → List (Sock × Packet) → List (Sock × Packet) → Prop}
    (h : SameReceives m m') (hQ : EachCall Q m) : EachCall Q m' := by
  intro k
  obtain ⟨h1, h2, h3⟩ := h
  unfold requeuedBy deliveredBy
  rw [h1, h2, h3]
  exact hQ k

/-- The acting call has pushed exactly what it pushes now, the others what they had pushed; so
    what holds of every call keeps holding exactly when it holds of the acting call. -/
theorem Acts.eachCall_iff {n : Nat} {pc : HandlerPc Packet} {req del : List (Sock × Packet)}
    {Q : HandlerPc Packet → List (Sock × Packet) → List (Sock × Packet) → Prop}
    (h : Acts m m' n pc req del) (ho : EachCall OutcomeAt m) (hQ : EachCall Q m) :
    EachCall Q m' ↔ Q pc req del := by
  have hself : m'.handlers n = pc ∧ m'.requeuedBy n = req ∧ m'.deliveredBy n = del := by
    obtain ⟨h1, h2⟩ := (outcomeAt_quiet h.quiet).mp (ho n)
    unfold requeuedBy at h1 ⊢
    unfold deliveredBy at h2 ⊢
    rw [h.handlers, h.requeued, h.delivered, entriesOf_append, entriesOf_append, h1, h2]
    simp
  obtain ⟨hpc, hreq, hdel⟩ := hself
  constructor
  · intro hall
    have := hall n
    rwa [hpc, hreq, hdel] at this
  · intro hn k
    by_cases hk : k = n
    · subst hk
      rwa [hpc, hreq, hdel]
    · unfold requeuedBy deliveredBy
      rw [h.handlers, h.requeued, h.delivered, entriesOf_append, entriesOf_append,
        entriesOf_map_ne (Ne.symm hk), entriesOf_map_ne (Ne.symm hk), Function.update_of_ne hk,
        List.append_nil, List.append_nil]
      exact hQ k

theorem Effect.outcomeAt {e : Event Packet} {n : Nat} {pc : HandlerPc Packet}
    {req del : List (Sock × Packet)} (h : Effect cfg m e n pc req del) :
    OutcomeAt pc req del := by
  cases h with
  | early he hindex hpc =>
    cases pc <;> first | exact ⟨rfl, rfl⟩ | exact absurd hpc id
  | passed he hindex => exact ⟨rfl, rfl⟩
  | ignored hp huse hneg => exact ⟨rfl, rfl⟩
  | unrecorded hl hnone hpc =>
    rcases hpc with rfl | rfl <;> exact ⟨rfl, rfl⟩
  | recorded hl hsome =>
    cases m.isBusy
    · exact .inr ⟨rfl, rfl⟩
    · exact .inl ⟨rfl, rfl⟩

theorem step_outcome [DecidableEq ReqCode] [DecidableEq ResCode] {e : Event Packet}
    (ho : EachCall OutcomeAt m) (h : step cfg m e = some m') : EachCall OutcomeAt m' := by
  rcases step_receives h with ⟨hsame, _⟩ | ⟨n, pc, req, del, hacts, heff⟩
  · exact hsame.eachCall ho
  · exact (hacts.eachCall_iff ho ho).mpr heff.outcomeAt

/-- **Every call pushes at most one packet**, and which one its pc tells up to the flag. -/
theorem run_outcome [DecidableEq ReqCode] [DecidableEq ResCode] {nm : CNetworkCommunicator}
    {announced : SockIndex → Bool} {use : Bool} {es : List (Event Packet)}
    (h : run (step cfg) (create nm announced use) es = some m) :
    EachCall OutcomeAt m := by
  refine run_invariant (I := EachCall OutcomeAt) (fun _ _ _ hi hs => step_outcome hi hs) ?_ h
  exact fun _ => ⟨rfl, rfl⟩

/-- A call that has not returned can go on. -/
theorem recv_enabled [DecidableEq ReqCode] [DecidableEq ResCode]
    (cfg : Config Packet ReqCode ResCode) (m : CGPBManagerV2 Packet) (n : Nat) (s : Sock)
    (p : Packet) (i : SockIndex) :
    (m.handlers n = .store s p i → (step cfg m (.recv n .store)).isSome) ∧
      (m.handlers n = .locked s p i → (step cfg m (.recv n .locked)).isSome) := by
  constructor
  · intro h
    simp [step, recvStep, recvStore, h]
  · intro h
    simp only [step, recvStep, recvLocked, h]
    cases m.mapSocketToSendedPacket i with
    | none => rfl
    | some f => cases hrec : f (cfg.traits.msgid p) <;> simp [hrec]

/-! ## Treatment by the packet's own code -/

/-- A packet whose message id was recorded has been treated by its own code: the busy reply sent
    the request back, once, and was not delivered; any other reply was delivered, once, and its
    request was not sent back. -/
def TreatedByOwnCode [DecidableEq ResCode] (cfg : Config Packet ReqCode ResCode) :
    HandlerPc Packet → List (Sock × Packet) → List (Sock × Packet) → Prop
  | .finished s p (some q), req, del =>
    if isBusyReply cfg p then req = [(s, q)] ∧ del = [] else req = [] ∧ del = [(s, p)]
  | _, _, _ => True

/-- The condition: a locked section that finds a record finds the flag as its own packet set
    it. -/
def FlagIsOwn [DecidableEq ResCode] (cfg : Config Packet ReqCode ResCode)
    (m : CGPBManagerV2 Packet) (e : Event Packet) : Prop :=
  ∀ n s p i q, e = .recv n .locked → m.handlers n = .locked s p i →
    m.sended i (cfg.traits.msgid p) = some q → m.isBusy = isBusyReply cfg p

theorem Effect.treated_iff [DecidableEq ResCode] {e : Event Packet} {n : Nat}
    {pc : HandlerPc Packet} {req del : List (Sock × Packet)} (h : Effect cfg m e n pc req del) :
    TreatedByOwnCode cfg pc req del ↔ FlagIsOwn cfg m e := by
  cases h with
  | early he hindex hpc =>
    refine iff_of_true ?_ (fun k _ _ _ _ hk => absurd hk (he k))
    cases pc <;> trivial
  | passed he hindex => exact iff_of_true trivial (fun k _ _ _ _ hk => absurd hk (he k))
  | ignored hp huse hneg => exact iff_of_true trivial nofun
  | unrecorded hl hnone hpc =>
    refine iff_of_true ?_ ?_
    · rcases hpc with rfl | rfl <;> trivial
    · rintro k s p i q ⟨⟩ hl' hsome
      rw [hl] at hl'
      cases hl'
      rw [hnone] at hsome
      cases hsome
  | @recorded n s p i q hl hsome =>
    have hflag : FlagIsOwn cfg m (.recv n .locked) ↔ m.isBusy = isBusyReply cfg p := by
      refine ⟨fun hf => hf n s p i q rfl hl hsome, ?_⟩
      rintro hf k s' p' i' q' ⟨⟩ hl' _
      rw [hl] at hl'
      cases hl'
      exact hf
    rw [hflag]
    unfold TreatedByOwnCode
    cases m.isBusy <;> cases hb : isBusyReply cfg p <;> simp [hb]

theorem step_treated_iff [DecidableEq ReqCode] [DecidableEq ResCode] {e : Event Packet}
    (ho : EachCall OutcomeAt m) (ht : EachCall (TreatedByOwnCode cfg) m)
    (h : step cfg m e = some m') :
    EachCall (TreatedByOwnCode cfg) m' ↔ FlagIsOwn cfg m e := by
  rcases step_receives h with ⟨hsame, he⟩ | ⟨n, pc, req, del, hacts, heff⟩
  · exact iff_of_true (hsame.eachCall ht) (fun k _ _ _ _ hk => absurd hk (he k _))
  · rw [hacts.eachCall_iff ho ht, heff.treated_iff]

/-- **When replies are treated by their own code.**  Along any interleaving, every reply to a
    recorded request is treated by its own code exactly when every locked section that finds a
    record finds `_isBusy` as its own packet set it; and no call gets stuck. -/
theorem reply_treated_by_own_code_iff [DecidableEq ReqCode] [DecidableEq ResCode]
    (cfg : Config Packet ReqCode ResCode) (nm : CNetworkCommunicator)
    (announced : SockIndex → Bool) (es : List (Event Packet)) :
    (Always (step cfg) (EachCall (TreatedByOwnCode cfg)) (create nm announced true) es ↔
      Meets (step cfg) (FlagIsOwn cfg) (create nm announced true) es) ∧
    ∀ (m : CGPBManagerV2 Packet) n s p i,
      (m.handlers n = .store s p i → (step cfg m (.recv n .store)).isSome) ∧
        (m.handlers n = .locked s p i → (step cfg m (.recv n .locked)).isSome) := by
  refine ⟨?_, recv_enabled cfg⟩
  apply always_iff_meets (I := fun m => EachCall OutcomeAt m ∧ EachCall (TreatedByOwnCode cfg) m)
  · exact fun m hi => hi.2
  · rintro m e m' ⟨ho, ht⟩ hf h
    exact ⟨step_outcome ho h, (step_treated_iff ho ht h).mpr hf⟩
  · rintro m e m' ⟨ho, ht⟩ hf h ht'
    exact hf ((step_treated_iff ho ht h).mp ht')
  · exact ⟨fun _ => ⟨rfl, rfl⟩, fun _ => trivial⟩

open SamplePacket in
/-- The busy reply to request 1 on socket 0 has set the flag when a packet on socket 1 clears it:
    the locked section then delivers the busy reply and forgets the request. -/
theorem busy_reply_delivered_after_flag_cleared :
    ∃ m, run (step config) (manager true)
        (sendCall 0 1 ⟨0, 3, 0⟩ ++ senderRound ++
          [.recv 0 (.start 0 (frame [1, 0, 9])), .recv 0 .store,
            .recv 1 (.start 1 (frame [7, 4, 0])), .recv 1 .store, .recv 0 .locked]) = some m ∧
      m.sended 1 1 = none ∧ m.outgoingQueue = [] ∧
      ¬ EachCall (TreatedByOwnCode config) m := by
  refine ⟨_, rfl, rfl, rfl, fun h => ?_⟩
  have h0 : [] = [((0 : Sock), (⟨1, 3, 0⟩ : SamplePacket))] ∧ _ := h 0
  exact absurd h0.1 (by decide)

/-! ## Delivery of packets other than the busy reply -/

/-- A packet other than the busy reply, received on a registered socket or with the feature off,
    has been delivered exactly once when its call has returned. -/
def NonbusyDelivered [DecidableEq ResCode] (cfg : Config Packet ReqCode ResCode) :
    HandlerPc Packet → List (Sock × Packet) → List (Sock × Packet) → Prop
  | .passed s p, _, del => isBusyReply cfg p = false → del = [(s, p)]
  | .ignored s p registered, _, del =>
    registered = true → isBusyReply cfg p = false → del = [(s, p)]
  | .finished s p _, _, del => isBusyReply cfg p = false → del = [(s, p)]
  | .crashed s p, _, del => isBusyReply cfg p = false → del = [(s, p)]
  | _, _, _ => True

/-- The condition: with the feature on, a packet other than the busy reply on a registered socket
    finds a positive index, and its locked section a record of its message id and the flag
    cleared. -/
structure IndexedAndRecorded [DecidableEq ResCode] (cfg : Config Packet ReqCode ResCode)
    (m : CGPBManagerV2 Packet) (e : Event Packet) : Prop where
  indexed : ∀ n s buffer p, e = .recv n (.start s buffer) →
    cfg.traits.ParseFromArray (parseRegion buffer) = some p →
    m.isUseWaitingWhenServerBusy = true → m.networkManager.isRegistered s = true →
    isBusyReply cfg p = false → 0 < m.networkManager.getSocketIndex s
  recorded : ∀ n s p i, e = .recv n .locked → m.handlers n = .locked s p i →
    isBusyReply cfg p = false → (m.sended i (cfg.traits.msgid p)).isSome ∧ m.isBusy = false

/-- At the locked section only the record and the flag count. -/
theorem indexedAndRecorded_locked [DecidableEq ResCode] {n : Nat} {s : Sock} {p : Packet}
    {i : SockIndex} (hl : m.handlers n = .locked s p i) :
    IndexedAndRecorded cfg m (.recv n .locked) ↔ (isBusyReply cfg p = false →
      (m.sended i (cfg.traits.msgid p)).isSome ∧ m.isBusy = false) := by
  refine ⟨fun h => h.recorded n s p i rfl hl, fun h => ⟨nofun, ?_⟩⟩
  rintro k s' p' i' ⟨⟩ hl'
  rw [hl] at hl'
  cases hl'
  exact h

/-- A step that loses no packet of a registered socket. -/
theorem indexedAndRecorded_of_findsIndex [DecidableEq ResCode] {e : Event Packet}
    (he : ∀ k, e ≠ .recv k .locked) (hindex : FindsIndex cfg m e) : IndexedAndRecorded cfg m e :=
  ⟨fun n s buffer p h hp huse _ _ => hindex n s buffer p h hp huse,
    fun k _ _ _ hk => absurd hk (he k)⟩

theorem Effect.delivered_iff [DecidableEq ResCode] {e : Event Packet} {n : Nat}
    {pc : HandlerPc Packet} {req del : List (Sock × Packet)} (h : Effect cfg m e n pc req del) :
    NonbusyDelivered cfg pc req del ↔ IndexedAndRecorded cfg m e := by
  cases h with
  | early he hindex hpc =>
    refine iff_of_true ?_ (indexedAndRecorded_of_findsIndex he hindex)
    cases pc <;> trivial
  | passed he hindex =>
    exact iff_of_true (fun _ => rfl) (indexedAndRecorded_of_findsIndex he hindex)
  | @ignored n s p buffer hp huse hneg =>
    constructor
    · intro h
      refine ⟨?_, nofun⟩
      rintro k s' b p' ⟨⟩ hp' _ hreg hbusy
      rw [hp] at hp'
      cases hp'
      exact absurd (h hreg hbusy) (List.cons_ne_nil _ _).symm
    · intro h hreg hbusy
      have hpos := h.indexed n s buffer p rfl hp huse hreg hbusy
      exact absurd hneg (Int.not_le.mpr hpos)
  | unrecorded hl hnone hpc =>
    rw [indexedAndRecorded_locked hl, hnone]
    rcases hpc with rfl | rfl <;> simp [NonbusyDelivered]
  | recorded hl hsome =>
    rw [indexedAndRecorded_locked hl, hsome]
    cases m.isBusy <;> simp [NonbusyDelivered]

theorem step_delivered_iff [DecidableEq ReqCode] [DecidableEq ResCode] {e : Event Packet}
    (ho : EachCall OutcomeAt m) (hd : EachCall (NonbusyDelivered cfg) m)
    (h : step cfg m e = some m') :
    EachCall (NonbusyDelivered cfg) m' ↔ IndexedAndRecorded cfg m e := by
  rcases step_receives h with ⟨hsame, he⟩ | ⟨n, pc, req, del, hacts, heff⟩
  · exact iff_of_true (hsame.eachCall hd)
      ⟨fun k _ _ _ hk => absurd hk (he k _), fun k _ _ _ hk => absurd hk (he k _)⟩
  · rw [hacts.eachCall_iff ho hd, heff.delivered_iff]

/-- **When packets other than the busy reply are delivered.**  Along any interleaving, with the
    feature switched on and off at will, every such packet that arrives on a registered socket is
    delivered exactly once exactly when, wherever the feature is on, the index found for its socket
    is positive and its locked section finds a record of its message id and the flag cleared; and
    no call gets stuck. -/
theorem nonbusy_packet_delivered_iff [DecidableEq ReqCode] [DecidableEq ResCode]
    (cfg : Config Packet ReqCode ResCode) (nm : CNetworkCommunicator)
    (announced : SockIndex → Bool) (use : Bool)
    (es : List (Event Packet)) :
    (Always (step cfg) (EachCall (NonbusyDelivered cfg)) (create nm announced use) es ↔
      Meets (step cfg) (IndexedAndRecorded cfg) (create nm announced use) es) ∧
    ∀ (m : CGPBManagerV2 Packet) n s p i,
      (m.handlers n = .store s p i → (step cfg m (.recv n .store)).isSome) ∧
        (m.handlers n = .locked s p i → (step cfg m (.recv n .locked)).isSome) := by
  refine ⟨?_, recv_enabled cfg⟩
  apply always_iff_meets (I := fun m => EachCall OutcomeAt m ∧ EachCall (NonbusyDelivered cfg) m)
  · exact fun m hi => hi.2
  · rintro m e m' ⟨ho, hd⟩ hc h
    exact ⟨step_outcome ho h, (step_delivered_iff ho hd h).mpr hc⟩
  · rintro m e m' ⟨ho, hd⟩ hc h hd'
    exact hc ((step_delivered_iff ho hd h).mp hd')
  · exact ⟨fun _ => ⟨rfl, rfl⟩, fun _ => trivial⟩

open SamplePacket in
/-- With the feature on, a request started by the peer is not delivered: nothing is recorded
    under its message id. -/
theorem peer_request_not_delivered :
    ∃ m, run (step config) (manager true) (recvCall 0 0 (frame [7, 4, 0])) = some m ∧
      m.incomingQueue = [] ∧ ¬ EachCall (NonbusyDelivered config) m := by
  refine ⟨_, rfl, rfl, fun h => ?_⟩
  have h0 : false = false → [] = [((0 : Sock), (⟨7, 4, 0⟩ : SamplePacket))] := h 0
  exact absurd (h0 rfl) (by decide)

open SamplePacket in
/-- With the feature on, nothing that arrives on a socket is delivered when the counter had wrapped
    at its registration. -/
example : ∃ m, run (step config) (create wrappedRegistry (fun _ => true) true)
    (recvCall 0 0 (frame [7, 4, 0]) |>.take 1) = some m ∧ m.incomingQueue = [] ∧
      m.handlers 0 = .ignored 0 ⟨7, 4, 0⟩ true :=
  ⟨_, rfl, rfl, rfl⟩

end IMonPlatform
