import IMonPlatform.Lib.Matching
import IMonPlatform.Net.Responses

/-!
# Every successful `receivePacket` has a packet of its own

Message ids may repeat, the same packet may arrive twice and any number of threads may dispatch.
Still no packet that arrived is returned by two calls: from the queue it goes to the hand of one
thread, from there to one place of `_mapSocketToResPacket`, and a call takes it out of its place.

* `AwaitsDispatch` — the packets of which nothing has been made yet.
* `Filed`, `step_filed` — what is stored or was returned was made of arrived packets, each of its
  own.
* `returned_once` — along every run.
-/

set_option autoImplicit false

namespace IMonPlatform

open CGPBManagerV2 CNetworkCommunicator Transition TaggedLog Matching

variable {Packet ReqCode ResCode : Type} [DecidableEq ReqCode] [DecidableEq ResCode]
  {cfg : Config Packet ReqCode ResCode} {nm : CNetworkCommunicator}
  {m m' : CGPBManagerV2 Packet}

/-- The packet at a position is in `_incomingQueue` or in the hand of a dispatching thread. -/
def AwaitsDispatch (m : CGPBManagerV2 Packet) (n : Nat) : Prop :=
  m.log.taken ≤ n ∨ ∃ d e, (m.dispatchers d).holding = some (n, e)

/-- The stored responses, as the calls that would return them. -/
def places (m : CGPBManagerV2 Packet) (k : SockIndex × Int) : Option ((SockIndex × Int) × Packet) :=
  (m.resPacket k.1 k.2).map fun v => (k, v.2)

/-- An arrived packet and a call that returned it. -/
def ReturnedBy (cfg : Config Packet ReqCode ResCode) (nm : CNetworkCommunicator)
    (e : Sock × Packet) (r : (SockIndex × Int) × Packet) : Prop :=
  nm.mapIndexToSocket.lookup r.1.1 = some e.1 ∧ isProcess cfg e.2 = false ∧ e.2 = r.2 ∧
    cfg.traits.msgid r.2 = r.1.2

/-- Everything stored or returned was made of a packet of its own. -/
def Filed (cfg : Config Packet ReqCode ResCode) (nm : CNetworkCommunicator)
    (m : CGPBManagerV2 Packet) : Prop :=
  Custody (ReturnedBy cfg nm) m.arrivals (AwaitsDispatch m) (places m) m.log.returned

omit [DecidableEq ReqCode] [DecidableEq ResCode] in
theorem places_congr (h : m'.mapSocketToResPacket = m.mapSocketToResPacket) :
    places m' = places m := by
  unfold places
  rw [resPacket_congr h]

omit [DecidableEq ReqCode] [DecidableEq ResCode] in
theorem awaitsDispatch_congr (htaken : m'.log.taken = m.log.taken)
    (hdisp : m'.dispatchers = m.dispatchers) : AwaitsDispatch m' = AwaitsDispatch m := by
  unfold AwaitsDispatch
  rw [htaken, hdisp]

theorem Filed.congr (hf : Filed cfg nm m) (h : SameResponses m m') : Filed cfg nm m' := by
  unfold Filed at hf ⊢
  rwa [h.arrivals_eq, places_congr h.responses, h.returned,
    awaitsDispatch_congr h.taken h.dispatchers]

omit [DecidableEq ReqCode] [DecidableEq ResCode] in
/-- A thread that goes on with no more than it held takes nothing in hand. -/
theorem awaitsDispatch_setDispatcher {d n : Nat} {pc : DispatchPc Packet}
    (h : AwaitsDispatch (m.setDispatcher d pc) n)
    (hpc : ∀ v, pc.holding = some v → (m.dispatchers d).holding = some v) :
    AwaitsDispatch m n := by
  rcases h with hle | ⟨d', e, hh⟩
  · exact .inl hle
  · rcases holding_setDispatcher hh with ⟨_, hnew⟩ | ⟨_, hold⟩
    · exact .inr ⟨d, e, hpc _ hnew⟩
    · exact .inr ⟨d', e, hold⟩

theorem recvStep_filed {n : Nat} {a : RecvAct} (hf : Filed cfg nm m)
    (h : recvStep cfg m n a = some m') : Filed cfg nm m' := by
  have hframe := recvStep_frame h
  obtain ⟨l, harr, _⟩ := recvStep_arrivals h
  unfold Filed at hf ⊢
  rw [harr, places_congr hframe.responses, hframe.returned,
    awaitsDispatch_congr hframe.taken hframe.dispatchers]
  exact hf.extend l fun n hn => .inl hn

/-- What a thread has in hand is stored, unless its place is taken. -/
theorem dispatchStore_filed {d : Nat} {time : Int} (hb : Book cfg nm m) (hf : Filed cfg nm m)
    (h : dispatchStore cfg m d time = some m') : Filed cfg nm m' := by
  obtain ⟨n, i, e, hd, rfl⟩ := dispatchStore_cases h
  have hhold : (m.dispatchers d).holding = some (n, e) := by rw [hd]; rfl
  obtain ⟨hlt, harr⟩ := hb.hand d n e hhold
  obtain ⟨_, _, hslot, hreg⟩ := hb.logged _ (hb.store_logged d n i e hd)
  -- afterwards the position is in no hand
  have hheld : ∀ k, AwaitsDispatch (m.setDispatcher d .loop) k → AwaitsDispatch m k ∧ k ≠ n := by
    intro k hk
    refine ⟨awaitsDispatch_setDispatcher hk nofun, ?_⟩
    rintro rfl
    rcases hk with hle | ⟨d', e', hh⟩
    · exact absurd hlt (Nat.not_lt.mpr hle)
    · rcases holding_setDispatcher hh with ⟨_, hnew⟩ | ⟨hne, hold⟩
      · cases hnew
      · exact hne (hb.hand_unique d' d k e' e hold hhold)
  cases hplace : m.resPacket i (cfg.traits.msgid e.2) with
  | none =>
    have hempty : places m (i, cfg.traits.msgid e.2) = none := by simp [places, hplace]
    have hput := Custody.put hf (y := ((i, cfg.traits.msgid e.2), e.2)) (.inr ⟨d, e, hhold⟩) harr
      ⟨hreg, hslot, rfl, rfl⟩ hempty hheld
    have hplaces : places ((m.setResPacket i
        (insertNew ((m.mapSocketToResPacket i).getD (fun _ => none)) (cfg.traits.msgid e.2)
          (time, e.2))).setDispatcher d .loop) =
        Function.update (places m) (i, cfg.traits.msgid e.2)
          (some ((i, cfg.traits.msgid e.2), e.2)) := by
      funext k
      unfold places
      rw [resPacket_insert rfl]
      by_cases hk : k = (i, cfg.traits.msgid e.2)
      · subst hk
        simp [hplace]
      · rw [Function.update_of_ne hk, if_neg fun hki => hk (Prod.ext hki.1 hki.2)]
    unfold Filed
    rw [hplaces]
    exact hput
  | some v =>
    have hplaces : places ((m.setResPacket i
        (insertNew ((m.mapSocketToResPacket i).getD (fun _ => none)) (cfg.traits.msgid e.2)
          (time, e.2))).setDispatcher d .loop) = places m := by
      funext k
      unfold places
      rw [resPacket_insert rfl]
      split
      · rename_i hk
        rw [hk.1, hk.2, hplace]
        rfl
      · rfl
    unfold Filed
    rw [hplaces]
    exact Custody.release hf fun k hk => (hheld k hk).1

theorem dispatchStep_filed {d : Nat} {a : DispatchAct Packet} (hb : Book cfg nm m)
    (hf : Filed cfg nm m) (h : dispatchStep cfg m d a = some m') : Filed cfg nm m' := by
  cases a with
  | pop =>
    obtain ⟨e, rest, _, _, rfl⟩ := dispatchPop_cases h
    refine Custody.release hf fun n hn => ?_
    rcases hn with hle | ⟨d', e', hh⟩
    · exact .inl (Nat.le_of_succ_le hle)
    · rcases holding_setDispatcher hh with ⟨_, hnew⟩ | ⟨_, hold⟩
      · cases hnew
        exact .inl (Nat.le_refl _)
      · exact .inr ⟨d', e', hold⟩
  | message result call =>
    obtain ⟨n, e, hd, ⟨_, ⟨_, rfl⟩ | rfl⟩ | ⟨_, ⟨_, rfl⟩ | ⟨_, rfl⟩⟩⟩ := dispatchMessage_cases h
    · exact Custody.release hf fun n hn => awaitsDispatch_setDispatcher hn nofun
    · exact Custody.release hf fun n hn => awaitsDispatch_setDispatcher hn nofun
    · refine Custody.release hf fun n' hn => ?_
      refine awaitsDispatch_setDispatcher hn fun v hv => ?_
      rw [hd]
      exact hv
    · exact Custody.release hf fun n hn => awaitsDispatch_setDispatcher hn nofun
  | ret =>
    obtain ⟨c, _, rfl⟩ := dispatchReturn_cases h
    exact Custody.release hf fun n hn => awaitsDispatch_setDispatcher hn nofun
  | store time => exact dispatchStore_filed hb hf h

/-- A call takes the packet out of its place. -/
theorem receivePacket_filed (i : SockIndex) (id : Int) (hf : Filed cfg nm m) :
    Filed cfg nm (receivePacket m i id) := by
  rcases receivePacket_cases m i id with heq | ⟨f, v, hmap, hv, heq⟩ <;> rw [heq]
  · exact hf
  · have hres := resPacket_of_map hmap
    have hplace : places m (i, id) = some ((i, id), v.2) := by
      simp [places, hres, hv]
    have hplaces : places { m.setResPacket i (Function.update f id none) with
        log := { m.log with returned := m.log.returned ++ [((i, id), v.2)] } } =
        Function.update (places m) (i, id) none := by
      funext k
      unfold places
      rw [resPacket_of_update rfl]
      by_cases hk : k = (i, id)
      · subst hk
        simp
      · rw [Function.update_of_ne hk]
        split
        · rename_i hki
          have hid : k.2 ≠ id := fun hid => hk (Prod.ext hki hid)
          rw [Function.update_of_ne hid, hki, hres]
        · rfl
    have hemit := Custody.emit hf hplace
    unfold Filed
    rw [hplaces]
    exact hemit

/-- **A step makes nothing of a packet twice.** -/
theorem step_filed {e : Event Packet} (hb : Book cfg nm m) (hf : Filed cfg nm m)
    (h : step cfg m e = some m') : Filed cfg nm m' := by
  cases e with
  | send c a => exact hf.congr (sendStep_responses h)
  | sender a => exact hf.congr (senderStep_responses h)
  | recv n a => exact recvStep_filed hf h
  | dispatch d a => exact dispatchStep_filed hb hf h
  | receivePacket i id =>
    cases h
    exact receivePacket_filed i id hf
  | disconnect i =>
    cases h
    rcases disconnect_cases m i with heq | ⟨nm', _, heq⟩ <;> rw [heq]
    · exact hf
    · exact hf.congr ⟨rfl, rfl, rfl, rfl, rfl, rfl, rfl⟩
  | setIsUseServerBusyWaiting b =>
    cases h
    exact hf.congr ⟨rfl, rfl, rfl, rfl, rfl, rfl, rfl⟩

theorem create_filed (announced : SockIndex → Bool) (use : Bool) :
    Filed cfg nm (create nm announced use : CGPBManagerV2 Packet) :=
  custody_start _ _

/-- **Returned at most once.**  Along every interleaving, with the SERVER_BUSY feature on or off and
    whatever message ids the packets have: every successful `receivePacket( i, id )` returned a
    packet without a slot that had arrived on the socket of `i` with the id asked for, and no two
    calls returned the same arrival. -/
theorem returned_once (cfg : Config Packet ReqCode ResCode) (nm : CNetworkCommunicator)
    (announced : SockIndex → Bool) (use : Bool) (es : List (Event Packet))
    (m : CGPBManagerV2 Packet) (hrun : run (step cfg) (create nm announced use) es = some m) :
    Matched (ReturnedBy cfg nm) m.arrivals m.log.returned := by
  have hinv : Book cfg nm m ∧ Filed cfg nm m :=
    run_invariant (I := fun m => Book cfg nm m ∧ Filed cfg nm m)
      (fun _ _ _ hi hs => ⟨step_book hi.1 hs, step_filed hi.1 hi.2 hs⟩)
      ⟨create_book announced use, create_filed announced use⟩ hrun
  exact hinv.2.matched

namespace SamplePacket

/-- Two responses with one id on socket 0, both of which are asked for. -/
def sameId : List (Event SamplePacket) :=
  [.recv 0 (.start 0 [0, 0, 0, 3, 1, 0, 2]), .recv 1 (.start 0 [0, 0, 0, 3, 1, 0, 4]),
    .dispatch 0 .pop, .dispatch 1 .pop, .dispatch 1 (.message (⟨0, 0, 0⟩, false) 0),
    .dispatch 0 (.message (⟨0, 0, 0⟩, false) 0), .dispatch 0 (.store 0), .dispatch 1 (.store 0),
    .receivePacket 1 1, .receivePacket 1 1]

end SamplePacket

open SamplePacket in
theorem returned_once_same_id :
    ∃ m, run (step config) (manager false) sameId = some m ∧
      m.log.returned = [((1, 1), ⟨1, 0, 2⟩)] ∧
      Matched (ReturnedBy config registry) m.arrivals m.log.returned := by
  obtain ⟨m, hrun, hret⟩ : ∃ m, run (step config) (manager false) sameId = some m ∧
      m.log.returned = [((1, 1), ⟨1, 0, 2⟩)] := ⟨_, rfl, rfl⟩
  exact ⟨m, hrun, hret, returned_once config registry _ false sameId m hrun⟩

end IMonPlatform
