import IMonPlatform.Net.ReturnedOnce
import IMonPlatform.Net.WireOrder

/-!
# A server answers every request at most once

A program that sends on a connection only what its message slots answer accepts at most one packet
for every request that arrived there: a request is in the hand of one dispatching thread, its
answer in one call of `sendPacket`.

* `OnlyAnswers` — what such a program does, with the relation that its slots keep between a request
  and its answer.
* `Served`, `step_served` — what calls have in hand and what was accepted was made of requests, each
  of its own.
-/

set_option autoImplicit false

namespace IMonPlatform

open CGPBManagerV2 CNetworkCommunicator Transition TaggedLog Matching

variable {Packet ReqCode ResCode : Type} {cfg : Config Packet ReqCode ResCode}
  {m m' : CGPBManagerV2 Packet}

/-- The socket that a call of `sendPacket` would use. -/
def CGPBManagerV2.Target.resolve (m : CGPBManagerV2 Packet) : Target → Option Sock
  | .index i => if i ≤ 0 then none else some (m.networkManager.getSocket i).1
  | .socket sendSocket => sendSocket

/-- On `s` only slots send, and what they send answers the request they were called for. -/
def OnlyAnswers (cfg : Config Packet ReqCode ResCode) [DecidableEq ReqCode]
    [DecidableEq ResCode] (answer : Packet → Packet → Prop) (s : Sock)
    (m : CGPBManagerV2 Packet) : Event Packet → Prop
  | .send _ (.start target _ _) => target.resolve m ≠ some s
  | .dispatch d (.message result _) => ∀ n q, m.dispatchers d = .popped n (s, q) →
      isProcess cfg q = true → result.2 = true →
        answer q (cfg.traits.set_msgid result.1 (cfg.traits.msgid result.1))
  | _ => True

/-- The packet that a call of `sendPacket` is about to push for `s`. -/
def CallPc.pendingOn (s : Sock) : CallPc Packet → Option Packet
  | .assign s' p _ | .push s' p => if s' = s then some p else none
  | _ => none

/-- The packets that calls are about to push for `s`. -/
def pendingCalls (s : Sock) (m : CGPBManagerV2 Packet) (c : Nat) : Option Packet :=
  (m.calls c).pendingOn s

/-- A request and a packet sent for it. -/
def AnsweredBy (cfg : Config Packet ReqCode ResCode) [DecidableEq ReqCode]
    [DecidableEq ResCode] (answer : Packet → Packet → Prop) (s : Sock) (e : Sock × Packet)
    (p : Packet) : Prop :=
  e.1 = s ∧ isProcess cfg e.2 = true ∧ answer e.2 p

/-- Everything that is about to be pushed for `s` or was pushed for it answers a request of its
    own. -/
structure Served (cfg : Config Packet ReqCode ResCode) [DecidableEq ReqCode]
    [DecidableEq ResCode] (answer : Packet → Packet → Prop) (s : Sock)
    (m : CGPBManagerV2 Packet) : Prop where
  /-- A slot's answer keeps its message id. -/
  plain : ∀ c p, m.calls c ≠ .assign s p true
  custody : Custody (AnsweredBy cfg answer s) m.arrivals (AwaitsDispatch m) (pendingCalls s m)
    (enqueuedFor m s)

theorem pendingCalls_setCall (s : Sock) (c : Nat) (pc : CallPc Packet) :
    pendingCalls s (m.setCall c pc) = Function.update (pendingCalls s m) c (pc.pendingOn s) := by
  funext k
  unfold pendingCalls
  by_cases hk : k = c
  · subst hk
    simp
  · simp [hk]

/-! ## What a call of `sendPacket` does -/

/-- A call starts on the socket that its target resolves to. -/
theorem sendStart_resolves {c : Nat} {target : Target} {packet : Packet} {auto : Bool}
    (h : sendStart m c target packet auto = some m') :
    m.calls c = .idle ∧ ∃ pc, m'.calls = Function.update m.calls c pc ∧
      (pc = .done (-1) ∨ ∃ s, target.resolve m = some s ∧ pc = .assign s packet auto) := by
  unfold sendStart at h
  split at h
  · rename_i i hidle
    split at h
    · cases h
      exact ⟨hidle, _, rfl, .inl rfl⟩
    · rename_i hi
      cases h
      exact ⟨hidle, _, rfl, .inr ⟨_, if_neg hi, rfl⟩⟩
  · cases h
    exact ⟨‹_›, _, rfl, .inl rfl⟩
  · cases h
    exact ⟨‹_›, _, rfl, .inr ⟨_, rfl, rfl⟩⟩
  · cases h

theorem sendAssign_plain {c : Nat} (h : sendAssign cfg m c = some m') :
    ∃ s p auto p', m.calls c = .assign s p auto ∧
      m'.calls = Function.update m.calls c (.push s p') ∧ (auto = false → p' = p) := by
  unfold sendAssign at h
  split at h <;> cases h
  · exact ⟨_, _, true, _, ‹_›, rfl, nofun⟩
  · exact ⟨_, _, false, _, ‹_›, rfl, fun _ => rfl⟩

section Steps

variable [DecidableEq ReqCode] [DecidableEq ResCode] {answer : Packet → Packet → Prop} {s : Sock}

/-- Only the calls and the packets in hand of dispatching threads have changed. -/
theorem Served.calls_update (hsv : Served cfg answer s m) {c : Nat} (pc : CallPc Packet)
    (hcalls : m'.calls = Function.update m.calls c pc) (harr : m'.arrivals = m.arrivals)
    (hawait : ∀ n, AwaitsDispatch m' n → AwaitsDispatch m n)
    (hfor : enqueuedFor m' s = enqueuedFor m s) (hplain : ∀ p, pc ≠ .assign s p true)
    (hold : pendingCalls s m c = pc.pendingOn s) : Served cfg answer s m' := by
  refine ⟨fun k p => ?_, ?_⟩
  · rw [hcalls]
    by_cases hk : k = c
    · subst hk
      rw [Function.update_self]
      exact hplain p
    · rw [Function.update_of_ne hk]
      exact hsv.plain k p
  · have hpending : pendingCalls s m' = pendingCalls s m := by
      have hset : pendingCalls s m' = pendingCalls s (m.setCall c pc) := by
        unfold pendingCalls
        rw [hcalls]
        rfl
      rw [hset, pendingCalls_setCall, ← hold, Function.update_eq_self]
    rw [harr, hpending, hfor]
    exact hsv.custody.release hawait

/-- A step that no call of `sendPacket` makes. -/
theorem Served.congr (hsv : Served cfg answer s m) (hcalls : m'.calls = m.calls)
    (hlog : m'.log.enqueued = m.log.enqueued) {l : List (Sock × Packet)}
    (harr : m'.arrivals = m.arrivals ++ l)
    (hawait : ∀ n, AwaitsDispatch m' n → AwaitsDispatch m n) : Served cfg answer s m' := by
  refine ⟨fun k p => ?_, ?_⟩
  · rw [hcalls]
    exact hsv.plain k p
  · have hpending : pendingCalls s m' = pendingCalls s m := by
      unfold pendingCalls
      rw [hcalls]
    have hfor : enqueuedFor m' s = enqueuedFor m s := by
      unfold enqueuedFor
      rw [hlog]
    rw [harr, hpending, hfor]
    exact hsv.custody.extend l fun n hn => .inl (hawait n hn)

/-- What a call pushes for `s` was made of a request. -/
theorem sendStep_served {c : Nat} {a : SendAct Packet} (hsv : Served cfg answer s m)
    (ho : OnlyAnswers cfg answer s m (.send c a)) (h : sendStep cfg m c a = some m') :
    Served cfg answer s m' := by
  have hframe := sendStep_frame h
  have harr : m'.arrivals = m.arrivals := (sendStep_responses h).arrivals_eq
  have hawait : ∀ n, AwaitsDispatch m' n → AwaitsDispatch m n := by
    intro n hn
    rwa [awaitsDispatch_congr hframe.taken hframe.dispatchers] at hn
  cases a with
  | start target packet auto =>
    have hlog : m'.log.enqueued = m.log.enqueued := by
      obtain ⟨nm, pc, _, _, rfl, _⟩ := sendStart_cases h
      rfl
    obtain ⟨hidle, pc, hcalls, hpc⟩ := sendStart_resolves h
    have hfor : enqueuedFor m' s = enqueuedFor m s := by
      unfold enqueuedFor
      rw [hlog]
    have hold : pendingCalls s m c = none := by
      unfold pendingCalls
      rw [hidle]
      rfl
    refine hsv.calls_update _ hcalls harr hawait hfor ?_ ?_
    · rintro p rfl
      rcases hpc with hpc | ⟨s', hs', hpc⟩
      · cases hpc
      · cases hpc
        exact ho hs'
    · rw [hold]
      rcases hpc with rfl | ⟨s', hs', rfl⟩
      · rfl
      · have hne : s' ≠ s := fun heq => ho (heq ▸ hs')
        exact (if_neg hne).symm
  | assign =>
    have hlog : m'.log.enqueued = m.log.enqueued := by
      obtain ⟨s', p, auto, id, p', _, rfl⟩ := sendAssign_cases h
      rfl
    have hfor : enqueuedFor m' s = enqueuedFor m s := by
      unfold enqueuedFor
      rw [hlog]
    obtain ⟨s', p, auto, p', hassign, hcalls, hsame⟩ := sendAssign_plain h
    refine hsv.calls_update _ hcalls harr hawait hfor (fun _ hp => by cases hp) ?_
    unfold pendingCalls
    rw [hassign]
    by_cases hs : s' = s
    · subst hs
      cases auto with
      | true => exact absurd hassign (hsv.plain c p)
      | false =>
        rw [hsame rfl]
        rfl
    · exact (if_neg hs).trans (if_neg hs).symm
  | push =>
    obtain ⟨s', p, hpush, rfl⟩ := sendPush_cases h
    by_cases hs : s' = s
    · subst hs
      have hpending : pendingCalls s' m c = some p := by
        unfold pendingCalls
        rw [hpush]
        exact if_pos rfl
      refine ⟨fun k q => ?_, ?_⟩
      · by_cases hk : k = c
        · subst hk
          simp
        · simpa [hk] using hsv.plain k q
      · have hfor : enqueuedFor ((m.pushOutgoing c (s', p)).setCall c (.ret p)) s' =
            enqueuedFor m s' ++ [p] := by
          simp [enqueuedFor, pushOutgoing]
        have hplaces : pendingCalls s' ((m.pushOutgoing c (s', p)).setCall c (.ret p)) =
            Function.update (pendingCalls s' m) c none := pendingCalls_setCall s' c (.ret p)
        rw [hfor, hplaces]
        exact hsv.custody.emit hpending
    · have hfor : enqueuedFor ((m.pushOutgoing c (s', p)).setCall c (.ret p)) s =
          enqueuedFor m s := by
        simp [enqueuedFor, pushOutgoing, entriesOf_singleton_ne hs]
      refine hsv.calls_update (.ret p) rfl rfl hawait hfor (fun _ hp => by cases hp) ?_
      unfold pendingCalls
      rw [hpush]
      exact if_neg hs
  | ret =>
    obtain ⟨p, hret, rfl⟩ := sendReturn_cases h
    refine hsv.calls_update (.done (cfg.traits.msgid p)) rfl rfl hawait rfl
      (fun _ hp => by cases hp) ?_
    unfold pendingCalls
    rw [hret]
    rfl

/-- **A slot's answer is made of the request that the thread had in hand.** -/
theorem dispatchMessage_served {nm : CNetworkCommunicator} {d : Nat} {result : Packet × Bool}
    {call : Nat} (hb : Book cfg nm m) (hsv : Served cfg answer s m)
    (ho : OnlyAnswers cfg answer s m (.dispatch d (.message result call)))
    (h : dispatchMessage cfg m d result call = some m') : Served cfg answer s m' := by
  unfold dispatchMessage at h
  split at h
  · rename_i n e hd
    have hhold : (m.dispatchers d).holding = some (n, e) := by
      rw [hd]
      rfl
    split at h
    · rename_i hslot
      split at h
      · rename_i hresult
        split at h
        · rename_i hidle
          cases h
          obtain ⟨hlt, harr⟩ := hb.hand d n e hhold
          have hempty : pendingCalls s m call = none := by
            unfold pendingCalls
            rw [hidle]
            rfl
          have hawait : ∀ k, AwaitsDispatch (m.setDispatcher d (.calling call)) k →
              AwaitsDispatch m k ∧ k ≠ n := by
            intro k hk
            refine ⟨awaitsDispatch_setDispatcher hk (fun _ hv => by cases hv), ?_⟩
            rintro rfl
            rcases hk with hle | ⟨d', e', hh⟩
            · exact absurd hlt (Nat.not_lt.mpr hle)
            · rcases holding_setDispatcher hh with ⟨_, hnew⟩ | ⟨hne, hold⟩
              · cases hnew
              · exact hne (hb.hand_unique d' d k e' e hold hhold)
          by_cases hs : e.1 = s
          · subst hs
            have hanswer := ho n e.2 hd hslot hresult
            refine ⟨fun k q => ?_, ?_⟩
            · by_cases hk : k = call
              · subst hk
                simp
              · simpa [hk] using hsv.plain k q
            · have hput := hsv.custody.put
                (y := cfg.traits.set_msgid result.1 (cfg.traits.msgid result.1))
                (.inr ⟨d, e, hhold⟩) harr ⟨rfl, hslot, hanswer⟩ hempty hawait
              have hplaces := pendingCalls_setCall (m := m) e.1 call (.assign e.1
                (cfg.traits.set_msgid result.1 (cfg.traits.msgid result.1)) false)
              have hself : (CallPc.assign e.1
                  (cfg.traits.set_msgid result.1 (cfg.traits.msgid result.1)) false).pendingOn e.1 =
                    some (cfg.traits.set_msgid result.1 (cfg.traits.msgid result.1)) :=
                if_pos rfl
              rw [hself] at hplaces
              show Custody _ m.arrivals _ (pendingCalls e.1 (m.setCall call _)) _
              rw [hplaces]
              exact hput
          · refine hsv.calls_update (.assign e.1
              (cfg.traits.set_msgid result.1 (cfg.traits.msgid result.1)) false) rfl rfl
              (fun k hk => (hawait k hk).1) rfl (by simp) ?_
            rw [hempty]
            exact (if_neg hs).symm
        · cases h
      · cases h
        exact hsv.congr (l := []) rfl rfl (List.append_nil _).symm
          fun k hk => awaitsDispatch_setDispatcher hk fun _ hv => by cases hv
    · split at h <;> cases h
      · refine hsv.congr (l := []) rfl rfl (List.append_nil _).symm
          fun k hk => awaitsDispatch_setDispatcher hk fun v hv => ?_
        rw [hd]
        exact hv
      · exact hsv.congr (l := []) rfl rfl (List.append_nil _).symm
          fun k hk => awaitsDispatch_setDispatcher hk fun _ hv => by cases hv
  · cases h

theorem dispatchStep_served {nm : CNetworkCommunicator} {d : Nat} {a : DispatchAct Packet}
    (hb : Book cfg nm m) (hsv : Served cfg answer s m)
    (ho : OnlyAnswers cfg answer s m (.dispatch d a)) (h : dispatchStep cfg m d a = some m') :
    Served cfg answer s m' := by
  cases a with
  | pop =>
    obtain ⟨e, rest, _, _, rfl⟩ := dispatchPop_cases h
    refine hsv.congr (l := []) rfl rfl (List.append_nil _).symm fun n hn => ?_
    rcases hn with hle | ⟨d', e', hh⟩
    · exact .inl (Nat.le_of_succ_le hle)
    · rcases holding_setDispatcher hh with ⟨_, hnew⟩ | ⟨_, hold⟩
      · cases hnew
        exact .inl (Nat.le_refl _)
      · exact .inr ⟨d', e', hold⟩
  | message result call => exact dispatchMessage_served hb hsv ho h
  | ret =>
    obtain ⟨c, _, rfl⟩ := dispatchReturn_cases h
    exact hsv.congr (l := []) rfl rfl (List.append_nil _).symm
      fun k hk => awaitsDispatch_setDispatcher hk fun _ hv => by cases hv
  | store time =>
    obtain ⟨n, i, e, _, rfl⟩ := dispatchStore_cases h
    exact hsv.congr (l := []) rfl rfl (List.append_nil _).symm
      fun k hk => awaitsDispatch_setDispatcher hk fun _ hv => by cases hv

/-- **A step answers no request twice.** -/
theorem step_served {nm : CNetworkCommunicator} {e : Event Packet} (hb : Book cfg nm m)
    (hsv : Served cfg answer s m) (h : step cfg m e = some m')
    (ho : OnlyAnswers cfg answer s m e) : Served cfg answer s m' := by
  cases e with
  | send c a => exact sendStep_served hsv ho h
  | sender a =>
    have hframe := senderStep_frame h
    refine hsv.congr (l := []) hframe.calls hframe.enqueued ?_ fun n hn => ?_
    · rw [(senderStep_responses h).arrivals_eq, List.append_nil]
    · rwa [awaitsDispatch_congr hframe.taken hframe.dispatchers] at hn
  | recv n a =>
    have hframe := recvStep_frame h
    obtain ⟨l, harr, _⟩ := recvStep_arrivals h
    refine hsv.congr hframe.calls hframe.enqueued harr fun k hk => ?_
    rwa [awaitsDispatch_congr hframe.taken hframe.dispatchers] at hk
  | dispatch d a => exact dispatchStep_served hb hsv ho h
  | receivePacket i id =>
    cases h
    rcases receivePacket_cases m i id with heq | ⟨f, v, _, _, heq⟩ <;> rw [heq]
    · exact hsv
    · exact hsv.congr (l := []) rfl rfl (List.append_nil _).symm fun k hk => hk
  | disconnect i =>
    cases h
    rcases disconnect_cases m i with heq | ⟨nm', _, heq⟩ <;> rw [heq]
    · exact hsv
    · exact hsv.congr (l := []) rfl rfl (List.append_nil _).symm fun k hk => hk
  | setIsUseServerBusyWaiting b =>
    cases h
    exact hsv.congr (l := []) rfl rfl (List.append_nil _).symm fun k hk => hk

theorem create_served (nm : CNetworkCommunicator) (announced : SockIndex → Bool) (use : Bool) :
    Served cfg answer s (create nm announced use : CGPBManagerV2 Packet) :=
  ⟨nofun, custody_start _ _⟩

end Steps

end IMonPlatform
