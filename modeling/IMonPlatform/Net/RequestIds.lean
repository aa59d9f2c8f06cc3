import IMonPlatform.Net.Handles
import IMonPlatform.Net.LinkedPrograms

/-!
# Every call is told its own answer

With `autoAssignMsgID` the id of a packet is the next number of the manager's 32-bit counter.  All
calls of a program share it, those on its other connections too.

* `AutoOn` — on a socket packets are sent with such ids only, and no slot answers.
* `Numbered`, `step_numbered` — the calls of the socket have different numbers of the counter.
* `Numbered.nodup` — their ids are different while the counter has not come round.
* `own_answers` — then what `receivePacket` returns for the id that a `sendPacket` call has returned
  is the answer to the packet of this call.
-/

set_option autoImplicit false

namespace IMonPlatform

open Framing CGPBManagerV2 CNetworkCommunicator Transition TaggedLog Matching

variable {Packet ReqCode ResCode : Type} {cfg : Config Packet ReqCode ResCode}
  {m m' : CGPBManagerV2 Packet} {s : Sock} {num : Nat → Nat} {k : Nat}

/-! ## Numbers of the counter -/

/-- On `s` packets are sent with automatic ids, and slots do not answer. -/
def AutoOn (cfg : Config Packet ReqCode ResCode) [DecidableEq ReqCode] [DecidableEq ResCode]
    (s : Sock) (m : CGPBManagerV2 Packet) : Event Packet → Prop
  | .send _ (.start target _ auto) => target.resolve m = some s → auto = true
  | .dispatch d (.message result _) => ∀ n q, m.dispatchers d = .popped n (s, q) →
      isProcess cfg q = true → result.2 = false
  | _ => True

/-- The packet of a call for `s`, with its id. -/
def PacketOf (m : CGPBManagerV2 Packet) (s : Sock) (c : Nat) (p : Packet) : Prop :=
  m.calls c = .push s p ∨ (c, s, p) ∈ m.log.enqueued

/-- `k` ids have been assigned, and the one of the call `c` on `s` was number `num c + 1`. -/
structure Numbered (cfg : Config Packet ReqCode ResCode) (s : Sock) (num : Nat → Nat)
    (m : CGPBManagerV2 Packet) (k : Nat) : Prop where
  counter : m.globalMessageID = i32 k
  calls : CallsOk cfg m
  auto : ∀ c p, m.calls c ≠ .assign s p false
  ids : ∀ c p, PacketOf m s c p → num c < k ∧ cfg.traits.msgid p = i32 (1 + num c : Nat)
  different : ∀ c p c' p', PacketOf m s c p → PacketOf m s c' p' → num c = num c' → c = c'

theorem CallsOk.entries_le (h : CallsOk cfg m) (c : Nat) :
    (entriesOf m.log.enqueued c).length ≤ 1 := by
  have hcall := h c
  cases hpc : m.calls c with
  | idle | assign | push =>
    rw [hpc] at hcall
    have hnone : entriesOf m.log.enqueued c = [] := hcall
    simp [hnone]
  | ret p =>
    rw [hpc] at hcall
    obtain ⟨s, hs⟩ := hcall
    simp [hs]
  | done r =>
    rw [hpc] at hcall
    rcases hcall with ⟨hnone, -⟩ | ⟨s, p, hs, -⟩
    · simp [hnone]
    · simp [hs]

/-- **Different ids**, while the counter has not come round. -/
theorem Numbered.nodup (h : Numbered cfg s num m k) (hk : k ≤ 2 ^ 32) :
    ((enqueuedFor m s).map cfg.traits.msgid).Nodup := by
  have hauthors := authors_nodup h.calls.entries_le
  have hfor : enqueuedFor m s = (m.log.enqueued.filter fun e => e.2.1 = s).map fun e => e.2.2 := by
    simp [enqueuedFor, entriesOf, List.filter_map, Function.comp_def]
  rw [hfor, List.map_map]
  refine List.Nodup.map_on ?_ (hauthors.of_map.filter _)
  rintro ⟨c, s₁, p⟩ hp ⟨c', s₂, p'⟩ hp' hid
  obtain ⟨hmem, rfl⟩ : (c, s₁, p) ∈ m.log.enqueued ∧ s₁ = s := by simpa using hp
  obtain ⟨hmem', rfl⟩ : (c', s₂, p') ∈ m.log.enqueued ∧ s₂ = s₁ := by simpa using hp'
  obtain ⟨hlt, hp⟩ := h.ids c p (.inr hmem)
  obtain ⟨hlt', hp'⟩ := h.ids c' p' (.inr hmem')
  have hnum : num c = num c' := by
    refine i32_add_injOn 1 hk (Finset.mem_coe.mpr (Finset.mem_range.mpr hlt))
      (Finset.mem_coe.mpr (Finset.mem_range.mpr hlt')) ?_
    have hsame : cfg.traits.msgid p = cfg.traits.msgid p' := hid
    rw [hp, hp'] at hsame
    simpa using hsame
  have hcall := h.different c p c' p' (.inr hmem) (.inr hmem') hnum
  exact List.inj_on_of_nodup_map hauthors hmem hmem' hcall

/-! ## Steps -/

/-- What a step does that assigns no id for `s`. -/
theorem Numbered.keeps (h : Numbered cfg s num m k) (hcounter : m'.globalMessageID = i32 k)
    (hcalls : CallsOk cfg m') (hauto : ∀ c p, m'.calls c ≠ .assign s p false)
    (hold : ∀ c p, PacketOf m' s c p → PacketOf m s c p) : Numbered cfg s num m' k :=
  ⟨hcounter, hcalls, hauto, fun c p hp => h.ids c p (hold c p hp),
    fun c p c' p' hp hp' => h.different c p c' p' (hold c p hp) (hold c' p' hp')⟩

/-- A call that has no id yet has pushed nothing. -/
theorem CallsOk.assign_entries (h : CallsOk cfg m) {c : Nat} {s' : Sock} {p : Packet} {auto : Bool}
    (hpc : m.calls c = .assign s' p auto) (x : Sock × Packet) : (c, x) ∉ m.log.enqueued := by
  intro hmem
  have hnone : entriesOf m.log.enqueued c = [] := by
    have hcall := h c
    rwa [hpc] at hcall
  have hentry := mem_entriesOf.mpr hmem
  rw [hnone] at hentry
  cases hentry

/-- A call has moved on and has no packet for `s`. -/
theorem packetOf_update {c : Nat} {pc : CallPc Packet} (hpc : ∀ p, pc ≠ .push s p)
    (hcalls : m'.calls = Function.update m.calls c pc) (hlog : m'.log.enqueued = m.log.enqueued)
    {c' : Nat} {p : Packet} (h : PacketOf m' s c' p) : PacketOf m s c' p := by
  rcases h with h | h
  · by_cases hc : c' = c
    · subst hc
      rw [hcalls, Function.update_self] at h
      exact absurd h (hpc p)
    · rw [hcalls, Function.update_of_ne hc] at h
      exact .inl h
  · exact .inr (hlog ▸ h)

theorem auto_update {c : Nat} {pc : CallPc Packet} (h : ∀ c p, m.calls c ≠ .assign s p false)
    (hpc : ∀ p, pc ≠ .assign s p false) (hcalls : m'.calls = Function.update m.calls c pc)
    (c' : Nat) (p : Packet) : m'.calls c' ≠ .assign s p false := by
  by_cases hc : c' = c
  · subst hc
    rw [hcalls, Function.update_self]
    exact hpc p
  · rw [hcalls, Function.update_of_ne hc]
    exact h c' p

/-- **An id is assigned**: the next number of the counter. -/
theorem Numbered.assign (h : Numbered cfg s num m k) {c : Nat} {s' : Sock} {p : Packet}
    (hpc : m.calls c = .assign s' p true) (hcalls : CallsOk cfg m')
    (hm : m' = { m with globalMessageID := interlockedIncrement m.globalMessageID }.setCall c
      (.push s' (cfg.traits.set_msgid p (interlockedIncrement m.globalMessageID)))) :
    Numbered cfg s (Function.update num c k) m' (k + 1) := by
  have hnext : interlockedIncrement m.globalMessageID = i32 (1 + k : Nat) := by
    rw [h.counter]
    simp [interlockedIncrement, i32, Int.add_comm]
  -- the call has had no packet before
  have hfirst : ∀ q, ¬ PacketOf m s c q := by
    rintro q (hpush | hmem)
    · rw [hpc] at hpush
      cases hpush
    · exact h.calls.assign_entries hpc (s, q) hmem
  have hother : ∀ {c'} {q}, c' ≠ c → PacketOf m' s c' q → PacketOf m s c' q := by
    rintro c' q hc (hpush | hmem)
    · rw [hm] at hpush
      simp only [setCall, Function.update_of_ne hc] at hpush
      exact .inl hpush
    · rw [hm] at hmem
      exact .inr hmem
  have hown : ∀ {q}, PacketOf m' s c q → cfg.traits.msgid q = i32 (1 + k : Nat) := by
    rintro q (hpush | hmem)
    · rw [hm] at hpush
      simp only [setCall, Function.update_self, CallPc.push.injEq] at hpush
      rw [← hpush.2, cfg.traits.msgid_set_msgid, hnext]
    · rw [hm] at hmem
      exact absurd (.inr hmem) (hfirst q)
  refine ⟨?_, hcalls, ?_, fun c' q hq => ?_, fun c₁ p₁ c₂ p₂ h₁ h₂ hnum => ?_⟩
  · rw [hm, Nat.add_comm]
    exact hnext
  · rw [hm]
    exact auto_update h.auto (fun _ hp => by cases hp) rfl
  · by_cases hc : c' = c
    · subst hc
      rw [Function.update_self]
      exact ⟨Nat.lt_succ_self k, hown hq⟩
    · rw [Function.update_of_ne hc]
      obtain ⟨hlt, hid⟩ := h.ids c' q (hother hc hq)
      exact ⟨Nat.lt_succ_of_lt hlt, hid⟩
  · by_cases hc₁ : c₁ = c <;> by_cases hc₂ : c₂ = c
    · rw [hc₁, hc₂]
    · rw [hc₁, Function.update_self, Function.update_of_ne hc₂] at hnum
      exact absurd (h.ids c₂ p₂ (hother hc₂ h₂)).1 (by omega)
    · rw [hc₂, Function.update_self, Function.update_of_ne hc₁] at hnum
      exact absurd (h.ids c₁ p₁ (hother hc₁ h₁)).1 (by omega)
    · rw [Function.update_of_ne hc₁, Function.update_of_ne hc₂] at hnum
      exact h.different c₁ p₁ c₂ p₂ (hother hc₁ h₁) (hother hc₂ h₂) hnum

section Steps

variable [DecidableEq ReqCode] [DecidableEq ResCode]

/-- A slot's answer starts a call on the socket of the request. -/
theorem dispatchMessage_starts {d : Nat} {result : Packet × Bool} {call : Nat}
    (h : dispatchMessage cfg m d result call = some m') :
    m'.calls = m.calls ∨ ∃ n e p, m.dispatchers d = .popped n e ∧ isProcess cfg e.2 = true ∧
      result.2 = true ∧ m'.calls = Function.update m.calls call (.assign e.1 p false) := by
  unfold dispatchMessage at h
  split at h
  · rename_i n e hd
    split at h
    · rename_i hslot
      split at h
      · rename_i hresult
        split at h <;> cases h
        exact .inr ⟨n, e, _, hd, hslot, hresult, rfl⟩
      · cases h
        exact .inl rfl
    · split at h <;> cases h <;> exact .inl rfl
  · cases h

/-- A step by which no call of `sendPacket` moves on. -/
theorem autoId_eq_none {e : Event Packet} (h : ∀ c a, e ≠ .send c a) : autoId m e = none := by
  unfold autoId
  split
  · exact absurd rfl (h _ _)
  · rfl

theorem sendStep_numbered {c : Nat} {a : SendAct Packet} (h : Numbered cfg s num m k)
    (ha : AutoOn cfg s m (.send c a)) (hcalls : CallsOk cfg m')
    (hs : sendStep cfg m c a = some m') :
    ∃ num', Numbered cfg s num' m' (k + (autoId m (.send c a)).toList.length) := by
  cases a with
  | start target packet auto =>
    obtain ⟨_, pc, hpc, hstart⟩ := sendStart_resolves hs
    obtain ⟨nm, _, _, _, rfl, _⟩ := sendStart_cases hs
    refine ⟨num, h.keeps h.counter hcalls (auto_update h.auto ?_ hpc) fun c' p hp =>
      packetOf_update ?_ hpc rfl hp⟩
    · rintro p rfl
      rcases hstart with hdone | ⟨s', hs', hassign⟩
      · cases hdone
      · cases hassign
        cases ha hs'
    · rintro p rfl
      rcases hstart with hdone | ⟨_, _, hassign⟩
      · cases hdone
      · cases hassign
  | assign =>
    obtain ⟨s', p, ⟨hpc, hm⟩ | ⟨hpc, rfl⟩⟩ := sendAssign_ids hs
    · refine ⟨Function.update num c k, ?_⟩
      rw [autoId, hpc]
      exact h.assign hpc hcalls hm
    · have hother : s' ≠ s := by
        rintro rfl
        exact h.auto c p hpc
      refine ⟨num, ?_⟩
      rw [autoId, hpc]
      refine h.keeps h.counter hcalls (auto_update h.auto (fun _ hp => by cases hp) rfl) ?_
      intro c' q hq
      have hcall : (m.setCall c (.push s' p)).calls = Function.update m.calls c (.push s' p) := rfl
      refine packetOf_update (fun q hpush => ?_) hcall rfl hq
      cases hpush
      exact hother rfl
  | push =>
    obtain ⟨s', p, hpc, rfl⟩ := sendPush_cases hs
    refine ⟨num, h.keeps h.counter hcalls (auto_update h.auto (fun _ hp => by cases hp) rfl)
      fun c' q hq => ?_⟩
    rcases hq with hpush | hmem
    · by_cases hc : c' = c
      · subst hc
        simp at hpush
      · simp only [setCall, Function.update_of_ne hc] at hpush
        exact .inl hpush
    · rcases List.mem_append.mp hmem with hmem | hmem
      · exact .inr hmem
      · cases List.mem_singleton.mp hmem
        exact .inl hpc
  | ret =>
    obtain ⟨p, _, rfl⟩ := sendReturn_cases hs
    refine ⟨num, h.keeps h.counter hcalls (auto_update h.auto (fun _ hp => by cases hp) rfl) ?_⟩
    intro c' q hq
    have hcall : (m.setCall c (.done (cfg.traits.msgid p))).calls =
        Function.update m.calls c (.done (cfg.traits.msgid p)) := rfl
    exact packetOf_update (fun _ hpush => by cases hpush) hcall rfl hq

/-- No call without an automatic id starts on `s`. -/
theorem step_auto {e : Event Packet} (h : ∀ c p, m.calls c ≠ .assign s p false)
    (hno : ∀ c a, e ≠ .send c a) (ha : AutoOn cfg s m e)
    (hs : CGPBManagerV2.step cfg m e = some m') (c : Nat) (p : Packet) :
    m'.calls c ≠ .assign s p false := by
  cases e with
  | send c' a => exact absurd rfl (hno c' a)
  | sender a =>
    rw [(senderStep_frame hs).calls]
    exact h c p
  | recv n a =>
    rw [(recvStep_frame hs).calls]
    exact h c p
  | dispatch d a =>
    cases a with
    | pop =>
      obtain ⟨_, _, _, _, rfl⟩ := dispatchPop_cases hs
      exact h c p
    | message result call =>
      rcases dispatchMessage_starts hs with hsame | ⟨n, ⟨s', q⟩, p', hd, hslot, hresult, hcalls⟩
      · rw [hsame]
        exact h c p
      · refine auto_update h ?_ hcalls c p
        intro p hp
        cases hp
        cases (ha n q hd hslot).symm.trans hresult
    | ret =>
      obtain ⟨_, _, rfl⟩ := dispatchReturn_cases hs
      exact h c p
    | store time =>
      obtain ⟨_, _, _, _, rfl⟩ := dispatchStore_cases hs
      exact h c p
  | receivePacket i id =>
    cases hs
    rcases receivePacket_cases m i id with heq | ⟨_, _, _, _, heq⟩ <;> rw [heq] <;> exact h c p
  | disconnect i =>
    cases hs
    rcases disconnect_cases m i with heq | ⟨_, _, heq⟩ <;> rw [heq] <;> exact h c p
  | setIsUseServerBusyWaiting b =>
    cases hs
    exact h c p

/-- **Every step** keeps the numbers, and counts on when it assigns an id. -/
theorem step_numbered {e : Event Packet} (h : Numbered cfg s num m k) (ha : AutoOn cfg s m e)
    (hs : CGPBManagerV2.step cfg m e = some m') :
    ∃ num', Numbered cfg s num' m' (k + (autoId m e).toList.length) := by
  have hcalls := step_calls h.calls hs
  rcases step_counter_calls hs with ⟨c, a, rfl, hsend⟩ | ⟨hno, hcounter, hlog, hmoved⟩
  · exact sendStep_numbered h ha hcalls hsend
  · refine ⟨num, ?_⟩
    rw [autoId_eq_none hno]
    refine h.keeps (hcounter.trans h.counter) hcalls (step_auto h.auto hno ha hs) fun c p hp => ?_
    rcases hmoved with hsame | ⟨c, s', p, _, hstart⟩
    · rwa [PacketOf, hsame, hlog] at hp
    · exact packetOf_update (fun _ hp => by cases hp) hstart hlog hp

end Steps

theorem create_numbered (nm : CNetworkCommunicator) (announced : SockIndex → Bool) (use : Bool) :
    Numbered cfg s (fun _ => 0) (create nm announced use : CGPBManagerV2 Packet) 0 where
  counter := rfl
  calls := fun _ => rfl
  auto := fun _ _ h => by cases h
  ids := fun _ _ h => by rcases h with h | h <;> cases h
  different := fun _ _ _ _ h => by rcases h with h | h <;> cases h

/-! ## Runs of the network -/

section Runs

variable {Program Link : Type} [DecidableEq ReqCode] [DecidableEq ResCode] [DecidableEq Program]
  [DecidableEq Link] {T : Topology Packet ReqCode ResCode Program Link}
  {st st' : Network Packet Program Link}

/-- The client of a connection sends its requests on it with automatic ids. -/
def AutoClient (T : Topology Packet ReqCode ResCode Program Link) (l : Link)
    (st : Network Packet Program Link) : NetworkEvent Packet Program Link → Prop
  | .manager v e => v = T.program l .client →
    AutoOn (T.config v) (T.sock l .client) (st.managers v) e
  | .link .. => True

/-- The id that a step assigns in the program `v`. -/
def idOf (v : Program) (st : Network Packet Program Link) :
    NetworkEvent Packet Program Link → Option Int
  | .manager w e => if w = v then autoId (st.managers v) e else none
  | .link .. => none

/-- The ids that a program assigns along a run. -/
def idsOf (T : Topology Packet ReqCode ResCode Program Link) (v : Program)
    (st : Network Packet Program Link) (es : List (NetworkEvent Packet Program Link)) : List Int :=
  outputs (Network.step T) (idOf v) st es

/-- A step of the network is a step of a program's manager, or leaves it as it is. -/
theorem step_program {e : NetworkEvent Packet Program Link} (h : Network.step T st e = some st')
    (v : Program) :
    (st'.managers v = st.managers v ∧ idOf v st e = none) ∨
      ∃ e', CGPBManagerV2.step (T.config v) (st.managers v) e' = some (st'.managers v) ∧
        idOf v st e = autoId (st.managers v) e' ∧
        ∀ l, v = T.program l .client → AutoClient T l st e →
          AutoOn (T.config v) (T.sock l .client) (st.managers v) e' := by
  cases e with
  | manager w e =>
    simp only [Network.step] at h
    split at h
    · cases h
    · obtain ⟨m, hm, rfl⟩ := Option.map_eq_some_iff.mp h
      by_cases hw : w = v
      · subst hw
        refine .inr ⟨e, ?_, if_pos rfl, fun l hl ha => ha hl⟩
        simpa using hm
      · exact .inl ⟨Function.update_of_ne (Ne.symm hw) _ _, if_neg hw⟩
  | link l side a =>
    obtain ⟨d, hd, rfl⟩ := Option.map_eq_some_iff.mp h
    obtain ⟨p, rfl, hp⟩ := act_cases hd
    rw [Function.update_self]
    by_cases hv : v = T.program l side
    · subst hv
      have hput : (Network.put T st l side p).managers (T.program l side) = p.manager :=
        Function.update_self ..
      rw [hput]
      rcases hp with hp | ⟨n, buffer, hm⟩
      · exact .inl ⟨hp, rfl⟩
      · exact .inr ⟨_, hm, rfl, fun _ _ _ => trivial⟩
    · exact .inl ⟨Function.update_of_ne hv _ _, rfl⟩

/-- **The ids of a run**: as many numbers of the counter as were assigned. -/
theorem run_numbered {l : Link} : ∀ {es : List (NetworkEvent Packet Program Link)}
    {st : Network Packet Program Link} {num : Nat → Nat} {k : Nat},
    Numbered (T.config (T.program l .client)) (T.sock l .client) num
      (st.managers (T.program l .client)) k →
    Meets (Network.step T) (AutoClient T l) st es → run (Network.step T) st es = some st' →
    ∃ num', Numbered (T.config (T.program l .client)) (T.sock l .client) num'
      (st'.managers (T.program l .client)) (k + (idsOf T (T.program l .client) st es).length)
  | [], st, num, k, h, _, hrun => by
    cases hrun
    exact ⟨num, h⟩
  | e :: es, st, num, k, h, hmeets, hrun => by
    obtain ⟨st₁, hs, hrest⟩ := run_cons.mp hrun
    obtain ⟨ha, hmeets₁⟩ := hmeets st₁ hs
    have hstep : ∃ num₁, Numbered (T.config (T.program l .client)) (T.sock l .client) num₁
        (st₁.managers (T.program l .client))
        (k + (idOf (T.program l .client) st e).toList.length) := by
      rcases step_program hs (T.program l .client) with ⟨hsame, hid⟩ | ⟨e', hm, hid, hauto⟩
      · rw [hsame, hid]
        exact ⟨num, h⟩
      · rw [hid]
        exact step_numbered h (hauto l rfl ha) hm
    obtain ⟨num₁, h₁⟩ := hstep
    obtain ⟨num', h'⟩ := run_numbered h₁ hmeets₁ hrest
    refine ⟨num', ?_⟩
    rw [idsOf, outputs, hs, List.length_append, ← Nat.add_assoc]
    exact h'

/-- **Every call is told its own answer.**  The client of a connection sends on it with automatic
    ids, of which it assigns at most `2 ^ 32` on all its connections together; the program at the
    server's end sends on the connection only what its slots answer, with the id of the request, and
    ids survive the wire.  Then along every interleaving with the feature off, whatever happens on
    the other connections: what a successful `receivePacket` call returns for the id that a
    `sendPacket` call on the connection has returned is the answer to the packet of this call, and
    no id is answered twice. -/
theorem own_answers (T : Topology Packet ReqCode ResCode Program Link)
    (nm : Program → CNetworkCommunicator) (announced : Program → SockIndex → Bool)
    (es : List (NetworkEvent Packet Program Link)) (st : Network Packet Program Link)
    (hoff : ∀ e ∈ es, e.FeatureOff)
    (hrun : run (Network.step T) (Network.create nm announced) es = some st) (l : Link)
    (answer : Packet → Packet → Prop) (i : SockIndex)
    (hi : (nm (T.program l .client)).mapIndexToSocket.lookup i = some (T.sock l .client))
    (hserved : Meets (Network.step T) (LinkServed T answer l) (Network.create nm announced) es)
    (hauto : Meets (Network.step T) (AutoClient T l) (Network.create nm announced) es)
    (hids : (idsOf T (T.program l .client) (Network.create nm announced) es).length ≤ 2 ^ 32)
    (hkeep : ∀ q a, answer q a → T.traits.msgid a = T.traits.msgid q)
    (hwire : ∀ side, ∀ p ∈ Duplex.accepted (T.duplex l) (Network.view T st l) side, ∀ p',
      (T.duplex l).transmitted p = some p' → T.traits.msgid p' = T.traits.msgid p) :
    (∀ c p id a, (c, T.sock l .client, p) ∈ (st.managers (T.program l .client)).log.enqueued →
        (st.managers (T.program l .client)).calls c = .done id →
        ((i, id), a) ∈ (st.managers (T.program l .client)).log.returned →
        AnsweredCall (T.duplex l) answer p ((i, id), a)) ∧
      (((Network.view T st l).answers i).map fun call => call.1.2).Nodup := by
  obtain ⟨num, hnum⟩ := run_numbered (create_numbered _ _ _) hauto hrun
  rw [Nat.zero_add] at hnum
  have hdistinct : ((Duplex.accepted (T.duplex l) (Network.view T st l) .client).map
      T.traits.msgid).Nodup := hnum.nodup hids
  obtain ⟨hanswered, hnodup⟩ := ((network_sound T nm announced es st hoff hrun l).2 answer i hi
    hserved).byId hkeep hwire
  refine ⟨fun c p id a hsent hdone hreturned => ?_, hnodup hdistinct⟩
  have hcall : ((i, id), a) ∈ (Network.view T st l).answers i :=
    List.mem_filter.mpr ⟨hreturned, decide_eq_true rfl⟩
  obtain ⟨r, hr, hrequest, hid⟩ := hanswered.exists_source hcall
  -- the call has returned the id of its packet
  have hpushed := hnum.calls c
  rw [hdone] at hpushed
  have hsent' := mem_entriesOf.mpr hsent
  have hmsgid : T.traits.msgid p = id := by
    rcases hpushed with ⟨hnone, -⟩ | ⟨s', p', hone, hmsgid⟩
    · rw [hnone] at hsent'
      cases hsent'
    · rw [hone] at hsent'
      cases List.mem_singleton.mp hsent'
      exact hmsgid
  have hp : p ∈ Duplex.accepted (T.duplex l) (Network.view T st l) .client :=
    mem_entriesOf.mpr (List.mem_map.mpr ⟨_, hsent, rfl⟩)
  have hsame : r = p := List.inj_on_of_nodup_map hdistinct hr hp (hid.trans hmsgid.symm)
  exact hsame ▸ hrequest

end Runs

open SamplePacket in
theorem own_answers_twoClients :
    ∃ st, run (Network.step hub) disconnected twoClients = some st ∧
      AnsweredCall (hub.duplex 0) keepsId ⟨1, 5, 0⟩ ((1, 1), ⟨1, 0, 2⟩) := by
  obtain ⟨st, hrun, hsent, hdone, hreturned, hclient, hserver⟩ :
      ∃ st, run (Network.step hub) disconnected twoClients = some st ∧
        (0, 0, ⟨1, 5, 0⟩) ∈ (st.managers 1).log.enqueued ∧ (st.managers 1).calls 0 = .done 1 ∧
        ((1, 1), ⟨1, 0, 2⟩) ∈ (st.managers 1).log.returned ∧
        Duplex.accepted (hub.duplex 0) (Network.view hub st 0) .client = [⟨1, 5, 0⟩] ∧
        Duplex.accepted (hub.duplex 0) (Network.view hub st 0) .server = [⟨1, 0, 2⟩] :=
    ⟨_, rfl, List.mem_singleton.mpr rfl, rfl, List.mem_singleton.mpr rfl, rfl, rfl⟩
  have hauto : Meets (Network.step hub) (AutoClient hub 0) disconnected twoClients := by
    refine meets_of_forall _ _ ?_
    simp [twoClients, requestOn, answerOn, answerCallBy, sendCall, fetch, plainRound, AutoClient,
      AutoOn, hub]
  have hwire : ∀ side, ∀ p ∈ Duplex.accepted (hub.duplex 0) (Network.view hub st 0) side, ∀ p',
      (hub.duplex 0).transmitted p = some p' → hub.traits.msgid p' = hub.traits.msgid p := by
    intro side p hp p' hp'
    cases side with
    | client =>
      rw [hclient] at hp
      cases List.mem_singleton.mp hp
      cases hp'
      rfl
    | server =>
      rw [hserver] at hp
      cases List.mem_singleton.mp hp
      cases hp'
      rfl
  exact ⟨st, hrun, (own_answers hub (fun _ => registry) _ twoClients st twoClients_off hrun 0
    keepsId 1 (by decide) twoClients_served hauto (by decide) (fun _ _ h => h) hwire).1 0 _ 1 _
    hsent hdone hreturned⟩

end IMonPlatform
