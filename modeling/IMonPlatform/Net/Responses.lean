import IMonPlatform.Lib.TaggedLog
import IMonPlatform.Net.ManagerSteps

/-!
# Responses found by `receivePacket`

Packets without a message slot are moved by any number of `dispatchReceiveMessage` threads from
`_incomingQueue` to `_mapSocketToResPacket`, under the index of their socket and their message id,
and taken from there by `receivePacket`.  The insertion does not overwrite, so a packet is only
safe when no other one has its place.

* `Book` — the invariant that holds in every run: the queue is what remains of the arrivals, a
  packet is in at most one thread's hand, and what is stored or returned was dispatched.
* `Fate` — where a dispatched packet is: in the hand of its thread, stored, or returned by exactly
  one call.
* `response_correlation_iff` — every returned packet arrived on the socket of the index and has the
  message id asked for; and if the packets without a slot that arrive on one socket have different
  message ids, every packet looked up for a registered socket has exactly one of the three fates,
  exactly when the index found is positive.
-/

set_option autoImplicit false

namespace IMonPlatform

open CGPBManagerV2 CNetworkCommunicator Transition TaggedLog

variable {Packet ReqCode ResCode : Type} [DecidableEq ReqCode] [DecidableEq ResCode]
  {cfg : Config Packet ReqCode ResCode} {nm : CNetworkCommunicator}
  {m m' : CGPBManagerV2 Packet}

/-! ## Arrivals and places -/

/-- The packet that a dispatching thread has taken from the queue, with its position. -/
def DispatchPc.holding : DispatchPc Packet → Option (Nat × Sock × Packet)
  | .popped n e | .store n _ e => some (n, e)
  | _ => none

namespace CGPBManagerV2

/-- The packets pushed to `_incomingQueue`, in order. -/
def arrivals (m : CGPBManagerV2 Packet) : List (Sock × Packet) := m.log.delivered.map Prod.snd

/-- What `receivePacket( i, id )` calls have returned. -/
def returnedFor (m : CGPBManagerV2 Packet) (i : SockIndex) (id : Int) : List Packet :=
  entriesOf m.log.returned (i, id)

end CGPBManagerV2

/-- Packets without a slot that arrived on one socket have different message ids. -/
def DistinctIds (cfg : Config Packet ReqCode ResCode) (m : CGPBManagerV2 Packet) : Prop :=
  ∀ (n n' : Nat) (e e' : Sock × Packet),
    m.arrivals[n]? = some e → m.arrivals[n']? = some e' →
    isProcess cfg e.2 = false → isProcess cfg e'.2 = false →
    e.1 = e'.1 → cfg.traits.msgid e.2 = cfg.traits.msgid e'.2 → n = n'

/-- Where a dispatched packet is: its position, its index and itself are given. -/
inductive Fate (cfg : Config Packet ReqCode ResCode) (m : CGPBManagerV2 Packet) (n : Nat)
    (i : SockIndex) (e : Sock × Packet) : Prop
  | held (d : Nat) (hd : m.dispatchers d = .store n i e)
      (hstored : m.resPacket i (cfg.traits.msgid e.2) = none)
      (hreturned : m.returnedFor i (cfg.traits.msgid e.2) = [])
  | stored (hd : ∀ d, (m.dispatchers d).holding ≠ some (n, e)) (time : Int)
      (hstored : m.resPacket i (cfg.traits.msgid e.2) = some (time, e.2))
      (hreturned : m.returnedFor i (cfg.traits.msgid e.2) = [])
  | returned (hd : ∀ d, (m.dispatchers d).holding ≠ some (n, e))
      (hstored : m.resPacket i (cfg.traits.msgid e.2) = none)
      (hreturned : m.returnedFor i (cfg.traits.msgid e.2) = [e.2])

/-! ## The invariant of every run -/

structure Book (cfg : Config Packet ReqCode ResCode) (nm : CNetworkCommunicator)
    (m : CGPBManagerV2 Packet) : Prop where
  registry : ∀ i s, m.networkManager.mapIndexToSocket.lookup i = some s →
    nm.mapIndexToSocket.lookup i = some s
  taken_le : m.log.taken ≤ m.arrivals.length
  queue : m.incomingQueue = m.arrivals.drop m.log.taken
  hand : ∀ d n e, (m.dispatchers d).holding = some (n, e) →
    n < m.log.taken ∧ m.arrivals[n]? = some e
  hand_unique : ∀ d d' n e e', (m.dispatchers d).holding = some (n, e) →
    (m.dispatchers d').holding = some (n, e') → d = d'
  popped_new : ∀ d n e, m.dispatchers d = .popped n e → ∀ x ∈ m.log.dispatched, x.1 ≠ n
  store_logged : ∀ d n i e, m.dispatchers d = .store n i e → (n, i, e) ∈ m.log.dispatched
  logged : ∀ x ∈ m.log.dispatched, x.1 < m.log.taken ∧ m.arrivals[x.1]? = some x.2.2 ∧
    isProcess cfg x.2.2.2 = false ∧ nm.mapIndexToSocket.lookup x.2.1 = some x.2.2.1
  logged_unique : ∀ x ∈ m.log.dispatched, ∀ y ∈ m.log.dispatched, x.1 = y.1 → x = y
  stored : ∀ i id v, m.resPacket i id = some v →
    cfg.traits.msgid v.2 = id ∧ ∃ n s, (n, i, s, v.2) ∈ m.log.dispatched
  returned : ∀ r ∈ m.log.returned,
    cfg.traits.msgid r.2 = r.1.2 ∧ ∃ n s, (n, r.1.1, s, r.2) ∈ m.log.dispatched

/-- The dispatched packets have one of the fates, as long as message ids are distinct. -/
def Fates (cfg : Config Packet ReqCode ResCode) (m : CGPBManagerV2 Packet) : Prop :=
  DistinctIds cfg m → ∀ x ∈ m.log.dispatched, Fate cfg m x.1 x.2.1 x.2.2

/-- With distinct ids, an index and a message id belong to one dispatched packet. -/
theorem Book.slot_unique (hb : Book cfg nm m) (hd : DistinctIds cfg m)
    {x y : Nat × SockIndex × Sock × Packet} (hx : x ∈ m.log.dispatched)
    (hy : y ∈ m.log.dispatched) (hi : x.2.1 = y.2.1)
    (hid : cfg.traits.msgid x.2.2.2 = cfg.traits.msgid y.2.2.2) : x = y := by
  obtain ⟨_, hax, hpx, hlx⟩ := hb.logged x hx
  obtain ⟨_, hay, hpy, hly⟩ := hb.logged y hy
  have hs : x.2.2.1 = y.2.2.1 := by
    rw [hi, hly] at hlx
    exact (Option.some.inj hlx).symm
  exact hb.logged_unique x hx y hy (hd _ _ _ _ hax hay hpx hpy hs hid)

theorem create_book (announced : SockIndex → Bool) (use : Bool) :
    Book cfg nm (create nm announced use : CGPBManagerV2 Packet) :=
  ⟨fun _ _ h => h, Nat.le_refl _, rfl, nofun, nofun, nofun, nofun, nofun, nofun, nofun, nofun⟩

/-- Data that the responses depend on, apart from the registry. -/
structure SameResponses (m m' : CGPBManagerV2 Packet) : Prop where
  incoming : m'.incomingQueue = m.incomingQueue
  delivered : m'.log.delivered = m.log.delivered
  dispatchers : m'.dispatchers = m.dispatchers
  taken : m'.log.taken = m.log.taken
  dispatched : m'.log.dispatched = m.log.dispatched
  responses : m'.mapSocketToResPacket = m.mapSocketToResPacket
  returned : m'.log.returned = m.log.returned

theorem SameResponses.arrivals_eq (h : SameResponses m m') : m'.arrivals = m.arrivals := by
  unfold arrivals
  rw [h.delivered]

theorem resPacket_congr (h : m'.mapSocketToResPacket = m.mapSocketToResPacket) :
    m'.resPacket = m.resPacket := by
  unfold resPacket
  rw [h]

theorem Book.congr (hb : Book cfg nm m) (h : SameResponses m m')
    (hreg : ∀ i s, m'.networkManager.mapIndexToSocket.lookup i = some s →
      m.networkManager.mapIndexToSocket.lookup i = some s) : Book cfg nm m' := by
  have harr := h.arrivals_eq
  have hres := resPacket_congr h.responses
  obtain ⟨h1, _, h3, h4, h5, _, h7⟩ := h
  refine ⟨fun i s hl => hb.registry i s (hreg i s hl), ?_, ?_, ?_, ?_, ?_, ?_, ?_, ?_, ?_, ?_⟩
  · rw [h4, harr]
    exact hb.taken_le
  · rw [h1, harr, h4]
    exact hb.queue
  · rw [h3, h4, harr]
    exact hb.hand
  · rw [h3]
    exact hb.hand_unique
  · rw [h3, h5]
    exact hb.popped_new
  · rw [h3, h5]
    exact hb.store_logged
  · rw [h5, h4, harr]
    exact hb.logged
  · rw [h5]
    exact hb.logged_unique
  · rw [hres, h5]
    exact hb.stored
  · rw [h7, h5]
    exact hb.returned

omit [DecidableEq ReqCode] [DecidableEq ResCode] in
/-- The fate of a packet depends on its place and on the threads that may hold it. -/
theorem Fate.congr {n : Nat} {i : SockIndex} {e : Sock × Packet} (hf : Fate cfg m n i e)
    (hres : m'.resPacket i (cfg.traits.msgid e.2) = m.resPacket i (cfg.traits.msgid e.2))
    (hret : m'.returnedFor i (cfg.traits.msgid e.2) = m.returnedFor i (cfg.traits.msgid e.2))
    (hheld : ∀ d, m.dispatchers d = .store n i e → m'.dispatchers d = .store n i e)
    (hnew : ∀ d, (m'.dispatchers d).holding = some (n, e) →
      (m.dispatchers d).holding = some (n, e)) : Fate cfg m' n i e := by
  cases hf with
  | held d hd hs hr => exact .held d (hheld d hd) (hres.trans hs) (hret.trans hr)
  | stored hd t hs hr =>
    exact .stored (fun d hd' => hd d (hnew d hd')) t (hres.trans hs) (hret.trans hr)
  | returned hd hs hr =>
    exact .returned (fun d hd' => hd d (hnew d hd')) (hres.trans hs) (hret.trans hr)

omit [DecidableEq ReqCode] [DecidableEq ResCode] in
/-- The fate of a packet that is not in the hand of the thread that moves. -/
theorem Fate.move {n d : Nat} {i : SockIndex} {e : Sock × Packet} {pc : DispatchPc Packet}
    (hf : Fate cfg m n i e) (hdisp : m'.dispatchers = Function.update m.dispatchers d pc)
    (hres : m'.resPacket i (cfg.traits.msgid e.2) = m.resPacket i (cfg.traits.msgid e.2))
    (hret : m'.returnedFor i (cfg.traits.msgid e.2) = m.returnedFor i (cfg.traits.msgid e.2))
    (hd : m.dispatchers d ≠ .store n i e)
    (hnew : pc.holding = some (n, e) → (m.dispatchers d).holding = some (n, e)) :
    Fate cfg m' n i e := by
  refine hf.congr hres hret (fun d' hst => ?_) (fun d' hh => ?_) <;> rw [hdisp] at *
  · have hne : d' ≠ d := by
      rintro rfl
      exact hd hst
    rw [Function.update_of_ne hne, hst]
  · by_cases hd' : d' = d
    · subst hd'
      rw [Function.update_self] at hh
      exact hnew hh
    · rwa [Function.update_of_ne hd'] at hh

theorem Fates.congr (hf : Fates cfg m) (h : SameResponses m m') : Fates cfg m' := by
  intro hd x hx
  unfold DistinctIds at hd
  rw [h.arrivals_eq] at hd
  apply (hf hd x (h.dispatched ▸ hx)).congr
  · rw [resPacket_congr h.responses]
  · unfold returnedFor
    rw [h.returned]
  · rw [h.dispatchers]
    exact fun d hd => hd
  · rw [h.dispatchers]
    exact fun d hd => hd

/-! ## Arrival -/

omit [DecidableEq ReqCode] in
/-- What a receiving call pushes goes to the end of the queue. -/
theorem recvStep_arrivals {n : Nat} {a : RecvAct} (h : recvStep cfg m n a = some m') :
    ∃ l, m'.arrivals = m.arrivals ++ l ∧ m'.incomingQueue = m.incomingQueue ++ l := by
  unfold arrivals
  cases a with
  | start s buffer =>
    obtain ⟨_, ⟨_, rfl⟩ | ⟨p, _, ⟨_, _, rfl⟩ | ⟨_, _, rfl⟩ | ⟨_, rfl⟩⟩⟩ := recvStart_cases h
    · exact ⟨[], by simp⟩
    · exact ⟨[], by simp⟩
    · exact ⟨[], by simp⟩
    · exact ⟨[(s, p)], by simp⟩
  | store =>
    obtain ⟨s, p, i, _, rfl⟩ := recvStore_cases h
    exact ⟨[], by simp⟩
  | locked =>
    obtain ⟨s, p, i, _, ⟨_, rfl⟩ | ⟨f, _, ⟨_, rfl⟩ | ⟨q, _, rfl⟩⟩⟩ := recvLocked_cases h
    · exact ⟨[], by simp⟩
    · exact ⟨[], by simp⟩
    · refine ⟨if m.isBusy then [] else [(s, p)], ?_⟩
      unfold noteAnswer
      cases m.isBusy <;> cases isBusyReply cfg p <;> simp

omit [DecidableEq ReqCode] [DecidableEq ResCode] in
theorem arrivals_append {l : List (Sock × Packet)} (h : m'.arrivals = m.arrivals ++ l) {n : Nat}
    {e : Sock × Packet} (he : m.arrivals[n]? = some e) : m'.arrivals[n]? = some e := by
  obtain ⟨hn, _⟩ := List.getElem?_eq_some_iff.mp he
  rw [h, List.getElem?_append_left hn, he]

theorem recvStep_book {n : Nat} {a : RecvAct} (hb : Book cfg nm m)
    (h : recvStep cfg m n a = some m') : Book cfg nm m' := by
  have hf := recvStep_frame h
  obtain ⟨l, harr, hq⟩ := recvStep_arrivals h
  have hres := resPacket_congr hf.responses
  refine ⟨?_, ?_, ?_, ?_, ?_, ?_, ?_, ?_, ?_, ?_, ?_⟩
  · rw [hf.network]
    exact hb.registry
  · rw [hf.taken, harr, List.length_append]
    exact Nat.le_add_right_of_le hb.taken_le
  · rw [hq, hb.queue, harr, hf.taken, List.drop_append_of_le_length hb.taken_le]
  · rw [hf.dispatchers, hf.taken]
    intro d k e hd
    obtain ⟨hk, he⟩ := hb.hand d k e hd
    exact ⟨hk, arrivals_append harr he⟩
  · rw [hf.dispatchers]
    exact hb.hand_unique
  · rw [hf.dispatchers, hf.dispatched]
    exact hb.popped_new
  · rw [hf.dispatchers, hf.dispatched]
    exact hb.store_logged
  · rw [hf.dispatched, hf.taken]
    intro x hx
    obtain ⟨h1, h2, h3⟩ := hb.logged x hx
    exact ⟨h1, arrivals_append harr h2, h3⟩
  · rw [hf.dispatched]
    exact hb.logged_unique
  · rw [hres, hf.dispatched]
    exact hb.stored
  · rw [hf.returned, hf.dispatched]
    exact hb.returned

theorem recvStep_fates {n : Nat} {a : RecvAct} (hfs : Fates cfg m)
    (h : recvStep cfg m n a = some m') : Fates cfg m' := by
  have hf := recvStep_frame h
  obtain ⟨l, harr, _⟩ := recvStep_arrivals h
  intro hd x hx
  have hd' : DistinctIds cfg m := fun k k' e e' he he' =>
    hd k k' e e' (arrivals_append harr he) (arrivals_append harr he')
  apply (hfs hd' x (hf.dispatched ▸ hx)).congr
  · rw [resPacket_congr hf.responses]
  · unfold returnedFor
    rw [hf.returned]
  · rw [hf.dispatchers]
    exact fun d hd => hd
  · rw [hf.dispatchers]
    exact fun d hd => hd

/-! ## Dispatch -/

omit [DecidableEq ReqCode] [DecidableEq ResCode] in
/-- A thread moves: what the threads hold afterwards. -/
theorem holding_setDispatcher {d d' : Nat} {pc : DispatchPc Packet} {v : Nat × Sock × Packet}
    (h : ((m.setDispatcher d pc).dispatchers d').holding = some v) :
    d' = d ∧ pc.holding = some v ∨ d' ≠ d ∧ (m.dispatchers d').holding = some v := by
  by_cases hd : d' = d
  · subst hd
    exact .inl ⟨rfl, by simpa using h⟩
  · exact .inr ⟨hd, by simpa [hd] using h⟩

omit [DecidableEq ReqCode] [DecidableEq ResCode] in
theorem dispatchers_setDispatcher {d d' : Nat} {pc pc' : DispatchPc Packet}
    (h : (m.setDispatcher d pc).dispatchers d' = pc') :
    d' = d ∧ pc = pc' ∨ d' ≠ d ∧ m.dispatchers d' = pc' := by
  by_cases hd : d' = d
  · subst hd
    exact .inl ⟨rfl, by simpa using h⟩
  · exact .inr ⟨hd, by simpa [hd] using h⟩

theorem dispatchPop_book {d : Nat} (hb : Book cfg nm m) (h : dispatchPop m d = some m') :
    Book cfg nm m' := by
  obtain ⟨e, rest, _, hq, rfl⟩ := dispatchPop_cases h
  have hdrop := hb.queue.symm.trans hq
  have hlt : m.log.taken < m.arrivals.length := by
    by_contra hge
    rw [List.drop_eq_nil_of_le (Nat.le_of_not_lt hge)] at hdrop
    cases hdrop
  rw [List.drop_eq_getElem_cons hlt, List.cons.injEq] at hdrop
  refine { hb with
    taken_le := hlt, queue := hdrop.2.symm, hand := ?_, hand_unique := ?_,
    popped_new := ?_, store_logged := ?_, logged := ?_ }
  · intro d' n e' hh
    rcases holding_setDispatcher hh with ⟨_, hpc⟩ | ⟨_, hold⟩
    · cases hpc
      exact ⟨Nat.lt_succ_self _, List.getElem?_eq_some_iff.mpr ⟨hlt, hdrop.1⟩⟩
    · obtain ⟨hn, he⟩ := hb.hand d' n e' hold
      exact ⟨Nat.lt_succ_of_lt hn, he⟩
  · -- the new position is behind all positions in other hands
    intro d₁ d₂ n e₁ e₂ h₁ h₂
    rcases holding_setDispatcher h₁ with ⟨hd₁, hpc₁⟩ | ⟨_, hold₁⟩ <;>
      rcases holding_setDispatcher h₂ with ⟨hd₂, hpc₂⟩ | ⟨_, hold₂⟩
    · exact hd₁.trans hd₂.symm
    · cases hpc₁
      exact absurd (hb.hand d₂ _ _ hold₂).1 (Nat.lt_irrefl _)
    · cases hpc₂
      exact absurd (hb.hand d₁ _ _ hold₁).1 (Nat.lt_irrefl _)
    · exact hb.hand_unique d₁ d₂ n e₁ e₂ hold₁ hold₂
  · intro d' n e' hh x hx
    rcases dispatchers_setDispatcher hh with ⟨_, hpc⟩ | ⟨_, hold⟩
    · cases hpc
      exact Nat.ne_of_lt (hb.logged x hx).1
    · exact hb.popped_new d' n e' hold x hx
  · intro d' n i e' hh
    rcases dispatchers_setDispatcher hh with ⟨_, hpc⟩ | ⟨_, hold⟩
    · cases hpc
    · exact hb.store_logged d' n i e' hold
  · intro x hx
    obtain ⟨h1, h2⟩ := hb.logged x hx
    exact ⟨Nat.lt_succ_of_lt h1, h2⟩

theorem dispatchPop_fates {d : Nat} (hb : Book cfg nm m) (hf : Fates cfg m)
    (h : dispatchPop m d = some m') : Fates cfg m' := by
  obtain ⟨e, rest, hd, _, rfl⟩ := dispatchPop_cases h
  intro hdist x hx
  refine (hf hdist x hx).move rfl rfl rfl (by simp [hd]) (fun hpc => ?_)
  -- the popped packet is none of the dispatched ones
  have hn : m.log.taken = x.1 := congrArg Prod.fst (Option.some.inj hpc)
  exact absurd (hb.logged x hx).1 (hn ▸ Nat.lt_irrefl _)

/-- A thread lets its packet go. -/
theorem Book.release {d : Nat} {pc : DispatchPc Packet} (hb : Book cfg nm m)
    (hpc : pc.holding = none) : Book cfg nm (m.setDispatcher d pc) := by
  have hold : ∀ {d' v}, ((m.setDispatcher d pc).dispatchers d').holding = some v →
      (m.dispatchers d').holding = some v := by
    intro d' v hh
    rcases holding_setDispatcher hh with ⟨_, hnew⟩ | ⟨_, hold⟩
    · rw [hpc] at hnew
      cases hnew
    · exact hold
  refine { hb with
    hand := fun d' n e hh => hb.hand d' n e (hold hh)
    hand_unique := fun d₁ d₂ n e₁ e₂ h₁ h₂ => hb.hand_unique d₁ d₂ n e₁ e₂ (hold h₁) (hold h₂)
    popped_new := ?_
    store_logged := ?_ }
  · intro d' n e hh
    rcases dispatchers_setDispatcher hh with ⟨_, rfl⟩ | ⟨_, hold⟩
    · cases hpc
    · exact hb.popped_new d' n e hold
  · intro d' n i e hh
    rcases dispatchers_setDispatcher hh with ⟨_, rfl⟩ | ⟨_, hold⟩
    · cases hpc
    · exact hb.store_logged d' n i e hold

theorem Fates.release {d : Nat} {pc : DispatchPc Packet} (hf : Fates cfg m)
    (hd : ∀ n i e, m.dispatchers d ≠ .store n i e) (hpc : pc.holding = none) :
    Fates cfg (m.setDispatcher d pc) := by
  intro hdist x hx
  exact (hf hdist x hx).move rfl rfl rfl (hd _ _ _) (by simp [hpc])

/-- A popped packet without a slot is dispatched to index `i`. -/
theorem Book.dispatch {d n : Nat} {i : SockIndex} {e : Sock × Packet} (hb : Book cfg nm m)
    (hd : m.dispatchers d = .popped n e) (hslot : isProcess cfg e.2 = false)
    (hreg : nm.mapIndexToSocket.lookup i = some e.1) :
    Book cfg nm ((m.noteDispatch n i e).setDispatcher d (.store n i e)) := by
  have hhold : (m.dispatchers d).holding = some (n, e) := by rw [hd]; rfl
  obtain ⟨hn, he⟩ := hb.hand d n e hhold
  have hold : ∀ {d' v}, ((m.setDispatcher d (.store n i e)).dispatchers d').holding = some v →
      (m.dispatchers d').holding = some v := by
    intro d' v hh
    rcases holding_setDispatcher hh with ⟨rfl, hnew⟩ | ⟨_, hold⟩
    · exact hhold.trans hnew
    · exact hold
  refine { hb with
    hand := fun d' n' e' hh => hb.hand d' n' e' (hold hh)
    hand_unique := fun d₁ d₂ n' e₁ e₂ h₁ h₂ => hb.hand_unique d₁ d₂ n' e₁ e₂ (hold h₁) (hold h₂)
    popped_new := ?_
    store_logged := ?_
    logged := ?_
    logged_unique := ?_
    stored := fun i id v hv => ?_
    returned := fun r hr => ?_ }
  · intro d' n' e' hh x hx
    rcases dispatchers_setDispatcher hh with ⟨_, hpc⟩ | ⟨hne, hpop⟩
    · cases hpc
    · rcases List.mem_append.mp hx with hx | hx
      · exact hb.popped_new d' n' e' hpop x hx
      · -- another thread has another packet
        rw [List.mem_singleton.mp hx]
        rintro rfl
        have hpop : m.dispatchers d' = .popped n e' := hpop
        exact hne (hb.hand_unique d' d n e' e (by rw [hpop]; rfl) hhold)
  · intro d' n' i' e' hh
    apply List.mem_append.mpr
    rcases dispatchers_setDispatcher hh with ⟨_, hpc⟩ | ⟨_, hst⟩
    · cases hpc
      exact .inr (List.mem_singleton.mpr rfl)
    · exact .inl (hb.store_logged d' n' i' e' hst)
  · intro x hx
    rcases List.mem_append.mp hx with hx | hx
    · exact hb.logged x hx
    · rw [List.mem_singleton.mp hx]
      exact ⟨hn, he, hslot, hreg⟩
  · intro x hx y hy hxy
    rcases List.mem_append.mp hx with hx | hx <;> rcases List.mem_append.mp hy with hy | hy
    · exact hb.logged_unique x hx y hy hxy
    · rw [List.mem_singleton.mp hy] at hxy
      exact absurd hxy (hb.popped_new d n e hd x hx)
    · rw [List.mem_singleton.mp hx] at hxy
      exact absurd hxy.symm (hb.popped_new d n e hd y hy)
    · exact (List.mem_singleton.mp hx).trans (List.mem_singleton.mp hy).symm
  · obtain ⟨hid, n', s, hmem⟩ := hb.stored i id v hv
    exact ⟨hid, n', s, List.mem_append_left _ hmem⟩
  · obtain ⟨hid, n', s, hmem⟩ := hb.returned r hr
    exact ⟨hid, n', s, List.mem_append_left _ hmem⟩

theorem Book.noteLookup (hb : Book cfg nm m) (n : Nat) (e : Sock × Packet) :
    Book cfg nm (m.noteLookup n e) :=
  hb.congr ⟨rfl, rfl, rfl, rfl, rfl, rfl, rfl⟩ (fun _ _ hl => hl)

theorem dispatchMessage_book {d : Nat} {result : Packet × Bool} {call : Nat}
    (hb : Book cfg nm m) (h : dispatchMessage cfg m d result call = some m') :
    Book cfg nm m' := by
  obtain ⟨n, e, hd, ⟨_, ⟨_, rfl⟩ | rfl⟩ | ⟨hslot, ⟨hpos, rfl⟩ | ⟨_, rfl⟩⟩⟩ :=
    dispatchMessage_cases h
  · have hcall : ∀ pc, Book cfg nm (m.setCall call pc) := fun pc =>
      hb.congr ⟨rfl, rfl, rfl, rfl, rfl, rfl, rfl⟩ (fun _ _ hl => hl)
    exact (hcall _).release rfl
  · exact hb.release rfl
  · apply (hb.noteLookup n e).dispatch hd hslot
    exact hb.registry _ _ (getSocketIndex_pos hpos)
  · exact (hb.noteLookup n e).release rfl

omit [DecidableEq ReqCode] [DecidableEq ResCode] in
theorem mem_returned_of_returnedFor {i : SockIndex} {id : Int} {p : Packet}
    (h : p ∈ m.returnedFor i id) : ((i, id), p) ∈ m.log.returned := by
  unfold returnedFor entriesOf at h
  obtain ⟨r, hr, rfl⟩ := List.mem_map.mp h
  obtain ⟨hr, hkey⟩ := List.mem_filter.mp hr
  rw [← of_decide_eq_true hkey]
  exact hr

/-- The places of a packet that has not been looked up yet are free. -/
theorem Book.place_free {d n : Nat} {i : SockIndex} {e : Sock × Packet} (hb : Book cfg nm m)
    (hdist : DistinctIds cfg m) (hd : m.dispatchers d = .popped n e)
    (hslot : isProcess cfg e.2 = false) (hreg : nm.mapIndexToSocket.lookup i = some e.1) :
    m.resPacket i (cfg.traits.msgid e.2) = none ∧
      m.returnedFor i (cfg.traits.msgid e.2) = [] := by
  obtain ⟨_, harr⟩ := hb.hand d n e (by rw [hd]; rfl)
  have hother : ∀ n' s p, cfg.traits.msgid p = cfg.traits.msgid e.2 →
      (n', i, s, p) ∈ m.log.dispatched → False := by
    intro n' s p hid hmem
    obtain ⟨_, harr', hslot', hreg'⟩ := hb.logged _ hmem
    rw [hreg] at hreg'
    have hn : n' = n := hdist n' n _ _ harr' harr hslot' hslot (Option.some.inj hreg').symm hid
    exact hb.popped_new d n e hd _ hmem hn
  constructor
  · apply Option.eq_none_iff_forall_not_mem.mpr
    intro v hv
    obtain ⟨hid, n', s, hmem⟩ := hb.stored i _ v hv
    exact hother n' s v.2 hid hmem
  · apply List.eq_nil_iff_forall_not_mem.mpr
    intro p hp
    obtain ⟨hid, n', s, hmem⟩ := hb.returned _ (mem_returned_of_returnedFor hp)
    exact hother n' s p hid hmem

theorem dispatchMessage_fates {d : Nat} {result : Packet × Bool} {call : Nat}
    (hb : Book cfg nm m) (hf : Fates cfg m)
    (h : dispatchMessage cfg m d result call = some m') : Fates cfg m' := by
  obtain ⟨n, e, hd, ⟨_, ⟨_, rfl⟩ | rfl⟩ | ⟨hslot, ⟨hpos, rfl⟩ | ⟨_, rfl⟩⟩⟩ :=
    dispatchMessage_cases h
  · have hcall : ∀ pc, Fates cfg (m.setCall call pc) := fun pc =>
      hf.congr ⟨rfl, rfl, rfl, rfl, rfl, rfl, rfl⟩
    exact (hcall _).release (fun n i e hst => by simp [hd] at hst) rfl
  · exact hf.release (fun n i e hst => by simp [hd] at hst) rfl
  · intro hdist x hx
    rcases List.mem_append.mp hx with hx | hx
    · exact (hf hdist x hx).move rfl rfl rfl (by simp [hd]) (fun hnew => hd ▸ hnew)
    · rw [List.mem_singleton.mp hx]
      obtain ⟨hres, hret⟩ := hb.place_free hdist hd hslot
        (hb.registry _ _ (getSocketIndex_pos hpos))
      exact .held d (by simp) hres hret
  · have hnote : Fates cfg (m.noteLookup n e) := hf.congr ⟨rfl, rfl, rfl, rfl, rfl, rfl, rfl⟩
    exact hnote.release (fun n i e hst => by simp [hd] at hst) rfl

/-! ## The responses of an index -/

omit [DecidableEq ReqCode] [DecidableEq ResCode] in
theorem resPacket_of_map {i : SockIndex} {f : Int → Option (Int × Packet)}
    (h : m.mapSocketToResPacket i = some f) (id : Int) : m.resPacket i id = f id := by
  unfold resPacket
  rw [h]
  rfl

omit [DecidableEq ReqCode] [DecidableEq ResCode] in
theorem resPacket_of_update {i : SockIndex} {f : Int → Option (Int × Packet)}
    (h : m'.mapSocketToResPacket = Function.update m.mapSocketToResPacket i (some f))
    (j : SockIndex) (id : Int) :
    m'.resPacket j id = if j = i then f id else m.resPacket j id := by
  unfold resPacket
  rw [h]
  by_cases hj : j = i
  · subst hj
    simp
  · simp [hj]

/-- An insertion fills an empty place and changes nothing else. -/
theorem insertNew_apply {β : Type} (f : Int → Option β) (id : Int) (v : β) (id' : Int) :
    insertNew f id v id' = if id' = id then (f id).or (some v) else f id' := by
  unfold insertNew
  by_cases hid : id' = id
  · subst hid
    cases hf : f id' <;> simp [hf]
  · cases f id <;> simp [hid]

omit [DecidableEq ReqCode] [DecidableEq ResCode] in
theorem resPacket_insert {i : SockIndex} {id : Int} {v : Int × Packet}
    (h : m'.mapSocketToResPacket = Function.update m.mapSocketToResPacket i
      (some (insertNew ((m.mapSocketToResPacket i).getD (fun _ => none)) id v)))
    (j : SockIndex) (id' : Int) :
    m'.resPacket j id' =
      if j = i ∧ id' = id then (m.resPacket i id).or (some v) else m.resPacket j id' := by
  have hget : ∀ k, (m.mapSocketToResPacket i).getD (fun _ => none) k = m.resPacket i k := by
    intro k
    unfold resPacket
    cases m.mapSocketToResPacket i <;> rfl
  rw [resPacket_of_update h, insertNew_apply, hget, hget]
  by_cases hj : j = i
  · subst hj
    by_cases hid : id' = id <;> simp [hid]
  · simp [hj]

theorem dispatchStore_book {d : Nat} {time : Int} (hb : Book cfg nm m)
    (h : dispatchStore cfg m d time = some m') : Book cfg nm m' := by
  obtain ⟨n, i, e, hd, rfl⟩ := dispatchStore_cases h
  have hr : Book cfg nm (m.setDispatcher d .loop) := hb.release rfl
  refine { hr with stored := ?_ }
  intro j id v hv
  rw [resPacket_insert rfl] at hv
  split at hv
  · rename_i hji
    obtain ⟨rfl, rfl⟩ := hji
    rcases Option.or_eq_some_iff.mp hv with hold | ⟨_, hnew⟩
    · exact hb.stored _ _ _ hold
    · cases hnew
      exact ⟨rfl, n, e.1, hb.store_logged d n j e hd⟩
  · exact hb.stored j id v hv

theorem dispatchStore_fates {d : Nat} {time : Int} (hb : Book cfg nm m) (hf : Fates cfg m)
    (h : dispatchStore cfg m d time = some m') : Fates cfg m' := by
  obtain ⟨n, i, e, hd, rfl⟩ := dispatchStore_cases h
  intro hdist x hx
  have hmem := hb.store_logged d n i e hd
  have hhold : (m.dispatchers d).holding = some (n, e) := by rw [hd]; rfl
  by_cases hslot : x.2.1 = i ∧ cfg.traits.msgid x.2.2.2 = cfg.traits.msgid e.2
  · -- the packet of this thread, whose place is still free
    obtain rfl : x = (n, i, e) := hb.slot_unique hdist hx hmem hslot.1 hslot.2
    cases hf hdist _ hmem with
    | held _ _ hs hret =>
      refine .stored (fun d' hh => ?_) time ?_ hret
      · rcases holding_setDispatcher hh with ⟨_, hpc⟩ | ⟨hne, hold⟩
        · cases hpc
        · exact hne (hb.hand_unique d' d n e e hold hhold)
      · rw [resPacket_insert rfl, if_pos ⟨rfl, rfl⟩, hs]
        rfl
    | stored hno => exact absurd hhold (hno d)
    | returned hno => exact absurd hhold (hno d)
  · refine (hf hdist x hx).move rfl ?_ rfl (fun hst => ?_) nofun
    · rw [resPacket_insert rfl, if_neg hslot]
    · rw [hd] at hst
      cases hst
      exact hslot ⟨rfl, rfl⟩

theorem dispatchStep_book {d : Nat} {a : DispatchAct Packet} (hb : Book cfg nm m)
    (h : dispatchStep cfg m d a = some m') : Book cfg nm m' := by
  cases a with
  | pop => exact dispatchPop_book hb h
  | message result call => exact dispatchMessage_book hb h
  | ret =>
    obtain ⟨c, _, rfl⟩ := dispatchReturn_cases h
    exact hb.release rfl
  | store time => exact dispatchStore_book hb h

theorem dispatchStep_fates {d : Nat} {a : DispatchAct Packet} (hb : Book cfg nm m)
    (hf : Fates cfg m) (h : dispatchStep cfg m d a = some m') : Fates cfg m' := by
  cases a with
  | pop => exact dispatchPop_fates hb hf h
  | message result call => exact dispatchMessage_fates hb hf h
  | ret =>
    obtain ⟨c, hd, rfl⟩ := dispatchReturn_cases h
    exact hf.release (fun n i e hst => by simp [hd] at hst) rfl
  | store time => exact dispatchStore_fates hb hf h

/-! ## `receivePacket` -/

theorem receivePacket_book (i : SockIndex) (id : Int) (hb : Book cfg nm m) :
    Book cfg nm (receivePacket m i id) := by
  rcases receivePacket_cases m i id with heq | ⟨f, v, hf, hv, heq⟩ <;> rw [heq]
  · exact hb
  · have hres := resPacket_of_map hf
    refine { hb with stored := ?_, returned := ?_ }
    · intro j id' w hw
      rw [resPacket_of_update rfl] at hw
      split at hw
      · rename_i hj
        subst hj
        by_cases hid : id' = id
        · simp [hid] at hw
        · rw [Function.update_of_ne hid, ← hres] at hw
          exact hb.stored j id' w hw
      · exact hb.stored j id' w hw
    · intro r hr
      rcases List.mem_append.mp hr with hr | hr
      · exact hb.returned r hr
      · rw [List.mem_singleton.mp hr]
        exact hb.stored i id v ((hres id).trans hv)

theorem receivePacket_fates (i : SockIndex) (id : Int) (hfs : Fates cfg m) :
    Fates cfg (receivePacket m i id) := by
  rcases receivePacket_cases m i id with heq | ⟨f, v, hf, hv, heq⟩ <;> rw [heq]
  · exact hfs
  · have hres := resPacket_of_map hf
    intro hdist x hx
    have hfate := hfs hdist x hx
    obtain ⟨n, j, e⟩ := x
    by_cases hslot : j = i ∧ cfg.traits.msgid e.2 = id
    · -- the packet was stored, and is now the one that was returned
      obtain ⟨rfl, rfl⟩ := hslot
      have hsome := (hres (cfg.traits.msgid e.2)).trans hv
      cases hfate with
      | held _ _ hs => rw [hs] at hsome; cases hsome
      | stored hno t hs hret =>
        rw [hs] at hsome
        cases hsome
        refine .returned hno ?_ ?_
        · rw [resPacket_of_update rfl, if_pos rfl, Function.update_self]
        · unfold returnedFor at hret ⊢
          rw [entriesOf_append, hret, entriesOf_singleton_self]
          rfl
      | returned _ hs => rw [hs] at hsome; cases hsome
    · refine hfate.congr ?_ ?_ (fun _ hst => hst) (fun _ hh => hh)
      · rw [resPacket_of_update rfl]
        split
        · rename_i hj
          subst hj
          rw [Function.update_of_ne (fun hid => hslot ⟨rfl, hid⟩), hres]
        · rfl
      · have hne : (i, id) ≠ (j, cfg.traits.msgid e.2) := by
          intro heq
          cases heq
          exact hslot ⟨rfl, rfl⟩
        unfold returnedFor
        rw [entriesOf_append, entriesOf_singleton_ne hne, List.append_nil]

/-! ## Whole runs -/

omit [DecidableEq ReqCode] [DecidableEq ResCode] in
theorem sendStep_responses {c : Nat} {a : SendAct Packet} (h : sendStep cfg m c a = some m') :
    SameResponses m m' :=
  have hf := sendStep_frame h
  ⟨hf.incoming, hf.delivered, hf.dispatchers, hf.taken, hf.dispatched, hf.responses, hf.returned⟩

omit [DecidableEq ReqCode] [DecidableEq ResCode] in
theorem senderStep_responses {a : SenderAct} (h : senderStep cfg m a = some m') :
    SameResponses m m' :=
  have hf := senderStep_frame h
  ⟨hf.incoming, hf.delivered, hf.dispatchers, hf.taken, hf.dispatched, hf.responses, hf.returned⟩

theorem step_book {e : Event Packet} (hb : Book cfg nm m) (h : step cfg m e = some m') :
    Book cfg nm m' := by
  cases e with
  | send c a =>
    exact hb.congr (sendStep_responses h) (fun _ _ hl => (sendStep_frame h).registry ▸ hl)
  | sender a =>
    exact hb.congr (senderStep_responses h) (fun _ _ hl => (senderStep_frame h).network ▸ hl)
  | recv n a => exact recvStep_book hb h
  | dispatch d a => exact dispatchStep_book hb h
  | receivePacket i id =>
    cases h
    exact receivePacket_book i id hb
  | disconnect i =>
    cases h
    rcases disconnect_cases m i with heq | ⟨nm', hnm, heq⟩ <;> rw [heq]
    · exact hb
    · refine hb.congr ⟨rfl, rfl, rfl, rfl, rfl, rfl, rfl⟩ (fun j s hl => ?_)
      simp only [hnm] at hl
      exact (lookup_erase_some.mp hl).2
  | setIsUseServerBusyWaiting b =>
    cases h
    exact hb.congr ⟨rfl, rfl, rfl, rfl, rfl, rfl, rfl⟩ (fun _ _ hl => hl)

theorem step_fates {e : Event Packet} (hb : Book cfg nm m) (hfs : Fates cfg m)
    (h : step cfg m e = some m') : Fates cfg m' := by
  cases e with
  | send c a => exact hfs.congr (sendStep_responses h)
  | sender a => exact hfs.congr (senderStep_responses h)
  | recv n a => exact recvStep_fates hfs h
  | dispatch d a => exact dispatchStep_fates hb hfs h
  | receivePacket i id =>
    cases h
    exact receivePacket_fates i id hfs
  | disconnect i =>
    cases h
    rcases disconnect_cases m i with heq | ⟨nm', _, heq⟩ <;> rw [heq]
    · exact hfs
    · exact hfs.congr ⟨rfl, rfl, rfl, rfl, rfl, rfl, rfl⟩
  | setIsUseServerBusyWaiting b =>
    cases h
    exact hfs.congr ⟨rfl, rfl, rfl, rfl, rfl, rfl, rfl⟩

/-- Every step lets packets only arrive. -/
theorem step_arrivals {e : Event Packet} (h : step cfg m e = some m') :
    ∃ l, m'.arrivals = m.arrivals ++ l := by
  have hsame : m'.log.delivered = m.log.delivered → ∃ l, m'.arrivals = m.arrivals ++ l := by
    intro heq
    refine ⟨[], ?_⟩
    unfold arrivals
    rw [heq, List.append_nil]
  cases e with
  | send c a => exact hsame (sendStep_frame h).delivered
  | sender a => exact hsame (senderStep_frame h).delivered
  | recv n a =>
    obtain ⟨l, harr, _⟩ := recvStep_arrivals h
    exact ⟨l, harr⟩
  | dispatch d a => exact hsame (dispatchStep_frame h).delivered
  | receivePacket i id =>
    cases h
    rcases receivePacket_cases m i id with heq | ⟨f, v, _, _, heq⟩ <;> rw [heq] <;>
      exact ⟨[], (List.append_nil _).symm⟩
  | disconnect i =>
    cases h
    rcases disconnect_cases m i with heq | ⟨nm', _, heq⟩ <;> rw [heq] <;>
      exact ⟨[], (List.append_nil _).symm⟩
  | setIsUseServerBusyWaiting b =>
    cases h
    exact hsame rfl

/-- Different ids at the end of a step were different before. -/
theorem DistinctIds.before {e : Event Packet} (h : step cfg m e = some m')
    (hd : DistinctIds cfg m') : DistinctIds cfg m := by
  obtain ⟨l, harr⟩ := step_arrivals h
  exact fun n n' x y hx hy => hd n n' x y (arrivals_append harr hx) (arrivals_append harr hy)

/-! ## Lookups -/

/-- Every packet looked up for a registered socket was kept for an index. -/
def LookupsKept (cfg : Config Packet ReqCode ResCode) (m : CGPBManagerV2 Packet) : Prop :=
  DistinctIds cfg m → ∀ n e, (n, true, e) ∈ m.log.lookedUp → ∃ i, (n, i, e) ∈ m.log.dispatched

/-- The condition: where a packet without a slot is looked up and its socket is registered, the
    index found is positive. -/
def IndexPositive (cfg : Config Packet ReqCode ResCode) (m : CGPBManagerV2 Packet) :
    Event Packet → Prop
  | .dispatch d (.message _ _) => DistinctIds cfg m → ∀ n e, m.dispatchers d = .popped n e →
      isProcess cfg e.2 = false → m.networkManager.isRegistered e.1 = true →
        0 < m.networkManager.getSocketIndex e.1
  | _ => True

/-- Only a lookup adds to what was looked up and kept. -/
theorem step_lookups {e : Event Packet} (h : step cfg m e = some m')
    (hne : ∀ d r c, e ≠ .dispatch d (.message r c)) :
    m'.log.lookedUp = m.log.lookedUp ∧ m'.log.dispatched = m.log.dispatched := by
  cases e with
  | send c a => exact ⟨(sendStep_frame h).lookedUp, (sendStep_frame h).dispatched⟩
  | sender a => exact ⟨(senderStep_frame h).lookedUp, (senderStep_frame h).dispatched⟩
  | recv n a => exact ⟨(recvStep_frame h).lookedUp, (recvStep_frame h).dispatched⟩
  | dispatch d a =>
    cases a with
    | pop =>
      obtain ⟨e, rest, _, _, rfl⟩ := dispatchPop_cases h
      exact ⟨rfl, rfl⟩
    | message r c => exact absurd rfl (hne d r c)
    | ret =>
      obtain ⟨c, _, rfl⟩ := dispatchReturn_cases h
      exact ⟨rfl, rfl⟩
    | store time =>
      obtain ⟨n, i, e, _, rfl⟩ := dispatchStore_cases h
      exact ⟨rfl, rfl⟩
  | receivePacket i id =>
    cases h
    rcases receivePacket_cases m i id with heq | ⟨f, v, _, _, heq⟩ <;> rw [heq] <;>
      exact ⟨rfl, rfl⟩
  | disconnect i =>
    cases h
    rcases disconnect_cases m i with heq | ⟨nm', _, heq⟩ <;> rw [heq] <;> exact ⟨rfl, rfl⟩
  | setIsUseServerBusyWaiting b =>
    cases h
    exact ⟨rfl, rfl⟩

/-- A lookup adds one packet; it is kept if its index is positive. -/
theorem step_lookupsKept {e : Event Packet} (hl : LookupsKept cfg m) (hc : IndexPositive cfg m e)
    (h : step cfg m e = some m') : LookupsKept cfg m' := by
  intro hdist n x hx
  have hold := hl (hdist.before h)
  by_cases hmessage : ∃ d r c, e = .dispatch d (.message r c)
  · obtain ⟨d, r, c, rfl⟩ := hmessage
    obtain ⟨k, y, hd, ⟨_, ⟨_, rfl⟩ | rfl⟩ | ⟨hslot, ⟨_, rfl⟩ | ⟨hneg, rfl⟩⟩⟩ :=
      dispatchMessage_cases h
    · exact hold n x hx
    · exact hold n x hx
    · rcases List.mem_append.mp hx with hx | hx
      · obtain ⟨i, hi⟩ := hold n x hx
        exact ⟨i, List.mem_append_left _ hi⟩
      · simp only [List.mem_singleton, Prod.mk.injEq] at hx
        obtain ⟨rfl, _, rfl⟩ := hx
        exact ⟨_, List.mem_append_right _ (List.mem_singleton_self _)⟩
    · rcases List.mem_append.mp hx with hx | hx
      · exact hold n x hx
      · -- thrown away, so its socket was not registered
        simp only [List.mem_singleton, Prod.mk.injEq] at hx
        obtain ⟨rfl, hreg, rfl⟩ := hx
        exact absurd hneg (Int.not_le.mpr (hc (hdist.before h) n x hd hslot hreg.symm))
  · obtain ⟨hlooked, hdispatched⟩ := step_lookups h fun d r c he => hmessage ⟨d, r, c, he⟩
    rw [hlooked] at hx
    rw [hdispatched]
    exact hold n x hx

/-- A returned packet arrived on the socket of the index and has the message id asked for. -/
def ReturnsAsked (cfg : Config Packet ReqCode ResCode) (nm : CNetworkCommunicator)
    (m : CGPBManagerV2 Packet) : Prop :=
  ∀ i id p, ((i, id), p) ∈ m.log.returned → cfg.traits.msgid p = id ∧
    ∃ (s : Sock) (n : Nat), nm.mapIndexToSocket.lookup i = some s ∧ m.arrivals[n]? = some (s, p)

/-- If the packets without a slot that arrive on one socket have different message ids, every such
    packet that was looked up while its socket was registered is on its way to
    `_mapSocketToResPacket` in one thread, or stored there under an index of the socket and not
    returned, or no longer stored and returned by exactly one call. -/
def Correlated (cfg : Config Packet ReqCode ResCode) (nm : CNetworkCommunicator)
    (m : CGPBManagerV2 Packet) : Prop :=
  DistinctIds cfg m → ∀ n s p, (n, true, s, p) ∈ m.log.lookedUp →
    ∃ i, nm.mapIndexToSocket.lookup i = some s ∧ m.arrivals[n]? = some (s, p) ∧
      Fate cfg m n i (s, p)

theorem Book.returnsAsked (hb : Book cfg nm m) : ReturnsAsked cfg nm m := by
  intro i id p hr
  obtain ⟨hid, n, s, hmem⟩ := hb.returned _ hr
  obtain ⟨_, harr, _, hreg⟩ := hb.logged _ hmem
  exact ⟨hid, s, n, hreg, harr⟩

theorem Book.correlated (hb : Book cfg nm m) (hf : Fates cfg m) (hl : LookupsKept cfg m) :
    Correlated cfg nm m := by
  intro hdist n s p hx
  obtain ⟨i, hi⟩ := hl hdist n (s, p) hx
  obtain ⟨_, harr, _, hreg⟩ := hb.logged _ hi
  exact ⟨i, hreg, harr, hf hdist _ hi⟩

/-- A packet that is thrown away has no fate. -/
theorem thrown_not_correlated {e : Event Packet} (hb : Book cfg nm m)
    (hc : ¬ IndexPositive cfg m e) (h : step cfg m e = some m') : ¬ Correlated cfg nm m' := by
  unfold IndexPositive at hc
  split at hc
  · rename_i d r c
    simp only [Classical.not_imp, not_forall] at hc
    obtain ⟨hdist, n, e, hd, hslot, hreg, hneg⟩ := hc
    obtain ⟨n', e', hd', hcases⟩ := dispatchMessage_cases h
    cases hd.symm.trans hd'
    obtain ⟨hyes, _⟩ | ⟨_, ⟨hpos, _⟩ | ⟨_, rfl⟩⟩ := hcases
    · rw [hslot] at hyes
      cases hyes
    · exact absurd hpos hneg
    · intro hcorr
      have hx : (n, true, e) ∈ ((m.noteLookup n e).setDispatcher d .loop).log.lookedUp := by
        simp [hreg]
      obtain ⟨i, hi, _, hfate⟩ := hcorr hdist n e.1 e.2 hx
      obtain ⟨hres, hret⟩ := hb.place_free hdist hd hslot hi
      cases hfate with
      | held d' hst =>
        rcases dispatchers_setDispatcher hst with ⟨_, hpc⟩ | ⟨hne, hst⟩
        · cases hpc
        · have hst : m.dispatchers d' = .store n i e := hst
          exact hne (hb.hand_unique d' d n e e (by rw [hst]; rfl) (by rw [hd]; rfl))
      | stored _ _ hstored => cases hres.symm.trans hstored
      | returned _ _ hreturned => cases hret.symm.trans hreturned
  · exact absurd trivial hc

/-- **Response correlation.**  Along every interleaving, a packet returned by
    `receivePacket( i, id )` arrived on the socket registered under `i` and carries `id`; and every
    packet without a slot that is looked up for a registered socket is stored for, or returned by,
    exactly one call, as long as the ids differ, exactly when each lookup for a registered socket
    finds a positive index. -/
theorem response_correlation_iff (cfg : Config Packet ReqCode ResCode) (nm : CNetworkCommunicator)
    (announced : SockIndex → Bool) (use : Bool) (es : List (Event Packet)) :
    Always (step cfg) (ReturnsAsked cfg nm) (create nm announced use) es ∧
      (Always (step cfg) (Correlated cfg nm) (create nm announced use) es ↔
        Meets (step cfg) (IndexPositive cfg) (create nm announced use) es) := by
  have hbook : Book cfg nm (create nm announced use) := create_book announced use
  constructor
  · exact always_of_meets (C := fun _ _ => True) (fun m hb => Book.returnsAsked hb)
      (fun m e m' hb _ h => step_book hb h) es _ hbook
      (meets_of_forall es _ fun _ _ _ => trivial)
  · apply always_iff_meets
      (I := fun m => Book cfg nm m ∧ Fates cfg m ∧ LookupsKept cfg m)
    · rintro m ⟨hb, hf, hl⟩
      exact hb.correlated hf hl
    · rintro m e m' ⟨hb, hf, hl⟩ hc h
      exact ⟨step_book hb h, step_fates hb hf h, step_lookupsKept hl hc h⟩
    · rintro m e m' ⟨hb, _, _⟩ hc h
      exact thrown_not_correlated hb hc h
    · exact ⟨hbook, nofun, nofun⟩

namespace SamplePacket

/-- Two responses on socket 0, dispatched by two threads; the first one is asked for. -/
def twoResponses : List (Event SamplePacket) :=
  [.recv 0 (.start 0 [0, 0, 0, 3, 1, 0, 2]), .recv 1 (.start 0 [0, 0, 0, 3, 2, 0, 2]),
    .dispatch 0 .pop, .dispatch 1 .pop, .dispatch 1 (.message (⟨0, 0, 0⟩, false) 0),
    .dispatch 0 (.message (⟨0, 0, 0⟩, false) 0), .dispatch 1 (.store 0), .dispatch 0 (.store 0),
    .receivePacket 1 1]

/-- A response on socket 0 is dispatched. -/
def oneResponse : List (Event SamplePacket) :=
  [.recv 0 (.start 0 [0, 0, 0, 3, 1, 0, 2]), .dispatch 0 .pop,
    .dispatch 0 (.message (⟨0, 0, 0⟩, false) 0)]

end SamplePacket

open SamplePacket in
/-- When the counter had wrapped at the registration of its socket, a response is thrown away. -/
theorem response_thrown_away :
    ∃ m, run (step config) (create wrappedRegistry (fun _ => true) false) oneResponse = some m ∧
      m.networkManager.isRegistered 0 = true ∧ m.incomingQueue = [] ∧
      ¬ Correlated config wrappedRegistry m := by
  obtain ⟨m, hrun, hreg, hqueue, harr, hlooked, hdispatchers, hres, hret⟩ : ∃ m,
      run (step config) (create wrappedRegistry (fun _ => true) false) oneResponse = some m ∧
      m.networkManager.isRegistered 0 = true ∧ m.incomingQueue = [] ∧
      m.arrivals = [(0, ⟨1, 0, 2⟩)] ∧ m.log.lookedUp = [(0, true, 0, ⟨1, 0, 2⟩)] ∧
      m.dispatchers = Function.update (Function.update (fun _ => .loop) 0 _) 0 .loop ∧
      (∀ i id, m.resPacket i id = none) ∧ ∀ i id, m.returnedFor i id = [] :=
    ⟨_, rfl, rfl, rfl, rfl, rfl, rfl, fun _ _ => rfl, fun _ _ => rfl⟩
  refine ⟨m, hrun, hreg, hqueue, fun hcorr => ?_⟩
  have hdist : DistinctIds config m := by
    intro n n' e e' hn hn' _ _ _ _
    rw [harr] at hn hn'
    match n, n', hn, hn' with
    | 0, 0, _, _ => rfl
  obtain ⟨i, _, _, hfate⟩ := hcorr hdist 0 0 ⟨1, 0, 2⟩ (hlooked ▸ List.mem_singleton_self _)
  cases hfate with
  | held d hd =>
    rw [hdispatchers, Function.update_idem] at hd
    by_cases h0 : d = 0
    · subst h0
      cases hd
    · rw [Function.update_of_ne h0] at hd
      cases hd
  | stored _ _ hstored => cases (hres _ _).symm.trans hstored
  | returned _ _ hreturned => cases (hret _ _).symm.trans hreturned

open SamplePacket in
example : ∃ m, run (step config) (manager false) twoResponses = some m ∧
    m.log.returned = [((1, 1), ⟨1, 0, 2⟩)] ∧
    m.log.lookedUp = [(1, true, 0, ⟨2, 0, 2⟩), (0, true, 0, ⟨1, 0, 2⟩)] ∧
    m.resPacket 1 2 = some (0, ⟨2, 0, 2⟩) :=
  ⟨_, rfl, rfl, rfl, rfl⟩

end IMonPlatform
