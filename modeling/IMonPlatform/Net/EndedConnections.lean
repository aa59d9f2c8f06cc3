import IMonPlatform.Net.Lifecycle

/-!
# The data of ended connections

Two tables of the manager are filled under a socket index: `_mapSocketToSendedPacket`, which
`receiveDisconnection` purges, and `_mapSocketToResPacket`, which its comment lists as well and
which its code does not touch.  Dispatchers look the index up in one section and store the response
in another one, and an accepted connection can be announced after it has ended.

* `DataDies` — of an ended connection nothing can be fetched and no entry is left; what can be
  fetched under an index belongs to the connection registered there now.
* `EndsClean` — the condition on a step: a connection ends with all its responses fetched, no
  response is stored and no entry made for it later on.
* `Dies` — the property over the tables; `dies_finish`, `dies_registered`, `dies_store` say of each
  kind of step exactly when it keeps it.
* `data_dies_iff` — along a run the data die with their connection exactly when every step meets
  the condition.
-/

set_option autoImplicit false

namespace IMonPlatform

open CNetworkCommunicator CGPBManagerV2 Lifecycle Transition

variable {Packet ReqCode ResCode : Type}

/-! ## Properties -/

/-- The call fails: it does not count as a successful one. -/
def CGPBManagerV2.ReceiveFails (m : CGPBManagerV2 Packet) (i : SockIndex) (msgID : Int) : Prop :=
  (receivePacket m i msgID).log.returned = m.log.returned

namespace Lifecycle

structure DataDies (st : Lifecycle Packet) : Prop where
  fails : ∀ i, st.lifetimes.ended i = true → ∀ id, st.manager.ReceiveFails i id
  no_entry : ∀ i, st.lifetimes.ended i = true → st.manager.mapSocketToSendedPacket i = none
  own : ∀ i id, ¬ st.manager.ReceiveFails i id →
    st.lifetimes.storedFor i id = st.lifetimes.generation i

/-- Every response stored under the index has been fetched. -/
def Drained (st : Lifecycle Packet) (i : SockIndex) : Prop :=
  ∀ id, st.manager.ReceiveFails i id

/-- The condition on a step. -/
def EndsClean (cfg : Config Packet ReqCode ResCode) (st : Lifecycle Packet) :
    LifeEvent Packet → Prop
  | .manager (.dispatch d (.store _)) => ∀ n i e, st.manager.dispatchers d = .store n i e →
      st.lifetimes.lookedUp d = st.lifetimes.generation i ∨ cfg.traits.msgid e.2 < 0 ∨
        (st.manager.resPacket i (cfg.traits.msgid e.2)).isSome
  | .newEntry i _ _ => st.lifetimes.ended i = false
  | .deleteEntry i => i ∉ st.registry → st.Drained i
  | .disconnectEnd => ∀ i ∈ st.registry, st.Drained i ∧ ¬ st.Announced i
  | .createSocket _ => ∀ i s c, st.comm.createSocket = some (i, s, c) → st.Drained i
  | .registerSocket conn => ∀ i c, st.comm.registerSocket conn = some (i, c) → st.Drained i
  | _ => True

end Lifecycle

/-! ## The tables -/

/-- `receivePacket` would return a packet. -/
def CGPBManagerV2.Fetchable (m : CGPBManagerV2 Packet) (i : SockIndex) (id : Int) : Prop :=
  0 < i ∧ 0 ≤ id ∧ (m.resPacket i id).isSome

theorem receiveFails_iff (m : CGPBManagerV2 Packet) (i : SockIndex) (id : Int) :
    m.ReceiveFails i id ↔ ¬ m.Fetchable i id := by
  unfold ReceiveFails Fetchable receivePacket resPacket
  split
  · rename_i hi
    simp [Int.not_lt.mpr hi]
  · rename_i hi
    split
    · rename_i hid
      simp [Int.not_le.mpr hid]
    · rename_i hid
      split
      · rename_i hnone
        simp [hnone]
      · rename_i f hf
        split
        · rename_i hnone
          simp [hf, hnone]
        · rename_i v hv
          simp [hf, hv, Int.not_le.mp hi, Int.not_lt.mp hid]

/-- The property over what can be fetched and which indices have an entry. -/
structure Dies (fetch : SockIndex → Int → Prop) (entry : SockIndex → Prop) (l : Lifetimes) :
    Prop where
  fails : ∀ i, l.ended i = true → ∀ id, ¬ fetch i id
  no_entry : ∀ i, l.ended i = true → ¬ entry i
  own : ∀ i id, fetch i id → l.storedFor i id = l.generation i

/-- The entries of the manager. -/
def CGPBManagerV2.HasEntry (m : CGPBManagerV2 Packet) (i : SockIndex) : Prop :=
  (m.mapSocketToSendedPacket i).isSome = true

theorem hasEntry_setSended {m : CGPBManagerV2 Packet} {i j : SockIndex}
    {f : Option (Int → Option Packet)} :
    (m.setSended i f).HasEntry j ↔ j = i ∧ f.isSome = true ∨ j ≠ i ∧ m.HasEntry j := by
  unfold HasEntry
  by_cases hj : j = i
  · subst hj
    simp
  · simp [hj]

theorem dataDies_iff (st : Lifecycle Packet) :
    st.DataDies ↔ Dies st.manager.Fetchable st.manager.HasEntry st.lifetimes := by
  constructor
  · intro h
    refine ⟨fun i hi id => (receiveFails_iff _ i id).mp (h.fails i hi id), fun i hi hent => ?_,
      fun i id hf => h.own i id (fun hno => (receiveFails_iff _ i id).mp hno hf)⟩
    unfold HasEntry at hent
    rw [h.no_entry i hi] at hent
    cases hent
  · intro h
    refine ⟨fun i hi id => (receiveFails_iff _ i id).mpr (h.fails i hi id),
      fun i hi => Option.not_isSome_iff_eq_none.mp (h.no_entry i hi), fun i id hno => ?_⟩
    exact h.own i id (not_not.mp (fun hf => hno ((receiveFails_iff _ i id).mpr hf)))

theorem drained_iff (st : Lifecycle Packet) (i : SockIndex) :
    st.Drained i ↔ ∀ id, ¬ st.manager.Fetchable i id :=
  forall_congr' (fun id => receiveFails_iff st.manager i id)

section Dies

variable {fetch fetch' : SockIndex → Int → Prop} {entry entry' : SockIndex → Prop}
  {l l' : Lifetimes} {i : SockIndex}

/-- A step that adds nothing. -/
theorem dies_shrink (h : Dies fetch entry l) (hf : ∀ i id, fetch' i id → fetch i id)
    (he : ∀ i, entry' i → entry i) (hend : l'.ended = l.ended)
    (hgen : l'.generation = l.generation)
    (hfor : ∀ i id, fetch' i id → l'.storedFor i id = l.storedFor i id) :
    Dies fetch' entry' l' := by
  refine ⟨fun i hi id hfi => ?_, fun i hi hei => ?_, fun i id hfi => ?_⟩
  · rw [hend] at hi
    exact h.fails i hi id (hf i id hfi)
  · rw [hend] at hi
    exact h.no_entry i hi (he i hei)
  · rw [hfor i id hfi, hgen]
    exact h.own i id (hf i id hfi)

/-- **The end of connections**: they must leave nothing to fetch and no entry. -/
theorem dies_finish {R : SockIndex → Bool} (h : Dies fetch entry l)
    (he : ∀ i, entry' i → entry i) :
    Dies fetch entry' (l.finish R) ↔ ∀ i, R i = true → (∀ id, ¬ fetch i id) ∧ ¬ entry' i := by
  constructor
  · intro h' i hi
    have hend : (l.finish R).ended i = true := by simp [Lifetimes.finish, hi]
    exact ⟨h'.fails i hend, h'.no_entry i hend⟩
  · intro hR
    have hend : ∀ i, (l.finish R).ended i = true → R i = true ∨ l.ended i = true := by
      intro i hi
      simpa [Lifetimes.finish] using hi
    refine ⟨fun i hi => ?_, fun i hi => ?_, fun i id hfi => ?_⟩
    · rcases hend i hi with hi | hi
      · exact (hR i hi).1
      · exact h.fails i hi
    · rcases hend i hi with hi | hi
      · exact (hR i hi).2
      · exact fun hei => h.no_entry i hi (he i hei)
    · have hno : R i ≠ true := fun hi => (hR i hi).1 id hfi
      simp only [Lifetimes.finish, if_neg hno]
      exact h.own i id hfi

/-- **A registration**: nothing may be left from the connection before. -/
theorem dies_registered (h : Dies fetch entry l) :
    Dies fetch entry (l.registered i) ↔ ∀ id, ¬ fetch i id := by
  constructor
  · intro h' id hfi
    have hnew := h'.own i id hfi
    have hold := h.own i id hfi
    simp only [Lifetimes.registered, Function.update_self] at hnew
    omega
  · intro hi
    have hend : ∀ j, (l.registered i).ended j = true → l.ended j = true := by
      intro j hj
      simp only [Lifetimes.registered] at hj
      by_cases hji : j = i
      · subst hji
        simp at hj
      · rwa [Function.update_of_ne hji] at hj
    refine ⟨fun j hj => h.fails j (hend j hj), fun j hj => h.no_entry j (hend j hj),
      fun j id hfj => ?_⟩
    have hji : j ≠ i := by
      rintro rfl
      exact hi id hfj
    simp only [Lifetimes.registered, Function.update_of_ne hji]
    exact h.own j id hfj

/-- **A new entry**: not for an ended connection. -/
theorem dies_newEntry (h : Dies fetch entry l) (hi : entry' i)
    (he : ∀ j, entry' j → j = i ∨ entry j) (c : Callback) :
    Dies fetch entry' (l.called i c) ↔ l.ended i = false := by
  constructor
  · intro h'
    by_contra hend
    have hend' : l.ended i = true := by simpa using hend
    exact h'.no_entry i hend' hi
  · intro hend
    refine ⟨h.fails, fun j hj hej => ?_, h.own⟩
    rcases he j hej with rfl | hej
    · have hj' : l.ended j = true := hj
      rw [hend] at hj'
      cases hj'
    · exact h.no_entry j hj hej

/-- **A response is stored** where there was none: it must belong to the present connection, or not
    be there to fetch. -/
theorem dies_store {k : Int} {g : Nat} (h : Dies fetch entry l) (hnew : ¬ fetch i k)
    (hended : l.ended i = true → g < l.generation i)
    (hf : ∀ j id, fetch' j id ↔ fetch j id ∨ j = i ∧ id = k ∧ 0 ≤ k) :
    Dies fetch' entry { l with
      storedFor := Function.update l.storedFor i (Function.update (l.storedFor i) k g) } ↔
      g = l.generation i ∨ k < 0 := by
  constructor
  · intro h'
    by_cases hk : k < 0
    · exact .inr hk
    · left
      have hown := h'.own i k ((hf i k).mpr (.inr ⟨rfl, rfl, Int.not_lt.mp hk⟩))
      simpa using hown
  · intro hok
    refine ⟨fun j hj id hfj => ?_, h.no_entry, fun j id hfj => ?_⟩
    · rcases (hf j id).mp hfj with hfj | ⟨rfl, rfl, hk⟩
      · exact h.fails j hj id hfj
      · have hlt := hended hj
        omega
    · by_cases hji : j = i
      · subst hji
        by_cases hid : id = k
        · subst hid
          simp only [Function.update_self]
          rcases hok with hok | hneg
          · exact hok
          · rcases (hf j id).mp hfj with hfj | ⟨_, _, hk⟩
            · exact absurd hfj hnew
            · omega
        · simp only [Function.update_self, Function.update_of_ne hid]
          rcases (hf j id).mp hfj with hfj | ⟨_, rfl, _⟩
          · exact h.own j id hfj
          · exact absurd rfl hid
      · simp only [Function.update_of_ne hji]
        rcases (hf j id).mp hfj with hfj | ⟨rfl, _, _⟩
        · exact h.own j id hfj
        · exact absurd rfl hji

end Dies

/-! ## Dispatchers and responses -/

section Manager

variable [DecidableEq ReqCode] [DecidableEq ResCode] {cfg : Config Packet ReqCode ResCode}
  {m m' : CGPBManagerV2 Packet} {e : Event Packet}

/-- The steps that change the stored responses. -/
theorem step_responses (h : CGPBManagerV2.step cfg m e = some m')
    (hstore : ∀ d t, e ≠ .dispatch d (.store t)) (hrecv : ∀ i id, e ≠ .receivePacket i id) :
    m'.mapSocketToResPacket = m.mapSocketToResPacket := by
  cases e with
  | send c a => exact (sendStep_frame h).responses
  | sender a => exact (senderStep_frame h).responses
  | recv n a => exact (recvStep_frame h).responses
  | dispatch d a =>
    cases a with
    | pop =>
      obtain ⟨_, _, _, _, rfl⟩ := dispatchPop_cases h
      rfl
    | message result call =>
      obtain ⟨n, p, _, ⟨_, ⟨_, rfl⟩ | rfl⟩ | ⟨_, ⟨_, rfl⟩ | ⟨_, rfl⟩⟩⟩ :=
        dispatchMessage_cases h <;> rfl
    | ret =>
      obtain ⟨_, _, rfl⟩ := dispatchReturn_cases h
      rfl
    | store t => exact absurd rfl (hstore d t)
  | receivePacket i id => exact absurd rfl (hrecv i id)
  | disconnect i =>
    cases h
    obtain hsame | ⟨nm, _, hnew⟩ := disconnect_cases m i
    · rw [hsame]
    · rw [hnew]
      rfl
  | setIsUseServerBusyWaiting b =>
    cases h
    rfl

/-- `receivePacket` only takes responses away. -/
theorem receivePacket_fetchable {i j : SockIndex} {id k : Int}
    (h : (receivePacket m i id).Fetchable j k) : m.Fetchable j k := by
  obtain hsame | ⟨f, v, hf, hv, hnew⟩ := receivePacket_cases m i id
  · rwa [hsame] at h
  · rw [hnew] at h
    refine ⟨h.1, h.2.1, ?_⟩
    have hsome := h.2.2
    simp only [resPacket, setResPacket] at hsome ⊢
    by_cases hj : j = i
    · subst hj
      rw [hf]
      simp only [Function.update_self, Option.bind_some] at hsome ⊢
      by_cases hk : k = id
      · subst hk
        simp at hsome
      · rwa [Function.update_of_ne hk] at hsome
    · rwa [Function.update_of_ne hj] at hsome

/-- `unordered_map::insert` adds the key if it is missing. -/
theorem insertNew_isSome {β : Type} (f : Int → Option β) (id k : Int) (v : β) :
    (insertNew f id v k).isSome = true ↔ (f k).isSome = true ∨ k = id := by
  unfold insertNew
  cases hid : f id with
  | none =>
    by_cases hk : k = id
    · subst hk
      simp
    · simp [hk]
  | some w =>
    by_cases hk : k = id
    · subst hk
      simp [hid]
    · simp [hk]

omit [DecidableEq ReqCode] [DecidableEq ResCode] in
/-- What a dispatcher's section under `_lckQueue` adds. -/
theorem dispatchStore_fetchable {d n : Nat} {t : Int} {i : SockIndex} {p : Sock × Packet}
    (hpc : m.dispatchers d = .store n i p) (hpos : 0 < i) (h : dispatchStore cfg m d t = some m')
    (j : SockIndex) (id : Int) : m'.Fetchable j id ↔
      m.Fetchable j id ∨ j = i ∧ id = cfg.traits.msgid p.2 ∧ 0 ≤ cfg.traits.msgid p.2 := by
  obtain ⟨n', i', p', hpc', rfl⟩ := dispatchStore_cases h
  rw [hpc] at hpc'
  cases hpc'
  simp only [Fetchable, resPacket, setResPacket, setDispatcher]
  by_cases hj : j = i
  · subst hj
    rw [Function.update_self, Option.bind_some, insertNew_isSome]
    cases m.mapSocketToResPacket j with
    | none => simp; grind
    | some f => simp; grind
  · simp [hj]

/-- What the steps of a dispatcher do to its program counter. -/
theorem dispatchStep_dispatchers {d : Nat} {a : DispatchAct Packet}
    (h : dispatchStep cfg m d a = some m') :
    ∃ pc, m'.dispatchers = Function.update m.dispatchers d pc ∧
      ∀ n i p, pc = .store n i p → 0 < i ∧ m.networkManager.getSocketIndex p.1 = i ∧
        ∃ r c, a = .message r c := by
  cases a with
  | pop =>
    obtain ⟨_, _, _, _, rfl⟩ := dispatchPop_cases h
    exact ⟨_, rfl, by simp⟩
  | message result call =>
    obtain ⟨n', p', hold, ⟨_, ⟨_, rfl⟩ | rfl⟩ | ⟨_, ⟨hpos, rfl⟩ | ⟨_, rfl⟩⟩⟩ :=
      dispatchMessage_cases h
    · exact ⟨_, rfl, by simp⟩
    · exact ⟨_, rfl, by simp⟩
    · refine ⟨_, rfl, ?_⟩
      rintro n i p ⟨rfl, rfl, rfl⟩
      exact ⟨hpos, rfl, result, call, rfl⟩
    · exact ⟨_, rfl, by simp⟩
  | ret =>
    obtain ⟨_, _, rfl⟩ := dispatchReturn_cases h
    exact ⟨_, rfl, by simp⟩
  | store t =>
    obtain ⟨_, _, _, _, rfl⟩ := dispatchStore_cases h
    exact ⟨_, rfl, by simp⟩

/-- A dispatcher comes before its section under `_lckQueue` by a lookup; the record then has the
    generation of the index. -/
theorem step_store {d n : Nat} {i : SockIndex} {p : Sock × Packet} (l : Lifetimes)
    (h : CGPBManagerV2.step cfg m e = some m') (hpc : m'.dispatchers d = .store n i p) :
    m.dispatchers d = .store n i p ∧ (l.note cfg m m' e).lookedUp d = l.lookedUp d ∨
      0 < i ∧ m.networkManager.getSocketIndex p.1 = i ∧
        (l.note cfg m m' e).lookedUp d = l.generation i := by
  by_cases hdisp : ∃ d' a, e = .dispatch d' a
  · obtain ⟨d', a, rfl⟩ := hdisp
    obtain ⟨pc, hnew, hstore⟩ := dispatchStep_dispatchers h
    by_cases hd : d = d'
    · subst hd
      have hpc' : pc = .store n i p := by simpa [hnew] using hpc
      obtain ⟨hpos, hidx, r, c, rfl⟩ := hstore n i p hpc'
      refine .inr ⟨hpos, hidx, ?_⟩
      simp [Lifetimes.note, hpc]
    · left
      rw [hnew, Function.update_of_ne hd] at hpc
      refine ⟨hpc, ?_⟩
      unfold Lifetimes.note
      split
      · rename_i heq
        cases heq
        split
        · exact Function.update_of_ne hd _ _
        · rfl
      · rename_i heq
        cases heq
        split
        · split <;> rfl
        · rfl
      · rfl
  · left
    have hne : ∀ d' a, e ≠ .dispatch d' a := fun d' a he => hdisp ⟨d', a, he⟩
    rw [step_dispatchers h hne] at hpc
    refine ⟨hpc, ?_⟩
    unfold Lifetimes.note
    split
    · exact absurd rfl (hne _ _)
    · exact absurd rfl (hne _ _)
    · rfl

end Manager

/-! ## Runs -/

namespace Lifecycle

/-- A registered connection has not ended. -/
def OpenRegistered (st : Lifecycle Packet) : Prop :=
  ∀ i ∈ st.registry, st.lifetimes.ended i = false

/-- Dispatchers hold indices of the present generation or of an earlier one; of an ended
    connection, of an earlier one. -/
def LookedUpBefore (st : Lifecycle Packet) : Prop :=
  ∀ d n i p, st.manager.dispatchers d = .store n i p →
    0 < i ∧ st.lifetimes.lookedUp d ≤ st.lifetimes.generation i ∧
      (st.lifetimes.ended i = true → st.lifetimes.lookedUp d < st.lifetimes.generation i)

end Lifecycle

section Runs

variable [DecidableEq ReqCode] [DecidableEq ResCode] {cfg : Config Packet ReqCode ResCode}
  {st st' : Lifecycle Packet} {e : LifeEvent Packet}

theorem openRegistered_registered (ho : st.OpenRegistered) {i : SockIndex}
    {m : SocketMap} {s : Sock} (hm : st'.registry = m.insert i s) (hsub : m = st.registry)
    (hl : st'.lifetimes = st.lifetimes.registered i) : st'.OpenRegistered := by
  intro j hj
  rw [hm, hsub] at hj
  rw [hl]
  simp only [Lifetimes.registered]
  by_cases hji : j = i
  · subst hji
    simp
  · rw [Function.update_of_ne hji]
    exact ho j ((AList.mem_insert _).mp hj |>.resolve_left hji)

theorem openRegistered_congr (ho : st.OpenRegistered) (hm : ∀ i ∈ st'.registry, i ∈ st.registry)
    (hl : st'.lifetimes.ended = st.lifetimes.ended) : st'.OpenRegistered := by
  intro i hi
  rw [hl]
  exact ho i (hm i hi)

theorem openRegistered_step (ho : st.OpenRegistered) (h : Lifecycle.step cfg st e = some st') :
    st'.OpenRegistered := by
  cases lifecycle_step_effect h with
  | manager hne hstep hl =>
    refine openRegistered_congr ho (fun i hi => ?_) ?_
    · rwa [registry, step_registry hstep hne] at hi
    · rw [hl]
      exact (Lifetimes.note_frame _ _ _ _ _).2.1
  | quiet hq c hm hsub hl =>
    refine openRegistered_congr ho (fun i hi => hsub i ?_) (by rw [hl])
    rwa [registry, hm] at hi
  | createSocket hreg hm hl =>
    obtain ⟨_, _, _, hmap, _⟩ := createSocket_spec hreg
    exact openRegistered_registered ho (by rw [registry, hm, hmap]) rfl hl
  | registerSocket hreg hm hl =>
    obtain ⟨_, _, hmap, _⟩ := registerSocket_spec hreg
    exact openRegistered_registered ho (by rw [registry, hm, hmap]) rfl hl
  | newEntry hm hl =>
    exact openRegistered_congr ho (fun i hi => by rwa [registry, hm] at hi) (by rw [hl]; rfl)
  | deleteEntry hm hl =>
    rename_i i
    intro j hj
    rw [registry, hm] at hj
    have hnot : ¬ (j = i ∧ i ∉ st.registry) := by
      rintro ⟨rfl, hno⟩
      exact hno hj
    rw [hl]
    simp only [Lifetimes.finish, Lifetimes.called, decide_eq_false hnot, Bool.false_or]
    exact ho j hj
  | disconnectNext hc hm hl =>
    exact openRegistered_congr ho (fun i hi => by rwa [registry, hm] at hi) (by rw [hl]; rfl)
  | disconnectStop hm hl =>
    exact openRegistered_congr ho (fun i hi => by rwa [registry, hm] at hi) (by rw [hl])
  | disconnectEnd hm hl =>
    intro i hi
    rw [registry, hm] at hi
    exact absurd hi (AList.notMem_empty i)

/-- Generations only grow, and they grow with every end. -/
theorem lookedUpBefore_congr (hk : st.LookedUpBefore)
    (hd : st'.manager.dispatchers = st.manager.dispatchers)
    (hlook : st'.lifetimes.lookedUp = st.lifetimes.lookedUp)
    (hgen : ∀ i, st.lifetimes.generation i ≤ st'.lifetimes.generation i)
    (hend : ∀ i, st'.lifetimes.ended i = true → st.lifetimes.ended i = true ∨
      st.lifetimes.generation i < st'.lifetimes.generation i) : st'.LookedUpBefore := by
  intro d n i p hpc
  rw [hd] at hpc
  obtain ⟨hpos, hle, hlt⟩ := hk d n i p hpc
  rw [hlook]
  have hgi := hgen i
  refine ⟨hpos, by omega, fun hi => ?_⟩
  rcases hend i hi with hi | hi
  · have := hlt hi
    omega
  · omega

theorem registered_grows (l : Lifetimes) (i j : SockIndex) :
    l.generation j ≤ (l.registered i).generation j ∧
      ((l.registered i).ended j = true → l.ended j = true) := by
  simp only [Lifetimes.registered]
  by_cases hji : j = i
  · subst hji
    simp
  · simp [hji]

theorem finish_grows (l : Lifetimes) (R : SockIndex → Bool) (j : SockIndex) :
    l.generation j ≤ (l.finish R).generation j ∧
      ((l.finish R).ended j = true → l.ended j = true ∨
        l.generation j < (l.finish R).generation j) := by
  simp only [Lifetimes.finish]
  cases R j <;> simp

/-- A dispatcher finds the index of an open connection. -/
theorem lookedUpBefore_manager {a : Event Packet} (hk : st.LookedUpBefore) (ho : st.OpenRegistered)
    (hstep : CGPBManagerV2.step cfg st.manager a = some st'.manager)
    (hl : st'.lifetimes = st.lifetimes.note cfg st.manager st'.manager a) :
    st'.LookedUpBefore := by
  intro d n i p hpc
  obtain ⟨_, hend, hgen⟩ := Lifetimes.note_frame cfg st.lifetimes st.manager st'.manager a
  rw [hl, hend, hgen]
  obtain ⟨hold, hlook⟩ | ⟨hpos, hidx, hlook⟩ := step_store st.lifetimes hstep hpc
  · rw [hlook]
    exact hk d n i p hold
  · rw [hlook]
    subst hidx
    have hopen := ho _ (mem_of_lookup (getSocketIndex_pos hpos))
    refine ⟨hpos, Nat.le_refl _, fun hi => ?_⟩
    rw [hopen] at hi
    cases hi

theorem lookedUpBefore_step (hk : st.LookedUpBefore) (ho : st.OpenRegistered)
    (h : Lifecycle.step cfg st e = some st') : st'.LookedUpBefore := by
  cases lifecycle_step_effect h with
  | manager hne hstep hl => exact lookedUpBefore_manager hk ho hstep hl
  | quiet hq c hm hsub hl =>
    exact lookedUpBefore_congr hk (by rw [hm]) (by rw [hl]) (fun i => by rw [hl])
      (fun i hi => .inl (by rwa [hl] at hi))
  | createSocket hreg hm hl =>
    exact lookedUpBefore_congr hk (by rw [hm]) (by rw [hl]; rfl)
      (fun i => by rw [hl]; exact (registered_grows _ _ i).1)
      (fun i hi => .inl ((registered_grows _ _ i).2 (by rwa [hl] at hi)))
  | registerSocket hreg hm hl =>
    exact lookedUpBefore_congr hk (by rw [hm]) (by rw [hl]; rfl)
      (fun i => by rw [hl]; exact (registered_grows _ _ i).1)
      (fun i hi => .inl ((registered_grows _ _ i).2 (by rwa [hl] at hi)))
  | newEntry hm hl =>
    exact lookedUpBefore_congr hk (by rw [hm]; rfl) (by rw [hl]; rfl) (fun i => by rw [hl]; rfl)
      (fun i hi => .inl (by rwa [hl] at hi))
  | deleteEntry hm hl =>
    exact lookedUpBefore_congr hk (by rw [hm]; rfl) (by rw [hl]; rfl)
      (fun i => by rw [hl]; exact (finish_grows (st.lifetimes.called _ _) _ i).1)
      (fun i hi => by rw [hl] at hi ⊢; exact (finish_grows (st.lifetimes.called _ _) _ i).2 hi)
  | disconnectNext hc hm hl =>
    exact lookedUpBefore_congr hk (by rw [hm]; rfl) (by rw [hl]; rfl) (fun i => by rw [hl]; rfl)
      (fun i hi => .inl (by rwa [hl] at hi))
  | disconnectStop hm hl =>
    exact lookedUpBefore_congr hk (by rw [hm]) (by rw [hl]) (fun i => by rw [hl])
      (fun i hi => .inl (by rwa [hl] at hi))
  | disconnectEnd hm hl =>
    exact lookedUpBefore_congr hk (by rw [hm]) (by rw [hl]; rfl)
      (fun i => by rw [hl]; exact (finish_grows _ _ i).1)
      (fun i hi => by rw [hl] at hi ⊢; exact (finish_grows _ _ i).2 hi)

/-- A dispatcher stores its response. -/
theorem dies_dispatchStore {d : Nat} {t : Int}
    (hd : Dies st.manager.Fetchable st.manager.HasEntry st.lifetimes) (hk : st.LookedUpBefore)
    (hstep : CGPBManagerV2.step cfg st.manager (.dispatch d (.store t)) = some st'.manager)
    (hl : st'.lifetimes = st.lifetimes.note cfg st.manager st'.manager (.dispatch d (.store t))) :
    Dies st'.manager.Fetchable st'.manager.HasEntry st'.lifetimes ↔
      EndsClean cfg st (.manager (.dispatch d (.store t))) := by
  have hstore : dispatchStore cfg st.manager d t = some st'.manager := hstep
  obtain ⟨n, i, p, hpc, _⟩ := dispatchStore_cases hstore
  obtain ⟨hpos, _, hended⟩ := hk d n i p hpc
  have hfetch := dispatchStore_fetchable hpc hpos hstep
  have hentry : st'.manager.HasEntry = st.manager.HasEntry := by
    funext j
    unfold HasEntry
    rw [step_sended_isSome hstep (by simp)]
  have hcond : EndsClean cfg st (.manager (.dispatch d (.store t))) ↔
      st.lifetimes.lookedUp d = st.lifetimes.generation i ∨ cfg.traits.msgid p.2 < 0 ∨
        (st.manager.resPacket i (cfg.traits.msgid p.2)).isSome := by
    refine ⟨fun hc => hc n i p hpc, fun hc n' i' p' hpc' => ?_⟩
    rw [hpc] at hpc'
    cases hpc'
    exact hc
  rw [hentry, hl, hcond]
  simp only [Lifetimes.note, hpc]
  by_cases hsome : (st.manager.resPacket i (cfg.traits.msgid p.2)).isSome
  · -- the key is taken, so nothing is inserted
    have hnone : ¬ (st.manager.resPacket i (cfg.traits.msgid p.2)).isNone := by
      simp [Option.isNone_eq_false_iff.mpr hsome]
    rw [if_neg hnone]
    refine iff_of_true (dies_shrink hd (fun j id hf => ?_) (fun _ hj => hj) rfl rfl
      (fun _ _ _ => rfl)) (.inr (.inr hsome))
    rcases (hfetch j id).mp hf with hf | ⟨rfl, rfl, hid⟩
    · exact hf
    · exact ⟨hpos, hid, hsome⟩
  · have hnone := Option.not_isSome_iff_eq_none.mp hsome
    rw [if_pos (by rw [hnone]; rfl)]
    refine (dies_store hd (fun hf => hsome hf.2.2) hended hfetch).trans ?_
    simp [hnone]

/-- A step of the manager adds to the data only by storing a response. -/
theorem dies_manager {a : Event Packet}
    (hd : Dies st.manager.Fetchable st.manager.HasEntry st.lifetimes) (hk : st.LookedUpBefore)
    (hne : ∀ i, a ≠ .disconnect i)
    (hstep : CGPBManagerV2.step cfg st.manager a = some st'.manager)
    (hl : st'.lifetimes = st.lifetimes.note cfg st.manager st'.manager a) :
    Dies st'.manager.Fetchable st'.manager.HasEntry st'.lifetimes ↔
      EndsClean cfg st (.manager a) := by
  by_cases hstore : ∃ d t, a = .dispatch d (.store t)
  · obtain ⟨d, t, rfl⟩ := hstore
    exact dies_dispatchStore hd hk hstep hl
  · have hnot : ∀ d t, a ≠ .dispatch d (.store t) := fun d t ha => hstore ⟨d, t, ha⟩
    have hc : EndsClean cfg st (.manager a) := by
      unfold EndsClean
      split
      all_goals first | trivial | (rename_i heq; cases heq; exact absurd rfl (hnot _ _))
    obtain ⟨_, hend, hgen⟩ := Lifetimes.note_frame cfg st.lifetimes st.manager st'.manager a
    refine iff_of_true (dies_shrink hd (fun j id hf => ?_) (fun j hj => ?_) ?_ ?_
      (fun j id _ => ?_)) hc
    · by_cases hrecv : ∃ i k, a = .receivePacket i k
      · obtain ⟨i, k, rfl⟩ := hrecv
        rw [← Option.some.inj hstep] at hf
        exact receivePacket_fetchable hf
      · unfold Fetchable resPacket at hf ⊢
        rwa [step_responses hstep hnot (fun i k ha => hrecv ⟨i, k, ha⟩)] at hf
    · unfold HasEntry at hj ⊢
      rwa [step_sended_isSome hstep hne] at hj
    · rw [hl, hend]
    · rw [hl, hgen]
    · rw [hl]
      unfold Lifetimes.note
      split
      · split <;> rfl
      · exact absurd rfl (hnot _ _)
      · rfl

omit [DecidableEq ReqCode] [DecidableEq ResCode] in
/-- The last section of `disconnect` ends the connection, unless its index is in use again. -/
theorem dies_deleteEntry {i : SockIndex}
    (hd : Dies st.manager.Fetchable st.manager.HasEntry st.lifetimes) :
    Dies (st.manager.setSended i none).Fetchable (st.manager.setSended i none).HasEntry
        ((st.lifetimes.called i .receiveDisconnection).finish
          (fun j => decide (j = i ∧ i ∉ st.registry))) ↔
      EndsClean cfg st (.deleteEntry i) := by
  have hgone : ∀ j, (st.manager.setSended i none).HasEntry j → j ≠ i ∧ st.manager.HasEntry j := by
    intro j hj
    simpa using hasEntry_setSended.mp hj
  refine (dies_finish (l := st.lifetimes.called i .receiveDisconnection) ⟨hd.fails, hd.no_entry,
    hd.own⟩ (fun j hj => (hgone j hj).2)).trans ⟨fun hR hno => ?_, fun hi j hj => ?_⟩
  · exact (drained_iff st i).mpr (hR i (by simpa using hno)).1
  · obtain ⟨rfl, hno⟩ : j = i ∧ i ∉ st.registry := by simpa using hj
    exact ⟨(drained_iff st j).mp (hi hno), fun hent => (hgone j hent).1 rfl⟩

omit [DecidableEq ReqCode] [DecidableEq ResCode] in
/-- `disconnectAll` ends every registered connection. -/
theorem dies_disconnectEnd {c : CNetworkCommunicator}
    (hd : Dies st.manager.Fetchable st.manager.HasEntry st.lifetimes) (ht : st.Tracks) :
    Dies ({ st.manager with networkManager := c } : CGPBManagerV2 Packet).Fetchable
        ({ st.manager with networkManager := c } : CGPBManagerV2 Packet).HasEntry
        (st.lifetimes.finish (fun j => decide (j ∈ st.registry))) ↔
      EndsClean cfg st .disconnectEnd := by
  refine (dies_finish hd (fun _ hj => hj)).trans ⟨fun hR i hi => ?_, fun hall i hi => ?_⟩
  · obtain ⟨h1, h2⟩ := hR i (by simpa using hi)
    exact ⟨(drained_iff st i).mpr h1, fun hann => h2 ((ht i).mpr hann)⟩
  · obtain ⟨h1, h2⟩ := hall i (by simpa using hi)
    exact ⟨(drained_iff st i).mp h1, fun hent => h2 ((ht i).mp hent)⟩

/-- **What a step does to the data of ended connections**: they are still gone exactly if the step
    meets the condition. -/
theorem dataDies_step (hdies : st.DataDies) (ht : st.Tracks)
    (hk : st.LookedUpBefore) (h : Lifecycle.step cfg st e = some st') :
    st'.DataDies ↔ EndsClean cfg st e := by
  have hd := (dataDies_iff st).mp hdies
  rw [dataDies_iff]
  cases lifecycle_step_effect h with
  | manager hne hstep hl => exact dies_manager hd hk hne hstep hl
  | quiet hq c hm hsub hl =>
    have hc : EndsClean cfg st e := by
      unfold EndsClean
      split <;> first | cases hq | trivial
    refine iff_of_true ?_ hc
    rw [hm, hl]
    exact hd
  | createSocket hreg hm hl =>
    rw [hm, hl]
    refine (dies_registered hd).trans ⟨fun hi j s c hj => ?_, fun hi => ?_⟩
    · rw [hreg] at hj
      cases hj
      exact (drained_iff st _).mpr hi
    · exact (drained_iff st _).mp (hi _ _ _ hreg)
  | registerSocket hreg hm hl =>
    rw [hm, hl]
    refine (dies_registered hd).trans ⟨fun hi j c hj => ?_, fun hi => ?_⟩
    · rw [hreg] at hj
      cases hj
      exact (drained_iff st _).mpr hi
    · exact (drained_iff st _).mp (hi _ _ hreg)
  | newEntry hm hl =>
    rw [hm, hl]
    refine dies_newEntry hd ?_ (fun j hj => ?_) _
    · exact hasEntry_setSended.mpr (.inl ⟨rfl, rfl⟩)
    · exact (hasEntry_setSended.mp hj).imp And.left And.right
  | deleteEntry hm hl =>
    rw [hm, hl]
    exact dies_deleteEntry hd
  | disconnectNext hc hm hl =>
    rename_i i rest
    refine iff_of_true ?_ trivial
    rw [hm, hl]
    refine dies_shrink hd (fun _ _ hf => hf) (fun j hj => ?_) rfl rfl (fun _ _ _ => rfl)
    obtain ⟨_, hnone⟩ | ⟨_, hj⟩ := hasEntry_setSended.mp hj
    · cases hnone
    · exact hj
  | disconnectStop hm hl =>
    refine iff_of_true ?_ trivial
    rw [hm, hl]
    exact hd
  | disconnectEnd hm hl =>
    rw [hm, hl]
    exact dies_disconnectEnd hd ht

end Runs

/-- **When the data of a connection die with it.**  In every run, `receivePacket` fails for every id
    of an ended connection, no entry for sent packets is left until a new connection is registered,
    and what is fetched belongs to the present connection of the index, exactly when every step
    meets the condition: a connection ends when all its responses have been fetched, a dispatcher
    does not store a response of a connection that has ended meanwhile, and a connection is not
    announced after its end. -/
theorem data_dies_iff [DecidableEq ReqCode] [DecidableEq ResCode]
    (cfg : Config Packet ReqCode ResCode) (isUse : Bool) (es : List (LifeEvent Packet)) :
    Always (Lifecycle.step cfg) DataDies (Lifecycle.create isUse) es ↔
      Meets (Lifecycle.step cfg) (EndsClean cfg) (Lifecycle.create isUse) es := by
  refine always_iff_meets (I := fun st : Lifecycle Packet =>
    st.DataDies ∧ st.Tracks ∧ st.OpenRegistered ∧ st.LookedUpBefore) ?_ ?_ ?_ es _ ?_
  · exact fun st hi => hi.1
  · rintro st e st' ⟨hd, ht, ho, hk⟩ hc h
    exact ⟨(dataDies_step hd ht hk h).mpr hc, tracks_step ht h, openRegistered_step ho h,
      lookedUpBefore_step hk ho h⟩
  · rintro st e st' ⟨hd, ht, ho, hk⟩ hc h hd'
    exact hc ((dataDies_step hd ht hk h).mp hd')
  · refine ⟨⟨fun i hi => ?_, fun i hi => ?_, fun i id hf => absurd ?_ hf⟩, create_tracks isUse,
      fun i _ => rfl, fun d n i p hpc => ?_⟩
    · cases hi
    · cases hi
    · rw [receiveFails_iff]
      rintro ⟨_, _, hsome⟩
      cases hsome
    · cases hpc

/-- A response arrives and is stored, the caller disconnects, and the response can still be
    fetched. -/
theorem response_outlives_connection :
    ∃ st, run (Lifecycle.step SamplePacket.config) (Lifecycle.create false)
      (SamplePacket.connected ++
        [.manager (.recv 0 (.start 0 [0, 0, 0, 3, 4, 0, 7])), .manager (.dispatch 0 .pop),
          .manager (.dispatch 0 (.message (⟨0, 0, 0⟩, false) 0)), .manager (.dispatch 0 (.store 0)),
          .disconnect 1, .eraseSocket 1, .deleteEntry 1]) = some st ∧
      st.lifetimes.ended 1 = true ∧ ¬ st.manager.ReceiveFails 1 4 := by
  refine ⟨_, rfl, rfl, fun hfails => ?_⟩
  exact absurd ((receiveFails_iff _ 1 4).mp hfails ⟨by decide, by decide, rfl⟩) not_false

end IMonPlatform
