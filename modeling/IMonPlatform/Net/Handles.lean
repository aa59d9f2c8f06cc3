import IMonPlatform.Net.Registry
import IMonPlatform.Net.ManagerSteps

/-!
# Socket indices and message ids as handles

A caller tells success from failure by the sign of the number it gets: `connectTo` gives an index
or something not above 0, `sendPacket` an id or something below 0, and `receivePacket` refuses
other indices and ids at once.  Both numbers come from 32-bit counters that are only incremented.

* `Counted` — the first `2^31 - 1` registrations get the indices from 1 on, the next one gets
  `-2^31`.
* `autoIds_eq` — the ids assigned automatically along a run are `1, 2, …`, reduced to 32 bits.
* `Sends` — a queued packet keeps its id, and its `sendPacket` call returns it.
* `handles_positive_iff` — no handle looks like an error exactly while fewer than `2^31`
  registrations and fewer than `2^31` automatic assignments have been made.
-/

set_option autoImplicit false

namespace IMonPlatform

open Framing CNetworkCommunicator CGPBManagerV2 Transition

variable {Packet ReqCode ResCode : Type}

/-! ## Socket indices -/

/-- The counter before and after it passes the largest 32-bit number. -/
structure Counted (st : Registry) : Prop where
  below : st.stored.length < 2 ^ 31 → st.comm.socketIndex = st.stored.length ∧
    (∀ i : Int, i ∈ st.comm.mapIndexToSocket → 0 < i ∧ i ≤ st.stored.length) ∧
    (∀ i : Int, i ∈ st.stored → 0 < i) ∧ ∀ g ∈ st.given, 0 < g.socketIndex
  beyond : 2 ^ 31 ≤ st.stored.length → ∃ i : Int, i ∈ st.stored ∧ i ≤ 0
  waiting : st.stored = [] → st.creating = [] ∧ st.returning = []

theorem create_counted : Counted Registry.create := by
  refine ⟨fun _ => ⟨rfl, fun i hi => ?_, fun i hi => ?_, fun g hg => ?_⟩, fun h => ?_,
    fun _ => ⟨rfl, rfl⟩⟩
  · simp [Registry.create, CNetworkCommunicator.empty] at hi
  · cases hi
  · cases hg
  · exact absurd h (by decide)

theorem i32_eq_self {n : Nat} (h : n < 2 ^ 31) : i32 n = n := by
  unfold i32
  exact Int.bmod_eq_of_le (by omega) (by omega)

/-- The first index that is not positive. -/
theorem i32_two_pow_31 : i32 ((2 ^ 31 : Nat) : Int) = -2147483648 := by decide

section Counting

variable {st st' : Registry} {i : Int} {s : Sock}

/-- While the counter counts, the next index is the number of the registration. -/
theorem Stores.index_below (hst : Stores st st' i s) (hc : Counted st)
    (hlt : st.stored.length + 1 < 2 ^ 31) : i = (st.stored.length + 1 : Nat) := by
  obtain ⟨hcnt, hkeys, _⟩ := hc.below (by omega)
  have hinc : interlockedIncrement st.comm.socketIndex = (st.stored.length + 1 : Nat) := by
    rw [interlockedIncrement, hcnt, ← i32_eq_self (n := st.stored.length + 1) hlt]
    rfl
  rw [← hinc]
  refine hst.next (fun hmem => ?_)
  rw [hinc] at hmem
  have := (hkeys _ hmem).2
  omega

/-- The registration that passes the largest number gets the smallest one. -/
theorem Stores.index_wraps (hst : Stores st st' i s) (hc : Counted st)
    (heq : st.stored.length + 1 = 2 ^ 31) : i = -2147483648 := by
  obtain ⟨hcnt, hkeys, _⟩ := hc.below (by omega)
  have hinc : interlockedIncrement st.comm.socketIndex = -2147483648 := by
    rw [← i32_two_pow_31, interlockedIncrement, hcnt]
    congr 1
    omega
  rw [← hinc]
  refine hst.next (fun hmem => ?_)
  rw [hinc] at hmem
  have := (hkeys _ hmem).1
  omega

/-- A registration while the counter counts. -/
theorem Stores.counted (hst : Stores st st' i s) (hc : Counted st) : Counted st' := by
  have hlen : st'.stored.length = st.stored.length + 1 := by simp [hst.stored]
  refine ⟨fun hlt => ?_, fun hge => ?_, fun hnil => ?_⟩
  · obtain ⟨_, hkeys, hpos, hgiven⟩ := hc.below (by omega)
    have hi := hst.index_below hc (by omega)
    refine ⟨by rw [hst.counter, hi, hlen], fun j hj => ?_, fun j hj => ?_, ?_⟩
    · rw [hst.map, AList.mem_insert] at hj
      rw [hlen]
      rcases hj with rfl | hj
      · rw [hi]
        constructor <;> omega
      · have := hkeys j hj
        constructor <;> omega
    · rw [hst.stored] at hj
      rcases List.mem_append.mp hj with hj | hj
      · exact hpos j hj
      · rw [List.mem_singleton.mp hj, hi]
        omega
    · rw [hst.given]
      exact hgiven
  · rw [hst.stored]
    by_cases hlt : st.stored.length < 2 ^ 31
    · have hi := hst.index_wraps hc (by omega)
      exact ⟨i, List.mem_append_right _ List.mem_cons_self, by rw [hi]; decide⟩
    · obtain ⟨j, hj, hj0⟩ := hc.beyond (by omega)
      exact ⟨j, List.mem_append_left _ hj, hj0⟩
  · rw [hst.stored] at hnil
    simp at hnil

/-- A returned index is the counter, which counts some registration. -/
theorem return_counted {conn : Sock} (hc : Counted st)
    (h : st.returnIndex conn = some st' ∨ st.returnAccept conn = some st') :
    Counted st' ∧ st'.stored = st.stored := by
  obtain ⟨hwait, hcomm, hstored, hgiven, _⟩ := return_gives h
  have hne : st.stored ≠ [] := by
    intro hnil
    obtain ⟨h1, h2⟩ := hc.waiting hnil
    simp [h1, h2] at hwait
  refine ⟨⟨fun hlt => ?_, ?_, ?_⟩, hstored⟩
  · rw [hstored] at hlt
    obtain ⟨hcnt, hkeys, hpos, hgpos⟩ := hc.below hlt
    rw [hcomm, hstored, hgiven]
    refine ⟨hcnt, hkeys, hpos, fun g hg => ?_⟩
    rcases List.mem_append.mp hg with hg | hg
    · exact hgpos g hg
    · rw [List.mem_singleton.mp hg]
      simp only [Registry.give, hcnt]
      exact Int.natCast_pos.mpr (List.length_pos_iff.mpr hne)
  · rw [hstored]
    exact hc.beyond
  · intro hnil
    exact absurd (hstored ▸ hnil) hne

theorem Removes.counted (hr : Removes st st') (hc : Counted st) : Counted st' := by
  refine ⟨fun hlt => ?_, ?_, ?_⟩
  · rw [hr.stored] at hlt
    obtain ⟨hcnt, hkeys, hpos, hgpos⟩ := hc.below hlt
    rw [hr.counter, hr.stored, hr.given]
    refine ⟨hcnt, fun i hi => ?_, hpos, hgpos⟩
    obtain ⟨s, hs⟩ := exists_lookup_of_mem hi
    exact hkeys i (mem_of_lookup (hr.map i s hs))
  · rw [hr.stored]
    exact hc.beyond
  · rw [hr.stored, hr.creating, hr.returning]
    exact hc.waiting

theorem step_counted {op : RegOp} (hc : Counted st) (h : Registry.step st op = some st') :
    Counted st' ∧ st'.stored.length = st.stored.length + if op.registers then 1 else 0 := by
  rcases registry_step_cases h with ⟨_, rfl, h⟩ | ⟨_, rfl, h⟩ | ⟨_, ⟨rfl, h⟩ | ⟨rfl, h⟩⟩ |
    ⟨hr, _, hno⟩
  · obtain ⟨⟨i, hst⟩, _⟩ := createSocket_stores h
    exact ⟨hst.counted hc, by simp [hst.stored, RegOp.registers]⟩
  · obtain ⟨_, ⟨i, hst⟩, _⟩ := registerSocket_stores h
    exact ⟨hst.counted hc, by simp [hst.stored, RegOp.registers]⟩
  · obtain ⟨hc', hstored⟩ := return_counted hc (.inl h)
    exact ⟨hc', by simp [hstored, RegOp.registers]⟩
  · obtain ⟨hc', hstored⟩ := return_counted hc (.inr h)
    exact ⟨hc', by simp [hstored, RegOp.registers]⟩
  · exact ⟨hr.counted hc, by simp [hr.stored, hno]⟩

end Counting

/-- Every stored index is positive exactly while fewer than `2^31` have been stored, and so is
    every returned one. -/
theorem run_counted {ops : List RegOp} {st : Registry}
    (h : run Registry.step Registry.create ops = some st) :
    Counted st ∧ st.stored.length = ops.countP RegOp.registers := by
  induction ops using List.reverseRecOn generalizing st with
  | nil =>
    cases h
    exact ⟨create_counted, rfl⟩
  | append_singleton ops op ih =>
    obtain ⟨mid, hmid, hstep⟩ := run_snoc.mp h
    obtain ⟨hc, hlen⟩ := ih hmid
    obtain ⟨hc', hlen'⟩ := step_counted hc hstep
    refine ⟨hc', ?_⟩
    rw [hlen', hlen, List.countP_append, List.countP_singleton]

theorem stored_positive_iff {ops : List RegOp} {st : Registry}
    (h : run Registry.step Registry.create ops = some st) :
    ((∀ i ∈ st.stored, 0 < i) ↔ ops.countP RegOp.registers < 2 ^ 31) := by
  obtain ⟨hc, hlen⟩ := run_counted h
  rw [← hlen]
  refine ⟨fun hall => ?_, fun hlt => (hc.below hlt).2.2.1⟩
  by_contra hge
  obtain ⟨i, hi, hi0⟩ := hc.beyond (Nat.le_of_not_lt hge)
  exact absurd (hall i hi) (Int.not_lt.mpr hi0)

/-! ## Message ids -/

section Ids

variable [DecidableEq ReqCode] [DecidableEq ResCode] {cfg : Config Packet ReqCode ResCode}
  {m m' : CGPBManagerV2 Packet}

/-- The id that a step assigns automatically. -/
def autoId (m : CGPBManagerV2 Packet) : Event Packet → Option Int
  | .send c .assign =>
    match m.calls c with
    | .assign _ _ true => some (interlockedIncrement m.globalMessageID)
    | _ => none
  | _ => none

/-- The ids that the `sendPacket` calls of a run assign automatically. -/
def autoIds (cfg : Config Packet ReqCode ResCode) (m : CGPBManagerV2 Packet)
    (es : List (Event Packet)) : List Int :=
  outputs (CGPBManagerV2.step cfg) autoId m es

/-- The other steps touch neither the counter nor the queued packets; a slot's answer starts a
    call that assigns no id. -/
theorem step_counter_calls {e : Event Packet} (h : CGPBManagerV2.step cfg m e = some m') :
    (∃ c a, e = .send c a ∧ sendStep cfg m c a = some m') ∨
      ((∀ c a, e ≠ .send c a) ∧ m'.globalMessageID = m.globalMessageID ∧
        m'.log.enqueued = m.log.enqueued ∧
        (m'.calls = m.calls ∨ ∃ c s p, m.calls c = .idle ∧
          m'.calls = Function.update m.calls c (.assign s p false))) := by
  cases e with
  | send c a => exact .inl ⟨c, a, rfl, h⟩
  | sender a =>
    have hf := senderStep_frame h
    exact .inr ⟨by simp, hf.counter, hf.enqueued, .inl hf.calls⟩
  | recv n a =>
    have hf := recvStep_frame h
    exact .inr ⟨by simp, hf.counter, hf.enqueued, .inl hf.calls⟩
  | dispatch d a =>
    have hf := dispatchStep_frame h
    refine .inr ⟨by simp, hf.counter, hf.enqueued, ?_⟩
    cases a with
    | pop =>
      obtain ⟨_, _, _, _, rfl⟩ := dispatchPop_cases h
      exact .inl rfl
    | message result call =>
      obtain ⟨_, _, _, ⟨_, ⟨hidle, rfl⟩ | rfl⟩ | ⟨_, ⟨_, rfl⟩ | ⟨_, rfl⟩⟩⟩ :=
        dispatchMessage_cases h
      · exact .inr ⟨call, _, _, hidle, rfl⟩
      · exact .inl rfl
      · exact .inl rfl
      · exact .inl rfl
    | ret =>
      obtain ⟨_, _, rfl⟩ := dispatchReturn_cases h
      exact .inl rfl
    | store time =>
      obtain ⟨_, _, _, _, rfl⟩ := dispatchStore_cases h
      exact .inl rfl
  | receivePacket i id =>
    cases h
    rcases receivePacket_cases m i id with heq | ⟨_, _, _, _, heq⟩ <;> rw [heq] <;>
      exact .inr ⟨by simp, rfl, rfl, .inl rfl⟩
  | disconnect i =>
    cases h
    rcases disconnect_cases m i with heq | ⟨_, _, heq⟩ <;> rw [heq] <;>
      exact .inr ⟨by simp, rfl, rfl, .inl rfl⟩
  | setIsUseServerBusyWaiting b =>
    cases h
    exact .inr ⟨by simp, rfl, rfl, .inl rfl⟩

omit [DecidableEq ReqCode] [DecidableEq ResCode] in
/-- The packet gets the next number, or keeps its own id. -/
theorem sendAssign_ids {c : Nat} (h : sendAssign cfg m c = some m') :
    ∃ s p, (m.calls c = .assign s p true ∧
        m' = { m with globalMessageID := interlockedIncrement m.globalMessageID }.setCall c
          (.push s (cfg.traits.set_msgid p (interlockedIncrement m.globalMessageID)))) ∨
      (m.calls c = .assign s p false ∧ m' = m.setCall c (.push s p)) := by
  unfold sendAssign at h
  split at h <;> cases h
  · exact ⟨_, _, .inl ⟨‹_›, rfl⟩⟩
  · exact ⟨_, _, .inr ⟨‹_›, rfl⟩⟩

/-- The counter moves exactly when an id is assigned, and then to that id. -/
theorem step_globalMessageID {e : Event Packet} (h : CGPBManagerV2.step cfg m e = some m') :
    autoId m e = none ∧ m'.globalMessageID = m.globalMessageID ∨
      autoId m e = some (interlockedIncrement m.globalMessageID) ∧
        m'.globalMessageID = interlockedIncrement m.globalMessageID := by
  rcases step_counter_calls h with ⟨c, a, rfl, hs⟩ | ⟨hno, hcnt, _⟩
  · clear h
    cases a with
    | start target packet auto =>
      obtain ⟨_, _, _, _, rfl, _⟩ := sendStart_cases hs
      exact .inl ⟨rfl, rfl⟩
    | assign =>
      obtain ⟨_, _, ⟨hpc, rfl⟩ | ⟨hpc, rfl⟩⟩ := sendAssign_ids hs
      · exact .inr ⟨by simp [autoId, hpc], rfl⟩
      · exact .inl ⟨by simp [autoId, hpc], rfl⟩
    | push =>
      obtain ⟨_, _, _, rfl⟩ := sendPush_cases hs
      exact .inl ⟨rfl, rfl⟩
    | ret =>
      obtain ⟨_, _, rfl⟩ := sendReturn_cases hs
      exact .inl ⟨rfl, rfl⟩
  · refine .inl ⟨?_, hcnt⟩
    unfold autoId
    split
    · exact absurd rfl (hno _ _)
    · rfl

/-- **The automatic ids of a run**: the numbers after the counter's, reduced to 32 bits. -/
theorem autoIds_eq : ∀ (es : List (Event Packet)) {m : CGPBManagerV2 Packet} {k : Nat},
    m.globalMessageID = i32 k →
      autoIds cfg m es = (List.range' (k + 1) (autoIds cfg m es).length).map (fun n : Nat => i32 n)
  | [], _, _, _ => rfl
  | e :: es, m, k, hk => by
    unfold autoIds outputs
    cases hs : CGPBManagerV2.step cfg m e with
    | none => rfl
    | some m' =>
      have hnext : interlockedIncrement (i32 k) = i32 (k + 1 : Nat) := by
        simp [interlockedIncrement, i32, Int.bmod_add_bmod]
      rcases step_globalMessageID hs with ⟨hout, hcnt⟩ | ⟨hout, hcnt⟩
      · simp only [hout, Option.toList_none, List.nil_append]
        exact autoIds_eq es (hcnt.trans hk)
      · have ih := autoIds_eq es (k := k + 1) (by rw [hcnt, hk, hnext])
        simp only [hout, hk, hnext, Option.toList_some, List.singleton_append, List.length_cons,
          List.range'_succ, List.map_cons]
        exact congrArg _ ih

/-- A negative id is assigned exactly when the counter has passed the largest number. -/
theorem autoIds_nonneg_iff {m : CGPBManagerV2 Packet} (hm : m.globalMessageID = 0)
    (es : List (Event Packet)) :
    (∀ id ∈ autoIds cfg m es, 0 ≤ id) ↔ (autoIds cfg m es).length < 2 ^ 31 := by
  have heq : autoIds cfg m es = _ := autoIds_eq es (k := 0) hm
  constructor
  · intro hall
    by_contra hge
    have hmem : i32 ((2 ^ 31 : Nat) : Int) ∈ autoIds cfg m es := by
      rw [heq]
      refine List.mem_map.mpr ⟨2 ^ 31, List.mem_range'_1.mpr ⟨by decide, ?_⟩, rfl⟩
      omega
    have := hall _ hmem
    rw [i32_two_pow_31] at this
    exact absurd this (by decide)
  · intro hlt id hid
    rw [heq] at hid
    obtain ⟨n, hn, rfl⟩ := List.mem_map.mp hid
    have hn := List.mem_range'_1.mp hn
    rw [i32_eq_self (by omega)]
    exact Int.natCast_nonneg n

/-- Call `c` was made with `autoAssignMsgID`. -/
def AutoCall (es : List (Event Packet)) (c : Nat) : Prop :=
  ∃ target packet, Event.send c (.start target packet true) ∈ es

/-- Such a call never holds a negative id; `-1` is the refusal of its target. -/
def AutoPc (cfg : Config Packet ReqCode ResCode) : CallPc Packet → Prop
  | .idle => False
  | .assign _ _ auto => auto = true
  | .push _ p | .ret p => 0 ≤ cfg.traits.msgid p
  | .done result => 0 ≤ result ∨ result = -1

/-- What a queued packet and its call share. -/
structure Sends (cfg : Config Packet ReqCode ResCode) (es : List (Event Packet))
    (m : CGPBManagerV2 Packet) : Prop where
  auto : ∀ c, AutoCall es c → AutoPc cfg (m.calls c)
  returns : ∀ c s p, (c, s, p) ∈ m.log.enqueued →
    m.calls c = .ret p ∨ m.calls c = .done (cfg.traits.msgid p)
  nonneg : ∀ c s p, (c, s, p) ∈ m.log.enqueued → AutoCall es c → 0 ≤ cfg.traits.msgid p

omit [DecidableEq ReqCode] [DecidableEq ResCode] in
/-- Call `c` goes on; what it has not queued is not in the history under its name. -/
theorem Sends.setCall {es : List (Event Packet)} {e : Event Packet} {c : Nat}
    {pc : CallPc Packet} (hs : Sends cfg es m)
    (hcalls : m'.calls = Function.update m.calls c pc)
    (hlog : m'.log.enqueued = m.log.enqueued)
    (hold : ∀ p, m.calls c ≠ .ret p ∧ m.calls c ≠ .done (cfg.traits.msgid p))
    (hpc : AutoCall (es ++ [e]) c → AutoPc cfg pc)
    (hother : ∀ c', c' ≠ c → AutoCall (es ++ [e]) c' → AutoCall es c') :
    Sends cfg (es ++ [e]) m' := by
  have hne : ∀ c' s p, (c', s, p) ∈ m.log.enqueued → c' ≠ c := by
    rintro c' s p hmem rfl
    rcases hs.returns c' s p hmem with h | h
    · exact (hold p).1 h
    · exact (hold p).2 h
  refine ⟨fun c' hc' => ?_, fun c' s p hmem => ?_, fun c' s p hmem hc' => ?_⟩
  · rw [hcalls]
    by_cases h : c' = c
    · subst h
      rw [Function.update_self]
      exact hpc hc'
    · rw [Function.update_of_ne h]
      exact hs.auto c' (hother c' h hc')
  · rw [hlog] at hmem
    rw [hcalls, Function.update_of_ne (hne c' s p hmem)]
    exact hs.returns c' s p hmem
  · rw [hlog] at hmem
    exact hs.nonneg c' s p hmem (hother c' (hne c' s p hmem) hc')

omit [DecidableEq ReqCode] [DecidableEq ResCode] in
theorem autoCall_snoc {es : List (Event Packet)} {e : Event Packet} {c : Nat}
    (h : AutoCall (es ++ [e]) c) :
    AutoCall es c ∨ ∃ target p, e = .send c (.start target p true) := by
  obtain ⟨target, p, hmem⟩ := h
  rcases List.mem_append.mp hmem with hmem | hmem
  · exact .inl ⟨target, p, hmem⟩
  · exact .inr ⟨target, p, (List.mem_singleton.mp hmem).symm⟩

omit [DecidableEq ReqCode] [DecidableEq ResCode] in
/-- A step that starts no call leaves the automatic calls as they are. -/
theorem autoCall_of_ne {es : List (Event Packet)} {e : Event Packet} {c : Nat}
    (he : ∀ target p, e ≠ .send c (.start target p true)) (h : AutoCall (es ++ [e]) c) :
    AutoCall es c := by
  rcases autoCall_snoc h with h | ⟨target, p, rfl⟩
  · exact h
  · exact absurd rfl (he target p)

omit [DecidableEq ReqCode] [DecidableEq ResCode] in
theorem sendStart_sends {es : List (Event Packet)} {c : Nat} {target : Target} {packet : Packet}
    {auto : Bool} (hs : Sends cfg es m) (h : sendStart m c target packet auto = some m') :
    Sends cfg (es ++ [.send c (.start target packet auto)]) m' := by
  obtain ⟨nm, pc, hidle, _, rfl, hpc⟩ := sendStart_cases h
  refine hs.setCall rfl rfl (fun p => by simp [hidle]) (fun hc => ?_) (fun c' hne hc' => ?_)
  · rcases autoCall_snoc hc with hc | ⟨_, _, heq⟩
    · have := hs.auto c hc
      rw [hidle] at this
      exact this.elim
    · cases heq
      rcases hpc with rfl | ⟨s, rfl⟩
      · exact .inr rfl
      · rfl
  · refine autoCall_of_ne (fun target' p heq => ?_) hc'
    cases heq
    exact hne rfl

omit [DecidableEq ReqCode] [DecidableEq ResCode] in
theorem sendAssign_sends {es : List (Event Packet)} {c : Nat} (hs : Sends cfg es m)
    (hid : ∀ id, autoId m (.send c .assign) = some id → 0 ≤ id)
    (h : sendAssign cfg m c = some m') : Sends cfg (es ++ [.send c .assign]) m' := by
  have hold : ∀ c', AutoCall (es ++ [.send c .assign]) c' → AutoCall es c' :=
    fun c' hc' => autoCall_of_ne (by simp) hc'
  obtain ⟨s, p, ⟨hpc, rfl⟩ | ⟨hpc, rfl⟩⟩ := sendAssign_ids h
  · refine hs.setCall rfl rfl (fun p => by simp [hpc]) (fun _ => ?_) (fun c' _ hc' => hold c' hc')
    show 0 ≤ cfg.traits.msgid (cfg.traits.set_msgid p _)
    rw [cfg.traits.msgid_set_msgid]
    exact hid _ (by simp [autoId, hpc])
  · refine hs.setCall rfl rfl (fun p => by simp [hpc]) (fun hc => ?_) (fun c' _ hc' => hold c' hc')
    have := hs.auto c (hold c hc)
    rw [hpc] at this
    cases this

omit [DecidableEq ReqCode] [DecidableEq ResCode] in
theorem sendPush_sends {es : List (Event Packet)} {c : Nat} (hs : Sends cfg es m)
    (h : sendPush m c = some m') : Sends cfg (es ++ [.send c .push]) m' := by
  have hold : ∀ c', AutoCall (es ++ [.send c .push]) c' → AutoCall es c' :=
    fun c' hc' => autoCall_of_ne (by simp) hc'
  obtain ⟨s, p, hpc, rfl⟩ := sendPush_cases h
  have hauto : AutoCall es c → 0 ≤ cfg.traits.msgid p := by
    intro hc
    have := hs.auto c hc
    rwa [hpc] at this
  refine ⟨fun c' hc' => ?_, fun c' s' p' hmem => ?_, fun c' s' p' hmem hc' => ?_⟩
  · by_cases hcc : c' = c
    · subst hcc
      simpa [AutoPc] using hauto (hold c' hc')
    · simpa [Function.update_of_ne hcc] using hs.auto c' (hold c' hc')
  · rcases List.mem_append.mp hmem with hin | hin
    · have hcc : c' ≠ c := by
        rintro rfl
        rcases hs.returns c' s' p' hin with h | h <;> simp [hpc] at h
      simpa [Function.update_of_ne hcc] using hs.returns c' s' p' hin
    · cases List.mem_singleton.mp hin
      exact .inl (by simp)
  · rcases List.mem_append.mp hmem with hmem | hmem
    · exact hs.nonneg c' s' p' hmem (hold c' hc')
    · cases List.mem_singleton.mp hmem
      exact hauto (hold c hc')

omit [DecidableEq ReqCode] [DecidableEq ResCode] in
theorem sendReturn_sends {es : List (Event Packet)} {c : Nat} (hs : Sends cfg es m)
    (h : sendReturn cfg m c = some m') : Sends cfg (es ++ [.send c .ret]) m' := by
  have hold : ∀ c', AutoCall (es ++ [.send c .ret]) c' → AutoCall es c' :=
    fun c' hc' => autoCall_of_ne (by simp) hc'
  obtain ⟨p, hpc, rfl⟩ := sendReturn_cases h
  refine ⟨fun c' hc' => ?_, fun c' s' p' hmem => ?_, fun c' s' p' hmem hc' => ?_⟩
  · have hc := hs.auto c' (hold c' hc')
    by_cases hcc : c' = c
    · subst hcc
      rw [hpc] at hc
      simpa [AutoPc] using Or.inl hc
    · simpa [Function.update_of_ne hcc] using hc
  · have hret := hs.returns c' s' p' hmem
    by_cases hcc : c' = c
    · subst hcc
      rcases hret with h | h
      · rw [hpc] at h
        cases h
        exact .inr (by simp)
      · simp [hpc] at h
    · simpa [Function.update_of_ne hcc] using hret
  · exact hs.nonneg c' s' p' hmem (hold c' hc')

theorem step_sends {es : List (Event Packet)} {e : Event Packet} (hs : Sends cfg es m)
    (hid : ∀ id, autoId m e = some id → 0 ≤ id) (h : CGPBManagerV2.step cfg m e = some m') :
    Sends cfg (es ++ [e]) m' := by
  rcases step_counter_calls h with ⟨c, a, rfl, h⟩ | ⟨hno, _, hlog, hcalls⟩
  · cases a with
    | start target packet auto => exact sendStart_sends hs h
    | assign => exact sendAssign_sends hs hid h
    | push => exact sendPush_sends hs h
    | ret => exact sendReturn_sends hs h
  · have hold : ∀ c, AutoCall (es ++ [e]) c → AutoCall es c :=
      fun c hc => autoCall_of_ne (fun _ _ heq => hno _ _ heq) hc
    rcases hcalls with hcalls | ⟨c, s, p, hidle, hcalls⟩
    · refine ⟨fun c hc => ?_, fun c s p hmem => ?_, fun c s p hmem hc => ?_⟩
      · rw [hcalls]
        exact hs.auto c (hold c hc)
      · rw [hcalls]
        exact hs.returns c s p (hlog ▸ hmem)
      · exact hs.nonneg c s p (hlog ▸ hmem) (hold c hc)
    · refine hs.setCall hcalls hlog (fun p => by simp [hidle]) (fun hc => ?_)
        (fun c' _ hc' => hold c' hc')
      have := hs.auto c (hold c hc)
      rw [hidle] at this
      exact this.elim

/-- Along a run without negative ids. -/
theorem run_sends {m₀ m : CGPBManagerV2 Packet} (hlog : m₀.log.enqueued = [])
    {es : List (Event Packet)}
    (hids : ∀ id ∈ autoIds cfg m₀ es, 0 ≤ id)
    (h : run (CGPBManagerV2.step cfg) m₀ es = some m) : Sends cfg es m := by
  induction es using List.reverseRecOn generalizing m with
  | nil =>
    cases h
    refine ⟨fun c hc => ?_, fun c s p hmem => ?_, fun c s p hmem _ => ?_⟩
    · obtain ⟨_, _, hmem⟩ := hc
      cases hmem
    · rw [hlog] at hmem
      cases hmem
    · rw [hlog] at hmem
      cases hmem
  | append_singleton es e ih =>
    obtain ⟨mid, hmid, hstep⟩ := run_snoc.mp h
    have hsplit : autoIds cfg m₀ (es ++ [e]) = autoIds cfg m₀ es ++ (autoId mid e).toList := by
      unfold autoIds
      rw [outputs_append hmid]
      simp [outputs, hstep]
    rw [hsplit] at hids
    refine step_sends (ih (fun id hid => hids id (List.mem_append_left _ hid)) hmid)
      (fun id hid => hids id (List.mem_append_right _ ?_)) hstep
    simp [hid]

end Ids

/-! ## Handles -/

/-- `CGPBManagerV2::connectTo`, from what the communicator's `connectTo` returned. -/
def CGPBManagerV2.connectTo (sockIndex : SockIndex) : Bool := if sockIndex > 0 then true else false

theorem receivePacket_taken {m : CGPBManagerV2 Packet} {i : SockIndex} {id : Int}
    {f : Int → Option (Int × Packet)} {v : Int × Packet} (hi : 0 < i) (hid : 0 ≤ id)
    (hf : m.mapSocketToResPacket i = some f) (hv : f id = some v) :
    (receivePacket m i id).log.returned = m.log.returned ++ [((i, id), v.2)] := by
  unfold receivePacket
  rw [if_neg (Int.not_le.mpr hi), if_neg (Int.not_lt.mpr hid), hf]
  simp [hv]

/-- **When no handle looks like an error.**  Along any run of the registry the stored indices are
    positive exactly while fewer than `2^31` registrations have been made; then every index that
    `registerSocket` returns is positive too, and `connectTo` reports success.  Along any run of
    the manager the ids assigned automatically are not negative exactly while fewer than `2^31`
    have been assigned; then every packet queued by such a call has a nonnegative id, its
    `sendPacket` returns that id, and `receivePacket` hands out the response stored for it. -/
theorem handles_positive_iff [DecidableEq ReqCode] [DecidableEq ResCode]
    (cfg : Config Packet ReqCode ResCode) (nm : CNetworkCommunicator)
    (announced : SockIndex → Bool) (use : Bool) (ops : List RegOp) (es : List (Event Packet)) :
    (∀ st, run Registry.step Registry.create ops = some st →
      ((∀ i ∈ st.stored, 0 < i) ↔ ops.countP RegOp.registers < 2 ^ 31) ∧
      (ops.countP RegOp.registers < 2 ^ 31 →
        ∀ g ∈ st.given, 0 < g.socketIndex ∧ CGPBManagerV2.connectTo g.socketIndex = true)) ∧
    ((∀ id ∈ autoIds cfg (create nm announced use) es, 0 ≤ id) ↔
      (autoIds cfg (create nm announced use) es).length < 2 ^ 31) ∧
    ((autoIds cfg (create nm announced use) es).length < 2 ^ 31 → ∀ m,
      run (CGPBManagerV2.step cfg) (create nm announced use) es = some m →
        ∀ c s p, (c, s, p) ∈ m.log.enqueued → AutoCall es c →
          0 ≤ cfg.traits.msgid p ∧
          (∀ result, m.calls c = .done result → result = cfg.traits.msgid p) ∧
          ∀ i f v, 0 < i → m.mapSocketToResPacket i = some f → f (cfg.traits.msgid p) = some v →
            (receivePacket m i (cfg.traits.msgid p)).log.returned =
              m.log.returned ++ [((i, cfg.traits.msgid p), v.2)]) := by
  refine ⟨fun st hst => ⟨stored_positive_iff hst, fun hlt g hg => ?_⟩,
    autoIds_nonneg_iff rfl es, fun hlt m hm c s p hmem hauto => ?_⟩
  · obtain ⟨hc, hlen⟩ := run_counted hst
    rw [← hlen] at hlt
    have hpos := (hc.below hlt).2.2.2 g hg
    exact ⟨hpos, if_pos hpos⟩
  · have hsends := run_sends rfl ((autoIds_nonneg_iff rfl es).mpr hlt) hm
    have hid := hsends.nonneg c s p hmem hauto
    refine ⟨hid, fun result hres => ?_, fun i f v hi hf hv => receivePacket_taken hi hid hf hv⟩
    rcases hsends.returns c s p hmem with h | h
    · rw [h] at hres
      cases hres
    · rw [h] at hres
      cases hres
      rfl

/-- `n` calls that take an id and go no further yet. -/
def takeIds : Nat → List (Event SamplePacket)
  | 0 => []
  | n + 1 => takeIds n ++
      [.send n (.start (.socket (some 0)) ⟨0, 1, 0⟩ true), .send n .assign]

theorem run_takeIds (n : Nat) : ∃ m, run (CGPBManagerV2.step SamplePacket.config)
      (SamplePacket.manager false) (takeIds n) = some m ∧
    m.globalMessageID = i32 n ∧ ∀ c, n ≤ c → m.calls c = .idle := by
  induction n with
  | zero => exact ⟨_, rfl, rfl, fun _ _ => rfl⟩
  | succ n ih =>
    obtain ⟨m, hrun, hcnt, hidle⟩ := ih
    have hinc : interlockedIncrement (i32 n) = i32 (n + 1 : Nat) := by
      simp [interlockedIncrement, i32, Int.bmod_add_bmod]
    have hstep : ∃ m', run (CGPBManagerV2.step SamplePacket.config) m
        [.send n (.start (.socket (some 0)) ⟨0, 1, 0⟩ true), .send n .assign] = some m' ∧
        m'.globalMessageID = interlockedIncrement m.globalMessageID ∧
        ∀ c, n < c → m'.calls c = m.calls c := by
      simp only [run, CGPBManagerV2.step, sendStep, sendStart, hidle n (Nat.le_refl n),
        sendAssign, CGPBManagerV2.setCall, Function.update_self]
      refine ⟨_, rfl, rfl, fun c hc => ?_⟩
      simp [Function.update_of_ne (Nat.ne_of_gt hc)]
    obtain ⟨m', hrun', hcnt', hcalls⟩ := hstep
    refine ⟨m', run_append.mpr ⟨m, hrun, hrun'⟩, by rw [hcnt', hcnt, hinc], fun c hc => ?_⟩
    rw [hcalls c hc]
    exact hidle c (Nat.le_of_lt hc)

theorem countP_rounds (n : Nat) : (rounds n).countP RegOp.registers = n := by
  induction n with
  | zero => rfl
  | succ n ih =>
    rw [rounds, List.countP_append, ih]
    rfl

/-- A whole call at the moment the counter passes the largest number. -/
theorem send_negative {m : CGPBManagerV2 SamplePacket} {c : Nat} (hidle : m.calls c = .idle)
    (hnext : interlockedIncrement m.globalMessageID = -2147483648) :
    ∃ m', run (CGPBManagerV2.step SamplePacket.config) m
        [.send c (.start (.socket (some 0)) ⟨0, 1, 0⟩ true), .send c .assign, .send c .push,
          .send c .ret] = some m' ∧
      (∃ p, (c, 0, p) ∈ m'.log.enqueued ∧ p.msgid = -2147483648) ∧
      m'.calls c = .done (-2147483648) := by
  simp only [run, CGPBManagerV2.step, sendStep, sendStart, hidle, sendAssign, sendPush, sendReturn,
    CGPBManagerV2.setCall, CGPBManagerV2.pushOutgoing, Function.update_self, hnext]
  refine ⟨_, rfl, ⟨⟨-2147483648, 1, 0⟩, ?_, rfl⟩, ?_⟩
  · exact List.mem_append_right _ List.mem_cons_self
  · exact Function.update_self ..

/-- The registration number `2^31` is stored under a negative index, and the `sendPacket` call that
    takes the id number `2^31` is told `-2147483648`. -/
theorem handles_negative :
    (∃ st, run Registry.step Registry.create (rounds (2 ^ 31)) = some st ∧
      ¬ ∀ i ∈ st.stored, 0 < i) ∧
    ∃ m, run (CGPBManagerV2.step SamplePacket.config) (SamplePacket.manager false)
        (takeIds (2 ^ 31 - 1) ++ [.send (2 ^ 31 - 1) (.start (.socket (some 0)) ⟨0, 1, 0⟩ true),
          .send (2 ^ 31 - 1) .assign, .send (2 ^ 31 - 1) .push, .send (2 ^ 31 - 1) .ret]) =
        some m ∧
      (∃ p, (2 ^ 31 - 1, 0, p) ∈ m.log.enqueued ∧ p.msgid = -2147483648) ∧
      m.calls (2 ^ 31 - 1) = .done (-2147483648) := by
  constructor
  · obtain ⟨returning, stored, hrun⟩ := run_rounds (2 ^ 31)
    refine ⟨_, hrun, fun hall => ?_⟩
    have hlt := (stored_positive_iff hrun).mp hall
    rw [countP_rounds] at hlt
    exact absurd hlt (Nat.lt_irrefl _)
  · obtain ⟨m, hrun, hcnt, hidle⟩ := run_takeIds (2 ^ 31 - 1)
    have hnext : interlockedIncrement m.globalMessageID = -2147483648 := by
      rw [hcnt]
      decide
    generalize 2 ^ 31 - 1 = c at *
    obtain ⟨m', hrun', hlog, hdone⟩ := send_negative (hidle c (Nat.le_refl c)) hnext
    exact ⟨m', run_append.mpr ⟨m, hrun, hrun'⟩, hlog, hdone⟩

end IMonPlatform
