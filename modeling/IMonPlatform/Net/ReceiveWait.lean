import IMonPlatform.Net.EndedConnections
import IMonPlatform.Net.ReturnedOnce

/-!
# `receivePacketWait`

A thread asks for the response to a message id again and again until it gets one or has tried
`tryout` times.  Any number of threads wait so, for the same id or for different ones, while all
other threads of the manager go on.

* `WaitingCallers.step` — one step of the manager, or one round of the loop of a call.
* `CallSound` — how many times an ended call asked, and that it asked in vain until its last try.
* `receivePacketWait_sound` — in every run all calls are sound, and the successful ones have
  returned different arrivals.
* `stored_response_returned` — a response that is stored while a call has a try left is returned by
  it unless another call takes it; and the call ends by its own steps.
-/

set_option autoImplicit false

namespace IMonPlatform

open CGPBManagerV2 CNetworkCommunicator Transition Matching

variable {Packet ReqCode ResCode : Type}

/-- The arguments of a call; the sleep between two tries has no effect. -/
structure WaitCall where
  socketIndex : SockIndex
  msgID : Int
  tryout : Int
  deriving DecidableEq

/-- A thread before the test of the loop. -/
inductive WaitPc where
  | idle
  | testing (call : WaitCall) (tryCount : Nat)
  deriving DecidableEq

/-- A call that has ended, the number of its `receivePacket` calls and what it returned. -/
structure EndedCall (Packet : Type) where
  call : WaitCall
  tries : Nat
  result : Option Packet

structure WaitingCallers (Packet : Type) where
  manager : CGPBManagerV2 Packet
  callers : Nat → WaitPc
  ended : List (EndedCall Packet)

inductive WaitEvent (Packet : Type) where
  | manager (e : Event Packet)
  | call (t : Nat) (call : WaitCall)
  /-- A round of the loop, or its end. -/
  | loop (t : Nat)

/-- What `receivePacket` stores in its argument, if it returns `true`. -/
def CGPBManagerV2.fetched (m : CGPBManagerV2 Packet) (i : SockIndex) (id : Int) : Option Packet :=
  if i ≤ 0 then none
  else if id < 0 then none
  else (m.resPacket i id).map Prod.snd

namespace WaitingCallers

def start (m : CGPBManagerV2 Packet) : WaitingCallers Packet := ⟨m, fun _ => .idle, []⟩

def setCaller (w : WaitingCallers Packet) (t : Nat) (pc : WaitPc) : WaitingCallers Packet :=
  { w with callers := Function.update w.callers t pc }

/-- The call returns. -/
def finish (w : WaitingCallers Packet) (t : Nat) (e : EndedCall Packet) : WaitingCallers Packet :=
  { w with callers := Function.update w.callers t .idle, ended := w.ended ++ [e] }

def step [DecidableEq ReqCode] [DecidableEq ResCode] (cfg : Config Packet ReqCode ResCode)
    (w : WaitingCallers Packet) : WaitEvent Packet → Option (WaitingCallers Packet)
  | .manager e => (CGPBManagerV2.step cfg w.manager e).map fun manager => { w with manager }
  | .call t call =>
    match w.callers t with
    | .idle => some (w.setCaller t (.testing call 0))
    | .testing _ _ => none
  | .loop t =>
    match w.callers t with
    | .idle => none
    | .testing call tryCount =>
      if tryCount < call.tryout then
        let w' := { w with manager := receivePacket w.manager call.socketIndex call.msgID }
        match w.manager.fetched call.socketIndex call.msgID with
        | none => some (w'.setCaller t (.testing call (tryCount + 1)))
        | some packet => some (w'.finish t ⟨call, tryCount + 1, some packet⟩)
      else some (w.finish t ⟨call, tryCount, none⟩)

end WaitingCallers

open WaitingCallers

/-- A call asks at most `tryout` times and gives up only then. -/
structure CallSound (e : EndedCall Packet) : Prop where
  tries_le : e.tries ≤ e.call.tryout.toNat
  gives_up : e.result = none → e.tries = e.call.tryout.toNat
  asked : e.result ≠ none → 0 < e.tries

/-- What the ended calls returned, under the index and id they asked for. -/
def WaitingCallers.results (w : WaitingCallers Packet) : List ((SockIndex × Int) × Packet) :=
  w.ended.filterMap fun e => e.result.map fun p => ((e.call.socketIndex, e.call.msgID), p)

/-- No other call takes the response to this message. -/
def LeavesResponse (t : Nat) (call : WaitCall) (w : WaitingCallers Packet) :
    WaitEvent Packet → Prop
  | .manager (.receivePacket i id) => (i, id) ≠ (call.socketIndex, call.msgID)
  | .loop u => u = t ∨ ∀ other n, w.callers u = .testing other n →
      (other.socketIndex, other.msgID) ≠ (call.socketIndex, call.msgID)
  | _ => True

section Steps

variable [DecidableEq ReqCode] [DecidableEq ResCode] {cfg : Config Packet ReqCode ResCode}
  {nm : CNetworkCommunicator} {m : CGPBManagerV2 Packet} {w w' : WaitingCallers Packet}

omit [DecidableEq ReqCode] [DecidableEq ResCode] in
/-- `receivePacket` fails without effect, or returns the stored packet. -/
theorem receivePacket_fetched (m : CGPBManagerV2 Packet) (i : SockIndex) (id : Int) :
    m.fetched i id = none ∧ receivePacket m i id = m ∨
      ∃ v, 0 < i ∧ 0 ≤ id ∧ m.resPacket i id = some v ∧ m.fetched i id = some v.2 ∧
        (receivePacket m i id).log.returned = m.log.returned ++ [((i, id), v.2)] := by
  unfold fetched receivePacket
  split
  · exact .inl ⟨rfl, rfl⟩
  · rename_i hi
    split
    · exact .inl ⟨rfl, rfl⟩
    · rename_i hid
      cases hf : m.mapSocketToResPacket i with
      | none => exact .inl ⟨by simp [resPacket, hf], rfl⟩
      | some f =>
        cases hv : f id with
        | none => exact .inl ⟨by simp [resPacket, hf, hv], by simp only [hv]⟩
        | some v =>
          exact .inr ⟨v, Int.not_le.mp hi, Int.not_lt.mp hid, by simp [resPacket, hf, hv],
            by simp [resPacket, hf, hv], by simp only [hv]⟩

theorem manager_cases {e : Event Packet} (h : WaitingCallers.step cfg w (.manager e) = some w') :
    ∃ m', CGPBManagerV2.step cfg w.manager e = some m' ∧ w' = { w with manager := m' } := by
  obtain ⟨m', hm, rfl⟩ := Option.map_eq_some_iff.mp h
  exact ⟨m', hm, rfl⟩

theorem waitCall_cases {t : Nat} {call : WaitCall}
    (h : WaitingCallers.step cfg w (.call t call) = some w') :
    w.callers t = .idle ∧ w' = w.setCaller t (.testing call 0) := by
  simp only [WaitingCallers.step] at h
  split at h
  · rename_i hidle
    cases h
    exact ⟨hidle, rfl⟩
  · cases h

/-- A round asks in vain, or gets the response and ends the call, or the tries are used up. -/
theorem loop_cases {t : Nat} (h : WaitingCallers.step cfg w (.loop t) = some w') :
    ∃ call n, w.callers t = .testing call n ∧
      ((n : Int) < call.tryout ∧ w.manager.fetched call.socketIndex call.msgID = none ∧
          w' = w.setCaller t (.testing call (n + 1)) ∨
        (∃ v, (n : Int) < call.tryout ∧ 0 < call.socketIndex ∧ 0 ≤ call.msgID ∧
          w.manager.resPacket call.socketIndex call.msgID = some v ∧
          (receivePacket w.manager call.socketIndex call.msgID).log.returned =
            w.manager.log.returned ++ [((call.socketIndex, call.msgID), v.2)] ∧
          w' = finish { w with manager := receivePacket w.manager call.socketIndex call.msgID } t
            ⟨call, n + 1, some v.2⟩) ∨
        call.tryout ≤ n ∧ w' = w.finish t ⟨call, n, none⟩) := by
  simp only [WaitingCallers.step] at h
  split at h
  · cases h
  · rename_i call n hpc
    refine ⟨call, n, hpc, ?_⟩
    split at h
    · rename_i hlt
      obtain ⟨hnone, hsame⟩ | ⟨v, hi, hid, hv, hsome, hret⟩ :=
        receivePacket_fetched w.manager call.socketIndex call.msgID
      · rw [hnone, hsame] at h
        cases h
        exact .inl ⟨hlt, hnone, rfl⟩
      · rw [hsome] at h
        cases h
        exact .inr (.inl ⟨v, hlt, hi, hid, hv, hret, rfl⟩)
    · rename_i hge
      cases h
      exact .inr (.inr ⟨by omega, rfl⟩)

/-! ## What the manager's steps leave alone -/

/-- A stored response stays until a call takes it. -/
theorem response_stays {m' : CGPBManagerV2 Packet} {e : Event Packet} {i : SockIndex} {id : Int}
    {v : Int × Packet} (h : CGPBManagerV2.step cfg m e = some m')
    (hv : m.resPacket i id = some v) (hne : ∀ j k, e = .receivePacket j k → (j, k) ≠ (i, id)) :
    m'.resPacket i id = some v := by
  by_cases hstore : ∃ d t, e = .dispatch d (.store t)
  · obtain ⟨d, t, rfl⟩ := hstore
    obtain ⟨n, j, p, _, rfl⟩ := dispatchStore_cases h
    rw [resPacket_insert rfl]
    split
    · rename_i hplace
      rw [← hplace.1, ← hplace.2, hv]
      rfl
    · exact hv
  · by_cases hrecv : ∃ j k, e = .receivePacket j k
    · obtain ⟨j, k, rfl⟩ := hrecv
      cases h
      obtain hsame | ⟨f, _, hf, _, hnew⟩ := receivePacket_cases m j k
      · rwa [hsame]
      · rw [hnew, resPacket_of_update rfl]
        split
        · rename_i hi
          subst hi
          have hk : id ≠ k := fun hk => hne i k rfl (by rw [hk])
          rw [Function.update_of_ne hk, ← resPacket_of_map hf, hv]
        · exact hv
    · have hsame := step_responses h (fun d t he => hstore ⟨d, t, he⟩)
        fun j k he => hrecv ⟨j, k, he⟩
      rw [resPacket_congr hsame, hv]

theorem returned_grows {m' : CGPBManagerV2 Packet} {e : Event Packet}
    (h : CGPBManagerV2.step cfg m e = some m') : m.log.returned <+: m'.log.returned := by
  cases e with
  | send c a => exact (sendStep_frame h).returned ▸ List.prefix_rfl
  | sender a => exact (senderStep_frame h).returned ▸ List.prefix_rfl
  | recv n a => exact (recvStep_frame h).returned ▸ List.prefix_rfl
  | dispatch d a => exact (dispatchStep_frame h).returned ▸ List.prefix_rfl
  | receivePacket i id =>
    cases h
    obtain hsame | ⟨f, v, _, _, hnew⟩ := receivePacket_cases m i id
    · rw [hsame]
    · rw [hnew]
      exact List.prefix_append ..
  | disconnect i =>
    cases h
    obtain hsame | ⟨nm', _, hnew⟩ := disconnect_cases m i
    · rw [hsame]
    · rw [hnew]
      exact List.prefix_rfl
  | setIsUseServerBusyWaiting b =>
    cases h
    exact List.prefix_rfl

/-! ## The calls -/

/-- The invariant of a run. -/
structure WaitOk (cfg : Config Packet ReqCode ResCode) (nm : CNetworkCommunicator)
    (w : WaitingCallers Packet) : Prop where
  book : Book cfg nm w.manager
  filed : Filed cfg nm w.manager
  tries : ∀ t call n, w.callers t = .testing call n → n ≤ call.tryout.toNat
  sound : ∀ e ∈ w.ended, CallSound e
  own : Matched Eq w.manager.log.returned w.results

theorem waitOk_start (announced : SockIndex → Bool) (use : Bool) :
    WaitOk cfg nm (start (create nm announced use)) where
  book := create_book announced use
  filed := create_filed announced use
  tries _ _ _ h := by cases h
  sound _ h := absurd h List.not_mem_nil
  own := matched_beginning List.prefix_rfl

/-- More returned packets leave the calls theirs. -/
theorem matched_grows {xs xs' ys : List ((SockIndex × Int) × Packet)} (hm : Matched Eq xs ys)
    (h : xs <+: xs') : Matched Eq xs' ys := by
  refine ((matched_beginning h).trans hm).mono fun x y hxy => ?_
  obtain ⟨_, rfl, hsame⟩ := hxy
  exact hsame

theorem waitOk_call {t : Nat} {call : WaitCall} (hw : WaitOk cfg nm w)
    (h : WaitingCallers.step cfg w (.call t call) = some w') : WaitOk cfg nm w' := by
  obtain ⟨_, rfl⟩ := waitCall_cases h
  refine { hw with tries := fun u c n hu => ?_ }
  by_cases hut : u = t
  · subst hut
    simp only [setCaller, Function.update_self, WaitPc.testing.injEq] at hu
    omega
  · simp only [setCaller, Function.update_of_ne hut] at hu
    exact hw.tries u c n hu

omit [DecidableEq ReqCode] [DecidableEq ResCode] in
/-- The thread of a call that has ended is free again. -/
theorem tries_finish {callers : Nat → WaitPc} {t u n : Nat} {call : WaitCall}
    (hw : ∀ t call n, callers t = .testing call n → n ≤ call.tryout.toNat)
    (hu : Function.update callers t .idle u = .testing call n) : n ≤ call.tryout.toNat := by
  by_cases hut : u = t
  · subst hut
    rw [Function.update_self] at hu
    cases hu
  · rw [Function.update_of_ne hut] at hu
    exact hw u call n hu

omit [DecidableEq ReqCode] [DecidableEq ResCode] in
theorem results_finish (t : Nat) (e : EndedCall Packet) :
    (w.finish t e).results = w.results ++
      (e.result.map fun p => ((e.call.socketIndex, e.call.msgID), p)).toList := by
  show (w.ended ++ [e]).filterMap _ = _
  rw [List.filterMap_append]
  cases he : e.result <;> simp [results, he]

theorem waitOk_loop {t : Nat} (hw : WaitOk cfg nm w)
    (h : WaitingCallers.step cfg w (.loop t) = some w') : WaitOk cfg nm w' := by
  obtain ⟨call, n, hpc, ⟨hlt, _, rfl⟩ | ⟨v, hlt, _, _, _, hret, rfl⟩ | ⟨hge, rfl⟩⟩ :=
    loop_cases h
  · refine { hw with tries := fun u c k hu => ?_ }
    by_cases hut : u = t
    · subst hut
      simp only [setCaller, Function.update_self, WaitPc.testing.injEq] at hu
      obtain ⟨rfl, rfl⟩ := hu
      omega
    · simp only [setCaller, Function.update_of_ne hut] at hu
      exact hw.tries u c k hu
  · have hfiled := receivePacket_filed call.socketIndex call.msgID hw.filed
    refine ⟨receivePacket_book _ _ hw.book, hfiled, fun u c k hu => tries_finish hw.tries hu,
      fun e he => ?_, ?_⟩
    · rcases List.mem_append.mp he with he | he
      · exact hw.sound e he
      · rw [List.mem_singleton] at he
        subst he
        refine ⟨?_, nofun, fun _ => Nat.succ_pos n⟩
        show n + 1 ≤ call.tryout.toNat
        omega
    · rw [results_finish]
      show Matched Eq (receivePacket w.manager call.socketIndex call.msgID).log.returned _
      rw [hret]
      exact hw.own.snoc rfl
  · refine ⟨hw.book, hw.filed, fun u c k hu => tries_finish hw.tries hu, fun e he => ?_, ?_⟩
    · rcases List.mem_append.mp he with he | he
      · exact hw.sound e he
      · rw [List.mem_singleton] at he
        subst he
        have hle := hw.tries t call n hpc
        refine ⟨hle, fun _ => ?_, fun hne => absurd rfl hne⟩
        show n = call.tryout.toNat
        omega
    · rw [results_finish]
      show Matched Eq w.manager.log.returned (w.results ++ [])
      rw [List.append_nil]
      exact hw.own

theorem waitOk_step {e : WaitEvent Packet} (hw : WaitOk cfg nm w)
    (h : WaitingCallers.step cfg w e = some w') : WaitOk cfg nm w' := by
  cases e with
  | manager e =>
    obtain ⟨m', hm, rfl⟩ := manager_cases h
    exact { hw with
      book := step_book hw.book hm
      filed := step_filed hw.book hw.filed hm
      own := matched_grows hw.own (returned_grows hm) }
  | call t call => exact waitOk_call hw h
  | loop t => exact waitOk_loop hw h

/-! ## A call that waits -/

/-- A call ends by rounds of its own, one for each try that is left and one more. -/
theorem waiting_ends {t : Nat} {call : WaitCall} :
    ∀ (left n : Nat) (w : WaitingCallers Packet), w.callers t = .testing call n →
      call.tryout.toNat - n ≤ left →
      ∃ k w', k ≤ left + 1 ∧
        run (WaitingCallers.step cfg) w (List.replicate k (.loop t)) = some w' ∧
        w'.callers t = .idle ∧ ∃ e ∈ w'.ended, e.call = call := by
  intro left
  induction left with
  | zero =>
    intro n w hpc hle
    have hstep : WaitingCallers.step cfg w (.loop t) = some (w.finish t ⟨call, n, none⟩) := by
      simp only [WaitingCallers.step, hpc]
      exact if_neg (by omega)
    exact ⟨1, _, Nat.le_refl _, run_cons.mpr ⟨_, hstep, rfl⟩, Function.update_self ..,
      _, List.mem_append_right _ (List.mem_singleton.mpr rfl), rfl⟩
  | succ left ih =>
    intro n w hpc hle
    obtain ⟨w₁, hstep⟩ : ∃ w₁, WaitingCallers.step cfg w (.loop t) = some w₁ := by
      simp only [WaitingCallers.step, hpc]
      repeat' split
      all_goals exact ⟨_, rfl⟩
    obtain ⟨c, k, hpc', hcase⟩ := loop_cases hstep
    rw [hpc] at hpc'
    cases hpc'
    rcases hcase with ⟨_, _, rfl⟩ | ⟨v, _, _, _, _, _, rfl⟩ | ⟨_, rfl⟩
    · obtain ⟨k, w', hk, hrun, hidle, hended⟩ :=
        ih (n + 1) (w.setCaller t (.testing call (n + 1))) (Function.update_self ..) (by omega)
      exact ⟨k + 1, w', by omega, run_cons.mpr ⟨_, hstep, hrun⟩, hidle, hended⟩
    · exact ⟨1, _, by omega, run_cons.mpr ⟨_, hstep, rfl⟩, Function.update_self ..,
        _, List.mem_append_right _ (List.mem_singleton.mpr rfl), rfl⟩
    · exact ⟨1, _, by omega, run_cons.mpr ⟨_, hstep, rfl⟩, Function.update_self ..,
        _, List.mem_append_right _ (List.mem_singleton.mpr rfl), rfl⟩

/-- The response waits for the call, or the call has returned it. -/
def Awaited (t : Nat) (call : WaitCall) (n : Nat) (v : Int × Packet)
    (w : WaitingCallers Packet) : Prop :=
  w.callers t = .testing call n ∧ w.manager.resPacket call.socketIndex call.msgID = some v ∨
    ⟨call, n + 1, some v.2⟩ ∈ w.ended

theorem ended_grows {e : WaitEvent Packet} (h : WaitingCallers.step cfg w e = some w') :
    w.ended ⊆ w'.ended := by
  cases e with
  | manager e =>
    obtain ⟨_, _, rfl⟩ := manager_cases h
    exact fun _ he => he
  | call t call =>
    obtain ⟨_, rfl⟩ := waitCall_cases h
    exact fun _ he => he
  | loop t =>
    obtain ⟨_, _, _, ⟨_, _, rfl⟩ | ⟨_, _, _, _, _, _, rfl⟩ | ⟨_, rfl⟩⟩ := loop_cases h
    · exact fun _ he => he
    · exact List.subset_append_left ..
    · exact List.subset_append_left ..

/-- A round of another call leaves the response where it is. -/
theorem other_loop {t u n : Nat} {call : WaitCall} {v : Int × Packet} (hut : u ≠ t)
    (hpc : w.callers t = .testing call n)
    (hv : w.manager.resPacket call.socketIndex call.msgID = some v)
    (hleave : LeavesResponse t call w (.loop u))
    (h : WaitingCallers.step cfg w (.loop u) = some w') :
    w'.callers t = .testing call n ∧
      w'.manager.resPacket call.socketIndex call.msgID = some v := by
  obtain ⟨other, k, hu, hcase⟩ := loop_cases h
  have hother := (hleave.resolve_left hut) other k hu
  have hframe : ∀ pc, Function.update w.callers u pc t = .testing call n := fun pc => by
    rw [Function.update_of_ne (Ne.symm hut), hpc]
  rcases hcase with ⟨_, _, rfl⟩ | ⟨_, _, _, _, _, _, rfl⟩ | ⟨_, rfl⟩
  · exact ⟨hframe _, hv⟩
  · refine ⟨hframe _, ?_⟩
    have hstep : CGPBManagerV2.step cfg w.manager
        (.receivePacket other.socketIndex other.msgID) = some _ := rfl
    refine response_stays hstep hv fun j k he => ?_
    cases he
    exact hother
  · exact ⟨hframe _, hv⟩

variable (cfg) in
/-- The next round of the call finds the response. -/
theorem own_loop {t n : Nat} {call : WaitCall} {v : Int × Packet}
    (hpc : w.callers t = .testing call n) (hn : (n : Int) < call.tryout)
    (hi : 0 < call.socketIndex) (hid : 0 ≤ call.msgID)
    (hv : w.manager.resPacket call.socketIndex call.msgID = some v) :
    ∃ w', WaitingCallers.step cfg w (.loop t) = some w' ∧
      ⟨call, n + 1, some v.2⟩ ∈ w'.ended := by
  have hfetched : w.manager.fetched call.socketIndex call.msgID = some v.2 := by
    unfold fetched
    rw [if_neg (Int.not_le.mpr hi), if_neg (Int.not_lt.mpr hid), hv]
    rfl
  have hstep : WaitingCallers.step cfg w (.loop t) =
      some (finish { w with manager := receivePacket w.manager call.socketIndex call.msgID } t
        ⟨call, n + 1, some v.2⟩) := by
    simp only [WaitingCallers.step, hpc, hfetched]
    exact if_pos hn
  exact ⟨_, hstep, List.mem_append_right _ (List.mem_singleton.mpr rfl)⟩

theorem awaited_step {t n : Nat} {call : WaitCall} {v : Int × Packet} {e : WaitEvent Packet}
    (hn : (n : Int) < call.tryout) (hi : 0 < call.socketIndex) (hid : 0 ≤ call.msgID)
    (ha : Awaited t call n v w) (hleave : LeavesResponse t call w e)
    (h : WaitingCallers.step cfg w e = some w') : Awaited t call n v w' := by
  rcases ha with ⟨hpc, hv⟩ | hended
  · cases e with
    | manager e =>
      obtain ⟨m', hm, rfl⟩ := manager_cases h
      refine .inl ⟨hpc, response_stays hm hv fun j k he => ?_⟩
      subst he
      exact hleave
    | call u other =>
      obtain ⟨hidle, rfl⟩ := waitCall_cases h
      have hut : t ≠ u := by
        rintro rfl
        rw [hidle] at hpc
        cases hpc
      refine .inl ⟨?_, hv⟩
      show Function.update w.callers u _ t = _
      rw [Function.update_of_ne hut, hpc]
    | loop u =>
      by_cases hut : u = t
      · subst hut
        obtain ⟨w₁, hstep, hended⟩ := own_loop cfg hpc hn hi hid hv
        rw [hstep] at h
        cases h
        exact .inr hended
      · exact .inl (other_loop hut hpc hv hleave h)
  · exact .inr (ended_grows h hended)

end Steps

/-- **Waiting for responses is sound.**  Along every interleaving of the manager with any number of
    `receivePacketWait` calls: an ended call has asked at most `tryout` times, and exactly so often
    if it returned `false`; and the successful calls have returned packets without a slot that had
    arrived on the socket of the index with the id they asked for, no two of them the same
    arrival. -/
theorem receivePacketWait_sound [DecidableEq ReqCode] [DecidableEq ResCode]
    (cfg : Config Packet ReqCode ResCode) (nm : CNetworkCommunicator)
    (announced : SockIndex → Bool) (use : Bool) (es : List (WaitEvent Packet))
    (w : WaitingCallers Packet)
    (hrun : run (WaitingCallers.step cfg) (start (create nm announced use)) es = some w) :
    (∀ e ∈ w.ended, CallSound e) ∧
      Matched (ReturnedBy cfg nm) w.manager.arrivals w.results := by
  have hw : WaitOk cfg nm w :=
    run_invariant (fun _ _ _ hi hs => waitOk_step hi hs) (waitOk_start announced use) hrun
  refine ⟨hw.sound, (hw.filed.matched.trans hw.own).mono fun x y hxy => ?_⟩
  obtain ⟨_, hR, rfl⟩ := hxy
  exact hR

namespace SamplePacket

/-- Two threads wait for the same message, to which two responses arrive. -/
def twoWaiting : List (WaitEvent SamplePacket) :=
  [.call 0 ⟨1, 1, 2⟩, .call 1 ⟨1, 1, 1⟩, .loop 1] ++ (sameId.take 8).map .manager

theorem twoWaiting_runs : ∃ w,
    run (WaitingCallers.step config) (start (manager false)) twoWaiting = some w ∧
      w.callers 0 = .testing ⟨1, 1, 2⟩ 0 ∧ w.manager.resPacket 1 1 = some (0, ⟨1, 0, 2⟩) ∧
      w.ended = [] :=
  ⟨_, rfl, rfl, rfl, rfl⟩

end SamplePacket

open SamplePacket in
/-- One thread gets a response, the other has tried too early. -/
theorem receivePacketWait_sound_two : ∃ w,
    run (WaitingCallers.step config) (start (manager false)) (twoWaiting ++ [.loop 1, .loop 0]) =
      some w ∧ w.results = [((1, 1), ⟨1, 0, 2⟩)] ∧ w.ended.length = 2 ∧
      (∀ e ∈ w.ended, CallSound e) ∧
      Matched (ReturnedBy config registry) w.manager.arrivals w.results := by
  obtain ⟨w, hrun, hres, hlen⟩ : ∃ w, run (WaitingCallers.step config) (start (manager false))
      (twoWaiting ++ [.loop 1, .loop 0]) = some w ∧ w.results = [((1, 1), ⟨1, 0, 2⟩)] ∧
      w.ended.length = 2 := ⟨_, rfl, rfl, rfl⟩
  obtain ⟨hsound, hmatched⟩ := receivePacketWait_sound config registry _ false _ w hrun
  exact ⟨w, hrun, hres, hlen, hsound, hmatched⟩

/-- **A stored response is returned**, and no call waits for ever.  A call that waits ends after at
    most one round more than it has tries left; and if a response to its message is stored while it
    has one left, then along every interleaving in which no other call takes this response it is
    there for the next try, which returns it. -/
theorem stored_response_returned [DecidableEq ReqCode] [DecidableEq ResCode]
    (cfg : Config Packet ReqCode ResCode) {w : WaitingCallers Packet} {t n : Nat} {call : WaitCall}
    (hpc : w.callers t = .testing call n) :
    (∃ k w', k ≤ call.tryout.toNat - n + 1 ∧
      run (WaitingCallers.step cfg) w (List.replicate k (.loop t)) = some w' ∧
      w'.callers t = .idle ∧ ∃ e ∈ w'.ended, e.call = call) ∧
    ∀ v, w.manager.resPacket call.socketIndex call.msgID = some v → 0 < call.socketIndex →
      0 ≤ call.msgID → (n : Int) < call.tryout →
      ∀ es w', run (WaitingCallers.step cfg) w es = some w' →
        Meets (WaitingCallers.step cfg) (LeavesResponse t call) w es →
        ⟨call, n + 1, some v.2⟩ ∈ w'.ended ∨
          w'.callers t = .testing call n ∧
            ∃ w'', WaitingCallers.step cfg w' (.loop t) = some w'' ∧
              ⟨call, n + 1, some v.2⟩ ∈ w''.ended := by
  refine ⟨waiting_ends _ n w hpc (Nat.le_refl _), fun v hv hi hid hn es w' hrun hmeets => ?_⟩
  have hawaited := run_preserves (fun _ _ _ ha hleave h => awaited_step hn hi hid ha hleave h)
    es w w' (.inl ⟨hpc, hv⟩) hmeets hrun
  rcases hawaited with ⟨hpc', hv'⟩ | hended
  · exact .inr ⟨hpc', own_loop cfg hpc' hn hi hid hv'⟩
  · exact .inl hended

open SamplePacket in
/-- The response is there for the thread that has tries left. -/
theorem stored_response_returned_two : ∃ w w',
    run (WaitingCallers.step config) (start (manager false)) twoWaiting = some w ∧
      WaitingCallers.step config w (.loop 0) = some w' ∧
      ⟨⟨1, 1, 2⟩, 1, some ⟨1, 0, 2⟩⟩ ∈ w'.ended := by
  obtain ⟨w, hrun, hpc, hv, hended⟩ := twoWaiting_runs
  have hnext := (stored_response_returned config hpc).2 (0, ⟨1, 0, 2⟩) hv (by decide) (by decide)
    (by decide) [] w rfl trivial
  rcases hnext with h | ⟨_, w', hstep, h⟩
  · rw [hended] at h
    exact absurd h List.not_mem_nil
  · exact ⟨w, w', hrun, hstep, h⟩

end IMonPlatform
