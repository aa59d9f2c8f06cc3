import IMonPlatform.Net.Notifications

/-!
# Paired notifications

What each step of `Notifying` does to the tellings and to the sockets that wait for their
announcement, and from it when every registration is told of in pairs.

* `store_told`, `announce_fits`, `deregister_fits`, `disconnect_fits`, `disconnectTell_fits`,
  `disconnectAll_fits` — the kinds of steps; `quiet_fits` for those that change nothing of it.
* `notifying_refines` — the registry of a run is one that `Registry` reaches.
* `notifications_paired_iff` — when indices are returned to their own callers, the notifications
  are paired exactly when every disconnection is told after the announcement.
-/

set_option autoImplicit false

namespace IMonPlatform

open CNetworkCommunicator Transition Notifying

/-! ## The invariant -/

namespace Notifying

/-- The invariant of a state. -/
structure Fits (st : Notifying) : Prop where
  told : Told st.Held st.sendedKeys st.due st.notified
  waiting : Waiting st.registry st.sendedKeys st.due
  leaving_nodup : st.leaving.Nodup
  leaving_free : ∀ i ∈ st.leaving, i ∉ st.registry.comm.mapIndexToSocket

end Notifying

theorem create_fits : Notifying.create.Fits := by
  have hmap : ∀ i : SockIndex, i ∉ Notifying.create.registry.comm.mapIndexToSocket :=
    AList.notMem_empty
  have hheld : ∀ i, ¬ Notifying.create.Held i := by
    rintro i (hi | hi)
    · exact hmap i hi
    · cases hi
  refine ⟨⟨fun i hi => absurd hi (hheld i), fun _ _ => .inl rfl, fun i hi => ?_, fun i hi => ?_,
    .nil⟩, ⟨fun i s hi => absurd (mem_of_lookup hi) (hmap i), fun s hs => ?_, .nil,
    fun s hs => ?_⟩, .nil, fun i hi => ?_⟩
  · simp [Notifying.create] at hi
  · cases hi
  · cases hs
  · cases hs
  · cases hi

section Steps

variable {st st' : Notifying} {r : Registry} {i : SockIndex} {s : Sock}

/-- `nextIndex` is what a registration stores. -/
theorem registerSocket_nextIndex {c c' : CNetworkCommunicator}
    (h : c.registerSocket s = some (i, c')) :
    freeIndex c.mapIndexToSocket (c.mapIndexToSocket.keys.length + 1)
      (interlockedIncrement c.socketIndex) = some i := by
  unfold CNetworkCommunicator.registerSocket at h
  split at h
  · cases h
  · rename_i hfree
    cases h
    exact hfree

theorem createSocket_nextIndex {accept : Bool}
    (h : st.registry.createSocket accept = some r) : st.nextIndex = some r.comm.socketIndex := by
  unfold Registry.createSocket at h
  split at h
  · cases h
  · rename_i j t c hcre
    have hcounter : r.comm.socketIndex = j := by
      obtain ⟨_, _, hcnt, _⟩ := createSocket_spec hcre
      split at h <;> cases h <;> exact hcnt
    unfold CNetworkCommunicator.createSocket at hcre
    split at hcre
    · cases hcre
    · rename_i hreg
      cases hcre
      rw [hcounter]
      exact registerSocket_nextIndex (c := st.registry.comm.createObject.2) hreg

theorem registerAgain_nextIndex (h : st.registry.registerSocket s = some r) :
    st.nextIndex = some r.comm.socketIndex := by
  unfold Registry.registerSocket at h
  split at h
  · split at h
    · cases h
    · rename_i hreg
      cases h
      obtain ⟨_, hcnt, _⟩ := registerSocket_spec hreg
      show _ = some _
      rw [hcnt]
      exact registerSocket_nextIndex hreg
  · cases h

/-- What a registration under an index that is not being left does to the tellings. -/
theorem store_told (hf : st.Fits) (hst : Stores st.registry r i s) (hleft : i ∉ st.leaving) :
    Told (st.store r).Held st.sendedKeys st.due (st.store r).notified ∧ i ∉ st.sendedKeys ∧
      i ∉ st.due ∧ ∀ j ∈ st.leaving, j ∉ r.comm.mapIndexToSocket := by
  have hmem : ∀ j, j ∈ r.comm.mapIndexToSocket ↔ j = i ∨ j ∈ st.registry.comm.mapIndexToSocket := by
    intro j
    rw [hst.map]
    exact AList.mem_insert _
  have hheld : ∀ j, (st.store r).Held j ↔ j = i ∨ st.Held j := by
    intro j
    unfold Notifying.Held
    rw [← or_assoc, ← hmem j]
    rfl
  have htold := told_store hf.told (not_or.mpr ⟨hst.free, hleft⟩) hheld
  rw [← hst.counter] at htold ⊢
  refine ⟨htold.1, htold.2.1, htold.2.2, fun j hj hm => ?_⟩
  rcases (hmem j).mp hm with rfl | hm
  · exact hleft hj
  · exact hf.leaving_free j hj hm

theorem createAccept_fits (hf : st.Fits) (hc : st.ReturnsOwn .createAccept)
    (h : st.createAccept = some st') : st'.Fits := by
  obtain ⟨r, hstep, rfl⟩ := Option.map_eq_some_iff.mp h
  obtain ⟨⟨i, hst⟩, hnext, _, hpend⟩ := createSocket_stores hstep
  rw [if_pos rfl] at hpend
  have hleft : i ∉ st.leaving := fun hi =>
    hc i hi (by rw [createSocket_nextIndex hstep, hst.counter])
  have hlt : st.registry.comm.nextSock < r.comm.nextSock := by
    rw [hnext]
    exact Nat.lt_succ_self _
  obtain ⟨htold, hk, hd, hfree⟩ := store_told hf hst hleft
  refine ⟨htold, ?_, hf.leaving_nodup, hfree⟩
  refine waiting_store hf.waiting hst (Nat.le_of_lt hlt) hlt hk hd ?_ (fun t ht => ?_)
    (fun j hj => .inl hj)
  · refine hpend.nodup_iff.mpr (List.nodup_cons.mpr ⟨fun hmem => ?_, hf.waiting.pending_nodup⟩)
    exact absurd (hf.waiting.pending_lt _ hmem) (Nat.lt_irrefl _)
  · rcases List.mem_cons.mp (hpend.mem_iff.mp ht) with rfl | ht
    · exact .inr ⟨rfl, fun j hj => absurd (hf.waiting.stored_lt j _ hj) (Nat.lt_irrefl _)⟩
    · exact .inl ht

/-- The index of a new call is due. -/
theorem due_append (st : Notifying) (c : ConnCall) :
    ((st.calls ++ [c]).map ConnCall.socketIndex).Perm (c.socketIndex :: st.due) := by
  rw [List.map_append]
  exact List.perm_append_singleton _ _

/-- The index of a call that is over is no longer due. -/
theorem due_erase {c : ConnCall} (hmem : c ∈ st.calls) :
    st.due.Perm (c.socketIndex :: (st.calls.erase c).map ConnCall.socketIndex) :=
  (List.perm_cons_erase hmem).map ConnCall.socketIndex

/-- A registration by a call that will announce it. -/
theorem store_due_fits {c : ConnCall} (hf : st.Fits) (hst : Stores st.registry r i s)
    (hci : c.socketIndex = i) (hleft : i ∉ st.leaving)
    (hnext : st.registry.comm.nextSock ≤ r.comm.nextSock) (hs : s < r.comm.nextSock)
    (hsub : ∀ t ∈ r.pending, t ∈ st.registry.pending) (hnd : r.pending.Nodup)
    (hsnot : s ∉ r.pending) :
    Notifying.Fits { st.store r with calls := st.calls ++ [c] } := by
  obtain ⟨htold, hk, hd, hfree⟩ := store_told hf hst hleft
  have hperm := due_append st c
  rw [hci] at hperm
  have hheld : (st.store r).Held i := by
    refine .inl ?_
    show i ∈ r.comm.mapIndexToSocket
    rw [hst.map]
    exact (AList.mem_insert _).mpr (.inl rfl)
  refine ⟨told_due htold hperm hheld hk hd, ?_, hf.leaving_nodup, hfree⟩
  refine waiting_store hf.waiting hst hnext hs hk hd hnd (fun t ht => .inl (hsub t ht))
    (fun j hj => ?_)
  rcases List.mem_cons.mp (hperm.mem_iff.mp hj) with hji | hj
  · exact .inr ⟨hji, hsnot⟩
  · exact .inl hj

theorem connectStart_fits (hf : st.Fits) (hc : st.ReturnsOwn .connectStart)
    (h : st.connectStart = some st') : st'.Fits := by
  obtain ⟨r, hstep, rfl⟩ := Option.map_eq_some_iff.mp h
  obtain ⟨⟨i, hst⟩, hnext, _, hpend⟩ := createSocket_stores hstep
  have hpend : r.pending.Perm st.registry.pending := hpend
  have hlt : st.registry.comm.nextSock < r.comm.nextSock := by
    rw [hnext]
    exact Nat.lt_succ_self _
  refine store_due_fits hf hst hst.counter (fun hi => ?_) (Nat.le_of_lt hlt) hlt
    (fun t ht => hpend.mem_iff.mp ht) (hpend.nodup_iff.mpr hf.waiting.pending_nodup)
    (fun hmem => ?_)
  · exact hc i hi (by rw [createSocket_nextIndex hstep, hst.counter])
  · exact absurd (hf.waiting.pending_lt _ (hpend.mem_iff.mp hmem)) (Nat.lt_irrefl _)

theorem acceptAgain_fits (hf : st.Fits) (hc : st.ReturnsOwn (.acceptAgain s))
    (h : st.acceptAgain s = some st') : st'.Fits := by
  obtain ⟨r, hstep, rfl⟩ := Option.map_eq_some_iff.mp h
  obtain ⟨hmem, ⟨i, hst⟩, hnext, _⟩ := registerSocket_stores hstep
  have hperm := registerSocket_pending hstep
  obtain ⟨hsnot, hnd⟩ := List.nodup_cons.mp (hperm.nodup_iff.mp hf.waiting.pending_nodup)
  refine store_due_fits hf hst hst.counter (fun hi => ?_) (Nat.le_of_eq hnext.symm) ?_
    (fun t ht => hperm.mem_iff.mpr (List.mem_cons_of_mem s ht)) hnd hsnot
  · exact hc i hi (by rw [registerAgain_nextIndex hstep, hst.counter])
  · rw [hnext]
    exact hf.waiting.pending_lt s (hperm.mem_iff.mpr List.mem_cons_self)

/-- A step that changes no registration, no key and no telling. -/
theorem quiet_fits (hf : st.Fits) (hcomm : st'.registry.comm = st.registry.comm)
    (hpend : st'.registry.pending.Subperm st.registry.pending) (hdue : st'.due.Perm st.due)
    (hleaving : st'.leaving = st.leaving) (hkeys : st'.sendedKeys = st.sendedKeys)
    (hnot : st'.notified = st.notified) : st'.Fits := by
  have hheld : ∀ j, st'.Held j ↔ st.Held j := by
    intro j
    unfold Notifying.Held
    rw [hcomm, hleaving]
  refine ⟨?_, ?_, by rw [hleaving]; exact hf.leaving_nodup, ?_⟩
  · rw [hkeys, hnot]
    exact told_congr (told_perm hf.told hdue) hheld
  · rw [hkeys]
    refine waiting_mono hf.waiting (fun j t hj => ?_) (by rw [hcomm]) hpend
      (fun j => Or.imp_right hdue.mem_iff.mp)
    rwa [hcomm] at hj
  · rw [hcomm, hleaving]
    exact hf.leaving_free

theorem returnAccept_fits (hf : st.Fits) (h : st.returnAccept s = some st') : st'.Fits := by
  obtain ⟨r, hstep, rfl⟩ := Option.map_eq_some_iff.mp h
  obtain ⟨_, hcomm, _, _, _, hpend⟩ := return_gives (.inr hstep)
  exact quiet_fits hf hcomm hpend.subperm .rfl rfl rfl rfl

/-- The call goes on with its own index. -/
theorem registerReturn_fits {stage stage' : CallStage} (hf : st.Fits)
    (hown : st.registry.comm.socketIndex = i)
    (h : st.registerReturn stage stage' i s = some st') : st'.Fits := by
  unfold registerReturn at h
  split at h
  · rename_i hmem
    obtain ⟨r, hstep, rfl⟩ := Option.map_eq_some_iff.mp h
    obtain ⟨_, hcomm, _, _, _, hpend⟩ := return_gives (.inl hstep)
    refine quiet_fits hf hcomm hpend.subperm ?_ rfl rfl rfl
    simp only [Notifying.due]
    rw [List.map_append, hown]
    exact (List.perm_append_singleton _ _).trans (due_erase hmem).symm
  · cases h

theorem acceptReturn_fits (hf : st.Fits) (hown : st.registry.comm.socketIndex = i)
    (h : st.acceptReturn i s = some st') : st'.Fits := by
  obtain ⟨st₁, hret, rfl⟩ := Option.map_eq_some_iff.mp h
  exact quiet_fits (registerReturn_fits hf hown hret) rfl (List.Subperm.refl _) .rfl rfl rfl rfl

theorem acceptError_fits (hf : st.Fits) (h : st.acceptError s = some st') : st'.Fits := by
  obtain ⟨r, hstep, rfl⟩ := Option.map_eq_some_iff.mp h
  simp only [Registry.step, Registry.acceptError] at hstep
  split at hstep <;> cases hstep
  exact quiet_fits hf rfl (removed_pending rfl rfl rfl) .rfl rfl rfl rfl

/-- A socket that is found has an index that was not announced before. -/
theorem acceptLookup_fits (hf : st.Fits) (h : st.acceptLookup s = some st') : st'.Fits := by
  obtain ⟨r, hstep, rfl⟩ := Option.map_eq_some_iff.mp h
  simp only [Registry.step, Registry.acceptLookup] at hstep
  split at hstep
  · rename_i hmem
    split at hstep <;> rename_i hidx <;> cases hstep
    · rw [if_pos hidx]
      refine quiet_fits hf rfl ?_ .rfl rfl rfl rfl
      simp only [Registry.pending, List.append_assoc]
      exact ((moved_perm hmem).append_left _).subperm
    · rw [if_neg hidx]
      have hl := getSocketIndex_found hidx
      have hperm : st.registry.pending.Perm (s :: Registry.pending { st.registry with
          accepting := st.registry.accepting.erase s }) := by
        unfold Registry.pending
        exact (((List.perm_cons_erase hmem).append_left _).trans List.perm_middle).append_right _
      obtain ⟨hk, hd⟩ := hf.waiting.unannounced s (hperm.mem_iff.mpr List.mem_cons_self) _ hl
      have hdue := due_append st ⟨.accepted, st.registry.comm.getSocketIndex s, s⟩
      refine ⟨told_due hf.told hdue (.inl (mem_of_lookup hl)) hk hd, ?_, hf.leaving_nodup,
        hf.leaving_free⟩
      exact waiting_due hf.waiting rfl hperm hl
        (fun j hj => (List.mem_cons.mp (hdue.mem_iff.mp hj)).symm)
  · cases hstep

/-- The slots of a call that is due. -/
theorem announce_fits {c : ConnCall} {reading : List Sock} (hf : st.Fits) (hmem : c ∈ st.calls) :
    Notifying.Fits { announce { st with calls := st.calls.erase c } c.socketIndex with
      reading := reading } := by
  have hperm := due_erase hmem
  refine ⟨told_announce hf.told hperm, ?_, hf.leaving_nodup, hf.leaving_free⟩
  refine waiting_mono hf.waiting (fun _ _ hj => hj) (Nat.le_refl _) (List.Subperm.refl _) ?_
  rintro j (hj | hj)
  · rcases Finset.mem_insert.mp hj with rfl | hj
    · exact .inr (hperm.mem_iff.mpr List.mem_cons_self)
    · exact .inl hj
  · exact .inr (hperm.mem_iff.mpr (List.mem_cons_of_mem _ hj))

theorem acceptEnd_fits (hf : st.Fits) (h : st.acceptEnd i s = some st') : st'.Fits := by
  unfold acceptEnd at h
  split at h
  · rename_i hmem
    cases h
    exact announce_fits hf hmem
  · cases h

/-- The socket of a refused `connectTo` leaves the registry unannounced. -/
theorem deregister_fits {c : ConnCall} (hf : st.Fits) (hmem : c ∈ st.calls)
    (h : st.registry.step (.deregisterSocket c.socketIndex) = some r) :
    Notifying.Fits { st with registry := r, calls := st.calls.erase c } := by
  have hperm := due_erase hmem
  obtain ⟨_, hk⟩ := hf.told.due_held _ (hperm.mem_iff.mpr List.mem_cons_self)
  have hd := (List.nodup_cons.mp (hperm.nodup_iff.mp hf.told.due_nodup)).1
  have hdrop := told_drop hf.told hperm
  have hsub : ∀ j, j ∈ st.sendedKeys ∨ j ∈ (st.calls.erase c).map ConnCall.socketIndex →
      j ∈ st.sendedKeys ∨ j ∈ st.due :=
    fun j => Or.imp_right fun hj => hperm.mem_iff.mpr (List.mem_cons_of_mem _ hj)
  simp only [Registry.step] at h
  split at h
  · cases h
  · rename_i comm hder
    cases h
    rcases deregisterSocket_cases hder with rfl | rfl
    · exact ⟨hdrop, waiting_mono hf.waiting (fun _ _ hj => hj) (Nat.le_refl _)
        (List.Subperm.refl _) hsub, hf.leaving_nodup, hf.leaving_free⟩
    · refine ⟨?_, waiting_mono hf.waiting (fun _ _ hj => (lookup_erase_some.mp hj).2)
        (Nat.le_refl _) (List.Subperm.refl _) hsub, hf.leaving_nodup,
        fun j hj hm => hf.leaving_free j hj (AList.mem_erase.mp hm).2⟩
      by_cases hleft : c.socketIndex ∈ st.leaving
      · -- a `disconnect` has erased the index before
        refine told_congr hdrop (fun j => or_congr_left' fun hj => ?_)
        have hji : j ≠ c.socketIndex := by
          rintro rfl
          exact hj hleft
        exact AList.mem_erase.trans (and_iff_right hji)
      · refine told_forget hdrop hk hd (fun j => ?_)
        constructor
        · rintro (hj | hj)
          · exact ⟨(AList.mem_erase.mp hj).1, .inl (AList.mem_erase.mp hj).2⟩
          · exact ⟨fun hji => hleft (hji ▸ hj), .inr hj⟩
        · rintro ⟨hji, hj⟩
          exact hj.imp (fun hj => AList.mem_erase.mpr ⟨hji, hj⟩) id

theorem connectEnd_fits {ok : Bool} (hf : st.Fits) (h : st.connectEnd i s ok = some st') :
    st'.Fits := by
  unfold connectEnd at h
  split at h
  · rename_i hmem
    split at h
    · cases h
      exact announce_fits hf hmem
    · obtain ⟨r, hstep, rfl⟩ := Option.map_eq_some_iff.mp h
      exact deregister_fits hf hmem hstep
  · cases h

/-- The locked section of `disconnect`: the index is held until its slots have run. -/
theorem disconnect_fits (hf : st.Fits) (h : st.disconnect i = some st') : st'.Fits := by
  unfold Notifying.disconnect at h
  split at h
  · rename_i hi
    obtain ⟨r, hstep, rfl⟩ := Option.map_eq_some_iff.mp h
    cases hstep
    have hnot : i ∉ st.leaving := fun hmem => hf.leaving_free i hmem hi
    refine ⟨told_congr hf.told (fun j => ?_), ?_, ?_, fun j hj hm => ?_⟩
    · constructor
      · rintro (hj | hj)
        · exact .inl (AList.mem_erase.mp hj).2
        · rcases List.mem_append.mp hj with hj | hj
          · exact .inr hj
          · exact .inl (List.mem_singleton.mp hj ▸ hi)
      · rintro (hj | hj)
        · by_cases hji : j = i
          · exact .inr (List.mem_append_right _ (List.mem_singleton.mpr hji))
          · exact .inl (AList.mem_erase.mpr ⟨hji, hj⟩)
        · exact .inr (List.mem_append_left _ hj)
    · exact waiting_mono hf.waiting (fun _ _ hj => (lookup_erase_some.mp hj).2)
        (Nat.le_refl _) (List.Subperm.refl _) (fun _ => id)
    · refine List.nodup_append.mpr ⟨hf.leaving_nodup, List.nodup_singleton i, fun t ht u hu => ?_⟩
      rw [List.mem_singleton.mp hu]
      rintro rfl
      exact hnot ht
    · obtain ⟨hji, hm⟩ := AList.mem_erase.mp hm
      rcases List.mem_append.mp hj with hj | hj
      · exact hf.leaving_free j hj hm
      · exact hji (List.mem_singleton.mp hj)
  · cases h
    exact hf

/-- The slots of `disconnect` keep the invariant of an announced index, and break the pairing of
    another. -/
theorem disconnectTell_fits (hf : st.Fits) (h : st.disconnectTell i = some st') :
    (i ∈ st.sendedKeys → st'.Fits) ∧ (i ∉ st.sendedKeys → ¬ st'.AllPaired) := by
  unfold disconnectTell at h
  split at h
  · rename_i hi
    cases h
    have hmem := fun j => hf.leaving_nodup.mem_erase_iff (a := j) (b := i)
    constructor
    · intro hk
      refine ⟨told_gone (· = i) hf.told (fun j hj => hj ▸ hk) (fun j => ?_) (fun j => ?_)
        (fun j => ?_), ?_, hf.leaving_nodup.erase i,
        fun j hj => hf.leaving_free j ((hmem j).mp hj).2⟩
      · constructor
        · rintro (hj | hj)
          · refine ⟨.inl hj, ?_⟩
            rintro rfl
            exact hf.leaving_free j hi hj
          · exact ⟨.inr ((hmem j).mp hj).2, ((hmem j).mp hj).1⟩
        · rintro ⟨hj, hji⟩
          exact hj.imp id (fun hj => (hmem j).mpr ⟨hji, hj⟩)
      · exact Finset.mem_erase.trans and_comm
      · by_cases hji : j = i
        · subst hji
          simp [tellGone]
        · simp [tellGone, hji]
      · exact waiting_mono hf.waiting (fun _ _ hj => hj) (Nat.le_refl _) (List.Subperm.refl _)
          (fun j => Or.imp_left fun hj => Finset.mem_of_mem_erase hj)
    · intro hk hall
      have := hall i
      simp only [tellGone, Function.update_self] at this
      exact told_unpaired hf.told (.inr hi) hk this
  · cases h

/-- The slots run once for each index of the loop. -/
theorem foldl_tellGone : ∀ (is : List SockIndex) (st : Notifying), is.Nodup →
    (is.foldl tellGone st).calls = st.calls ∧ (is.foldl tellGone st).leaving = st.leaving ∧
    ∀ j, (j ∈ (is.foldl tellGone st).sendedKeys ↔ j ∈ st.sendedKeys ∧ j ∉ is) ∧
      (is.foldl tellGone st).notified j =
        if j ∈ is then st.notified j ++ [.disconnection] else st.notified j
  | [], st, _ => ⟨rfl, rfl, fun j => by simp⟩
  | i :: is, st, hnd => by
    obtain ⟨hi, hnd⟩ := List.nodup_cons.mp hnd
    obtain ⟨hcalls, hleaving, hrest⟩ := foldl_tellGone is (st.tellGone i) hnd
    refine ⟨hcalls, hleaving, fun j => ?_⟩
    obtain ⟨hkeys, hnot⟩ := hrest j
    rw [List.foldl_cons, hkeys, hnot]
    by_cases hji : j = i
    · subst hji
      simp [hi, tellGone]
    · simp [hji, tellGone]

/-- `disconnectAll` keeps the invariant when every registered index is announced, and breaks the
    pairing otherwise. -/
theorem disconnectAll_fits (hf : st.Fits) (h : st.disconnectAll = some st') :
    (st.AnnouncedFirst .disconnectAll → st'.Fits) ∧
      (¬ st.AnnouncedFirst .disconnectAll → ¬ st'.AllPaired) := by
  obtain ⟨r, hstep, rfl⟩ := Option.map_eq_some_iff.mp h
  cases hstep
  obtain ⟨hcalls, hleaving, htold⟩ := foldl_tellGone st.registry.comm.mapIndexToSocket.keys st
    st.registry.comm.mapIndexToSocket.keys_nodup
  constructor
  · intro hann
    refine ⟨?_, ?_, hleaving ▸ hf.leaving_nodup, fun j _ => AList.notMem_empty j⟩
    · simp only [Notifying.due, hcalls]
      refine told_gone (· ∈ st.registry.comm.mapIndexToSocket.keys) hf.told hann (fun j => ?_)
        (fun j => (htold j).1) (fun j => (htold j).2)
      rw [← AList.mem_keys]
      unfold Notifying.Held
      simp only [hleaving]
      constructor
      · rintro (hj | hj)
        · exact absurd hj (AList.notMem_empty j)
        · exact ⟨.inr hj, hf.leaving_free j hj⟩
      · rintro ⟨hj | hj, hno⟩
        · exact absurd hj hno
        · exact .inr hj
    · simp only [Notifying.due, hcalls]
      exact waiting_mono hf.waiting
        (fun j _ hj => absurd (mem_of_lookup hj) (AList.notMem_empty j)) (Nat.le_refl _)
        (List.Subperm.refl _) (fun j => Or.imp_left fun hj => ((htold j).1.mp hj).1)
  · intro hno hall
    obtain ⟨i, hi⟩ := not_forall.mp hno
    obtain ⟨him, hik⟩ := Classical.not_imp.mp hi
    have hpaired := hall i
    simp only [(htold i).2] at hpaired
    rw [if_pos him] at hpaired
    exact told_unpaired hf.told (.inl (AList.mem_keys.mpr him)) hik hpaired

/-- One step in which indices are returned to their own callers: the invariant is kept if
    disconnections are told after announcements, and the pairing is broken if not. -/
theorem notify_step_fits {op : NotifyOp} (hf : st.Fits) (hown : st.ReturnsOwn op)
    (h : st.step op = some st') :
    (st.AnnouncedFirst op → st'.Fits) ∧ (¬ st.AnnouncedFirst op → ¬ st'.AllPaired) := by
  have hkeep : st'.Fits → st.AnnouncedFirst op →
      (st.AnnouncedFirst op → st'.Fits) ∧ (¬ st.AnnouncedFirst op → ¬ st'.AllPaired) :=
    fun hf' hann => ⟨fun _ => hf', fun hno => absurd hann hno⟩
  cases op with
  | createAccept => exact hkeep (createAccept_fits hf hown h) trivial
  | returnAccept conn => exact hkeep (returnAccept_fits hf h) trivial
  | acceptError conn => exact hkeep (acceptError_fits hf h) trivial
  | acceptLookup conn => exact hkeep (acceptLookup_fits hf h) trivial
  | acceptAgain conn => exact hkeep (acceptAgain_fits hf hown h) trivial
  | acceptReturn key conn => exact hkeep (acceptReturn_fits hf hown h) trivial
  | acceptEnd i conn => exact hkeep (acceptEnd_fits hf h) trivial
  | connectStart => exact hkeep (connectStart_fits hf hown h) trivial
  | connectReturn key s => exact hkeep (registerReturn_fits hf hown h) trivial
  | connectEnd i s ok => exact hkeep (connectEnd_fits hf h) trivial
  | disconnect i => exact hkeep (disconnect_fits hf h) trivial
  | disconnectTell i => exact disconnectTell_fits hf h
  | disconnectAll => exact disconnectAll_fits hf h
  | peerClose s =>
    refine hkeep ?_ trivial
    simp only [Notifying.step, Notifying.peerClose] at h
    split at h <;> cases h
    exact quiet_fits hf rfl (List.Subperm.refl _) .rfl rfl rfl rfl
  | disconnectNotify s =>
    refine hkeep ?_ trivial
    simp only [Notifying.step, Notifying.receiveDisconnectNotify] at h
    split at h
    · have hf' : Notifying.Fits { st with closing := st.closing.erase s } :=
        quiet_fits hf rfl (List.Subperm.refl _) .rfl rfl rfl rfl
      exact disconnect_fits hf' h
    · cases h

/-- A section or a return of the registry. -/
theorem section_refines {reg : RegOp} {f : Registry → Notifying}
    (h : (st.registry.step reg).map f = some st') (hf : ∀ r, (f r).registry = r) :
    ∃ reg, Registry.step st.registry reg = some st'.registry := by
  obtain ⟨r, hstep, rfl⟩ := Option.map_eq_some_iff.mp h
  exact ⟨reg, by rw [hf, hstep]⟩

theorem registerReturn_refines {stage stage' : CallStage}
    (h : st.registerReturn stage stage' i s = some st') :
    ∃ reg, Registry.step st.registry reg = some st'.registry := by
  unfold registerReturn at h
  split at h
  · exact section_refines h (fun _ => rfl)
  · cases h

theorem disconnect_refines (h : st.disconnect i = some st') :
    st'.registry = st.registry ∨ ∃ reg, Registry.step st.registry reg = some st'.registry := by
  unfold Notifying.disconnect at h
  split at h
  · exact .inr (section_refines h (fun _ => rfl))
  · cases h
    exact .inl rfl

/-- A step is a step of the registry or leaves it alone. -/
theorem notify_step_refines {op : NotifyOp} (h : st.step op = some st') :
    st'.registry = st.registry ∨ ∃ reg, Registry.step st.registry reg = some st'.registry := by
  cases op with
  | createAccept => exact .inr (section_refines h (fun _ => rfl))
  | returnAccept conn => exact .inr (section_refines h (fun _ => rfl))
  | acceptError conn => exact .inr (section_refines h (fun _ => rfl))
  | acceptLookup conn => exact .inr (section_refines h (fun _ => by split <;> rfl))
  | acceptAgain conn => exact .inr (section_refines h (fun _ => rfl))
  | connectStart => exact .inr (section_refines h (fun _ => rfl))
  | connectReturn key s => exact .inr (registerReturn_refines h)
  | acceptReturn key conn =>
    obtain ⟨st₁, hret, rfl⟩ := Option.map_eq_some_iff.mp h
    have hrefines := registerReturn_refines hret
    exact .inr hrefines
  | acceptEnd i conn =>
    simp only [Notifying.step, acceptEnd] at h
    split at h <;> cases h
    exact .inl rfl
  | connectEnd i s ok =>
    simp only [Notifying.step, connectEnd] at h
    split at h
    · split at h
      · cases h
        exact .inl rfl
      · exact .inr (section_refines h (fun _ => rfl))
    · cases h
  | disconnect i => exact disconnect_refines h
  | disconnectTell i =>
    simp only [Notifying.step, disconnectTell] at h
    split at h <;> cases h
    exact .inl rfl
  | disconnectAll =>
    simp only [Notifying.step, Notifying.disconnectAll] at h
    exact .inr (section_refines h (fun _ => rfl))
  | peerClose s =>
    simp only [Notifying.step, Notifying.peerClose] at h
    split at h <;> cases h
    exact .inl rfl
  | disconnectNotify s =>
    simp only [Notifying.step, Notifying.receiveDisconnectNotify] at h
    split at h
    · have hrefines := disconnect_refines h
      exact hrefines
    · cases h

end Steps

/-- **The registry of a run is one that `Registry` reaches.** -/
theorem notifying_refines {ops : List NotifyOp} {st : Notifying}
    (h : run Notifying.step Notifying.create ops = some st) :
    ∃ regs, run Registry.step Registry.create regs = some st.registry :=
  run_component Notifying.registry (fun _ _ _ => notify_step_refines) h

/-- **When notifications are paired.**  In every run, whatever the order of the calls and of the
    steps within them, in which `connectTo` and `socket_accept` are given the index that their
    `registerSocket` has stored: the subscriber is told of each registration nothing, that it is
    new, or that it is new and then that it is gone, exactly when no index is told of as gone by
    `disconnect`, `disconnectAll` or after a peer's close before it has been announced. -/
theorem notifications_paired_iff (ops : List NotifyOp)
    (hown : Meets Notifying.step ReturnsOwn Notifying.create ops) :
    Always Notifying.step AllPaired Notifying.create ops ↔
      Meets Notifying.step AnnouncedFirst Notifying.create ops := by
  refine always_iff_meets_within (I := Notifying.Fits) ?_ ?_ ?_ ops _ create_fits hown
  · exact fun st hf => told_paired hf.told
  · exact fun st op st' hf ho hc h => (notify_step_fits hf ho h).1 hc
  · exact fun st op st' hf ho hc h => (notify_step_fits hf ho h).2 hc

/-- A client is accepted and announced and a `connectTo` succeeds; the client closes while the
    socket for the next `async_accept` is registered, and comes again; then everything is taken
    down. -/
def clientComesAgain : List NotifyOp :=
  [.createAccept, .returnAccept 0, .acceptLookup 0, .acceptEnd 1 0, .connectStart,
    .connectReturn 2 1, .connectEnd 2 1 true, .peerClose 0, .disconnectNotify 0, .createAccept,
    .disconnectTell 1, .returnAccept 2, .acceptLookup 2, .acceptEnd 3 2, .disconnectAll]

theorem client_comes_again_paired :
    ∃ st, run Notifying.step Notifying.create clientComesAgain = some st ∧ st.AllPaired ∧
      st.notified 1 = [.newConnection, .disconnection] := by
  refine ⟨_, rfl, ?_, rfl⟩
  have hpaired := (notifications_paired_iff clientComesAgain (by decide)).mpr (by decide)
  exact hpaired _ _ (List.prefix_refl _) rfl

/-- A listening communicator tells of a disconnection when it is closed with `disconnectAll`, though
    nobody ever connected; a client that connects and closes at once is told of as gone before it is
    told of as new; and of two `connectTo` at once one announces the socket of the other, which is
    told of as new twice. -/
theorem notifications_unpaired :
    (∃ st, run Notifying.step Notifying.create [.createAccept, .returnAccept 0, .disconnectAll] =
      some st ∧ st.notified 1 = [.disconnection] ∧ ¬ st.AllPaired) ∧
    (∃ st, run Notifying.step Notifying.create [.createAccept, .returnAccept 0, .acceptLookup 0,
        .peerClose 0, .disconnectNotify 0, .disconnectTell 1, .acceptEnd 1 0] = some st ∧
      st.notified 1 = [.disconnection, .newConnection] ∧ ¬ st.AllPaired) ∧
    ∃ st, run Notifying.step Notifying.create [.connectStart, .connectStart, .connectReturn 1 0,
        .connectReturn 2 1, .connectEnd 2 0 true, .connectEnd 2 1 true] = some st ∧
      st.notified 2 = [.newConnection, .newConnection] ∧ ¬ st.AllPaired := by
  refine ⟨⟨_, rfl, rfl, fun h => absurd (h 1) ?_⟩, ⟨_, rfl, rfl, fun h => absurd (h 1) ?_⟩,
    ⟨_, rfl, rfl, fun h => absurd (h 2) ?_⟩⟩ <;>
  · unfold Notifying.Paired
    decide

end IMonPlatform
