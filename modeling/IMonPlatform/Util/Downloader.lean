import Mathlib.Logic.Function.Basic
import IMonPlatform.Lib.TaggedLog
import IMonPlatform.Lib.Transition

/-!
# `CDownloaderByAPI`

`DownloadToFile` starts a worker thread and then waits for two events that reset themselves, one for
progress and one for completion.  It goes on waiting after both; only ten minutes without an event
end the call, which then returns what is in `hResult_`.  The worker is not stopped by this, and the
next call on the object shares its members with it.

* `CDownloaderByAPI.step` — one step of the caller or of a worker.
* `OwnResults` — a call returned the result of its own download, and the cache entry of its address
  was deleted once during the call.
* `Silent` — a call times out only when no worker is left.
* `own_results_iff` — the one holds along a run exactly when the other does, and it always can.
-/

set_option autoImplicit false

namespace IMonPlatform

open Transition TaggedLog

variable {S : Type}

/-- A worker before its first step, in `URLDownloadToFileW` with these arguments, or before its
    `SetEvent`. -/
inductive DownloadPc (S : Type) where
  | started
  | downloading (remoteURL localPath : S)
  | stored
  | ended
  deriving DecidableEq

structure CDownloaderByAPI (S : Type) where
  remoteURL : S
  localPath : S
  hResult : Int
  hOnProgressEvent : Bool
  hOnCompleteEvent : Bool
  /-- The calls so far with their arguments, and the one that waits. -/
  requests : List (S × S)
  waiting : Option Nat
  /-- The worker of each call. -/
  workers : Nat → DownloadPc S
  /-- The downloads that have ended, with the call, the arguments and the result. -/
  finished : List (Nat × S × S × Int)
  /-- The cache entries deleted, with the call that did it. -/
  deleted : List (Nat × S)
  returned : List (Nat × Int)

inductive DownloadEvent (S : Type) where
  | call (remoteURL localPath : S)
  /-- The worker reads the arguments. -/
  | begin (k : Nat)
  | progress (k : Nat)
  | finish (k : Nat) (result : Int)
  | signal (k : Nat)
  /-- `WaitForMultipleObjects` returns with an event. -/
  | wake
  | timeout

namespace CDownloaderByAPI

/-- `S_OK`, no events set. -/
def create (text : S) : CDownloaderByAPI S where
  remoteURL := text
  localPath := text
  hResult := 0
  hOnProgressEvent := false
  hOnCompleteEvent := false
  requests := []
  waiting := none
  workers := fun _ => .ended
  finished := []
  deleted := []
  returned := []

def setWorker (s : CDownloaderByAPI S) (k : Nat) (pc : DownloadPc S) : CDownloaderByAPI S :=
  { s with workers := Function.update s.workers k pc }

def step (s : CDownloaderByAPI S) : DownloadEvent S → Option (CDownloaderByAPI S)
  | .call remoteURL localPath =>
    match s.waiting with
    | none =>
      some ({ s with
        remoteURL, localPath
        requests := s.requests ++ [(remoteURL, localPath)]
        waiting := some s.requests.length }.setWorker s.requests.length .started)
    | some _ => none
  | .begin k =>
    match s.workers k with
    | .started => some (s.setWorker k (.downloading s.remoteURL s.localPath))
    | _ => none
  | .progress k =>
    match s.workers k with
    | .downloading _ _ => some { s with hOnProgressEvent := true }
    | _ => none
  | .finish k result =>
    match s.workers k with
    | .downloading remoteURL localPath =>
      some ({ s with
        hResult := result
        finished := s.finished ++ [(k, remoteURL, localPath, result)] }.setWorker k .stored)
    | _ => none
  | .signal k =>
    match s.workers k with
    | .stored => some ({ s with hOnCompleteEvent := true }.setWorker k .ended)
    | _ => none
  | .wake =>
    match s.waiting with
    | none => none
    | some k =>
      -- Of two events that are set the first in the array is reported.
      if s.hOnProgressEvent then some { s with hOnProgressEvent := false }
      else if s.hOnCompleteEvent then
        some { s with hOnCompleteEvent := false, deleted := s.deleted ++ [(k, s.remoteURL)] }
      else none
  | .timeout =>
    match s.waiting, s.hOnProgressEvent, s.hOnCompleteEvent with
    | some k, false, false =>
      some { s with waiting := none, returned := s.returned ++ [(k, s.hResult)] }
    | _, _, _ => none

/-- Every call that returned did so with the result of a download that it had started with its own
    arguments, and the cache entry of its address was deleted once meanwhile. -/
def OwnResults (s : CDownloaderByAPI S) : Prop :=
  ∀ r ∈ s.returned, ∃ remoteURL localPath, s.requests[r.1]? = some (remoteURL, localPath) ∧
    (r.1, remoteURL, localPath, r.2) ∈ s.finished ∧ entriesOf s.deleted r.1 = [remoteURL]

/-- A call times out only when every worker has ended. -/
def Silent (s : CDownloaderByAPI S) : DownloadEvent S → Prop
  | .timeout => ∀ k, s.workers k = .ended
  | _ => True

/-- How far the call that waits has come. -/
inductive Stage (s : CDownloaderByAPI S) (k : Nat) : Prop where
  | running
      (hworker : s.workers k = .started ∨ s.workers k = .downloading s.remoteURL s.localPath)
      (hevent : s.hOnCompleteEvent = false) (hdeleted : entriesOf s.deleted k = [])
  | stored (hworker : s.workers k = .stored)
      (hresult : (k, s.remoteURL, s.localPath, s.hResult) ∈ s.finished)
      (hevent : s.hOnCompleteEvent = false) (hdeleted : entriesOf s.deleted k = [])
  | signalled (hworker : s.workers k = .ended)
      (hresult : (k, s.remoteURL, s.localPath, s.hResult) ∈ s.finished)
      (hevent : s.hOnCompleteEvent = true) (hdeleted : entriesOf s.deleted k = [])
  | complete (hworker : s.workers k = .ended)
      (hresult : (k, s.remoteURL, s.localPath, s.hResult) ∈ s.finished)
      (hevent : s.hOnCompleteEvent = false) (hdeleted : entriesOf s.deleted k = [s.remoteURL])

/-- The call that waits is the last one, and only its worker is left. -/
structure Current (s : CDownloaderByAPI S) (k : Nat) : Prop where
  last : k + 1 = s.requests.length
  request : s.requests[k]? = some (s.remoteURL, s.localPath)
  alone : ∀ j, j ≠ k → s.workers j = .ended
  stage : Stage s k

/-- One call after the other. -/
structure Serial (s : CDownloaderByAPI S) : Prop where
  idle : s.waiting = none →
    (∀ j, s.workers j = .ended) ∧ s.hOnProgressEvent = false ∧ s.hOnCompleteEvent = false
  current : ∀ k, s.waiting = some k → Current s k
  fresh : ∀ k, s.requests.length ≤ k → entriesOf s.deleted k = []
  past : ∀ r ∈ s.returned, r.1 < s.requests.length ∧ s.waiting ≠ some r.1
  own : OwnResults s

variable {s s' : CDownloaderByAPI S}

theorem serial_create (text : S) : Serial (create text) where
  idle _ := ⟨fun _ => rfl, rfl, rfl⟩
  current _ h := by cases h
  fresh _ _ := rfl
  past _ h := absurd h List.not_mem_nil
  own _ h := absurd h List.not_mem_nil

/-! ## Steps -/

theorem call_cases {remoteURL localPath : S} (h : s.step (.call remoteURL localPath) = some s') :
    s.waiting = none ∧ s' = { s with
      remoteURL, localPath
      requests := s.requests ++ [(remoteURL, localPath)]
      waiting := some s.requests.length
      workers := Function.update s.workers s.requests.length .started } := by
  simp only [step] at h
  split at h
  · rename_i hidle
    cases h
    exact ⟨hidle, rfl⟩
  · cases h

theorem begin_cases {k : Nat} (h : s.step (.begin k) = some s') :
    s.workers k = .started ∧ s' = s.setWorker k (.downloading s.remoteURL s.localPath) := by
  simp only [step] at h
  split at h
  · rename_i hw
    cases h
    exact ⟨hw, rfl⟩
  · cases h

theorem progress_cases {k : Nat} (h : s.step (.progress k) = some s') :
    (∃ remoteURL localPath, s.workers k = .downloading remoteURL localPath) ∧
      s' = { s with hOnProgressEvent := true } := by
  simp only [step] at h
  split at h
  · rename_i remoteURL localPath hw
    cases h
    exact ⟨⟨remoteURL, localPath, hw⟩, rfl⟩
  · cases h

theorem finish_cases {k : Nat} {result : Int} (h : s.step (.finish k result) = some s') :
    ∃ remoteURL localPath, s.workers k = .downloading remoteURL localPath ∧
      s' = { s with
        hResult := result
        finished := s.finished ++ [(k, remoteURL, localPath, result)]
        workers := Function.update s.workers k .stored } := by
  simp only [step] at h
  split at h
  · rename_i remoteURL localPath hw
    cases h
    exact ⟨remoteURL, localPath, hw, rfl⟩
  · cases h

theorem signal_cases {k : Nat} (h : s.step (.signal k) = some s') :
    s.workers k = .stored ∧
      s' = { s with
        hOnCompleteEvent := true
        workers := Function.update s.workers k .ended } := by
  simp only [step] at h
  split at h
  · rename_i hw
    cases h
    exact ⟨hw, rfl⟩
  · cases h

theorem wake_cases (h : s.step .wake = some s') :
    ∃ k, s.waiting = some k ∧
      (s.hOnProgressEvent = true ∧ s' = { s with hOnProgressEvent := false } ∨
        s.hOnProgressEvent = false ∧ s.hOnCompleteEvent = true ∧
          s' = { s with
            hOnCompleteEvent := false
            deleted := s.deleted ++ [(k, s.remoteURL)] }) := by
  simp only [step] at h
  split at h
  · cases h
  · rename_i k hk
    refine ⟨k, hk, ?_⟩
    split at h
    · rename_i hp
      cases h
      exact .inl ⟨hp, rfl⟩
    · rename_i hp
      split at h
      · rename_i hc
        cases h
        exact .inr ⟨by simpa using hp, hc, rfl⟩
      · cases h

theorem timeout_cases (h : s.step .timeout = some s') :
    ∃ k, s.waiting = some k ∧ s.hOnProgressEvent = false ∧ s.hOnCompleteEvent = false ∧
      s' = { s with waiting := none, returned := s.returned ++ [(k, s.hResult)] } := by
  simp only [step] at h
  split at h
  · rename_i k hk hp hc
    cases h
    exact ⟨k, hk, hp, hc, rfl⟩
  · cases h

/-! ## One call after the other -/

/-- What a step adds does not change the results of earlier calls. -/
theorem OwnResults.grows (h : OwnResults s) (hreturned : s'.returned = s.returned)
    (hrequests : s.requests <+: s'.requests) (hfinished : s.finished ⊆ s'.finished)
    (hdeleted : ∀ r ∈ s.returned, entriesOf s'.deleted r.1 = entriesOf s.deleted r.1) :
    OwnResults s' := by
  intro r hr
  rw [hreturned] at hr
  obtain ⟨remoteURL, localPath, hreq, hfin, hdel⟩ := h r hr
  refine ⟨remoteURL, localPath, ?_, hfinished hfin, (hdeleted r hr).trans hdel⟩
  obtain ⟨more, hmore⟩ := hrequests
  rw [← hmore, List.getElem?_append_left (List.getElem?_eq_some_iff.mp hreq).1, hreq]

/-- A worker that has not ended belongs to the call that waits. -/
theorem Serial.busy (h : Serial s) {k : Nat} (hk : s.workers k ≠ .ended) :
    s.waiting = some k := by
  cases hw : s.waiting with
  | none => exact absurd ((h.idle hw).1 k) hk
  | some j =>
    by_cases hj : k = j
    · rw [hj]
    · exact absurd ((h.current j hw).alone k hj) hk

/-- A step of the worker of the call that waits. -/
theorem Serial.worker_step (h : Serial s) {k : Nat} (hk : s.waiting = some k)
    (hrequests : s'.requests = s.requests) (hwaiting : s'.waiting = s.waiting)
    (hdeleted : s'.deleted = s.deleted) (hreturned : s'.returned = s.returned)
    (hfinished : s.finished ⊆ s'.finished) (hcurrent : Current s' k) : Serial s' where
  idle hnone := by
    rw [hwaiting, hk] at hnone
    cases hnone
  current j hj := by
    rw [hwaiting, hk] at hj
    cases hj
    exact hcurrent
  fresh j hj := by
    rw [hdeleted]
    exact h.fresh j (hrequests ▸ hj)
  past r hr := by
    rw [hreturned] at hr
    rw [hrequests, hwaiting]
    exact h.past r hr
  own := h.own.grows hreturned (hrequests ▸ List.prefix_rfl) hfinished
    fun r _ => by rw [hdeleted]

theorem serial_call {remoteURL localPath : S} (h : Serial s)
    (hs : s.step (.call remoteURL localPath) = some s') : Serial s' := by
  obtain ⟨hidle, rfl⟩ := call_cases hs
  obtain ⟨hended, _, hevent⟩ := h.idle hidle
  refine ⟨nofun, fun k hk => ?_, fun k hk => ?_, fun r hr => ?_, ?_⟩
  · cases hk
    refine ⟨by simp, by simp, fun j hj => ?_, ?_⟩
    · show Function.update s.workers _ _ j = _
      rw [Function.update_of_ne hj, hended]
    · exact .running (.inl (Function.update_self ..)) hevent (h.fresh _ (Nat.le_refl _))
  · simp only [List.length_append, List.length_singleton] at hk
    exact h.fresh k (by omega)
  · have hlt := (h.past r hr).1
    refine ⟨?_, fun hsame => ?_⟩
    · simp only [List.length_append, List.length_singleton]
      omega
    · have hrefl := Option.some.inj hsame
      omega
  · exact h.own.grows rfl (List.prefix_append ..) (fun _ hr => hr) fun _ _ => rfl

theorem serial_begin {k : Nat} (h : Serial s) (hs : s.step (.begin k) = some s') :
    Serial s' := by
  obtain ⟨hw, rfl⟩ := begin_cases hs
  have hk := h.busy (k := k) (by simp [hw])
  obtain ⟨hlast, hrequest, halone, hstage⟩ := h.current k hk
  refine h.worker_step hk rfl rfl rfl rfl (fun _ hr => hr) ⟨hlast, hrequest, fun j hj => ?_, ?_⟩
  · show Function.update s.workers k _ j = _
    rw [Function.update_of_ne hj, halone j hj]
  · cases hstage with
    | running _ hevent hdeleted =>
      exact .running (.inr (Function.update_self ..)) hevent hdeleted
    | stored hworker | signalled hworker | complete hworker =>
      rw [hw] at hworker
      cases hworker

theorem serial_progress {k : Nat} (h : Serial s) (hs : s.step (.progress k) = some s') :
    Serial s' := by
  obtain ⟨⟨remoteURL, localPath, hw⟩, rfl⟩ := progress_cases hs
  have hk := h.busy (k := k) (by simp [hw])
  obtain ⟨hlast, hrequest, halone, hstage⟩ := h.current k hk
  refine h.worker_step hk rfl rfl rfl rfl (fun _ hr => hr) ⟨hlast, hrequest, halone, ?_⟩
  cases hstage with
  | running hworker hevent hdeleted => exact .running hworker hevent hdeleted
  | stored hworker | signalled hworker | complete hworker =>
    rw [hw] at hworker
    cases hworker

theorem serial_finish {k : Nat} {result : Int} (h : Serial s)
    (hs : s.step (.finish k result) = some s') : Serial s' := by
  obtain ⟨remoteURL, localPath, hw, rfl⟩ := finish_cases hs
  have hk := h.busy (k := k) (by simp [hw])
  obtain ⟨hlast, hrequest, halone, hstage⟩ := h.current k hk
  refine h.worker_step hk rfl rfl rfl rfl (List.subset_append_left ..)
    ⟨hlast, hrequest, fun j hj => ?_, ?_⟩
  · show Function.update s.workers k _ j = _
    rw [Function.update_of_ne hj, halone j hj]
  · cases hstage with
    | running hworker hevent hdeleted =>
      -- the worker has the arguments of its call
      rw [hw] at hworker
      rcases hworker with hworker | hworker
      · cases hworker
      · cases hworker
        exact .stored (Function.update_self ..)
          (List.mem_append_right _ (List.mem_singleton.mpr rfl)) hevent hdeleted
    | stored hworker | signalled hworker | complete hworker =>
      rw [hw] at hworker
      cases hworker

theorem serial_signal {k : Nat} (h : Serial s) (hs : s.step (.signal k) = some s') :
    Serial s' := by
  obtain ⟨hw, rfl⟩ := signal_cases hs
  have hk := h.busy (k := k) (by simp [hw])
  obtain ⟨hlast, hrequest, halone, hstage⟩ := h.current k hk
  refine h.worker_step hk rfl rfl rfl rfl (fun _ hr => hr) ⟨hlast, hrequest, fun j hj => ?_, ?_⟩
  · show Function.update s.workers k _ j = _
    rw [Function.update_of_ne hj, halone j hj]
  · cases hstage with
    | stored _ hresult _ hdeleted =>
      exact .signalled (Function.update_self ..) hresult rfl hdeleted
    | running hworker =>
      rw [hw] at hworker
      rcases hworker with hworker | hworker <;> cases hworker
    | signalled hworker | complete hworker =>
      rw [hw] at hworker
      cases hworker

theorem serial_wake (h : Serial s) (hs : s.step .wake = some s') : Serial s' := by
  obtain ⟨k, hk, ⟨_, rfl⟩ | ⟨_, hc, rfl⟩⟩ := wake_cases hs
  · obtain ⟨hlast, hrequest, halone, hstage⟩ := h.current k hk
    refine h.worker_step hk rfl rfl rfl rfl (fun _ hr => hr) ⟨hlast, hrequest, halone, ?_⟩
    cases hstage with
    | running hworker hevent hdeleted => exact .running hworker hevent hdeleted
    | stored hworker hresult hevent hdeleted => exact .stored hworker hresult hevent hdeleted
    | signalled hworker hresult hevent hdeleted =>
      exact .signalled hworker hresult hevent hdeleted
    | complete hworker hresult hevent hdeleted => exact .complete hworker hresult hevent hdeleted
  · obtain ⟨hlast, hrequest, halone, hstage⟩ := h.current k hk
    have hothers : ∀ j, j ≠ k →
        entriesOf (s.deleted ++ [(k, s.remoteURL)]) j = entriesOf s.deleted j := by
      intro j hj
      rw [entriesOf_append, entriesOf_singleton_ne (Ne.symm hj), List.append_nil]
    refine ⟨fun hnone => ?_, fun j hj => ?_, fun j hj => ?_, h.past, ?_⟩
    · rw [show s.waiting = none from hnone] at hk
      cases hk
    · rw [show s.waiting = some j from hj] at hk
      cases hk
      refine ⟨hlast, hrequest, halone, ?_⟩
      cases hstage with
      | signalled hworker hresult _ hdeleted =>
        refine .complete hworker hresult rfl ?_
        rw [entriesOf_append, hdeleted, entriesOf_singleton_self]
        rfl
      | running _ hevent | stored _ _ hevent | complete _ _ hevent =>
        rw [hc] at hevent
        cases hevent
    · have hne : j ≠ k := by
        have hlen : s.requests.length ≤ j := hj
        omega
      rw [hothers j hne]
      exact h.fresh j hj
    · refine h.own.grows rfl List.prefix_rfl (fun _ hr => hr) fun r hr => hothers r.1 fun he => ?_
      exact (h.past r hr).2 (he ▸ hk)

theorem serial_timeout (h : Serial s) (hsilent : Silent s .timeout)
    (hs : s.step .timeout = some s') : Serial s' := by
  obtain ⟨k, hk, hp, hc, rfl⟩ := timeout_cases hs
  obtain ⟨hlast, hrequest, _, hstage⟩ := h.current k hk
  refine ⟨fun _ => ⟨hsilent, hp, hc⟩, nofun, h.fresh, fun r hr => ⟨?_, nofun⟩, fun r hr => ?_⟩
  · rcases List.mem_append.mp hr with hr | hr
    · exact (h.past r hr).1
    · rw [List.mem_singleton] at hr
      subst hr
      show k < s.requests.length
      omega
  · rcases List.mem_append.mp hr with hr | hr
    · exact h.own r hr
    · rw [List.mem_singleton] at hr
      subst hr
      cases hstage with
      | complete _ hresult _ hdeleted =>
        exact ⟨s.remoteURL, s.localPath, hrequest, hresult, hdeleted⟩
      | signalled _ _ hevent =>
        rw [hc] at hevent
        cases hevent
      | running hworker =>
        rw [hsilent k] at hworker
        rcases hworker with hworker | hworker <;> cases hworker
      | stored hworker =>
        rw [hsilent k] at hworker
        cases hworker

theorem serial_step {e : DownloadEvent S} (h : Serial s) (hsilent : Silent s e)
    (hs : s.step e = some s') : Serial s' := by
  cases e with
  | call remoteURL localPath => exact serial_call h hs
  | begin k => exact serial_begin h hs
  | progress k => exact serial_progress h hs
  | finish k result => exact serial_finish h hs
  | signal k => exact serial_signal h hs
  | wake => exact serial_wake h hs
  | timeout => exact serial_timeout h hsilent hs

/-- A call that times out too early returns before its cache entry is deleted. -/
theorem too_early {e : DownloadEvent S} (h : Serial s) (hloud : ¬ Silent s e)
    (hs : s.step e = some s') : ¬ OwnResults s' := by
  cases e with
  | timeout =>
    obtain ⟨j, hj⟩ := not_forall.mp hloud
    obtain ⟨k, hk, hp, hc, rfl⟩ := timeout_cases hs
    have hsame : k = j := Option.some.inj (hk.symm.trans (h.busy hj))
    subst hsame
    intro hown
    obtain ⟨remoteURL, localPath, _, _, hdel⟩ :=
      hown (k, s.hResult) (List.mem_append_right _ (List.mem_singleton.mpr rfl))
    have hnone : entriesOf s.deleted k = [] := by
      cases (h.current k hk).stage with
      | running _ _ hdeleted | stored _ _ _ hdeleted | signalled _ _ _ hdeleted => exact hdeleted
      | complete hworker => exact absurd hworker hj
    rw [hnone] at hdel
    cases hdel
  | _ => exact absurd trivial hloud

/-! ## The end of a call -/

/-- The steps that a worker has before it. -/
def pcLeft : DownloadPc S → Nat
  | .started => 3
  | .downloading _ _ => 2
  | .stored => 1
  | .ended => 0

/-- The steps before the call can time out; a `SetEvent` is followed by a wake-up. -/
def stepsLeft (s : CDownloaderByAPI S) (k : Nat) : Nat :=
  2 * pcLeft (s.workers k) + s.hOnProgressEvent.toNat + s.hOnCompleteEvent.toNat

/-- The worker has ended and its events have been seen. -/
def Quiet (s : CDownloaderByAPI S) (k : Nat) : Prop :=
  s.workers k = .ended ∧ s.hOnProgressEvent = false ∧ s.hOnCompleteEvent = false

theorem comes_nearer {k : Nat} (h : Serial s) (hk : s.waiting = some k) (hq : ¬ Quiet s k) :
    ∃ e s', s.step e = some s' ∧ (∀ q : CDownloaderByAPI S, Silent q e) ∧
      (Serial s' ∧ s'.waiting = some k) ∧ s'.stepsLeft k < s.stepsLeft k := by
  cases hw : s.workers k with
  | started =>
    have hs : s.step (.begin k) =
        some (s.setWorker k (.downloading s.remoteURL s.localPath)) := by
      simp only [step, hw]
    refine ⟨_, _, hs, fun _ => trivial, ⟨serial_begin h hs, hk⟩, ?_⟩
    simp only [stepsLeft, setWorker, Function.update_self, hw, pcLeft]
    omega
  | downloading remoteURL localPath =>
    have hs : s.step (.finish k 0) = some ({ s with
        hResult := 0
        finished := s.finished ++ [(k, remoteURL, localPath, 0)] }.setWorker k .stored) := by
      simp only [step, hw]
    refine ⟨_, _, hs, fun _ => trivial, ⟨serial_finish h hs, hk⟩, ?_⟩
    simp only [stepsLeft, setWorker, Function.update_self, hw, pcLeft]
    omega
  | stored =>
    have hs : s.step (.signal k) =
        some ({ s with hOnCompleteEvent := true }.setWorker k .ended) := by
      simp only [step, hw]
    refine ⟨_, _, hs, fun _ => trivial, ⟨serial_signal h hs, hk⟩, ?_⟩
    have hle := Bool.toNat_le s.hOnCompleteEvent
    simp only [stepsLeft, setWorker, Function.update_self, hw, pcLeft, Bool.toNat_true]
    omega
  | ended =>
    cases hp : s.hOnProgressEvent with
    | true =>
      have hs : s.step .wake = some { s with hOnProgressEvent := false } := by
        simp only [step, hk, hp, if_true]
      refine ⟨_, _, hs, fun _ => trivial, ⟨serial_wake h hs, hk⟩, ?_⟩
      simp only [stepsLeft, hp, Bool.toNat_true, Bool.toNat_false]
      omega
    | false =>
      cases hc : s.hOnCompleteEvent with
      | true =>
        have hs : s.step .wake = some { s with
            hOnCompleteEvent := false
            deleted := s.deleted ++ [(k, s.remoteURL)] } := by
          simp only [step, hk, hp, hc, if_true, Bool.false_eq_true, if_false]
        refine ⟨_, _, hs, fun _ => trivial, ⟨serial_wake h hs, hk⟩, ?_⟩
        simp only [stepsLeft, hc, Bool.toNat_true, Bool.toNat_false]
        omega
      | false => exact absurd ⟨hw, hp, hc⟩ hq

/-- A call that waits can come to an end without timing out too early. -/
theorem call_ends {k : Nat} (h : Serial s) (hk : s.waiting = some k) :
    ∃ es t result, run step s es = some t ∧ Meets step Silent s es ∧ t.waiting = none ∧
      (k, result) ∈ t.returned := by
  obtain ⟨es, t, hrun, hes, ⟨ht, hkt⟩, hw, hp, hc⟩ :=
    exists_run_until (stepsLeft · k)
      (fun s (hi : Serial s ∧ s.waiting = some k) (hq : ¬ Quiet s k) =>
        comes_nearer hi.1 hi.2 hq) (s.stepsLeft k) s ⟨h, hk⟩ (Nat.le_refl _)
  have hs : t.step .timeout =
      some { t with waiting := none, returned := t.returned ++ [(k, t.hResult)] } := by
    simp only [step, hkt, hp, hc]
  refine ⟨es ++ [.timeout], _, t.hResult, run_snoc.mpr ⟨t, hrun, hs⟩, ?_, rfl,
    List.mem_append_right _ (List.mem_singleton.mpr rfl)⟩
  refine meets_append (meets_of_forall es s hes) fun m hm => ?_
  rw [hrun] at hm
  cases hm
  refine meets_cons hs (fun j => ?_) trivial
  by_cases hj : j = k
  · rw [hj, hw]
  · exact (ht.current k hkt).alone j hj

/-! ## Runs -/

/-- **When a download gets its own result**: in every run of calls on one object every call returns
    with the result of a download of its own arguments, and the cache entry of its address was
    deleted once meanwhile, as long as no call times out while a worker is left, and no longer; and
    a call that waits can always come to such an end. -/
theorem own_results_iff (text : S) (es : List (DownloadEvent S)) :
    (Always step OwnResults (create text) es ↔ Meets step Silent (create text) es) ∧
    ∀ s, run step (create text) es = some s → Meets step Silent (create text) es →
      ∀ k, s.waiting = some k → ∃ es' t result, run step s es' = some t ∧
        Meets step Silent s es' ∧ t.waiting = none ∧ (k, result) ∈ t.returned := by
  refine ⟨always_iff_meets (I := Serial) (fun s h => h.own)
    (fun s e s' h hsilent hs => serial_step h hsilent hs)
    (fun s e s' h hloud hs => too_early h hloud hs) es _ (serial_create text), ?_⟩
  intro s hrun hmeets k hk
  exact call_ends (run_preserves (fun s e s' h hsilent hs => serial_step h hsilent hs) es _ s
    (serial_create text) hmeets hrun) hk

end CDownloaderByAPI

end IMonPlatform
