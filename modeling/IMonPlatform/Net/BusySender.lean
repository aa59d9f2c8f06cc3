import Mathlib.Data.List.Count
import IMonPlatform.Net.ManagerSteps

/-!
# The sender while the server is busy

Only `queuePacketFromDataBuffer` stores to `_isBusy`.  As long as no packet is received, a sender
that finds the flag set therefore finds it set for ever: before its pop it sleeps and tests again,
after its pop it drops the packet.

* `busy_sender_step` — without receptions, a sender step in a busy state writes nothing that was
  not already behind the second test.
* `busy_head_never_written` — from no busy state does the sender, left alone, write the packet at
  the head of `_outgoingQueue`.
-/

set_option autoImplicit false

namespace IMonPlatform

open Framing CGPBManagerV2 Transition

variable {Packet ReqCode ResCode : Type}

namespace CGPBManagerV2

/-- The packet that the sender has taken and not yet written completely. -/
def inHand (m : CGPBManagerV2 Packet) : List (Sock × Packet) :=
  match m.sender with
  | .loop | .pop => []
  | .popped e | .index e | .record e _ | .write e _ => [e]

/-- The packet in hand, once it has passed the second busy test. -/
def admitted (m : CGPBManagerV2 Packet) : List (Sock × Packet) :=
  match m.sender with
  | .loop | .pop | .popped _ => []
  | .index e | .record e _ | .write e _ => [e]

theorem admitted_sublist (m : CGPBManagerV2 Packet) : m.admitted.Sublist m.inHand := by
  unfold admitted inHand
  cases m.sender <;> simp

end CGPBManagerV2

/-- Between `m` and `m'` a packet equal to `head` has been written that the sender did not have
    in hand at `m`. -/
def HeadWritten [DecidableEq Packet] (m m' : CGPBManagerV2 Packet) (head : Sock × Packet) : Prop :=
  (m.log.written ++ m.inHand).count head < m'.log.written.count head

variable {cfg : Config Packet ReqCode ResCode} {m m' : CGPBManagerV2 Packet}

/-- The busy state without receptions: nothing is written beyond `bound`. -/
structure Stalled (bound : List (Sock × Packet)) (m : CGPBManagerV2 Packet) : Prop where
  use : m.isUseWaitingWhenServerBusy = true
  busy : m.isBusy = true
  written : (m.log.written ++ m.admitted).Sublist bound

/-- **A sender step in a busy state**: the flag stays, and a packet can only be dropped or be
    written if it had passed the second test. -/
theorem busy_sender_step {bound : List (Sock × Packet)} {a : SenderAct} (hs : Stalled bound m)
    (h : senderStep cfg m a = some m') : Stalled bound m' := by
  obtain ⟨huse, hbusy, hsub⟩ := hs
  have hf := senderStep_frame h
  refine ⟨hf.use.trans huse, hf.busy.trans hbusy, ?_⟩
  have hless : m.log.written.Sublist bound := (List.sublist_append_left _ _).trans hsub
  cases a with
  | test =>
    obtain ⟨hpc, ⟨_, _, rfl⟩ | ⟨hnot, rfl⟩⟩ := senderTest_cases h
    · exact hsub
    · exact absurd ⟨huse, hbusy⟩ hnot
  | pop =>
    obtain ⟨x, rest, hpc, _, rfl⟩ := senderPop_cases h
    simpa [admitted] using hless
  | check =>
    obtain ⟨x, hpc, ⟨_, _, rfl⟩ | ⟨_, hclear, rfl⟩ | ⟨hoff, rfl⟩⟩ := senderCheck_cases h
    · simpa [admitted] using hless
    · rw [hbusy] at hclear
      cases hclear
    · rw [huse] at hoff
      cases hoff
  | index =>
    obtain ⟨x, hpc, ⟨_, rfl⟩ | ⟨_, rfl⟩⟩ := senderIndex_cases h <;>
      simpa [admitted, hpc] using hsub
  | record =>
    obtain ⟨x, i, hpc, ⟨f, _, rfl⟩ | ⟨_, rfl⟩⟩ := senderRecord_cases h <;>
      simpa [admitted, hpc] using hsub
  | write k =>
    obtain ⟨x, n, hpc, _, _, ⟨_, rfl⟩ | ⟨_, rfl⟩⟩ := senderWrite_cases h <;>
      simpa [admitted, hpc] using hsub
  | writeError =>
    obtain ⟨x, n, hpc, rfl⟩ := senderWriteError_cases h
    simpa [admitted] using hless

/-- The run lemma: left alone in a busy state, the sender stays there. -/
theorem busy_sender_run {as : List SenderAct} (huse : m.isUseWaitingWhenServerBusy = true)
    (hbusy : m.isBusy = true) (h : run (senderStep cfg) m as = some m') :
    Stalled (m.log.written ++ m.admitted) m' :=
  run_invariant (fun _ _ _ hi hs => busy_sender_step hi hs) ⟨huse, hbusy, List.Sublist.refl _⟩ h

theorem stalled_not_headWritten [DecidableEq Packet] {head : Sock × Packet}
    (hs : Stalled (m.log.written ++ m.admitted) m') : ¬ HeadWritten m m' head := by
  unfold HeadWritten
  have hle : m'.log.written.count head ≤ (m.log.written ++ m.inHand).count head := calc
    m'.log.written.count head ≤ (m'.log.written ++ m'.admitted).count head :=
      (List.sublist_append_left _ _).count_le head
    _ ≤ (m.log.written ++ m.admitted).count head := hs.written.count_le head
    _ ≤ (m.log.written ++ m.inHand).count head :=
      (m.admitted_sublist.append_left _).count_le head
  omega

/-- **The busy state is never left by the sender alone**: from no state with the feature on and
    the flag set is there a sequence of `dispatchSendMessage` steps after which the packet at the
    head of `_outgoingQueue` has been written. -/
theorem busy_head_never_written [DecidableEq Packet] (cfg : Config Packet ReqCode ResCode)
    (m : CGPBManagerV2 Packet) (head : Sock × Packet) (rest : List (Sock × Packet))
    (huse : m.isUseWaitingWhenServerBusy = true) (hbusy : m.isBusy = true)
    (_hqueue : m.outgoingQueue = head :: rest) :
    ¬ ∃ as m', run (senderStep cfg) m as = some m' ∧ HeadWritten m m' head := by
  rintro ⟨as, m', hrun, hwritten⟩
  exact stalled_not_headWritten (busy_sender_run huse hbusy hrun) hwritten

namespace SamplePacket

/-- Request 1 on socket 0 is sent and refused by a busy server. -/
def refused : List (Event SamplePacket) :=
  sendCall 0 1 ⟨0, 3, 0⟩ ++ senderRound ++ recvCall 0 0 (frame [1, 0, 9])

end SamplePacket

open SamplePacket in
/-- After the only outstanding request has been refused it waits at the head of the queue, and the
    sender alone never sends it again. -/
theorem refused_request_stalls :
    ∃ m, run (step config) (manager true) refused = some m ∧
      m.isUseWaitingWhenServerBusy = true ∧ m.isBusy = true ∧
      m.outgoingQueue = [(0, ⟨1, 3, 0⟩)] ∧
      ¬ ∃ as m', run (senderStep config) m as = some m' ∧
        HeadWritten m m' (0, ⟨1, 3, 0⟩) := by
  refine ⟨_, rfl, rfl, rfl, rfl, ?_⟩
  rintro ⟨as, m', hrun, hwritten⟩
  exact stalled_not_headWritten (busy_sender_run rfl rfl hrun) hwritten

open SamplePacket in
theorem busy_head_never_written_refused :
    ∃ m, run (step config) (manager true) refused = some m ∧
      ¬ ∃ as m', run (senderStep config) m as = some m' ∧
        HeadWritten m m' (0, ⟨1, 3, 0⟩) :=
  ⟨_, rfl, busy_head_never_written config _ (0, ⟨1, 3, 0⟩) [] rfl rfl rfl⟩

end IMonPlatform
