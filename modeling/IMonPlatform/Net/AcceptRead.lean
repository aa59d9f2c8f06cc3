import IMonPlatform.Net.CommonSocket

/-!
# Starting to read and registering the message slot

`connectTo` runs the new-connection slots, so that `receiveNewConnection` registers
`queuePacketFromDataBuffer` with the socket, and then starts to read.  `socket_accept` does the
same two things the other way round, and the reads complete on another thread.

* `Accepting` — the socket, what its handler still has to do, and the frames that were read while
  no slot was registered.
* `relabel` — the reader does not depend on its slots: `complete_relabel`.
* `Simulates` — the socket against a reference socket that had its slot from the start.
* `first_frames_delivered_iff` — an accepted socket hands over every frame exactly when no body
  read completes before the slot is registered; a connected one always does.
-/

set_option autoImplicit false

namespace IMonPlatform

open Transition Framing CCommonSocket

variable {Slot : Type}

/-! ## State and steps -/

/-- What is left to do in `socket_accept` or `connectTo`. -/
inductive HandlerAct where
  | receivePacket
  /-- The slot of `receiveNewConnection` calls `registerQueuePacket`. -/
  | newConnection
  deriving DecidableEq

structure Accepting (Slot : Type) where
  socket : CCommonSocket Slot
  todo : List HandlerAct
  /-- Frames whose body arrived while no message slot was registered. -/
  unheard : List Bytes

/-- A step of the handler, or something on the connection. -/
inductive AcceptEvent where
  | handler
  | net (e : NetEvent)

namespace Accepting

/-- A new connection: the disconnect slot is registered, nothing is read yet. -/
def connected (disc : List Slot) : CCommonSocket Slot := ⟨[], 0, [], disc, .closed, [], false, []⟩

/-- `socket_accept` behind its registration. -/
def socketAccept (disc : List Slot) : Accepting Slot :=
  ⟨connected disc, [.receivePacket, .newConnection], []⟩

/-- `connectTo` behind its `connect`. -/
def connectTo (disc : List Slot) : Accepting Slot :=
  ⟨connected disc, [.newConnection, .receivePacket], []⟩

end Accepting

/-- `registerQueuePacket`. -/
def CCommonSocket.registerQueuePacket (s : CCommonSocket Slot) (sltMessage : Slot) :
    CCommonSocket Slot :=
  { s with vecSltMessage := s.vecSltMessage ++ [sltMessage] }

/-- The frame that the next completion would hand over. -/
def CCommonSocket.completedFrame (s : CCommonSocket Slot) : Option Bytes :=
  match s.pending with
  | .body =>
    if s.readBuffer.length < PACKET_HEADER_SIZE + s.packetBodySize then none
    else if s.packetBodySize ≤ s.inbox.length then
      some (s.transfer PACKET_HEADER_SIZE s.packetBodySize).readBuffer
    else none
  | _ => none

namespace Accepting

def handlerStep (slot : Slot) (st : Accepting Slot) : Option (Accepting Slot) :=
  match st.todo with
  | .receivePacket :: todo => some { st with socket := st.socket.receivePacket, todo := todo }
  | .newConnection :: todo =>
    some { st with socket := st.socket.registerQueuePacket slot, todo := todo }
  | [] => none

def netStep (st : Accepting Slot) (e : NetEvent) : Option (Accepting Slot) :=
  match st.socket.step e with
  | none => none
  | some s => some { st with
      socket := s
      unheard := if e = .complete ∧ st.socket.vecSltMessage.isEmpty then
        st.unheard ++ st.socket.completedFrame.toList else st.unheard }

def step (slot : Slot) (st : Accepting Slot) : AcceptEvent → Option (Accepting Slot)
  | .handler => st.handlerStep slot
  | .net e => st.netStep e

/-- The condition on a step: a frame is not completed before a slot is registered. -/
def SlotReady (st : Accepting Slot) : AcceptEvent → Prop
  | .net .complete => st.socket.completedFrame ≠ none → st.socket.vecSltMessage ≠ []
  | _ => True

/-- The handler has returned and the reader waits for the peer. -/
def AtRest (st : Accepting Slot) : Prop := st.todo = [] ∧ Quiescent st.socket

end Accepting

/-- The events on the connection. -/
def AcceptEvent.net? : AcceptEvent → Option NetEvent
  | .handler => none
  | .net e => some e

def netEvents (es : List AcceptEvent) : List NetEvent := es.filterMap AcceptEvent.net?

open Accepting

/-! ## The reader and its slots -/

/-- The same reader with other slots and another history. -/
def CCommonSocket.relabel (s : CCommonSocket Slot) (msg : List Slot) (calls : List (Call Slot)) :
    CCommonSocket Slot :=
  { s with vecSltMessage := msg, calls := calls }

/-- What a completed frame makes of the slots. -/
def frameCalls (frame : Option Bytes) (msg : List Slot) : List (Call Slot) :=
  frame.toList.flatMap (fun f => msg.map (.message · f))

/-- A completion with other slots makes the calls of those slots for the same frame, and the same
    calls of the disconnect slots. -/
def Relabels (s s' : CCommonSocket Slot) : Prop :=
  ∃ tail, (∀ c ∈ tail, ∃ slot, c = Call.disconnect slot) ∧
    s'.calls = s.calls ++ frameCalls s.completedFrame s.vecSltMessage ++ tail ∧
    s'.vecSltMessage = s.vecSltMessage ∧
    ∀ msg calls, (s.relabel msg calls).complete =
      some (s'.relabel msg (calls ++ frameCalls s.completedFrame msg ++ tail))

section Relabel

variable {s s' : CCommonSocket Slot}

theorem disconnect_calls (s : CCommonSocket Slot) :
    ∀ c ∈ s.vecSltDisconnect.map Call.disconnect, ∃ slot : Slot, c = .disconnect slot := by
  intro c hc
  obtain ⟨d, _, rfl⟩ := List.mem_map.mp hc
  exact ⟨d, rfl⟩

/-- The end of a header read completes no frame. -/
theorem relabels_header (hp : s.pending = .header) (h : s.complete = some s') : Relabels s s' := by
  have hno : s.completedFrame = none := by simp [completedFrame, hp]
  unfold CCommonSocket.complete outstanding at h
  simp only [hp, Nat.zero_add, Nat.lt_irrefl, if_false] at h
  split at h
  · rename_i hn
    cases h
    refine ⟨[], by simp, ?_, rfl, fun msg calls => ?_⟩
    · simp [hno, frameCalls, readHeader, startReadBody, transfer]
    · simp [CCommonSocket.complete, outstanding, relabel, hp, hn, hno, frameCalls,
        readHeader, startReadBody, transfer]
  split at h
  · rename_i hn hh
    cases h
    refine ⟨_, disconnect_calls s, ?_, rfl, fun msg calls => ?_⟩
    · simp [hno, frameCalls, readHeader, fireDisconnect, transfer]
    · simp [CCommonSocket.complete, outstanding, relabel, hp, hn, hh, hno, frameCalls,
        readHeader, fireDisconnect, transfer]
  · cases h

theorem relabels_body (hp : s.pending = .body) (h : s.complete = some s') : Relabels s s' := by
  unfold CCommonSocket.complete outstanding at h
  simp only [hp] at h
  split at h
  · rename_i hover
    have hno : s.completedFrame = none := by simp [completedFrame, hp, hover]
    cases h
    refine ⟨[], by simp, by simp [hno, frameCalls], rfl, fun msg calls => ?_⟩
    simp [CCommonSocket.complete, outstanding, relabel, hp, hover, hno, frameCalls]
  split at h
  · rename_i hover hn
    have hsome : s.completedFrame =
        some (s.transfer PACKET_HEADER_SIZE s.packetBodySize).readBuffer := by
      simp [completedFrame, hp, hover, hn]
    cases h
    refine ⟨[], by simp, ?_, rfl, fun msg calls => ?_⟩
    · simp [hsome, frameCalls, readBody, CCommonSocket.receivePacket, startReadHeader, transfer]
    · simp [CCommonSocket.complete, outstanding, relabel, hp, hover, hn, hsome, frameCalls,
        readBody, CCommonSocket.receivePacket, startReadHeader, transfer]
  split at h
  · rename_i hover hn hh
    have hno : s.completedFrame = none := by simp [completedFrame, hp, hover, hn]
    cases h
    refine ⟨_, disconnect_calls s, ?_, rfl, fun msg calls => ?_⟩
    · simp [hno, frameCalls, readBody, fireDisconnect, transfer]
    · simp [CCommonSocket.complete, outstanding, relabel, hp, hover, hn, hh, hno, frameCalls,
        readBody, fireDisconnect, transfer]
  · cases h

/-- **The reader does not depend on its slots.** -/
theorem complete_relabel (h : s.complete = some s') : Relabels s s' := by
  cases hp : s.pending with
  | header => exact relabels_header hp h
  | body => exact relabels_body hp h
  | closed => simp [CCommonSocket.complete, outstanding, hp] at h
  | overrun => simp [CCommonSocket.complete, outstanding, hp] at h

end Relabel

theorem complete_relabel_none {s : CCommonSocket Slot} {msg : List Slot} {calls : List (Call Slot)}
    (h : s.complete = none) : (s.relabel msg calls).complete = none := by
  cases hc : (s.relabel msg calls).complete with
  | none => rfl
  | some t =>
    obtain ⟨_, _, _, _, hback⟩ := complete_relabel hc
    have := hback s.vecSltMessage s.calls
    rw [show (s.relabel msg calls).relabel s.vecSltMessage s.calls = s from rfl, h] at this
    cases this

theorem step_relabel {s s' : CCommonSocket Slot} {e : NetEvent} (h : s.step e = some s')
    (hne : e ≠ .complete) (msg : List Slot) (calls : List (Call Slot)) :
    s'.calls = s.calls ∧ s'.vecSltMessage = s.vecSltMessage ∧ s'.pending = s.pending ∧
      (s.relabel msg calls).step e = some (s'.relabel msg calls) ∧
      (s.receivePacket.relabel msg calls).step e = some (s'.receivePacket.relabel msg calls) := by
  cases e with
  | arrive chunk =>
    simp only [CCommonSocket.step] at h
    split at h
    · cases h
    · rename_i hopen
      cases h
      refine ⟨rfl, rfl, rfl, if_neg hopen, if_neg hopen⟩
  | hangup =>
    simp only [CCommonSocket.step] at h
    split at h
    · cases h
    · rename_i hopen
      cases h
      exact ⟨rfl, rfl, rfl, if_neg hopen, if_neg hopen⟩
  | complete => exact absurd rfl hne

/-! ## Simulation by a socket that had its slot from the start -/

section Simulation

variable [DecidableEq Slot] {slot : Slot} {st st' : Accepting Slot} {ref ref' : CCommonSocket Slot}

/-- The reader, started if the handler has not done so yet. -/
def Accepting.reader (st : Accepting Slot) : CCommonSocket Slot :=
  if .receivePacket ∈ st.todo then st.socket.receivePacket else st.socket

/-- `ref` reads the same bytes; the slot of `ref` has seen the unheard frames first. -/
structure Simulates (slot : Slot) (st : Accepting Slot) (ref : CCommonSocket Slot) : Prop where
  nodup : st.todo.Nodup
  slots : st.socket.vecSltMessage = if .newConnection ∈ st.todo then [] else [slot]
  unstarted : .receivePacket ∈ st.todo → st.socket.pending = .closed
  reader : ref = st.reader.relabel [slot] ref.calls
  silent : .newConnection ∈ st.todo → buffersTo slot st.socket.calls = []
  heard : buffersTo slot ref.calls = st.unheard ++ buffersTo slot st.socket.calls

theorem handler_simulates (hs : Simulates slot st ref) (h : st.handlerStep slot = some st') :
    Simulates slot st' ref := by
  unfold handlerStep at h
  split at h
  · rename_i todo htodo
    cases h
    have hnd := hs.nodup
    rw [htodo, List.nodup_cons] at hnd
    have hslots := hs.slots
    have hreader := hs.reader
    have hsilent := hs.silent
    simp only [htodo, Accepting.reader, List.mem_cons, true_or, if_true, reduceCtorEq,
      false_or] at hslots hreader hsilent
    refine ⟨hnd.2, hslots, fun h => absurd h hnd.1, ?_, hsilent, hs.heard⟩
    simpa [Accepting.reader, hnd.1] using hreader
  · rename_i todo htodo
    cases h
    have hnd := hs.nodup
    rw [htodo, List.nodup_cons] at hnd
    have hslots := hs.slots
    have hreader := hs.reader
    have hunstarted := hs.unstarted
    simp only [htodo, Accepting.reader, List.mem_cons, true_or, if_true, reduceCtorEq,
      false_or] at hslots hreader hunstarted
    refine ⟨hnd.2, ?_, hunstarted, ?_, fun h => absurd h hnd.1, hs.heard⟩
    · simp [registerQueuePacket, hslots, hnd.1]
    · rw [hreader]
      unfold Accepting.reader
      split <;> rfl
  · cases h

theorem buffersTo_disconnects {tail : List (Call Slot)}
    (h : ∀ c ∈ tail, ∃ d, c = Call.disconnect d) : buffersTo slot tail = [] := by
  unfold buffersTo
  rw [List.filterMap_eq_nil_iff]
  intro c hc
  obtain ⟨d, rfl⟩ := h c hc
  rfl

theorem buffersTo_frameCalls (f : Option Bytes) :
    buffersTo slot (frameCalls f [slot]) = f.toList := by
  cases f <;> simp [frameCalls, buffersTo]

theorem complete_simulates (hs : Simulates slot st ref) (h : st.netStep .complete = some st') :
    ∃ ref', ref.complete = some ref' ∧ Simulates slot st' ref' := by
  unfold netStep at h
  split at h
  · cases h
  · rename_i s hstep
    have hcomplete : st.socket.complete = some s := hstep
    cases h
    have hstarted : .receivePacket ∉ st.todo := by
      intro hmem
      simp [CCommonSocket.complete, outstanding, hs.unstarted hmem] at hcomplete
    have hreader : ref = st.socket.relabel [slot] ref.calls := by
      simpa [Accepting.reader, hstarted] using hs.reader
    obtain ⟨tail, htail, hcalls, hvec, hother⟩ := complete_relabel hcomplete
    refine ⟨_, by rw [hreader]; exact hother [slot] ref.calls, hs.nodup, ?_,
      fun h => absurd h hstarted, ?_, ?_, ?_⟩
    · rw [hvec]
      exact hs.slots
    · simp [Accepting.reader, hstarted, relabel]
    · intro hmem
      have hvec0 : st.socket.vecSltMessage = [] := by simpa [hmem] using hs.slots
      rw [hcalls, hvec0, buffersTo_append, buffersTo_append, hs.silent hmem,
        buffersTo_disconnects htail]
      cases st.socket.completedFrame <;> rfl
    · show buffersTo slot (ref.calls ++ frameCalls st.socket.completedFrame [slot] ++ tail) = _
      simp only [hcalls, buffersTo_append, buffersTo_disconnects htail, List.append_nil, hs.heard,
        buffersTo_frameCalls]
      by_cases hmem : .newConnection ∈ st.todo
      · have hvec0 : st.socket.vecSltMessage = [] := by simpa [hmem] using hs.slots
        have hnone : buffersTo slot (frameCalls st.socket.completedFrame []) = [] := by
          cases st.socket.completedFrame <;> rfl
        simp [hvec0, hs.silent hmem, hnone]
      · have hvec1 : st.socket.vecSltMessage = [slot] := by simpa [hmem] using hs.slots
        simp [hvec1, buffersTo_frameCalls]

theorem net_simulates {e : NetEvent} (hs : Simulates slot st ref) (h : st.netStep e = some st') :
    ∃ ref', ref.step e = some ref' ∧ Simulates slot st' ref' := by
  by_cases hne : e = .complete
  · subst hne
    exact complete_simulates hs h
  · unfold netStep at h
    split at h
    · cases h
    · rename_i s hstep
      cases h
      obtain ⟨hcalls, hvec, hpend, hplain, hstarted⟩ := step_relabel hstep hne [slot] ref.calls
      have hunheard : (if e = .complete ∧ st.socket.vecSltMessage.isEmpty then
          st.unheard ++ st.socket.completedFrame.toList else st.unheard) = st.unheard :=
        if_neg (fun h => hne h.1)
      refine ⟨(if .receivePacket ∈ st.todo then s.receivePacket else s).relabel [slot] ref.calls,
        ?_, hs.nodup, ?_, ?_, rfl, ?_, ?_⟩
      · rw [hs.reader]
        unfold Accepting.reader
        split
        · exact hstarted
        · exact hplain
      · rw [hvec]
        exact hs.slots
      · rw [hpend]
        exact hs.unstarted
      · rw [hcalls]
        exact hs.silent
      · rw [hunheard, hcalls]
        exact hs.heard

/-- The reference runs on the events of the connection. -/
theorem run_simulates : ∀ {es : List AcceptEvent} {st : Accepting Slot} {ref : CCommonSocket Slot},
    Simulates slot st ref → run (Accepting.step slot) st es = some st' →
      ∃ ref', run CCommonSocket.step ref (netEvents es) = some ref' ∧ Simulates slot st' ref'
  | [], st, ref, hs, h => by
    cases h
    exact ⟨ref, rfl, hs⟩
  | .handler :: es, st, ref, hs, h => by
    obtain ⟨mid, hstep, hrun⟩ := run_cons.mp h
    obtain ⟨ref', hrun', hs'⟩ := run_simulates (handler_simulates hs hstep) hrun
    exact ⟨ref', hrun', hs'⟩
  | .net e :: es, st, ref, hs, h => by
    obtain ⟨mid, hstep, hrun⟩ := run_cons.mp h
    obtain ⟨ref₁, hstep₁, hs₁⟩ := net_simulates hs hstep
    obtain ⟨ref', hrun', hs'⟩ := run_simulates hs₁ hrun
    exact ⟨ref', run_cons.mpr ⟨ref₁, hstep₁, hrun'⟩, hs'⟩

theorem socketAccept_simulates (disc : List Slot) :
    Simulates slot (Accepting.socketAccept disc) (started [slot] disc) := by
  refine ⟨by simp [Accepting.socketAccept], by simp [Accepting.socketAccept, connected],
    fun _ => rfl, rfl, fun _ => rfl, rfl⟩

theorem connectTo_simulates (disc : List Slot) :
    Simulates slot (Accepting.connectTo disc) (started [slot] disc) := by
  refine ⟨by simp [Accepting.connectTo], by simp [Accepting.connectTo, connected],
    fun _ => rfl, rfl, fun _ => rfl, rfl⟩

end Simulation

/-! ## Unheard frames -/

section Unheard

variable {slot : Slot} {st st' : Accepting Slot}

theorem step_unheard {e : AcceptEvent} (h : Accepting.step slot st e = some st') :
    st'.unheard = [] ↔ st.unheard = [] ∧ st.SlotReady e := by
  cases e with
  | handler =>
    simp only [Accepting.step, handlerStep] at h
    split at h <;> cases h <;> simp [SlotReady]
  | net e =>
    simp only [Accepting.step, netStep] at h
    split at h
    · cases h
    · cases h
      cases e with
      | arrive chunk => simp [SlotReady]
      | hangup => simp [SlotReady]
      | complete =>
        simp only [SlotReady, true_and, List.isEmpty_iff]
        split
        · rename_i hvec
          cases hf : st.socket.completedFrame <;> simp [hvec]
        · rename_i hvec
          simp [hvec]

/-- No frame is unheard exactly when every step meets the condition. -/
theorem run_unheard : ∀ {es : List AcceptEvent} {st : Accepting Slot},
    run (Accepting.step slot) st es = some st' →
      (st'.unheard = [] ↔ st.unheard = [] ∧ Meets (Accepting.step slot) SlotReady st es)
  | [], st, h => by
    cases h
    simp [Meets]
  | e :: es, st, h => by
    obtain ⟨mid, hstep, hrun⟩ := run_cons.mp h
    rw [run_unheard hrun, step_unheard hstep, and_assoc]
    simp only [Meets, hstep, Option.some.injEq, forall_eq']

end Unheard

/-! ## Coming to rest -/

section Rest

variable [DecidableEq Slot] {slot : Slot} {st : Accepting Slot}

omit [DecidableEq Slot] in
/-- The handler returns. -/
theorem run_handler (slot : Slot) : ∀ {n : Nat} (st : Accepting Slot), st.todo.length = n →
    ∃ t, run (Accepting.step slot) st (List.replicate n .handler) = some t ∧ t.todo = []
  | 0, st, hn => ⟨st, rfl, List.length_eq_zero_iff.mp hn⟩
  | n + 1, st, hn => by
    have hstep : ∃ mid, st.handlerStep slot = some mid ∧ mid.todo.length = n := by
      unfold handlerStep
      match htodo : st.todo, hn with
      | .receivePacket :: todo, hn => exact ⟨_, rfl, by simpa using hn⟩
      | .newConnection :: todo, hn => exact ⟨_, rfl, by simpa using hn⟩
    obtain ⟨mid, hmid, hlen⟩ := hstep
    obtain ⟨t, hrun, ht⟩ := run_handler slot mid hlen
    exact ⟨t, run_cons.mpr ⟨mid, hmid, hrun⟩, ht⟩

omit [DecidableEq Slot] in
/-- Completions of the reader are steps of the whole. -/
theorem run_completions (slot : Slot) : ∀ {n : Nat} {st : Accepting Slot} {s : CCommonSocket Slot},
    run CCommonSocket.step st.socket (List.replicate n .complete) = some s →
      ∃ t, run (Accepting.step slot) st (List.replicate n (.net .complete)) = some t ∧
        t.socket = s ∧ t.todo = st.todo
  | 0, st, s, h => by
    cases h
    exact ⟨st, rfl, rfl, rfl⟩
  | n + 1, st, s, h => by
    obtain ⟨mid, hstep, hrun⟩ := run_cons.mp h
    have hnet : ∃ st₁, st.netStep .complete = some st₁ ∧ st₁.socket = mid ∧
        st₁.todo = st.todo := by
      unfold netStep
      rw [hstep]
      exact ⟨_, rfl, rfl, rfl⟩
    obtain ⟨st₁, hst₁, rfl, htodo⟩ := hnet
    obtain ⟨t, ht, hs, htodo'⟩ := run_completions slot hrun
    exact ⟨t, run_cons.mpr ⟨st₁, hst₁, ht⟩, hs, htodo'.trans htodo⟩

/-- What a socket at rest has handed over, against the frames that have arrived. -/
theorem rest_frames {ref : CCommonSocket Slot} {disc : List Slot} {bodies : List Bytes} {w : Bytes}
    (hs : Simulates slot st ref) (ht : Tracks [slot] disc bodies w ref) (hrest : st.AtRest) :
    st.unheard ++ buffersTo slot st.socket.calls = (completeBodies w.length bodies).map frame := by
  obtain ⟨htodo, hq⟩ := hrest
  have hreader : ref = st.socket.relabel [slot] ref.calls := by
    simpa [Accepting.reader, htodo] using hs.reader
  have hquiet : Quiescent ref := by
    unfold Quiescent
    rw [hreader]
    exact complete_relabel_none hq
  rw [← hs.heard]
  exact (delivered_of_calls (ht.quiescent hquiet)).messages slot (by simp)

/-- From every state the handler and the reader come to rest by themselves. -/
theorem reaches_rest {ref : CCommonSocket Slot} {disc : List Slot} {bodies : List Bytes} {w : Bytes}
    (hs : Simulates slot st ref) (ht : Tracks [slot] disc bodies w ref) :
    ∃ k n t, run (Accepting.step slot) st
        (List.replicate k .handler ++ List.replicate n (.net .complete)) = some t ∧ t.AtRest := by
  obtain ⟨mid, hrun, htodo⟩ := run_handler slot st rfl
  obtain ⟨ref', href, hs'⟩ := run_simulates hs hrun
  have hnone : netEvents (List.replicate st.todo.length .handler) = [] := by
    simp [netEvents, AcceptEvent.net?]
  rw [hnone] at href
  cases href
  have hsized : HeaderSized mid.socket := by
    have hreader : ref = mid.socket.relabel [slot] ref.calls := by
      simpa [Accepting.reader, htodo] using hs'.reader
    have := ht.headerSized
    rw [hreader] at this
    exact this
  obtain ⟨n, s, hrun', hq⟩ := reader_settles mid.socket hsized
  obtain ⟨t, ht, rfl, htodo'⟩ := run_completions slot hrun'
  exact ⟨_, n, t, run_append.mpr ⟨mid, hrun, ht⟩, htodo'.trans htodo, hq⟩

end Rest

/-! ## First frames -/

/-- The handler registers the slot before it starts the reader. -/
def ReadsLast (st : Accepting Slot) : Prop :=
  .newConnection ∈ st.todo → st.todo = [.newConnection, .receivePacket]

theorem handler_readsLast {slot : Slot} {st st' : Accepting Slot} (hnd : st.todo.Nodup)
    (hr : ReadsLast st) (h : st.handlerStep slot = some st') : ReadsLast st' := by
  unfold handlerStep at h
  intro hmem
  split at h
  · rename_i todo heq
    cases h
    have := hr (heq ▸ List.mem_cons_of_mem _ hmem)
    rw [heq] at this
    cases this
  · rename_i todo heq
    cases h
    rw [heq, List.nodup_cons] at hnd
    exact absurd hmem hnd.1
  · cases h

theorem netStep_todo {st st' : Accepting Slot} {e : NetEvent} (h : st.netStep e = some st') :
    st'.todo = st.todo := by
  unfold netStep at h
  split at h <;> cases h
  rfl

section FirstFrames

variable [DecidableEq Slot] {slot : Slot}

/-- As long as the slot is missing, no read is under way. -/
theorem ReadsLast.slotReady {st : Accepting Slot} {ref : CCommonSocket Slot} (hr : ReadsLast st)
    (hs : Simulates slot st ref) (e : NetEvent) : st.SlotReady (.net e) := by
  cases e with
  | arrive chunk => trivial
  | hangup => trivial
  | complete =>
    intro hframe
    rw [hs.slots]
    split
    · rename_i hmem
      have hclosed := hs.unstarted (by rw [hr hmem]; simp)
      simp [completedFrame, hclosed] at hframe
    · simp

/-- `connectTo` reads nothing before its slot is registered. -/
theorem connectTo_unheard {disc : List Slot} {es : List AcceptEvent} {st : Accepting Slot}
    (h : run (Accepting.step slot) (Accepting.connectTo disc) es = some st) : st.unheard = [] := by
  have hinv : (∃ ref, Simulates slot st ref) ∧ ReadsLast st ∧ st.unheard = [] := by
    refine run_invariant (I := fun st => (∃ ref, Simulates slot st ref) ∧ ReadsLast st ∧
      st.unheard = []) ?_ ⟨⟨_, connectTo_simulates disc⟩, fun _ => rfl, rfl⟩ h
    rintro st e st' ⟨⟨ref, hs⟩, hr, hunheard⟩ hstep
    cases e with
    | handler =>
      exact ⟨⟨ref, handler_simulates hs hstep⟩, handler_readsLast hs.nodup hr hstep,
        (step_unheard hstep).mpr ⟨hunheard, trivial⟩⟩
    | net e =>
      obtain ⟨ref', _, hs'⟩ := net_simulates hs hstep
      refine ⟨⟨ref', hs'⟩, ?_, (step_unheard hstep).mpr ⟨hunheard, hr.slotReady hs e⟩⟩
      unfold ReadsLast
      rw [netStep_todo hstep]
      exact hr
  exact hinv.2.2

/-- **First frames.**  `es` is any interleaving of the two actions of the handler with the arrivals,
    completions and the end of the connection; the arrived bytes are the stream of `bodies` cut at
    an arbitrary position.  Handler and reader always come to rest by themselves.  A socket
    accepted by `socket_accept` and at rest has handed exactly the complete frames to its slot, in
    order and once each, exactly when no body read completed before the slot was registered; a
    socket connected by `connectTo` always has. -/
theorem first_frames_delivered_iff (slot : Slot) (disc : List Slot) (bodies : List Bytes)
    (hsmall : ∀ b ∈ bodies, b.length < 2 ^ 31) (es : List AcceptEvent) (rest : Bytes)
    (hcut : arrivals (netEvents es) ++ rest = stream bodies) :
    (∀ st, run (Accepting.step slot) (Accepting.socketAccept disc) es = some st →
      (∃ k n t, run (Accepting.step slot) st
        (List.replicate k .handler ++ List.replicate n (.net .complete)) = some t ∧ t.AtRest) ∧
      (st.AtRest → (buffersTo slot st.socket.calls =
          (completeBodies (arrivals (netEvents es)).length bodies).map frame ↔
        Meets (Accepting.step slot) SlotReady (Accepting.socketAccept disc) es))) ∧
    (∀ st, run (Accepting.step slot) (Accepting.connectTo disc) es = some st →
      (∃ k n t, run (Accepting.step slot) st
        (List.replicate k .handler ++ List.replicate n (.net .complete)) = some t ∧ t.AtRest) ∧
      (st.AtRest → buffersTo slot st.socket.calls =
        (completeBodies (arrivals (netEvents es)).length bodies).map frame)) := by
  constructor
  · intro st hrun
    obtain ⟨ref, href, hs⟩ := run_simulates (socketAccept_simulates disc) hrun
    obtain ⟨_, ht⟩ := run_tracks hsmall (netEvents es) ref href ⟨rest, hcut⟩
    refine ⟨reaches_rest hs ht, fun hrest => ?_⟩
    have hunheard : st.unheard = [] ↔
        Meets (Accepting.step slot) SlotReady (Accepting.socketAccept disc) es := by
      rw [run_unheard hrun]
      exact and_iff_right rfl
    rw [← hunheard, ← rest_frames hs ht hrest]
    exact List.self_eq_append_left
  · intro st hrun
    obtain ⟨ref, href, hs⟩ := run_simulates (connectTo_simulates disc) hrun
    obtain ⟨_, ht⟩ := run_tracks hsmall (netEvents es) ref href ⟨rest, hcut⟩
    refine ⟨reaches_rest hs ht, fun hrest => ?_⟩
    rw [← rest_frames hs ht hrest, connectTo_unheard hrun, List.nil_append]

end FirstFrames

/-- The slot is registered before the first frame is complete. -/
def slotInTime : List AcceptEvent :=
  [.handler, .net (.arrive [0, 0, 0, 1]), .net .complete, .handler, .net (.arrive [7]),
    .net .complete]

theorem first_frames_delivered_in_time :
    ∃ st : Accepting Nat, run (Accepting.step 1) (Accepting.socketAccept [2]) slotInTime =
      some st ∧ st.AtRest ∧
      (buffersTo 1 st.socket.calls = [frame [7]] ↔
        Meets (Accepting.step 1) SlotReady (Accepting.socketAccept [2]) slotInTime) := by
  obtain ⟨st, hrun, hrest⟩ : ∃ st : Accepting Nat, run (Accepting.step 1)
      (Accepting.socketAccept [2]) slotInTime = some st ∧ st.AtRest := ⟨_, rfl, rfl, rfl⟩
  have h := first_frames_delivered_iff 1 [2] [[7]] (by decide) slotInTime [] rfl
  exact ⟨st, hrun, hrest, (h.1 st hrun).2 hrest⟩

/-- The first frame is read between the two actions of `socket_accept`. -/
def slotLate : List AcceptEvent :=
  [.handler, .net (.arrive (frame [7])), .net .complete, .net .complete, .handler]

/-- The slot never sees that frame, though it has arrived completely. -/
theorem first_frame_lost :
    ∃ st : Accepting Nat,
      run (Accepting.step 1) (Accepting.socketAccept [2]) slotLate = some st ∧ st.AtRest ∧
      arrivals (netEvents slotLate) = stream [[7]] ∧
      buffersTo 1 st.socket.calls = [] ∧
      (completeBodies (arrivals (netEvents slotLate)).length [[7]]).map frame = [frame [7]] :=
  ⟨_, rfl, ⟨rfl, rfl⟩, rfl, rfl, rfl⟩

end IMonPlatform
