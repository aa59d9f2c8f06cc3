import Mathlib.Data.Finset.Basic
import IMonPlatform.Lib.Transition
import IMonPlatform.Net.Manager

/-!
# Several managers in one process

`receiveNewConnection`, `queuePacketFromDataBuffer` and `receiveDisconnection` are static functions
that get their manager as `pParam`; each keeps the one of its first call in a static variable and
works on that one ever after.  The sockets of all managers run on the services of one
`CIoServicePool`, and the destructor of a communicator stops the pool.

* `CIoServicePool` — the singleton: round robin, `run` and `stop`.
* `Process` — the managers, their sockets, the three static variables and the pool.
* `Isolated` — a callback does to its own manager what the callback is for and leaves the others
  alone; a destruction stops no service that another manager's socket runs on.
* `OwnPointer` — the condition on a step: the static variable is not set or names the manager the
  callback is made for, and a manager is destroyed when no other one has a socket in service.
* `instances_isolated` — a run whose steps meet the condition is isolated step by step.
-/

set_option autoImplicit false

namespace IMonPlatform

open Framing CNetworkCommunicator CGPBManagerV2 Transition

variable {Packet ReqCode ResCode : Type}

/-! ## The pool -/

/-- A `boost::asio::io_service`; once stopped, its `run` returns at once. -/
structure IoService where
  stopped : Bool
  /-- Threads started on its `run`. -/
  threads : Nat

structure CIoServicePool where
  vecSpIoService : List IoService
  dxNextSpIoService : Nat

namespace CIoServicePool

def getInstance (pService : Option CIoServicePool) (poolSize : Nat) : CIoServicePool :=
  pService.getD ⟨List.replicate (if poolSize = 0 then 4 else poolSize) ⟨false, 0⟩, 0⟩

def run (pool : CIoServicePool) : CIoServicePool :=
  { pool with vecSpIoService := pool.vecSpIoService.map (fun v => { v with
      threads := v.threads + 1 }) }

def stop (pool : CIoServicePool) : CIoServicePool :=
  { pool with vecSpIoService := pool.vecSpIoService.map (fun v => { v with stopped := true }) }

def getNextIoService (pool : CIoServicePool) : Nat × CIoServicePool :=
  (pool.dxNextSpIoService, { pool with
    dxNextSpIoService := if pool.dxNextSpIoService + 1 = pool.vecSpIoService.length then 0
      else pool.dxNextSpIoService + 1 })

/-- Handlers of this service are run. -/
def serves (pool : CIoServicePool) (k : Nat) : Bool :=
  match pool.vecSpIoService[k]? with
  | some v => !v.stopped && decide (0 < v.threads)
  | none => false

end CIoServicePool

/-! ## Callbacks of one manager -/

/-- A `CGPBManagerV2` with the sockets it has been told of. -/
structure Instance (Packet : Type) where
  manager : CGPBManagerV2 Packet
  setConnectionedSockets : Finset Sock

namespace Instance

/-- A manager with a new communicator. -/
def create (isUse : Bool) : Instance Packet :=
  ⟨CGPBManagerV2.create .empty (fun _ => false) isUse, ∅⟩

/-- The section of `receiveNewConnection` on the tables. -/
def receiveNewConnection (inst : Instance Packet) (socketIndex : SockIndex)
    (newConnection : Sock) : Instance Packet where
  manager := inst.manager.setSended socketIndex
    (some ((inst.manager.mapSocketToSendedPacket socketIndex).getD (fun _ => none)))
  setConnectionedSockets := insert newConnection inst.setConnectionedSockets

/-- The communicator, when `nextSock` socket objects have been created in the process. -/
def comm (inst : Instance Packet) (nextSock : Nat) : CNetworkCommunicator :=
  { inst.manager.networkManager with nextSock := nextSock }

def setComm (inst : Instance Packet) (c : CNetworkCommunicator) : Instance Packet :=
  { inst with manager := { inst.manager with networkManager := c } }

/-- `receiveDisconnection`, with the number of socket objects afterwards. -/
def receiveDisconnection (inst : Instance Packet) (nextSock : Nat) (socketIndex : SockIndex) :
    Instance Packet × Nat :=
  let asked := (inst.comm nextSock).getSocket socketIndex
  ({ manager := (inst.setComm asked.2).manager.setSended socketIndex none
     setConnectionedSockets := inst.setConnectionedSockets.erase asked.1 }, asked.2.nextSock)

/-- A whole call of `queuePacketFromDataBuffer`, as call `n`. -/
def queuePacketFromDataBuffer [DecidableEq ResCode] (cfg : Config Packet ReqCode ResCode)
    (inst : Instance Packet) (n : Nat) (receivedSocket : Sock) (dataBuffer : Bytes) :
    Option (Instance Packet) :=
  match recvStart cfg inst.manager n receivedSocket dataBuffer with
  | none => none
  | some m =>
    match m.handlers n with
    | .store _ _ _ =>
      ((recvStore cfg m n).bind (recvLocked cfg · n)).map (fun m' => { inst with manager := m' })
    | _ => some { inst with manager := m }

end Instance

/-! ## State and steps -/

/-- A process; managers are named by their addresses. -/
structure Process (Packet : Type) where
  pService : Option CIoServicePool
  instances : Nat → Instance Packet
  live : Nat → Bool
  /-- `pManager` of `receiveNewConnection`. -/
  newManager : Option Nat
  /-- `pManager` of `queuePacketFromDataBuffer`. -/
  queueManager : Option Nat
  /-- `pManager` of `receiveDisconnection`. -/
  disconnectManager : Option Nat
  nextSock : Nat
  /-- The manager whose communicator has made the socket. -/
  owner : Sock → Option Nat
  /-- The service a socket runs on. -/
  service : Sock → Nat
  /-- `_vecSltMessage` of a socket: the `pParam`s given to `registerQueuePacket`. -/
  slots : Sock → List Nat

inductive ProcessEvent where
  | create (A : Nat) (isUse : Bool) (processors : Nat)
  /-- `createSocket` of the communicator of `A`. -/
  | createSocket (A : Nat)
  /-- The communicator of `A` calls `receiveNewConnection`. -/
  | newConnection (A : Nat) (i : SockIndex) (s : Sock)
  /-- A frame is read on socket `s`, and its slot `k` is called, as call `n`. -/
  | queuePacket (s : Sock) (k n : Nat) (dataBuffer : Bytes)
  /-- The communicator of `A` calls `receiveDisconnection`. -/
  | disconnection (A : Nat) (i : SockIndex)
  | destroy (A : Nat)

namespace Process

def create : Process Packet where
  pService := none
  instances := fun _ => .create false
  live := fun _ => false
  newManager := none
  queueManager := none
  disconnectManager := none
  nextSock := 0
  owner := fun _ => none
  service := fun _ => 0
  slots := fun _ => []

def setInstance (p : Process Packet) (A : Nat) (inst : Instance Packet) : Process Packet :=
  { p with instances := Function.update p.instances A inst }

/-- The service of the socket runs its handlers. -/
def serves (p : Process Packet) (s : Sock) : Bool :=
  match p.pService with
  | none => false
  | some pool => pool.serves (p.service s)

/-- The constructor: `createNetworkCommunicator` takes a service for the acceptor and then starts
    threads on all of them. -/
def createManager (p : Process Packet) (A : Nat) (isUse : Bool) (processors : Nat) :
    Option (Process Packet) :=
  if p.live A then none
  else
    let pool := (CIoServicePool.getInstance p.pService 0).getNextIoService.2
    some { p.setInstance A (.create isUse) with
      pService := some (CIoServicePool.getInstance (some pool) processors).run
      live := Function.update p.live A true }

def createSocket (p : Process Packet) (A : Nat) : Option (Process Packet) :=
  if p.live A then
    match ((p.instances A).comm p.nextSock).createSocket with
    | none => none
    | some (_, s, c) =>
      let next := (CIoServicePool.getInstance p.pService 0).getNextIoService
      some { p.setInstance A ((p.instances A).setComm c) with
        pService := some next.2
        nextSock := c.nextSock
        owner := Function.update p.owner s (some A)
        service := Function.update p.service s next.1 }
  else none

def receiveNewConnection (p : Process Packet) (pParam : Nat) (i : SockIndex) (s : Sock) :
    Option (Process Packet) :=
  if p.live pParam ∧ p.owner s = some pParam then
    let pManager := p.newManager.getD pParam
    some { p.setInstance pManager ((p.instances pManager).receiveNewConnection i s) with
      newManager := some pManager
      slots := Function.update p.slots s (p.slots s ++ [pManager]) }
  else none

def queuePacket [DecidableEq ResCode] (cfg : Config Packet ReqCode ResCode) (p : Process Packet)
    (s : Sock) (k n : Nat) (dataBuffer : Bytes) : Option (Process Packet) :=
  match (p.slots s)[k]? with
  | none => none
  | some pParam =>
    if p.serves s then
      let pManager := p.queueManager.getD pParam
      match (p.instances pManager).queuePacketFromDataBuffer cfg n s dataBuffer with
      | none => none
      | some inst => some { p.setInstance pManager inst with queueManager := some pManager }
    else none

def receiveDisconnection (p : Process Packet) (pParam : Nat) (i : SockIndex) :
    Option (Process Packet) :=
  if p.live pParam then
    let pManager := p.disconnectManager.getD pParam
    let result := (p.instances pManager).receiveDisconnection p.nextSock i
    some { p.setInstance pManager result.1 with
      disconnectManager := some pManager
      nextSock := result.2 }
  else none

/-- `~CGPBManagerV2` and, with the last reference, `~CNetworkCommunicator`. -/
def destroy (p : Process Packet) (A : Nat) : Option (Process Packet) :=
  if p.live A then
    some { p with
      live := Function.update p.live A false
      pService := some (CIoServicePool.getInstance p.pService 0).stop }
  else none

def step [DecidableEq ResCode] (cfg : Config Packet ReqCode ResCode) (p : Process Packet) :
    ProcessEvent → Option (Process Packet)
  | .create A isUse processors => p.createManager A isUse processors
  | .createSocket A => p.createSocket A
  | .newConnection A i s => p.receiveNewConnection A i s
  | .queuePacket s k n buffer => p.queuePacket cfg s k n buffer
  | .disconnection A i => p.receiveDisconnection A i
  | .destroy A => p.destroy A

/-! ## Properties -/

/-- What the step should do: to the manager the callback is made for, and to no other. -/
def Isolated [DecidableEq ResCode] (cfg : Config Packet ReqCode ResCode) (p p' : Process Packet) :
    ProcessEvent → Prop
  | .newConnection A i s =>
    p'.instances = Function.update p.instances A ((p.instances A).receiveNewConnection i s)
  | .queuePacket s _ n buffer => ∃ B inst, p.owner s = some B ∧
      (p.instances B).queuePacketFromDataBuffer cfg n s buffer = some inst ∧
      p'.instances = Function.update p.instances B inst
  | .disconnection A i => p'.instances = Function.update p.instances A
      ((p.instances A).receiveDisconnection p.nextSock i).1
  | .destroy A => ∀ B s, B ≠ A → p.live B = true → p.owner s = some B → p'.serves s = p.serves s
  | _ => True

def StepIsolated [DecidableEq ResCode] (cfg : Config Packet ReqCode ResCode) (p : Process Packet)
    (e : ProcessEvent) : Prop :=
  ∀ p', step cfg p e = some p' → Isolated cfg p p' e

/-- The condition on a step. -/
def OwnPointer (p : Process Packet) : ProcessEvent → Prop
  | .newConnection A _ _ => ∀ pManager, p.newManager = some pManager → pManager = A
  | .queuePacket s _ _ _ => ∀ pManager, p.queueManager = some pManager → p.owner s = some pManager
  | .disconnection A _ => ∀ pManager, p.disconnectManager = some pManager → pManager = A
  | .destroy A => ∀ B s, B ≠ A → p.live B = true → p.owner s = some B → p.serves s = false
  | _ => True

/-- The message slots of a socket are those of its own manager. -/
def OwnSlots (p : Process Packet) : Prop :=
  ∀ s, ∀ pParam ∈ p.slots s, p.owner s = some pParam

def OwnedBelow (p : Process Packet) : Prop :=
  ∀ s A, p.owner s = some A → s < p.nextSock

end Process

open Process

/-! ## Steps -/

section Steps

variable [DecidableEq ResCode] {cfg : Config Packet ReqCode ResCode} {p p' : Process Packet}

/-- A static variable that is not set or names `pParam` gives `pParam`. -/
theorem getD_own {o : Option Nat} {A : Nat} (h : ∀ pManager, o = some pManager → pManager = A) :
    o.getD A = A := by
  cases o with
  | none => rfl
  | some D => exact h D rfl

theorem createManager_frame {A processors : Nat} {isUse : Bool}
    (h : p.createManager A isUse processors = some p') :
    p'.slots = p.slots ∧ p'.owner = p.owner ∧ p'.nextSock = p.nextSock := by
  unfold createManager at h
  split at h <;> cases h
  exact ⟨rfl, rfl, rfl⟩

/-- A new socket has a number that no socket had before. -/
theorem process_createSocket_cases {A : Nat} (h : p.createSocket A = some p') :
    p'.slots = p.slots ∧ p'.owner = Function.update p.owner p.nextSock (some A) ∧
      p'.nextSock = p.nextSock + 1 := by
  unfold Process.createSocket at h
  split at h
  · split at h
    · cases h
    · rename_i i s c hreg
      obtain ⟨hs, _, _, _, hnext⟩ := createSocket_spec hreg
      cases h
      rw [hs]
      exact ⟨rfl, rfl, hnext⟩
  · cases h

/-- `receiveNewConnection` works on the manager of its first call. -/
theorem receiveNewConnection_cases {pParam : Nat} {i : SockIndex} {s : Sock}
    (h : p.receiveNewConnection pParam i s = some p') :
    p.owner s = some pParam ∧ p'.owner = p.owner ∧ p'.nextSock = p.nextSock ∧
      p'.slots = Function.update p.slots s (p.slots s ++ [p.newManager.getD pParam]) ∧
      p'.instances = Function.update p.instances (p.newManager.getD pParam)
        ((p.instances (p.newManager.getD pParam)).receiveNewConnection i s) := by
  unfold Process.receiveNewConnection at h
  split at h
  · rename_i hlive
    cases h
    exact ⟨hlive.2, rfl, rfl, rfl, rfl⟩
  · cases h

theorem queuePacket_cases {s : Sock} {k n : Nat} {buffer : Bytes}
    (h : p.queuePacket cfg s k n buffer = some p') :
    ∃ pParam inst, pParam ∈ p.slots s ∧ p'.owner = p.owner ∧ p'.nextSock = p.nextSock ∧
      p'.slots = p.slots ∧
      (p.instances (p.queueManager.getD pParam)).queuePacketFromDataBuffer cfg n s buffer =
        some inst ∧
      p'.instances = Function.update p.instances (p.queueManager.getD pParam) inst := by
  unfold queuePacket at h
  split at h
  · cases h
  · rename_i pParam hslot
    split at h
    · simp only at h
      split at h
      · cases h
      · rename_i inst hinst
        cases h
        exact ⟨pParam, inst, List.mem_of_getElem? hslot, rfl, rfl, rfl, hinst, rfl⟩
    · cases h

theorem receiveDisconnection_cases {pParam : Nat} {i : SockIndex}
    (h : p.receiveDisconnection pParam i = some p') :
    p'.owner = p.owner ∧ p'.slots = p.slots ∧ p.nextSock ≤ p'.nextSock ∧
      p'.instances = Function.update p.instances (p.disconnectManager.getD pParam)
        ((p.instances (p.disconnectManager.getD pParam)).receiveDisconnection p.nextSock i).1 := by
  unfold Process.receiveDisconnection at h
  split at h <;> cases h
  exact ⟨rfl, rfl,
    (getSocket_frame ((p.instances (p.disconnectManager.getD pParam)).comm p.nextSock) i).2, rfl⟩

theorem destroy_cases {A : Nat} (h : p.destroy A = some p') :
    p'.owner = p.owner ∧ p'.slots = p.slots ∧ p'.nextSock = p.nextSock ∧
      ∀ s, p'.serves s = false := by
  unfold destroy at h
  split at h <;> cases h
  refine ⟨rfl, rfl, rfl, fun s => ?_⟩
  simp only [Process.serves, CIoServicePool.serves, CIoServicePool.stop, List.getElem?_map]
  split
  · rename_i v hv
    obtain ⟨w, _, rfl⟩ := Option.map_eq_some_iff.mp hv
    rfl
  · rfl

/-- A step that leaves the slots and the owners. -/
theorem ownSlots_congr (hs : p.OwnSlots) (hb : p.OwnedBelow) (hslots : p'.slots = p.slots)
    (howner : p'.owner = p.owner) (hnext : p.nextSock ≤ p'.nextSock) :
    p'.OwnSlots ∧ p'.OwnedBelow := by
  unfold OwnSlots OwnedBelow
  rw [hslots, howner]
  exact ⟨hs, fun s A hA => Nat.lt_of_lt_of_le (hb s A hA) hnext⟩

/-- A new socket has no slots. -/
theorem ownSlots_createSocket {A : Nat} (hs : p.OwnSlots) (hb : p.OwnedBelow)
    (h : p.createSocket A = some p') : p'.OwnSlots ∧ p'.OwnedBelow := by
  obtain ⟨hslots, howner, hnext⟩ := process_createSocket_cases h
  constructor
  · intro s pParam hmem
    rw [hslots] at hmem
    have hold := hs s pParam hmem
    have hne : s ≠ p.nextSock := Nat.ne_of_lt (hb s pParam hold)
    rw [howner, Function.update_of_ne hne]
    exact hold
  · intro s B hB
    rw [howner] at hB
    rw [hnext]
    by_cases hnew : s = p.nextSock
    · rw [hnew]
      exact Nat.lt_succ_self _
    · rw [Function.update_of_ne hnew] at hB
      exact Nat.lt_succ_of_lt (hb s B hB)

/-- `receiveNewConnection` with its own pointer adds a slot of the socket's owner. -/
theorem ownSlots_newConnection {A : Nat} {i : SockIndex} {s : Sock} (hs : p.OwnSlots)
    (hb : p.OwnedBelow) (hc : p.OwnPointer (.newConnection A i s))
    (h : p.receiveNewConnection A i s = some p') : p'.OwnSlots ∧ p'.OwnedBelow := by
  obtain ⟨hown, howner, hnext, hslots, _⟩ := receiveNewConnection_cases h
  refine ⟨fun t pParam hmem => ?_, fun t B hB => ?_⟩
  · rw [hslots] at hmem
    rw [howner]
    by_cases ht : t = s
    · subst ht
      rw [Function.update_self] at hmem
      rcases List.mem_append.mp hmem with hmem | hmem
      · exact hs t pParam hmem
      · rw [List.mem_singleton.mp hmem, getD_own hc]
        exact hown
    · rw [Function.update_of_ne ht] at hmem
      exact hs t pParam hmem
  · rw [howner] at hB
    rw [hnext]
    exact hb t B hB

/-- Steps with their own pointers give each socket the slots of its own manager. -/
theorem ownSlots_step {e : ProcessEvent} (hs : p.OwnSlots) (hb : p.OwnedBelow)
    (hc : p.OwnPointer e) (h : Process.step cfg p e = some p') : p'.OwnSlots ∧ p'.OwnedBelow := by
  cases e with
  | create A isUse processors =>
    obtain ⟨hslots, howner, hnext⟩ := createManager_frame h
    exact ownSlots_congr hs hb hslots howner hnext.ge
  | createSocket A => exact ownSlots_createSocket hs hb h
  | newConnection A i s => exact ownSlots_newConnection hs hb hc h
  | queuePacket s k n buffer =>
    obtain ⟨pParam, inst, _, howner, hnext, hslots, _, _⟩ := queuePacket_cases h
    exact ownSlots_congr hs hb hslots howner hnext.ge
  | disconnection A i =>
    obtain ⟨howner, hslots, hnext, _⟩ := receiveDisconnection_cases h
    exact ownSlots_congr hs hb hslots howner hnext
  | destroy A =>
    obtain ⟨howner, hslots, hnext, _⟩ := destroy_cases h
    exact ownSlots_congr hs hb hslots howner hnext.ge

/-- A step with its own pointers is isolated. -/
theorem isolated_step {e : ProcessEvent} (hs : p.OwnSlots) (hc : p.OwnPointer e) :
    StepIsolated cfg p e := by
  intro p' h
  cases e with
  | create A isUse processors => trivial
  | createSocket A => trivial
  | newConnection A i s =>
    obtain ⟨_, _, _, _, hinst⟩ := receiveNewConnection_cases h
    rw [getD_own hc] at hinst
    exact hinst
  | queuePacket s k n buffer =>
    obtain ⟨pParam, inst, hmem, _, _, _, hcall, hinst⟩ := queuePacket_cases h
    have hown := hs s pParam hmem
    have hsame : p.queueManager.getD pParam = pParam := by
      refine getD_own (fun pManager hpm => ?_)
      have := hc pManager hpm
      rw [hown] at this
      exact (Option.some.inj this).symm
    rw [hsame] at hcall hinst
    exact ⟨pParam, inst, hown, hcall, hinst⟩
  | disconnection A i =>
    obtain ⟨_, _, _, hinst⟩ := receiveDisconnection_cases h
    rw [getD_own hc] at hinst
    exact hinst
  | destroy A =>
    obtain ⟨_, _, _, hstop⟩ := destroy_cases h
    intro B s hB hlive howner
    rw [hstop s, hc B s hB hlive howner]

end Steps

/-- **When managers are isolated.**  In every run whose steps meet the condition, each callback
    changes its own manager alone and as it should, each packet ends in the queues of the manager
    whose communicator received it, and no destruction stops a service that another manager's
    socket runs on. -/
theorem instances_isolated [DecidableEq ResCode] (cfg : Config Packet ReqCode ResCode)
    (es : List ProcessEvent) (hc : Meets (Process.step cfg) OwnPointer Process.create es) :
    Meets (Process.step cfg) (StepIsolated cfg) Process.create es := by
  refine meets_imp (I := fun p => p.OwnSlots ∧ p.OwnedBelow) ?_ ?_ es _ ?_ hc
  · exact fun p e p' hi hc h => ownSlots_step hi.1 hi.2 hc h
  · exact fun p e hi hc => isolated_step hi.1 hc
  · refine ⟨fun s pParam hmem => ?_, fun s A hA => ?_⟩
    · cases hmem
    · cases hA

/-- Two managers: the connections and packets are those of manager 0, the disconnections those of
    the pending accept sockets of manager 1. -/
def SamplePacket.shared : List ProcessEvent :=
  [.create 0 false 8, .create 1 false 8, .createSocket 0, .newConnection 0 1 0, .createSocket 0,
    .newConnection 0 2 1, .queuePacket 0 0 0 [0, 0, 0, 3, 1, 0, 7],
    .queuePacket 1 0 1 [0, 0, 0, 3, 1, 0, 7], .createSocket 1, .createSocket 1,
    .disconnection 1 1, .disconnection 1 2]

/-- Manager 0 has callbacks of each kind and is destroyed beside a manager 1 without sockets. -/
def SamplePacket.destroyed : List ProcessEvent :=
  [.create 0 false 8, .create 1 false 8, .createSocket 0, .newConnection 0 1 0, .createSocket 0,
    .newConnection 0 2 1, .queuePacket 0 0 0 [0, 0, 0, 3, 1, 0, 7], .disconnection 0 1,
    .disconnection 0 2, .destroy 0]

theorem two_managers_isolated :
    ((run (Process.step SamplePacket.config) Process.create SamplePacket.shared).isSome ∧
      Meets (Process.step SamplePacket.config) (StepIsolated SamplePacket.config) Process.create
        SamplePacket.shared) ∧
    (run (Process.step SamplePacket.config) Process.create SamplePacket.destroyed).isSome ∧
      Meets (Process.step SamplePacket.config) (StepIsolated SamplePacket.config) Process.create
        SamplePacket.destroyed := by
  refine ⟨⟨rfl, instances_isolated SamplePacket.config SamplePacket.shared ?_⟩,
    rfl, instances_isolated SamplePacket.config SamplePacket.destroyed ?_⟩
  · refine meets_cons rfl trivial (meets_cons rfl trivial (meets_cons rfl trivial ?_))
    -- the first callback of a kind sets the pointer, the second one finds its own
    refine meets_cons rfl nofun (meets_cons rfl trivial ?_)
    refine meets_cons rfl (fun _ hset => Option.some.inj hset.symm) ?_
    refine meets_cons rfl nofun (meets_cons rfl (fun _ hset => hset) ?_)
    refine meets_cons rfl trivial (meets_cons rfl trivial (meets_cons rfl nofun ?_))
    exact meets_cons rfl (fun _ hset => Option.some.inj hset.symm) trivial
  · refine meets_cons rfl trivial (meets_cons rfl trivial (meets_cons rfl trivial ?_))
    refine meets_cons rfl nofun (meets_cons rfl trivial ?_)
    refine meets_cons rfl (fun _ hset => Option.some.inj hset.symm) (meets_cons rfl nofun ?_)
    refine meets_cons rfl nofun (meets_cons rfl (fun _ hset => Option.some.inj hset.symm) ?_)
    refine meets_cons rfl (fun B s hB _ howner => ?_) trivial
    -- every socket is one of manager 0
    have hnone : Function.update (Function.update (fun _ : Sock => (none : Option Nat)) 0 (some 0))
        1 (some 0) s = some B := howner
    by_cases h1 : s = 1
    · rw [h1, Function.update_self] at hnone
      exact absurd (Option.some.inj hnone).symm hB
    · rw [Function.update_of_ne h1] at hnone
      by_cases h0 : s = 0
      · rw [h0, Function.update_self] at hnone
        exact absurd (Option.some.inj hnone).symm hB
      · rw [Function.update_of_ne h0] at hnone
        cases hnone

/-- Manager 0 has had callbacks of each kind when manager 1 gets its first connection. -/
def SamplePacket.twoManagers : List ProcessEvent :=
  [.create 0 false 8, .create 1 false 8, .createSocket 0, .newConnection 0 1 0, .createSocket 1,
    .newConnection 1 1 1, .queuePacket 1 0 0 [0, 0, 0, 3, 1, 0, 7]]

/-- The connection and the packet of manager 1 end in the tables and queues of manager 0; and when
    manager 0 is destroyed, the service of manager 1's socket stops. -/
theorem instances_interfere :
    ∃ p p',
      run (Process.step SamplePacket.config) Process.create SamplePacket.twoManagers = some p ∧
      p.owner 1 = some 1 ∧ (p.instances 0).setConnectionedSockets = {1, 0} ∧
      (p.instances 1).setConnectionedSockets = ∅ ∧
      (p.instances 0).manager.incomingQueue = [(1, ⟨1, 0, 7⟩)] ∧
      (p.instances 1).manager.incomingQueue = [] ∧
      Process.step SamplePacket.config p (.destroy 0) = some p' ∧ p'.live 1 = true ∧
      p.serves 1 = true ∧ p'.serves 1 = false :=
  ⟨_, _, rfl, rfl, rfl, rfl, rfl, rfl, rfl, rfl, rfl, rfl⟩

end IMonPlatform
