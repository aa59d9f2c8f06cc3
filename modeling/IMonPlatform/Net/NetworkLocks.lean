import IMonPlatform.Lib.LockOrder

/-!
# The critical sections of the network classes

Every operation of `CGPBManagerV2` and `CNetworkCommunicator` as the sequence in which it enters
and leaves `_lckSockets`, `_lckQueue`, `_lckSendQueue` and `_csMapIndexToSocket`, callbacks
included.  Windows critical sections are recursive.  The sequences are composed along the call
graph of the source: a callback contributes its actions at the place where it is invoked.

Two orders occur.  The broadcast `sendPacket` and `receiveDisconnection` hold `_lckSockets` when
they enter `_csMapIndexToSocket`.  `disconnectAll` holds `_csMapIndexToSocket` while it calls
`receiveDisconnection`, which enters `_lckSockets`; `disconnect` leaves it first.

* `acts_ascending`, `acts_ascending_map`, `acts_flat` — the disciplines of the operations.
* `deadlock_reachable` — `disconnectAll` over a registered socket in one thread and an operation
  of the other order in another thread can deadlock, whatever else the threads run.
* `network_deadlock_free_iff` — a pool of threads is free of deadlock exactly when no two
  different threads run such a pair.
-/

set_option autoImplicit false

namespace IMonPlatform

open LockOrder

inductive NetLock where
  | lckSockets
  | lckQueue
  | lckSendQueue
  | csMapIndexToSocket
  deriving DecidableEq, Repr

namespace NetLocks

open NetLock

/-- `CScopedCriticalSection` around `body`, or a matching Enter / Leave pair. -/
def critical (l : NetLock) (body : List (Act NetLock)) : List (Act NetLock) :=
  .enter l :: body ++ [.leave l]

/-- `n` passes through a loop. -/
def loop (n : Nat) (body : List (Act NetLock)) : List (Act NetLock) :=
  (List.replicate n ()).flatMap (fun _ => body)

/-- One look at `_mapIndexToSocket`: `getSocketIndex`, `getSocket`, `registerSocket`,
    `deregisterSocket`, and the searches inside `disconnect` and `socket_accept`. -/
def lookup : List (Act NetLock) := critical csMapIndexToSocket []

def receiveNewConnection : List (Act NetLock) :=
  critical lckSockets [] ++ critical lckSendQueue []

def receiveDisconnection : List (Act NetLock) :=
  critical lckSockets lookup ++ critical lckSendQueue []

def disconnect (found : Bool) : List (Act NetLock) :=
  lookup ++ if found then receiveDisconnection else []

/-- What a dispatch loop or `queuePacketFromDataBuffer` does with one packet: no table is needed
    (slot found, feature off, packet dropped, parse error), the socket is not registered, or its
    entry is used. -/
inductive Path where
  | direct
  | unregistered
  | registered
  deriving DecidableEq, Repr

def withTable (l : NetLock) : Path → List (Act NetLock)
  | .direct => []
  | .unregistered => lookup
  | .registered => lookup ++ critical l []

/-- One call of an operation, with what it finds. -/
inductive Op where
  | sendPacketAll (sockets : Nat)
  | sendPacketIndex (positive : Bool)
  | receivePacket (valid : Bool)
  | disconnect (found : Bool)
  | disconnectAll (sockets : Nat)
  | dispatchReceiveMessage (path : Path)
  | dispatchSendMessage (path : Path)
  | queuePacketFromDataBuffer (path : Path)
  | receiveNewConnection
  | receiveDisconnectNotify (found : Bool)
  | bindAndAccept
  | connectTo (connected : Bool)
  | socketAccept (err known : Bool)
  deriving DecidableEq, Repr

def Op.acts : Op → List (Act NetLock)
  | .sendPacketAll n => critical lckSockets (loop n lookup)
  | .sendPacketIndex positive => if positive then lookup else []
  | .receivePacket valid => if valid then critical lckQueue [] else []
  | .disconnect found => NetLocks.disconnect found
  | .disconnectAll n => critical csMapIndexToSocket (loop n receiveDisconnection)
  | .dispatchReceiveMessage path => withTable lckQueue path
  | .dispatchSendMessage path => withTable lckSendQueue path
  | .queuePacketFromDataBuffer path => withTable lckSendQueue path
  | .receiveNewConnection => NetLocks.receiveNewConnection
  | .receiveDisconnectNotify found => lookup ++ NetLocks.disconnect found
  | .bindAndAccept => lookup
  | .connectTo connected =>
    lookup ++ if connected then NetLocks.receiveNewConnection else lookup
  | .socketAccept err known =>
    (if err then [] else lookup ++ (if known then [] else lookup) ++ NetLocks.receiveNewConnection)
      ++ lookup

/-- The operation enters `_csMapIndexToSocket` while it holds `_lckSockets`. -/
def Op.mapInSockets : Op → Bool
  | .sendPacketAll n => decide (0 < n)
  | .disconnect found => found
  | .receiveDisconnectNotify found => found
  | _ => false

/-- The operation enters `_lckSockets` while it holds `_csMapIndexToSocket`. -/
def Op.socketsInMap : Op → Bool
  | .disconnectAll n => decide (0 < n)
  | _ => false

/-- Threads that run the given operations one after the other. -/
def pool {ι : Type} (progs : ι → List Op) : ι → Thread NetLock :=
  fun t => ⟨(progs t).flatMap Op.acts, []⟩

/-! ## Balance -/

theorem neutral_critical {l : NetLock} {body : List (Act NetLock)} (h : Neutral body) :
    Neutral (critical l body) := h.bracket l

theorem neutral_loop {n : Nat} {body : List (Act NetLock)} (h : Neutral body) :
    Neutral (loop n body) := Neutral.flatMap (fun _ => h) _

theorem neutral_lookup : Neutral lookup := neutral_critical neutral_nil

theorem neutral_receiveNewConnection : Neutral receiveNewConnection :=
  (neutral_critical neutral_nil).append (neutral_critical neutral_nil)

theorem neutral_receiveDisconnection : Neutral receiveDisconnection :=
  (neutral_critical neutral_lookup).append (neutral_critical neutral_nil)

theorem neutral_ite {b : Bool} {as bs : List (Act NetLock)} (ha : Neutral as) (hb : Neutral bs) :
    Neutral (if b then as else bs) := by
  cases b
  · exact hb
  · exact ha

theorem neutral_disconnect (found : Bool) : Neutral (disconnect found) :=
  neutral_lookup.append (neutral_ite neutral_receiveDisconnection neutral_nil)

theorem neutral_withTable (l : NetLock) (path : Path) : Neutral (withTable l path) := by
  cases path with
  | direct => exact neutral_nil
  | unregistered => exact neutral_lookup
  | registered => exact neutral_lookup.append (neutral_critical neutral_nil)

/-- Every operation leaves the locks as it found them. -/
theorem neutral_acts (op : Op) : Neutral op.acts := by
  cases op with
  | sendPacketAll n => exact neutral_critical (neutral_loop neutral_lookup)
  | sendPacketIndex positive => exact neutral_ite neutral_lookup neutral_nil
  | receivePacket valid => exact neutral_ite (neutral_critical neutral_nil) neutral_nil
  | disconnect found => exact neutral_disconnect found
  | disconnectAll n => exact neutral_critical (neutral_loop neutral_receiveDisconnection)
  | dispatchReceiveMessage path => exact neutral_withTable _ path
  | dispatchSendMessage path => exact neutral_withTable _ path
  | queuePacketFromDataBuffer path => exact neutral_withTable _ path
  | receiveNewConnection => exact neutral_receiveNewConnection
  | receiveDisconnectNotify found => exact neutral_lookup.append (neutral_disconnect found)
  | bindAndAccept => exact neutral_lookup
  | connectTo connected =>
    exact neutral_lookup.append (neutral_ite neutral_receiveNewConnection neutral_lookup)
  | socketAccept err known =>
    exact (neutral_ite neutral_nil ((neutral_lookup.append (neutral_ite neutral_nil
      neutral_lookup)).append neutral_receiveNewConnection)).append neutral_lookup

/-! ## Disciplines -/

section Discipline

variable {G : List NetLock → NetLock → Prop} {held : List NetLock}

theorem guarded_critical {l : NetLock} {body : List (Act NetLock)} :
    Guarded G held (critical l body) ↔ G held l ∧ Guarded G (l :: held) body := by
  rw [critical, List.cons_append, Guarded, guarded_append]
  constructor
  · rintro ⟨h1, h2, -⟩
    exact ⟨h1 l rfl, h2⟩
  · rintro ⟨h1, h2⟩
    refine ⟨fun k hk => ?_, h2, fun k hk => (by cases hk), trivial⟩
    cases hk
    exact h1

theorem guarded_loop {n : Nat} {body : List (Act NetLock)} (hb : Neutral body)
    (h : 0 < n → Guarded G held body) : Guarded G held (loop n body) := by
  refine Guarded.flatMap (fun _ => hb) (fun b hmem => h ?_)
  have := List.length_pos_of_mem hmem
  rwa [List.length_replicate] at this

theorem guarded_seq {as bs : List (Act NetLock)} (hn : Neutral as) (ha : Guarded G held as)
    (hb : Guarded G held bs) : Guarded G held (as ++ bs) := by
  rw [guarded_append, hn held]
  exact ⟨ha, hb⟩

theorem guarded_ite {b : Bool} {as bs : List (Act NetLock)} (ha : b = true → Guarded G held as)
    (hb : b = false → Guarded G held bs) : Guarded G held (if b then as else bs) := by
  cases b with
  | false => exact hb rfl
  | true => exact ha rfl

theorem guarded_single {l : NetLock} (h : G held l) : Guarded G held (critical l []) :=
  guarded_critical.mpr ⟨h, trivial⟩

theorem guarded_receiveDisconnection (hs : G held lckSockets)
    (hm : G (lckSockets :: held) csMapIndexToSocket) (hq : G held lckSendQueue) :
    Guarded G held receiveDisconnection :=
  guarded_seq (neutral_critical neutral_lookup)
    (guarded_critical.mpr ⟨hs, guarded_single hm⟩) (guarded_single hq)

/-- An operation obeys a discipline that allows every lock to be entered first and the nestings
    that the operation really uses. -/
theorem guarded_acts {op : Op} (hfirst : ∀ l, G [] l)
    (hms : op.mapInSockets = true → G [lckSockets] csMapIndexToSocket)
    (hsm : op.socketsInMap = true → Guarded G [csMapIndexToSocket] receiveDisconnection) :
    Guarded G [] op.acts := by
  have hlookup : Guarded G [] lookup := guarded_single (hfirst _)
  have hnew : Guarded G [] receiveNewConnection :=
    guarded_seq (neutral_critical neutral_nil) (guarded_single (hfirst _))
      (guarded_single (hfirst _))
  have htable : ∀ l path, Guarded G [] (withTable l path) := by
    intro l path
    cases path with
    | direct => trivial
    | unregistered => exact hlookup
    | registered => exact guarded_seq neutral_lookup hlookup (guarded_single (hfirst l))
  have hdisc : ∀ found, (found = true → G [lckSockets] csMapIndexToSocket) →
      Guarded G [] (disconnect found) := fun found hf =>
    guarded_seq neutral_lookup hlookup (guarded_ite
      (fun h => guarded_receiveDisconnection (hfirst _) (hf h) (hfirst _)) (fun _ => trivial))
  cases op with
  | sendPacketAll n =>
    refine guarded_critical.mpr ⟨hfirst _, guarded_loop neutral_lookup (fun hn => ?_)⟩
    exact guarded_single (hms (by simpa [Op.mapInSockets] using hn))
  | sendPacketIndex positive => exact guarded_ite (fun _ => hlookup) (fun _ => trivial)
  | receivePacket valid =>
    exact guarded_ite (fun _ => guarded_single (hfirst _)) (fun _ => trivial)
  | disconnect found => exact hdisc found (fun h => hms h)
  | disconnectAll n =>
    refine guarded_critical.mpr ⟨hfirst _, guarded_loop neutral_receiveDisconnection (fun hn => ?_)⟩
    exact hsm (by simpa [Op.socketsInMap] using hn)
  | dispatchReceiveMessage path => exact htable _ path
  | dispatchSendMessage path => exact htable _ path
  | queuePacketFromDataBuffer path => exact htable _ path
  | receiveNewConnection => exact hnew
  | receiveDisconnectNotify found =>
    exact guarded_seq neutral_lookup hlookup (hdisc found (fun h => hms h))
  | bindAndAccept => exact hlookup
  | connectTo connected =>
    exact guarded_seq neutral_lookup hlookup (guarded_ite (fun _ => hnew) (fun _ => hlookup))
  | socketAccept err known =>
    refine guarded_seq (neutral_ite neutral_nil ((neutral_lookup.append (neutral_ite neutral_nil
      neutral_lookup)).append neutral_receiveNewConnection)) (guarded_ite (fun _ => trivial)
      (fun _ => ?_)) hlookup
    refine guarded_seq (neutral_lookup.append (neutral_ite neutral_nil neutral_lookup)) ?_ hnew
    exact guarded_seq neutral_lookup hlookup (guarded_ite (fun _ => trivial) (fun _ => hlookup))

end Discipline

/-- The order of every operation but `disconnectAll`: `_lckSockets` before the others. -/
def socketsFirst : NetLock → Nat
  | .lckSockets => 0
  | _ => 1

/-- The order of `disconnectAll`: `_csMapIndexToSocket` before the others. -/
def mapFirst : NetLock → Nat
  | .csMapIndexToSocket => 0
  | _ => 1

theorem socketsFirst_le (l : NetLock) : socketsFirst l ≤ 1 := by cases l <;> decide

theorem mapFirst_le (l : NetLock) : mapFirst l ≤ 1 := by cases l <;> decide

theorem ascending_first (rank : NetLock → Nat) (l : NetLock) : Ascending rank [] l :=
  .inr (fun k hk => by cases hk)

theorem acts_ascending {op : Op} (h : op.socketsInMap = false) :
    Guarded (Ascending socketsFirst) [] op.acts :=
  guarded_acts (ascending_first _) (fun _ => .inr (by simp [socketsFirst]))
    (fun h' => by rw [h] at h'; cases h')

theorem acts_ascending_map {op : Op} (h : op.mapInSockets = false) :
    Guarded (Ascending mapFirst) [] op.acts := by
  refine guarded_acts (ascending_first _) (fun h' => by rw [h] at h'; cases h') (fun _ => ?_)
  refine guarded_receiveDisconnection (.inr (by simp [mapFirst])) (.inl (by simp))
    (.inr (by simp [mapFirst]))

theorem acts_flat {op : Op} (h1 : op.mapInSockets = false) (h2 : op.socketsInMap = false) :
    Guarded Flat [] op.acts :=
  guarded_acts (fun _ => .inr rfl) (fun h' => by rw [h1] at h'; cases h')
    (fun h' => by rw [h2] at h'; cases h')

/-! ## Freedom from deadlock -/

variable {ι : Type}

theorem pool_exclusive (progs : ι → List Op) : Exclusive (pool progs) := by
  intro t u l hl
  cases hl

theorem pool_disciplined {progs : ι → List Op} {G : ι → List NetLock → NetLock → Prop}
    (h : ∀ t, ∀ op ∈ progs t, Guarded (G t) [] op.acts) : Disciplined G (pool progs) :=
  fun t => Guarded.flatMap neutral_acts (h t)

variable [DecidableEq ι]

/-- Two different threads run operations of opposite lock order. -/
def Conflict (progs : ι → List Op) : Prop :=
  ∃ t u, t ≠ u ∧ (∃ op ∈ progs t, op.socketsInMap = true) ∧ ∃ op ∈ progs u, op.mapInSockets = true

theorem no_deadlock_of_no_conflict {progs : ι → List Op} (hc : ¬ Conflict progs)
    {p : ι → Thread NetLock} (hp : Reachable (pool progs) p) : ¬ Deadlock p := by
  have hx : Exclusive p := reachable_exclusive (pool_exclusive progs) hp
  by_cases hall : ∀ t, ∀ op ∈ progs t, op.socketsInMap = false
  · -- nobody runs `disconnectAll` over a socket
    exact no_deadlock_of_ascending socketsFirst_le hx
      (reachable_disciplined (pool_disciplined fun t op hop => acts_ascending (hall t op hop)) hp)
  · simp only [not_forall, Bool.not_eq_false] at hall
    obtain ⟨t₀, op₀, hop₀, h₀⟩ := hall
    have hothers : ∀ u, u ≠ t₀ → ∀ op ∈ progs u, op.mapInSockets = false := by
      intro u hu op hop
      by_contra h
      exact hc ⟨t₀, u, hu.symm, ⟨op₀, hop₀, h₀⟩, op, hop, by simpa using h⟩
    by_cases hsecond : ∃ t₁, t₁ ≠ t₀ ∧ ∃ op ∈ progs t₁, op.socketsInMap = true
    · -- two threads run it, so the other order does not occur at all
      obtain ⟨t₁, ht₁, hop₁⟩ := hsecond
      have hnone : ∀ t, ∀ op ∈ progs t, op.mapInSockets = false := by
        intro t op hop
        by_cases ht : t = t₀
        · by_contra h
          subst ht
          exact hc ⟨t₁, t, ht₁, hop₁, op, hop, by simpa using h⟩
        · exact hothers t ht op hop
      exact no_deadlock_of_ascending mapFirst_le hx (reachable_disciplined
        (pool_disciplined fun t op hop => acts_ascending_map (hnone t op hop)) hp)
    · -- one thread runs it, and the others do not nest locks
      simp only [not_exists, not_and, Bool.not_eq_true] at hsecond
      refine no_deadlock_of_flat t₀ (G := fun t => if t = t₀ then fun _ _ => True else Flat) hx
        (reachable_disciplined (pool_disciplined fun t op hop => ?_) hp)
        (fun t ht => by simp [ht])
      by_cases ht : t = t₀
      · simp only [ht, if_true]
        exact guarded_acts (fun _ => trivial) (fun _ => trivial)
          (fun _ => guarded_receiveDisconnection trivial trivial trivial)
      · simp only [ht, if_false]
        exact acts_flat (hothers t ht op hop) (hsecond t ht op hop)

/-! ## The deadlock -/

/-- An operation of the first order reaches the point where it holds `_lckSockets` and is about to
    enter `_csMapIndexToSocket`. -/
theorem acts_mapInSockets {op : Op} (h : op.mapInSockets = true) :
    ∃ as bs, op.acts = as ++ .enter lckSockets :: .enter csMapIndexToSocket :: bs ∧
      Neutral as := by
  have hfound : ∃ bs, receiveDisconnection = .enter lckSockets :: .enter csMapIndexToSocket :: bs :=
    ⟨_, rfl⟩
  obtain ⟨bs, hbs⟩ := hfound
  cases op with
  | sendPacketAll n =>
    cases n with
    | zero => cases h
    | succ n => exact ⟨[], _, rfl, neutral_nil⟩
  | disconnect found =>
    cases found with
    | false => cases h
    | true => exact ⟨lookup, bs, by rw [← hbs]; rfl, neutral_lookup⟩
  | receiveDisconnectNotify found =>
    cases found with
    | false => cases h
    | true =>
      exact ⟨lookup ++ lookup, bs, by rw [← hbs]; rfl, neutral_lookup.append neutral_lookup⟩
  | _ => cases h

theorem acts_socketsInMap {op : Op} (h : op.socketsInMap = true) :
    ∃ bs, op.acts = .enter csMapIndexToSocket :: .enter lckSockets :: bs := by
  cases op with
  | disconnectAll n =>
    cases n with
    | zero => cases h
    | succ n => exact ⟨_, rfl⟩
  | _ => cases h

/-- A program up to an operation of it, the operation, and the rest. -/
theorem acts_split {prog : List Op} {op : Op} (h : op ∈ prog) :
    ∃ pre post, Neutral pre ∧ prog.flatMap Op.acts = pre ++ (op.acts ++ post) := by
  obtain ⟨l₁, l₂, rfl⟩ := List.append_of_mem h
  exact ⟨l₁.flatMap Op.acts, l₂.flatMap Op.acts, Neutral.flatMap neutral_acts l₁, by simp⟩

/-- **A deadlock is reachable** whenever two threads run operations of opposite order. -/
theorem deadlock_reachable {progs : ι → List Op} (h : Conflict progs) :
    ∃ p, Reachable (pool progs) p ∧ Deadlock p := by
  obtain ⟨t, u, htu, ⟨op₁, hop₁, h₁⟩, op₂, hop₂, h₂⟩ := h
  obtain ⟨pre₁, post₁, hpre₁, hsplit₁⟩ := acts_split hop₁
  obtain ⟨pre₂, post₂, hpre₂, hsplit₂⟩ := acts_split hop₂
  obtain ⟨bs₁, hbs₁⟩ := acts_socketsInMap h₁
  obtain ⟨as₂, bs₂, hbs₂, has₂⟩ := acts_mapInSockets h₂
  have ht : (pool progs t).todo =
      pre₁ ++ .enter csMapIndexToSocket :: .enter lckSockets :: (bs₁ ++ post₁) := by
    simp only [pool, hsplit₁, hbs₁, List.cons_append]
  have hu : (pool progs u).todo =
      (pre₂ ++ as₂) ++ .enter lckSockets :: .enter csMapIndexToSocket :: (bs₂ ++ post₂) := by
    simp only [pool, hsplit₂, hbs₂, List.append_assoc, List.cons_append]
  exact deadlock_of_crossed htu (by decide) (fun _ => rfl) ht hpre₁ hu (hpre₂.append has₂)

/-- **Exact condition for freedom from deadlock**, for any number of threads, any operations in
    any number and every interleaving: no thread runs `disconnectAll` over a registered socket
    while a different thread runs the broadcast `sendPacket` over a connected socket or a
    `disconnect` (its own or one caused by the peer) of a registered index. -/
theorem network_deadlock_free_iff (progs : ι → List Op) :
    (∀ p, Reachable (pool progs) p → ¬ Deadlock p) ↔
      ¬ ∃ t u, t ≠ u ∧ (∃ op ∈ progs t, op.socketsInMap = true) ∧
        ∃ op ∈ progs u, op.mapInSockets = true := by
  constructor
  · intro hfree hc
    obtain ⟨p, hp, hd⟩ := deadlock_reachable hc
    exact hfree p hp hd
  · intro hc p hp
    exact no_deadlock_of_no_conflict hc hp

/-- `disconnectAll` over one socket against a broadcast to one socket. -/
theorem disconnectAll_broadcast_deadlock :
    ∃ p, Reachable (pool fun t : Bool =>
      if t then [Op.disconnectAll 1] else [Op.sendPacketAll 1]) p ∧ Deadlock p :=
  deadlock_reachable ⟨true, false, by decide, ⟨.disconnectAll 1, by simp, rfl⟩,
    .sendPacketAll 1, by simp, rfl⟩

end NetLocks

end IMonPlatform
