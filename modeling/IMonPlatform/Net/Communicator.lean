import Mathlib.Data.List.AList
import Mathlib.Data.Finset.Card
import IMonPlatform.Net.Framing

/-!
# The socket registry of `CNetworkCommunicator`

`_mapIndexToSocket` gives every socket object a positive number while the 32-bit counter
`_socketIndex` does not wrap.  Socket objects are compared by address in the source; here an
object is the number of its creation, so every `CCommonSocket::createSocket` makes a new one.

* `registerSocket` — the counter is advanced until it names a free index.  `none` stands for the
  loop that never ends; `registerSocket_none`: that needs all `2^32` indices to be taken.
* `registerSocket_spec` — otherwise the index was free, and the other entries are kept.
* `getSocket` — invents a new socket for a missing index.
* `getSocketIndex_spec` — the index found for a socket is one it is registered under, or `-1`.
* `deregisterSocket` — loops on the counter instead of its argument; `none` when it does not end.
-/

set_option autoImplicit false

namespace IMonPlatform

open Framing

/-- Identity of a `CCommonSocket` object. -/
abbrev Sock := Nat

abbrev SockIndex := Int

/-- `boost::unordered_map< SOCK_INDEX, tySpCommonSocket >`; the list order is the iteration
    order, which the source leaves open. -/
abbrev SocketMap := AList (fun _ : SockIndex => Sock)

/-- `InterlockedIncrement` on a `long`. -/
def interlockedIncrement (v : Int) : Int := i32 (v + 1)

structure CNetworkCommunicator where
  socketIndex : Int
  mapIndexToSocket : SocketMap
  /-- Number of socket objects created so far. -/
  nextSock : Sock
  deriving DecidableEq

namespace CNetworkCommunicator

def empty : CNetworkCommunicator := ⟨0, ∅, 0⟩

/-- `CCommonSocket::createSocket`: a new object. -/
def createObject (c : CNetworkCommunicator) : Sock × CNetworkCommunicator :=
  (c.nextSock, { c with nextSock := c.nextSock + 1 })

/-- The `while` loop of `registerSocket`, with a bound on its rounds. -/
def freeIndex (m : SocketMap) : Nat → SockIndex → Option SockIndex
  | 0, _ => none
  | rounds + 1, i => if i ∈ m then freeIndex m rounds (interlockedIncrement i) else some i

def registerSocket (c : CNetworkCommunicator) (connection : Sock) :
    Option (SockIndex × CNetworkCommunicator) :=
  match freeIndex c.mapIndexToSocket (c.mapIndexToSocket.keys.length + 1)
      (interlockedIncrement c.socketIndex) with
  | none => none
  | some i => some (i, { c with
      socketIndex := i, mapIndexToSocket := c.mapIndexToSocket.insert i connection })

/-- `CNetworkCommunicator::createSocket`: a new object, registered. -/
def createSocket (c : CNetworkCommunicator) : Option (SockIndex × Sock × CNetworkCommunicator) :=
  match c.createObject.2.registerSocket c.createObject.1 with
  | none => none
  | some (i, c') => some (i, c.createObject.1, c')

def deregisterSocket (c : CNetworkCommunicator) (i : SockIndex) : Option CNetworkCommunicator :=
  if c.socketIndex ∈ c.mapIndexToSocket then
    -- erasing again changes nothing, so the loop ends in the first round or never
    if c.socketIndex ∈ c.mapIndexToSocket.erase i then none
    else some { c with mapIndexToSocket := c.mapIndexToSocket.erase i }
  else some c

def getSocketIndex (c : CNetworkCommunicator) (connection : Sock) : SockIndex :=
  match c.mapIndexToSocket.entries.find? (fun e => e.2 == connection) with
  | some e => e.1
  | none => -1

/-- Does the socket stand under an index? -/
def isRegistered (c : CNetworkCommunicator) (connection : Sock) : Bool :=
  c.mapIndexToSocket.entries.any fun e => e.2 == connection

def getSocket (c : CNetworkCommunicator) (i : SockIndex) : Sock × CNetworkCommunicator :=
  match c.mapIndexToSocket.lookup i with
  | none => c.createObject
  | some s => (s, c)

end CNetworkCommunicator

open CNetworkCommunicator

/-! ## Lookup by socket -/

theorem getSocketIndex_spec (c : CNetworkCommunicator) (s : Sock) :
    c.mapIndexToSocket.lookup (c.getSocketIndex s) = some s ∨
      c.getSocketIndex s = -1 ∧ ∀ i, c.mapIndexToSocket.lookup i ≠ some s := by
  unfold getSocketIndex
  split
  · rename_i e he
    left
    have hs : e.2 = s := by simpa using List.find?_some he
    have hmem := List.mem_of_find?_eq_some he
    rw [← hs]
    exact AList.mem_lookup_iff.mpr hmem
  · rename_i hnone
    right
    refine ⟨rfl, fun i hi => ?_⟩
    have := List.find?_eq_none.mp hnone ⟨i, s⟩ (AList.mem_lookup_iff.mp hi)
    simp at this

/-- An index other than `-1` is one the socket is registered under. -/
theorem getSocketIndex_found {c : CNetworkCommunicator} {s : Sock} (h : c.getSocketIndex s ≠ -1) :
    c.mapIndexToSocket.lookup (c.getSocketIndex s) = some s :=
  (getSocketIndex_spec c s).resolve_right (fun hno => h hno.1)

theorem getSocketIndex_pos {c : CNetworkCommunicator} {s : Sock} (h : 0 < c.getSocketIndex s) :
    c.mapIndexToSocket.lookup (c.getSocketIndex s) = some s := by
  apply getSocketIndex_found
  intro hneg
  rw [hneg] at h
  exact absurd h (by decide)

theorem getSocketIndex_registered {c : CNetworkCommunicator} {i : SockIndex} {s : Sock}
    (h : c.mapIndexToSocket.lookup i = some s) :
    c.mapIndexToSocket.lookup (c.getSocketIndex s) = some s :=
  (getSocketIndex_spec c s).resolve_right (fun hno => hno.2 i h)

theorem isRegistered_iff {c : CNetworkCommunicator} {s : Sock} :
    c.isRegistered s = true ↔ ∃ i, c.mapIndexToSocket.lookup i = some s := by
  unfold isRegistered
  rw [List.any_eq_true]
  constructor
  · rintro ⟨⟨i, t⟩, hmem, ht⟩
    obtain rfl : t = s := by simpa using ht
    exact ⟨i, AList.mem_lookup_iff.mpr hmem⟩
  · rintro ⟨i, hi⟩
    exact ⟨⟨i, s⟩, AList.mem_lookup_iff.mp hi, by simp⟩

/-- Asking for a socket does not register one. -/
theorem getSocket_map (c : CNetworkCommunicator) (i : SockIndex) :
    (c.getSocket i).2.mapIndexToSocket = c.mapIndexToSocket := by
  unfold getSocket
  split <;> rfl

theorem getSocket_frame (c : CNetworkCommunicator) (i : SockIndex) :
    (c.getSocket i).2.socketIndex = c.socketIndex ∧ c.nextSock ≤ (c.getSocket i).2.nextSock := by
  unfold getSocket
  split
  · exact ⟨rfl, Nat.le_succ _⟩
  · exact ⟨rfl, Nat.le_refl _⟩

/-! ## Registration -/

theorem freeIndex_some {m : SocketMap} : ∀ {rounds : Nat} {i j : SockIndex},
    freeIndex m rounds i = some j → j ∉ m
  | 0, _, _, h => by cases h
  | rounds + 1, i, j, h => by
    unfold freeIndex at h
    split at h
    · exact freeIndex_some h
    · rename_i hi
      cases h
      exact hi

theorem interlockedIncrement_iter (i : Int) (k : Nat) :
    i32 (interlockedIncrement i + k) = i32 (i + (k + 1)) := by
  unfold interlockedIncrement i32
  rw [Int.bmod_add_bmod]
  congr 1
  omega

/-- The search fails only after finding every index it visited taken. -/
theorem freeIndex_none {m : SocketMap} : ∀ {rounds : Nat} {i : Int},
    freeIndex m rounds (i32 i) = none → ∀ k < rounds, i32 (i + k) ∈ m
  | 0, _, _, k, hk => by omega
  | rounds + 1, i, h, k, hk => by
    unfold freeIndex at h
    split at h
    · rename_i hi
      cases k with
      | zero => simpa using hi
      | succ k =>
        have hnext : interlockedIncrement (i32 i) = i32 (interlockedIncrement i) := by
          simp only [interlockedIncrement, i32, Int.bmod_bmod, Int.bmod_add_bmod]
        rw [hnext] at h
        have := freeIndex_none h k (by omega)
        rw [interlockedIncrement_iter] at this
        exact_mod_cast this
    · cases h

theorem i32_add_injOn (i : Int) {N : Nat} (hN : N ≤ 2 ^ 32) :
    Set.InjOn (fun k : Nat => i32 (i + k)) (Finset.range N) := by
  intro a ha b hb hab
  have ha := Finset.mem_range.mp (Finset.mem_coe.mp ha)
  have hb := Finset.mem_range.mp (Finset.mem_coe.mp hb)
  have hdvd : ((2 ^ 32 : Nat) : Int) ∣ (i + a) - (i + b) := by
    have h0 : ((i + a) - (i + b)).bmod (2 ^ 32) = 0 :=
      Int.bmod_eq_bmod_iff_bmod_sub_eq_zero.mp hab
    exact Int.dvd_of_bmod_eq_zero h0
  obtain ⟨q, hq⟩ := hdvd
  rw [show ((2 ^ 32 : Nat) : Int) = 4294967296 from rfl] at hq
  omega

/-- The loop of `registerSocket` does not end only when every index is taken. -/
theorem registerSocket_none {c : CNetworkCommunicator} {s : Sock}
    (h : c.registerSocket s = none) : 2 ^ 32 ≤ c.mapIndexToSocket.keys.length := by
  unfold registerSocket at h
  split at h
  · rename_i hnone
    by_contra hlt
    have hall := freeIndex_none hnone
    -- the visited indices are different, and one more than there are entries
    have hcard : (c.mapIndexToSocket.keys.length + 1) ≤ c.mapIndexToSocket.keys.toFinset.card := by
      rw [← Finset.card_range (c.mapIndexToSocket.keys.length + 1),
        ← Finset.card_image_of_injOn (i32_add_injOn (c.socketIndex + 1) (by omega))]
      refine Finset.card_le_card (fun j hj => ?_)
      obtain ⟨k, hk, rfl⟩ := Finset.mem_image.mp hj
      exact List.mem_toFinset.mpr (AList.mem_keys.mp (hall k (Finset.mem_range.mp hk)))
    have := List.toFinset_card_le c.mapIndexToSocket.keys
    omega
  · cases h

/-- **Registration**: the new entry is stored under a free index and the others are kept. -/
theorem registerSocket_spec {c c' : CNetworkCommunicator} {s : Sock} {i : SockIndex}
    (h : c.registerSocket s = some (i, c')) :
    i ∉ c.mapIndexToSocket ∧ c'.socketIndex = i ∧
      c'.mapIndexToSocket = c.mapIndexToSocket.insert i s ∧ c'.nextSock = c.nextSock := by
  unfold registerSocket at h
  split at h
  · cases h
  · rename_i j hj
    cases h
    exact ⟨freeIndex_some hj, rfl, rfl, rfl⟩

theorem createSocket_spec {c c' : CNetworkCommunicator} {s : Sock} {i : SockIndex}
    (h : c.createSocket = some (i, s, c')) :
    s = c.nextSock ∧ i ∉ c.mapIndexToSocket ∧ c'.socketIndex = i ∧
      c'.mapIndexToSocket = c.mapIndexToSocket.insert i s ∧ c'.nextSock = c.nextSock + 1 := by
  unfold createSocket at h
  split at h
  · cases h
  · rename_i j d hreg
    cases h
    obtain ⟨h1, h2, h3, h4⟩ := registerSocket_spec hreg
    exact ⟨rfl, h1, h2, h3, h4⟩

theorem mem_of_lookup {m : SocketMap} {i : SockIndex} {s : Sock} (h : m.lookup i = some s) :
    i ∈ m :=
  AList.lookup_isSome.mp (by rw [h]; rfl)

theorem exists_lookup_of_mem {m : SocketMap} {i : SockIndex} (h : i ∈ m) :
    ∃ s, m.lookup i = some s :=
  Option.isSome_iff_exists.mp (AList.lookup_isSome.mpr h)

/-- A new entry is found under its index, and the others as before. -/
theorem lookup_insert_some {m : SocketMap} {i j : SockIndex} {s t : Sock}
    (h : (m.insert i s).lookup j = some t) : j = i ∧ t = s ∨ m.lookup j = some t := by
  by_cases hji : j = i
  · subst hji
    rw [AList.lookup_insert] at h
    cases h
    exact .inl ⟨rfl, rfl⟩
  · rw [AList.lookup_insert_ne hji] at h
    exact .inr h

/-- An insertion under a free index keeps every other registration. -/
theorem lookup_insert_of_free {m : SocketMap} {i j : SockIndex} {s t : Sock} (hi : i ∉ m)
    (h : m.lookup j = some t) : (m.insert i s).lookup j = some t := by
  have hne : j ≠ i := by
    rintro rfl
    rw [AList.lookup_eq_none.mpr hi] at h
    cases h
  rw [AList.lookup_insert_ne hne, h]

theorem lookup_erase_some {m : SocketMap} {i j : SockIndex} {t : Sock} :
    (m.erase i).lookup j = some t ↔ j ≠ i ∧ m.lookup j = some t := by
  by_cases hj : j = i
  · subst hj
    simp
  · simp [AList.lookup_erase_ne hj, hj]

/-! ## Removals -/

/-- A `deregisterSocket` that returns has erased its index, or nothing. -/
theorem deregisterSocket_cases {c c' : CNetworkCommunicator} {i : SockIndex}
    (h : c.deregisterSocket i = some c') :
    c' = c ∨ c' = { c with mapIndexToSocket := c.mapIndexToSocket.erase i } := by
  unfold deregisterSocket at h
  split at h
  · split at h
    · cases h
    · cases h
      exact .inr rfl
  · cases h
    exact .inl rfl

theorem deregisterSocket_lookup {c c' : CNetworkCommunicator} {i j : SockIndex} {s : Sock}
    (h : c.deregisterSocket i = some c') (hs : c'.mapIndexToSocket.lookup j = some s) :
    c.mapIndexToSocket.lookup j = some s := by
  rcases deregisterSocket_cases h with rfl | rfl
  · exact hs
  · exact (lookup_erase_some.mp hs).2

end IMonPlatform
