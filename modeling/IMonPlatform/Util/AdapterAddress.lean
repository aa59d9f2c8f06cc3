import IMonPlatform.Lib.Replace
import IMonPlatform.Logger.Hierarchy

/-!
# The address of an adapter

Three functions go over the adapters of the system and choose one of the addresses that pass their
filter.  With one candidate they take it.  With several, two of them ask for both words of a virtual
adapter, in the name or the MAC address of the adapter, and the third one takes a candidate whose
address was never filled in.

* `IP_ADAPTER_INFO` — an adapter; `Candidate` — a collected address, with its adapter.
* `getInternetConnectedAddress`, `getIPAddress`, `GetInternetConnectLanAddress` — what they collect,
  and their loops.
* `Promise` — where a real adapter has an address, such an address is chosen.
* `real_address_iff` — for each of the three, the lists for which the promise is kept.
-/

set_option autoImplicit false

namespace IMonPlatform.AdapterAddress

open Format (CharT)
open Logger (Text text wcsicmpEq)
open Replace

/-! ## Choosing the last match -/

section LastMatch

variable {γ δ : Type} {keep : γ → Prop} {l : List γ} {c : γ}

/-- The last entry that is kept. -/
def IsLast (keep : γ → Prop) (l : List γ) (c : γ) : Prop :=
  ∃ before after, l = before ++ c :: after ∧ keep c ∧ ∀ d ∈ after, ¬ keep d

variable [DecidablePred keep] {value : γ → δ}

theorem foldl_none (init : δ) (h : ∀ d ∈ l, ¬ keep d) :
    l.foldl (fun acc d => if keep d then value d else acc) init = init := by
  induction l with
  | nil => rfl
  | cons d l ih =>
    rw [List.foldl_cons, if_neg (h d List.mem_cons_self)]
    exact ih fun e he => h e (List.mem_cons_of_mem d he)

/-- **A loop that assigns at every match ends with the last one.** -/
theorem foldl_last (init : δ) (h : IsLast keep l c) :
    l.foldl (fun acc d => if keep d then value d else acc) init = value c := by
  obtain ⟨before, after, rfl, hc, hafter⟩ := h
  rw [List.foldl_append, List.foldl_cons, if_pos hc]
  exact foldl_none (value c) hafter

omit [DecidablePred keep] in
theorem last_or_none (keep : γ → Prop) (l : List γ) :
    (∃ c, IsLast keep l c) ∨ ∀ d ∈ l, ¬ keep d := by
  induction l with
  | nil => exact .inr nofun
  | cons d l ih =>
    rcases ih with ⟨c, before, after, rfl, hc, hafter⟩ | hnone
    · exact .inl ⟨c, d :: before, after, rfl, hc, hafter⟩
    · by_cases hd : keep d
      · exact .inl ⟨d, [], l, rfl, hd, hnone⟩
      · refine .inr fun e he => ?_
        rcases List.mem_cons.mp he with rfl | he
        · exact hd
        · exact hnone e he

end LastMatch

/-! ## Adapters -/

/-- `IP_ADDR_STRING` -/
structure IP_ADDR_STRING where
  IpAddress : Text
  IpMask : Text
  noNul : 0 ∉ IpAddress

def MIB_IF_TYPE_ETHERNET : Nat := 6

def MIB_IF_TYPE_PPP : Nat := 23

def IF_TYPE_IEEE80211 : Nat := 71

structure IP_ADAPTER_INFO where
  Index : Nat
  type : Nat
  AdapterName : Text
  Description : Text
  Address : Fin 6 → UInt8
  IpAddressList : IP_ADDR_STRING
  /-- The addresses behind the first one. -/
  Next : List IP_ADDR_STRING
  /-- `GatewayList.IpAddress.String` -/
  GatewayList : Text

def IP_ADAPTER_INFO.addresses (pAdapt : IP_ADAPTER_INFO) : List IP_ADDR_STRING :=
  pAdapt.IpAddressList :: pAdapt.Next

/-- The cases of the `switch`. -/
def isLanType (type : Nat) : Bool :=
  type == MIB_IF_TYPE_ETHERNET || type == MIB_IF_TYPE_PPP || type == IF_TYPE_IEEE80211

def towlower (c : CharT) : CharT := if 'A'.toNat ≤ c ∧ c ≤ 'Z'.toNat then c + 32 else c

/-- `StrStrI`; the result is a null pointer or not. -/
def StrStrI (s pattern : Text) : Bool :=
  (firstAt (pattern.map towlower) (s.map towlower)).isSome

/-- `%02x` of a byte. -/
def hex2 (b : UInt8) : Text :=
  [b.toNat / 16, b.toNat % 16].map fun n => if n < 10 then '0'.toNat + n else 'a'.toNat + (n - 10)

/-- `%02x:%02x:%02x:%02x:%02x:%02x` -/
def macText (Address : Fin 6 → UInt8) : Text :=
  hex2 (Address 0) ++ ':'.toNat :: (hex2 (Address 1) ++ ':'.toNat :: (hex2 (Address 2) ++
    ':'.toNat :: (hex2 (Address 3) ++ ':'.toNat :: (hex2 (Address 4) ++ ':'.toNat ::
      hex2 (Address 5)))))

/-- An address that has been collected from an adapter; an empty one was never filled in. -/
structure Candidate where
  adapter : IP_ADAPTER_INFO
  ip : Text
  noNul : 0 ∉ ip

theorem noNul_nil : 0 ∉ ([] : Text) := List.not_mem_nil

def Candidate.unfilled (adapter : IP_ADAPTER_INFO) : Candidate := ⟨adapter, [], noNul_nil⟩

def Candidate.filled (adapter : IP_ADAPTER_INFO) (pAddrStr : IP_ADDR_STRING) : Candidate :=
  ⟨adapter, pAddrStr.IpAddress, pAddrStr.noNul⟩

/-! ## What is promised -/

/-- The adapter is not described as one of a virtual machine. -/
def IsReal (adapter : IP_ADAPTER_INFO) : Prop :=
  StrStrI adapter.Description (text "vmware") = false ∧
    StrStrI adapter.Description (text "virtual") = false

def Good (c : Candidate) : Prop := c.ip ≠ [] ∧ c.ip ≠ text "0.0.0.0" ∧ IsReal c.adapter

/-- The address is that of a good candidate. -/
def IsGoodAddress (candidates : List Candidate) (ip : Text) : Prop :=
  ∃ c ∈ candidates, Good c ∧ c.ip = ip

/-- Where there is a good candidate, the address of one is returned. -/
def Promise (candidates : List Candidate) (ipaddress : Text) : Prop :=
  (∃ c ∈ candidates, Good c) → IsGoodAddress candidates ipaddress

section Functions

-- `inet_addr` of the system's library.
variable (inet_addr : Text → BitVec 32)

/-- `dwGwNetwork == dwNetwork` -/
def sameNetwork (pAdapt : IP_ADAPTER_INFO) (pAddrStr : IP_ADDR_STRING) : Bool :=
  inet_addr pAdapt.GatewayList &&& inet_addr pAddrStr.IpMask ==
    inet_addr pAddrStr.IpAddress &&& inet_addr pAddrStr.IpMask

/-! ## `getInternetConnectedAddress` -/

def connectedCandidates (iIndex : Nat) (pAdapterInfo : List IP_ADAPTER_INFO) : List Candidate :=
  pAdapterInfo.flatMap fun pAdapt =>
    if pAdapt.Index ≠ iIndex then []
    else if isLanType pAdapt.type = true then
      if 0 < pAdapt.GatewayList.length then
        pAdapt.addresses.flatMap fun pAddrStr =>
          if pAddrStr.IpAddress.length ≤ 0 then []
          else if sameNetwork inet_addr pAdapt pAddrStr = false then []
          else [Candidate.filled pAdapt pAddrStr]
      else []
    else []

/-- The body of the loop over `vecIPAddress`. -/
def connectedRound (size : Nat) (ipaddress : Text) (iter : Text × Text) : Text :=
  if wcsicmpEq iter.1 (text "0.0.0.0") = true then ipaddress
  else if 1 < size then
    if StrStrI iter.2 (text "vmware") = false then ipaddress
    else if StrStrI iter.2 (text "virtual") = false then ipaddress
    else iter.1
  else iter.1

def connectedLoop (vecIPAddress : List (Text × Text)) : Text :=
  vecIPAddress.foldl (connectedRound vecIPAddress.length) []

def getInternetConnectedAddress (iIndex : Nat) (pAdapterInfo : List IP_ADAPTER_INFO) : Text :=
  connectedLoop ((connectedCandidates inet_addr iIndex pAdapterInfo).map fun c =>
    (c.ip, c.adapter.AdapterName))

/-! ## `getIPAddress` -/

def gatewayCandidates (pAdapterInfo : List IP_ADAPTER_INFO) : List Candidate :=
  pAdapterInfo.flatMap fun pAdapt =>
    if inet_addr pAdapt.GatewayList ≠ 0 then [Candidate.filled pAdapt pAdapt.IpAddressList] else []

/-- The loop over `vecIPAddress`, which is left where it finds one of several. -/
def gatewayLoop (size : Nat) : List (Text × Text) → Text → Text
  | [], ipaddress => ipaddress
  | iter :: rest, ipaddress =>
    if wcsicmpEq iter.1 (text "0.0.0.0") = true then gatewayLoop size rest ipaddress
    else if 1 < size then
      if StrStrI iter.2 (text "vmware") = false then gatewayLoop size rest ipaddress
      else if StrStrI iter.2 (text "virtual") = false then gatewayLoop size rest ipaddress
      else iter.1
    else gatewayLoop size rest iter.1

def getIPAddress (pAdapterInfo : List IP_ADAPTER_INFO) : Text :=
  gatewayLoop (gatewayCandidates inet_addr pAdapterInfo).length
    ((gatewayCandidates inet_addr pAdapterInfo).map fun c => (c.ip, macText c.adapter.Address)) []

/-! ## `GetInternetConnectLanAddress` -/

structure LANCARD_ITEM where
  strName : Text
  strMAC : Text
  strIP : Text

def Candidate.item (c : Candidate) : LANCARD_ITEM where
  strName := c.adapter.Description
  strMAC := if c.ip = [] then [] else macText c.adapter.Address
  strIP := c.ip

/-- The address is filled in. -/
def isFilled (ignoreGatewayAddress : Bool) (pAdapt : IP_ADAPTER_INFO)
    (pAddrStr : IP_ADDR_STRING) : Bool :=
  decide (0 < pAddrStr.IpAddress.length) &&
    (ignoreGatewayAddress || sameNetwork inet_addr pAdapt pAddrStr)

/-- What an adapter adds to `vecLan`. -/
def lanItems (ignoreGatewayAddress : Bool) (pAdapt : IP_ADAPTER_INFO) : List Candidate :=
  if isLanType pAdapt.type = true then
    if ignoreGatewayAddress = true ∨ 0 < pAdapt.GatewayList.length then
      pAdapt.addresses.map fun pAddrStr =>
        if isFilled inet_addr ignoreGatewayAddress pAdapt pAddrStr = true then
          Candidate.filled pAdapt pAddrStr
        else Candidate.unfilled pAdapt
    else []
  else []

/-- The loop over the adapters, which is left with `isResult`. -/
def lanCandidates (ignoreGatewayAddress : Bool) (iIndex : Nat) :
    List IP_ADAPTER_INFO → List Candidate
  | [] => []
  | pAdapt :: rest =>
    if pAdapt.Index ≠ iIndex then lanCandidates ignoreGatewayAddress iIndex rest
    else if (lanItems inet_addr ignoreGatewayAddress pAdapt).any (·.ip ≠ []) = true then
      lanItems inet_addr ignoreGatewayAddress pAdapt
    else
      lanItems inet_addr ignoreGatewayAddress pAdapt ++
        lanCandidates ignoreGatewayAddress iIndex rest

/-- The body of the loop over `vecLan`, for `strMAC` and `strIP`. -/
def lanRound (size : Nat) (current : Text × Text) (iter : LANCARD_ITEM) : Text × Text :=
  if iter.strIP ≠ text "0.0.0.0" then
    if 1 < size then
      if StrStrI iter.strName (text "vmware") = false then (iter.strMAC, iter.strIP) else current
    else (iter.strMAC, iter.strIP)
  else current

def lanLoop (vecLan : List LANCARD_ITEM) : Text × Text :=
  vecLan.foldl (lanRound vecLan.length) ([], [])

/-- `none` is the result false, with which `strMAC` and `strIP` are left as they were. -/
def GetInternetConnectLanAddress (ignoreGatewayAddress : Bool) (iIndex : Nat)
    (pAdapterInfo : List IP_ADAPTER_INFO) : Option (Text × Text) :=
  match (lanCandidates inet_addr ignoreGatewayAddress iIndex pAdapterInfo).map Candidate.item with
  | [] => none
  | item :: vecLan => some (lanLoop (item :: vecLan))

end Functions

/-! ## Texts -/

/-- No letter of lower case comes from another character. -/
theorem towlower_small {c x : Nat} (h : towlower c = x) (hx : x < 97) : c = x := by
  have hcase : (if 65 ≤ c ∧ c ≤ 90 then c + 32 else c) = x := h
  split at hcase
  · omega
  · exact hcase

/-- An address is compared with "0.0.0.0" as a whole. -/
theorem zero_iff (c : Candidate) :
    wcsicmpEq c.ip (text "0.0.0.0") = true ↔ c.ip = text "0.0.0.0" := by
  have hdef : wcsicmpEq c.ip (text "0.0.0.0") =
      ((c.ip.takeWhile (· ≠ 0)).map towlower == (text "0.0.0.0")) := rfl
  have hall : c.ip.takeWhile (· ≠ 0) = c.ip := takeWhile_of_notMem c.noNul
  have hsmall : ∀ x ∈ text "0.0.0.0", x < 97 := by decide
  rw [hdef, hall, beq_iff_eq]
  constructor
  · intro h
    have hpoint : ∀ a b : Text, a.map towlower = b → (∀ x ∈ b, x < 97) → a = b := by
      intro a
      induction a with
      | nil =>
        rintro b rfl _
        rfl
      | cons y a ih =>
        rintro b rfl hb
        rw [List.map_cons, List.forall_mem_cons] at hb
        rw [List.map_cons, ← ih _ rfl hb.2, ← towlower_small rfl hb.1]
    exact hpoint _ _ h hsmall
  · intro h
    rw [h]
    rfl

/-- The digits of a byte. -/
theorem hex2_mem {b : UInt8} {c : Nat} (h : c ∈ hex2 b) : 48 ≤ c ∧ c ≤ 57 ∨ 97 ≤ c ∧ c ≤ 102 := by
  have hlt := b.toNat_lt
  have hdigit : ∀ n : Nat, n < 16 → (if n < 10 then 48 + n else 97 + (n - 10)) = c →
      48 ≤ c ∧ c ≤ 57 ∨ 97 ≤ c ∧ c ≤ 102 := by
    intro n hn hc
    split at hc <;> omega
  obtain ⟨n, hn, hc⟩ := List.mem_map.mp h
  refine hdigit n ?_ hc
  rcases List.mem_cons.mp hn with rfl | hn
  · omega
  · rw [List.mem_singleton.mp hn]
    omega

theorem macText_mem {Address : Fin 6 → UInt8} {c : Nat} (h : c ∈ macText Address) :
    48 ≤ c ∧ c ≤ 58 ∨ 97 ≤ c ∧ c ≤ 102 := by
  have hcolon : (':'.toNat : Nat) = 58 := rfl
  simp only [macText, List.mem_append, List.mem_cons, hcolon] at h
  rcases h with h | h | h | h | h | h | h | h | h | h | h
  all_goals first
    | (have hdigit := hex2_mem h; omega)
    | omega

/-- **A MAC address has no `v`**, so that it is never that of a virtual adapter. -/
theorem macText_notVmware (Address : Fin 6 → UInt8) :
    StrStrI (macText Address) (text "vmware") = false := by
  rw [← Bool.not_eq_true, StrStrI, firstAt_isSome_iff]
  intro hin
  have hv : (118 : Nat) ∈ (text "vmware").map towlower := by decide
  obtain ⟨c, hc, hlower⟩ := List.mem_map.mp (hin.subset hv)
  have hrange := macText_mem hc
  have hcase : (if 65 ≤ c ∧ c ≤ 90 then c + 32 else c : Nat) = 118 := hlower
  generalize (c : Nat) = n at hrange hcase
  split at hcase <;> omega

/-! ## What is chosen -/

section Chosen

variable {candidates : List Candidate}

/-- What a loop keeps: with several candidates, those that pass the test of a name. -/
def Kept (candidates : List Candidate) (named : Candidate → Prop) (c : Candidate) : Prop :=
  c.ip ≠ text "0.0.0.0" ∧ (1 < candidates.length → named c)

instance (candidates : List Candidate) (named : Candidate → Prop) [DecidablePred named] :
    DecidablePred (Kept candidates named) := fun _ => inferInstanceAs (Decidable (_ ∧ _))

/-- There is a single candidate, or the last one that passes the test has a good address. -/
def Chosen (candidates : List Candidate) (named : Candidate → Prop) : Prop :=
  (∃ c ∈ candidates, Good c) → candidates.length = 1 ∨
    ∃ c, IsLast (fun c => c.ip ≠ text "0.0.0.0" ∧ named c) candidates c ∧
      IsGoodAddress candidates c.ip

theorem isGoodAddress_ne_nil {ip : Text} (h : IsGoodAddress candidates ip) : ip ≠ [] := by
  obtain ⟨c, -, hgood, rfl⟩ := h
  exact hgood.1

/-- **A loop that ends with the last kept candidate** keeps the promise exactly if that one has a
good address. -/
theorem promise_iff {δ : Type} {named : Candidate → Prop} [DecidablePred named]
    {value : Candidate → δ} {init : δ} (ipOf : δ → Text) (hvalue : ∀ c, ipOf (value c) = c.ip)
    (hinit : ipOf init = []) :
    Promise candidates (ipOf (candidates.foldl
        (fun acc c => if Kept candidates named c then value c else acc) init)) ↔
      Chosen candidates named := by
  rw [Promise, Chosen]
  refine forall_congr' fun hgood => ?_
  have hlast : ∀ c, IsLast (Kept candidates named) candidates c →
      ipOf (candidates.foldl
        (fun acc c => if Kept candidates named c then value c else acc) init) = c.ip := by
    intro c hc
    rw [foldl_last init hc, hvalue]
  by_cases hone : candidates.length = 1
  · obtain ⟨c, rfl⟩ := List.length_eq_one_iff.mp hone
    obtain ⟨g, hg, hgoodg⟩ := hgood
    obtain rfl := List.mem_singleton.mp hg
    have hkept : IsLast (Kept [g] named) [g] g :=
      ⟨[], [], rfl, ⟨hgoodg.2.1, fun h => absurd h (Nat.lt_irrefl 1)⟩, nofun⟩
    rw [hlast g hkept]
    exact ⟨fun _ => .inl hone, fun _ => ⟨g, hg, hgoodg, rfl⟩⟩
  · have hseveral : 1 < candidates.length := by
      obtain ⟨g, hg, -⟩ := hgood
      have := List.length_pos_of_mem hg
      omega
    have hkeep : Kept candidates named = fun c => c.ip ≠ text "0.0.0.0" ∧ named c := by
      funext c
      rw [Kept, eq_iff_iff]
      exact and_congr_right fun _ => ⟨fun h => h hseveral, fun h _ => h⟩
    rw [or_iff_right hone, ← hkeep]
    constructor
    · intro h
      rcases last_or_none (Kept candidates named) candidates with ⟨c, hc⟩ | hnone
      · rw [hlast c hc] at h
        exact ⟨c, hc, h⟩
      · rw [foldl_none init hnone, hinit] at h
        exact absurd rfl (isGoodAddress_ne_nil h)
    · rintro ⟨c, hc, hgoodc⟩
      rw [hlast c hc]
      exact hgoodc

end Chosen

/-- Both words of a virtual adapter in the name of the adapter. -/
def NamedVirtual (c : Candidate) : Prop :=
  StrStrI c.adapter.AdapterName (text "vmware") = true ∧
    StrStrI c.adapter.AdapterName (text "virtual") = true

/-- Not described as one of VMware. -/
def NotVmware (c : Candidate) : Prop := StrStrI c.adapter.Description (text "vmware") = false

instance : DecidablePred NamedVirtual := fun _ => inferInstanceAs (Decidable (_ ∧ _))

instance : DecidablePred NotVmware := fun _ => inferInstanceAs (Decidable (_ = _))

section Loops

variable {inet_addr : Text → BitVec 32} {pAdapterInfo : List IP_ADAPTER_INFO}

theorem connectedRound_eq (candidates : List Candidate) (ipaddress : Text) (c : Candidate) :
    connectedRound candidates.length ipaddress (c.ip, c.adapter.AdapterName) =
      if Kept candidates NamedVirtual c then c.ip else ipaddress := by
  rw [connectedRound]
  by_cases hzero : c.ip = text "0.0.0.0"
  · rw [if_pos ((zero_iff c).mpr hzero), if_neg fun h => h.1 hzero]
  · rw [if_neg fun h => hzero ((zero_iff c).mp h)]
    by_cases hseveral : 1 < candidates.length
    · rw [if_pos hseveral]
      by_cases hvmware : StrStrI c.adapter.AdapterName (text "vmware") = false
      · rw [if_pos hvmware, if_neg fun h => ?_]
        exact Bool.false_ne_true (hvmware.symm.trans (h.2 hseveral).1)
      · rw [if_neg hvmware]
        by_cases hvirtual : StrStrI c.adapter.AdapterName (text "virtual") = false
        · rw [if_pos hvirtual, if_neg fun h => ?_]
          exact Bool.false_ne_true (hvirtual.symm.trans (h.2 hseveral).2)
        · rw [if_neg hvirtual, if_pos]
          exact ⟨hzero, fun _ => ⟨Bool.not_eq_false _ ▸ hvmware, Bool.not_eq_false _ ▸ hvirtual⟩⟩
    · rw [if_neg hseveral, if_pos ⟨hzero, fun h => absurd h hseveral⟩]

theorem lanRound_eq (candidates : List Candidate) (current : Text × Text) (c : Candidate) :
    lanRound candidates.length current c.item =
      if Kept candidates NotVmware c then (c.item.strMAC, c.item.strIP) else current := by
  rw [lanRound]
  by_cases hzero : c.ip = text "0.0.0.0"
  · rw [if_neg fun h => h hzero, if_neg fun h => h.1 hzero]
  · have hne : c.item.strIP ≠ text "0.0.0.0" := hzero
    rw [if_pos hne]
    by_cases hseveral : 1 < candidates.length
    · rw [if_pos hseveral]
      by_cases hvmware : StrStrI c.item.strName (text "vmware") = false
      · rw [if_pos hvmware, if_pos ⟨hzero, fun _ => hvmware⟩]
      · rw [if_neg hvmware, if_neg fun h => hvmware (h.2 hseveral)]
    · rw [if_neg hseveral, if_pos ⟨hzero, fun h => absurd h hseveral⟩]

/-- `getInternetConnectedAddress` -/
theorem connected_iff (iIndex : Nat) :
    Promise (connectedCandidates inet_addr iIndex pAdapterInfo)
        (getInternetConnectedAddress inet_addr iIndex pAdapterInfo) ↔
      Chosen (connectedCandidates inet_addr iIndex pAdapterInfo) NamedVirtual := by
  rw [getInternetConnectedAddress, connectedLoop, List.foldl_map, List.length_map]
  generalize connectedCandidates inet_addr iIndex pAdapterInfo = candidates
  simp only [connectedRound_eq]
  exact promise_iff id (fun _ => rfl) rfl

/-- `GetInternetConnectLanAddress` -/
theorem lan_iff (ignoreGatewayAddress : Bool) (iIndex : Nat) :
    Promise (lanCandidates inet_addr ignoreGatewayAddress iIndex pAdapterInfo)
        ((GetInternetConnectLanAddress inet_addr ignoreGatewayAddress iIndex pAdapterInfo).elim []
          Prod.snd) ↔
      Chosen (lanCandidates inet_addr ignoreGatewayAddress iIndex pAdapterInfo) NotVmware := by
  rw [GetInternetConnectLanAddress]
  generalize lanCandidates inet_addr ignoreGatewayAddress iIndex pAdapterInfo = candidates
  have hloop : (match candidates.map Candidate.item with
      | [] => none
      | item :: vecLan => some (lanLoop (item :: vecLan))).elim [] Prod.snd =
        (lanLoop (candidates.map Candidate.item)).2 := by
    cases candidates <;> rfl
  rw [hloop, lanLoop, List.foldl_map, List.length_map]
  simp only [lanRound_eq]
  exact promise_iff Prod.snd (fun _ => rfl) rfl

/-- With several candidates the loop of `getIPAddress` finds none. -/
theorem gatewayLoop_several {size : Nat} (hseveral : 1 < size) (candidates : List Candidate)
    (ipaddress : Text) :
    gatewayLoop size (candidates.map fun c => (c.ip, macText c.adapter.Address)) ipaddress =
      ipaddress := by
  induction candidates with
  | nil => rfl
  | cons c candidates ih =>
    rw [List.map_cons, gatewayLoop, if_pos hseveral, if_pos (macText_notVmware c.adapter.Address),
      ih, ite_self]

/-- `getIPAddress` -/
theorem gateway_iff :
    Promise (gatewayCandidates inet_addr pAdapterInfo) (getIPAddress inet_addr pAdapterInfo) ↔
      ((∃ c ∈ gatewayCandidates inet_addr pAdapterInfo, Good c) →
        (gatewayCandidates inet_addr pAdapterInfo).length = 1) := by
  rw [getIPAddress]
  generalize gatewayCandidates inet_addr pAdapterInfo = candidates
  rw [Promise]
  refine forall_congr' fun hgood => ?_
  constructor
  · intro h
    by_contra hone
    have hseveral : 1 < candidates.length := by
      obtain ⟨g, hg, -⟩ := hgood
      have := List.length_pos_of_mem hg
      omega
    rw [gatewayLoop_several hseveral] at h
    exact isGoodAddress_ne_nil h rfl
  · intro hone
    obtain ⟨c, rfl⟩ := List.length_eq_one_iff.mp hone
    obtain ⟨g, hg, hgoodg⟩ := hgood
    obtain rfl := List.mem_singleton.mp hg
    have hzero : ¬ wcsicmpEq g.ip (text "0.0.0.0") = true := fun h =>
      hgoodg.2.1 ((zero_iff g).mp h)
    refine ⟨g, hg, hgoodg, ?_⟩
    rw [List.map_cons, gatewayLoop, if_neg hzero, if_neg (by rw [hone]; omega)]
    rfl

end Loops

/-- **The address of a real adapter is chosen exactly where there is a single candidate**, or, in
two of the functions, where the last candidate that passes their test has such an address. -/
theorem real_address_iff (inet_addr : Text → BitVec 32) (ignoreGatewayAddress : Bool)
    (iIndex : Nat) (pAdapterInfo : List IP_ADAPTER_INFO) :
    (Promise (connectedCandidates inet_addr iIndex pAdapterInfo)
        (getInternetConnectedAddress inet_addr iIndex pAdapterInfo) ↔
      Chosen (connectedCandidates inet_addr iIndex pAdapterInfo) NamedVirtual) ∧
    (Promise (gatewayCandidates inet_addr pAdapterInfo) (getIPAddress inet_addr pAdapterInfo) ↔
      ((∃ c ∈ gatewayCandidates inet_addr pAdapterInfo, Good c) →
        (gatewayCandidates inet_addr pAdapterInfo).length = 1)) ∧
    (Promise (lanCandidates inet_addr ignoreGatewayAddress iIndex pAdapterInfo)
        ((GetInternetConnectLanAddress inet_addr ignoreGatewayAddress iIndex pAdapterInfo).elim []
          Prod.snd) ↔
      Chosen (lanCandidates inet_addr ignoreGatewayAddress iIndex pAdapterInfo) NotVmware) :=
  ⟨connected_iff iIndex, gateway_iff, lan_iff ignoreGatewayAddress iIndex⟩

/-! ## A machine with two networks -/

instance : DecidablePred IsReal := fun _ => inferInstanceAs (Decidable (_ ∧ _))

instance : DecidablePred Good := fun _ => inferInstanceAs (Decidable (_ ∧ _ ∧ _))

/-- `inet_addr` of four numbers, the first one in the lowest byte. -/
def dottedAddress (s : Text) : BitVec 32 :=
  .ofNat 32 (((s.splitOn '.'.toNat).map Format.digitsValue).foldr (fun d acc => d + 256 * acc) 0)

/-- An adapter with two addresses in the network of its gateway, and one in another. -/
def twoNetworks : IP_ADAPTER_INFO where
  Index := 1
  type := MIB_IF_TYPE_ETHERNET
  AdapterName := text "\x7bA\x7d"
  Description := text "Ethernet"
  Address := fun _ => 17
  IpAddressList := ⟨text "192.168.0.5", text "255.255.255.0", by decide⟩
  Next := [⟨text "192.168.0.6", text "255.255.255.0", by decide⟩,
    ⟨text "10.0.0.5", text "255.0.0.0", by decide⟩]
  GatewayList := text "192.168.0.1"

/-- Another adapter with a gateway. -/
def secondAdapter : IP_ADAPTER_INFO where
  Index := 2
  type := IF_TYPE_IEEE80211
  AdapterName := text "\x7bB\x7d"
  Description := text "Wireless"
  Address := fun _ => 34
  IpAddressList := ⟨text "10.1.0.9", text "255.255.0.0", by decide⟩
  Next := []
  GatewayList := text "10.1.0.1"

/-- None of the three functions has an address for them. -/
theorem no_address_chosen :
    ¬ Promise (connectedCandidates dottedAddress 1 [twoNetworks, secondAdapter])
        (getInternetConnectedAddress dottedAddress 1 [twoNetworks, secondAdapter]) ∧
      ¬ Promise (gatewayCandidates dottedAddress [twoNetworks, secondAdapter])
        (getIPAddress dottedAddress [twoNetworks, secondAdapter]) ∧
      ¬ Promise (lanCandidates dottedAddress false 1 [twoNetworks, secondAdapter])
        ((GetInternetConnectLanAddress dottedAddress false 1 [twoNetworks, secondAdapter]).elim []
          Prod.snd) := by
  refine ⟨fun h => ?_, fun h => ?_, fun h => ?_⟩
  · exact isGoodAddress_ne_nil (h (by decide +kernel)) (by decide +kernel)
  · exact isGoodAddress_ne_nil (h (by decide +kernel)) (by decide +kernel)
  · exact isGoodAddress_ne_nil (h (by decide +kernel)) (by decide +kernel)

end IMonPlatform.AdapterAddress
