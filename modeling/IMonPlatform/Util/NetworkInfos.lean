import IMonPlatform.Lib.Doubling

/-!
# `GetNetworkInfos`

The function asks the system for the adapters with a buffer of 8192 bytes.  When that is too small
the system says how much is needed, and the function asks again with the double of it: adapters may
have come in between.  Then it goes through the lists of the adapters and makes a `NETWORK_INFO` of
each.

* `AdapterSystem` — what `malloc` and `GetAdaptersAddresses` answer to the k-th question.
* `askAdapters`, `GetNetworkInfos` — a round of the first loop, and the function.
* `networkInfo_eq` — what the loops over the lists of an adapter come to.
* `macText_injective` — the text of a physical address determines it.
* `Questioned` — the questions a call comes to: the ones before were refused.
* `network_infos_complete` — the function ends after at most 19 questions with all adapters of the
  last answer, and has lost the block of the last buffer.
-/

set_option autoImplicit false

namespace IMonPlatform.PCInfo

open Doubling

variable {Addr : Type}

/-! ## Data -/

inductive AddressFamily where
  | AF_INET
  | AF_INET6
  | other
  deriving DecidableEq

/-- What the function uses of Winsock. -/
structure Winsock (Addr : Type) where
  sa_family : Addr → AddressFamily
  inet_ntoa : Addr → List Char
  WSAAddressToStringA : Addr → List Char

/-- `IP_ADAPTER_ADDRESSES`, with the lists behind its pointers. -/
structure AdapterAddresses (Addr : Type) where
  IfIndex : Nat
  IfType : Nat
  Ipv6IfIndex : Nat
  AdapterName : List Char
  Description : List Char
  FriendlyName : List Char
  FirstUnicastAddress : List Addr
  FirstDnsServerAddress : List Addr
  /-- Its first `PhysicalAddressLength` bytes. -/
  PhysicalAddress : List UInt8

structure NETWORK_INFO where
  ipv4IfIndex : Nat
  ipv6IfIndex : Nat
  IfType : Nat
  adapterName : List Char
  description : List Char
  friendlyName : List Char
  macAddress : List Char
  vecUnicastIPv4 : List (List Char)
  vecUnicastIPv6 : List (List Char)
  vecDNSServerIPv4 : List (List Char)
  vecDNSServerIPv6 : List (List Char)
  vecGatewayIP : List (List Char)

/-! ## An adapter -/

/-- `%.2X` of a byte. -/
def hexByte (b : UInt8) : List Char :=
  [Nat.digitChar (b.toNat / 16), Nat.digitChar (b.toNat % 16)].map Char.toUpper

/-- The loop over the physical address. -/
def macLoop : List UInt8 → List Char → List Char
  | [], macAddress => macAddress
  | [b], macAddress => macAddress ++ hexByte b
  | b :: bytes, macAddress => macLoop bytes (macAddress ++ hexByte b ++ ['-'])

section Walk

variable (winsock : Winsock Addr)

/-- The loop over `FirstUnicastAddress`. -/
def unicastLoop : List Addr → NETWORK_INFO → NETWORK_INFO
  | [], info => info
  | a :: rest, info =>
    unicastLoop rest <|
      if winsock.sa_family a = .AF_INET then
        { info with vecUnicastIPv4 := info.vecUnicastIPv4 ++ [winsock.inet_ntoa a] }
      else if winsock.sa_family a = .AF_INET6 then
        { info with vecUnicastIPv6 := info.vecUnicastIPv6 ++ [winsock.WSAAddressToStringA a] }
      else info

/-- The loop over `FirstDnsServerAddress`. -/
def dnsLoop : List Addr → NETWORK_INFO → NETWORK_INFO
  | [], info => info
  | a :: rest, info =>
    dnsLoop rest <|
      let dnsServer := winsock.WSAAddressToStringA a
      if winsock.sa_family a = .AF_INET then
        { info with vecDNSServerIPv4 := info.vecDNSServerIPv4 ++ [dnsServer] }
      else if winsock.sa_family a = .AF_INET6 then
        { info with vecDNSServerIPv6 := info.vecDNSServerIPv6 ++ [dnsServer] }
      else info

/-- The body of the loop over the adapters. -/
def networkInfo (a : AdapterAddresses Addr) : NETWORK_INFO :=
  let info : NETWORK_INFO := ⟨a.IfIndex, a.Ipv6IfIndex, a.IfType, a.AdapterName, a.Description,
    a.FriendlyName, [], [], [], [], [], []⟩
  let info := unicastLoop winsock a.FirstUnicastAddress info
  let info := dnsLoop winsock a.FirstDnsServerAddress info
  if a.PhysicalAddress.length ≠ 0 then
    { info with macAddress := macLoop a.PhysicalAddress info.macAddress }
  else info

end Walk

/-! ## The function -/

/-- What `GetAdaptersAddresses` answers. -/
inductive Reply (Addr : Type) where
  | success (adapters : List (AdapterAddresses Addr))
  /-- `ERROR_BUFFER_OVERFLOW`, with the size that is stored in `nOutBufferLen`. -/
  | overflow (required : Nat)
  | error

/-- The answers to the k-th question with a size. -/
structure AdapterSystem (Addr : Type) where
  malloc : Nat → Nat → Bool
  GetAdaptersAddresses : Nat → Nat → Reply Addr

/-- Behind the first loop: the adapters to go through, and whether `pAddresses` is a block. -/
structure Asked (Addr : Type) where
  adapters : List (AdapterAddresses Addr)
  allocated : Bool

section Function

variable (winsock : Winsock Addr) (sys : AdapterSystem Addr)

/-- A round of the first loop; the length is a `ULONG`. -/
def askAdapters (k nOutBufferLen : Nat) : Asked Addr ⊕ Nat :=
  if sys.malloc k nOutBufferLen = false then .inl ⟨[], false⟩
  else
    match sys.GetAdaptersAddresses k nOutBufferLen with
    | .success adapters => .inl ⟨adapters, true⟩
    | .overflow required => .inr ((required + required) % 2 ^ 32)
    | .error => .inl ⟨[], true⟩

/-- The result, and whether a block is left behind; `none` is a loop with more rounds. -/
def GetNetworkInfos : Option (List NETWORK_INFO × Bool) :=
  (retry (askAdapters sys) 19 0 8192).map fun asked =>
    (asked.adapters.foldl (fun vecResult a => vecResult ++ [networkInfo winsock a]) [],
      asked.allocated)

/-- A refusal says how much is needed, and that can be addressed. -/
def Documented : Prop :=
  ∀ k size required, sys.GetAdaptersAddresses k size = .overflow required →
    size < required ∧ required < 2 ^ 31

/-- What a `NETWORK_INFO` is to hold. -/
def described (a : AdapterAddresses Addr) : NETWORK_INFO where
  ipv4IfIndex := a.IfIndex
  ipv6IfIndex := a.Ipv6IfIndex
  IfType := a.IfType
  adapterName := a.AdapterName
  description := a.Description
  friendlyName := a.FriendlyName
  macAddress := ['-'].intercalate (a.PhysicalAddress.map hexByte)
  vecUnicastIPv4 := (a.FirstUnicastAddress.filter (winsock.sa_family · = .AF_INET)).map
    winsock.inet_ntoa
  vecUnicastIPv6 := (a.FirstUnicastAddress.filter (winsock.sa_family · = .AF_INET6)).map
    winsock.WSAAddressToStringA
  vecDNSServerIPv4 := (a.FirstDnsServerAddress.filter (winsock.sa_family · = .AF_INET)).map
    winsock.WSAAddressToStringA
  vecDNSServerIPv6 := (a.FirstDnsServerAddress.filter (winsock.sa_family · = .AF_INET6)).map
    winsock.WSAAddressToStringA
  vecGatewayIP := []

end Function

/-! ## The lists of an adapter -/

section Lists

variable (winsock : Winsock Addr)

theorem unicastLoop_eq : ∀ (addresses : List Addr) (info : NETWORK_INFO),
    unicastLoop winsock addresses info = { info with
      vecUnicastIPv4 := info.vecUnicastIPv4 ++
        (addresses.filter (winsock.sa_family · = .AF_INET)).map winsock.inet_ntoa
      vecUnicastIPv6 := info.vecUnicastIPv6 ++
        (addresses.filter (winsock.sa_family · = .AF_INET6)).map winsock.WSAAddressToStringA }
  | [], info => by simp [unicastLoop]
  | a :: rest, info => by
    rw [unicastLoop, unicastLoop_eq rest]
    cases hfamily : winsock.sa_family a <;> simp [hfamily]

theorem dnsLoop_eq : ∀ (addresses : List Addr) (info : NETWORK_INFO),
    dnsLoop winsock addresses info = { info with
      vecDNSServerIPv4 := info.vecDNSServerIPv4 ++
        (addresses.filter (winsock.sa_family · = .AF_INET)).map winsock.WSAAddressToStringA
      vecDNSServerIPv6 := info.vecDNSServerIPv6 ++
        (addresses.filter (winsock.sa_family · = .AF_INET6)).map winsock.WSAAddressToStringA }
  | [], info => by simp [dnsLoop]
  | a :: rest, info => by
    rw [dnsLoop, dnsLoop_eq rest]
    cases hfamily : winsock.sa_family a <;> simp [hfamily]

/-- A dash stands between two bytes. -/
theorem macLoop_eq : ∀ (bytes : List UInt8) (macAddress : List Char),
    macLoop bytes macAddress = macAddress ++ ['-'].intercalate (bytes.map hexByte)
  | [], _ => by simp [macLoop]
  | [b], _ => by simp [macLoop]
  | b :: c :: bytes, macAddress => by
    rw [macLoop, macLoop_eq (c :: bytes)]
    · simp [List.intercalate]
    · exact fun h => by cases h

/-- **The info of an adapter** holds its addresses by family, in their order. -/
theorem networkInfo_eq (a : AdapterAddresses Addr) :
    networkInfo winsock a = described winsock a := by
  unfold networkInfo
  simp only [unicastLoop_eq, dnsLoop_eq, macLoop_eq, List.nil_append]
  split
  · rfl
  · rename_i hempty
    have hnil : a.PhysicalAddress = [] :=
      List.eq_nil_of_length_eq_zero (Decidable.not_not.mp hempty)
    simp [described, hnil]

end Lists

/-! ## Physical addresses -/

/-- The text of a physical address. -/
def macText (bytes : List UInt8) : List Char := ['-'].intercalate (bytes.map hexByte)

theorem macText_cons (b c : UInt8) (bytes : List UInt8) :
    macText (b :: c :: bytes) = hexByte b ++ '-' :: macText (c :: bytes) := by
  simp [macText, List.intercalate]

theorem macText_single (b : UInt8) : macText [b] = hexByte b := by
  simp [macText, List.intercalate]

theorem hexDigit_injective : ∀ d < 16, ∀ e < 16,
    (Nat.digitChar d).toUpper = (Nat.digitChar e).toUpper → d = e := by decide

theorem hexByte_injective {b c : UInt8} (h : hexByte b = hexByte c) : b = c := by
  simp only [hexByte, List.map_cons, List.map_nil, List.cons.injEq, and_true] at h
  have hb := b.toNat_lt
  have hc := c.toNat_lt
  have hhigh := hexDigit_injective (b.toNat / 16) (by omega) (c.toNat / 16) (by omega) h.1
  have hlow := hexDigit_injective (b.toNat % 16) (by omega) (c.toNat % 16) (by omega) h.2
  exact UInt8.toNat_inj.mp (by omega)

/-- **The text of a physical address determines it.** -/
theorem macText_injective : ∀ {as bs : List UInt8}, macText as = macText bs → as = bs
  | [], [], _ => rfl
  | [], [b], h | [b], [], h => by simp [macText, hexByte] at h
  | [], b :: c :: bs, h | b :: c :: bs, [], h => by
    rw [macText_cons] at h
    simp [macText, hexByte] at h
  | [a], [b], h => by
    rw [macText_single, macText_single] at h
    rw [hexByte_injective h]
  | [a], b :: c :: bs, h | b :: c :: bs, [a], h => by
    rw [macText_single, macText_cons] at h
    simp [hexByte] at h
  | a :: a' :: as, b :: b' :: bs, h => by
    rw [macText_cons, macText_cons] at h
    obtain ⟨hbyte, hrest⟩ := List.append_inj h rfl
    rw [hexByte_injective hbyte, macText_injective (List.cons.inj hrest).2]

/-! ## The result -/

/-- What a question came to that is asked again. -/
theorem askAdapters_again {sys : AdapterSystem Addr} {k size next : Nat}
    (hask : askAdapters sys k size = .inr next) :
    ∃ required, sys.malloc k size = true ∧
      sys.GetAdaptersAddresses k size = .overflow required ∧
      next = (required + required) % 2 ^ 32 := by
  unfold askAdapters at hask
  split at hask
  · cases hask
  · rename_i hmalloc
    rw [Bool.not_eq_false] at hmalloc
    split at hask
    · cases hask
    · rename_i required hreply
      cases hask
      exact ⟨required, hmalloc, hreply, rfl⟩
    · cases hask

/-- The k-th question of a call: the first one has a buffer of 8192 bytes, every other one the
double of what the refusal of the one before said. -/
inductive Questioned (sys : AdapterSystem Addr) : Nat → Nat → Prop where
  | first : Questioned sys 0 8192
  | again {k size required : Nat} (h : Questioned sys k size) (hmalloc : sys.malloc k size = true)
      (hrefused : sys.GetAdaptersAddresses k size = .overflow required) :
      Questioned sys (k + 1) (2 * required)

/-- The double of what is needed, as the `ULONG` holds it. -/
theorem double_required {sys : AdapterSystem Addr} (h : Documented sys) {k size required : Nat}
    (hreply : sys.GetAdaptersAddresses k size = .overflow required) :
    (required + required) % 2 ^ 32 = 2 * required := by
  have hmax := (h k size required hreply).2
  rw [Nat.mod_eq_of_lt (by omega), Nat.two_mul]

/-- A refused question is asked again with the double of what is needed. -/
theorem askAdapters_refused {sys : AdapterSystem Addr} (h : Documented sys) {k size next : Nat}
    (hask : askAdapters sys k size = .inr next) : size < 2 ^ 31 ∧ 2 * size ≤ next := by
  obtain ⟨required, -, hreply, rfl⟩ := askAdapters_again hask
  rw [double_required h hreply]
  obtain ⟨hlt, hmax⟩ := h k size required hreply
  omega

theorem questioned_of_posed {sys : AdapterSystem Addr} (h : Documented sys) {k size : Nat}
    (hposed : Posed (askAdapters sys) 0 8192 k size) : Questioned sys k size := by
  induction hposed with
  | first => exact .first
  | again _ hask ih =>
    obtain ⟨required, hmalloc, hreply, rfl⟩ := askAdapters_again hask
    rw [double_required h hreply]
    exact ih.again hmalloc hreply

/-- The last question of a call. -/
inductive LastQuestion (winsock : Winsock Addr) (sys : AdapterSystem Addr) (k size : Nat) :
    List NETWORK_INFO → Bool → Prop where
  /-- No buffer could be had. -/
  | noBuffer (hmalloc : sys.malloc k size = false) : LastQuestion winsock sys k size [] false
  /-- All adapters of the answer are there, and the buffer is lost. -/
  | answered {adapters : List (AdapterAddresses Addr)} (hmalloc : sys.malloc k size = true)
      (hreply : sys.GetAdaptersAddresses k size = .success adapters) :
      LastQuestion winsock sys k size (adapters.map (described winsock)) true
  | failed (hmalloc : sys.malloc k size = true)
      (hreply : sys.GetAdaptersAddresses k size = .error) :
      LastQuestion winsock sys k size [] true

theorem foldl_push {β γ : Type} (f : β → γ) (xs : List β) (done : List γ) :
    xs.foldl (fun ys x => ys ++ [f x]) done = done ++ xs.map f := by
  induction xs generalizing done with
  | nil => exact (List.append_nil done).symm
  | cons x xs ih => rw [List.foldl_cons, ih, List.append_assoc]; rfl

theorem askAdapters_last (winsock : Winsock Addr) {sys : AdapterSystem Addr} {k size : Nat}
    {asked : Asked Addr} (hask : askAdapters sys k size = .inl asked) :
    LastQuestion winsock sys k size (asked.adapters.map (described winsock)) asked.allocated := by
  unfold askAdapters at hask
  split at hask
  · rename_i hmalloc
    cases hask
    exact .noBuffer hmalloc
  · rename_i hmalloc
    rw [Bool.not_eq_false] at hmalloc
    split at hask
    · rename_i hreply
      cases hask
      exact .answered hmalloc hreply
    · cases hask
    · rename_i hreply
      cases hask
      exact .failed hmalloc hreply

/-- **`GetNetworkInfos` ends and is complete**, however the adapters change between its questions:
    the last of at most 19 of them, each but the last refused and each with the double of what the
    refusal before asked for, gives the result, which has an info for each adapter of its answer, in
    their order, with the addresses sorted by family and a text that determines the physical
    address; and unless it could not get a buffer it has lost the last one. -/
theorem network_infos_complete (winsock : Winsock Addr) (sys : AdapterSystem Addr)
    (h : Documented sys) :
    (∃ infos lost, GetNetworkInfos winsock sys = some (infos, lost) ∧
      ∃ k < 19, ∃ size, Questioned sys k size ∧ LastQuestion winsock sys k size infos lost) ∧
    ∀ a b : AdapterAddresses Addr, (networkInfo winsock a).macAddress =
      (networkInfo winsock b).macAddress ↔ a.PhysicalAddress = b.PhysicalAddress := by
  refine ⟨?_, fun a b => ?_⟩
  · obtain ⟨asked, hasked⟩ := @retry_ends _ (askAdapters sys) (2 ^ 31)
      (fun k size next hask => (askAdapters_refused h hask).2)
      (fun k size next hask => (askAdapters_refused h hask).1) 18 0 8192 (by decide)
    obtain ⟨k, hk, size, hposed, hask⟩ := retry_some Posed.first hasked
    rw [Nat.zero_add] at hposed hask
    refine ⟨asked.adapters.map (described winsock), asked.allocated, ?_, k, hk, size,
      questioned_of_posed h hposed, askAdapters_last winsock hask⟩
    have hinfos : asked.adapters.map (networkInfo winsock) =
        asked.adapters.map (described winsock) :=
      List.map_congr_left fun a _ => networkInfo_eq winsock a
    rw [GetNetworkInfos, hasked, Option.map_some, foldl_push, List.nil_append, ← hinfos]
  · rw [networkInfo_eq, networkInfo_eq]
    exact ⟨fun hmac => macText_injective hmac, fun hsame => by rw [described, described, hsame]⟩

/-- Socket addresses by their family and their text. -/
def textWinsock : Winsock (AddressFamily × List Char) where
  sa_family := Prod.fst
  inet_ntoa := Prod.snd
  WSAAddressToStringA := Prod.snd

/-- An adapter with addresses of both families and one of neither. -/
def etherAdapter : AdapterAddresses (AddressFamily × List Char) where
  IfIndex := 3
  IfType := 6
  Ipv6IfIndex := 3
  AdapterName := ['e', '0']
  Description := ['e', 't', 'h', 'e', 'r']
  FriendlyName := ['L', 'A', 'N']
  FirstUnicastAddress := [(.AF_INET6, ['f', 'e', '8', '0', ':', ':', '1']),
    (.AF_INET, ['1', '0', '.', '0', '.', '0', '.', '2']), (.other, [])]
  FirstDnsServerAddress := [(.AF_INET, ['1', '0', '.', '0', '.', '0', '.', '1'])]
  PhysicalAddress := [0, 255, 16, 1, 2, 3]

/-- A system whose adapters need 9000 bytes. -/
def etherSystem : AdapterSystem (AddressFamily × List Char) where
  malloc _ _ := true
  GetAdaptersAddresses _ size := if size < 9000 then .overflow 9000 else .success [etherAdapter]

theorem etherSystem_documented : Documented etherSystem := by
  intro k size required hreply
  simp only [etherSystem] at hreply
  split at hreply
  · cases hreply
    exact ⟨by assumption, by decide⟩
  · cases hreply

/-- The second question, with 18000 bytes, is answered. -/
theorem network_infos_complete_ether :
    (∃ infos lost, GetNetworkInfos textWinsock etherSystem = some (infos, lost) ∧
      ∃ k < 19, ∃ size, Questioned etherSystem k size ∧
        LastQuestion textWinsock etherSystem k size infos lost) ∧
    GetNetworkInfos textWinsock etherSystem = some ([described textWinsock etherAdapter], true) :=
  ⟨(network_infos_complete textWinsock etherSystem etherSystem_documented).1, rfl⟩

example : (networkInfo textWinsock etherAdapter).vecUnicastIPv4 =
    [['1', '0', '.', '0', '.', '0', '.', '2']] := by
  decide

example : (networkInfo textWinsock etherAdapter).macAddress =
    ['0', '0', '-', 'F', 'F', '-', '1', '0', '-', '0', '1', '-', '0', '2', '-', '0', '3'] := by
  decide

end IMonPlatform.PCInfo
