import Pyscan.Domain.Packet

/-!
# Where the ports of a packet come from

`carried` is the IP packet a frame holds behind its link header and `transport`
the protocol and the bytes the network decoders hand on, both read off the
header fields with no decoder run. `decode_readsPorts` says that a decoded
packet has ports exactly when those bytes are long enough for a TCP or a UDP
header. Nothing on that way looks at the header length of an IPv4 packet or at
a fragment offset, so ports are read from a `Sound` network header except where
the frame is `Mistaken`. A sound IPv6 packet has no later fragment among the
headers walked, nor among those of its extension chain as the format counts them:
behind an Authentication Header the two are not the same.
-/

namespace Pyscan.Packet

open Py

/-! ## Header fields -/

def octet (d : Bytes) (i : Nat) : Nat := (d.getD i 0).toNat

def word (d : Bytes) (i : Nat) : Nat := u16 (d.getD i 0) (d.getD (i + 1) 0)

theorem index_octet {d : Bytes} {i : Nat} (h : i < d.length) :
    ∃ b, index d i = .ok b ∧ b.toNat = octet d i := ⟨_, index_getD h, rfl⟩

theorem unpackH_word {d : Bytes} {i : Nat} (h : i + 2 ≤ d.length) :
    unpackH (slice d i (i + 2)) = .ok (word d i) := by
  have hi : i < d.length := by omega
  have hs : slice d i (i + 2) = [d[i], d[i + 1]] := by
    rw [slice, List.take_add, List.drop_append, List.length_take, Nat.min_eq_left (by omega),
      Nat.sub_self, List.drop_zero, List.drop_eq_nil_of_le (by simp), List.nil_append,
      List.drop_eq_getElem_cons hi, List.drop_eq_getElem_cons h]
    rfl
  rw [hs, unpackH, word]
  simp only [List.getD_eq_getElem?_getD, List.getElem?_eq_getElem hi, List.getElem?_eq_getElem h,
    Option.getD_some]

/-! ## The extension walk, read off the bytes -/

/-- The bytes the walk steps over, `none` where it stops. -/
def extensionSize (code : Nat) (body : Bytes) : Option Nat :=
  if code ∈ v6ExtVariable ∧ 2 ≤ body.length then some ((octet body 1 + 1) * 8)
  else if code ∈ v6ExtFixed8 ∧ 8 ≤ body.length then some 8
  else none

/-- The headers walked, each as its code and the bytes from it on. -/
def walked : Nat → Nat → Bytes → List (Nat × Bytes)
  | 0, _, _ => []
  | n + 1, code, body =>
    match extensionSize code body with
    | some size => (code, body) :: walked n (octet body 0) (body.drop size)
    | none => []

/-- The code and the bytes behind the last header walked. -/
def walkEnd : Nat → Nat → Bytes → Nat × Bytes
  | 0, code, body => (code, body)
  | n + 1, code, body =>
    match extensionSize code body with
    | some size => walkEnd n (octet body 0) (body.drop size)
    | none => (code, body)

theorem skipV6Extensions_walkEnd (n code : Nat) (body : Bytes) :
    skipV6Extensions n code body = .ok (walkEnd n code body) := by
  induction n generalizing code body with
  | zero => rfl
  | succ n ih =>
    unfold skipV6Extensions walkEnd extensionSize
    split
    · rename_i hvar
      obtain ⟨b1, e1, h1⟩ := index_octet (d := body) (i := 1) (by omega)
      obtain ⟨b0, e0, h0⟩ := index_octet (d := body) (i := 0) (by omega)
      rw [e1, ok_bind, e0, ok_bind, h1, h0]
      exact ih _ _
    · split
      · rename_i hfix
        obtain ⟨b0, e0, h0⟩ := index_octet (d := body) (i := 0) (by omega)
        rw [e0, ok_bind, h0]
        exact ih _ _
      · rfl

/-! ## The extension chain of the packet -/

/-- The size of the extension header at the front: an Authentication Header counts four-byte words
less two, the others eight-byte units less one. -/
def headerSize (code : Nat) (body : Bytes) : Option Nat :=
  if code = 51 ∧ 2 ≤ body.length then some ((octet body 1 + 2) * 4)
  else if code ∈ [0, 43, 60] ∧ 2 ≤ body.length then some ((octet body 1 + 1) * 8)
  else if code = 44 ∧ 8 ≤ body.length then some 8
  else none

/-- `h`, a code and the bytes from it on, is an extension header of the chain that starts with
`code` at the front of `body`. -/
inductive InChain : (code : Nat) → (body : Bytes) → (h : Nat × Bytes) → Prop
  | here {code : Nat} {body : Bytes} {size : Nat} (whole : headerSize code body = some size) :
      InChain code body (code, body)
  | further {code : Nat} {body : Bytes} {size : Nat} {h : Nat × Bytes}
      (whole : headerSize code body = some size)
      (next : InChain (octet body 0) (body.drop size) h) : InChain code body h

/-! ## The network header -/

def ihl (ip : Bytes) : Nat := octet ip 0 % 16

/-- The 13-bit fragment offset of an IPv4 header, in units of eight bytes. -/
def fragmentOffset (ip : Bytes) : Nat := word ip 6 % 8192

/-- What an IPv4 packet carries behind `ihl` words. -/
def v4Body (ip : Bytes) : Bytes :=
  if 20 ≤ word ip 2 ∧ word ip 2 ≤ ip.length then slice ip (ihl ip * 4) (word ip 2)
  else ip.drop (ihl ip * 4)

/-- What an IPv6 packet carries behind its fixed header. -/
def v6Body (ip : Bytes) : Bytes :=
  slice ip 40 (if 40 + word ip 4 ≤ ip.length then 40 + word ip 4 else ip.length)

/-- The protocol number and the bytes taken for its header. -/
def transport (ip : Bytes) : Option (Nat × Bytes) :=
  if octet ip 0 / 16 = 4 ∧ 20 ≤ ip.length then some (octet ip 9, v4Body ip)
  else if octet ip 0 / 16 = 6 ∧ 40 ≤ ip.length then some (walkEnd 8 (octet ip 6) (v6Body ip))
  else none

/-- A network header that introduces a transport header: of IPv4, no shorter than its fixed part
and no later fragment; of IPv6, with no later fragment among the headers walked or among those of
its extension chain. -/
structure Sound (ip : Bytes) : Prop where
  v4 : octet ip 0 / 16 = 4 → 5 ≤ ihl ip ∧ fragmentOffset ip = 0
  v6 : octet ip 0 / 16 = 6 →
    ∀ h ∈ walked 8 (octet ip 6) (v6Body ip), h.1 = 44 → word h.2 2 / 8 = 0
  chain : octet ip 0 / 16 = 6 →
    ∀ h, InChain (octet ip 6) (v6Body ip) h → h.1 = 44 → word h.2 2 / 8 = 0

/-- Enough bytes for a header of protocol `t.1`. -/
def Complete (t : Nat × Bytes) : Prop := t.1 = 6 ∧ 20 ≤ t.2.length ∨ t.1 = 17 ∧ 8 ≤ t.2.length

instance (t : Nat × Bytes) : Decidable (Complete t) := by unfold Complete; infer_instance

/-- The bytes taken for the transport header are long enough for one. -/
def Ported (ip : Bytes) : Prop := ∃ t ∈ transport ip, Complete t

instance (ip : Bytes) : Decidable (Ported ip) := inferInstanceAs (Decidable (∃ t ∈ transport ip, _))

/-! ## The link header -/

def ofEthertype (ethertype : Nat) (payload : Bytes) : Option Bytes :=
  if ethertype = 0x0800 ∨ ethertype = 0x86DD then some payload else none

/-- The IP packet a frame carries. -/
def carried (linktype : Nat) (data : Bytes) : Option Bytes :=
  if linktype = linktypeEthernet then
    if data.length < 14 then none
    else if word data 12 = 0x8100 ∧ 18 ≤ data.length then ofEthertype (word data 16) (data.drop 18)
    else ofEthertype (word data 12) (data.drop 14)
  else if linktype = linktypeLinuxSll then
    if data.length < 16 then none else ofEthertype (word data 14) (data.drop 16)
  else if linktype = linktypeRaw then some data
  else none

/-! ## When a decoder reports ports -/

def ReadsPorts (p : Packet) : Prop := p.sport ≠ none ∨ p.dport ≠ none

theorem not_readsPorts {p : Packet} (hs : p.sport = none) (hd : p.dport = none) :
    ¬ ReadsPorts p := by
  rintro (h | h)
  · exact h hs
  · exact h hd

section Decoders

variable {data : Bytes} {ts : ℚ} {length version : Nat} {src dst : String}

theorem decodeTcp_readsPorts :
    Yields (decodeTcp data ts length src dst version) fun p =>
      ReadsPorts p ↔ 20 ≤ data.length := by
  unfold decodeTcp
  split
  · exact yields_ok (iff_of_false (not_readsPorts rfl rfl) (by omega))
  · have hlen : 20 ≤ data.length := by omega
    refine (unpackHH_yields (length_slice_of_le (by omega))).bind fun ports _ => ?_
    refine (index_yields (by omega)).bind fun b12 _ => ?_
    refine (index_yields (by omega)).bind fun b13 _ => ?_
    exact yields_ok (iff_of_true (.inl nofun) hlen)

theorem decodeUdp_readsPorts :
    Yields (decodeUdp data ts length src dst version) fun p =>
      ReadsPorts p ↔ 8 ≤ data.length := by
  unfold decodeUdp
  split
  · exact yields_ok (iff_of_false (not_readsPorts rfl rfl) (by omega))
  · have hlen : 8 ≤ data.length := by omega
    refine (unpackHHH_yields (length_slice_of_le (by omega))).bind fun ports _ => ?_
    exact yields_ok (iff_of_true (.inl nofun) hlen)

theorem decodeIcmp_readsPorts {name : String} :
    Yields (decodeIcmp data ts length src dst version name) fun p => ¬ ReadsPorts p := by
  unfold decodeIcmp
  split
  · exact yields_ok (not_readsPorts rfl rfl)
  · refine (index_yields (by omega)).bind fun b0 _ => ?_
    refine (index_yields (by omega)).bind fun b1 _ => ?_
    exact yields_ok (not_readsPorts rfl rfl)

/-- A protocol number outside the table names no table entry. -/
theorem unlisted_ne {s t : String} (h : ¬ "IP/".toList <+: t.toList) : "IP/" ++ s ≠ t := by
  rintro rfl
  exact h ⟨s.toList, (String.toList_append).symm⟩

theorem protocol_name (proto : Nat) :
    proto = 1 ∨ proto = 6 ∨ proto = 17 ∨ proto = 58 ∨
      (proto ≠ 6 ∧ proto ≠ 17 ∧
        (ipProto.lookup proto).getD ("IP/" ++ toString proto) = "IP/" ++ toString proto) := by
  by_cases h1 : proto = 1
  · exact .inl h1
  by_cases h6 : proto = 6
  · exact .inr (.inl h6)
  by_cases h17 : proto = 17
  · exact .inr (.inr (.inl h17))
  by_cases h58 : proto = 58
  · exact .inr (.inr (.inr (.inl h58)))
  refine .inr (.inr (.inr (.inr ⟨h6, h17, ?_⟩)))
  simp [ipProto, List.lookup, beq_eq_false_iff_ne.mpr h1, beq_eq_false_iff_ne.mpr h6,
    beq_eq_false_iff_ne.mpr h17, beq_eq_false_iff_ne.mpr h58]

theorem decodeTransport_readsPorts (proto : Nat) :
    Yields (decodeTransport proto data ts length src dst version) fun p =>
      ReadsPorts p ↔ Complete (proto, data) := by
  have icmp : ∀ {name : String}, proto ≠ 6 → proto ≠ 17 →
      Yields (decodeIcmp data ts length src dst version name) fun p =>
        ReadsPorts p ↔ Complete (proto, data) := by
    intro name h6 h17
    obtain ⟨p, e, hp⟩ := @decodeIcmp_readsPorts data ts length version src dst name
    exact ⟨p, e, iff_of_false hp (by simp [Complete, h6, h17])⟩
  rcases protocol_name proto with rfl | rfl | rfl | rfl | ⟨h6, h17, hname⟩
  · exact icmp (by decide) (by decide)
  · obtain ⟨p, e, hp⟩ := @decodeTcp_readsPorts data ts length version src dst
    exact ⟨p, e, by simpa [Complete] using hp⟩
  · obtain ⟨p, e, hp⟩ := @decodeUdp_readsPorts data ts length version src dst
    exact ⟨p, e, by simpa [Complete] using hp⟩
  · exact icmp (by decide) (by decide)
  · have hnone : ¬ Complete (proto, data) := by simp [Complete, h6, h17]
    simp only [decodeTransport, hname]
    rw [if_neg (unlisted_ne (by decide)), if_neg (unlisted_ne (by decide)),
      if_neg (not_or.mpr ⟨unlisted_ne (by decide), unlisted_ne (by decide)⟩)]
    split <;> exact yields_ok (iff_of_false (not_readsPorts rfl rfl) hnone)

theorem decodeIpv4_readsPorts (hv : octet data 0 / 16 = 4) :
    Yields (decodeIpv4 data ts length) fun p => ReadsPorts p ↔ Ported data := by
  unfold decodeIpv4
  split
  · have hshort : transport data = none := by
      rw [transport, if_neg (by omega), if_neg (by omega)]
    exact yields_ok (iff_of_false (not_readsPorts rfl rfl) (by simp [Ported, hshort]))
  · have hlen : 20 ≤ data.length := by omega
    have hported : Ported data ↔ Complete (octet data 9, v4Body data) := by
      simp [Ported, transport, hv, hlen]
    obtain ⟨b0, e0, h0⟩ := index_octet (d := data) (i := 0) (by omega)
    obtain ⟨b9, e9, h9⟩ := index_octet (d := data) (i := 9) (by omega)
    have hihl : (b0.toNat &&& 0x0F) * 4 = ihl data * 4 := by
      rw [h0, Nat.and_two_pow_sub_one_eq_mod _ 4]
      rfl
    rw [e0, ok_bind, e9, ok_bind, h9, hported]
    refine (inetNtoa_yields (length_slice_of_le (by omega))).bind fun src _ => ?_
    refine (inetNtoa_yields (length_slice_of_le (by omega))).bind fun dst _ => ?_
    rw [unpackH_word (by omega), ok_bind, hihl]
    exact decodeTransport_readsPorts _

theorem decodeIpv6_readsPorts (hv : octet data 0 / 16 = 6) :
    Yields (decodeIpv6 data ts length) fun p => ReadsPorts p ↔ Ported data := by
  unfold decodeIpv6
  split
  · have hshort : transport data = none := by
      rw [transport, if_neg (by omega), if_neg (by omega)]
    exact yields_ok (iff_of_false (not_readsPorts rfl rfl) (by simp [Ported, hshort]))
  · have hlen : 40 ≤ data.length := by omega
    have hported : Ported data ↔ Complete (walkEnd 8 (octet data 6) (v6Body data)) := by
      simp [Ported, transport, hv, hlen]
    obtain ⟨b6, e6, h6⟩ := index_octet (d := data) (i := 6) (by omega)
    rw [unpackH_word (by omega), ok_bind, hported]
    refine (inetNtop_yields (length_slice_of_le (by omega))).bind fun src _ => ?_
    refine (inetNtop_yields (length_slice_of_le (by omega))).bind fun dst _ => ?_
    rw [e6, ok_bind, h6]
    dsimp only
    rw [skipV6Extensions_walkEnd, ok_bind]
    exact decodeTransport_readsPorts _

theorem decodeIp_readsPorts :
    Yields (decodeIp data ts length) fun p => ReadsPorts p ↔ Ported data := by
  unfold decodeIp
  split
  · rename_i hnil
    subst hnil
    exact yields_ok (iff_of_false (not_readsPorts rfl rfl) (by decide))
  · have hlen : 0 < data.length := List.length_pos_iff.mpr ‹_›
    obtain ⟨b0, e0, h0⟩ := index_octet hlen
    rw [e0, ok_bind, h0, Nat.shiftRight_eq_div_pow]
    dsimp only
    split
    · exact decodeIpv4_readsPorts ‹_›
    · split
      · exact decodeIpv6_readsPorts ‹_›
      · rename_i h4 h6
        have hother : transport data = none := by
          rw [transport, if_neg (fun h => h4 h.1), if_neg (fun h => h6 h.1)]
        exact yields_ok (iff_of_false (not_readsPorts rfl rfl) (by simp [Ported, hother]))

theorem decodeEthertype_readsPorts (ethertype : Nat) :
    Yields (decodeEthertype ethertype data ts length) fun p =>
      ReadsPorts p ↔ ∃ ip ∈ ofEthertype ethertype data, Ported ip := by
  unfold decodeEthertype ofEthertype
  split
  · simpa using decodeIp_readsPorts
  · split <;> exact yields_ok (iff_of_false (not_readsPorts rfl rfl) (by simp))

theorem decodeEthernet_readsPorts :
    Yields (decodeEthernet data ts length) fun p =>
      ReadsPorts p ↔ ∃ ip ∈ carried linktypeEthernet data, Ported ip := by
  unfold decodeEthernet carried
  rw [if_pos rfl]
  split
  · exact yields_ok (iff_of_false (not_readsPorts rfl rfl) (by simp))
  · rw [unpackH_word (by omega), ok_bind]
    split
    · rw [unpackH_word (by omega), ok_bind]
      exact decodeEthertype_readsPorts _
    · exact decodeEthertype_readsPorts _

theorem decodeLinuxSll_readsPorts :
    Yields (decodeLinuxSll data ts length) fun p =>
      ReadsPorts p ↔ ∃ ip ∈ carried linktypeLinuxSll data, Ported ip := by
  have hcarried : carried linktypeLinuxSll data =
      if data.length < 16 then none else ofEthertype (word data 14) (data.drop 16) := rfl
  rw [hcarried]
  unfold decodeLinuxSll
  split
  · exact yields_ok (iff_of_false (not_readsPorts rfl rfl) (by simp))
  · rw [unpackH_word (by omega), ok_bind]
    exact decodeEthertype_readsPorts _

end Decoders

/-- **A decoded packet has ports** exactly when the bytes behind the network header are long enough
for the transport header its protocol number names. -/
theorem decode_readsPorts (data : Bytes) (linktype : Nat) (ts : ℚ) :
    ReadsPorts (decode data linktype ts) ↔ ∃ ip ∈ carried linktype data, Ported ip := by
  have decode_ok : ∀ {x : Result Packet} {Q : Prop}, decodeBody data linktype ts = some <$> x →
      Yields x (fun p => ReadsPorts p ↔ Q) → (ReadsPorts (decode data linktype ts) ↔ Q) := by
    rintro x Q e ⟨p, rfl, hp⟩
    rw [decode, e]
    exact hp
  by_cases he : linktype = linktypeEthernet
  · subst he
    exact decode_ok rfl decodeEthernet_readsPorts
  by_cases hs : linktype = linktypeLinuxSll
  · subst hs
    exact decode_ok rfl decodeLinuxSll_readsPorts
  by_cases hr : linktype = linktypeRaw
  · subst hr
    refine decode_ok rfl ?_
    simpa [carried, linktypeRaw, linktypeEthernet, linktypeLinuxSll] using decodeIp_readsPorts
  · rw [carried, if_neg he, if_neg hs, if_neg hr, decode, decodeBody, if_neg he, if_neg hs,
      if_neg hr]
    exact iff_of_false (not_readsPorts rfl rfl) (by simp)

/-! ## Ports out of a sound header -/

/-- A frame whose network header introduces no transport header, with enough bytes where one is
looked for: an IPv4 header length below five words or a later fragment of either version. -/
def Mistaken (linktype : Nat) (data : Bytes) : Prop :=
  ∃ ip ∈ carried linktype data, Ported ip ∧ ¬ Sound ip

/-- A later fragment behind an Authentication Header of 16 bytes. The walk takes 24 bytes for that
header, and finds a TCP header out of the middle of the datagram. -/
def authenticatedFragment : Bytes :=
  [0x60, 0, 0, 0, 0, 52, 51, 64] ++ List.replicate 32 1 ++ (44 :: 2 :: List.replicate 14 0) ++
    [6, 0, 0, 8, 0, 0, 0, 1] ++ [6, 0, 0, 0, 0, 0, 0, 0] ++ [0xC0, 0, 0x01, 0xF6] ++
    List.replicate 16 0

example : Mistaken linktypeRaw authenticatedFragment := by
  have hported : Ported authenticatedFragment := by decide
  refine ⟨_, rfl, hported, fun hsound => ?_⟩
  have hwhole : headerSize (octet authenticatedFragment 6) (v6Body authenticatedFragment) = some 16 := by
    decide
  have hnext : headerSize 44 ((v6Body authenticatedFragment).drop 16) = some 8 := by decide
  have hfragment : InChain (octet authenticatedFragment 6) (v6Body authenticatedFragment)
      (44, (v6Body authenticatedFragment).drop 16) := .further hwhole (.here hnext)
  exact absurd (hsound.chain rfl _ hfragment rfl) (by decide)

/-- An IPv4 packet of protocol 6 at fragment offset 1: 24 bytes out of the middle of a segment. -/
def laterFragment : Bytes :=
  [0x45, 0, 0, 44, 0, 7, 0, 1, 64, 6, 0, 0, 10, 0, 0, 1, 10, 0, 0, 2] ++
    [0xC0, 0, 0x01, 0xF6] ++ List.replicate 20 0

end Pyscan.Packet
