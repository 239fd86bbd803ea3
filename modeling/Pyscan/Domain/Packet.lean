import Pyscan.Py.Text

/-!
# The packet decoders

`decode` peels a captured frame layer by layer: link header, IPv4 or IPv6 with
its extension headers, then TCP, UDP or ICMP. The bodies are the source's
functions one by one, every index and `unpack` a read that can raise;
`decodeBody` is the `try` block of `decode`, and its `none` is falling out of
the block.

`decodeBody_yields` is the specification of the whole module on arbitrary
bytes: nothing raises, and a packet that reports ports reports rendered
addresses (`Addressed`), of one IP version (`Kindred`).
-/

namespace Pyscan

open Py

structure Packet where
  ts : ℚ
  length : Nat
  protocol : String
  src : Option String := none
  dst : Option String := none
  sport : Option Nat := none
  dport : Option Nat := none
  info : String := ""
  flags : String := ""
  payload : Bytes := []
  version : Option Nat := none
  deriving DecidableEq

namespace Packet

def linktypeEthernet : Nat := 1
def linktypeRaw : Nat := 101
def linktypeLinuxSll : Nat := 113

def ipProto : List (Nat × String) := [(1, "ICMP"), (6, "TCP"), (17, "UDP"), (58, "ICMPv6")]

def tcpFlags : List (Nat × Char) :=
  [(0x02, 'S'), (0x10, 'A'), (0x01, 'F'), (0x04, 'R'), (0x08, 'P'), (0x20, 'U')]

def v6ExtVariable : List Nat := [0, 43, 60, 51]
def v6ExtFixed8 : List Nat := [44]
def v6NoNext : Nat := 59

/-! ## Transport layer -/

/-- The flag letters of a TCP flag byte, `"."` when there are none. -/
def flagText (bits : Nat) : String :=
  match (tcpFlags.filter fun f => bits &&& f.1 ≠ 0).map Prod.snd with
  | [] => "."
  | cs => String.ofList cs

def decodeTcp (data : Bytes) (ts : ℚ) (length : Nat) (src dst : String) (version : Nat) :
    Result Packet :=
  if data.length < 20 then
    .ok { ts, length, protocol := "TCP", src, dst, version }
  else do
    let (sport, dport) ← unpackHH (slice data 0 4)
    let dataOffset := ((← index data 12).toNat >>> 4) * 4
    let flagBits := (← index data 13).toNat
    let flags := flagText flagBits
    let payload := if 20 ≤ dataOffset ∧ dataOffset ≤ data.length then data.drop dataOffset else []
    .ok { ts, length, protocol := "TCP", src, dst, sport, dport,
          info := "[" ++ flags ++ "]", flags, payload, version }

def decodeUdp (data : Bytes) (ts : ℚ) (length : Nat) (src dst : String) (version : Nat) :
    Result Packet :=
  if data.length < 8 then
    .ok { ts, length, protocol := "UDP", src, dst, version }
  else do
    let (sport, dport, ulen) ← unpackHHH (slice data 0 6)
    let payload := slice data 8 (if 8 ≤ ulen ∧ ulen ≤ data.length then ulen else data.length)
    .ok { ts, length, protocol := "UDP", src, dst, sport, dport,
          info := "len=" ++ toString ulen, payload, version }

def icmpv6Kinds : List (Nat × String) :=
  [(128, "echo-request"), (129, "echo-reply"), (1, "unreachable"), (3, "time-exceeded")]

def icmpKinds : List (Nat × String) :=
  [(0, "echo-reply"), (8, "echo-request"), (3, "unreachable"), (11, "time-exceeded")]

def decodeIcmp (data : Bytes) (ts : ℚ) (length : Nat) (src dst : String) (version : Nat)
    (name : String) : Result Packet :=
  if data.length < 2 then
    .ok { ts, length, protocol := name, src, dst, version }
  else do
    let icmpType := (← index data 0).toNat
    let code := (← index data 1).toNat
    let kinds := if name = "ICMPv6" then icmpv6Kinds else icmpKinds
    let info := (kinds.lookup icmpType).getD ("type " ++ toString icmpType) ++
      (if code = 0 then "" else "/" ++ toString code)
    .ok { ts, length, protocol := name, src, dst, info, payload := data.drop 4, version }

def decodeTransport (proto : Nat) (body : Bytes) (ts : ℚ) (length : Nat) (src dst : String)
    (version : Nat) : Result Packet :=
  let name := (ipProto.lookup proto).getD ("IP/" ++ toString proto)
  if name = "TCP" then decodeTcp body ts length src dst version
  else if name = "UDP" then decodeUdp body ts length src dst version
  else if name = "ICMP" ∨ name = "ICMPv6" then decodeIcmp body ts length src dst version name
  else if proto = v6NoNext then .ok { ts, length, protocol := "IPv6", src, dst, version }
  else .ok { ts, length, protocol := name, src, dst, version }

/-! ## Network layer -/

/-- Walk at most `n` extension headers (the source's `range(8)`). -/
def skipV6Extensions : Nat → Nat → Bytes → Result (Nat × Bytes)
  | 0, nextHeader, body => .ok (nextHeader, body)
  | n + 1, nextHeader, body =>
    if nextHeader ∈ v6ExtVariable ∧ 2 ≤ body.length then do
      let size := ((← index body 1).toNat + 1) * 8
      skipV6Extensions n (← index body 0).toNat (body.drop size)
    else if nextHeader ∈ v6ExtFixed8 ∧ 8 ≤ body.length then do
      skipV6Extensions n (← index body 0).toNat (body.drop 8)
    else .ok (nextHeader, body)

def decodeIpv4 (data : Bytes) (ts : ℚ) (length : Nat) : Result Packet :=
  if data.length < 20 then .ok { ts, length, protocol := "IPv4", version := some 4 }
  else do
    let ihl := ((← index data 0).toNat &&& 0x0F) * 4
    let proto := (← index data 9).toNat
    let src ← inetNtoa (slice data 12 16)
    let dst ← inetNtoa (slice data 16 20)
    let total ← unpackH (slice data 2 4)
    let body := if 20 ≤ total ∧ total ≤ data.length then slice data ihl total else data.drop ihl
    decodeTransport proto body ts length src dst 4

def decodeIpv6 (data : Bytes) (ts : ℚ) (length : Nat) : Result Packet :=
  if data.length < 40 then .ok { ts, length, protocol := "IPv6", version := some 6 }
  else do
    let payloadLen ← unpackH (slice data 4 6)
    let src ← inetNtop (slice data 8 24)
    let dst ← inetNtop (slice data 24 40)
    let stop := if 40 + payloadLen ≤ data.length then 40 + payloadLen else data.length
    let (nextHeader, body) ← skipV6Extensions 8 (← index data 6).toNat (slice data 40 stop)
    decodeTransport nextHeader body ts length src dst 6

/-- Dispatch on the IP version nibble. -/
def decodeIp (data : Bytes) (ts : ℚ) (length : Nat) : Result Packet :=
  if data = [] then .ok { ts, length, protocol := "?" }
  else do
    let version := (← index data 0).toNat >>> 4
    if version = 4 then decodeIpv4 data ts length
    else if version = 6 then decodeIpv6 data ts length
    else .ok { ts, length, protocol := "?" }

/-! ## Link layer -/

def decodeEthertype (ethertype : Nat) (payload : Bytes) (ts : ℚ) (length : Nat) : Result Packet :=
  if ethertype = 0x0800 ∨ ethertype = 0x86DD then decodeIp payload ts length
  else if ethertype = 0x0806 then .ok { ts, length, protocol := "ARP", info := "who-has / is-at" }
  else .ok { ts, length, protocol := String.ofList ('0' :: 'x' :: hexPad 4 ethertype) }

def decodeEthernet (data : Bytes) (ts : ℚ) (length : Nat) : Result Packet :=
  if data.length < 14 then .ok { ts, length, protocol := "?" }
  else do
    let ethertype ← unpackH (slice data 12 14)
    if ethertype = 0x8100 ∧ 18 ≤ data.length then
      -- an 802.1Q tag: the real ethertype is four bytes further on
      decodeEthertype (← unpackH (slice data 16 18)) (data.drop 18) ts length
    else decodeEthertype ethertype (data.drop 14) ts length

def decodeLinuxSll (data : Bytes) (ts : ℚ) (length : Nat) : Result Packet :=
  if data.length < 16 then .ok { ts, length, protocol := "?" }
  else do decodeEthertype (← unpackH (slice data 14 16)) (data.drop 16) ts length

/-- The `try` block of `decode`; `none` when no branch of it returns. -/
def decodeBody (data : Bytes) (linktype : Nat) (ts : ℚ) : Result (Option Packet) :=
  if linktype = linktypeEthernet then some <$> decodeEthernet data ts data.length
  else if linktype = linktypeLinuxSll then some <$> decodeLinuxSll data ts data.length
  else if linktype = linktypeRaw then some <$> decodeIp data ts data.length
  else .ok none

def decode (data : Bytes) (linktype : Nat) (ts : ℚ) : Packet :=
  match decodeBody data linktype ts with
  | .ok (some p) => p
  -- every exception class of `PyErr` is in the source's `except` clause
  | .ok none | .error _ => { ts, length := data.length, protocol := "?" }

/-! ## No read is out of bounds -/

/-- `s` is what `inet_ntoa` or `inet_ntop` renders. -/
def Rendered (s : String) : Prop := ∃ d, inetNtoa d = .ok s ∨ inetNtop d = .ok s

theorem Rendered.ne_none {s : String} (h : Rendered s) : s ≠ "None" := by
  obtain ⟨d, h | h⟩ := h
  · exact inetNtoa_ne_none h
  · exact inetNtop_ne_none h

/-- A packet that reports a port reports rendered addresses. -/
structure Addressed (p : Packet) : Prop where
  addresses : p.sport ≠ none ∨ p.dport ≠ none →
    ∃ s d, p.src = some s ∧ p.dst = some d ∧ Rendered s ∧ Rendered d

/-- Both texts are rendered by the function of one IP version. -/
def SameVersion (s d : String) : Prop :=
  (∃ a b, inetNtoa a = .ok s ∧ inetNtoa b = .ok d) ∨ ∃ a b, inetNtop a = .ok s ∧ inetNtop b = .ok d

/-- A packet that reports a port reports two addresses of one IP version. -/
structure Kindred (p : Packet) : Prop where
  addresses : p.sport ≠ none ∨ p.dport ≠ none →
    ∃ s d, p.src = some s ∧ p.dst = some d ∧ SameVersion s d

theorem SameVersion.rendered {s d : String} (h : SameVersion s d) : Rendered s ∧ Rendered d := by
  rcases h with ⟨a, b, ha, hb⟩ | ⟨a, b, ha, hb⟩
  · exact ⟨⟨a, .inl ha⟩, ⟨b, .inl hb⟩⟩
  · exact ⟨⟨a, .inr ha⟩, ⟨b, .inr hb⟩⟩

theorem Kindred.addressed {p : Packet} (h : Kindred p) : Addressed p := by
  refine ⟨fun hports => ?_⟩
  obtain ⟨s, d, hs, hd, hversion⟩ := h.addresses hports
  exact ⟨s, d, hs, hd, hversion.rendered⟩

theorem kindred_of_no_ports {p : Packet} (hs : p.sport = none) (hd : p.dport = none) : Kindred p :=
  ⟨fun h => by simp [hs, hd] at h⟩

section Safe

variable {data : Bytes} {ts : ℚ} {length version : Nat} {src dst : String}

theorem decodeTcp_yields (h : SameVersion src dst) :
    Yields (decodeTcp data ts length src dst version) Kindred := by
  unfold decodeTcp
  split
  · exact yields_ok (kindred_of_no_ports rfl rfl)
  · have hlen : 20 ≤ data.length := by omega
    refine (unpackHH_yields (length_slice_of_le (by omega))).bind fun ports _ => ?_
    refine (index_yields (by omega)).bind fun b12 _ => ?_
    refine (index_yields (by omega)).bind fun b13 _ => ?_
    exact yields_ok ⟨fun _ => ⟨src, dst, rfl, rfl, h⟩⟩

theorem decodeUdp_yields (h : SameVersion src dst) :
    Yields (decodeUdp data ts length src dst version) Kindred := by
  unfold decodeUdp
  split
  · exact yields_ok (kindred_of_no_ports rfl rfl)
  · refine (unpackHHH_yields (length_slice_of_le (by omega))).bind fun ports _ => ?_
    exact yields_ok ⟨fun _ => ⟨src, dst, rfl, rfl, h⟩⟩

theorem decodeIcmp_yields {name : String} :
    Yields (decodeIcmp data ts length src dst version name) Kindred := by
  unfold decodeIcmp
  split
  · exact yields_ok (kindred_of_no_ports rfl rfl)
  · refine (index_yields (by omega)).bind fun b0 _ => ?_
    refine (index_yields (by omega)).bind fun b1 _ => ?_
    exact yields_ok (kindred_of_no_ports rfl rfl)

theorem decodeTransport_yields {proto : Nat} (h : SameVersion src dst) :
    Yields (decodeTransport proto data ts length src dst version) Kindred := by
  simp only [decodeTransport]
  split
  · exact decodeTcp_yields h
  · split
    · exact decodeUdp_yields h
    · split
      · exact decodeIcmp_yields
      · split <;> exact yields_ok (kindred_of_no_ports rfl rfl)

theorem skipV6Extensions_yields (n nextHeader : Nat) (body : Bytes) :
    Yields (skipV6Extensions n nextHeader body) fun _ => True := by
  induction n generalizing nextHeader body with
  | zero => exact yields_ok trivial
  | succ n ih =>
    unfold skipV6Extensions
    split
    · refine (index_yields (by omega)).bind fun b1 _ => ?_
      exact (index_yields (by omega)).bind fun b0 _ => ih _ _
    · split
      · exact (index_yields (by omega)).bind fun b0 _ => ih _ _
      · exact yields_ok trivial

theorem decodeIpv4_yields : Yields (decodeIpv4 data ts length) Kindred := by
  unfold decodeIpv4
  split
  · exact yields_ok (kindred_of_no_ports rfl rfl)
  · have hlen : 20 ≤ data.length := by omega
    refine (index_yields (by omega)).bind fun b0 _ => ?_
    refine (index_yields (by omega)).bind fun b9 _ => ?_
    refine (inetNtoa_yields (length_slice_of_le (by omega))).bind fun src hsrc => ?_
    refine (inetNtoa_yields (length_slice_of_le (by omega))).bind fun dst hdst => ?_
    refine (unpackH_yields (length_slice_of_le (by omega))).bind fun total _ => ?_
    exact decodeTransport_yields (.inl ⟨_, _, hsrc, hdst⟩)

theorem decodeIpv6_yields : Yields (decodeIpv6 data ts length) Kindred := by
  unfold decodeIpv6
  split
  · exact yields_ok (kindred_of_no_ports rfl rfl)
  · have hlen : 40 ≤ data.length := by omega
    refine (unpackH_yields (length_slice_of_le (by omega))).bind fun payloadLen _ => ?_
    refine (inetNtop_yields (length_slice_of_le (by omega))).bind fun src hsrc => ?_
    refine (inetNtop_yields (length_slice_of_le (by omega))).bind fun dst hdst => ?_
    refine (index_yields (by omega)).bind fun b6 _ => ?_
    refine (skipV6Extensions_yields _ _ _).bind fun rest _ => ?_
    exact decodeTransport_yields (.inr ⟨_, _, hsrc, hdst⟩)

theorem decodeIp_yields : Yields (decodeIp data ts length) Kindred := by
  unfold decodeIp
  split
  · exact yields_ok (kindred_of_no_ports rfl rfl)
  · have hlen : 0 < data.length := List.length_pos_iff.mpr ‹_›
    refine (index_yields hlen).bind fun b0 _ => ?_
    dsimp only
    split
    · exact decodeIpv4_yields
    · split
      · exact decodeIpv6_yields
      · exact yields_ok (kindred_of_no_ports rfl rfl)

theorem decodeEthertype_yields {ethertype : Nat} :
    Yields (decodeEthertype ethertype data ts length) Kindred := by
  unfold decodeEthertype
  split
  · exact decodeIp_yields
  · split <;> exact yields_ok (kindred_of_no_ports rfl rfl)

theorem decodeEthernet_yields : Yields (decodeEthernet data ts length) Kindred := by
  unfold decodeEthernet
  split
  · exact yields_ok (kindred_of_no_ports rfl rfl)
  · have hlen : 14 ≤ data.length := by omega
    refine (unpackH_yields (length_slice_of_le (by omega))).bind fun ethertype _ => ?_
    split
    · refine (unpackH_yields (length_slice_of_le (by omega))).bind fun inner _ => ?_
      exact decodeEthertype_yields
    · exact decodeEthertype_yields

theorem decodeLinuxSll_yields : Yields (decodeLinuxSll data ts length) Kindred := by
  unfold decodeLinuxSll
  split
  · exact yields_ok (kindred_of_no_ports rfl rfl)
  · have hlen : 16 ≤ data.length := by omega
    exact (unpackH_yields (length_slice_of_le (by omega))).bind fun ethertype _ =>
      decodeEthertype_yields

end Safe

/-- **The `except` clause of `decode` is dead**: on any bytes and any linktype the `try` block
raises nothing, and what it returns is `Kindred`. -/
theorem decodeBody_yields (data : Bytes) (linktype : Nat) (ts : ℚ) :
    Yields (decodeBody data linktype ts) fun r => ∀ p, r = some p → Kindred p := by
  have some_yields : ∀ {x : Result Packet}, Yields x Kindred →
      Yields (some <$> x) fun r => ∀ p, r = some p → Kindred p := by
    rintro x ⟨p, rfl, hp⟩
    exact ⟨some p, rfl, by rintro q ⟨⟩; exact hp⟩
  unfold decodeBody
  split
  · exact some_yields decodeEthernet_yields
  · split
    · exact some_yields decodeLinuxSll_yields
    · split
      · exact some_yields decodeIp_yields
      · exact yields_ok (by rintro p ⟨⟩)

theorem decode_kindred (data : Bytes) (linktype : Nat) (ts : ℚ) :
    Kindred (decode data linktype ts) := by
  obtain ⟨r, e, hr⟩ := decodeBody_yields data linktype ts
  unfold decode
  rw [e]
  cases r with
  | none => exact kindred_of_no_ports rfl rfl
  | some p => exact hr p rfl

theorem decode_addressed (data : Bytes) (linktype : Nat) (ts : ℚ) :
    Addressed (decode data linktype ts) :=
  (decode_kindred data linktype ts).addressed

/-! ## Time and length -/

/-- What a decoder returns carries the time and the length it was given. -/
def Stamps (ts : ℚ) (length : Nat) (x : Result Packet) : Prop :=
  ∀ p, x = .ok p → p.ts = ts ∧ p.length = length

section Stamps

variable {ts : ℚ} {length : Nat}

theorem stamps_ok {p : Packet} (hts : p.ts = ts) (hlength : p.length = length) :
    Stamps ts length (.ok p) := by
  rintro q ⟨⟩
  exact ⟨hts, hlength⟩

theorem stamps_bind {α : Type} {x : Result α} {f : α → Result Packet}
    (h : ∀ a, Stamps ts length (f a)) : Stamps ts length (x >>= f) := by
  intro p hp
  obtain ⟨a, -, ha⟩ := bind_inv hp
  exact h a p ha

theorem decodeTransport_stamps (proto : Nat) (body : Bytes) (src dst : String) (version : Nat) :
    Stamps ts length (decodeTransport proto body ts length src dst version) := by
  unfold decodeTransport decodeTcp decodeUdp decodeIcmp
  dsimp only
  repeat' first | exact stamps_ok rfl rfl | split | refine stamps_bind fun _ => ?_

theorem decodeIp_stamps (data : Bytes) : Stamps ts length (decodeIp data ts length) := by
  have hv4 : Stamps ts length (decodeIpv4 data ts length) := by
    unfold decodeIpv4
    split
    · exact stamps_ok rfl rfl
    · iterate 5 refine stamps_bind fun _ => ?_
      exact decodeTransport_stamps _ _ _ _ _
  have hv6 : Stamps ts length (decodeIpv6 data ts length) := by
    unfold decodeIpv6
    split
    · exact stamps_ok rfl rfl
    · iterate 5 refine stamps_bind fun _ => ?_
      exact decodeTransport_stamps _ _ _ _ _
  unfold decodeIp
  split
  · exact stamps_ok rfl rfl
  · refine stamps_bind fun _ => ?_
    dsimp only
    split
    · exact hv4
    · split
      · exact hv6
      · exact stamps_ok rfl rfl

theorem decodeEthertype_stamps (ethertype : Nat) (payload : Bytes) :
    Stamps ts length (decodeEthertype ethertype payload ts length) := by
  unfold decodeEthertype
  split
  · exact decodeIp_stamps payload
  · split <;> exact stamps_ok rfl rfl

theorem decodeEthernet_stamps (data : Bytes) : Stamps ts length (decodeEthernet data ts length) := by
  unfold decodeEthernet
  split
  · exact stamps_ok rfl rfl
  · refine stamps_bind fun _ => ?_
    split
    · exact stamps_bind fun _ => decodeEthertype_stamps _ _
    · exact decodeEthertype_stamps _ _

theorem decodeLinuxSll_stamps (data : Bytes) : Stamps ts length (decodeLinuxSll data ts length) := by
  unfold decodeLinuxSll
  split
  · exact stamps_ok rfl rfl
  · exact stamps_bind fun _ => decodeEthertype_stamps _ _

end Stamps

/-- A packet has the time of its frame, and its length. -/
theorem decode_stamps (data : Bytes) (linktype : Nat) (ts : ℚ) :
    (decode data linktype ts).ts = ts ∧ (decode data linktype ts).length = data.length := by
  have hsome : ∀ {x : Result Packet}, Stamps ts data.length x → ∀ p,
      some <$> x = .ok (some p) → p.ts = ts ∧ p.length = data.length := by
    intro x hx p hp
    cases x with
    | error e => cases hp
    | ok q =>
      cases hp
      exact hx _ rfl
  have hbody : ∀ p, decodeBody data linktype ts = .ok (some p) →
      p.ts = ts ∧ p.length = data.length := by
    unfold decodeBody
    split
    · exact hsome (decodeEthernet_stamps data)
    · split
      · exact hsome (decodeLinuxSll_stamps data)
      · split
        · exact hsome (decodeIp_stamps data)
        · rintro p ⟨⟩
  unfold decode
  split
  · exact hbody _ ‹_›
  · exact ⟨rfl, rfl⟩
  · exact ⟨rfl, rfl⟩

end Packet

end Pyscan
