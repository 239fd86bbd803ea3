import Pyscan.Domain.PortSource
import Pyscan.Wire.Decode

/-!
# Packets behind an Authentication Header

An Authentication Header counts its length in four-byte words less two, the
other extension headers in eight-byte units less one. The walk of `decodeIpv6`
reads every length octet the second way, so behind an Authentication Header of
payload length `n` it resumes `4 * n` bytes too far on. What it then reports is
the segment of the frame only where the headers in front of the payload happen to
be, from there on, another chain to a header of the same ports
(`Authenticated.Coincides`), as when an extension header of just `4 * n` bytes is
stepped over unread (`coincides_in_step`).
-/

namespace Pyscan.Packet

open Py

/-- The payload of a TCP segment, empty when the data offset is out of range. -/
def segmentPayload (seg : Bytes) : Bytes :=
  if 20 ≤ octet seg 12 / 16 * 4 ∧ octet seg 12 / 16 * 4 ≤ seg.length then
    seg.drop (octet seg 12 / 16 * 4)
  else []

/-- `p` reports TCP with these ports and this payload. -/
structure Shows (p : Packet) (sport dport : Nat) (payload : Bytes) : Prop where
  protocol : p.protocol = "TCP"
  sport : p.sport = some sport
  dport : p.dport = some dport
  payload : p.payload = payload

theorem unpackHH_word {d : Bytes} (h : 4 ≤ d.length) :
    unpackHH (slice d 0 4) = .ok (word d 0, word d 2) := by
  match d, h with
  | a :: b :: c :: e :: d, _ => rfl

section Transport

variable {data payload : Bytes} {ts : ℚ} {length version sport dport : Nat} {src dst : String}

theorem decodeTcp_shows :
    Yields (decodeTcp data ts length src dst version) fun p => Shows p sport dport payload ↔
      20 ≤ data.length ∧ word data 0 = sport ∧ word data 2 = dport ∧
        segmentPayload data = payload := by
  unfold decodeTcp
  split
  · refine yields_ok (iff_of_false ?_ (by omega))
    rintro ⟨-, hs, -, -⟩
    cases hs
  · have hlen : 20 ≤ data.length := by omega
    obtain ⟨b12, e12, h12⟩ := index_octet (d := data) (i := 12) (by omega)
    rw [unpackHH_word (by omega), ok_bind, e12]
    dsimp only
    rw [ok_bind, h12, Nat.shiftRight_eq_div_pow]
    refine (index_yields (by omega)).bind fun b13 _ => ?_
    refine yields_ok ⟨?_, ?_⟩
    · rintro ⟨-, hs, hd, hp⟩
      exact ⟨hlen, Option.some_inj.mp hs, Option.some_inj.mp hd, hp⟩
    · rintro ⟨-, hs, hd, hp⟩
      exact ⟨rfl, congrArg some hs, congrArg some hd, hp⟩

theorem not_shows {p : Packet} (h : p.protocol ≠ "TCP") : ¬ Shows p sport dport payload :=
  fun hp => h hp.protocol

theorem decodeUdp_protocol :
    Yields (decodeUdp data ts length src dst version) fun p => p.protocol = "UDP" := by
  unfold decodeUdp
  split
  · exact yields_ok rfl
  · exact (unpackHHH_yields (length_slice_of_le (by omega))).bind fun ports _ => yields_ok rfl

theorem decodeIcmp_protocol {name : String} :
    Yields (decodeIcmp data ts length src dst version name) fun p => p.protocol = name := by
  unfold decodeIcmp
  split
  · exact yields_ok rfl
  · refine (index_yields (by omega)).bind fun b0 _ => ?_
    refine (index_yields (by omega)).bind fun b1 _ => ?_
    exact yields_ok rfl

theorem decodeTransport_shows (proto : Nat) :
    Yields (decodeTransport proto data ts length src dst version) fun p =>
      Shows p sport dport payload ↔ proto = 6 ∧ 20 ≤ data.length ∧ word data 0 = sport ∧
        word data 2 = dport ∧ segmentPayload data = payload := by
  have other : ∀ {x : Result Packet} {name : String}, proto ≠ 6 → name ≠ "TCP" →
      Yields x (fun p => p.protocol = name) → Yields x fun p =>
        Shows p sport dport payload ↔ proto = 6 ∧ 20 ≤ data.length ∧ word data 0 = sport ∧
          word data 2 = dport ∧ segmentPayload data = payload := by
    rintro x name h6 hname ⟨p, e, hp⟩
    exact ⟨p, e, iff_of_false (not_shows (hp ▸ hname)) fun h => h6 h.1⟩
  rcases protocol_name proto with rfl | rfl | rfl | rfl | ⟨h6, -, hname⟩
  · exact other (by decide) (by decide) decodeIcmp_protocol
  · obtain ⟨p, e, hp⟩ := @decodeTcp_shows data payload ts length version sport dport src dst
    exact ⟨p, e, hp.trans (and_iff_right rfl).symm⟩
  · exact other (by decide) (by decide) decodeUdp_protocol
  · exact other (by decide) (by decide) decodeIcmp_protocol
  · simp only [decodeTransport, hname]
    rw [if_neg (unlisted_ne (by decide)), if_neg (unlisted_ne (by decide)),
      if_neg (not_or.mpr ⟨unlisted_ne (by decide), unlisted_ne (by decide)⟩)]
    split
    · have hname : "IPv6" ≠ "TCP" := by decide
      exact other h6 hname (yields_ok rfl)
    · exact other h6 (unlisted_ne (by decide)) (yields_ok rfl)

end Transport

/-! ## Chains laid end to end -/

/-- The bytes of an extension header, by its code; an Authentication Header is counted in units of
eight bytes, as the other headers are. -/
structure Extent (code : Nat) (header : Bytes) : Prop where
  kind : code ∈ [0, 43, 44, 51, 60]
  whole : header.length = if code = 44 then 8 else (octet header 1 + 1) * 8

/-- Extension headers laid end to end, the first of kind `code`, each naming the kind of the next
one and the last naming TCP. -/
def Linked : (code : Nat) → List Bytes → Prop
  | code, [] => code = 6
  | code, header :: headers => Extent code header ∧ Linked (octet header 0) headers

theorem octet_append {d : Bytes} {i : Nat} (h : i < d.length) (rest : Bytes) :
    octet (d ++ rest) i = octet d i := by
  rw [octet, octet, List.getD_append _ _ _ _ h]

theorem octet_take {d : Bytes} {i n : Nat} (h : i < n) : octet (d.take n) i = octet d i := by
  simp only [octet, List.getD_eq_getElem?_getD, List.getElem?_take_of_lt h]

theorem walkEnd_six (n : Nat) (seg : Bytes) : walkEnd n 6 seg = (6, seg) := by
  cases n <;> rfl

/-- What is left of the bytes is their end. -/
theorem walkEnd_suffix (n code : Nat) (body : Bytes) : (walkEnd n code body).2 <:+ body := by
  induction n generalizing code body with
  | zero => exact List.suffix_rfl
  | succ n ih =>
    rw [walkEnd]
    split
    · rename_i size _
      exact (ih _ _).trans (List.drop_suffix size body)
    · exact List.suffix_rfl

theorem Extent.size {code : Nat} {header : Bytes} (h : Extent code header) (rest : Bytes) :
    0 < header.length ∧ extensionSize code (header ++ rest) = some header.length := by
  have hwhole := h.whole
  by_cases h44 : code = 44
  · subst h44
    rw [if_pos rfl] at hwhole
    refine ⟨by omega, ?_⟩
    rw [extensionSize, if_neg (fun hv => absurd hv.1 (by decide)),
      if_pos ⟨by decide, by rw [List.length_append]; omega⟩, hwhole]
  · have hkind : code ∈ v6ExtVariable := by
      have := h.kind
      simp only [List.mem_cons, List.not_mem_nil, or_false] at this
      simp only [v6ExtVariable, List.mem_cons, List.not_mem_nil, or_false]
      omega
    rw [if_neg h44] at hwhole
    refine ⟨by omega, ?_⟩
    rw [extensionSize, if_pos ⟨hkind, by rw [List.length_append]; omega⟩, octet_append (by omega),
      hwhole]

theorem extent_of_size {code size : Nat} {body : Bytes} (h : extensionSize code body = some size)
    (hsize : size ≤ body.length) : Extent code (body.take size) := by
  have hlen : (body.take size).length = size := List.length_take_of_le hsize
  unfold extensionSize at h
  split at h
  · rename_i hv
    cases Option.some_inj.mp h
    have hkind := hv.1
    simp only [v6ExtVariable, List.mem_cons, List.not_mem_nil, or_false] at hkind
    refine ⟨by simp only [List.mem_cons, List.not_mem_nil, or_false]; omega, ?_⟩
    rw [hlen, if_neg (by omega), octet_take (by omega)]
  · split at h
    · rename_i hf
      cases Option.some_inj.mp h
      cases List.mem_singleton.mp hf.1
      exact ⟨by decide, hlen⟩
    · cases h

/-- The walk goes over a chain to what stands behind it. -/
theorem Linked.walkEnd_eq {seg : Bytes} {headers : List Bytes} {n code : Nat}
    (h : Linked code headers) (hn : headers.length ≤ n) :
    walkEnd n code (headers.flatten ++ seg) = (6, seg) := by
  induction headers generalizing n code with
  | nil =>
    cases h
    exact walkEnd_six n seg
  | cons header headers ih =>
    obtain ⟨m, rfl⟩ : ∃ m, n = m + 1 := ⟨n - 1, by rw [List.length_cons] at hn; omega⟩
    obtain ⟨hpos, hsize⟩ := h.1.size (headers.flatten ++ seg)
    rw [List.flatten_cons, List.append_assoc, walkEnd, hsize]
    dsimp only
    rw [octet_append hpos, List.drop_left]
    exact ih h.2 (Nat.le_of_succ_le_succ hn)

/-- What the walk goes over, to bytes it takes for a segment, is a chain. -/
theorem linked_of_walkEnd {seg : Bytes} (hseg : seg ≠ []) {n code : Nat} {body : Bytes}
    (h : walkEnd n code body = (6, seg)) :
    ∃ headers : List Bytes, Linked code headers ∧ headers.length ≤ n ∧ body = headers.flatten ++ seg := by
  induction n generalizing code body with
  | zero =>
    cases h
    exact ⟨[], rfl, Nat.le_refl 0, rfl⟩
  | succ n ih =>
    rw [walkEnd] at h
    split at h
    · rename_i size hsize
      -- the header read is there in full: something is left behind it
      have hwhole : size < body.length := by
        have hsuffix := walkEnd_suffix n (octet body 0) (body.drop size)
        rw [h] at hsuffix
        have hle : seg.length ≤ (body.drop size).length := hsuffix.length_le
        have hpos := List.length_pos_iff.mpr hseg
        rw [List.length_drop] at hle
        omega
      have hextent := extent_of_size hsize hwhole.le
      have hpos : 0 < size := by
        have hlen := hextent.whole
        rw [List.length_take_of_le hwhole.le] at hlen
        split at hlen <;> omega
      obtain ⟨headers, hlinked, hn, hbody⟩ := ih h
      refine ⟨body.take size :: headers, ⟨hextent, by rwa [octet_take hpos]⟩,
        Nat.succ_le_succ hn, ?_⟩
      rw [List.flatten_cons, List.append_assoc, ← hbody, List.take_append_drop]
    · cases h
      exact ⟨[], rfl, Nat.zero_le _, rfl⟩

/-- A header whose data offset says that the payload starts behind it, or, with no payload, one that
is out of range. -/
def Offset (head payload : Bytes) : Prop :=
  octet head 12 / 16 * 4 = head.length ∨
    payload = [] ∧ ¬ (20 ≤ octet head 12 / 16 * 4 ∧ octet head 12 / 16 * 4 ≤ head.length)

theorem segmentPayload_append {head payload : Bytes} (hlen : 20 ≤ head.length)
    (h : Offset head payload) : segmentPayload (head ++ payload) = payload := by
  unfold segmentPayload
  rw [octet_append (by omega)]
  rcases h with h | ⟨rfl, h⟩
  · rw [if_pos ⟨by omega, by rw [List.length_append]; omega⟩, h, List.drop_left]
  · rw [List.append_nil, if_neg h]

/-- A segment is a header and the payload that is read from behind it. -/
theorem exists_head {seg payload : Bytes} (hlen : 20 ≤ seg.length) (h : segmentPayload seg = payload) :
    ∃ head, seg = head ++ payload ∧ 20 ≤ head.length ∧ Offset head payload := by
  unfold segmentPayload at h
  split at h
  · rename_i hoff
    have htake : (seg.take (octet seg 12 / 16 * 4)).length = octet seg 12 / 16 * 4 :=
      List.length_take_of_le hoff.2
    refine ⟨seg.take (octet seg 12 / 16 * 4), by rw [← h, List.take_append_drop], by omega, .inl ?_⟩
    rw [octet_take (by omega), htake]
  · rename_i hoff
    exact ⟨seg, by rw [← h, List.append_nil], hlen, .inr ⟨h.symm, hoff⟩⟩

end Pyscan.Packet

namespace Pyscan.Wire

open Py Packet

theorem Tcp.length_bytes_nil (t : Tcp) : (t.bytes []).length = 4 * (5 + t.words.val) := by
  have hopt : t.options.1.length = 4 * t.words.val := t.options.2
  have hsa : t.seqAck.1.length = 8 := t.seqAck.2
  have hwcu : t.windowChecksumUrgent.1.length = 6 := t.windowChecksumUrgent.2
  simp only [Tcp.bytes, List.length_append, List.length_cons, length_be16, hsa, hwcu, hopt,
    List.length_nil]
  omega

/-- The data offset of a header is its length. -/
theorem Tcp.offset_bytes (t : Tcp) (payload : Bytes) : Offset (t.bytes []) payload := by
  have hsa : t.seqAck.1.length = 8 := t.seqAck.2
  have hoctet : Packet.octet (t.bytes []) 12 = 16 * (5 + t.words.val) + t.reserved.val := by
    have hlt : 16 * (5 + t.words.val) + t.reserved.val < 256 := by omega
    have hget : (t.bytes [])[12]? =
        some (UInt8.ofNat (16 * (5 + t.words.val) + t.reserved.val)) := by
      rw [Tcp.bytes, List.getElem?_append_right (by simp [hsa])]
      simp [hsa]
    rw [Packet.octet, List.getD_eq_getElem?_getD, hget]
    exact UInt8.toNat_ofNat_of_lt' hlt
  left
  rw [hoctet, t.length_bytes_nil]
  omega

/-! ## The frames -/

/-- An Authentication Header of `(payloadLen + 2) * 4` bytes, a whole number of eights. -/
structure AuthHeader where
  payloadLen : UInt8
  content : Block (4 * payloadLen.toNat + 6)
  pos : 1 ≤ payloadLen.toNat
  even : payloadLen.toNat % 2 = 0

def AuthHeader.code : Nat := 51

def AuthHeader.bytes (a : AuthHeader) (next : Nat) : Bytes :=
  UInt8.ofNat next :: a.payloadLen :: a.content.1

/-- An IPv6 frame with an Authentication Header among its extension headers and a TCP segment
behind them. -/
structure Authenticated where
  link : Link
  /-- the fixed header, and the extension headers in front of the Authentication Header -/
  network : V6
  auth : AuthHeader
  after : List Extension
  at_most_eight : network.extensions.length + 1 + after.length ≤ 8
  header : Tcp
  payload : Bytes
  padding : Bytes
  fits : (Extension.chain AuthHeader.code network.extensions).length +
    (auth.bytes (Extension.first 6 after) ++
      (Extension.chain 6 after ++ header.bytes payload)).length < 65536

namespace Authenticated

variable (f : Authenticated)

/-- What stands behind the Authentication Header. -/
def behind : Bytes := Extension.chain 6 f.after ++ f.header.bytes f.payload

def body : Bytes := f.auth.bytes (Extension.first 6 f.after) ++ f.behind

def assemble : Bytes :=
  f.link.header 0x86DD ++ (f.network.bytes AuthHeader.code f.body ++ f.padding)

/-- Where the walk resumes: `4 * payloadLen` bytes into what stands behind the header. -/
def resumed : Bytes := f.behind.drop (4 * f.auth.payloadLen.toNat)

/-- The headers between the Authentication Header and the payload. -/
def headers : Bytes := Extension.chain 6 f.after ++ f.header.bytes []

/-- Those headers are, from `4 * payloadLen` bytes into them on, another chain of headers in front of
the payload: extension headers, as many as the bound leaves room for and the first of the kind the
Authentication Header names, and a TCP header with the same two ports. -/
def Coincides : Prop :=
  ∃ (extensions : List Bytes) (head : Bytes),
    f.headers.drop (4 * f.auth.payloadLen.toNat) = extensions.flatten ++ head ∧
    Linked (Extension.first 6 f.after) extensions ∧
    f.network.extensions.length + 1 + extensions.length ≤ 8 ∧
    20 ≤ head.length ∧ head.take 4 = (f.header.bytes []).take 4 ∧ Offset head f.payload

theorem skipV6Extensions_auth (n : Nat) :
    skipV6Extensions (n + 1) AuthHeader.code f.body =
      .ok (walkEnd n (Extension.first 6 f.after) f.resumed) := by
  have hcontent : f.auth.content.1.length = 4 * f.auth.payloadLen.toNat + 6 := f.auth.content.2
  have hfirst : (UInt8.ofNat (Extension.first 6 f.after)).toNat = Extension.first 6 f.after :=
    UInt8.toNat_ofNat_of_lt' (Extension.first_lt (by decide) _)
  have hauth : (f.auth.bytes (Extension.first 6 f.after)).length =
      4 * f.auth.payloadLen.toNat + 8 := by
    simp only [AuthHeader.bytes, List.length_cons, hcontent]
  have hdrop : f.body.drop ((f.auth.payloadLen.toNat + 1) * 8) = f.resumed := by
    have hsize : (f.auth.payloadLen.toNat + 1) * 8 =
        (f.auth.bytes (Extension.first 6 f.after)).length + 4 * f.auth.payloadLen.toNat := by
      omega
    rw [hsize, ← List.drop_drop, body, List.drop_left, resumed]
  have h0 : index f.body 0 = .ok (UInt8.ofNat (Extension.first 6 f.after)) := rfl
  have h1 : index f.body 1 = .ok f.auth.payloadLen := rfl
  have hlen : 2 ≤ f.body.length := by
    rw [body, List.length_append]
    omega
  rw [skipV6Extensions, if_pos ⟨by decide, hlen⟩, h1, ok_bind, h0, ok_bind, hdrop, hfirst,
    skipV6Extensions_walkEnd]

/-- What `decode` makes of the frame: the transport it finds `4 * payloadLen` bytes too far on. -/
theorem decode_assemble_auth (ts : ℚ) :
    ∃ src dst, decodeBody f.assemble f.link.linktype ts = some <$>
      decodeTransport
        (walkEnd (7 - f.network.extensions.length) (Extension.first 6 f.after) f.resumed).1
        (walkEnd (7 - f.network.extensions.length) (Extension.first 6 f.after) f.resumed).2
        ts f.assemble.length src dst 6 := by
  obtain ⟨src, hsrc⟩ := (Network.v6 f.network).src_ok
  obtain ⟨dst, hdst⟩ := (Network.v6 f.network).dst_ok
  rw [Network.src] at hsrc
  rw [Network.dst] at hdst
  have height : 8 = f.network.extensions.length + (7 - f.network.extensions.length + 1) := by
    have := f.at_most_eight
    omega
  have hwalk : skipV6Extensions 8 (Extension.first AuthHeader.code f.network.extensions)
      (Extension.chain AuthHeader.code f.network.extensions ++ f.body) =
      .ok (walkEnd (7 - f.network.extensions.length) (Extension.first 6 f.after) f.resumed) := by
    rw [height, skipV6Extensions_over (by decide), skipV6Extensions_auth]
  have hfit : (Extension.chain AuthHeader.code f.network.extensions).length + f.body.length <
      65536 := f.fits
  refine ⟨src, dst, ?_⟩
  rw [assemble, decodeBody_link f.link (.inr rfl), decodeIp_v6,
    decodeIpv6_header f.network (by decide) hfit, hsrc, ok_bind, hdst, ok_bind, hwalk, ok_bind]

theorem shows_iff_walkEnd (ts : ℚ) :
    Shows (decode f.assemble f.link.linktype ts) f.header.sport.toNat f.header.dport.toNat
        f.payload ↔
      ∃ seg, walkEnd (7 - f.network.extensions.length) (Extension.first 6 f.after) f.resumed =
          (6, seg) ∧ 20 ≤ seg.length ∧ word seg 0 = f.header.sport.toNat ∧
        word seg 2 = f.header.dport.toNat ∧ segmentPayload seg = f.payload := by
  obtain ⟨src, dst, hbody⟩ := f.decode_assemble_auth ts
  generalize walkEnd (7 - f.network.extensions.length) (Extension.first 6 f.after) f.resumed = t
    at hbody ⊢
  obtain ⟨code, seg⟩ := t
  obtain ⟨p, e, hp⟩ := @decodeTransport_shows seg f.payload ts f.assemble.length 6
    f.header.sport.toNat f.header.dport.toNat src dst code
  have hdecode : decode f.assemble f.link.linktype ts = p := by
    rw [decode, hbody]
    dsimp only
    rw [e]
    rfl
  rw [hdecode, hp]
  constructor
  · rintro ⟨rfl, h⟩
    exact ⟨seg, rfl, h⟩
  · rintro ⟨_, hpair, h⟩
    cases hpair
    exact ⟨rfl, h⟩

theorem behind_eq : f.behind = f.headers ++ f.payload := by
  simp only [behind, headers, Tcp.bytes, List.append_assoc, List.cons_append, List.append_nil]

/-- Two words are the ports of a header exactly when the bytes are. -/
theorem ports_iff {head : Bytes} (hlen : 4 ≤ head.length) :
    (word head 0 = f.header.sport.toNat ∧ word head 2 = f.header.dport.toNat) ↔
      head.take 4 = (f.header.bytes []).take 4 := by
  have hs := u16_ofNat f.header.sport.toNat_lt
  have hd := u16_ofNat f.header.dport.toNat_lt
  have hports : (f.header.bytes []).take 4 =
      be16 f.header.sport.toNat ++ be16 f.header.dport.toNat := by
    simp [Tcp.bytes, be16]
  rw [hports]
  obtain ⟨a, b, c, d, rest, rfl⟩ : ∃ a b c d rest, head = a :: b :: c :: d :: rest := by
    rcases head with _ | ⟨a, _ | ⟨b, _ | ⟨c, _ | ⟨d, rest⟩⟩⟩⟩
    case cons.cons.cons.cons => exact ⟨a, b, c, d, rest, rfl⟩
    all_goals simp at hlen
  have hword : ∀ {n : Nat} (hi lo : UInt8), n < 65536 →
      (u16 hi lo = n ↔ hi = UInt8.ofNat (n / 256) ∧ lo = UInt8.ofNat (n % 256)) := by
    intro n hi lo hn
    constructor
    · rintro rfl
      have hlo := lo.toNat_lt
      have hdiv : u16 hi lo / 256 = hi.toNat := by unfold u16; omega
      have hmod : u16 hi lo % 256 = lo.toNat := by unfold u16; omega
      rw [hdiv, hmod, UInt8.ofNat_toNat, UInt8.ofNat_toNat]
      exact ⟨rfl, rfl⟩
    · rintro ⟨rfl, rfl⟩
      exact u16_ofNat hn
  change u16 a b = _ ∧ u16 c d = _ ↔ [a, b, c, d] = _
  rw [hword a b f.header.sport.toNat_lt, hword c d f.header.dport.toNat_lt]
  simp [be16, and_assoc]

/-- The walk ends at a segment of the ports and the payload exactly when the headers coincide. -/
theorem walkEnd_iff_coincides :
    (∃ seg, walkEnd (7 - f.network.extensions.length) (Extension.first 6 f.after) f.resumed =
        (6, seg) ∧ 20 ≤ seg.length ∧ word seg 0 = f.header.sport.toNat ∧
      word seg 2 = f.header.dport.toNat ∧ segmentPayload seg = f.payload) ↔ f.Coincides := by
  have hcount := f.at_most_eight
  have hword : ∀ {head : Bytes} {i : Nat}, i + 1 < head.length →
      word (head ++ f.payload) i = word head i := by
    intro head i hi
    rw [word, word, List.getD_append _ _ _ _ (by omega), List.getD_append _ _ _ _ (by omega)]
  constructor
  · rintro ⟨seg, hwalk, hlong, hsport, hdport, hread⟩
    obtain ⟨extensions, hlinked, hn, hresumed⟩ :=
      linked_of_walkEnd (List.length_pos_iff.mp (by omega)) hwalk
    obtain ⟨head, rfl, hlen, hoffset⟩ := exists_head hlong hread
    rw [hword (by omega)] at hsport hdport
    refine ⟨extensions, head, ?_, hlinked, by omega, hlen, ?_, hoffset⟩
    · -- the payload stands at the end, behind the resumed headers
      have hroom : 4 * f.auth.payloadLen.toNat ≤ f.headers.length := by
        have hsum := congrArg List.length hresumed
        simp only [resumed, behind_eq, List.length_drop, List.length_append] at hsum
        omega
      rw [resumed, behind_eq, List.drop_append_of_le_length hroom, ← List.append_assoc] at hresumed
      exact List.append_cancel_right hresumed
    · exact (f.ports_iff (by omega)).mp ⟨hsport, hdport⟩
  · rintro ⟨extensions, head, hheaders, hlinked, hn, hlen, hports, hoffset⟩
    obtain ⟨hsport, hdport⟩ := (f.ports_iff (by omega)).mpr hports
    have hroom : 4 * f.auth.payloadLen.toNat ≤ f.headers.length := by
      have hsum := congrArg List.length hheaders
      simp only [List.length_drop, List.length_append] at hsum
      omega
    have hresumed : f.resumed = extensions.flatten ++ (head ++ f.payload) := by
      rw [resumed, behind_eq, List.drop_append_of_le_length hroom, hheaders, List.append_assoc]
    refine ⟨head ++ f.payload, ?_, by rw [List.length_append]; omega, ?_, ?_,
      segmentPayload_append hlen hoffset⟩
    · rw [hresumed]
      exact hlinked.walkEnd_eq (by omega)
    · rw [hword (by omega), hsport]
    · rw [hword (by omega), hdport]

/-- The segment behind an Authentication Header is reported only where the headers behind it are,
`4 * payloadLen` bytes on, another chain to a header of the same ports and payload. -/
theorem transport_shown (ts : ℚ) :
    Shows (decode f.assemble f.link.linktype ts) f.header.sport.toNat f.header.dport.toNat
      f.payload ↔ f.Coincides :=
  (f.shows_iff_walkEnd ts).trans f.walkEnd_iff_coincides

/-- A short enough chain of headers leaves no room for another one. -/
theorem not_coincides (hshort : f.headers.length < 4 * f.auth.payloadLen.toNat + 20) :
    ¬ f.Coincides := by
  rintro ⟨extensions, head, hheaders, -, -, hlen, -⟩
  have hsum := congrArg List.length hheaders
  simp only [List.length_drop, List.length_append] at hsum
  omega

end Authenticated

/-- An extension header with a length octet reads the same under any kind that has one. -/
theorem extent_options (read kind : OptionsKind) (length : UInt8)
    (content : Block (8 * length.toNat + 6)) (next : Nat) :
    Extent read.code (Extension.bytes next (.options kind length content)) := by
  refine ⟨by cases read <;> decide, ?_⟩
  rw [if_neg (by cases read <;> decide), Extension.length_bytes]
  rfl

/-- Extension headers are a chain as they stand. -/
theorem linked_chain (es : List Extension) :
    ∃ headers : List Bytes, headers.flatten = Extension.chain 6 es ∧ headers.length = es.length ∧
      Linked (Extension.first 6 es) headers := by
  induction es with
  | nil => exact ⟨[], rfl, rfl, rfl⟩
  | cons e es ih =>
    obtain ⟨headers, hflat, hlen, hlinked⟩ := ih
    have hnext : Packet.octet (e.bytes (Extension.first 6 es)) 0 = Extension.first 6 es := by
      have htoNat := UInt8.toNat_ofNat_of_lt' (Extension.first_lt (by decide : 6 < 256) es)
      cases e <;> exact htoNat
    have hextent : Extent e.code (e.bytes (Extension.first 6 es)) := by
      cases e with
      | options kind length content => exact extent_options kind kind length content _
      | fragment reserved low h ident =>
        exact ⟨by simp [Extension.code], by rw [Extension.code, if_pos rfl, Extension.length_bytes]⟩
    exact ⟨_ :: headers, by rw [List.flatten_cons, hflat]; rfl, by simp [hlen],
      hextent, by rwa [hnext]⟩

theorem length_nil_le : ([] : List Extension).length ≤ 8 := Nat.zero_le 8

/-- Two extension headers with length octets behind the Authentication Header, the first of
`4 * payloadLen` bytes: the walk resumes at the second, in step again. -/
theorem Authenticated.coincides_in_step (f : Authenticated) {k k' : OptionsKind} {l l' : UInt8}
    {c : Block (8 * l.toNat + 6)} {c' : Block (8 * l'.toNat + 6)} {es : List Extension}
    (hafter : f.after = .options k l c :: .options k' l' c' :: es)
    (hsize : (l.toNat + 1) * 8 = 4 * f.auth.payloadLen.toNat) : f.Coincides := by
  obtain ⟨headers, hflat, hlen, hlinked⟩ := linked_chain es
  have hcount := f.at_most_eight
  rw [hafter, List.length_cons, List.length_cons] at hcount
  have hnext : Packet.octet (Extension.bytes (Extension.first 6 es) (.options k' l' c')) 0 =
      Extension.first 6 es :=
    UInt8.toNat_ofNat_of_lt' (Extension.first_lt (by decide : 6 < 256) es)
  have hfirst : (Extension.bytes k'.code (.options k l c)).length =
      4 * f.auth.payloadLen.toNat := by
    rw [Extension.length_bytes]
    exact hsize
  refine ⟨Extension.bytes (Extension.first 6 es) (.options k' l' c') :: headers, f.header.bytes [],
    ?_, ⟨?_, ?_⟩, ?_, ?_, rfl, ?_⟩
  · have hsplit : f.headers = Extension.bytes k'.code (.options k l c) ++
        (Extension.bytes (Extension.first 6 es) (.options k' l' c') ++
          (Extension.chain 6 es ++ f.header.bytes [])) := by
      rw [Authenticated.headers, hafter]
      simp only [Extension.chain, Extension.first, Extension.code, List.append_assoc]
    rw [hsplit, ← hfirst, List.drop_left, List.flatten_cons, hflat, List.append_assoc]
  · rw [hafter]
    exact extent_options k k' l' c' _
  · rwa [hnext]
  · rw [List.length_cons, hlen]
    omega
  · rw [f.header.length_bytes_nil]
    omega
  · exact f.header.offset_bytes f.payload

/-- A Modbus client behind an Authentication Header with a 96-bit check value. -/
def authenticatedModbus : Authenticated where
  link := .raw
  network :=
    { trafficClass := ⟨0, Nat.zero_lt_succ 15⟩, flow := (0, 0, 0), extensions := [],
      at_most_eight := length_nil_le, hopLimit := 64, src := ⟨List.replicate 16 1, rfl⟩,
      dst := ⟨List.replicate 16 2, rfl⟩ }
  auth := ⟨4, ⟨List.replicate 22 0, rfl⟩, by decide, by decide⟩
  after := []
  at_most_eight := by decide
  header :=
    { sport := 40000, dport := 502, seqAck := ⟨List.replicate 8 1, rfl⟩,
      words := ⟨1, Nat.succ_lt_succ (Nat.zero_lt_succ 9)⟩, options := ⟨[1, 1, 1, 1], rfl⟩,
      reserved := ⟨0, Nat.zero_lt_succ 15⟩,
      control := ⟨false, false, false, true, true, false, false, false⟩,
      windowChecksumUrgent := ⟨List.replicate 6 1, rfl⟩ }
  payload := [0, 1, 0, 0, 0, 2, 1, 1]
  padding := []
  fits := by decide

/-- The same client, with two extension headers of eight bytes behind an Authentication Header of 16
bytes: its header is found. -/
def authenticatedInStep : Authenticated where
  link := .raw
  network := authenticatedModbus.network
  auth := ⟨2, ⟨List.replicate 14 0, rfl⟩, by decide, by decide⟩
  after := [.options .destination 0 ⟨List.replicate 6 0, rfl⟩,
    .options .routing 0 ⟨List.replicate 6 0, rfl⟩]
  at_most_eight := by decide
  header := authenticatedModbus.header
  payload := authenticatedModbus.payload
  padding := []
  fits := by decide

example : authenticatedInStep.Coincides := authenticatedInStep.coincides_in_step rfl rfl

theorem transport_hidden :
    ¬ ∀ (f : Authenticated) (ts : ℚ), Shows (decode f.assemble f.link.linktype ts)
      f.header.sport.toNat f.header.dport.toNat f.payload := by
  intro hshown
  have hshows := hshown authenticatedModbus 0
  rw [authenticatedModbus.shows_iff_walkEnd, authenticatedModbus.walkEnd_iff_coincides] at hshows
  exact authenticatedModbus.not_coincides (by decide) hshows

end Pyscan.Wire
