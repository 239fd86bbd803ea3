import Pyscan.Wire.Frame

/-!
# Decoding undoes assembly

Each decoder of `Domain.Packet` strips exactly the header the grammar of
`Wire.Frame` put on, layer by layer, from the transport header up to the link
header.
-/

namespace Pyscan.Wire

open Py Packet

/-! ## Transport -/

theorem flagText_control (c : Control) : flagText c.byte.toNat = c.text := by
  have hall : ∀ a b c d e f g h : Bool,
      flagText (Control.mk a b c d e f g h).byte.toNat = (Control.mk a b c d e f g h).text := by
    decide +kernel
  exact hall _ _ _ _ _ _ _ _

theorem Control.text_syn (c : Control) :
    ('S' ∈ c.text.toList ∧ 'A' ∉ c.text.toList) ↔ (c.syn = true ∧ c.ack = false) := by
  have hall : ∀ a b c d e f g h : Bool,
      ('S' ∈ (Control.mk a b c d e f g h).text.toList ∧
        'A' ∉ (Control.mk a b c d e f g h).text.toList) ↔ (g = true ∧ d = false) := by
    decide +kernel
  exact hall _ _ _ _ _ _ _ _

/-- The control bits of a flag byte. -/
def Control.ofByte (b : UInt8) : Control :=
  ⟨b.toNat.testBit 7, b.toNat.testBit 6, b.toNat.testBit 5, b.toNat.testBit 4, b.toNat.testBit 3,
    b.toNat.testBit 2, b.toNat.testBit 1, b.toNat.testBit 0⟩

theorem Control.byte_ofByte (b : UInt8) : (Control.ofByte b).byte = b := by
  have hall : ∀ n < 256, (Control.ofByte (UInt8.ofNat n)).byte = UInt8.ofNat n := by
    decide +kernel
  have := hall b.toNat b.toNat_lt
  rwa [UInt8.ofNat_toNat] at this

/-- What a transport header and payload decode to, below the addresses `src` and `dst`. -/
def Transport.packet (t : Transport) (payload : Bytes) (ts : ℚ) (length : Nat) (src dst : String)
    (version : Nat) : Packet :=
  { ts, length, protocol := t.name, src, dst, sport := t.sport, dport := t.dport,
    info := t.info payload, flags := t.flags, payload, version }

section

variable {ts : ℚ} {length version : Nat} {src dst : String}

theorem decodeTcp_bytes (t : Tcp) (payload : Bytes) :
    decodeTcp (t.bytes payload) ts length src dst version =
      .ok ((Transport.tcp t).packet payload ts length src dst version) := by
  have hopt : t.options.1.length = 4 * t.words := t.options.2
  have hsa : t.seqAck.1.length = 8 := t.seqAck.2
  have hwcu : t.windowChecksumUrgent.1.length = 6 := t.windowChecksumUrgent.2
  have hw : (t.words : Nat) < 11 := t.words.2
  have hr : (t.reserved : Nat) < 16 := t.reserved.2
  have hlen : (t.bytes payload).length = 20 + 4 * t.words + payload.length := by
    simp only [Tcp.bytes, List.length_append, List.length_cons, length_be16, hopt, hsa, hwcu]
    omega
  -- the first twelve bytes, then the data-offset byte and the flag byte
  have hports : (be16 t.sport.toNat ++ be16 t.dport.toNat ++ t.seqAck.1).length = 12 := by
    simp [hsa]
  have h12 : index (t.bytes payload) 12 =
      .ok (UInt8.ofNat (16 * (5 + t.words) + t.reserved)) := index_append hports (i := 0)
  have h13 : index (t.bytes payload) 13 = .ok t.control.byte := index_append hports (i := 1)
  have hoff : ((UInt8.ofNat (16 * (5 + t.words) + t.reserved)).toNat >>> 4) * 4 =
      20 + 4 * t.words := by
    rw [UInt8.toNat_ofNat', Nat.shiftRight_eq_div_pow]
    omega
  have hdrop : (t.bytes payload).drop (20 + 4 * t.words) = payload := by
    have hsplit : t.bytes payload = (be16 t.sport.toNat ++ be16 t.dport.toNat ++ t.seqAck.1 ++
        (UInt8.ofNat (16 * (5 + t.words) + t.reserved) :: t.control.byte ::
          (t.windowChecksumUrgent.1 ++ t.options.1))) ++ payload := by
      simp [Tcp.bytes]
    rw [hsplit]
    exact drop_append (by simp [hopt, hsa, hwcu]; omega)
  have hunpack : unpackHH (slice (t.bytes payload) 0 4) = .ok (t.sport.toNat, t.dport.toNat) := by
    have h1 := u16_ofNat t.sport.toNat_lt
    have h2 := u16_ofNat t.dport.toNat_lt
    simp only [Tcp.bytes, be16, slice, List.cons_append, List.nil_append, List.take_succ_cons,
      List.take_zero, List.drop_zero, unpackHH, h1, h2]
  unfold decodeTcp
  rw [if_neg (by omega)]
  simp only [hunpack, ok_bind, h12, h13, hoff, hdrop, if_pos (show 20 ≤ 20 + 4 * (t.words : Nat) ∧
    20 + 4 * (t.words : Nat) ≤ (t.bytes payload).length by omega)]
  simp only [Transport.packet, Transport.name, Transport.sport, Transport.dport, Transport.info,
    Transport.flags, flagText_control]

theorem decodeUdp_bytes (u : Udp) (payload : Bytes) (hfit : 8 + payload.length < 65536) :
    decodeUdp (u.bytes payload) ts length src dst version =
      .ok ((Transport.udp u).packet payload ts length src dst version) := by
  have hck : u.checksum.1.length = 2 := u.checksum.2
  have hlen : (u.bytes payload).length = 8 + payload.length := by
    simp only [Udp.bytes, List.length_append, length_be16, hck]
    omega
  have hunpack : unpackHHH (slice (u.bytes payload) 0 6) =
      .ok (u.sport.toNat, u.dport.toNat, 8 + payload.length) := by
    have h1 := u16_ofNat u.sport.toNat_lt
    have h2 := u16_ofNat u.dport.toNat_lt
    have h3 := u16_ofNat hfit
    simp only [Udp.bytes, be16, slice, List.cons_append, List.nil_append, List.take_succ_cons,
      List.take_zero, List.drop_zero, unpackHHH, h1, h2, h3]
  have hdrop : slice (u.bytes payload) 8 (8 + payload.length) = payload := by
    have hsplit : u.bytes payload = (be16 u.sport.toNat ++ be16 u.dport.toNat ++
        be16 (8 + payload.length) ++ u.checksum.1) ++ (payload ++ []) := by
      simp [Udp.bytes]
    rw [hsplit]
    exact slice_append (by simp [hck]) rfl
  unfold decodeUdp
  rw [if_neg (by omega), hunpack, ok_bind]
  simp only [if_pos (show 8 ≤ 8 + payload.length ∧ 8 + payload.length ≤ (u.bytes payload).length by
    omega), hdrop]
  simp only [Transport.packet, Transport.name, Transport.sport, Transport.dport, Transport.info,
    Transport.flags]

theorem decodeTransport_bytes (t : Transport) (payload : Bytes)
    (hfit : (t.bytes payload).length < 65536) :
    decodeTransport t.protocol (t.bytes payload) ts length src dst version =
      .ok (t.packet payload ts length src dst version) := by
  cases t with
  | tcp h => exact decodeTcp_bytes h payload
  | udp h =>
    apply decodeUdp_bytes h payload
    have hck : h.checksum.1.length = 2 := h.checksum.2
    simp only [Transport.bytes, Udp.bytes, List.length_append, length_be16, hck] at hfit
    omega

end

/-! ## Network -/

namespace Extension

theorem length_bytes (e : Extension) (next : Nat) :
    (e.bytes next).length = match e with
      | options _ length _ => (length.toNat + 1) * 8
      | fragment .. => 8 := by
  cases e with
  | options kind length content =>
    have hc : content.1.length = 8 * length.toNat + 6 := content.2
    simp only [bytes, List.length_cons, hc]
    omega
  | fragment reserved low _ ident =>
    have hi : ident.1.length = 4 := ident.2
    simp only [bytes, List.length_cons, hi]

theorem code_lt (e : Extension) : e.code < 256 := by
  cases e with
  | options kind _ _ => cases kind <;> simp [code, OptionsKind.code]
  | fragment => simp [code]

theorem first_lt {protocol : Nat} (h : protocol < 256) (es : List Extension) :
    first protocol es < 256 := by
  cases es with
  | nil => exact h
  | cons e es => exact e.code_lt

end Extension

theorem OptionsKind.code_mem (kind : OptionsKind) : kind.code ∈ v6ExtVariable := by
  cases kind <;> decide

/-- **The extension walk** steps over a chain, one turn a header, and goes on with the protocol the
chain leads to. The induction is on the chain; each turn of the loop consumes one header and learns
the code of the next. -/
theorem skipV6Extensions_over {protocol : Nat} (hlt : protocol < 256) (body : Bytes)
    (es : List Extension) (n : Nat) :
    skipV6Extensions (es.length + n) (Extension.first protocol es)
        (Extension.chain protocol es ++ body) =
      skipV6Extensions n protocol body := by
  induction es with
  | nil => rw [List.length_nil, Nat.zero_add, Extension.first, Extension.chain, List.nil_append]
  | cons e es ih =>
    have hnext : (UInt8.ofNat (Extension.first protocol es)).toNat = Extension.first protocol es :=
      UInt8.toNat_ofNat_of_lt' (Extension.first_lt hlt es)
    have hdrop : ∀ k, (e.bytes (Extension.first protocol es)).length = k →
        (Extension.chain protocol (e :: es) ++ body).drop k =
          Extension.chain protocol es ++ body := by
      intro k hk
      rw [Extension.chain, List.append_assoc]
      exact drop_append hk
    have hsize := e.length_bytes (Extension.first protocol es)
    have hlen : (e.bytes (Extension.first protocol es)).length ≤
        (Extension.chain protocol (e :: es) ++ body).length := by
      simp only [Extension.chain, List.length_append]
      omega
    have h0 : index (Extension.chain protocol (e :: es) ++ body) 0 =
        .ok (UInt8.ofNat (Extension.first protocol es)) := by
      cases e <;> rfl
    rw [List.length_cons, Nat.add_right_comm]
    cases e with
    | options kind length content =>
      have h1 : index (Extension.chain protocol (.options kind length content :: es) ++ body) 1 =
          .ok length := rfl
      rw [skipV6Extensions, if_pos ⟨kind.code_mem, by dsimp only at hsize; omega⟩, h1, ok_bind, h0,
        ok_bind, hnext, hdrop _ hsize]
      exact ih
    | fragment reserved low hz ident =>
      have h44 : (44 : Nat) ∉ v6ExtVariable ∧ 44 ∈ v6ExtFixed8 := by decide
      rw [skipV6Extensions, if_neg (fun h => h44.1 h.1),
        if_pos ⟨h44.2, by dsimp only at hsize; omega⟩, h0, ok_bind, hnext, hdrop _ hsize]
      exact ih

theorem skipV6Extensions_transport {protocol : Nat} (hv : protocol ∉ v6ExtVariable)
    (hf : protocol ∉ v6ExtFixed8) (n : Nat) (body : Bytes) :
    skipV6Extensions n protocol body = .ok (protocol, body) := by
  cases n with
  | zero => rfl
  | succ n => simp only [skipV6Extensions, hv, hf, false_and, if_false]

theorem skipV6Extensions_chain {protocol : Nat} (hlt : protocol < 256)
    (hv : protocol ∉ v6ExtVariable) (hf : protocol ∉ v6ExtFixed8) (body : Bytes)
    (es : List Extension) (n : Nat) (hn : es.length ≤ n) :
    skipV6Extensions n (Extension.first protocol es) (Extension.chain protocol es ++ body) =
      .ok (protocol, body) := by
  obtain ⟨m, rfl⟩ := Nat.exists_eq_add_of_le hn
  rw [skipV6Extensions_over hlt, skipV6Extensions_transport hv hf]

section

variable {ts : ℚ} {length protocol : Nat} {body padding : Bytes}

theorem decodeIpv4_bytes (h : V4) (hp : protocol < 256)
    (hfit : 20 + 4 * h.words + body.length < 65536) :
    decodeIpv4 (h.bytes protocol body ++ padding) ts length = (do
      let src ← inetNtoa h.src.1
      let dst ← inetNtoa h.dst.1
      decodeTransport protocol body ts length src dst 4) := by
  have hopt : h.options.1.length = 4 * h.words := h.options.2
  have hsrc : h.src.1.length = 4 := h.src.2
  have hdst : h.dst.1.length = 4 := h.dst.2
  have hw : (h.words : Nat) < 11 := h.words.2
  obtain ⟨data, hdata⟩ : ∃ data, data = h.bytes protocol body ++ padding := ⟨_, rfl⟩
  -- the twelve bytes in front of the addresses
  obtain ⟨front, hfront, hsplit⟩ : ∃ front : Bytes, front.length = 12 ∧
      data = front ++ (h.src.1 ++ (h.dst.1 ++ (h.options.1 ++ (body ++ padding)))) :=
    ⟨(h.bytes protocol body).take 12, rfl, by rw [hdata]; simp [V4.bytes, be16]⟩
  have hlen : data.length = 20 + 4 * h.words + body.length + padding.length := by
    rw [hsplit]
    simp only [List.length_append, hfront, hsrc, hdst, hopt]
    omega
  have h0 : index data 0 = .ok (UInt8.ofNat (64 + (5 + h.words))) := by rw [hdata]; rfl
  have h9 : index data 9 = .ok (UInt8.ofNat protocol) := by rw [hdata]; rfl
  have hihl : ((UInt8.ofNat (64 + (5 + h.words))).toNat &&& 0x0F) * 4 = 20 + 4 * h.words := by
    rw [UInt8.toNat_ofNat', Nat.and_two_pow_sub_one_eq_mod _ 4]
    omega
  have hproto : (UInt8.ofNat protocol).toNat = protocol := UInt8.toNat_ofNat_of_lt' hp
  have hs : slice data 12 16 = h.src.1 := by
    rw [hsplit]
    exact slice_append hfront (by rw [hsrc])
  have hd : slice data 16 20 = h.dst.1 := by
    rw [hsplit, ← List.append_assoc]
    exact slice_append (by simp [hfront, hsrc]) (by rw [hdst])
  have htotal : unpackH (slice data 2 4) = .ok (20 + 4 * h.words + body.length) := by
    rw [hdata]
    exact unpackH_be16 hfit
  have hbody : slice data (20 + 4 * h.words) (20 + 4 * h.words + body.length) = body := by
    have e : data = (front ++ h.src.1 ++ h.dst.1 ++ h.options.1) ++ (body ++ padding) := by
      rw [hsplit]
      simp
    rw [e]
    exact slice_append (by simp [hfront, hsrc, hdst, hopt]; omega) rfl
  rw [← hdata]
  unfold decodeIpv4
  rw [if_neg (by omega)]
  simp only [h0, h9, ok_bind, hs, hd, htotal, hihl, hproto, hbody,
    if_pos (show 20 ≤ 20 + 4 * (h.words : Nat) + body.length ∧
      20 + 4 * (h.words : Nat) + body.length ≤ data.length by omega)]

/-- The fixed header comes off, and the walk starts on the chain. -/
theorem decodeIpv6_header (h : V6) (hp : protocol < 256)
    (hfit : (Extension.chain protocol h.extensions).length + body.length < 65536) :
    decodeIpv6 (h.bytes protocol body ++ padding) ts length = (do
      let src ← inetNtop h.src.1
      let dst ← inetNtop h.dst.1
      let t ← skipV6Extensions 8 (Extension.first protocol h.extensions)
        (Extension.chain protocol h.extensions ++ body)
      decodeTransport t.1 t.2 ts length src dst 6) := by
  have hsrc : h.src.1.length = 16 := h.src.2
  have hdst : h.dst.1.length = 16 := h.dst.2
  obtain ⟨data, hdata⟩ : ∃ data, data = h.bytes protocol body ++ padding := ⟨_, rfl⟩
  obtain ⟨inner, hinner⟩ : ∃ inner, inner = Extension.chain protocol h.extensions ++ body := ⟨_, rfl⟩
  -- the eight bytes in front of the addresses
  obtain ⟨front, hfront, hsplit⟩ : ∃ front : Bytes, front.length = 8 ∧
      data = front ++ (h.src.1 ++ (h.dst.1 ++ (inner ++ padding))) :=
    ⟨(h.bytes protocol body).take 8, rfl, by rw [hdata, hinner]; simp [V6.bytes, be16]⟩
  have hin : inner.length = (Extension.chain protocol h.extensions).length + body.length := by
    rw [hinner, List.length_append]
  have hlen : data.length = 40 + inner.length + padding.length := by
    rw [hsplit]
    simp only [List.length_append, hfront, hsrc, hdst]
    omega
  have h6 : index data 6 = .ok (UInt8.ofNat (Extension.first protocol h.extensions)) := by
    rw [hdata]
    rfl
  have hnext : (UInt8.ofNat (Extension.first protocol h.extensions)).toNat =
      Extension.first protocol h.extensions :=
    UInt8.toNat_ofNat_of_lt' (Extension.first_lt hp _)
  have hs : slice data 8 24 = h.src.1 := by
    rw [hsplit]
    exact slice_append hfront (by rw [hsrc])
  have hd : slice data 24 40 = h.dst.1 := by
    rw [hsplit, ← List.append_assoc]
    exact slice_append (by simp [hfront, hsrc]) (by rw [hdst])
  have hpay : unpackH (slice data 4 6) = .ok inner.length := by
    rw [hdata, hin]
    exact unpackH_be16 hfit
  have hstop : slice data 40 (40 + inner.length) = inner := by
    have e : data = (front ++ h.src.1 ++ h.dst.1) ++ (inner ++ padding) := by
      rw [hsplit]
      simp
    rw [e]
    exact slice_append (by simp [hfront, hsrc, hdst]) rfl
  rw [← hdata]
  unfold decodeIpv6
  rw [if_neg (by omega)]
  simp only [hpay, ok_bind, hs, hd, h6, hnext,
    if_pos (show 40 + inner.length ≤ data.length by omega), hstop, ← hinner]

theorem decodeIpv6_bytes (h : V6) (hp : protocol < 256) (hv : protocol ∉ v6ExtVariable)
    (hf : protocol ∉ v6ExtFixed8)
    (hfit : (Extension.chain protocol h.extensions).length + body.length < 65536) :
    decodeIpv6 (h.bytes protocol body ++ padding) ts length = (do
      let src ← inetNtop h.src.1
      let dst ← inetNtop h.dst.1
      decodeTransport protocol body ts length src dst 6) := by
  have hwalk := skipV6Extensions_chain hp hv hf body h.extensions 8 h.at_most_eight
  rw [decodeIpv6_header h hp hfit]
  simp only [hwalk, ok_bind]

theorem decodeIp_v6 (h : V6) :
    decodeIp (h.bytes protocol body ++ padding) ts length =
      decodeIpv6 (h.bytes protocol body ++ padding) ts length := by
  have hw : (h.trafficClass : Nat) < 16 := h.trafficClass.2
  have h0 : index (h.bytes protocol body ++ padding) 0 = .ok (UInt8.ofNat (96 + h.trafficClass)) :=
    rfl
  have hv : (UInt8.ofNat (96 + h.trafficClass)).toNat >>> 4 = 6 := by
    rw [UInt8.toNat_ofNat', Nat.shiftRight_eq_div_pow]
    omega
  have hne : h.bytes protocol body ++ padding ≠ [] := by simp [V6.bytes]
  simp only [decodeIp, if_neg hne, h0, ok_bind, hv]
  rfl

/-- An IP packet decodes to its transport header, under the addresses it carries. -/
theorem decodeIp_bytes (n : Network) (hp : protocol < 256) (hv : protocol ∉ v6ExtVariable)
    (hf : protocol ∉ v6ExtFixed8) (hfit : n.declared protocol body < 65536) :
    decodeIp (n.bytes protocol body ++ padding) ts length = (do
      let src ← n.src
      let dst ← n.dst
      decodeTransport protocol body ts length src dst n.version) := by
  cases n with
  | v4 h =>
    have hw : (h.words : Nat) < 11 := h.words.2
    have h0 : index (h.bytes protocol body ++ padding) 0 = .ok (UInt8.ofNat (64 + (5 + h.words))) :=
      rfl
    have hv : (UInt8.ofNat (64 + (5 + h.words))).toNat >>> 4 = 4 := by
      rw [UInt8.toNat_ofNat', Nat.shiftRight_eq_div_pow]
      omega
    have hne : h.bytes protocol body ++ padding ≠ [] := by simp [V4.bytes]
    have ih : decodeIpv4 (h.bytes protocol body ++ padding) ts length = _ :=
      decodeIpv4_bytes h hp hfit
    simp only [decodeIp, Network.bytes, if_neg hne, h0, ok_bind, hv, if_true, ih]
    rfl
  | v6 h => exact (decodeIp_v6 h).trans (decodeIpv6_bytes h hp hv hf hfit)

end

/-! ## Link -/

section

variable {ethertype : Nat} {packet : Bytes} {ts : ℚ} {length : Nat}

theorem decodeEthertype_ip (he : ethertype = 0x0800 ∨ ethertype = 0x86DD) :
    decodeEthertype ethertype packet ts length = decodeIp packet ts length := if_pos he

theorem decodeEthernet_untagged (addresses : Block 12)
    (he : ethertype = 0x0800 ∨ ethertype = 0x86DD) :
    decodeEthernet (addresses.1 ++ (be16 ethertype ++ packet)) ts length =
      decodeIp packet ts length := by
  have ha : addresses.1.length = 12 := addresses.2
  have hs : slice (addresses.1 ++ (be16 ethertype ++ packet)) 12 14 = be16 ethertype :=
    slice_append ha rfl
  have hd : (addresses.1 ++ (be16 ethertype ++ packet)).drop 14 = packet := by
    rw [← List.append_assoc]
    exact drop_append (by simp [ha])
  unfold decodeEthernet
  rw [if_neg (by simp [ha]; omega), hs, unpackH_be16 (by omega), ok_bind, if_neg (by omega), hd,
    decodeEthertype_ip he]

theorem decodeEthernet_vlan (addresses : Block 12) (tci : Block 2)
    (he : ethertype = 0x0800 ∨ ethertype = 0x86DD) :
    decodeEthernet (addresses.1 ++ (be16 0x8100 ++ (tci.1 ++ (be16 ethertype ++ packet)))) ts length =
      decodeIp packet ts length := by
  have ha : addresses.1.length = 12 := addresses.2
  have ht : tci.1.length = 2 := tci.2
  obtain ⟨data, hdata⟩ : ∃ data, data =
      addresses.1 ++ (be16 0x8100 ++ (tci.1 ++ (be16 ethertype ++ packet))) := ⟨_, rfl⟩
  have hs : slice data 12 14 = be16 0x8100 := by
    rw [hdata]
    exact slice_append ha rfl
  have hs' : slice data 16 18 = be16 ethertype := by
    have e : data = (addresses.1 ++ be16 0x8100 ++ tci.1) ++ (be16 ethertype ++ packet) := by
      rw [hdata]
      simp
    rw [e]
    exact slice_append (by simp [ha, ht]) rfl
  have hd : data.drop 18 = packet := by
    have e : data = (addresses.1 ++ be16 0x8100 ++ tci.1 ++ be16 ethertype) ++ packet := by
      rw [hdata]
      simp
    rw [e]
    exact drop_append (by simp [ha, ht])
  have hlen : 18 ≤ data.length := by
    rw [hdata]
    simp [ha, ht]
    omega
  rw [← hdata]
  unfold decodeEthernet
  rw [if_neg (by omega), hs, unpackH_be16 (by decide), ok_bind, if_pos ⟨rfl, hlen⟩, hs',
    unpackH_be16 (by omega), ok_bind, hd, decodeEthertype_ip he]

theorem decodeLinuxSll_header (header : Block 14) (he : ethertype = 0x0800 ∨ ethertype = 0x86DD) :
    decodeLinuxSll (header.1 ++ (be16 ethertype ++ packet)) ts length =
      decodeIp packet ts length := by
  have hh : header.1.length = 14 := header.2
  have hs : slice (header.1 ++ (be16 ethertype ++ packet)) 14 16 = be16 ethertype :=
    slice_append hh rfl
  have hd : (header.1 ++ (be16 ethertype ++ packet)).drop 16 = packet := by
    rw [← List.append_assoc]
    exact drop_append (by simp [hh])
  unfold decodeLinuxSll
  rw [if_neg (by simp [hh]; omega), hs, unpackH_be16 (by omega), ok_bind, hd, decodeEthertype_ip he]

/-- The link header in front of an IP packet is stripped, whichever it is. -/
theorem decodeBody_link (l : Link) (he : ethertype = 0x0800 ∨ ethertype = 0x86DD) :
    decodeBody (l.header ethertype ++ packet) l.linktype ts =
      some <$> decodeIp packet ts (l.header ethertype ++ packet).length := by
  cases l with
  | ethernet addresses =>
    have e : (Link.ethernet addresses).header ethertype ++ packet =
        addresses.1 ++ (be16 ethertype ++ packet) := by simp [Link.header]
    rw [e]
    exact congrArg (some <$> ·) (decodeEthernet_untagged addresses he)
  | vlan addresses tci =>
    have e : (Link.vlan addresses tci).header ethertype ++ packet =
        addresses.1 ++ (be16 0x8100 ++ (tci.1 ++ (be16 ethertype ++ packet))) := by
      simp [Link.header]
    rw [e]
    exact congrArg (some <$> ·) (decodeEthernet_vlan addresses tci he)
  | linuxSll header =>
    have e : (Link.linuxSll header).header ethertype ++ packet =
        header.1 ++ (be16 ethertype ++ packet) := by simp [Link.header]
    rw [e]
    exact congrArg (some <$> ·) (decodeLinuxSll_header header he)
  | raw => rfl

end

/-! ## The frame -/

/-- `decode` of an assembled frame, as one equation: the addresses are those of the network header,
the rest is the transport header's. -/
theorem decodeBody_assemble (f : Frame) (ts : ℚ) :
    decodeBody f.assemble f.link.linktype ts = (do
      let src ← f.network.src
      let dst ← f.network.dst
      .ok (some (f.transport.packet f.payload ts f.assemble.length src dst f.network.version))) := by
  have hfit := f.fits
  have hlen : (f.transport.bytes f.payload).length < 65536 := by
    cases hn : f.network <;> simp only [hn, Network.declared] at hfit <;> omega
  have hp : f.transport.protocol < 256 ∧ f.transport.protocol ∉ v6ExtVariable ∧
      f.transport.protocol ∉ v6ExtFixed8 := by
    cases f.transport <;> simp [Transport.protocol, v6ExtVariable, v6ExtFixed8]
  have he : f.network.ethertype = 0x0800 ∨ f.network.ethertype = 0x86DD := by
    cases f.network
    · exact .inl rfl
    · exact .inr rfl
  unfold Frame.assemble
  rw [decodeBody_link f.link he, decodeIp_bytes f.network hp.1 hp.2.1 hp.2.2 hfit]
  cases f.network.src with
  | error e => rfl
  | ok src =>
    cases f.network.dst with
    | error e => rfl
    | ok dst =>
      simp only [ok_bind, decodeTransport_bytes f.transport f.payload hlen]
      rfl

theorem Network.src_ok (n : Network) : ∃ s, n.src = .ok s := by
  cases n with
  | v4 h => exact (inetNtoa_yields h.src.2).imp fun _ h => h.1
  | v6 h => exact (inetNtop_yields h.src.2).imp fun _ h => h.1

theorem Network.dst_ok (n : Network) : ∃ s, n.dst = .ok s := by
  cases n with
  | v4 h => exact (inetNtoa_yields h.dst.2).imp fun _ h => h.1
  | v6 h => exact (inetNtop_yields h.dst.2).imp fun _ h => h.1

/-- The packet a frame decodes to when its addresses render as `src` and `dst`. -/
theorem decode_of_addresses (f : Frame) (ts : ℚ) {src dst : String} (hs : f.network.src = .ok src)
    (hd : f.network.dst = .ok dst) :
    decode f.assemble f.link.linktype ts =
      f.transport.packet f.payload ts f.assemble.length src dst f.network.version := by
  rw [decode, decodeBody_assemble, hs, hd]
  rfl

/-- **Decoding undoes header stacking**: every frame of the grammar decodes to its transport
protocol, its IP version, its two addresses as the standard library renders them, its ports, the
set flags, the frame's length and time, and the payload with neither options nor padding. -/
theorem decode_assemble (f : Frame) (ts : ℚ) :
    ∃ src dst, f.network.src = .ok src ∧ f.network.dst = .ok dst ∧
      decode f.assemble f.link.linktype ts =
        { ts := ts
          length := f.assemble.length
          protocol := f.transport.name
          src := some src
          dst := some dst
          sport := some f.transport.sport
          dport := some f.transport.dport
          info := f.transport.info f.payload
          flags := f.transport.flags
          payload := f.payload
          version := some f.network.version } := by
  obtain ⟨src, hs⟩ := f.network.src_ok
  obtain ⟨dst, hd⟩ := f.network.dst_ok
  exact ⟨src, dst, hs, hd, decode_of_addresses f ts hs hd⟩

end Pyscan.Wire
