import Pyscan.Domain.OtTraffic
import Pyscan.Lib.OnesComplement

/-!
# The checksums of generated frames

A receiver adds up the words of what a checksum covers, the checksum among
them, and expects all ones. `_checksum` folds the carries of the sum of the words, which is
their one's-complement sum (`foldCarries_eq`); so patching its result in for two
zero bytes makes the sum all ones, whatever the parity of the length
(`internetSum_patched`). A generated frame carries both its checksums, and
decodes to the exchange it was made from (`encodeFrame_valid`).
-/

namespace Pyscan.OtTraffic

open Py Wire OnesComplement

/-! ## Sums of bytes -/

/-- Zero-padded to an even length. -/
def padded (d : Bytes) : Bytes := if d.length % 2 ≠ 0 then d ++ [0x00] else d

/-- The 16-bit one's-complement sum of some bytes. -/
def internetSum (d : Bytes) : Nat := sum 0xFFFF (words (padded d))

theorem words_le (d : Bytes) : ∀ w ∈ words d, w ≤ 0xFFFF := by
  induction d using words.induct with
  | case1 hi lo rest ih =>
    intro w hw
    rcases List.mem_cons.mp hw with rfl | hw
    · exact Nat.le_of_lt_succ (u16_lt hi lo)
    · exact ih w hw
  | case2 d h =>
    intro w hw
    rw [words] at hw
    · cases hw
    · exact h

theorem words_append {a : Bytes} (h : a.length % 2 = 0) (b : Bytes) :
    words (a ++ b) = words a ++ words b := by
  induction a using words.induct with
  | case1 hi lo rest ih =>
    simp only [List.length_cons] at h
    simp only [List.cons_append, words]
    rw [ih (by omega)]
  | case2 d hd =>
    match d, hd with
    | [], _ => rfl
    | [_], _ => simp at h
    | hi :: lo :: rest, hd => exact absurd rfl (hd hi lo rest)

theorem padded_append {a : Bytes} (h : a.length % 2 = 0) (b : Bytes) :
    padded (a ++ b) = a ++ padded b := by
  unfold padded
  rw [List.length_append, Nat.add_mod, h, Nat.zero_add, Nat.mod_mod]
  split
  · rw [List.append_assoc]
  · rfl

theorem internetSum_eq (d : Bytes) : internetSum d = residue 0xFFFF (words (padded d)).sum :=
  sum_eq (by decide) (words_le _)

/-- **The loop of `_checksum`** computes the one's-complement sum. -/
theorem foldCarries_eq (total : Nat) : foldCarries total = residue 0xFFFF total := by
  fun_induction foldCarries total with
  | case1 total h =>
    rw [Nat.shiftRight_eq_div_pow, Nat.div_eq_zero_iff] at h
    exact (residue_of_le (by omega)).symm
  | case2 total h ih =>
    rw [ih, Nat.and_two_pow_sub_one_eq_mod _ 16, Nat.shiftRight_eq_div_pow]
    exact residue_fold (by decide) total

theorem checksum_eq (d : Bytes) : checksum d = .ok (0xFFFF - internetSum d) := by
  have hpad : (padded d).length = 2 * ((padded d).length / 2) := by
    unfold padded
    split
    · rw [List.length_append, List.length_singleton]
      omega
    · omega
  have hsum : checksum d = .ok (0xFFFF - foldCarries (words (padded d)).sum) := by
    unfold checksum
    rw [show (if d.length % 2 ≠ 0 then d ++ [0x00] else d) = padded d from rfl]
    simp only [unpackWords, if_pos hpad, ok_bind]
  rw [hsum, foldCarries_eq, internetSum_eq]

/-- **A checksum patched in** for two zero bytes makes the sum all ones. -/
theorem internetSum_patched {a b : Bytes} (h : a.length % 2 = 0) :
    internetSum (a ++ (be16 (0xFFFF - internetSum (a ++ (be16 0 ++ b))) ++ b)) = 0xFFFF := by
  have htwo : ∀ n, (be16 n).length % 2 = 0 := fun n => by rw [length_be16]
  have hwords : ∀ c : Bytes, c.length % 2 = 0 →
      (words (padded (a ++ (c ++ b)))).sum = (words a).sum + ((words c).sum + (words (padded b)).sum) := by
    intro c hc
    rw [padded_append h, padded_append hc, words_append h, words_append hc, List.sum_append,
      List.sum_append]
  have hfield : ∀ n, n ≤ 0xFFFF → (words (be16 n)).sum = n := by
    intro n hn
    simp [be16, words, u16_ofNat (show n < 65536 by omega)]
  have hzero : internetSum (a ++ (be16 0 ++ b)) =
      residue 0xFFFF ((words a).sum + (words (padded b)).sum) := by
    rw [internetSum_eq, hwords _ (htwo 0), hfield 0 (by decide), Nat.zero_add]
  have hlast := residue_complement (m := 0xFFFF) (by decide) ((words a).sum + (words (padded b)).sum)
  rw [hzero, internetSum_eq, hwords _ (htwo _), hfield _ (Nat.sub_le _ _), ← hlast]
  congr 1
  rw [hlast]
  omega

/-! ## Frames -/

section Frames

variable {a b c d a' b' c' d' : UInt8}

theorem pseudoHeader_dotted {length : Nat} (h : length < 65536) :
    pseudoHeader (dotted a b c d) (dotted a' b' c' d') length =
      .ok ([a, b, c, d, a', b', c', d', 0, protoTcp] ++ be16 length) := by
  unfold pseudoHeader
  rw [address_dotted, ok_bind, address_dotted, ok_bind, packH_ok h]
  rfl

theorem tcp_sum {x : Exchange} (hs : x.src = dotted a b c d) (hd : x.dst = dotted a' b' c' d')
    {sport dport : UInt16} (hsp : x.sport = sport.toNat) (hdp : x.dport = dport.toNat)
    (hlen : x.payload.length ≤ 65495) :
    Yields (tcp x) fun segment => segment.length = 20 + x.payload.length ∧
      internetSum ([a, b, c, d, a', b', c', d', 0, protoTcp] ++ be16 segment.length ++ segment) =
        0xFFFF := by
  obtain ⟨head, hhead⟩ : ∃ head, head = be16 sport.toNat ++ be16 dport.toNat ++ be32 1000 ++
      be32 2000 ++ [0x50, UInt8.ofNat ((flagBits.lookup x.flags).getD 0x18)] ++ be16 8192 := ⟨_, rfl⟩
  have hsegment : ∀ sum : Bytes, head ++ sum ++ be16 0 ++ x.payload =
      head ++ (sum ++ (be16 0 ++ x.payload)) := by simp
  have hlen16 : head.length = 16 := by rw [hhead]; rfl
  unfold tcp
  rw [hsp, hdp, packH_ok sport.toNat_lt, ok_bind, packH_ok dport.toNat_lt, ok_bind, hs, hd]
  simp only [← hhead, hsegment]
  have hfull : ∀ sum : Bytes, sum.length = 2 →
      (head ++ (sum ++ (be16 0 ++ x.payload))).length = 20 + x.payload.length := by
    intro sum hsum
    simp only [List.length_append, hlen16, hsum, length_be16]
    omega
  rw [pseudoHeader_dotted (by rw [hfull _ (length_be16 0)]; omega), ok_bind, checksum_eq, ok_bind,
    packH_ok (by omega), ok_bind, List.take_append_of_le_length (by omega),
    List.take_of_length_le (by omega)]
  have hdrop : (head ++ (be16 0 ++ (be16 0 ++ x.payload))).drop 18 = be16 0 ++ x.payload := by
    rw [← List.append_assoc]
    exact drop_append (by rw [List.length_append, hlen16, length_be16])
  have hpseudo : ([a, b, c, d, a', b', c', d', 0, protoTcp] ++ be16 (20 + x.payload.length) ++
      head).length % 2 = 0 := by
    simp [hlen16]
  have hpatched := internetSum_patched hpseudo (b := be16 0 ++ x.payload)
  rw [hdrop, hfull _ (length_be16 0)]
  refine yields_ok ⟨?_, ?_⟩
  · rw [List.append_assoc, hfull _ (length_be16 _)]
  · rw [List.append_assoc head, hfull _ (length_be16 _)]
    simpa only [List.append_assoc] using hpatched

theorem ipv4_sum {segment : Bytes} (hlen : 20 + segment.length < 65536) :
    Yields (ipv4 (dotted a b c d) (dotted a' b' c' d') segment) fun header =>
      header.length = 20 ∧ header.drop 12 = [a, b, c, d, a', b', c', d'] ∧
        internetSum header = 0xFFFF := by
  obtain ⟨head, hhead⟩ : ∃ head, head = [0x45, 0] ++ be16 (20 + segment.length) ++ be16 0 ++
      be16 0x4000 ++ [64, protoTcp] := ⟨_, rfl⟩
  have hlen10 : head.length = 10 := by rw [hhead]; rfl
  unfold ipv4
  rw [address_dotted, ok_bind, address_dotted, ok_bind, packH_ok hlen, ok_bind]
  simp only [← hhead]
  have hfields : head ++ be16 0 ++ field4s [a, b, c, d] ++ field4s [a', b', c', d'] =
      head ++ (be16 0 ++ [a, b, c, d, a', b', c', d']) := by
    simp [field4s]
  have hdrop : ∀ sum : Bytes, sum.length = 2 →
      (head ++ (sum ++ [a, b, c, d, a', b', c', d'])).drop 12 = [a, b, c, d, a', b', c', d'] := by
    intro sum hsum
    rw [← List.append_assoc]
    exact drop_append (by rw [List.length_append, hlen10, hsum])
  rw [hfields, checksum_eq, ok_bind, packH_ok (by omega), ok_bind,
    List.take_append_of_le_length (by omega), List.take_of_length_le (by omega),
    hdrop _ (length_be16 0)]
  refine yields_ok ⟨?_, ?_, ?_⟩
  · simp [hlen10]
  · rw [List.append_assoc]
    exact hdrop _ (length_be16 _)
  · have hpatched := internetSum_patched (a := head) (b := [a, b, c, d, a', b', c', d'])
      (by rw [hlen10])
    simpa only [List.append_assoc] using hpatched

/-! ## What a receiver checks -/

/-- The IPv4 header of an untagged Ethernet frame, when it has no options. -/
def ipHeader (frame : Bytes) : Bytes := slice frame 14 34

/-- The TCP segment behind it. -/
def segment (frame : Bytes) : Bytes := frame.drop 34

/-- The pseudo header of the segment: both addresses, the protocol, the segment's length. -/
def pseudo (frame : Bytes) : Bytes :=
  (ipHeader frame).drop 12 ++ [0, protoTcp] ++ be16 (segment frame).length

theorem encodeFrame_sums {x : Exchange} (hs : x.src = dotted a b c d)
    (hd : x.dst = dotted a' b' c' d') {sport dport : UInt16} (hsp : x.sport = sport.toNat)
    (hdp : x.dport = dport.toNat) (hlen : x.payload.length ≤ 65495) :
    Yields (encodeFrame x) fun frame =>
      internetSum (ipHeader frame) = 0xFFFF ∧ internetSum (pseudo frame ++ segment frame) = 0xFFFF := by
  unfold encodeFrame
  apply (tcp_sum hs hd hsp hdp hlen).bind
  rintro tcp ⟨htcp, hsum⟩
  rw [hs, hd]
  apply (ipv4_sum (by omega)).bind
  rintro ip ⟨hip, haddresses, hipSum⟩
  rw [mac_dotted, ok_bind, mac_dotted, ok_bind]
  obtain ⟨ethernet, hethernet⟩ : ∃ ethernet, ethernet =
      [0x02, 0x00, a', b', c', d'] ++ [0x02, 0x00, a, b, c, d] ++ be16 etherTypeIpv4 := ⟨_, rfl⟩
  have hlen14 : ethernet.length = 14 := by rw [hethernet]; rfl
  rw [← hethernet]
  have hheader : ipHeader (ethernet ++ ip ++ tcp) = ip := by
    rw [ipHeader, List.append_assoc]
    exact slice_append hlen14 (by rw [hip])
  have hsegment : segment (ethernet ++ ip ++ tcp) = tcp :=
    drop_append (by rw [List.length_append, hlen14, hip])
  refine yields_ok ⟨by rw [hheader, hipSum], ?_⟩
  rw [pseudo, hheader, hsegment, haddresses]
  exact hsum

/-- **A generated frame is valid on the wire, and decodes back**: the sums over the IPv4 header and
over pseudo header and segment are all ones; and decoding gives the exchange's addresses, ports,
flags and payload. -/
theorem encodeFrame_valid {x : Exchange} (hs : x.src = dotted a b c d)
    (hd : x.dst = dotted a' b' c' d') {sport dport : UInt16} (hsp : x.sport = sport.toNat)
    (hdp : x.dport = dport.toNat) (hlen : x.payload.length ≤ 65495) (ts : ℚ) :
    Yields (encodeFrame x) fun frame =>
      internetSum (ipHeader frame) = 0xFFFF ∧ internetSum (pseudo frame ++ segment frame) = 0xFFFF ∧
      ∃ p, Packet.decode frame Packet.linktypeEthernet ts = p ∧ p.protocol = "TCP" ∧
        p.src = some x.src ∧ p.dst = some x.dst ∧ p.sport = some x.sport ∧ p.dport = some x.dport ∧
        p.payload = x.payload ∧ p.flags = x.control.text := by
  obtain ⟨frame, hframe, hheader, hsegment⟩ := encodeFrame_sums hs hd hsp hdp hlen
  obtain ⟨f, hf, hlink, hsrc, hdst, hpayload, -, sum, htransport⟩ :=
    (encodeFrame_yields hs hd hsp hdp hlen).of_eq hframe
  have hdecode := decode_of_addresses f ts hsrc hdst
  rw [← hf, hlink] at hdecode
  refine ⟨frame, hframe, hheader, hsegment, _, hdecode, ?_⟩
  rw [htransport, hsp, hdp, hpayload]
  exact ⟨rfl, rfl, rfl, rfl, rfl, rfl, rfl⟩

end Frames

/-- A connection request with a payload of odd length. -/
def knock : Exchange := ⟨0, attacker, plc, 50412, 502, [1, 2, 3], "S"⟩

theorem encodeFrame_valid_odd :
    Yields (encodeFrame knock) fun frame =>
      internetSum (ipHeader frame) = 0xFFFF ∧ internetSum (pseudo frame ++ segment frame) = 0xFFFF ∧
      ∃ p, Packet.decode frame Packet.linktypeEthernet 0 = p ∧ p.protocol = "TCP" ∧
        p.src = some attacker ∧ p.dst = some plc ∧ p.sport = some 50412 ∧ p.dport = some 502 ∧
        p.payload = [1, 2, 3] ∧ p.flags = knock.control.text := by
  have hs : knock.src = dotted 10 10 30 142 := by decide
  have hd : knock.dst = dotted 10 10 30 21 := by decide
  have hsp : knock.sport = (50412 : UInt16).toNat := rfl
  have hdp : knock.dport = (502 : UInt16).toNat := rfl
  exact encodeFrame_valid hs hd hsp hdp (by decide) 0

end Pyscan.OtTraffic
