import Pyscan.Domain.Modbus
import Pyscan.Lib.Crc

/-!
# The payloads of the UDP scan

Each port known to answer gets a request of its protocol, any other a single
byte. The DNP3 one ends in a check; `dnp3Crc` is a cyclic redundancy check of 16
bits, so **it tells apart messages that differ in up to 16 consecutive bits**
(`dnp3Crc_burst`).
-/

namespace Pyscan.UdpProbes

open Py

/-- The inner loop of `_dnp3_crc`. -/
def shiftCrc (crc : Nat) : Nat := if crc &&& 1 ≠ 0 then (crc >>> 1) ^^^ 0xA6BC else crc >>> 1

/-- `_dnp3_crc`; the complement is that of 16 bits. -/
def dnp3Crc (data : Bytes) : Nat :=
  let crc := data.foldl (fun crc byte => shiftCrc^[8] (crc ^^^ byte.toNat)) 0
  (crc ^^^ 0xFFFF) &&& 0xFFFF

def dnp3LinkStatus : Bytes :=
  let header : Bytes := [0x05, 0x64, 0x05, 0xC9, 0x00, 0x00, 0x00, 0x00]
  let crc := dnp3Crc header
  header ++ [UInt8.ofNat (crc &&& 0xFF), UInt8.ofNat ((crc >>> 8) &&& 0xFF)]

example : dnp3LinkStatus.drop 8 = [0x36, 0x4C] := by decide +kernel

def ntp : Bytes := 0x1B :: List.replicate 47 0x00

def dns : Bytes := [
  0x00, 0x00,
  0x01, 0x00,
  0x00, 0x01, 0x00, 0x00, 0x00, 0x00, 0x00, 0x00,
  0x07, 0x76, 0x65, 0x72, 0x73, 0x69, 0x6F, 0x6E, 0x04, 0x62, 0x69, 0x6E, 0x64, 0x00,
  0x00, 0x10,
  0x00, 0x03]

def snmp : Bytes := [
  0x30, 0x29, 0x02, 0x01, 0x00, 0x04, 0x06, 0x70, 0x75, 0x62, 0x6C, 0x69, 0x63,
  0xA0, 0x1C, 0x02, 0x04, 0x00, 0x00, 0x00, 0x00, 0x02, 0x01, 0x00, 0x02, 0x01, 0x00,
  0x30, 0x0E, 0x30, 0x0C, 0x06, 0x08, 0x2B, 0x06, 0x01, 0x02, 0x01, 0x01, 0x01, 0x00,
  0x05, 0x00]

def probes : List (Nat × Result Bytes) := [
  (53, .ok dns),
  (123, .ok ntp),
  (161, .ok snmp),
  (502, Modbus.buildDeviceIdRequest 1 1),
  (20000, .ok dnp3LinkStatus)]

def payloadFor (port : Nat) : Result Bytes := (probes.lookup port).getD (.ok [0x00])

/-- Every port has a payload. -/
theorem payloadFor_ok (port : Nat) : ∃ payload, payloadFor port = .ok payload := by
  have hall : ∀ entry ∈ probes, ∃ payload, entry.2 = .ok payload := by
    simp only [probes, List.forall_mem_cons]
    exact ⟨⟨_, rfl⟩, ⟨_, rfl⟩, ⟨_, rfl⟩, ⟨_, rfl⟩, ⟨_, rfl⟩, fun _ h => by cases h⟩
  unfold payloadFor
  cases hl : probes.lookup port with
  | none => exact ⟨_, rfl⟩
  | some payload =>
    obtain ⟨before, after, heq, -⟩ := List.lookup_eq_some_iff.mp hl
    exact hall _ (heq ▸ List.mem_append_right _ List.mem_cons_self)

/-! ## The check -/

/-- The polynomial of DNP3, lowest bit first. -/
def polynomial : BitVec 16 := 0xA6BC#16

theorem shiftCrc_toNat (c : BitVec 16) : shiftCrc c.toNat = (Crc.shift polynomial c).toNat := by
  have hlow : c.toNat &&& 1 ≠ 0 ↔ c.getLsbD 0 = true := by
    rw [Nat.and_one_is_mod, BitVec.getLsbD, Nat.testBit_zero, decide_eq_true_eq]
    omega
  unfold shiftCrc Crc.shift
  by_cases h : c.getLsbD 0 = true
  · rw [if_pos (hlow.mpr h), if_pos h, BitVec.toNat_xor, BitVec.toNat_ushiftRight]
    rfl
  · rw [if_neg (hlow.not.mpr h), if_neg h, BitVec.toNat_ushiftRight]

theorem shiftCrc_iterate (n : Nat) (c : BitVec 16) :
    shiftCrc^[n] c.toNat = ((Crc.shift polynomial)^[n] c).toNat := by
  induction n generalizing c with
  | zero => rfl
  | succ n ih => rw [Function.iterate_succ_apply, shiftCrc_toNat, ih, Function.iterate_succ_apply]

/-- The check is the complement of a register of 16 bits. -/
theorem dnp3Crc_eq (data : Bytes) :
    dnp3Crc data = (~~~ Crc.feedBits polynomial 0#16 (data.flatMap Crc.bitsOf)).toNat := by
  have hfold : ∀ c : BitVec 16, data.foldl (fun crc byte => shiftCrc^[8] (crc ^^^ byte.toNat)) c.toNat =
      (data.foldl (Crc.feedByte polynomial) c).toNat := by
    induction data with
    | nil => exact fun c => rfl
    | cons byte data ih =>
      intro c
      have hbyte : c.toNat ^^^ byte.toNat = (c ^^^ byte.toBitVec.setWidth 16).toNat := by
        rw [BitVec.toNat_xor, BitVec.toNat_setWidth_of_le (by decide)]
        rfl
      rw [List.foldl_cons, List.foldl_cons, hbyte, shiftCrc_iterate]
      exact ih _
  obtain ⟨r, hr⟩ : ∃ r, r = Crc.feedBits polynomial 0#16 (data.flatMap Crc.bitsOf) := ⟨_, rfl⟩
  have hcrc : dnp3Crc data = (r.toNat ^^^ 0xFFFF) &&& 0xFFFF := by
    rw [hr, ← Crc.feedBytes_bits (by decide), ← hfold]
    rfl
  have hcomplement : (~~~ r).toNat = ((r ^^^ 0xFFFF#16) &&& 0xFFFF#16).toNat := by
    congr 1
    apply BitVec.eq_of_getLsbD_eq
    intro i hi
    have hones : (0xFFFF#16).getLsbD i = true := by
      rw [show (0xFFFF#16) = BitVec.allOnes 16 by decide, BitVec.getLsbD_allOnes]
      exact decide_eq_true hi
    rw [BitVec.getLsbD_and, BitVec.getLsbD_xor, hones, BitVec.getLsbD_not, decide_eq_true hi]
    simp
  rw [hcrc, ← hr, hcomplement]
  rfl

/-- **Bursts are detected**: messages whose bits, lowest of each byte first, differ in no more than 16
consecutive places have different checks. -/
theorem dnp3Crc_burst {data data' : Bytes} {before u v after : List Bool}
    (h : data.flatMap Crc.bitsOf = before ++ u ++ after)
    (h' : data'.flatMap Crc.bitsOf = before ++ v ++ after) (hlen : u.length = v.length)
    (hle : u.length ≤ 16) (hne : u ≠ v) : dnp3Crc data ≠ dnp3Crc data' := by
  rw [dnp3Crc_eq, dnp3Crc_eq, h, h']
  intro heq
  have hregister := BitVec.not_inj.mp (BitVec.eq_of_toNat_eq heq)
  exact Crc.burst_detected (by decide) 0#16 before after hlen hle hne hregister

theorem dnp3Crc_burst_bit : dnp3Crc [0x05, 0x64] ≠ dnp3Crc [0x05, 0x65] := by
  have hsent : List.flatMap Crc.bitsOf [0x05, 0x64] =
      Crc.bitsOf 0x05 ++ [false] ++ [false, true, false, false, true, true, false] := by decide
  have hread : List.flatMap Crc.bitsOf [0x05, 0x65] =
      Crc.bitsOf 0x05 ++ [true] ++ [false, true, false, false, true, true, false] := by decide
  exact dnp3Crc_burst hsent hread rfl (by decide) (by decide)

end Pyscan.UdpProbes
