import Pyscan.Adapters.PcapFile
import Pyscan.Lib.Rounding

/-!
# Writing capture files

`writePcap` as the source has it: a timestamp is split into seconds and
microseconds by truncation, the microseconds rounded, and a carry taken into the
seconds. The split is that of the timestamp rounded to microseconds
(`stamp_eq`), so what is written is a file of the classic grammar, and **reading
it back gives the frames, and the timestamps to the microsecond** (`write_read`).
-/

namespace Pyscan.PcapWriter

open Py Framed PcapReader PcapFile Rounding

def magicUsecLe : Nat := 0xA1B2C3D4
def snaplen : Nat := 65535

/-- `int(x)`. -/
def truncate (x : ℚ) : ℤ := if 0 ≤ x then ⌊x⌋ else ⌈x⌉

/-- The seconds and microseconds written for a timestamp. -/
def stamp (ts : ℚ) : ℤ × ℤ :=
  let seconds := truncate ts
  let micros := roundHalfEven ((ts - seconds) * 1000000)
  if 1000000 ≤ micros then (seconds + 1, micros - 1000000) else (seconds, micros)

/-- `struct.pack("<IHHiIII", ...)`, its signed field being a zone offset of 0. -/
def packGlobal (magic major minor sigfigs snaplen linktype : ℤ) : Result Bytes := do
  let magic ← Endian.little.packI magic
  let major ← Endian.little.packH major
  let minor ← Endian.little.packH minor
  let thiszone ← Endian.little.packI 0
  let sigfigs ← Endian.little.packI sigfigs
  let snaplen ← Endian.little.packI snaplen
  let linktype ← Endian.little.packI linktype
  .ok (magic ++ (major ++ (minor ++ (thiszone ++ (sigfigs ++ (snaplen ++ linktype))))))

/-- `struct.pack("<IIII", ...)`. -/
def packRecord (seconds micros inclLen origLen : ℤ) : Result Bytes := do
  let seconds ← Endian.little.packI seconds
  let micros ← Endian.little.packI micros
  let inclLen ← Endian.little.packI inclLen
  let origLen ← Endian.little.packI origLen
  .ok (seconds ++ (micros ++ (inclLen ++ origLen)))

/-- The `for` loop of `write_pcap`, on what is written so far. -/
def writeLoop : List (ℚ × Bytes) → (contents : Bytes) → (count : Nat) → Result (Bytes × Nat)
  | [], contents, count => .ok (contents, count)
  | (ts, frame) :: frames, contents, count => do
    let header ← packRecord (stamp ts).1 (stamp ts).2 frame.length frame.length
    writeLoop frames (contents ++ header ++ frame) (count + 1)

/-- `write_pcap`: the contents of the file, and the number of records written. -/
def writePcap (frames : List (ℚ × Bytes)) (linktype : Nat) : Result (Bytes × Nat) := do
  let header ← packGlobal magicUsecLe 2 4 0 snaplen linktype
  writeLoop frames header 0

/-! ## Timestamps -/

/-- A timestamp in whole microseconds. -/
def ticks (ts : ℚ) : ℤ := roundHalfEven (ts * 10 ^ 6)

theorem ticks_mono {ts ts' : ℚ} (h : ts ≤ ts') : ticks ts ≤ ticks ts' :=
  roundHalfEven_mono (mul_le_mul_of_nonneg_right h (by norm_num))

theorem ticks_nonneg {ts : ℚ} (h : 0 ≤ ts) : 0 ≤ ticks ts := by
  have h0 := ticks_mono h
  rwa [ticks, zero_mul, ← Int.cast_zero, roundHalfEven_intCast] at h0

/-- **The split** of a timestamp is that of its whole microseconds. -/
theorem stamp_eq {ts : ℚ} (h : 0 ≤ ts) : stamp ts = (ticks ts / 1000000, ticks ts % 1000000) := by
  obtain ⟨m, hm⟩ : ∃ m, roundHalfEven ((ts - ⌊ts⌋) * 1000000) = m := ⟨_, rfl⟩
  have hticks : ticks ts = m + ⌊ts⌋ * 1000000 := by
    have hsplit : ts * 10 ^ 6 = (ts - ⌊ts⌋) * 1000000 + ((⌊ts⌋ * 1000000 : ℤ) : ℚ) := by
      push_cast
      ring
    have heven : Even (⌊ts⌋ * 1000000) := Even.mul_left (by decide) _
    rw [ticks, hsplit, roundHalfEven_add_even _ heven, hm]
  have hlo : 0 ≤ m := by
    rw [← hm, ← roundHalfEven_intCast (K := ℚ) 0]
    have hfloor := Int.floor_le ts
    exact roundHalfEven_mono (by push_cast; nlinarith)
  have hhi : m ≤ 1000000 := by
    rw [← hm, ← roundHalfEven_intCast (K := ℚ) 1000000]
    have hfloor := Int.lt_floor_add_one ts
    exact roundHalfEven_mono (by push_cast; nlinarith)
  unfold stamp truncate
  rw [if_pos h]
  dsimp only
  rw [hm, hticks]
  split
  · rw [Prod.mk.injEq]
    omega
  · rw [Prod.mk.injEq]
    omega

theorem abs_ticks_le (ts : ℚ) : |(ticks ts : ℚ) / 10 ^ 6 - ts| ≤ 1 / 2 * (1 / 10 ^ 6) := by
  have h := abs_roundHalfEven_sub_le (ts * 10 ^ 6)
  have hscale : (ticks ts : ℚ) / 10 ^ 6 - ts = (ticks ts - ts * 10 ^ 6) * (1 / 10 ^ 6) := by
    field_simp
  rw [hscale, abs_mul, abs_of_pos (by norm_num : (0 : ℚ) < 1 / 10 ^ 6)]
  exact mul_le_mul_of_nonneg_right h (by norm_num)

/-! ## Files -/

/-- What can be written: a timestamp from the epoch on whose seconds fit their field, and a frame
that a reader takes for plausible. -/
structure Writable (r : ℚ × Bytes) : Prop where
  epoch : 0 ≤ r.1
  seconds : ticks r.1 < 2 ^ 32 * 10 ^ 6
  frame : r.2.length ≤ maxBlock

/-- The record a reader should give for a frame written. -/
def readBack (linktype : Nat) (r : ℚ × Bytes) : Record := (ticks r.1 / 10 ^ 6, linktype, r.2)

theorem packI_ok {n : Nat} (h : n < 2 ^ 32) :
    Endian.little.packI n = .ok (Endian.little.field 4 n) := by
  rw [Endian.packI, if_pos (by omega), Int.toNat_natCast]

theorem packRecord_ok (p : Packet) (h : p.original.toNat = p.frame.length) :
    packRecord p.seconds.toNat p.fraction.toNat p.frame.length p.frame.length =
      .ok (p.header .little) := by
  have hlen : p.frame.length < 2 ^ 32 := h ▸ p.original.toNat_lt
  simp only [packRecord, packI_ok p.seconds.toNat_lt, packI_ok p.fraction.toNat_lt, packI_ok hlen,
    ok_bind, Packet.header, h]

/-- A frame that can be written is a record of the classic grammar. -/
theorem exists_packet {r : ℚ × Bytes} (h : Writable r) (linktype : Nat) :
    ∃ p : Packet, p.frame = r.2 ∧ p.fraction.toNat < 1000000 ∧
      packRecord (stamp r.1).1 (stamp r.1).2 r.2.length r.2.length = .ok (p.header .little) ∧
      p.record ⟨.little, 10 ^ 6, linktype⟩ = readBack linktype r := by
  have hnonneg := ticks_nonneg h.epoch
  have hseconds := h.seconds
  have hframe : r.2.length < 2 ^ 32 := Nat.lt_of_le_of_lt h.frame (by decide)
  obtain ⟨n, hn⟩ : ∃ n : Nat, ticks r.1 = n := ⟨_, (Int.toNat_of_nonneg hnonneg).symm⟩
  obtain ⟨p, hp⟩ : ∃ p : Packet, p = ⟨UInt32.ofNat (n / 1000000), UInt32.ofNat (n % 1000000),
    UInt32.ofNat r.2.length, r.2, h.frame⟩ := ⟨_, rfl⟩
  have hs : p.seconds.toNat = n / 1000000 := by
    rw [hp]
    exact UInt32.toNat_ofNat_of_lt' (by rw [UInt32.size]; omega)
  have hf : p.fraction.toNat = n % 1000000 := by
    rw [hp]
    exact UInt32.toNat_ofNat_of_lt' (by rw [UInt32.size]; omega)
  have ho : p.original.toNat = p.frame.length := by
    rw [hp]
    exact UInt32.toNat_ofNat_of_lt' hframe
  have hr : p.frame = r.2 := by rw [hp]
  refine ⟨p, hr, by rw [hf]; omega, ?_, ?_⟩
  · rw [stamp_eq h.epoch, hn, ← packRecord_ok p ho, hs, hf, hr]
    norm_cast
  · have hsplit : (n : ℚ) = ((n / 1000000 : Nat) : ℚ) * 10 ^ 6 + ((n % 1000000 : Nat) : ℚ) := by
      exact_mod_cast (Nat.div_add_mod' n 1000000).symm
    rw [Packet.record, readBack, hs, hf, hr, hn, Prod.mk.injEq]
    refine ⟨?_, rfl⟩
    rw [Int.cast_natCast, hsplit]
    field_simp

/-- The loop writes records of the classic grammar. -/
theorem writeLoop_ok {frames : List (ℚ × Bytes)} (h : ∀ r ∈ frames, Writable r) (linktype : Nat)
    (contents : Bytes) (count : Nat) :
    ∃ ps : List Packet, (∀ p ∈ ps, p.fraction.toNat < 1000000) ∧
      ps.map (Packet.record ⟨.little, 10 ^ 6, linktype⟩) = frames.map (readBack linktype) ∧
      writeLoop frames contents count =
        .ok (contents ++ classic.stream ⟨.little, 10 ^ 6, linktype⟩ ps, count + frames.length) := by
  induction frames generalizing contents count with
  | nil => exact ⟨[], by simp, rfl, by rw [writeLoop, Grammar.stream, List.append_nil]; rfl⟩
  | cons r frames ih =>
    obtain ⟨ts, frame⟩ := r
    obtain ⟨p, hframe, hfrac, hpack, hrecord⟩ := exists_packet (h _ List.mem_cons_self) linktype
    obtain ⟨ps, hfracs, hrecords, hloop⟩ := ih (fun r hr => h r (List.mem_cons_of_mem _ hr))
      (contents ++ p.header .little ++ frame) (count + 1)
    refine ⟨p :: ps, fun q hq => ?_, ?_, ?_⟩
    · rcases List.mem_cons.mp hq with rfl | hq
      · exact hfrac
      · exact hfracs q hq
    · rw [List.map_cons, List.map_cons, hrecord, hrecords]
    · obtain rfl : p.frame = frame := hframe
      rw [writeLoop, hpack, ok_bind, hloop, Grammar.stream]
      simp only [classic, Packet.bytes, List.append_assoc, List.length_cons]
      rw [Nat.add_assoc, Nat.add_comm 1]

/-- The file laid out for some records. -/
def written (linktype : Nat) (ps : List Packet) : File where
  encoding := ⟨.little, false⟩
  major := 2
  minor := 4
  thiszone := 0
  sigfigs := 0
  snaplen := 65535
  linktype := UInt32.ofNat linktype
  packets := ps

section Written

variable {linktype : Nat} (hlink : linktype < 2 ^ 32)

include hlink

theorem toNat_linktype : (UInt32.ofNat linktype).toNat = linktype := UInt32.toNat_ofNat_of_lt' hlink

theorem global_written (ps : List Packet) :
    (written linktype ps).global = ⟨.little, 10 ^ 6, linktype⟩ := by
  rw [File.global, written, toNat_linktype hlink]
  rfl

theorem packGlobal_ok (ps : List Packet) :
    packGlobal magicUsecLe 2 4 0 snaplen linktype =
      .ok ((written linktype ps).encoding.magic ++ (written linktype ps).settings) := by
  have hpackH : ∀ n : Nat, n < 65536 → Endian.little.packH n = .ok (Endian.little.field 2 n) := by
    intro n hn
    rw [Endian.packH, if_pos (by omega), Int.toNat_natCast]
  have h2 := hpackH 2 (by decide)
  have h4 := hpackH 4 (by decide)
  have hmagic := packI_ok (n := magicUsecLe) (by decide)
  have hzero := packI_ok (n := 0) (by decide)
  have hsnap := packI_ok (n := snaplen) (by decide)
  push_cast at h2 h4 hzero
  simp only [packGlobal, hmagic, h2, h4, hzero, hsnap, packI_ok hlink, ok_bind, written,
    File.settings, toNat_linktype hlink]
  rfl

/-- Writing gives a file of the classic grammar, whose records are those to read back. -/
theorem writePcap_ok {frames : List (ℚ × Bytes)} (h : ∀ r ∈ frames, Writable r) :
    ∃ f : File, writePcap frames linktype = .ok (f.bytes, frames.length) ∧
      (∀ p ∈ f.packets, p.fraction.toNat < 1000000) ∧
      f.packets.map (Packet.record f.global) = frames.map (readBack linktype) := by
  obtain ⟨ps, hfracs, hrecords, hloop⟩ := writeLoop_ok h linktype
    ((written linktype []).encoding.magic ++ (written linktype []).settings) 0
  refine ⟨written linktype ps, ?_, hfracs, ?_⟩
  · rw [writePcap, packGlobal_ok hlink [], ok_bind, hloop, Nat.zero_add, File.bytes,
      global_written hlink, List.append_assoc]
    rfl
  · rw [global_written hlink, ← hrecords]
    rfl

/-- **Write, then read**: the file has a record for each frame, its microseconds in range; the
records read back carry the same frames in the same order, that linktype, and timestamps within
half a microsecond of those written, in the order of those written. -/
theorem write_read {frames : List (ℚ × Bytes)} (h : ∀ r ∈ frames, Writable r) :
    ∃ (f : File) (out : List Record),
      writePcap frames linktype = .ok (f.bytes, frames.length) ∧
      (∀ p ∈ f.packets, p.fraction.toNat ≤ 999999) ∧
      readPcap f.bytes = ⟨out, none⟩ ∧
      List.Forall₂ (fun r r' => r'.2.2 = r.2 ∧ r'.2.1 = linktype ∧
        |r'.1 - r.1| ≤ 1 / 2 * (1 / 10 ^ 6)) frames out ∧
      ∀ r ∈ frames.zip out, ∀ r' ∈ frames.zip out, r.1.1 ≤ r'.1.1 → r.2.1 ≤ r'.2.1 := by
  obtain ⟨f, hwrite, hfracs, hrecords⟩ := writePcap_ok hlink h
  have hread : readPcap f.bytes = ⟨frames.map (readBack linktype), none⟩ := by
    rw [File.bytes, f.readPcap_settings, reads_classic.run_all records_end
      (Grammar.along_of_forall (fun _ _ => trivial) _ _), File.items_classic, hrecords]
  have hback : List.Forall₂ (fun r r' => r' = readBack linktype r) frames
      (frames.map (readBack linktype)) := by
    rw [List.forall₂_map_right_iff, List.forall₂_same]
    exact fun _ _ => rfl
  refine ⟨f, frames.map (readBack linktype), hwrite, fun p hp => Nat.le_of_lt_succ (hfracs p hp),
    hread, hback.imp ?_, fun r hr r' hr' hle => ?_⟩
  · rintro r _ rfl
    exact ⟨rfl, rfl, abs_ticks_le r.1⟩
  · rw [List.forall₂_zip hback hr, List.forall₂_zip hback hr']
    have hticks : (ticks r.1.1 : ℚ) ≤ ticks r'.1.1 := Int.cast_le.mpr (ticks_mono hle)
    exact div_le_div_of_nonneg_right hticks (by norm_num)

/-- What is written is read back, stamped to the microsecond, and nothing else is. -/
theorem read_writePcap {frames : List (ℚ × Bytes)} (h : ∀ r ∈ frames, Writable r) :
    ∃ contents, writePcap frames linktype = .ok (contents, frames.length) ∧
      readPcap contents = ⟨frames.map (readBack linktype), none⟩ := by
  obtain ⟨f, hwrite, -, hrecords⟩ := writePcap_ok hlink h
  refine ⟨f.bytes, hwrite, ?_⟩
  rw [File.bytes, f.readPcap_settings, reads_classic.run_all records_end
    (Grammar.along_of_forall (fun _ _ => trivial) _ _), File.items_classic, hrecords]

end Written

/-- A timestamp that rounds up to the next second, and one at a half microsecond. -/
theorem write_read_carry :
    ∃ (f : File) (out : List Record),
      writePcap [(19999996 / 10000000, [1, 2, 3]), (1 / 2000000, [])] 1 = .ok (f.bytes, 2) ∧
      readPcap f.bytes = ⟨out, none⟩ ∧ out.map (fun r => r.2.2) = [[1, 2, 3], []] := by
  have hw : ∀ r ∈ [((19999996 / 10000000 : ℚ), ([1, 2, 3] : Bytes)), (1 / 2000000, [])],
      Writable r := by
    simp only [List.forall_mem_cons, List.not_mem_nil, false_implies, implies_true, and_true]
    exact ⟨⟨by norm_num, by decide +kernel, by decide⟩, ⟨by norm_num, by decide +kernel, by decide⟩⟩
  obtain ⟨f, out, hwrite, -, hread, hback, -⟩ := write_read (by decide : 1 < 2 ^ 32) hw
  refine ⟨f, out, hwrite, hread, ?_⟩
  obtain ⟨a, as, ha, hrest, rfl⟩ := List.forall₂_cons_left_iff.mp hback
  obtain ⟨b, bs, hb, hnil, rfl⟩ := List.forall₂_cons_left_iff.mp hrest
  obtain rfl := List.forall₂_nil_left_iff.mp hnil
  rw [List.map_cons, List.map_cons, ha.1, hb.1, List.map_nil]

end Pyscan.PcapWriter
