import Pyscan.Adapters.PcapReader

/-!
# Classic capture files

The classic format as a grammar: an `Encoding` (byte order and resolution), a
global header, and records laid end to end. The reader's turn takes one record
off the front of any file and stops at a torn one (`recordTurn_header`), so it
reads whole files exactly, and **a file cut anywhere gives the records that lie
wholly in it** (`classic_cut`).
-/

namespace Pyscan.PcapFile

open Py Framed PcapReader

/-- The four classic encodings. -/
structure Encoding where
  endian : Endian
  nanoseconds : Bool
  deriving DecidableEq

namespace Encoding

def magic : Encoding → Bytes
  | ⟨.little, false⟩ => magicUsecLe
  | ⟨.big, false⟩ => magicUsecBe
  | ⟨.little, true⟩ => magicNsecLe
  | ⟨.big, true⟩ => magicNsecBe

/-- Units of the fraction field per second. -/
def unitsPerSecond (c : Encoding) : ℚ := if c.nanoseconds then 10 ^ 9 else 10 ^ 6

theorem magic_mem (c : Encoding) : c.magic ∈ classicMagics := by
  obtain ⟨_ | _, _ | _⟩ := c <;> decide

theorem length_magic (c : Encoding) : c.magic.length = 4 := by
  obtain ⟨_ | _, _ | _⟩ := c <;> rfl

end Encoding

/-- A record: its timestamp, its length on the wire, and the frame captured. -/
structure Packet where
  seconds : UInt32
  fraction : UInt32
  original : UInt32
  frame : Bytes
  fits : frame.length ≤ maxBlock

namespace Packet

/-- The 16-byte record header. -/
def header (e : Endian) (p : Packet) : Bytes :=
  e.field 4 p.seconds.toNat ++ (e.field 4 p.fraction.toNat ++ (e.field 4 p.frame.length ++
    e.field 4 p.original.toNat))

def bytes (e : Endian) (p : Packet) : Bytes := p.header e ++ p.frame

def record (g : Global) (p : Packet) : Record :=
  (p.seconds.toNat + p.fraction.toNat / g.divisor, g.linktype, p.frame)

@[simp] theorem length_header (e : Endian) (p : Packet) : (p.header e).length = 16 := by
  simp [header]

end Packet

/-- The records of a classic file. -/
def classic : Grammar Global UInt8 Packet Record where
  bytes g p := p.bytes g.endian
  next g _ := g
  out g p := [p.record g]

/-- A turn of the loop at a record header, with any bytes behind it. -/
theorem recordTurn_header (g : Global) (p : Packet) (tail : Bytes) :
    recordTurn g (p.header g.endian ++ tail) =
      if tail.length < p.frame.length then .ok none
      else .ok (some (g, tail.drop p.frame.length,
        [(p.seconds.toNat + p.fraction.toNat / g.divisor, g.linktype, tail.take p.frame.length)])) := by
  have hfits := p.fits
  have hlen : p.frame.length < 2 ^ 32 := Nat.lt_of_le_of_lt hfits (by decide)
  have htake : (p.header g.endian ++ tail).take 16 = p.header g.endian := by
    rw [List.take_append_of_le_length (by simp), List.take_of_length_le (by simp)]
  have hunpack : g.endian.unpackIIII (p.header g.endian) =
      .ok (p.seconds.toNat, p.fraction.toNat, p.frame.length, p.original.toNat) :=
    Endian.unpackIIII_fields p.seconds.toNat_lt p.fraction.toNat_lt hlen p.original.toNat_lt
  unfold recordTurn
  simp only [htake, Packet.length_header, Nat.lt_irrefl, if_false, hunpack, call_ok, ok_bind,
    drop_append (p.length_header g.endian)]
  rw [if_neg (Nat.not_lt.mpr hfits)]
  by_cases h : tail.length < p.frame.length
  · rw [if_pos (by simpa using h), if_pos h]
  · rw [if_neg (by simpa using h), if_neg h]
    rfl

theorem reads_classic : Reads records classic fun _ _ => True := by
  intro g p rest _
  have h := recordTurn_header g p (p.frame ++ rest)
  rw [if_neg (by simp), List.take_left, List.drop_left, ← List.append_assoc] at h
  exact h

theorem records_end (g : Global) : records.turn g [] = .ok none := rfl

/-- The loop stops at a torn record. -/
theorem records_torn (g : Global) (p : Packet) {m : Nat} (h : m < (classic.bytes g p).length) :
    records.turn g ((classic.bytes g p).take m) = .ok none := by
  have hlen : (classic.bytes g p).length = 16 + p.frame.length := by
    simp [classic, Packet.bytes]
  by_cases hm : m < 16
  · have hshort : (((classic.bytes g p).take m).take 16).length < 16 := by
      rw [List.length_take, List.length_take]
      omega
    exact if_pos hshort
  · have hsplit : (classic.bytes g p).take m = p.header g.endian ++ p.frame.take (m - 16) := by
      simp only [classic, Packet.bytes]
      rw [List.take_append, List.take_of_length_le (by simp; omega), Packet.length_header]
    rw [hsplit]
    refine (recordTurn_header g p _).trans (if_pos ?_)
    rw [List.length_take]
    omega

/-! ## Files -/

/-- A classic capture file. -/
structure File where
  encoding : Encoding
  major : UInt16
  minor : UInt16
  thiszone : UInt32
  sigfigs : UInt32
  snaplen : UInt32
  linktype : UInt32
  packets : List Packet

namespace File

variable (f : File)

/-- The global header behind the magic number. -/
def settings : Bytes :=
  f.encoding.endian.field 2 f.major.toNat ++ (f.encoding.endian.field 2 f.minor.toNat ++
    (f.encoding.endian.field 4 f.thiszone.toNat ++ (f.encoding.endian.field 4 f.sigfigs.toNat ++
      (f.encoding.endian.field 4 f.snaplen.toNat ++ f.encoding.endian.field 4 f.linktype.toNat))))

/-- What a reader should take from the global header. -/
def global : Global := ⟨f.encoding.endian, f.encoding.unitsPerSecond, f.linktype.toNat⟩

def bytes : Bytes := f.encoding.magic ++ (f.settings ++ classic.stream f.global f.packets)

@[simp] theorem length_settings : f.settings.length = 20 := by simp [settings]

theorem readClassic_settings (rest : Bytes) :
    readClassic (f.settings ++ rest) f.encoding.magic = .ok (records.run f.global rest) := by
  have htake : (f.settings ++ rest).take 20 = f.settings := by
    rw [List.take_append_of_le_length (by simp), List.take_of_length_le (by simp)]
  have hlink : slice f.settings 16 20 = f.encoding.endian.field 4 f.linktype.toNat := by
    simp [settings, slice, List.drop_append, List.take_of_length_le, List.drop_eq_nil_of_le]
  have hglobal : f.global = ⟨if f.encoding.magic = magicUsecLe ∨ f.encoding.magic = magicNsecLe then
      .little else .big, if f.encoding.magic = magicNsecLe ∨ f.encoding.magic = magicNsecBe then
      float (10 ^ 9) else float (10 ^ 6), f.linktype.toNat⟩ := by
    unfold global
    obtain ⟨_ | _, _ | _⟩ := f.encoding <;> rfl
  have hendian : (if f.encoding.magic = magicUsecLe ∨ f.encoding.magic = magicNsecLe then
      Endian.little else .big) = f.encoding.endian := (congrArg Global.endian hglobal).symm
  rw [hglobal]
  unfold readClassic
  simp only [htake, length_settings, Nat.lt_irrefl, if_false, hlink, hendian,
    Endian.unpackI_field f.linktype.toNat_lt, call_ok, ok_bind, drop_append f.length_settings]

/-- A classic file is dispatched on its magic number to the classic loop. -/
theorem readPcap_settings (rest : Bytes) :
    readPcap (f.encoding.magic ++ (f.settings ++ rest)) = records.run f.global rest := by
  have htake : (f.encoding.magic ++ (f.settings ++ rest)).take 4 = f.encoding.magic := by
    rw [List.take_append_of_le_length (by simp [f.encoding.length_magic]),
      List.take_of_length_le (by simp [f.encoding.length_magic])]
  unfold readPcap
  simp only [htake, f.encoding.length_magic, Nat.lt_irrefl, if_false, f.encoding.magic_mem,
    if_true, drop_append f.encoding.length_magic, readClassic_settings, generator]

/-- The records whose header and frame lie wholly within the first `n` bytes of the file. -/
def whole (n : Nat) : List Packet := classic.whole f.global (n - 24) f.packets

theorem items_classic (g : Global) (ps : List Packet) : classic.items g ps = ps.map (Packet.record g) := by
  induction ps with
  | nil => rfl
  | cons p ps ih => rw [Grammar.items, show classic.next g p = g from rfl, ih]; rfl

/-- **A classic capture cut anywhere loses only what was cut**: behind the global header, the
reader raises nothing and yields the records that lie wholly within the cut, in order. -/
theorem classic_cut {n : Nat} (hn : 24 ≤ n) :
    readPcap (f.bytes.take n) = ⟨(f.whole n).map (Packet.record f.global), none⟩ := by
  have hsplit : f.bytes.take n = f.encoding.magic ++ (f.settings ++
      (classic.stream f.global f.packets).take (n - 24)) := by
    rw [bytes, List.take_append, List.take_append, List.take_of_length_le, List.take_of_length_le]
    · simp only [f.encoding.length_magic, length_settings, Nat.sub_sub]
    · simp [f.encoding.length_magic]; omega
    · simp [f.encoding.length_magic]; omega
  rw [hsplit, readPcap_settings, reads_classic.run_take records_end (fun g p m _ => records_torn g p)
    (Grammar.along_of_forall (fun _ _ => trivial) _ _), items_classic, whole]

/-- A big-endian nanosecond file with two records, cut inside the second frame. -/
theorem classic_cut_frame :
    let f : File :=
      ⟨⟨.big, true⟩, 2, 4, 0, 0, 65535, 1, [⟨1, 500, 2, [0xAA, 0xBB], by decide⟩,
        ⟨2, 0, 3, [1, 2, 3], by decide⟩]⟩
    (readPcap (f.bytes.take 60)).items.map (fun r => r.2.2) = [[0xAA, 0xBB]] ∧
      (readPcap (f.bytes.take 60)).error = none := by
  intro f
  rw [f.classic_cut (n := 60) (by decide)]
  exact ⟨rfl, rfl⟩

end File

end Pyscan.PcapFile
