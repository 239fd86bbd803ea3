import Pyscan.Py.Struct
import Pyscan.Py.Float
import Pyscan.Lib.Framed

/-!
# Capture files to records

`readPcap` on the contents of a capture file: classic libpcap and pcapng, told
apart by the magic number. A file handle is the bytes it has left to read. Each
of the two loops is a turn, and its generator the run of that turn as a
`Framed.Reader`: every turn consumes some of the file, so a run ends. Times and
divisors are floats, in the arithmetic of the `Floats` at hand: exact rationals
unless another is named.
-/

namespace Pyscan.PcapReader

open Py Framed

/-- An exception: its class, and its text where the source gives it one. -/
structure Raised where
  kind : PyErr
  text : Option String
  deriving DecidableEq, Repr

abbrev Read (α : Type) := Except Raised α

/-- A call that may raise an exception of the interpreter's own. -/
def call {α : Type} : Result α → Read α
  | .ok a => .ok a
  | .error kind => .error ⟨kind, none⟩

/-- `raise ValueError(text)`. -/
def raiseValueError {α : Type} (text : String) : Read α := .error ⟨.valueError, some text⟩

@[simp] theorem call_ok {α : Type} (a : α) : call (.ok a : Result α) = .ok a := rfl

/-- (epoch seconds, linktype, frame bytes). -/
abbrev Record := ℚ × Nat × Bytes

/-- `handle.read(n)`, and what is left. -/
abbrev handleRead (handle : Bytes) (n : Nat) : Bytes × Bytes := (handle.take n, handle.drop n)

/-- The generator of a function that may raise before its loop. -/
def generator (x : Read (Outcome Raised Record)) : Outcome Raised Record :=
  match x with
  | .ok out => out
  | .error e => ⟨[], some e⟩

def magicUsecLe : Bytes := [0xd4, 0xc3, 0xb2, 0xa1]
def magicUsecBe : Bytes := [0xa1, 0xb2, 0xc3, 0xd4]
def magicNsecLe : Bytes := [0x4d, 0x3c, 0xb2, 0xa1]
def magicNsecBe : Bytes := [0xa1, 0xb2, 0x3c, 0x4d]
def classicMagics : List Bytes := [magicUsecLe, magicUsecBe, magicNsecLe, magicNsecBe]

def btShb : Nat := 0x0A0D0D0A
def btIdb : Nat := 0x00000001
def btPb : Nat := 0x00000002
def btSpb : Nat := 0x00000003
def btEpb : Nat := 0x00000006

def shbMagic : Nat := 0x1A2B3C4D
def maxBlock : Nat := 64 * 1024 * 1024

/-! ## Classic libpcap -/

/-- What `_read_classic` keeps of the magic number and the global header. -/
structure Global where
  endian : Endian
  divisor : ℚ
  linktype : Nat

def recordText (inclLen : Nat) : String :=
  "Implausible record length (" ++ toString inclLen ++ " bytes) - corrupt capture."

/-- One turn of the loop of `_read_classic`. -/
def recordTurn [Floats] (g : Global) (handle : Bytes) : Read (Option (Global × Bytes × List Record)) :=
  let raw := handleRead handle 16
  if raw.1.length < 16 then .ok none
  else do
    let (tsSec, tsFrac, inclLen, _origLen) ← call (g.endian.unpackIIII raw.1)
    if maxBlock < inclLen then raiseValueError (recordText inclLen)
    else
      let frame := handleRead raw.2 inclLen
      if frame.1.length < inclLen then .ok none
      else
        let ts := fadd (float tsSec) (truediv (float tsFrac) g.divisor)
        .ok (some (g, frame.2, [(ts, g.linktype, frame.1)]))

theorem recordTurn_shrinks [Floats] {g g' : Global} {handle handle' : Bytes} {out : List Record}
    (h : recordTurn g handle = .ok (some (g', handle', out))) : handle'.length < handle.length := by
  unfold recordTurn at h
  dsimp only [handleRead] at h
  split at h
  · cases h
  · rename_i hraw
    rw [Endian.unpackIIII_ok (by rw [List.length_take] at hraw ⊢; omega), call_ok, ok_bind] at h
    dsimp only at h
    split at h
    · cases h
    · split at h
      · cases h
      · cases h
        simp only [List.length_take, List.length_drop] at hraw ⊢
        omega

/-- The loop of `_read_classic`. -/
def records [Floats] : Reader Global UInt8 Raised Record where
  turn := recordTurn
  shrinks := recordTurn_shrinks

def readClassic [Floats] (handle : Bytes) (magic : Bytes) : Read (Outcome Raised Record) :=
  let endian : Endian := if magic = magicUsecLe ∨ magic = magicNsecLe then .little else .big
  let divisor : ℚ := if magic = magicNsecLe ∨ magic = magicNsecBe then float (10 ^ 9) else float (10 ^ 6)
  let rest := handleRead handle 20
  if rest.1.length < 20 then raiseValueError "Truncated pcap global header."
  else do
    let linktype ← call (endian.unpackI (slice rest.1 16 20))
    .ok (records.run ⟨endian, divisor, linktype⟩ rest.2)

/-! ## pcapng: packets -/

/-- (linktype, timestamp divisor). -/
abbrev Interface := Nat × ℚ

/-- `-n % 4`. -/
def pad4 (n : Nat) : Nat := (-(n : Int) % 4).toNat

/-- The `while` loop of `_timestamp_divisor` at `offset`. -/
def divisorLoop [Floats] (options : Bytes) (endian : Endian) (offset : Nat) : Result ℚ :=
  if h : offset + 4 ≤ options.length then do
    let (code, length) ← endian.unpackHH (slice options offset (offset + 4))
    if code = 0 then .ok (float (10 ^ 6))
    else
      let value := slice options (offset + 4) (offset + 4 + length)
      if code = 9 ∧ 1 ≤ length then do
        let raw := (← index value 0).toNat
        .ok (if raw &&& 0x80 ≠ 0 then float (2 ^ (raw &&& 0x7F)) else float (10 ^ raw))
      else divisorLoop options endian (offset + (4 + length + pad4 length))
  else .ok (float (10 ^ 6))
termination_by options.length - offset

def timestampDivisor [Floats] (options : Bytes) (endian : Endian) : Result ℚ := divisorLoop options endian 0

def parseIdb [Floats] (body : Bytes) (endian : Endian) : Result Interface :=
  if body.length < 8 then .ok (1, float (10 ^ 6))
  else do
    let linktype ← endian.unpackH (body.take 2)
    let divisor ← timestampDivisor (body.drop 8) endian
    .ok (linktype, divisor)

/-- `_interface`; an index is never negative. -/
def interface [Floats] (interfaces : List Interface) (index : Nat) : Interface :=
  match interfaces[index]? with
  | some i => i
  | none => (1, float (10 ^ 6))

def parseEpb [Floats] (body : Bytes) (endian : Endian) (interfaces : List Interface) :
    Result (Option Record) :=
  if body.length < 20 then .ok none
  else do
    let (ifaceId, tsHigh, tsLow, caplen, _origlen) ← endian.unpackIIIII (body.take 20)
    let (linktype, divisor) := interface interfaces ifaceId
    let frame := slice body 20 (20 + caplen)
    if frame.length < caplen then .ok none
    else .ok (some (truediv (float ((tsHigh <<< 32) ||| tsLow : Nat)) divisor, linktype, frame))

def parseObsoletePb [Floats] (body : Bytes) (endian : Endian) (interfaces : List Interface) :
    Result (Option Record) :=
  if body.length < 20 then .ok none
  else do
    let (ifaceId, _drops, tsHigh, tsLow, caplen, _origlen) ← endian.unpackHHIIII (body.take 20)
    let (linktype, divisor) := interface interfaces ifaceId
    let frame := slice body 20 (20 + caplen)
    if frame.length < caplen then .ok none
    else .ok (some (truediv (float ((tsHigh <<< 32) ||| tsLow : Nat)) divisor, linktype, frame))

/-- The Simple Packet Block branch of `_read_pcapng`. -/
def parseSpb [Floats] (body : Bytes) (interfaces : List Interface) : Option Record :=
  if 4 ≤ body.length then some (0, (interface interfaces 0).1, body.drop 4) else none

/-! ## pcapng: blocks -/

/-- The byte order and the interfaces of the section being read. -/
structure Section where
  endian : Endian
  interfaces : List Interface

/-- The dispatch on the block type: the interface table after the block, and its packet. -/
def dispatch [Floats] (s : Section) (blockType : Nat) (body : Bytes) :
    Result (List Interface × Option Record) :=
  if blockType = btIdb then do .ok (s.interfaces ++ [← parseIdb body s.endian], none)
  else if blockType = btEpb then do .ok (s.interfaces, ← parseEpb body s.endian s.interfaces)
  else if blockType = btSpb then .ok (s.interfaces, parseSpb body s.interfaces)
  else if blockType = btPb then do .ok (s.interfaces, ← parseObsoletePb body s.endian s.interfaces)
  else .ok (s.interfaces, none)

def sectionText (total : Nat) : String :=
  "Implausible pcapng section length (" ++ toString total ++ " bytes)."

def blockText (total : Nat) : String :=
  "Implausible pcapng block length (" ++ toString total ++ " bytes) - corrupt capture."

/-- `_read_shb_header`: the byte order, the length, and what is left to read. -/
def readShbHeader (handle : Bytes) (head : Bytes) : Read (Endian × Nat × Bytes) :=
  let magic := handleRead handle 4
  if magic.1.length < 4 then raiseValueError "Truncated pcapng section header."
  else do
    let guess ← call (Endian.little.unpackI magic.1)
    let endian : Endian := if guess = shbMagic then .little else .big
    if (← call (endian.unpackI magic.1)) ≠ shbMagic then
      raiseValueError "Bad pcapng byte-order magic."
    else do
      let total ← call (endian.unpackI (slice head 4 8))
      if total < 16 ∨ maxBlock < total then raiseValueError (sectionText total)
      else .ok (endian, total, magic.2)

/-- A Section Header Block in the loop of `_read_pcapng`. -/
def sectionTurn (handle : Bytes) (head : Bytes) : Read (Option (Section × Bytes × List Record)) := do
  let (endian, total, handle) ← readShbHeader handle head
  let remaining := total - 16
  let body := handleRead handle remaining
  let trailer := handleRead body.2 4
  if body.1.length < remaining ∨ trailer.1.length < 4 then .ok none
  else .ok (some (⟨endian, []⟩, trailer.2, []))

/-- Any other block in the loop of `_read_pcapng`. -/
def bodyTurn [Floats] (s : Section) (handle : Bytes) (head : Bytes) (blockType : Nat) :
    Read (Option (Section × Bytes × List Record)) := do
  let total ← call (s.endian.unpackI (slice head 4 8))
  if total < 12 ∨ maxBlock < total then raiseValueError (blockText total)
  else
    let body := handleRead handle (total - 12)
    let trailer := handleRead body.2 4
    if body.1.length < total - 12 ∨ trailer.1.length < 4 then .ok none
    else do
      let (interfaces, packet) ← call (dispatch s blockType body.1)
      .ok (some (⟨s.endian, interfaces⟩, trailer.2, packet.toList))

/-- One turn of the loop of `_read_pcapng`. -/
def blockTurn [Floats] (s : Section) (handle : Bytes) : Read (Option (Section × Bytes × List Record)) :=
  let head := handleRead handle 8
  if head.1.length < 8 then .ok none
  else do
    let blockType ← call (s.endian.unpackI (head.1.take 4))
    if blockType = btShb then sectionTurn head.2 head.1
    else bodyTurn s head.2 head.1 blockType

theorem sectionTurn_le {handle head handle' : Bytes} {s' : Section} {out : List Record}
    (h : sectionTurn handle head = .ok (some (s', handle', out))) :
    handle'.length ≤ handle.length := by
  obtain ⟨⟨endian, total, rest⟩, hhead, h⟩ := bind_inv h
  have hrest : rest.length ≤ handle.length := by
    unfold readShbHeader at hhead
    dsimp only [handleRead] at hhead
    split at hhead
    · cases hhead
    · obtain ⟨guess, -, hhead⟩ := bind_inv hhead
      obtain ⟨magic, -, hhead⟩ := bind_inv hhead
      split at hhead
      · cases hhead
      · obtain ⟨length, -, hhead⟩ := bind_inv hhead
        split at hhead
        · cases hhead
        · cases hhead
          simp
  dsimp only [handleRead] at h
  split at h
  · cases h
  · cases h
    simp only [List.length_drop]
    omega

theorem bodyTurn_le [Floats] {s s' : Section} {handle head handle' : Bytes} {blockType : Nat}
    {out : List Record} (h : bodyTurn s handle head blockType = .ok (some (s', handle', out))) :
    handle'.length ≤ handle.length := by
  obtain ⟨total, -, h⟩ := bind_inv h
  dsimp only [handleRead] at h
  split at h
  · cases h
  · split at h
    · cases h
    · obtain ⟨r, -, h⟩ := bind_inv h
      cases h
      simp only [List.length_drop]
      omega

theorem blockTurn_shrinks [Floats] {s s' : Section} {handle handle' : Bytes} {out : List Record}
    (h : blockTurn s handle = .ok (some (s', handle', out))) : handle'.length < handle.length := by
  unfold blockTurn at h
  dsimp only [handleRead] at h
  split at h
  · cases h
  · rename_i hhead
    obtain ⟨blockType, -, h⟩ := bind_inv h
    have hle : handle'.length ≤ (handle.drop 8).length := by
      split at h
      · exact sectionTurn_le h
      · exact bodyTurn_le h
    rw [List.length_take] at hhead
    rw [List.length_drop] at hle
    omega

/-- The loop of `_read_pcapng`. -/
def blocks [Floats] : Reader Section UInt8 Raised Record where
  turn := blockTurn
  shrinks := blockTurn_shrinks

/-- `_read_pcapng`, from the start of the file. -/
def readPcapng [Floats] (contents : Bytes) : Outcome Raised Record := blocks.run ⟨.little, []⟩ contents

/-- `read_pcap`, on the contents of the file. -/
def readPcap [Floats] (contents : Bytes) : Outcome Raised Record := generator <|
  let magic := handleRead contents 4
  if magic.1.length < 4 then raiseValueError "File too short to be a capture."
  else if magic.1 ∈ classicMagics then readClassic magic.2 magic.1
  else do
    let little ← call (Endian.little.unpackI magic.1)
    let big ← call (Endian.big.unpackI magic.1)
    if btShb = little ∨ btShb = big then .ok (readPcapng contents)
    else raiseValueError "Not a pcap or pcapng file (bad magic number)."

/-- `read_pcap` with other loops in place of its own. -/
def openPcap [Floats] {α : Type} (classic : Global → Bytes → α) (pcapng : Section → Bytes → α)
    (contents : Bytes) : Read α :=
  let magic := handleRead contents 4
  if magic.1.length < 4 then raiseValueError "File too short to be a capture."
  else if magic.1 ∈ classicMagics then
    let endian : Endian := if magic.1 = magicUsecLe ∨ magic.1 = magicNsecLe then .little else .big
    let divisor : ℚ := if magic.1 = magicNsecLe ∨ magic.1 = magicNsecBe then float (10 ^ 9) else float (10 ^ 6)
    let rest := handleRead magic.2 20
    if rest.1.length < 20 then raiseValueError "Truncated pcap global header."
    else do
      let linktype ← call (endian.unpackI (slice rest.1 16 20))
      .ok (classic ⟨endian, divisor, linktype⟩ rest.2)
  else do
    let little ← call (Endian.little.unpackI magic.1)
    let big ← call (Endian.big.unpackI magic.1)
    if btShb = little ∨ btShb = big then .ok (pcapng ⟨.little, []⟩ contents)
    else raiseValueError "Not a pcap or pcapng file (bad magic number)."

theorem readPcap_eq [Floats] (contents : Bytes) :
    readPcap contents = generator (openPcap records.run blocks.run contents) := rfl

end Pyscan.PcapReader
