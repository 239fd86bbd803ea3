import Pyscan.Adapters.PcapngFile

/-!
# Simple Packet Blocks

A Simple Packet Block holds the length of a frame, the frame, and zeros up to a
multiple of four bytes; its interface is the section's first. A `Capture` is
blocks of the file grammar and Simple Packet Blocks in any order. The reader takes
everything behind the length field for the frame, so of every such block of every
section **it gives the frame back exactly when** there is no padding, and the
block is not above the sanity cap (`simple_exact`). An Enhanced Packet Block gives
the frame back whatever its padding.
-/

namespace Pyscan.Pcapng

open Py Framed PcapReader

/-- The length of the block that encodes a frame. -/
def simpleLength (frame : Bytes) : Nat := 16 + frame.length + pad4 frame.length

/-- The Simple Packet Block of a frame. -/
def simpleBlock (e : Endian) (frame : Bytes) : Bytes :=
  e.field 4 btSpb ++ e.field 4 (simpleLength frame) ++
    (e.field 4 frame.length ++ (frame ++ List.replicate (pad4 frame.length) 0) ++
      e.field 4 (simpleLength frame))

section Turn

variable {s : Section} {frame : Bytes}

/-- A block above the sanity cap is refused. -/
theorem blockTurn_simple_refused (hsize : simpleLength frame < 2 ^ 32)
    (hbig : maxBlock < simpleLength frame) (rest : Bytes) :
    blockTurn s (simpleBlock s.endian frame ++ rest) =
      raiseValueError (blockText (simpleLength frame)) := by
  obtain ⟨head, hhead⟩ : ∃ head, head = s.endian.field 4 btSpb ++
    s.endian.field 4 (simpleLength frame) := ⟨_, rfl⟩
  have hlen : head.length = 8 := by simp [hhead]
  have htype : s.endian.value (head.take 4) = btSpb := by
    rw [hhead, List.take_append_of_le_length (by simp), List.take_of_length_le (by simp),
      Endian.value_field_four (by decide)]
  have htotal : slice head 4 8 = s.endian.field 4 (simpleLength frame) := by
    simp [hhead, slice, List.take_of_length_le]
  rw [simpleBlock, ← hhead, List.append_assoc, blockTurn_eq s hlen, htype, if_neg (by decide)]
  unfold bodyTurn
  rw [htotal, Endian.unpackI_field hsize, call_ok, ok_bind, if_pos (.inr hbig)]

/-- Otherwise the packet is all that stands behind the length field. -/
theorem blockTurn_simple (hfits : simpleLength frame ≤ maxBlock) (rest : Bytes) :
    blockTurn s (simpleBlock s.endian frame ++ rest) =
      .ok (some (s, rest, [(0, (interface s.interfaces 0).1,
        frame ++ List.replicate (pad4 frame.length) 0)])) := by
  obtain ⟨body, hbody⟩ : ∃ body, body = s.endian.field 4 frame.length ++
    (frame ++ List.replicate (pad4 frame.length) 0) := ⟨_, rfl⟩
  have htotal : simpleLength frame = 12 + body.length := by
    simp [hbody, simpleLength]
    omega
  obtain ⟨b, htype, hb, hbytes⟩ : ∃ b : Block, b.type = btSpb ∧ b.body = body ∧
      simpleBlock s.endian frame = b.bytes s.endian := by
    refine ⟨⟨btSpb, body, s.endian.field 4 (12 + body.length), by decide, by decide, by omega,
      by simp⟩, rfl, rfl, ?_⟩
    rw [simpleBlock, ← hbody, htotal]
    rfl
  have hd : dispatch s btSpb body = .ok (s.interfaces,
      some (0, (interface s.interfaces 0).1, frame ++ List.replicate (pad4 frame.length) 0)) := by
    have hdrop : body.drop 4 = frame ++ List.replicate (pad4 frame.length) 0 := by
      rw [hbody]
      exact drop_append (by simp)
    rw [dispatch, if_neg (by decide), if_neg (by decide), if_pos rfl, parseSpb,
      if_pos (by simp [hbody]), hdrop]
  rw [hbytes, blockTurn_block, htype, hb, hd]
  rfl

end Turn

theorem dvd_iff_pad4 (n : Nat) : 4 ∣ n ↔ pad4 n = 0 := by
  unfold pad4
  omega

/-! ## Captures with Simple Packet Blocks -/

/-- A block of a capture. -/
inductive Part where
  | item (i : Item)
  | simple (frame : Bytes)

namespace Part

/-- The block in a section of byte order `e`. -/
def bytes (e : Endian) : Part → Bytes
  | item i => i.bytes e
  | simple frame => simpleBlock e frame

/-- The section state behind the block. -/
def next (s : Section) : Part → Section
  | item i => i.next s
  | simple _ => s

/-- What the loop takes for the packets of a block. -/
def taken (s : Section) : Part → List Record
  | item i => i.records s
  | simple frame =>
    [(0, (interface s.interfaces 0).1, frame ++ List.replicate (pad4 frame.length) 0)]

/-- A block within the sanity cap, of an interface that is declared if it names one. -/
def Valid (s : Section) : Part → Prop
  | item i => i.Valid s
  | simple frame => simpleLength frame ≤ maxBlock

/-- A packet block. -/
def isPacket : Part → Bool
  | item (.epb _ _) => true
  | item (.pb _ _ _) => true
  | simple _ => true
  | item _ => false

end Part

/-- Blocks laid end to end, Simple Packet Blocks among them. -/
def partGrammar : Grammar Section UInt8 Part Record where
  bytes s p := p.bytes s.endian
  next := Part.next
  out := Part.taken

theorem reads_parts : Reads blocks partGrammar Part.Valid := by
  intro s p rest hv
  cases p with
  | item i => exact Item.Valid.turn hv rest
  | simple frame => exact blockTurn_simple hv rest

/-- A packet block gives one record, any other block none. -/
theorem length_taken {s : Section} {p : Part} (hv : p.Valid s) :
    (p.taken s).length = if p.isPacket then 1 else 0 := by
  have declared : ∀ {n : Nat} (c : Captured), n < s.interfaces.length →
      (Item.packet s n c).length = 1 := by
    intro n c hn
    obtain ⟨x, hx⟩ := Item.getElem?_declared hn
    rw [Item.packet, hx]
    rfl
  cases p with
  | simple frame => rfl
  | item i =>
    cases i with
    | epb n c => exact declared c hv.declared
    | pb n drops c => exact declared c hv.declared
    | shb | idb | other => rfl

theorem length_items {s : Section} {ps : List Part} (hps : partGrammar.Along Part.Valid s ps) :
    (partGrammar.items s ps).length = ps.countP Part.isPacket := by
  induction ps generalizing s with
  | nil => rfl
  | cons p ps ih =>
    rw [Grammar.items, List.length_append, ih hps.2, List.countP_cons, Nat.add_comm]
    exact congrArg _ (length_taken hps.1)

/-- The first interface of the section that is open behind some blocks. -/
def firstIdb : Option Idb → List Part → Option Idb
  | first, [] => first
  | _, .item (.shb _) :: ps => firstIdb none ps
  | first, .item (.idb b) :: ps => firstIdb (first.or (some b)) ps
  | first, .item (.epb _ _) :: ps => firstIdb first ps
  | first, .item (.pb _ _ _) :: ps => firstIdb first ps
  | first, .item (.other _) :: ps => firstIdb first ps
  | first, .simple _ :: ps => firstIdb first ps

/-- The first entry of the interface table is that of the first interface block. -/
theorem interfaces_head {s : Section} {first : Option Idb} (ps : List Part)
    (h : s.interfaces[0]? = first.map fun b => (b.linktype.toNat, b.divisor)) :
    (partGrammar.after s ps).interfaces[0]? =
      (firstIdb first ps).map fun b => (b.linktype.toNat, b.divisor) := by
  induction ps generalizing s first with
  | nil => exact h
  | cons p ps ih =>
    cases p with
    | simple frame => exact ih h
    | item i =>
      cases i with
      | shb header => exact ih (s := ⟨header.endian, []⟩) rfl
      | idb b =>
        refine ih (s := ⟨s.endian, s.interfaces ++ [(b.linktype.toNat, b.divisor)]⟩) ?_
        cases first with
        | none =>
          have hnil : s.interfaces = [] := by
            cases hs : s.interfaces with
            | nil => rfl
            | cons x xs => rw [hs] at h; cases h
          rw [hnil]
          rfl
        | some a =>
          obtain ⟨x, xs, hs⟩ : ∃ x xs, s.interfaces = x :: xs := by
            cases hs : s.interfaces with
            | nil => rw [hs] at h; cases h
            | cons x xs => exact ⟨x, xs, rfl⟩
          rw [hs] at h ⊢
          exact h
      | epb | pb | other => exact ih h

/-- A capture: one or more sections, of blocks of any kind in any order. -/
structure Capture where
  header : Header
  parts : List Part
  valid : partGrammar.Along Part.Valid start (.item (.shb header) :: parts)

namespace Capture

variable (c : Capture)

/-- Its blocks, the first section header among them. -/
def all : List Part := .item (.shb c.header) :: c.parts

def bytes : Bytes := partGrammar.stream start c.all

/-- How many packet blocks it has, each of them one record of the reader's. -/
def packets : Nat := c.parts.countP Part.isPacket

/-- The section that is open behind its blocks. -/
def final : Section := partGrammar.after start c.all

/-- Its first interface. -/
def firstInterface : Option Idb := firstIdb none c.all

/-- A capture that goes on is read on, in its last section. -/
theorem items_append (tail : Bytes) :
    (readPcap (c.bytes ++ tail)).items =
      partGrammar.items start c.all ++ (blocks.run c.final tail).items := by
  have htake : (c.bytes ++ tail).take 4 = Endian.little.field 4 btShb := by
    rw [bytes, all, Grammar.stream]
    simp only [partGrammar, Part.bytes, Item.bytes, start, List.append_assoc]
    rw [List.take_append_of_le_length (by simp), List.take_of_length_le (by simp)]
  rw [readPcap_pcapng htake]
  exact congrArg Outcome.items (reads_parts.run_stream c.valid tail)

theorem length_records : (partGrammar.items start c.all).length = c.packets := by
  refine (length_items c.valid).trans ?_
  rw [List.countP_cons]
  rfl

/-- The record behind those of the capture. -/
theorem next_record {tail rest : Bytes} {s' : Section} {r : Record}
    (h : blockTurn c.final tail = .ok (some (s', rest, [r]))) :
    (readPcap (c.bytes ++ tail)).items[c.packets]? = some r := by
  rw [c.items_append, Reader.run_next (R := blocks) h, ← c.length_records]
  simp

theorem no_record {tail : Bytes} {text : String}
    (h : blockTurn c.final tail = raiseValueError text) :
    (readPcap (c.bytes ++ tail)).items[c.packets]? = none := by
  rw [c.items_append, Reader.run_raise (R := blocks) h, ← c.length_records]
  simp

variable {c} {first : Idb}

theorem final_interface (h : c.firstInterface = some first) :
    c.final.interfaces[0]? = some (first.linktype.toNat, first.divisor) := by
  have hhead : c.final.interfaces[0]? =
      c.firstInterface.map fun b => (b.linktype.toNat, b.divisor) := interfaces_head c.all rfl
  rw [hhead, h]
  rfl

/-- What a Simple Packet Block of the last section gives. -/
theorem simple_record (hfirst : c.firstInterface = some first) (frame rest : Bytes)
    (hsize : simpleLength frame < 2 ^ 32) :
    (readPcap (c.bytes ++ (simpleBlock c.final.endian frame ++ rest))).items[c.packets]? =
      if simpleLength frame ≤ maxBlock then
        some (0, first.linktype.toNat, frame ++ List.replicate (pad4 frame.length) 0)
      else none := by
  by_cases hfits : simpleLength frame ≤ maxBlock
  · rw [if_pos hfits, c.next_record (blockTurn_simple hfits rest),
      interface_eq (final_interface hfirst)]
  · rw [if_neg hfits, c.no_record (blockTurn_simple_refused hsize (Nat.lt_of_not_le hfits) rest)]

/-- **A Simple Packet Block gives the frame back exactly when** its length is a multiple of four and
the block is within the sanity cap; an Enhanced Packet Block of the frame gives it back always. The
block stands behind any capture, and in front of anything. -/
theorem simple_exact (hfirst : c.firstInterface = some first) (frame rest : Bytes)
    (hsize : simpleLength frame < 2 ^ 32) :
    ((∃ ts, (readPcap (c.bytes ++ (simpleBlock c.final.endian frame ++ rest))).items[c.packets]? =
        some (ts, first.linktype.toNat, frame)) ↔
      4 ∣ frame.length ∧ 16 + frame.length ≤ maxBlock) ∧
    ∀ p : Captured, p.frame = frame →
      ((Item.epb 0 p).bytes c.final.endian).length ≤ maxBlock →
      ∃ ts, (readPcap (c.bytes ++
          ((Item.epb 0 p).bytes c.final.endian ++ rest))).items[c.packets]? =
        some (ts, first.linktype.toNat, frame) := by
  have hinterface := final_interface hfirst
  constructor
  · rw [simple_record hfirst frame rest hsize, dvd_iff_pad4]
    by_cases hpad : pad4 frame.length = 0
    · rw [hpad, simpleLength, hpad]
      by_cases hfits : 16 + frame.length ≤ maxBlock
      · simp [hfits]
      · simp [hfits]
    · refine iff_of_false ?_ fun h => hpad h.1
      rintro ⟨ts, h⟩
      split at h
      · simp only [Option.some.injEq, Prod.mk.injEq, List.append_right_eq_self,
          List.replicate_eq_nil_iff] at h
        exact hpad h.2.2
      · cases h
  · rintro p rfl hfits
    have hvalid : Item.Valid c.final (.epb 0 p) :=
      ⟨hfits, (List.getElem?_eq_some_iff.mp hinterface).1⟩
    have hturn := hvalid.turn rest
    rw [Item.records, Item.packet, show (0 : UInt32).toNat = 0 from rfl, hinterface] at hturn
    exact ⟨_, c.next_record hturn⟩

/-- A section with one interface, of link type 101, and a padded Simple Packet Block; behind it a
section in the other byte order with one of link type 1. -/
def twoSections : Capture where
  header := ⟨.little, 1, 0, 0xFFFFFFFFFFFFFFFF, [], File.dvd_length_nil⟩
  parts := [.item (.idb ⟨101, 0, 0, [], none, [], false⟩), .simple [0xBB],
    .item (.shb ⟨.big, 1, 0, 0xFFFFFFFFFFFFFFFF, [], File.dvd_length_nil⟩),
    .item (.idb ⟨1, 0, 0, [], none, [], false⟩), .simple [0xCC, 0xDD]]
  valid := ⟨⟨by decide, trivial⟩, ⟨by decide, trivial⟩, (by decide : simpleLength [0xBB] ≤ maxBlock),
    ⟨by decide, trivial⟩, ⟨by decide, trivial⟩, (by decide : simpleLength [0xCC, 0xDD] ≤ maxBlock),
    trivial⟩

/-- The third Simple Packet Block of a capture, the second of its section. -/
theorem simple_exact_four :
    ∃ ts, (readPcap (twoSections.bytes ++
      (simpleBlock twoSections.final.endian [1, 2, 3, 4] ++ []))).items[2]? =
        some (ts, 1, [1, 2, 3, 4]) :=
  ((simple_exact (c := twoSections) rfl [1, 2, 3, 4] [] (by decide)).1).mpr
    ⟨by decide, by decide⟩

/-- A section with one interface, of link type 101. -/
def oneInterface : Capture where
  header := ⟨.little, 1, 0, 0xFFFFFFFFFFFFFFFF, [], File.dvd_length_nil⟩
  parts := [.item (.idb ⟨101, 0, 0, [], none, [], false⟩)]
  valid := ⟨⟨by decide, trivial⟩, ⟨by decide, trivial⟩, trivial⟩

/-- A frame of one byte comes back as four. -/
theorem simple_exact_padded :
    ¬ ∀ (c : Capture) (first : Idb) (frame rest : Bytes), c.firstInterface = some first →
      simpleLength frame < 2 ^ 32 → ∃ ts,
        (readPcap (c.bytes ++ (simpleBlock c.final.endian frame ++ rest))).items[c.packets]? =
          some (ts, first.linktype.toNat, frame) := by
  intro hexact
  obtain ⟨ts, h⟩ := hexact oneInterface ⟨101, 0, 0, [], none, [], false⟩ [0xAA] [] rfl (by decide)
  rw [simple_record (c := oneInterface) rfl [0xAA] [] (by decide)] at h
  simp [simpleLength, pad4, maxBlock] at h

end Capture

end Pyscan.Pcapng
