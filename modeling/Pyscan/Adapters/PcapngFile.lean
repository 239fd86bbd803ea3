import Pyscan.Adapters.PcapngBlocks

/-!
# pcapng files

The block grammar as the format describes it: section headers, interface
descriptions with their options, enhanced and obsolete packet blocks, blocks of
other types. `Item.next` is the section state a block leaves, `Item.records`
what a packet block stands for. A `File` is a section header and a list of
blocks, each naming interfaces its section has declared.

The reader's turn on any valid block is that of the grammar (`reads_grammar`),
so **it reads a file exactly** (`File.read_exact`), and what it makes of a file
cut anywhere is what it makes of the one torn block (`File.cut_stops_cleanly`).
-/

namespace Pyscan.Pcapng

open Py Framed PcapReader

/-! ## Options -/

/-- An option that says nothing of timestamps: not `opt_endofopt`, `if_tsresol` or
`if_tsoffset`. -/
structure PlainOption where
  code : UInt16
  value : Bytes
  padding : Bytes
  plain : code.toNat ∉ [0, 9, 14]
  small : value.length < 2 ^ 16
  padded : padding.length = pad4 value.length

def PlainOption.bytes (e : Endian) (o : PlainOption) : Bytes :=
  e.field 2 o.code.toNat ++ (e.field 2 o.value.length ++ (o.value ++ o.padding))

/-- An `if_tsresol` of length 1: units per second as a power of two or of ten. -/
structure TsResol where
  binary : Bool
  exponent : Fin 128
  padding : Bytes
  padded : padding.length = 3

namespace TsResol

def raw (r : TsResol) : UInt8 := UInt8.ofNat (r.exponent.val + if r.binary then 128 else 0)

def bytes (e : Endian) (r : TsResol) : Bytes :=
  e.field 2 9 ++ (e.field 2 1 ++ (r.raw :: r.padding))

def unitsPerSecond (r : TsResol) : ℚ := if r.binary then 2 ^ r.exponent.val else 10 ^ r.exponent.val

/-- The bits of the value tell the base and the exponent. -/
theorem raw_bits (r : TsResol) :
    (if r.raw.toNat &&& 0x80 ≠ 0 then 2 ^ (r.raw.toNat &&& 0x7F) else 10 ^ r.raw.toNat : ℚ) =
      r.unitsPerSecond := by
  have hbits : ∀ (binary : Bool) (n : Fin 128),
      (((UInt8.ofNat (n.val + if binary then 128 else 0)).toNat &&& 0x80 ≠ 0) ↔ binary = true) ∧
        (UInt8.ofNat (n.val + if binary then 128 else 0)).toNat &&& 0x7F = n.val ∧
        (binary = false → (UInt8.ofNat (n.val + if binary then 128 else 0)).toNat = n.val) := by
    decide
  obtain ⟨hbase, hexp, hdec⟩ : (r.raw.toNat &&& 0x80 ≠ 0 ↔ r.binary = true) ∧
      r.raw.toNat &&& 0x7F = r.exponent.val ∧ (r.binary = false → r.raw.toNat = r.exponent.val) :=
    hbits r.binary r.exponent
  unfold unitsPerSecond
  by_cases hb : r.binary = true
  · rw [if_pos (hbase.mpr hb), if_pos hb, hexp]
  · rw [if_neg fun h => hb (hbase.mp h), if_neg hb, hdec (by simpa using hb)]

end TsResol

/-- Options laid end to end. -/
def optionsBytes (e : Endian) (os : List PlainOption) : Bytes := os.flatMap (PlainOption.bytes e)

/-- The walk skips options that say nothing of timestamps. -/
theorem timestampDivisor_plain (e : Endian) (os : List PlainOption) (rest : Bytes) :
    timestampDivisor (optionsBytes e os ++ rest) e = timestampDivisor rest e := by
  induction os with
  | nil => rfl
  | cons o os ih =>
    have hplain := o.plain
    simp only [List.mem_cons, List.not_mem_nil, or_false, not_or] at hplain
    rw [optionsBytes, List.flatMap_cons, PlainOption.bytes]
    simp only [List.append_assoc]
    rw [timestampDivisor_skip o.code.toNat_lt o.small hplain.1 (fun h => absurd h hplain.2.1),
      ← List.append_assoc, drop_append (by rw [List.length_append, o.padded])]
    exact ih

/-! ## Blocks -/

/-- A section header: versions, the section's length field and any options. -/
structure Header where
  endian : Endian
  major : UInt16
  minor : UInt16
  sectionLength : UInt64
  options : Bytes
  aligned : 4 ∣ options.length

def Header.content (h : Header) : Bytes :=
  h.endian.field 2 h.major.toNat ++ (h.endian.field 2 h.minor.toNat ++
    (h.endian.field 8 h.sectionLength.toNat ++ h.options))

/-- An interface description, its options closed by `opt_endofopt` or not. -/
structure Idb where
  linktype : UInt16
  reserved : UInt16
  snaplen : UInt32
  before : List PlainOption
  resolution : Option TsResol
  after : List PlainOption
  ended : Bool

namespace Idb

def options (e : Endian) (b : Idb) : Bytes :=
  optionsBytes e b.before ++ (b.resolution.elim [] (TsResol.bytes e) ++
    (optionsBytes e b.after ++ if b.ended then e.field 2 0 ++ e.field 2 0 else []))

def body (e : Endian) (b : Idb) : Bytes :=
  e.field 2 b.linktype.toNat ++ (e.field 2 b.reserved.toNat ++
    (e.field 4 b.snaplen.toNat ++ b.options e))

/-- Timestamps of the interface count microseconds unless `if_tsresol` says otherwise. -/
def divisor (b : Idb) : ℚ := b.resolution.elim (10 ^ 6) TsResol.unitsPerSecond

theorem timestampDivisor_options (e : Endian) (b : Idb) :
    timestampDivisor (b.options e) e = .ok b.divisor := by
  unfold options divisor
  rw [timestampDivisor_plain]
  cases b.resolution with
  | none =>
    rw [Option.elim_none, Option.elim_none, List.nil_append, timestampDivisor_plain]
    split
    · have h := timestampDivisor_end (e := e) (by decide : 0 < 2 ^ 16) []
      rwa [List.append_nil] at h
    · exact timestampDivisor_short (by decide)
  | some r =>
    rw [Option.elim_some, Option.elim_some, TsResol.bytes, List.append_assoc, List.append_assoc,
      List.cons_append, timestampDivisor_resol (by decide) (Nat.le_refl 1)]
    simp only [rationals_float, r.raw_bits]

theorem parseIdb_body (e : Endian) (b : Idb) :
    parseIdb (b.body e) e = .ok (b.linktype.toNat, b.divisor) := by
  have htake : (b.body e).take 2 = e.field 2 b.linktype.toNat := by
    rw [body, List.take_append_of_le_length (by simp), List.take_of_length_le (by simp)]
  have hdrop : (b.body e).drop 8 = b.options e := by
    rw [body, ← List.append_assoc, ← List.append_assoc]
    exact drop_append (by simp)
  unfold parseIdb
  rw [if_neg (by simp [body]; omega), htake, Endian.unpackH_field b.linktype.toNat_lt, ok_bind, hdrop,
    b.timestampDivisor_options, ok_bind]

end Idb

/-- A captured frame, as packet blocks hold it: padded, with options behind. -/
structure Captured where
  ticks : UInt64
  original : UInt32
  frame : Bytes
  padding : Bytes
  options : Bytes
  padded : padding.length = pad4 frame.length
  aligned : 4 ∣ options.length

namespace Captured

/-- The fields between the interface and the frame. -/
def head (e : Endian) (c : Captured) : Bytes :=
  e.field 4 (c.ticks.toNat / 2 ^ 32) ++ (e.field 4 (c.ticks.toNat % 2 ^ 32) ++
    (e.field 4 c.frame.length ++ e.field 4 c.original.toNat))

def bytes (e : Endian) (c : Captured) : Bytes := c.head e ++ (c.frame ++ (c.padding ++ c.options))

@[simp] theorem length_head (e : Endian) (c : Captured) : (c.head e).length = 16 := by simp [head]

/-- The two halves of a timestamp, put together. -/
theorem ticks_eq (c : Captured) :
    (c.ticks.toNat / 2 ^ 32) <<< 32 ||| c.ticks.toNat % 2 ^ 32 = c.ticks.toNat := by
  rw [← Nat.shiftLeft_add_eq_or_of_lt (Nat.mod_lt _ (by decide)), Nat.shiftLeft_eq, Nat.div_add_mod']

theorem high_lt (c : Captured) : c.ticks.toNat / 2 ^ 32 < 2 ^ 32 := by
  have h := c.ticks.toNat_lt
  omega

theorem low_lt (c : Captured) : c.ticks.toNat % 2 ^ 32 < 2 ^ 32 := Nat.mod_lt _ (by decide)

/-- The frame, sliced by its captured length out of a body with `head` in front of it. -/
theorem slice_frame {e : Endian} {front : Bytes} (c : Captured) (h : front.length = 4) :
    slice (front ++ c.bytes e) 20 (20 + c.frame.length) = c.frame := by
  rw [bytes, ← List.append_assoc]
  exact slice_append (by simp [h]) rfl

end Captured

theorem interface_eq {interfaces : List Interface} {i : Nat} {x : Interface}
    (h : interfaces[i]? = some x) : PcapReader.interface interfaces i = x := by
  rw [PcapReader.interface, h]

theorem parseEpb_captured {e : Endian} {interfaces : List Interface} {i : Nat} {x : Interface}
    (hi : i < 2 ^ 32) (hx : interfaces[i]? = some x) (c : Captured) (hc : c.frame.length < 2 ^ 32) :
    parseEpb (e.field 4 i ++ c.bytes e) e interfaces =
      .ok (some (c.ticks.toNat / x.2, x.1, c.frame)) := by
  have htake : (e.field 4 i ++ c.bytes e).take 20 = e.field 4 i ++ c.head e := by
    rw [Captured.bytes, ← List.append_assoc, List.take_append_of_le_length (by simp),
      List.take_of_length_le (by simp)]
  unfold parseEpb
  rw [if_neg (by simp [Captured.bytes]; omega), htake, Captured.head,
    Endian.unpackIIIII_fields hi c.high_lt c.low_lt hc c.original.toNat_lt, ok_bind]
  dsimp only
  rw [interface_eq hx, c.slice_frame (by simp), if_neg (Nat.lt_irrefl _), c.ticks_eq,
    rationals_truediv, rationals_float]

theorem parseObsoletePb_captured {e : Endian} {interfaces : List Interface} {i drops : Nat}
    {x : Interface} (hi : i < 2 ^ 16) (hd : drops < 2 ^ 16) (hx : interfaces[i]? = some x)
    (c : Captured) (hc : c.frame.length < 2 ^ 32) :
    parseObsoletePb (e.field 2 i ++ (e.field 2 drops ++ c.bytes e)) e interfaces =
      .ok (some (c.ticks.toNat / x.2, x.1, c.frame)) := by
  rw [← List.append_assoc]
  have htake : (e.field 2 i ++ e.field 2 drops ++ c.bytes e).take 20 =
      e.field 2 i ++ (e.field 2 drops ++ c.head e) := by
    rw [Captured.bytes, ← List.append_assoc, List.take_append_of_le_length (by simp),
      List.take_of_length_le (by simp), List.append_assoc]
  unfold parseObsoletePb
  rw [if_neg (by simp [Captured.bytes]; omega), htake, Captured.head,
    Endian.unpackHHIIII_fields hi hd c.high_lt c.low_lt hc c.original.toNat_lt, ok_bind]
  dsimp only
  rw [interface_eq hx, c.slice_frame (by simp), if_neg (Nat.lt_irrefl _), c.ticks_eq,
    rationals_truediv, rationals_float]

/-- A block of a type the reader does not know. -/
structure Other where
  type : UInt32
  body : Bytes
  unknown : type.toNat ∉ [btShb, btIdb, btPb, btSpb, btEpb]
  aligned : 4 ∣ body.length

inductive Item where
  | shb (h : Header)
  | idb (b : Idb)
  | epb (interface : UInt32) (c : Captured)
  | pb (interface drops : UInt16) (c : Captured)
  | other (b : Other)

namespace Item

/-- The block type. -/
def type : Item → Nat
  | shb _ => btShb
  | idb _ => btIdb
  | epb _ _ => btEpb
  | pb _ _ _ => btPb
  | other b => b.type.toNat

/-- The block body, behind the byte-order magic in a section header. -/
def body (e : Endian) : Item → Bytes
  | shb h => h.content
  | idb b => b.body e
  | epb interface c => e.field 4 interface.toNat ++ c.bytes e
  | pb interface drops c => e.field 2 interface.toNat ++ (e.field 2 drops.toNat ++ c.bytes e)
  | other b => b.body

/-- The block in a section of byte order `e`: its type, its length, its body, its length again. -/
def bytes (e : Endian) : Item → Bytes
  | shb h =>
    e.field 4 btShb ++ (h.endian.field 4 (16 + h.content.length) ++ h.endian.field 4 shbMagic) ++
      (h.content ++ h.endian.field 4 (16 + h.content.length))
  | i =>
    e.field 4 i.type ++ e.field 4 (12 + (i.body e).length) ++
      (i.body e ++ e.field 4 (12 + (i.body e).length))

/-- The section state behind the block. -/
def next (s : Section) : Item → Section
  | shb h => ⟨h.endian, []⟩
  | idb b => ⟨s.endian, s.interfaces ++ [(b.linktype.toNat, b.divisor)]⟩
  | _ => s

/-- The packet of an interface: its time in the interface's units, and its link type. -/
def packet (s : Section) (interface : Nat) (c : Captured) : List Record :=
  match s.interfaces[interface]? with
  | some (linktype, divisor) => [(c.ticks.toNat / divisor, linktype, c.frame)]
  | none => []

/-- What a block stands for. -/
def records (s : Section) : Item → List Record
  | epb interface c => packet s interface.toNat c
  | pb interface _ c => packet s interface.toNat c
  | _ => []

/-- The interface a block names is declared. -/
def Declared (s : Section) : Item → Prop
  | epb interface _ => interface.toNat < s.interfaces.length
  | pb interface _ _ => interface.toNat < s.interfaces.length
  | _ => True

/-- A block of at most 64 MiB that names a declared interface. -/
structure Valid (s : Section) (i : Item) : Prop where
  fits : (i.bytes s.endian).length ≤ maxBlock
  declared : i.Declared s

end Item

/-- The format: blocks laid end to end. -/
def grammar : Grammar Section UInt8 Item Record where
  bytes s i := i.bytes s.endian
  next := Item.next
  out := Item.records

/-! ## The reader's turn on a valid block -/

theorem Header.exists_shb (h : Header) (e : Endian) (hfits : 16 + h.content.length ≤ maxBlock) :
    ∃ b : Shb, b.endian = h.endian ∧ (Item.shb h).bytes e = b.bytes e :=
  ⟨⟨h.endian, h.content, h.endian.field 4 (16 + h.content.length), hfits, by simp⟩, rfl, rfl⟩

namespace Item

variable {s : Section} {i : Item}

theorem Valid.header_fits {h : Header} (hv : Valid s (.shb h)) : 16 + h.content.length ≤ maxBlock := by
  have hfits := hv.fits
  simp only [bytes, List.length_append, Endian.length_field] at hfits
  omega

/-- A valid block other than a section header is one of those the loop reads. -/
theorem Valid.exists_block (hv : Valid s i) (hi : ∀ h, i ≠ .shb h) :
    ∃ b : Block, b.type = i.type ∧ b.body = i.body s.endian ∧ i.bytes s.endian = b.bytes s.endian := by
  have hbytes : i.bytes s.endian = s.endian.field 4 i.type ++
      s.endian.field 4 (12 + (i.body s.endian).length) ++
      (i.body s.endian ++ s.endian.field 4 (12 + (i.body s.endian).length)) := by
    cases i with
    | shb h => exact absurd rfl (hi h)
    | idb | epb | pb | other => rfl
  have htype : i.type ≠ btShb ∧ i.type < 2 ^ 32 := by
    cases i with
    | shb h => exact absurd rfl (hi h)
    | idb | epb | pb => simp [type, btShb, btIdb, btEpb, btPb]
    | other b =>
      have hunknown := b.unknown
      simp only [List.mem_cons, not_or] at hunknown
      exact ⟨hunknown.1, b.type.toNat_lt⟩
  have hfits := hv.fits
  rw [hbytes] at hfits ⊢
  simp only [List.length_append, Endian.length_field] at hfits
  exact ⟨⟨i.type, i.body s.endian, s.endian.field 4 (12 + (i.body s.endian).length), htype.1, htype.2,
    by omega, by simp⟩, rfl, rfl, rfl⟩

theorem getElem?_declared {interfaces : List Interface} {n : Nat} (h : n < interfaces.length) :
    ∃ x, interfaces[n]? = some x :=
  ⟨interfaces[n], List.getElem?_eq_getElem h⟩

/-- A frame in a valid block is shorter than the block. -/
theorem frame_lt {c : Captured} (front : Bytes)
    (h : 12 + (front ++ c.bytes s.endian).length ≤ maxBlock) : c.frame.length < 2 ^ 32 := by
  simp only [Captured.bytes, List.length_append] at h
  exact maxBlock_lt (by omega)

/-- The reader makes of a valid block what it stands for. -/
theorem Valid.dispatch (hv : Valid s i) (hi : ∀ h, i ≠ .shb h) :
    ∃ packet, dispatch s i.type (i.body s.endian) = .ok ((i.next s).interfaces, packet) ∧
      packet.toList = i.records s := by
  obtain ⟨b, -, hbody, hbytes⟩ := hv.exists_block hi
  have hfits : 12 + (i.body s.endian).length ≤ maxBlock := hbody ▸ b.fits
  have hdeclared := hv.declared
  cases i with
  | shb h => exact absurd rfl (hi h)
  | idb b =>
    refine ⟨none, ?_, rfl⟩
    rw [PcapReader.dispatch, type, if_pos rfl, body, b.parseIdb_body]
    rfl
  | epb interface c =>
    obtain ⟨x, hx⟩ := getElem?_declared hdeclared
    refine ⟨some (c.ticks.toNat / x.2, x.1, c.frame), ?_, ?_⟩
    · rw [PcapReader.dispatch, type, if_neg (by decide), if_pos rfl, body,
        parseEpb_captured interface.toNat_lt hx c (frame_lt _ hfits)]
      rfl
    · rw [records, packet, hx]
      rfl
  | pb interface drops c =>
    obtain ⟨x, hx⟩ := getElem?_declared hdeclared
    refine ⟨some (c.ticks.toNat / x.2, x.1, c.frame), ?_, ?_⟩
    · rw [PcapReader.dispatch, type, if_neg (by decide), if_neg (by decide), if_neg (by decide),
        if_pos rfl, body, parseObsoletePb_captured interface.toNat_lt drops.toNat_lt hx c
          (frame_lt (s.endian.field 2 interface.toNat ++ s.endian.field 2 drops.toNat)
            (by rw [List.append_assoc]; exact hfits))]
      rfl
    · rw [records, packet, hx]
      rfl
  | other b =>
    refine ⟨none, ?_, rfl⟩
    have hunknown := b.unknown
    simp only [List.mem_cons, List.not_mem_nil, or_false, not_or] at hunknown
    obtain ⟨-, h1, h2, h3, h4⟩ := hunknown
    rw [PcapReader.dispatch, type, if_neg h1, if_neg h4, if_neg h3, if_neg h2]
    rfl

/-- **The turn on a valid block** is that of the grammar. -/
theorem Valid.turn (hv : Valid s i) (rest : Bytes) :
    blockTurn s (i.bytes s.endian ++ rest) = .ok (some (i.next s, rest, i.records s)) := by
  by_cases hi : ∃ h, i = .shb h
  · obtain ⟨h, rfl⟩ := hi
    obtain ⟨b, he, hb⟩ := h.exists_shb s.endian hv.header_fits
    rw [hb, blockTurn_shb, he]
    rfl
  · have hi' : ∀ h, i ≠ .shb h := fun h e => hi ⟨h, e⟩
    obtain ⟨b, htype, hbody, hb⟩ := hv.exists_block hi'
    obtain ⟨packet, hd, hp⟩ := hv.dispatch hi'
    rw [hb, blockTurn_block, htype, hbody, hd, call_ok, ok_bind, hp]
    cases i with
    | shb h => exact absurd rfl (hi' h)
    | idb | epb | pb | other => rfl

/-- A torn block is dropped, but for a section header cut inside its length or its magic. -/
theorem Valid.torn (hv : Valid s i) {m : Nat} (h : m < (i.bytes s.endian).length)
    (hm : (∀ h, i ≠ .shb h) ∨ m < 8 ∨ 12 ≤ m) :
    blockTurn s ((i.bytes s.endian).take m) = .ok none := by
  by_cases hi : ∃ h, i = .shb h
  · obtain ⟨header, rfl⟩ := hi
    obtain ⟨b, -, hb⟩ := header.exists_shb s.endian hv.header_fits
    rw [hb] at h ⊢
    exact blockTurn_shb_torn s b h (hm.resolve_left fun h => h header rfl)
  · obtain ⟨b, -, -, hb⟩ := hv.exists_block fun h e => hi ⟨h, e⟩
    rw [hb] at h ⊢
    exact blockTurn_block_torn s b h

/-- There it is refused. -/
theorem Valid.refused {header : Header} (hv : Valid s (.shb header)) {m : Nat} (hlo : 8 ≤ m)
    (hhi : m < 12) :
    blockTurn s ((bytes s.endian (.shb header)).take m) =
      raiseValueError "Truncated pcapng section header." := by
  obtain ⟨b, -, hb⟩ := header.exists_shb s.endian hv.header_fits
  rw [hb, blockTurn_shb_refused s b hlo hhi]

end Item

theorem reads_grammar : Reads blocks grammar Item.Valid := fun _ _ rest hv => hv.turn rest

theorem blocks_end (s : Section) : blocks.turn s [] = .ok none := rfl

/-! ## Files -/

/-- Where every file starts. -/
def start : Section := ⟨.little, []⟩

/-- A pcapng file: one or more sections, each a section header and blocks. -/
structure File where
  header : Header
  items : List Item
  valid : grammar.Along Item.Valid start (.shb header :: items)

namespace File

variable (f : File)

/-- Its blocks, the first section header among them. -/
def all : List Item := .shb f.header :: f.items

def bytes : Bytes := grammar.stream start f.all

/-- The packets of the file, in order. -/
def records : List Record := grammar.items start f.all

/-- A file goes to the pcapng loop, whatever follows its first twelve bytes. -/
theorem readPcap_take {n : Nat} (hn : 4 ≤ n) (rest : Bytes) :
    readPcap (f.bytes.take n ++ rest) = blocks.run start (f.bytes.take n ++ rest) := by
  have htake : (f.bytes.take n ++ rest).take 4 = Endian.little.field 4 btShb := by
    have hlen : 4 ≤ (f.bytes.take n).length := by
      simp only [bytes, all, Grammar.stream, grammar, Item.bytes, List.length_take,
        List.length_append, Endian.length_field]
      omega
    rw [List.take_append_of_le_length hlen, List.take_take, Nat.min_eq_left hn, bytes, all,
      Grammar.stream]
    simp only [grammar, Item.bytes, start, List.append_assoc]
    rw [List.take_append_of_le_length (by simp), List.take_of_length_le (by simp)]
  rw [readPcap_pcapng htake]
  rfl

theorem readPcap_cut {n : Nat} (hn : 4 ≤ n) :
    readPcap (f.bytes.take n) = blocks.run start (f.bytes.take n) := by
  have h := f.readPcap_take hn []
  rwa [List.append_nil] at h

/-- **pcapng reading is exact**: one record for each packet block, in file order, with the frame,
the link type of its interface, and the time in its interface's units. -/
theorem read_exact : readPcap f.bytes = ⟨f.records, none⟩ := by
  have hread := f.readPcap_cut (n := max 4 f.bytes.length) (Nat.le_max_left ..)
  rw [List.take_of_length_le (Nat.le_max_right ..)] at hread
  rw [hread]
  exact reads_grammar.run_all blocks_end f.valid

/-! ## Cut files -/

/-- The packets whose blocks lie wholly within the first `n` bytes. -/
def recordsWithin (n : Nat) : List Record := grammar.items start (grammar.whole start n f.all)

/-- `n` falls behind the first eight bytes of a later section header, before its thirteenth. -/
def CutsHeader (n : Nat) : Prop :=
  ∃ before header after, f.items = before ++ .shb header :: after ∧
    (grammar.stream start (.shb f.header :: before)).length + 8 ≤ n ∧
    n < (grammar.stream start (.shb f.header :: before)).length + 12

variable {f} {n : Nat}

/-- **A cut inside the length or the magic of a later section header is refused.** -/
theorem CutsHeader.refused (h : f.CutsHeader n) :
    (readPcap (f.bytes.take n)).error =
      some ⟨.valueError, some "Truncated pcapng section header."⟩ := by
  obtain ⟨before, header, after, hitems, hlo, hhi⟩ := h
  obtain ⟨m, rfl⟩ : ∃ m, n = (grammar.stream start (.shb f.header :: before)).length + m :=
    Nat.exists_eq_add_of_le (by omega)
  have hall : f.all = (.shb f.header :: before) ++ .shb header :: after := by
    rw [all, hitems, List.cons_append]
  have hvalid := f.valid
  rw [hitems, ← List.cons_append] at hvalid
  have hheader := (Grammar.along_append.mp hvalid).2.1
  have hraise : blocks.turn (grammar.after start (.shb f.header :: before))
      ((grammar.bytes (grammar.after start (.shb f.header :: before)) (.shb header)).take m) =
        raiseValueError "Truncated pcapng section header." :=
    hheader.refused (by omega) (by omega)
  rw [f.readPcap_cut (by omega), bytes, hall,
    reads_grammar.run_cut hvalid (by simp [grammar, Item.bytes]; omega), Reader.run_raise hraise]
  rfl

/-- A cut anywhere else gives the packets that lie within it. -/
theorem cut_cases (hn : 16 + f.header.content.length ≤ n) :
    f.CutsHeader n ∨ readPcap (f.bytes.take n) = ⟨f.recordsWithin n, none⟩ := by
  rw [f.readPcap_cut (by omega), recordsWithin]
  rcases grammar.cut_cases start n f.all with ⟨hlen, hall⟩ | ⟨us, t, rest, m, hall, hwhole, rfl, hm⟩
  · right
    rw [hall, bytes, List.take_of_length_le hlen]
    exact reads_grammar.run_all blocks_end f.valid
  · cases us with
    | nil =>
      -- the first section header is whole
      obtain ⟨rfl, -⟩ : .shb f.header = t ∧ f.items = rest := List.cons.inj hall
      simp only [Grammar.stream, Grammar.after, List.foldl_nil, grammar, Item.bytes,
        List.length_append, List.length_nil, Endian.length_field] at hm hn
      omega
    | cons u before =>
      obtain ⟨rfl, hitems⟩ : .shb f.header = u ∧ f.items = before ++ t :: rest := List.cons.inj hall
      have hvalid := f.valid
      rw [hitems, ← List.cons_append] at hvalid
      have ht := (Grammar.along_append.mp hvalid).2.1
      by_cases hcut : (∀ h, t ≠ .shb h) ∨ m < 8 ∨ 12 ≤ m
      · right
        have hstop : blocks.turn (grammar.after start (.shb f.header :: before))
            ((grammar.bytes (grammar.after start (.shb f.header :: before)) t).take m) = .ok none :=
          ht.torn hm hcut
        rw [hwhole, bytes, hall, reads_grammar.run_cut hvalid hm, Reader.run_stop hstop,
          Outcome.prepend, List.append_nil]
      · left
        simp only [not_or, not_forall, not_not, not_lt, not_le] at hcut
        obtain ⟨⟨header, rfl⟩, hlo, hhi⟩ := hcut
        exact ⟨before, header, rest, hitems, by omega, by omega⟩

theorem recordsWithin_prefix : f.recordsWithin n <+: f.records := by
  rw [recordsWithin, records]
  rcases grammar.cut_cases start n f.all with ⟨-, hall⟩ | ⟨us, t, rest, m, hall, hwhole, -⟩
  · rw [hall]
  · rw [hwhole, hall, Grammar.items_append]
    exact List.prefix_append _ _

/-- **A pcapng capture cut anywhere** behind its first section header raises nothing and yields the
packets whose blocks lie wholly within the cut, exactly when the cut does not fall inside the length
or the magic of a later section header. -/
theorem cut_stops_cleanly (hn : 16 + f.header.content.length ≤ n) :
    (readPcap (f.bytes.take n) = ⟨f.recordsWithin n, none⟩ ↔ ¬ f.CutsHeader n) ∧
      f.recordsWithin n <+: (readPcap f.bytes).items := by
  refine ⟨⟨fun hclean hcut => ?_, (cut_cases hn).resolve_left⟩, ?_⟩
  · have herr := hcut.refused
    rw [hclean] at herr
    cases herr
  · rw [f.read_exact]
    exact recordsWithin_prefix

theorem dvd_length_nil : 4 ∣ ([] : Bytes).length := Nat.dvd_zero 4

/-- A packet of three bytes, and behind it a second section. -/
def onePacket : File where
  header := ⟨.little, 1, 0, 0xFFFFFFFFFFFFFFFF, [], dvd_length_nil⟩
  items := [.idb ⟨1, 0, 65535, [], none, [], false⟩,
    .epb 0 ⟨1500000, 3, [1, 2, 3], [0], [], rfl, dvd_length_nil⟩,
    .shb ⟨.big, 1, 0, 0xFFFFFFFFFFFFFFFF, [], dvd_length_nil⟩]
  valid := ⟨⟨by decide, trivial⟩, ⟨by decide, trivial⟩, ⟨by decide, Nat.one_pos⟩,
    ⟨by decide, trivial⟩, trivial⟩

/-- Cut in the first four bytes of the second section header. -/
theorem cut_stops_cleanly_packet :
    readPcap (onePacket.bytes.take 88) = ⟨[(1500000 / 10 ^ 6, 1, [1, 2, 3])], none⟩ ∧
      [(1500000 / 10 ^ 6, 1, [1, 2, 3])] <+: (readPcap onePacket.bytes).items := by
  have hwithin : onePacket.recordsWithin 88 = [(((1500000 : Nat) : ℚ) / 10 ^ 6, 1, [1, 2, 3])] := rfl
  have hcut : ¬ onePacket.CutsHeader 88 := by
    rintro ⟨before, header, after, hitems, hlo, -⟩
    have hlen : (grammar.stream start (.shb onePacket.header :: before)).length + 8 ≤ 88 := hlo
    obtain ⟨_, _, rfl⟩ : ∃ i j, before = [i, j] := by
      rcases before with _ | ⟨i, _ | ⟨j, _ | ⟨k, before⟩⟩⟩
      · cases hitems
      · cases hitems
      · exact ⟨i, j, rfl⟩
      · simp [onePacket] at hitems
    cases hitems
    revert hlen
    decide
  obtain ⟨hiff, hprefix⟩ := cut_stops_cleanly (f := onePacket) (n := 88) (by decide)
  rw [hwithin] at hiff hprefix
  exact ⟨hiff.mpr hcut, hprefix⟩

/-- Two sections without blocks. -/
def twoHeaders : File where
  header := ⟨.little, 1, 0, 0xFFFFFFFFFFFFFFFF, [], dvd_length_nil⟩
  items := [.shb ⟨.big, 1, 0, 0xFFFFFFFFFFFFFFFF, [], dvd_length_nil⟩]
  valid := ⟨⟨by decide, trivial⟩, ⟨by decide, trivial⟩, trivial⟩

/-- Cut behind the first eight bytes of the second section header. -/
theorem cut_stops_cleanly_refused :
    ¬ ∀ (f : File) (n : Nat), 16 + f.header.content.length ≤ n →
      readPcap (f.bytes.take n) = ⟨f.recordsWithin n, none⟩ := by
  intro hclean
  have hcut : twoHeaders.CutsHeader 36 := ⟨[], _, [], rfl, by decide, by decide⟩
  have herr := hcut.refused
  rw [hclean twoHeaders 36 (by decide)] at herr
  cases herr

end File

end Pyscan.Pcapng
