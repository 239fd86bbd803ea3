import Pyscan.Adapters.PcapngOptions

/-!
# pcapng blocks

Any file the pcapng loop accepts is blocks laid end to end (`Layout`), whatever
their bodies hold: Section Header Blocks, which set the byte order, and others.
The turn of the loop on a block (`blockTurn_shb`, `blockTurn_block`) and on a torn
one; and, conversely, that a turn which neither stops nor raises a `ValueError`
has a block in front of it (`blockTurn_inv`).
-/

namespace Pyscan.Pcapng

open Py Framed PcapReader

/-- A Section Header Block of any content. -/
structure Shb where
  endian : Endian
  content : Bytes
  trailer : Bytes
  fits : 16 + content.length ≤ maxBlock
  closed : trailer.length = 4

/-- Any other block, of any body. -/
structure Block where
  type : Nat
  body : Bytes
  trailer : Bytes
  ordinary : type ≠ btShb
  small : type < 2 ^ 32
  fits : 12 + body.length ≤ maxBlock
  closed : trailer.length = 4

inductive RawBlock where
  | shb (b : Shb)
  | block (b : Block)

/-- The first twelve bytes of a Section Header Block, in a section of byte order `e`. -/
def Shb.head (e : Endian) (b : Shb) : Bytes :=
  e.field 4 btShb ++ (b.endian.field 4 (16 + b.content.length) ++ b.endian.field 4 shbMagic)

def Shb.bytes (e : Endian) (b : Shb) : Bytes := b.head e ++ (b.content ++ b.trailer)

/-- The first eight bytes of any other block. -/
def Block.head (e : Endian) (b : Block) : Bytes := e.field 4 b.type ++ e.field 4 (12 + b.body.length)

def Block.bytes (e : Endian) (b : Block) : Bytes := b.head e ++ (b.body ++ b.trailer)

/-- Blocks laid end to end; the context is the byte order. -/
def layout : Grammar Endian UInt8 RawBlock Record where
  bytes e
    | .shb b => b.bytes e
    | .block b => b.bytes e
  next e
    | .shb b => b.endian
    | .block _ => e
  out _ _ := []

theorem maxBlock_lt {n : Nat} (h : n ≤ maxBlock) : n < 2 ^ 32 := Nat.lt_of_le_of_lt h (by decide)

/-- The type of a Section Header Block reads the same in either byte order. -/
theorem field_btShb (e e' : Endian) : e.field 4 btShb = e'.field 4 btShb := by
  cases e <;> cases e' <;> rfl

/-- Any other four bytes are no section header in either byte order. -/
theorem btShb_ne_value {d : Bytes} (hlen : d.length = 4) (h : d ≠ Endian.little.field 4 btShb)
    (e : Endian) : btShb ≠ e.value d := by
  intro hv
  have hf := e.field_value d
  rw [hlen, ← hv, field_btShb e .little] at hf
  exact h hf.symm

@[simp] theorem Shb.length_head (e : Endian) (b : Shb) : (b.head e).length = 12 := by simp [head]

@[simp] theorem Block.length_head (e : Endian) (b : Block) : (b.head e).length = 8 := by simp [head]

@[simp] theorem Shb.length_bytes (e : Endian) (b : Shb) :
    (b.bytes e).length = 16 + b.content.length := by
  simp [bytes, b.closed]
  omega

@[simp] theorem Block.length_bytes (e : Endian) (b : Block) :
    (b.bytes e).length = 12 + b.body.length := by
  simp [bytes, b.closed]
  omega

/-- A file that starts with a section header is dispatched to the pcapng loop. -/
theorem readPcap_pcapng [Floats] {contents : Bytes} (h : contents.take 4 = Endian.little.field 4 btShb) :
    readPcap contents = readPcapng contents := by
  unfold readPcap
  simp only [h]
  rfl

/-! ## One turn -/

section Turn

variable (s : Section)

theorem blockTurn_short [Floats] {handle : Bytes} (h : handle.length < 8) :
    blockTurn s handle = .ok none := by
  have hshort : (handle.take 8).length < 8 := by
    rw [List.length_take]
    omega
  exact if_pos hshort

/-- The turn at a block header, by its type. -/
theorem blockTurn_eq [Floats] {head : Bytes} (hlen : head.length = 8) (handle : Bytes) :
    blockTurn s (head ++ handle) =
      if s.endian.value (head.take 4) = btShb then sectionTurn handle head
      else bodyTurn s handle head (s.endian.value (head.take 4)) := by
  have htake : (head ++ handle).take 8 = head := by
    rw [List.take_append_of_le_length (by omega), List.take_of_length_le (by omega)]
  have hfour : (head.take 4).length = 4 := by
    rw [List.length_take]
    omega
  unfold blockTurn
  simp only [htake, hlen, Nat.lt_irrefl, if_false, Endian.unpackI_ok hfour, call_ok, ok_bind,
    drop_append hlen]

/-- The turn at a block other than a section header, with any bytes behind its head. -/
theorem blockTurn_head [Floats] (b : Block) (tail : Bytes) :
    blockTurn s (b.head s.endian ++ tail) =
      if tail.length < b.body.length + 4 then .ok none
      else (do
        let r ← call (dispatch s b.type (tail.take b.body.length))
        .ok (some (⟨s.endian, r.1⟩, tail.drop (b.body.length + 4), r.2.toList))) := by
  have hfits := b.fits
  have htype : s.endian.value ((b.head s.endian).take 4) = b.type := by
    rw [Block.head, List.take_append_of_le_length (by simp), List.take_of_length_le (by simp),
      Endian.value_field_four b.small]
  have htotal : slice (b.head s.endian) 4 8 = s.endian.field 4 (12 + b.body.length) := by
    simp [Block.head, slice, List.take_of_length_le]
  rw [blockTurn_eq s (b.length_head s.endian), htype, if_neg b.ordinary]
  unfold bodyTurn
  simp only [htotal, Endian.unpackI_field (maxBlock_lt hfits), call_ok, ok_bind]
  rw [if_neg (by omega), Nat.add_sub_cancel_left]
  by_cases h : tail.length < b.body.length + 4
  · rw [if_pos h, if_pos (by simp only [List.length_take, List.length_drop]; omega)]
  · rw [if_neg h, if_neg (by simp only [List.length_take, List.length_drop]; omega), List.drop_drop]

theorem blockTurn_block [Floats] (b : Block) (rest : Bytes) :
    blockTurn s (b.bytes s.endian ++ rest) = (do
      let r ← call (dispatch s b.type b.body)
      .ok (some (⟨s.endian, r.1⟩, rest, r.2.toList))) := by
  have hdrop : (b.body ++ (b.trailer ++ rest)).drop (b.body.length + 4) = rest := by
    rw [← List.append_assoc]
    exact drop_append (by simp [b.closed])
  have h := blockTurn_head s b (b.body ++ (b.trailer ++ rest))
  rw [if_neg (by simp [b.closed]), List.take_left, hdrop] at h
  rw [Block.bytes, List.append_assoc, List.append_assoc]
  exact h

theorem blockTurn_block_torn [Floats] (b : Block) {m : Nat} (h : m < (b.bytes s.endian).length) :
    blockTurn s ((b.bytes s.endian).take m) = .ok none := by
  rw [Block.length_bytes] at h
  by_cases hm : m < 8
  · exact blockTurn_short s (by rw [List.length_take]; omega)
  · have hsplit : (b.bytes s.endian).take m =
        b.head s.endian ++ (b.body ++ b.trailer).take (m - 8) := by
      rw [Block.bytes, List.take_append, List.take_of_length_le (by simp; omega), Block.length_head]
    rw [hsplit, blockTurn_head, if_pos]
    rw [List.length_take]
    omega

/-- The first eight bytes of a section header, and its byte-order magic. -/
theorem Shb.head_eq (e : Endian) (b : Shb) :
    ∃ head, b.head e = head ++ b.endian.field 4 shbMagic ∧ head.length = 8 ∧
      e.value (head.take 4) = btShb ∧ slice head 4 8 = b.endian.field 4 (16 + b.content.length) := by
  refine ⟨e.field 4 btShb ++ b.endian.field 4 (16 + b.content.length), ?_, by simp, ?_, ?_⟩
  · rw [Shb.head, List.append_assoc]
  · rw [List.take_append_of_le_length (by simp), List.take_of_length_le (by simp),
      Endian.value_field_four (by decide)]
  · simp [slice, List.take_of_length_le]

/-- The turn at a section header, with any bytes behind its byte-order magic. -/
theorem blockTurn_shbHead [Floats] (b : Shb) (tail : Bytes) :
    blockTurn s (b.head s.endian ++ tail) =
      if tail.length < b.content.length + 4 then .ok none
      else .ok (some (⟨b.endian, []⟩, tail.drop (b.content.length + 4), [])) := by
  have hfits := b.fits
  obtain ⟨head, hhead, hlen, htype, htotal⟩ := b.head_eq s.endian
  obtain ⟨magic, hmagic⟩ : ∃ magic, magic = b.endian.field 4 shbMagic := ⟨_, rfl⟩
  have hlen' : magic.length = 4 := by simp [hmagic]
  have htake : (magic ++ tail).take 4 = magic := by
    rw [List.take_append_of_le_length (by omega), List.take_of_length_le (by omega)]
  have horder : (if Endian.little.value magic = shbMagic then Endian.little else .big) = b.endian := by
    rw [hmagic]
    cases b.endian <;> rfl
  have hvalue : b.endian.value magic = shbMagic := by
    rw [hmagic, Endian.value_field_four (by decide)]
  rw [hhead, ← hmagic, List.append_assoc, blockTurn_eq s hlen, if_pos htype]
  unfold sectionTurn readShbHeader
  simp only [htake, hlen', Nat.lt_irrefl, if_false, Endian.unpackI_ok hlen', call_ok, ok_bind, horder,
    hvalue, ne_eq, not_true_eq_false, htotal, Endian.unpackI_field (maxBlock_lt hfits),
    drop_append hlen']
  rw [if_neg (by omega)]
  simp only [ok_bind, Nat.add_sub_cancel_left]
  by_cases h : tail.length < b.content.length + 4
  · rw [if_pos h, if_pos (by simp only [List.length_take, List.length_drop]; omega)]
  · rw [if_neg h, if_neg (by simp only [List.length_take, List.length_drop]; omega), List.drop_drop]

theorem blockTurn_shb [Floats] (b : Shb) (rest : Bytes) :
    blockTurn s (b.bytes s.endian ++ rest) = .ok (some (⟨b.endian, []⟩, rest, [])) := by
  have hdrop : (b.content ++ (b.trailer ++ rest)).drop (b.content.length + 4) = rest := by
    rw [← List.append_assoc]
    exact drop_append (by simp [b.closed])
  have h := blockTurn_shbHead s b (b.content ++ (b.trailer ++ rest))
  rw [if_neg (by simp [b.closed]), hdrop] at h
  rw [Shb.bytes, List.append_assoc, List.append_assoc]
  exact h

/-- A section header torn inside its length or its byte-order magic is refused, not dropped. -/
theorem blockTurn_shb_refused [Floats] (b : Shb) {m : Nat} (hlo : 8 ≤ m) (hhi : m < 12) :
    blockTurn s ((b.bytes s.endian).take m) = raiseValueError "Truncated pcapng section header." := by
  obtain ⟨head, hhead, hlen, htype, -⟩ := b.head_eq s.endian
  have hsplit : (b.bytes s.endian).take m = head ++ (b.endian.field 4 shbMagic).take (m - 8) := by
    rw [Shb.bytes, List.take_append_of_le_length (by simp; omega), hhead, List.take_append,
      List.take_of_length_le (by omega), hlen]
  rw [hsplit, blockTurn_eq s hlen, if_pos htype]
  unfold sectionTurn readShbHeader
  rw [if_pos]
  · rfl
  · simp only [List.length_take, Endian.length_field]
    omega

/-- A section header torn anywhere else is dropped. -/
theorem blockTurn_shb_torn [Floats] (b : Shb) {m : Nat} (h : m < (b.bytes s.endian).length)
    (hm : m < 8 ∨ 12 ≤ m) : blockTurn s ((b.bytes s.endian).take m) = .ok none := by
  rw [Shb.length_bytes] at h
  rcases hm with hm | hm
  · exact blockTurn_short s (by rw [List.length_take]; omega)
  · have hsplit : (b.bytes s.endian).take m =
        b.head s.endian ++ (b.content ++ b.trailer).take (m - 12) := by
      rw [Shb.bytes, List.take_append, List.take_of_length_le (by simp; omega), Shb.length_head]
    rw [hsplit, blockTurn_shbHead, if_pos]
    rw [List.length_take]
    omega

/-! ## What a turn says of the bytes -/

variable {s}

/-- Bytes with room for a block header start with a type and a length. -/
theorem exists_head {handle : Bytes} (e : Endian) (h : 8 ≤ handle.length) :
    ∃ head tail, handle = head ++ tail ∧ head.length = 8 ∧
      head = e.field 4 (e.value (head.take 4)) ++ e.field 4 (e.value (slice head 4 8)) ∧
      e.value (head.take 4) < 2 ^ 32 ∧ e.value (slice head 4 8) < 2 ^ 32 := by
  have hlen : (handle.take 8).length = 8 := by
    rw [List.length_take]
    omega
  refine ⟨handle.take 8, handle.drop 8, (List.take_append_drop 8 handle).symm, hlen, ?_, ?_, ?_⟩
  · have h1 : ((handle.take 8).take 4).length = 4 := by
      rw [List.length_take]
      omega
    have h2 : (slice (handle.take 8) 4 8).length = 4 := length_slice_of_le (by omega)
    have hf1 := e.field_value ((handle.take 8).take 4)
    have hf2 := e.field_value (slice (handle.take 8) 4 8)
    have hslice : slice (handle.take 8) 4 8 = (handle.take 8).drop 4 := by
      rw [slice, List.take_of_length_le hlen.le]
    rw [h1] at hf1
    rw [h2] at hf2
    rw [hf1, hf2, hslice, List.take_append_drop]
  · have hv := e.value_lt ((handle.take 8).take 4)
    rwa [List.length_take, hlen] at hv
  · have hv := e.value_lt (slice (handle.take 8) 4 8)
    rwa [length_slice_of_le (by omega)] at hv

/-- Bytes with room for a block's body and trailer start with a block. -/
theorem exists_block {e : Endian} {type total : Nat} {tail : Bytes} (htype : type ≠ btShb)
    (hsmall : type < 2 ^ 32) (hlo : 12 ≤ total) (hhi : total ≤ maxBlock)
    (hroom : total - 12 + 4 ≤ tail.length) :
    ∃ b : Block, b.type = type ∧ b.body = tail.take (total - 12) ∧
      e.field 4 type ++ e.field 4 total ++ tail =
        b.bytes e ++ (tail.drop (total - 12)).drop 4 := by
  have hbody : (tail.take (total - 12)).length = total - 12 := by
    rw [List.length_take]
    omega
  obtain ⟨b, rfl, hb, ht⟩ : ∃ b : Block, b.type = type ∧ b.body = tail.take (total - 12) ∧
      b.trailer = (tail.drop (total - 12)).take 4 :=
    ⟨⟨type, tail.take (total - 12), (tail.drop (total - 12)).take 4, htype, hsmall,
      by rw [hbody]; omega, by rw [List.length_take, List.length_drop]; omega⟩, rfl, rfl, rfl⟩
  refine ⟨b, rfl, hb, ?_⟩
  rw [Block.bytes, Block.head, hb, ht, hbody, Nat.add_sub_cancel' hlo]
  simp only [List.append_assoc]
  rw [List.take_append_drop, List.take_append_drop]

/-- Bytes with room for a section header's content and trailer start with a section header. -/
theorem exists_shb (e e' : Endian) {total : Nat} {tail : Bytes} (hlo : 16 ≤ total)
    (hhi : total ≤ maxBlock) (hroom : total - 16 + 4 ≤ tail.length) :
    ∃ (b : Shb) (rest : Bytes),
      e.field 4 btShb ++ (e'.field 4 total ++ (e'.field 4 shbMagic ++ tail)) = b.bytes e ++ rest := by
  have hbody : (tail.take (total - 16)).length = total - 16 := by
    rw [List.length_take]
    omega
  obtain ⟨b, rfl, hb, ht⟩ : ∃ b : Shb, b.endian = e' ∧ b.content = tail.take (total - 16) ∧
      b.trailer = (tail.drop (total - 16)).take 4 :=
    ⟨⟨e', tail.take (total - 16), (tail.drop (total - 16)).take 4, by rw [hbody]; omega,
      by rw [List.length_take, List.length_drop]; omega⟩, rfl, rfl, rfl⟩
  refine ⟨b, (tail.drop (total - 16)).drop 4, ?_⟩
  rw [Shb.bytes, Shb.head, hb, ht, hbody, Nat.add_sub_cancel' hlo]
  simp only [List.append_assoc]
  rw [List.take_append_drop, List.take_append_drop]

/-- What the turn makes of a block's head and whatever follows it, when it does not stop. -/
theorem bodyTurn_inv [Floats] {head : Bytes} (tail : Bytes) {type : Nat}
    (hhead : head = s.endian.field 4 type ++
      s.endian.field 4 (s.endian.value (slice head 4 8))) (hlen : head.length = 8)
    (htype : type ≠ btShb) (hsmall : type < 2 ^ 32) :
    bodyTurn s tail head type = .ok none ∨ (∃ text, bodyTurn s tail head type = raiseValueError text) ∨
      ∃ b : Block, b.type = type ∧ ∃ rest, head ++ tail = b.bytes s.endian ++ rest := by
  have htotal : s.endian.unpackI (slice head 4 8) = .ok (s.endian.value (slice head 4 8)) :=
    Endian.unpackI_ok (length_slice_of_le hlen.ge)
  obtain ⟨total, htot⟩ : ∃ total, total = s.endian.value (slice head 4 8) := ⟨_, rfl⟩
  unfold bodyTurn
  rw [htotal, call_ok, ok_bind, ← htot]
  rw [← htot] at hhead
  by_cases hbad : total < 12 ∨ maxBlock < total
  · rw [if_pos hbad]
    exact .inr (.inl ⟨_, rfl⟩)
  · rw [if_neg hbad]
    by_cases hroom : total - 12 + 4 ≤ tail.length
    · obtain ⟨b, hb, -, he⟩ := exists_block (e := s.endian) htype hsmall (by omega) (by omega) hroom
      exact .inr (.inr ⟨b, hb, _, hhead ▸ he⟩)
    · left
      rw [if_pos]
      simp only [List.length_take, List.length_drop]
      omega

/-- The same of a section header. -/
theorem sectionTurn_inv {head : Bytes} (tail : Bytes) (hlen : head.length = 8)
    (htype : head.take 4 = s.endian.field 4 btShb) :
    sectionTurn tail head = .ok none ∨ (∃ text, sectionTurn tail head = raiseValueError text) ∨
      ∃ b : Shb, ∃ rest, head ++ tail = b.bytes s.endian ++ rest := by
  obtain ⟨magic, hmagic⟩ : ∃ magic, magic = tail.take 4 := ⟨_, rfl⟩
  unfold sectionTurn readShbHeader
  simp only [← hmagic]
  by_cases hshort : magic.length < 4
  · rw [if_pos hshort]
    exact .inr (.inl ⟨_, rfl⟩)
  · have hlen' : magic.length = 4 := by
      rw [hmagic, List.length_take] at hshort ⊢
      omega
    obtain ⟨e, he⟩ : ∃ e : Endian,
        e = if Endian.little.value magic = shbMagic then .little else .big := ⟨_, rfl⟩
    have htotal : e.unpackI (slice head 4 8) = .ok (e.value (slice head 4 8)) :=
      Endian.unpackI_ok (length_slice_of_le hlen.ge)
    rw [if_neg hshort, Endian.unpackI_ok hlen', call_ok, ok_bind, ← he, Endian.unpackI_ok hlen', call_ok,
      ok_bind]
    by_cases hval : e.value magic = shbMagic
    · rw [if_neg (by simpa using hval), htotal, call_ok, ok_bind]
      obtain ⟨total, htot⟩ : ∃ total, total = e.value (slice head 4 8) := ⟨_, rfl⟩
      rw [← htot]
      by_cases hbad : total < 16 ∨ maxBlock < total
      · rw [if_pos hbad]
        exact .inr (.inl ⟨_, rfl⟩)
      · rw [if_neg hbad, ok_bind]
        dsimp only
        by_cases hroom : total - 16 + 4 ≤ (tail.drop 4).length
        · obtain ⟨b, rest, hb⟩ := exists_shb s.endian e (by omega) (by omega) hroom
          refine .inr (.inr ⟨b, rest, hb ▸ ?_⟩)
          have hfour := e.field_value magic
          have hlength := e.field_value (slice head 4 8)
          have hslice : slice head 4 8 = head.drop 4 := by rw [slice, List.take_of_length_le hlen.le]
          rw [hlen', hval] at hfour
          rw [length_slice_of_le hlen.ge, ← htot] at hlength
          rw [hfour, hlength, hslice, ← htype, hmagic, List.take_append_drop, ← List.append_assoc,
            List.take_append_drop]
        · left
          rw [List.length_drop] at hroom
          rw [if_pos]
          simp only [List.length_take, List.length_drop]
          omega
    · rw [if_pos (by simpa using hval)]
      exact .inr (.inl ⟨_, rfl⟩)

/-- **A turn stops, raises a `ValueError`, or has a block in front of it.** -/
theorem blockTurn_inv [Floats] (s : Section) (handle : Bytes) :
    blockTurn s handle = .ok none ∨ (∃ text, blockTurn s handle = raiseValueError text) ∨
      ∃ (b : RawBlock) (rest : Bytes), handle = layout.bytes s.endian b ++ rest := by
  by_cases h : 8 ≤ handle.length
  · obtain ⟨head, tail, rfl, hlen, hhead, hsmall, -⟩ := exists_head s.endian h
    by_cases htype : s.endian.value (head.take 4) = btShb
    · rw [blockTurn_eq s hlen, if_pos htype]
      have hfour : head.take 4 = s.endian.field 4 btShb := by
        have hf := s.endian.field_value (head.take 4)
        rw [List.length_take, hlen, htype] at hf
        exact hf.symm
      rcases sectionTurn_inv tail hlen hfour with hstop | hraise | ⟨b, rest, hb⟩
      · exact .inl hstop
      · exact .inr (.inl hraise)
      · exact .inr (.inr ⟨.shb b, rest, hb⟩)
    · rw [blockTurn_eq s hlen, if_neg htype]
      rcases bodyTurn_inv tail hhead hlen htype hsmall with hstop | hraise | ⟨b, -, rest, hb⟩
      · exact .inl hstop
      · exact .inr (.inl hraise)
      · exact .inr (.inr ⟨.block b, rest, hb⟩)
  · exact .inl (blockTurn_short s (by omega))

end Turn

end Pyscan.Pcapng
