import Pyscan.Domain.S7comm

/-!
# The order number in an SZL response

An `SzlResponse` is a response of the standard layout of SZL 0x0011: behind TPKT,
COTP, the S7 header and the parameter stands a data block whose first record is
an index word, the twenty characters of the order number, and three words.
`parseSzl` takes its window of twenty from the start of the record, two bytes
early. It returns the order number **exactly when** those two bytes show nothing
and the two characters behind the window are blank, or the order number repeats
what they show (`order_read_whole`).
-/

namespace Pyscan.S7comm

open Py Strip

theorem orNone_inj {s t : String} : orNone s = orNone t ↔ s = t := by
  unfold orNone
  split <;> split <;> simp_all [eq_comm]

/-- An SZL response of the standard layout. -/
structure SzlResponse where
  reserved : UInt8
  length : UInt8 × UInt8
  /-- of the S7 header: what stands between the protocol id and the parameter length, userdata
  first -/
  header : Bytes
  header_length : header.length = 5
  parameter : Bytes
  parameter_lt : parameter.length < 65536
  dataLength : UInt8 × UInt8
  /-- transport size, length, SZL id, SZL index, record length, record count -/
  szl : Bytes
  szl_length : szl.length = 11
  index : UInt8 × UInt8
  order : Bytes
  order_length : order.length = 20
  printable : ∀ b ∈ order, 0x20 ≤ b.toNat ∧ b.toNat ≤ 0x7E
  /-- the three words of the record, and whatever follows it -/
  rest : Bytes
  words : 6 ≤ rest.length

namespace SzlResponse

variable (r : SzlResponse)

def record : Bytes := r.index.1 :: r.index.2 :: (r.order ++ r.rest)

def block : Bytes := 0xFF :: (r.szl ++ r.record)

/-- What stands in front of the parameter. -/
def front : Bytes :=
  [0x03, r.reserved, r.length.1, r.length.2] ++ cotpDt ++ [s7ProtocolId] ++ r.header ++
    be16 r.parameter.length ++ [r.dataLength.1, r.dataLength.2]

def bytes : Bytes := r.front ++ (r.parameter ++ r.block)

/-- The characters of the order number's field. -/
def field : List Char := (latin1 r.order).toList

/-- The field without the blanks around it, if that leaves anything. -/
def orderNumber : Option String := orNone (stripWhite (latin1 r.order))

/-- What the index word shows when it is taken for text. -/
def shown : List Char := (latin1 [r.index.1, r.index.2]).toList.filter isPrintable

/-- The index word shows nothing, and the order number ends within its first 18 characters. -/
def Fits : Prop := (∀ c ∈ r.shown, isWhite c = true) ∧ ∀ c ∈ r.field.drop 18, isWhite c = true

/-- The index word shows something, and the field from its first nonblank on is that, followed by
the first 18 characters of the field, up to blanks at the end. -/
def Repeats : Prop :=
  (¬ ∀ c ∈ r.shown, isWhite c = true) ∧ ∃ s x y, (∀ c ∈ x, isWhite c = true) ∧
    (∀ c ∈ y, isWhite c = true) ∧ r.shown.dropWhile isWhite ++ r.field.take 18 = s ++ x ∧
      r.field.dropWhile isWhite = s ++ y

theorem length_front : r.front.length = 17 := by
  simp [front, cotpDt, r.header_length]

theorem isS7Response_bytes : isS7Response r.bytes = true := by
  have h0 : r.bytes[0]? = some 0x03 := rfl
  have h7 : r.bytes[7]? = some s7ProtocolId := rfl
  have hlen : 8 ≤ r.bytes.length := by
    rw [bytes, List.length_append, r.length_front]
    omega
  rw [isS7Response, h0, h7, decide_eq_true hlen]
  rfl

theorem szlBlock_bytes : szlBlock r.bytes = .ok (some {
    isS7 := true
    orderNumber := orNone (stripWhite (String.ofList (r.shown ++ r.field.take 18))) }) := by
  have hparlen : slice r.bytes 13 15 = be16 r.parameter.length := by
    have hsplit : r.bytes = ([0x03, r.reserved, r.length.1, r.length.2] ++ cotpDt ++ [s7ProtocolId] ++
        r.header) ++ (be16 r.parameter.length ++ ([r.dataLength.1, r.dataLength.2] ++
          (r.parameter ++ r.block))) := by
      simp [bytes, front]
    rw [hsplit]
    exact slice_append (by simp [cotpDt, r.header_length]) rfl
  have hblock : r.bytes.drop (17 + r.parameter.length) = r.block := by
    rw [bytes, ← List.append_assoc]
    exact drop_append (by rw [List.length_append, r.length_front])
  have hrecord : r.block.drop 12 = r.record := by
    rw [block, ← List.cons_append]
    exact drop_append (by rw [List.length_cons, r.szl_length])
  have hwindow : r.record.take 20 = r.index.1 :: r.index.2 :: r.order.take 18 := by
    rw [record, List.take_succ_cons, List.take_succ_cons,
      List.take_append_of_le_length (by rw [r.order_length]; decide)]
  have hlen : 20 ≤ r.record.length := by
    simp only [record, List.length_cons, List.length_append, r.order_length]
    omega
  have hshown : (latin1 (r.record.take 20)).toList.filter isPrintable = r.shown ++ r.field.take 18 := by
    have horder : ∀ c ∈ r.field, isPrintable c = true := by
      intro c hc
      rw [field, latin1, String.toList_ofList] at hc
      obtain ⟨b, hb, rfl⟩ := List.mem_map.mp hc
      rw [isPrintable, toNat_latin1]
      exact decide_eq_true (.inl (r.printable b hb))
    rw [hwindow]
    simp only [latin1, String.toList_ofList, List.map_cons, shown, field, List.map_take] at horder ⊢
    rw [show ∀ (a b : Char) (l : List Char), a :: b :: l = [a, b] ++ l from fun _ _ _ => rfl,
      List.filter_append]
    congr 1
    exact List.filter_eq_self.mpr fun c hc => horder c (List.mem_of_mem_take hc)
  rw [szlBlock, hparlen, unpackH_be16 r.parameter_lt, ok_bind]
  simp only [hblock, hrecord, hshown, if_pos hlen]
  rw [if_pos (by simp [block, r.szl_length]), show Py.index r.block 0 = .ok 0xFF from rfl, ok_bind]
  rfl

theorem parseSzl_bytes : parseSzl r.bytes = .ok (some {
    isS7 := true
    orderNumber := orNone (stripWhite (String.ofList (r.shown ++ r.field.take 18))) }) := by
  rw [parseSzl, if_neg (by simp [r.isS7Response_bytes]), r.szlBlock_bytes]

/-- The window, stripped, against the field. -/
theorem read_whole_iff :
    parseSzl r.bytes = .ok (some { isS7 := true, orderNumber := r.orderNumber }) ↔
      Strip.strip isWhite (r.shown ++ r.field.take 18) = Strip.strip isWhite r.field := by
  rw [r.parseSzl_bytes, orderNumber]
  simp only [Except.ok.injEq, Option.some.injEq, S7Info.mk.injEq, true_and, orNone_inj]
  rw [← String.toList_inj, toList_stripWhite, toList_stripWhite, String.toList_ofList, ← field]

/-- **The order number is read whole exactly when** it ends two characters before its field does and
the index word shows nothing, or the field repeats what the index word shows. -/
theorem order_read_whole :
    parseSzl r.bytes = .ok (some { isS7 := true, orderNumber := r.orderNumber }) ↔
      r.Fits ∨ r.Repeats := by
  have hfield : r.field.take 18 ++ r.field.drop 18 = r.field := List.take_append_drop ..
  rw [r.read_whole_iff]
  by_cases hshown : ∀ c ∈ r.shown, isWhite c = true
  · rw [strip_append_pos hshown]
    nth_rewrite 2 [← hfield]
    rw [strip_append_eq, or_iff_left (a := r.Fits) fun h => h.1 hshown, Fits, and_iff_right hshown]
  · rw [strip_append_neg hshown, Strip.strip, rdropWhile_eq_iff,
      or_iff_right (a := r.Fits) fun h => hshown h.1, Repeats, and_iff_right hshown]

/-- Module identification of a CPU, its order number given in full. -/
def moduleId (order : Bytes) (order_length : order.length = 20)
    (printable : ∀ b ∈ order, 0x20 ≤ b.toNat ∧ b.toNat ≤ 0x7E) : SzlResponse where
  reserved := 0
  length := (0, 69)
  header := [0x07, 0, 0, 0, 2]
  header_length := rfl
  parameter := [0x00, 0x01, 0x12, 0x08, 0x12, 0x84, 0x01, 0x00, 0x00, 0x00, 0x00, 0x00]
  parameter_lt := by decide
  dataLength := (0, 40)
  szl := [0x09, 0x00, 0x24, 0x00, 0x11, 0x00, 0x00, 0x00, 0x1C, 0x00, 0x01]
  szl_length := rfl
  index := (0, 1)
  order
  order_length
  printable
  rest := [0, 0, 0, 0, 0, 0]
  words := by decide

/-- The `0` at the end of `6ES7 315-2EH14-0AB0` is not read. -/
theorem order_cut :
    ¬ ∀ r : SzlResponse,
      parseSzl r.bytes = .ok (some { isS7 := true, orderNumber := r.orderNumber }) := by
  intro hread
  have h := (read_whole_iff _).mp (hread (moduleId [0x36, 0x45, 0x53, 0x37, 0x20, 0x33, 0x31, 0x35,
    0x2D, 0x32, 0x45, 0x48, 0x31, 0x34, 0x2D, 0x30, 0x41, 0x42, 0x30, 0x20] rfl (by decide +kernel)))
  exact absurd h (by decide +kernel)

end SzlResponse

end Pyscan.S7comm
