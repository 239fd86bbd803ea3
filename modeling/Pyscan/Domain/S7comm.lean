import Pyscan.Py.Text

/-!
# The S7comm codec

`parseJob` reads the S7 header out of a TCP payload. `Message p j` says where
the job's bytes sit: the TPKT version first, the S7 protocol id after the COTP
header, the ROSCTR next to it and the function after the ten header bytes
(`parseJob_some`).
-/

namespace Pyscan.S7comm

open Py

abbrev s7ProtocolId : UInt8 := 0x32
abbrev cotpCc : UInt8 := 0xD0
abbrev s7Offset : Nat := 7
abbrev functionOffset : Nat := s7Offset + 10

inductive JobClass where
  | read
  | write
  | program
  | control
  | setup
  | other
  deriving DecidableEq, Repr

def functions : List (Nat × String × JobClass) := [
  (0x00, "CPU services", .other),
  (0x04, "Read Var", .read),
  (0x05, "Write Var", .write),
  (0x1A, "Request download", .program),
  (0x1B, "Download block", .program),
  (0x1C, "Download ended", .program),
  (0x1D, "Start upload", .program),
  (0x1E, "Upload", .program),
  (0x1F, "End upload", .program),
  (0x28, "PLC Control", .control),
  (0x29, "PLC Stop", .control),
  (0xF0, "Setup communication", .setup)]

structure S7Job where
  rosctr : Nat
  function : Nat
  deriving DecidableEq, Repr

/-- `f"{n:02X}"`. -/
def hexUpper2 (n : Nat) : String := String.ofList ((hexPad 2 n).map Char.toUpper)

def S7Job.name (job : S7Job) : String :=
  match functions.lookup job.function with
  | some entry => entry.1
  | none => "Function 0x" ++ hexUpper2 job.function

def S7Job.jobClass (job : S7Job) : JobClass :=
  match functions.lookup job.function with
  | some entry => entry.2
  | none => .other

def parseJob (payload : Bytes) : Result (Option S7Job) :=
  if payload.length < functionOffset + 1 then .ok none
  else do
    let version ← index payload 0
    let protocolId ← index payload s7Offset
    if version ≠ 0x03 ∨ protocolId ≠ s7ProtocolId then .ok none
    else do
      let rosctr ← index payload (s7Offset + 1)
      let function ← index payload functionOffset
      .ok (some { rosctr := rosctr.toNat, function := function.toNat })

/-! ## Identification -/

structure S7Info where
  isS7 : Bool
  orderNumber : Option String := none
  deriving DecidableEq, Repr

def isConnectionConfirm (data : Bytes) : Bool :=
  decide (6 ≤ data.length) && decide (data[0]? = some 0x03) && decide (data[5]? = some cotpCc)

def isS7Response (data : Bytes) : Bool :=
  decide (8 ≤ data.length) && decide (data[0]? = some 0x03) && decide (data[7]? = some s7ProtocolId)

/-- The text in front of `or None`. -/
def orNone (s : String) : Option String := if s = "" then none else some s

/-- The `try` block of `parse_szl`; `none` when no branch of it returns. -/
def szlBlock (data : Bytes) : Result (Option S7Info) := do
  let parlen ← unpackH (slice data 13 15)
  let block := data.drop (17 + parlen)
  if 12 ≤ block.length then
    if (← index block 0) = 0xFF then
      let record := block.drop 12
      if 20 ≤ record.length then
        let raw := latin1 (record.take 20)
        let order := stripWhite (String.ofList (raw.toList.filter isPrintable))
        .ok (some { isS7 := true, orderNumber := orNone order })
      else .ok none
    else .ok none
  else .ok none

def parseSzl (data : Bytes) : Result (Option S7Info) :=
  if ¬ isS7Response data then .ok none
  else match szlBlock data with
    | .ok (some info) => .ok (some info)
    | .ok none | .error .indexError | .error .structError => .ok (some { isS7 := true })
    | .error e => .error e

def describe (info : Option S7Info) : Option String :=
  match info with
  | none => none
  | some info =>
    if ¬ info.isS7 then none
    else some ("S7comm" ++ match info.orderNumber with
      | some order => if order = "" then "" else " " ++ order
      | none => "")

/-- The order number read out of a record. -/
def orderOf (record : Bytes) : Option String :=
  orNone (stripWhite (String.ofList ((latin1 (record.take 20)).toList.filter isPrintable)))

theorem szlBlock_cases (data : Bytes) :
    (∃ record, szlBlock data = .ok (some { isS7 := true, orderNumber := orderOf record })) ∨
      szlBlock data = .ok none ∨ szlBlock data = .error .structError := by
  unfold szlBlock
  by_cases hlen : (slice data 13 15).length = 2
  · obtain ⟨parlen, hu, -⟩ := unpackH_yields hlen
    rw [hu, ok_bind]
    dsimp only
    split
    · rw [index_ok (by omega), ok_bind]
      split
      · split
        · exact .inl ⟨_, rfl⟩
        · exact .inr (.inl rfl)
      · exact .inr (.inl rfl)
    · exact .inr (.inl rfl)
  · have hu : unpackH (slice data 13 15) = .error .structError := by
      unfold unpackH
      split
      · rename_i h
        rw [h] at hlen
        exact absurd rfl hlen
      · rfl
    rw [hu]
    exact .inr (.inr rfl)

/-- **The SZL parser raises nothing**: it tells S7 from anything else, with an order number out of
some record or without one. -/
theorem parseSzl_cases (data : Bytes) :
    parseSzl data = .ok none ∨ ∃ order, parseSzl data = .ok (some { isS7 := true, orderNumber := order }) ∧
      (order = none ∨ ∃ record, order = orderOf record) := by
  unfold parseSzl
  split
  · exact .inl rfl
  · right
    rcases szlBlock_cases data with ⟨record, h⟩ | h | h
    · rw [h]
      exact ⟨_, rfl, .inr ⟨record, rfl⟩⟩
    · rw [h]
      exact ⟨none, rfl, .inl rfl⟩
    · rw [h]
      exact ⟨none, rfl, .inl rfl⟩

theorem parseSzl_yields (data : Bytes) : Yields (parseSzl data) fun _ => True := by
  rcases parseSzl_cases data with h | ⟨order, h, -⟩
  · exact ⟨_, h, trivial⟩
  · exact ⟨_, h, trivial⟩

/-- A description names the protocol first. -/
theorem describe_names {info : Option S7Info} {banner : String} (h : describe info = some banner) :
    "S7comm".toList <+: banner.toList := by
  unfold describe at h
  split at h
  · cases h
  · split at h
    · cases h
    · cases h
      rw [String.toList_append]
      exact List.prefix_append _ _

/-! ## What a parsed job means -/

/-- `p` carries the header of job `j` behind TPKT and COTP. -/
def Message (p : Bytes) (j : S7Job) : Prop :=
  p[0]? = some 0x03 ∧ p[7]? = some 0x32 ∧ (p[8]?).map UInt8.toNat = some j.rosctr ∧
    (p[17]?).map UInt8.toNat = some j.function

theorem parseJob_long {p : Bytes} (h : 17 < p.length) :
    parseJob p = .ok (if p[0] = 0x03 ∧ p[7] = 0x32 then
      some { rosctr := p[8].toNat, function := p[17].toNat } else none) := by
  unfold parseJob
  rw [if_neg (by simp only [functionOffset, s7Offset]; omega)]
  simp only [functionOffset, s7Offset, Nat.reduceAdd, index_ok (show 0 < p.length by omega),
    index_ok (show 7 < p.length by omega), index_ok (show 8 < p.length by omega),
    index_ok (show 17 < p.length by omega), ok_bind, s7ProtocolId]
  by_cases h0 : p[0] = 0x03
  · by_cases h7 : p[7] = 0x32
    · simp [h0, h7]
    · simp [h0, h7]
  · simp [h0]

theorem parseJob_yields (p : Bytes) :
    Yields (parseJob p) fun r => ∀ j, r = some j → Message p j := by
  by_cases h : 17 < p.length
  · refine ⟨_, parseJob_long h, fun j hj => ?_⟩
    split at hj
    · rename_i hg
      cases hj
      refine ⟨?_, ?_, ?_, ?_⟩
      · rw [List.getElem?_eq_getElem (by omega), hg.1]
      · rw [List.getElem?_eq_getElem (by omega), hg.2]
      · rw [List.getElem?_eq_getElem (by omega), Option.map_some]
      · rw [List.getElem?_eq_getElem (by omega), Option.map_some]
    · cases hj
  · refine ⟨none, ?_, by rintro j ⟨⟩⟩
    unfold parseJob
    rw [if_pos (by simp only [functionOffset, s7Offset]; omega)]

theorem parseJob_some {p : Bytes} {j : S7Job} : parseJob p = .ok (some j) ↔ Message p j := by
  constructor
  · intro h
    exact (parseJob_yields p).of_eq h j rfl
  · rintro ⟨h0, h7, h8, h17⟩
    have hlen : 17 < p.length := by
      by_contra hc
      rw [List.getElem?_eq_none (by omega)] at h17
      cases h17
    rw [List.getElem?_eq_getElem (by omega)] at h0 h7 h8 h17
    rw [parseJob_long hlen, if_pos ⟨Option.some.inj h0, Option.some.inj h7⟩]
    simp only [Option.map_some, Option.some.injEq] at h8 h17
    rw [h8, h17]

/-! ## Job messages -/

def cotpDt : Bytes := [0x02, 0xF0, 0x80]

def tpkt (payload : Bytes) : Result Bytes := do
  let length ← packH (4 + payload.length)
  .ok ([0x03, 0x00] ++ length ++ payload)

/-- COTP Connection Request; the destination TSAP holds rack and slot of the CPU. -/
def buildConnectionRequest (rack slot connType : Nat) : Result Bytes :=
  let dstTsap := (connType <<< 8) ||| (rack * 0x20 + slot)
  let srcTsap := 0x0100
  tpkt ([0x11, 0xE0, 0x00, 0x00, 0x00, 0x01, 0x00, 0xC0, 0x01, 0x0A, 0xC1, 0x02,
    UInt8.ofNat ((srcTsap >>> 8) &&& 0xFF), UInt8.ofNat (srcTsap &&& 0xFF), 0xC2, 0x02,
    UInt8.ofNat ((dstTsap >>> 8) &&& 0xFF), UInt8.ofNat (dstTsap &&& 0xFF)])

def buildSetupCommunication : Result Bytes :=
  tpkt (cotpDt ++ [0x32, 0x01, 0x00, 0x00, 0x00, 0x01, 0x00, 0x08, 0x00, 0x00,
    0xF0, 0x00, 0x00, 0x01, 0x00, 0x01, 0x01, 0xE0])

def buildReadSzl (szlId index : Nat) : Result Bytes := do
  let param : Bytes := [0x00, 0x01, 0x12, 0x04, 0x11, 0x44, 0x01, 0x00]
  let data := [0xFF, 0x09, 0x00, 0x04] ++ ((← packH szlId) ++ (← packH index))
  let s7Header := [0x32, 0x07, 0x00, 0x00, 0x00, 0x02] ++
    ((← packH param.length) ++ (← packH data.length))
  tpkt (cotpDt ++ s7Header ++ param ++ data)

/-- A complete TPKT-framed S7 job: the ten-byte job header, a function, its parameters and data. -/
structure JobMessage where
  header : Bytes
  header_length : header.length = 8
  function : UInt8
  rest : Bytes
  bytes : Bytes
  encoded : tpkt (cotpDt ++ (s7ProtocolId :: 0x01 :: (header ++ function :: rest))) = .ok bytes

def JobMessage.job (m : JobMessage) : S7Job := { rosctr := 1, function := m.function.toNat }

theorem JobMessage.bytes_eq (m : JobMessage) : ∃ l1 l0, m.bytes =
    [0x03, 0x00, l1, l0, 0x02, 0xF0, 0x80, 0x32, 0x01] ++ (m.header ++ m.function :: m.rest) := by
  have h := m.encoded
  obtain ⟨length, hl, h⟩ := bind_inv h
  obtain ⟨-, rfl⟩ := packH_inv hl
  exact ⟨_, _, (Except.ok.inj h).symm⟩

/-- A job message is read off the front of a payload. -/
theorem parseJob_message (m : JobMessage) (tail : Bytes) :
    parseJob (m.bytes ++ tail) = .ok (some m.job) := by
  obtain ⟨l1, l0, hb⟩ := m.bytes_eq
  have h17 : (m.bytes ++ tail)[17]? = some m.function := by
    rw [hb, List.append_assoc, List.getElem?_append_right (by simp), List.append_assoc,
      List.getElem?_append_right (by simp [m.header_length])]
    simp [m.header_length]
  refine parseJob_some.mpr ⟨?_, ?_, ?_, ?_⟩
  · rw [hb]; rfl
  · rw [hb]; rfl
  · rw [hb]; rfl
  · rw [h17]; rfl

end Pyscan.S7comm
