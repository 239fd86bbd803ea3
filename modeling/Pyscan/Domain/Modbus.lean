import Pyscan.Py.Text

/-!
# The Modbus/TCP codec

`readFunctionCode` pulls the function code out of a TCP payload. `Message p fc`
is what that reading means on the wire: `p` starts with an MBAP header of
protocol 0 and a plausible length, and carries function code `fc`
(`readFunctionCode_yields`). `parseResponse` is the scanner's side: it decodes
the answer to a Read Device Identification request.
-/

namespace Pyscan.Modbus

open Py

abbrev mbapSize : Nat := 7

inductive FunctionClass where
  | read
  | write
  | recon
  | program
  | other
  deriving DecidableEq, Repr

def functions : List (Nat × String × FunctionClass) := [
  (0x01, "Read Coils", .read),
  (0x02, "Read Discrete Inputs", .read),
  (0x03, "Read Holding Registers", .read),
  (0x04, "Read Input Registers", .read),
  (0x05, "Write Single Coil", .write),
  (0x06, "Write Single Register", .write),
  (0x07, "Read Exception Status", .read),
  (0x08, "Diagnostics", .recon),
  (0x0B, "Get Comm Event Counter", .read),
  (0x0C, "Get Comm Event Log", .read),
  (0x0F, "Write Multiple Coils", .write),
  (0x10, "Write Multiple Registers", .write),
  (0x11, "Report Server ID", .recon),
  (0x14, "Read File Record", .read),
  (0x15, "Write File Record", .program),
  (0x16, "Mask Write Register", .write),
  (0x17, "Read/Write Multiple Registers", .write),
  (0x18, "Read FIFO Queue", .read),
  (0x2B, "Read Device Identification", .recon),
  (0x5A, "UMAS (Schneider vendor)", .program)]

def readFunctionCode (payload : Bytes) : Result (Option Nat) :=
  if payload.length < mbapSize + 1 then .ok none
  else do
    let protocolId ← unpackH (slice payload 2 4)
    if protocolId ≠ 0x0000 then .ok none
    else do
      let length ← unpackH (slice payload 4 6)
      if ¬ (1 ≤ length ∧ length ≤ 253 + 2) then .ok none
      else do
        let code ← index payload mbapSize
        .ok (some (code.toNat &&& 0x7F))

def classifyFunction (functionCode : Nat) : FunctionClass :=
  match functions.lookup functionCode with
  | some entry => entry.2
  | none => .other

def functionName (functionCode : Nat) : String :=
  match functions.lookup functionCode with
  | some entry => entry.1
  | none => "Function " ++ toString functionCode

/-! ## The scanner's side -/

structure ModbusInfo where
  isModbus : Bool
  isException : Bool := false
  vendor : Option String := none
  product : Option String := none
  version : Option String := none
  deriving DecidableEq, Repr

/-- A Read Device Identification (basic) request. -/
def buildDeviceIdRequest (unit tid : Nat) : Result Bytes := do
  let pdu : Bytes := [0x2B, 0x0E, 0x01, 0x00]
  let mbap := (← packH tid) ++ (← packH 0x0000) ++ (← packH (pdu.length + 1)) ++ (← packB unit)
  .ok (mbap ++ pdu)

/-- The `for` loop of `_parse_device_id_objects`; `fields` has the latest assignment first. -/
def objectLoop (body : Bytes) :
    (room offset : Nat) → (fields : List (Nat × String)) → Result (List (Nat × String))
  | 0, _, fields => .ok fields
  | room + 1, offset, fields =>
    if body.length < offset + 2 then .ok fields
    else do
      let objId ← index body offset
      let objLen ← index body (offset + 1)
      let value := slice body (offset + 2) (offset + 2 + objLen.toNat)
      objectLoop body room (offset + (2 + objLen.toNat)) ((objId.toNat, latin1 value) :: fields)

def parseDeviceIdObjects (body : Bytes) : Result ModbusInfo :=
  if body.length < 7 then .ok { isModbus := true }
  else do
    let numObjects ← index body 6
    let fields ← objectLoop body numObjects.toNat 7 []
    .ok {
      isModbus := true
      vendor := fields.lookup 0x00
      product := fields.lookup 0x01
      version := fields.lookup 0x02 }

def parseResponse (data : Bytes) (_tid : Nat) : Result (Option ModbusInfo) :=
  if data.length < 8 then .ok none
  else do
    let (_rtid, proto, _length, _unit) ← unpackHHHB (slice data 0 7)
    if proto ≠ 0x0000 then .ok none
    else do
      let fc ← index data 7
      if fc.toNat = 0x2B ||| 0x80 then .ok (some { isModbus := true, isException := true })
      else if fc.toNat ≠ 0x2B then .ok (some { isModbus := true })
      else do
        let info ← parseDeviceIdObjects (data.drop 7)
        .ok (some info)

/-- The banner of an identified device. -/
def describe (info : Option ModbusInfo) : Option String :=
  match info with
  | none => none
  | some info =>
    if ¬ info.isModbus then none
    else if info.isException then some "Modbus/TCP (no device id)"
    else
      let parts := [info.vendor, info.product].filterMap fun p => p.filter (· ≠ "")
      let base := "Modbus/TCP" ++ (if parts = [] then "" else " " ++ " ".intercalate parts)
      match info.version.filter (· ≠ "") with
      | some version => some (base ++ " v" ++ version)
      | none => some base

/-- A description names the protocol first. -/
theorem describe_names {info : Option ModbusInfo} {banner : String} (h : describe info = some banner) :
    "Modbus/TCP".toList <+: banner.toList := by
  have hnamed : ∀ s : String, "Modbus/TCP".toList <+: ("Modbus/TCP" ++ s).toList := fun s => by
    rw [String.toList_append]
    exact List.prefix_append _ _
  unfold describe at h
  split at h
  · cases h
  · split at h
    · cases h
    · split at h
      · cases h
        exact hnamed " (no device id)"
      · split at h <;> cases h
        · rw [String.append_assoc, String.append_assoc]
          exact hnamed _
        · exact hnamed _

theorem buildDeviceIdRequest_ok {unit tid : Nat} (hunit : unit < 256) (htid : tid < 65536) :
    buildDeviceIdRequest unit tid = .ok (be16 tid ++
      [0x00, 0x00, 0x00, 0x05, UInt8.ofNat unit, 0x2B, 0x0E, 0x01, 0x00]) := by
  unfold buildDeviceIdRequest
  rw [packH_ok htid, ok_bind, packH_ok (by decide), ok_bind, packH_ok (by decide), ok_bind, packB,
    if_pos hunit, ok_bind]
  rfl

/-! ## What a read function code means -/

/-- `p` begins with an MBAP header and a PDU of function code `fc` (its exception flag stripped). -/
def Message (p : Bytes) (fc : Nat) : Prop :=
  ∃ t1 t0 l1 l0 unit code rest,
    p = t1 :: t0 :: 0 :: 0 :: l1 :: l0 :: unit :: code :: rest ∧
      1 ≤ u16 l1 l0 ∧ u16 l1 l0 ≤ 255 ∧ fc = code.toNat &&& 0x7F

theorem exists_cons8 {p : Bytes} (h : 8 ≤ p.length) :
    ∃ a b c d e f g i rest, p = a :: b :: c :: d :: e :: f :: g :: i :: rest := by
  match p, h with
  | a :: b :: c :: d :: e :: f :: g :: i :: rest, _ => exact ⟨a, b, c, d, e, f, g, i, rest, rfl⟩

/-- The reading of a payload of at least eight bytes, header field by header field. -/
theorem readFunctionCode_cons (t1 t0 p1 p0 l1 l0 unit code : UInt8) (rest : Bytes) :
    readFunctionCode (t1 :: t0 :: p1 :: p0 :: l1 :: l0 :: unit :: code :: rest) =
      .ok (if u16 p1 p0 = 0 ∧ 1 ≤ u16 l1 l0 ∧ u16 l1 l0 ≤ 255 then some (code.toNat &&& 0x7F)
        else none) := by
  unfold readFunctionCode
  rw [if_neg (by simp [mbapSize])]
  simp only [slice, List.take_succ_cons, List.take_zero, List.drop_succ_cons, List.drop_zero,
    unpackH, ok_bind, mbapSize, index_succ, index_zero]
  by_cases hp : u16 p1 p0 = 0
  · by_cases hl : 1 ≤ u16 l1 l0 ∧ u16 l1 l0 ≤ 255
    · simp [hp, hl]
    · simp [hp, hl]
  · simp [hp]

theorem u16_eq_zero {a b : UInt8} (h : u16 a b = 0) : a = 0 ∧ b = 0 := by
  unfold u16 at h
  exact ⟨UInt8.toNat_inj.mp (by simp; omega), UInt8.toNat_inj.mp (by simp; omega)⟩

theorem readFunctionCode_yields (p : Bytes) :
    Yields (readFunctionCode p) fun r => ∀ fc, r = some fc → Message p fc := by
  by_cases h : 8 ≤ p.length
  · obtain ⟨t1, t0, p1, p0, l1, l0, unit, code, rest, rfl⟩ := exists_cons8 h
    refine ⟨_, readFunctionCode_cons .., fun fc hfc => ?_⟩
    split at hfc
    · rename_i hg
      obtain ⟨rfl, rfl⟩ := u16_eq_zero hg.1
      cases hfc
      exact ⟨t1, t0, l1, l0, unit, code, rest, rfl, hg.2.1, hg.2.2, rfl⟩
    · cases hfc
  · refine ⟨none, ?_, by rintro fc ⟨⟩⟩
    unfold readFunctionCode
    rw [if_pos (by simp only [mbapSize]; omega)]

/-! ## What a parsed response means -/

theorem objectLoop_yields (body : Bytes) (room offset : Nat) (fields : List (Nat × String)) :
    Yields (objectLoop body room offset fields) fun _ => True := by
  induction room generalizing offset fields with
  | zero => exact yields_ok trivial
  | succ room ih =>
    unfold objectLoop
    split
    · exact yields_ok trivial
    · refine (index_yields (by omega)).bind fun objId _ => ?_
      exact (index_yields (by omega)).bind fun objLen _ => ih _ _

theorem parseDeviceIdObjects_yields (body : Bytes) :
    Yields (parseDeviceIdObjects body) fun _ => True := by
  unfold parseDeviceIdObjects
  split
  · exact yields_ok trivial
  · refine (index_yields (by omega)).bind fun numObjects _ => ?_
    exact (objectLoop_yields _ _ _ _).bind fun fields _ => yields_ok trivial

/-- A response is accepted on its length and protocol id alone. -/
theorem parseResponse_cons (t1 t0 p1 p0 l1 l0 unit code : UInt8) (rest : Bytes) (tid : Nat) :
    Yields (parseResponse (t1 :: t0 :: p1 :: p0 :: l1 :: l0 :: unit :: code :: rest) tid)
      fun r => r.isSome = true ↔ u16 p1 p0 = 0 := by
  unfold parseResponse
  rw [if_neg (by simp)]
  simp only [slice, List.take_succ_cons, List.take_zero, List.drop_zero, unpackHHHB, ok_bind]
  by_cases hp : u16 p1 p0 = 0
  · rw [if_neg (by simp [hp])]
    refine (index_yields (by simp)).bind fun fc _ => ?_
    split
    · exact yields_ok (by simp [hp])
    · split
      · exact yields_ok (by simp [hp])
      · exact (parseDeviceIdObjects_yields _).bind fun info _ => yields_ok (by simp [hp])
  · rw [if_pos hp]
    exact yields_ok (by simp [hp])

theorem parseResponse_yields (d : Bytes) (tid : Nat) : Yields (parseResponse d tid) fun _ => True := by
  by_cases h : 8 ≤ d.length
  · obtain ⟨t1, t0, p1, p0, l1, l0, unit, code, rest, rfl⟩ := exists_cons8 h
    obtain ⟨r, hr, -⟩ := parseResponse_cons t1 t0 p1 p0 l1 l0 unit code rest tid
    exact ⟨r, hr, trivial⟩
  · exact ⟨none, if_pos (by omega), trivial⟩

theorem parseResponse_short {d : Bytes} (h : d.length < 8) (tid : Nat) :
    parseResponse d tid = .ok none := if_pos h

theorem readFunctionCode_short {d : Bytes} (h : d.length < 8) : readFunctionCode d = .ok none :=
  if_pos h

end Pyscan.Modbus
