import Pyscan.Py.Text

/-!
# The IEC 60870-5-104 codec

`parseResponse` identifies an endpoint by its answer to a test frame.
`parseApdus` splits a TCP payload into APDUs. `Frame` is one complete APDU of
the wire format (start octet, length octet, that many octets), and
`Frame.decoded` is what the standard says it carries. The splitting loop is
exactly "read frames while there is room" on payloads made of frames
(`apduLoop_frames`), and on any payload raises nothing and reports only type
ids that are there (`apduLoop_yields`).
-/

namespace Pyscan.Iec104

open Py

def start : UInt8 := 0x68
abbrev apciSize : Nat := 6

def uFrames : List (Nat × String) := [
  (0x07, "STARTDT act"), (0x0B, "STARTDT con"),
  (0x13, "STOPDT act"), (0x23, "STOPDT con"),
  (0x43, "TESTFR act"), (0x83, "TESTFR con")]

inductive Format where
  | I
  | S
  | U
  deriving DecidableEq, Repr

def Format.value : Format → String
  | .I => "I"
  | .S => "S"
  | .U => "U"

/-- What an ASDU type id does. -/
inductive TypeClass where
  | monitor
  | command
  | system
  deriving DecidableEq, Repr

def typeIds : List (Nat × String × TypeClass) := [
  (1, "M_SP_NA single point", .monitor),
  (3, "M_DP_NA double point", .monitor),
  (9, "M_ME_NA measured normalised", .monitor),
  (13, "M_ME_NC measured short float", .monitor),
  (30, "M_SP_TB single point w/ time", .monitor),
  (45, "C_SC_NA single command", .command),
  (46, "C_DC_NA double command", .command),
  (47, "C_RC_NA regulating step command", .command),
  (48, "C_SE_NA setpoint normalised", .command),
  (49, "C_SE_NB setpoint scaled", .command),
  (50, "C_SE_NC setpoint short float", .command),
  (51, "C_BO_NA bitstring command", .command),
  (58, "C_SC_TA single command w/ time", .command),
  (59, "C_DC_TA double command w/ time", .command),
  (100, "C_IC_NA interrogation", .system),
  (101, "C_CI_NA counter interrogation", .system),
  (102, "C_RD_NA read command", .system),
  (103, "C_CS_NA clock sync", .system),
  (105, "C_RP_NA reset process", .command),
  (107, "C_TS_TA test command w/ time", .system)]

structure Apdu where
  format : Format
  control : Nat
  typeId : Option Nat := none
  cause : Option Nat := none
  commonAddress : Option Nat := none
  deriving DecidableEq, Repr

def classifyTypeId (typeId : Nat) : TypeClass :=
  match typeIds.lookup typeId with
  | some entry => entry.2
  | none => if typeId < 45 then .monitor else .command

def typeName (typeId : Nat) : String :=
  match typeIds.lookup typeId with
  | some entry => entry.1
  | none => "TypeID " ++ toString typeId

def Apdu.name (a : Apdu) : String :=
  if a.format = .U then (uFrames.lookup a.control).getD "U-frame"
  else match a.typeId with
    | some t => typeName t
    | none => a.format.value ++ "-frame"

structure Iec104Info where
  isIec104 : Bool
  frame : Option String := none
  deriving DecidableEq, Repr

/-- TESTFR act: the liveness probe. -/
def buildTestfrAct : Bytes := [start, 0x04, 0x43, 0x00, 0x00, 0x00]

def parseResponse (data : Bytes) : Result (Option Iec104Info) :=
  if data.length < apciSize then .ok none
  else do
    if (← index data 0) ≠ start then .ok none
    else do
      let control1 := (← index data 2).toNat
      if control1 &&& 0x03 ≠ 0x03 then .ok none
      else .ok (some { isIec104 := true, frame := some ((uFrames.lookup control1).getD "U-frame") })

def describe (info : Option Iec104Info) : Option String :=
  match info with
  | none => none
  | some info =>
    if ¬ info.isIec104 then none
    else match info.frame.filter (· ≠ "") with
      | some frame => some ("IEC 60870-5-104 (" ++ frame ++ ")")
      | none => some "IEC 60870-5-104"

theorem parseResponse_yields (d : Bytes) : Yields (parseResponse d) fun _ => True := by
  unfold parseResponse
  split
  · exact yields_ok trivial
  · refine (index_yields (by simp only [apciSize] at *; omega)).bind fun first _ => ?_
    split
    · exact yields_ok trivial
    · refine (index_yields (by simp only [apciSize] at *; omega)).bind fun control _ => ?_
      dsimp only
      split
      · exact yields_ok trivial
      · exact yields_ok trivial

/-- A description names the protocol first. -/
theorem describe_names {info : Option Iec104Info} {banner : String} (h : describe info = some banner) :
    "IEC 60870-5-104".toList <+: banner.toList := by
  unfold describe at h
  split at h
  · cases h
  · split at h
    · cases h
    · split at h <;> cases h
      · have hnamed : ∀ s : String, "IEC 60870-5-104".toList <+: ("IEC 60870-5-104 (" ++ s).toList := by
          intro s
          rw [String.toList_append]
          exact (show "IEC 60870-5-104".toList <+: "IEC 60870-5-104 (".toList by decide).trans
            (List.prefix_append _ _)
        rw [String.append_assoc]
        exact hnamed _
      · exact List.prefix_rfl

/-- The conditional expression for `cause` in `_parse_i_format`. -/
def readCause (apdu : Bytes) : Result (Option Nat) :=
  if apciSize + 2 < apdu.length then do .ok (some (← index apdu (apciSize + 2)).toNat)
  else .ok none

/-- The conditional expression for `address` in `_parse_i_format`. -/
def readAddress (apdu : Bytes) : Result (Option Nat) :=
  if apciSize + 5 < apdu.length then do
    let lo ← index apdu (apciSize + 4)
    let hi ← index apdu (apciSize + 5)
    .ok (some (lo.toNat ||| (hi.toNat <<< 8)))
  else .ok none

def parseIFormat (apdu : Bytes) (control1 : Nat) : Result Apdu :=
  if apdu.length < apciSize + 1 then .ok { format := .I, control := control1 }
  else do
    let typeId ← index apdu apciSize
    let cause ← readCause apdu
    let address ← readAddress apdu
    .ok { format := .I, control := control1, typeId := some typeId.toNat, cause,
          commonAddress := address }

/-- The body of the loop: one complete APDU by the low bits of its first control octet. -/
def parseApdu (apdu : Bytes) : Result Apdu := do
  let control1 := (← index apdu 2).toNat
  if control1 &&& 0x01 = 0 then parseIFormat apdu control1
  else if control1 &&& 0x03 = 0x01 then .ok { format := .S, control := control1 }
  else .ok { format := .U, control := control1 }

/-- The `while` loop of `parse_apdus` at `offset`; `room` is `limit - len(out)`. -/
def apduLoop (data : Bytes) : (room offset : Nat) → Result (List Apdu)
  | 0, _ => .ok []
  | room + 1, offset =>
    if offset + 2 ≤ data.length then do
      if (← index data offset) ≠ start then .ok []
      else do
        let length := (← index data (offset + 1)).toNat
        let apdu := slice data offset (offset + 2 + length)
        if apdu.length < apciSize then .ok []
        else do
          let head ← parseApdu apdu
          let rest ← apduLoop data room (offset + 2 + length)
          .ok (head :: rest)
    else .ok []

/-- The default `limit` of the source's signature. -/
def defaultLimit : Nat := 64

def parseApdus (data : Bytes) (limit : Nat) : Result (List Apdu) := apduLoop data limit 0

/-! ## Complete APDUs -/

/-- A complete APDU: `0x68`, a length octet of at least 4, and that many octets. -/
structure Frame where
  body : Bytes
  four_le : 4 ≤ body.length
  le_octet : body.length ≤ 255

namespace Frame

def bytes (f : Frame) : Bytes := start :: UInt8.ofNat f.body.length :: f.body

/-- The octet `i` of the body, the first control octet being octet 0. -/
def octet (f : Frame) (i : Nat) : Option Nat := (f.body[i]?).map UInt8.toNat

def control (f : Frame) : Nat := (f.octet 0).getD 0

def format (f : Frame) : Format :=
  if f.control % 2 = 0 then .I else if f.control % 4 = 1 then .S else .U

/-- The ASDU's common address, low octet first. -/
def address (f : Frame) : Option Nat :=
  (f.octet 9).bind fun hi => (f.octet 8).map fun lo => lo + 256 * hi

/-- The ASDU follows the four control octets: type id, qualifier, cause (2), address (2). -/
def decoded (f : Frame) : Apdu :=
  match f.format with
  | .I => {
      format := .I
      control := f.control
      typeId := f.octet 4
      cause := f.octet 6
      commonAddress := f.address }
  | fmt => { format := fmt, control := f.control }

@[simp] theorem length_bytes (f : Frame) : f.bytes.length = 2 + f.body.length := by
  simp [bytes]
  omega

theorem octet_eq (f : Frame) {i : Nat} (h : i < f.body.length) :
    f.octet i = some (f.body[i]).toNat := by
  rw [octet, List.getElem?_eq_getElem h, Option.map_some]

theorem octet_none (f : Frame) {i : Nat} (h : f.body.length ≤ i) : f.octet i = none := by
  rw [octet, List.getElem?_eq_none h, Option.map_none]

theorem index_bytes (f : Frame) {i : Nat} (h : i < f.body.length) :
    index f.bytes (2 + i) = .ok f.body[i] := by
  rw [show f.bytes = [start, UInt8.ofNat f.body.length] ++ f.body from rfl,
    index_append (n := 2) rfl, index_ok h]

theorem control_eq (f : Frame) (h : 0 < f.body.length) : f.control = f.body[0].toNat := by
  rw [control, octet_eq f h, Option.getD_some]

/-- Low and high octets of an address, put together. -/
theorem or_shiftLeft (lo hi : UInt8) : lo.toNat ||| (hi.toNat <<< 8) = lo.toNat + 256 * hi.toNat := by
  rw [Nat.or_comm, ← Nat.shiftLeft_add_eq_or_of_lt (i := 8) lo.toNat_lt, Nat.shiftLeft_eq]
  omega

theorem readCause_bytes (f : Frame) : readCause f.bytes = .ok (f.octet 6) := by
  unfold readCause
  by_cases h : 6 < f.body.length
  · rw [if_pos (by simp [apciSize]; omega), index_bytes f (i := 6) h, octet_eq f h]
    rfl
  · rw [if_neg (by simp [apciSize]; omega), octet_none f (by omega)]

theorem readAddress_bytes (f : Frame) : readAddress f.bytes = .ok f.address := by
  unfold readAddress address
  by_cases h : 9 < f.body.length
  · rw [if_pos (by simp [apciSize]; omega), index_bytes f (i := 8) (by omega), index_bytes f (i := 9) h,
      octet_eq f h, octet_eq f (i := 8) (by omega), ok_bind, ok_bind, or_shiftLeft]
    rfl
  · rw [if_neg (by simp [apciSize]; omega), octet_none f (i := 9) (by omega)]
    rfl

theorem parseIFormat_bytes (f : Frame) :
    parseIFormat f.bytes f.control = .ok {
      format := .I
      control := f.control
      typeId := f.octet 4
      cause := f.octet 6
      commonAddress := f.address } := by
  have h4 := f.four_le
  unfold parseIFormat
  by_cases h5 : f.body.length = 4
  · rw [if_pos (by simp [apciSize]; omega), address, octet_none f (by omega), octet_none f (by omega),
      octet_none f (i := 9) (by omega)]
    rfl
  · rw [if_neg (by simp [apciSize]; omega), index_bytes f (i := 4) (by omega), ok_bind, readCause_bytes,
      ok_bind, readAddress_bytes, ok_bind, octet_eq f (i := 4) (by omega)]

theorem parseApdu_bytes (f : Frame) : parseApdu f.bytes = .ok f.decoded := by
  have h4 := f.four_le
  unfold parseApdu
  rw [show (2 : Nat) = 2 + 0 from rfl, index_bytes f (by omega), ok_bind]
  simp only [← control_eq f (by omega), show f.control &&& 1 = f.control % 2 from Nat.and_two_pow_sub_one_eq_mod _ 1,
    show f.control &&& 3 = f.control % 4 from Nat.and_two_pow_sub_one_eq_mod _ 2]
  unfold decoded format
  by_cases hI : f.control % 2 = 0
  · rw [if_pos hI, if_pos hI, parseIFormat_bytes f]
  · by_cases hS : f.control % 4 = 1
    · rw [if_neg hI, if_pos hS, if_neg hI, if_pos hS]
    · rw [if_neg hI, if_neg hS, if_neg hI, if_neg hS]

end Frame

/-! ## The splitting loop reads frames -/

/-- The loop at `offset` is the loop at the start of what is left. -/
theorem apduLoop_drop (data : Bytes) (room offset : Nat) :
    apduLoop data room offset = apduLoop (data.drop offset) room 0 := by
  induction room generalizing data offset with
  | zero => rfl
  | succ room ih =>
    unfold apduLoop
    by_cases hlen : offset + 2 ≤ data.length
    · have hidx : ∀ i, index data (offset + i) = index (data.drop offset) i := fun i => by
        simp [index]
      have hslice : ∀ n, slice data offset (offset + 2 + n) =
          slice (data.drop offset) 0 (0 + 2 + n) := fun n => by
        simp only [slice, List.drop_zero, Nat.zero_add]
        rw [List.take_drop, Nat.add_assoc]
      rw [if_pos hlen, if_pos (by simp; omega), ← Nat.add_zero offset, hidx 0]
      simp only [Nat.add_zero, Nat.zero_add, hidx 1]
      congr 1
      funext b
      split
      · rfl
      congr 1
      funext l
      rw [hslice l.toNat, Nat.zero_add]
      split
      · rfl
      congr 1
      funext head
      rw [ih data (offset + 2 + l.toNat), ih (data.drop offset) (2 + l.toNat), List.drop_drop,
        Nat.add_assoc]
    · rw [if_neg hlen, if_neg (by simp; omega)]

/-- One turn of the loop on a payload that starts with a frame. -/
theorem apduLoop_cons (f : Frame) (rest : Bytes) (room : Nat) :
    apduLoop (f.bytes ++ rest) (room + 1) 0 = (f.decoded :: ·) <$> apduLoop rest room 0 := by
  have h4 := f.four_le
  have h255 := f.le_octet
  have hl : (UInt8.ofNat f.body.length).toNat = f.body.length :=
    UInt8.toNat_ofNat_of_lt' (Nat.lt_succ_of_le h255)
  have hs : slice (f.bytes ++ rest) 0 (0 + 2 + f.body.length) = f.bytes := by
    have := slice_append (p := []) (s := f.bytes) (t := rest) (i := 0) (j := 2 + f.body.length) rfl
      (by simp)
    simpa using this
  rw [apduLoop, if_pos (by simp; omega)]
  rw [show index (f.bytes ++ rest) 0 = .ok start from rfl, ok_bind, if_neg (by simp),
    show index (f.bytes ++ rest) (0 + 1) = .ok (UInt8.ofNat f.body.length) from rfl, ok_bind]
  simp only [hl, hs]
  rw [if_neg (by simp [apciSize]; omega), Frame.parseApdu_bytes, ok_bind, apduLoop_drop,
    drop_append (by simp)]
  cases apduLoop rest room 0 <;> rfl

/-- Frames laid end to end. -/
def framesBytes (fs : List Frame) : Bytes := fs.flatMap Frame.bytes

theorem framesBytes_cons (f : Frame) (fs : List Frame) :
    framesBytes (f :: fs) = f.bytes ++ framesBytes fs := rfl

/-- **The loop on frames**: it reads them all, in order, up to its limit. -/
theorem apduLoop_frames (fs : List Frame) (room : Nat) :
    apduLoop (framesBytes fs) room 0 = .ok ((fs.map Frame.decoded).take room) := by
  induction fs generalizing room with
  | nil =>
    cases room with
    | zero => rfl
    | succ room => rw [apduLoop, if_neg (by simp [framesBytes])]; rfl
  | cons f fs ih =>
    cases room with
    | zero => rfl
    | succ room => rw [framesBytes_cons, apduLoop_cons, ih room]; rfl

theorem parseApdus_frames (fs : List Frame) (limit : Nat) :
    parseApdus (framesBytes fs) limit = .ok ((fs.map Frame.decoded).take limit) :=
  apduLoop_frames fs limit

/-! ## What a read type id means, on any payload -/

/-- After some complete frames, `p` carries an I-format APDU of type id `t`. -/
def Message (p : Bytes) (t : Nat) : Prop :=
  ∃ (fs : List Frame) (l c1 c2 c3 c4 ty : UInt8) (tail : Bytes),
    p = framesBytes fs ++ start :: l :: c1 :: c2 :: c3 :: c4 :: ty :: tail ∧
      5 ≤ l.toNat ∧ c1.toNat % 2 = 0 ∧ t = ty.toNat

theorem Message.cons {p : Bytes} {t : Nat} (f : Frame) (h : Message p t) : Message (f.bytes ++ p) t := by
  obtain ⟨fs, l, c1, c2, c3, c4, ty, tail, rfl, h1, h2, h3⟩ := h
  refine ⟨f :: fs, l, c1, c2, c3, c4, ty, tail, ?_, h1, h2, h3⟩
  rw [framesBytes_cons, List.append_assoc]

theorem readCause_yields (apdu : Bytes) : Yields (readCause apdu) fun _ => True := by
  unfold readCause
  split
  · exact (index_yields ‹_›).bind fun b _ => yields_ok trivial
  · exact yields_ok trivial

theorem readAddress_yields (apdu : Bytes) : Yields (readAddress apdu) fun _ => True := by
  unfold readAddress
  split
  · refine (index_yields (by omega)).bind fun lo _ => ?_
    exact (index_yields (by omega)).bind fun hi _ => yields_ok trivial
  · exact yields_ok trivial

/-- A type id is read from octet 6, and only from an I-format APDU. -/
theorem parseApdu_yields {apdu : Bytes} (h : apciSize ≤ apdu.length) :
    Yields (parseApdu apdu) fun a => ∀ t, a.typeId = some t →
      (∃ c, apdu[2]? = some c ∧ c.toNat % 2 = 0) ∧ ∃ ty, apdu[6]? = some ty ∧ t = ty.toNat := by
  have h6 : 6 ≤ apdu.length := h
  unfold parseApdu
  refine (index_yields (by omega)).bind fun c hc => ?_
  dsimp only
  split
  · rename_i hI
    have heven : c.toNat % 2 = 0 := by
      rw [← hI]
      exact (Nat.and_two_pow_sub_one_eq_mod _ 1).symm
    unfold parseIFormat
    split
    · exact yields_ok (by rintro t ⟨⟩)
    · refine (index_yields (by omega)).bind fun ty hty => ?_
      refine (readCause_yields apdu).bind fun _ _ => ?_
      refine (readAddress_yields apdu).bind fun _ _ => yields_ok ?_
      rintro t ⟨⟩
      exact ⟨⟨c, hc, heven⟩, ty, hty, rfl⟩
  · split <;> exact yields_ok (by rintro t ⟨⟩)

/-- A payload that starts with a complete APDU starts with a frame. -/
theorem exists_frame {l : UInt8} {tail : Bytes} (h4 : 4 ≤ l.toNat) (hfit : l.toNat ≤ tail.length) :
    ∃ f : Frame, start :: l :: tail = f.bytes ++ tail.drop l.toNat ∧ f.body.length = l.toNat := by
  have hlt := l.toNat_lt
  have hlen : (tail.take l.toNat).length = l.toNat := by
    rw [List.length_take]
    omega
  refine ⟨⟨tail.take l.toNat, by omega, by omega⟩, ?_, hlen⟩
  simp only [Frame.bytes, hlen, List.cons_append, List.take_append_drop, UInt8.ofNat_toNat]

/-- The head of the loop's result reads a message off the front of the payload. -/
theorem message_of_head {l : UInt8} {tail : Bytes} {t : Nat} {ty c : UInt8}
    (hc : (slice (start :: l :: tail) 0 (2 + l.toNat))[2]? = some c) (heven : c.toNat % 2 = 0)
    (hty : (slice (start :: l :: tail) 0 (2 + l.toNat))[6]? = some ty) (ht : t = ty.toNat) :
    Message (start :: l :: tail) t := by
  have h5 : 5 ≤ l.toNat := by
    by_contra hlt
    rw [List.getElem?_eq_none (by rw [length_slice]; omega)] at hty
    cases hty
  simp only [slice, List.drop_zero] at hc hty
  rw [List.getElem?_take_of_lt (by omega)] at hc hty
  rcases tail with _ | ⟨c1, _ | ⟨c2, _ | ⟨c3, _ | ⟨c4, _ | ⟨b, rest⟩⟩⟩⟩⟩
  case cons.cons.cons.cons.cons =>
    cases hc
    cases hty
    exact ⟨[], l, c, c2, c3, c4, ty, rest, rfl, h5, heven, ht⟩
  all_goals simp at hty

/-- **The loop on any payload** raises nothing, and every type id it reports is really there. -/
theorem apduLoop_yields (data : Bytes) (room : Nat) :
    Yields (apduLoop data room 0) fun out => ∀ a ∈ out, ∀ t, a.typeId = some t → Message data t := by
  induction room generalizing data with
  | zero => exact yields_ok (by rintro a ⟨⟩)
  | succ room ih =>
    unfold apduLoop
    split
    · match data with
      | b :: l :: tail =>
        rw [index_zero, ok_bind]
        split
        · exact yields_ok (by rintro a ⟨⟩)
        obtain rfl : b = start := by simpa using ‹¬ b ≠ start›
        rw [Nat.zero_add, index_succ, index_zero, ok_bind]
        simp only [Nat.zero_add]
        split
        · exact yields_ok (by rintro a ⟨⟩)
        rename_i hfull
        refine (parseApdu_yields (Nat.le_of_not_lt hfull)).bind fun head hhead => ?_
        rw [apduLoop_drop]
        refine (ih _).bind fun rest hrest => yields_ok fun a ha t hat => ?_
        rcases List.mem_cons.mp ha with rfl | ha
        · obtain ⟨⟨c, hc, heven⟩, ty, hty, ht⟩ := hhead t hat
          exact message_of_head hc heven hty ht
        · have hrest := hrest a ha t hat
          by_cases hfit : l.toNat ≤ tail.length
          · rw [length_slice_of_le (by simp; omega)] at hfull
            have h4 : 4 ≤ l.toNat := by
              simp only [apciSize] at hfull
              omega
            obtain ⟨f, e, hf⟩ := exists_frame h4 hfit
            rw [e, drop_append (by simp [hf])] at hrest
            rw [e]
            exact hrest.cons f
          · -- the declared length overruns the payload: nothing is left to read
            rw [List.drop_eq_nil_of_le (by simp; omega)] at hrest
            obtain ⟨fs, _, _, _, _, _, _, _, e, -⟩ := hrest
            cases fs <;> cases e
    · exact yields_ok (by rintro a ⟨⟩)

theorem parseApdus_yields (data : Bytes) (limit : Nat) :
    Yields (parseApdus data limit) fun out =>
      ∀ a ∈ out, ∀ t, a.typeId = some t → Message data t :=
  apduLoop_yields data limit

end Pyscan.Iec104
