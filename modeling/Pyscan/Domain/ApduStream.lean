import Pyscan.Domain.Iec104
import Pyscan.Domain.OtTraffic
import Pyscan.Lib.Framed

/-!
# Streams of APDUs

What `parseApdus` makes of APDUs laid end to end. It undoes the encoders of
`OtTraffic`, whatever stands behind the messages (`parseApdus_sent`). Of a
stream cut anywhere it returns the whole APDUs **exactly when** the cut does not
leave six bytes or more of the torn one (`truncated_dropped`): of those it
reports what is there.
-/

namespace Pyscan.Iec104

open Py Framed

/-! ## Frames, and what stands behind them -/

theorem apduLoop_append (fs : List Frame) (tail : Bytes) (room : Nat) :
    apduLoop (framesBytes fs ++ tail) room 0 =
      ((fs.map Frame.decoded).take room ++ ·) <$> apduLoop tail (room - fs.length) 0 := by
  induction fs generalizing room with
  | nil =>
    rw [List.map_nil, List.take_nil]
    exact (id_map _).symm
  | cons f fs ih =>
    cases room with
    | zero =>
      rw [Nat.zero_sub]
      rfl
    | succ room =>
      rw [framesBytes_cons, List.append_assoc, apduLoop_cons, ih, List.length_cons,
        Nat.add_sub_add_right]
      cases apduLoop tail (room - fs.length) 0 <;> rfl

/-- The loop stops at the first byte that is not the start octet. -/
theorem apduLoop_other {tail : Bytes} (h : tail.head? ≠ some start) (room : Nat) :
    apduLoop tail room 0 = .ok [] := by
  cases room with
  | zero => rfl
  | succ room =>
    unfold apduLoop
    split
    · rename_i hlt
      cases tail with
      | nil => cases hlt
      | cons b tail =>
        have hb : b ≠ start := fun hb => h (congrArg some hb)
        rw [index_zero, ok_bind, if_pos hb]
    · rfl

/-- Frames with something else behind them. -/
theorem parseApdus_append (fs : List Frame) {tail : Bytes} (h : tail.head? ≠ some start)
    (limit : Nat) :
    parseApdus (framesBytes fs ++ tail) limit = .ok ((fs.map Frame.decoded).take limit) := by
  rw [parseApdus, apduLoop_append, apduLoop_other h]
  exact congrArg Except.ok (List.append_nil _)

/-! ## The encoders' messages -/

/-- A message of the encoders: an I-format APDU, a U-format one, or an S-format acknowledgement. -/
inductive Sent where
  | i (typeId cause : UInt8) (commonAddress : UInt16) (ioa : Fin (2 ^ 24)) (payload : Bytes)
      (short : payload.length ≤ 242)
  | u (control : UInt8) (unnumbered : control.toNat % 4 = 3)
  | s (control c2 c3 c4 : UInt8) (supervisory : control.toNat % 4 = 1)

namespace Sent

def encode : Sent → Result Bytes
  | i typeId cause commonAddress ioa payload _ =>
    OtTraffic.iecIFrame typeId.toNat cause.toNat commonAddress.toNat ioa payload
  | u control _ => OtTraffic.iecUFrame control.toNat
  | s control c2 c3 c4 _ => .ok [0x68, 0x04, control, c2, c3, c4]

/-- What a parser should report for it. -/
def apdu : Sent → Apdu
  | i typeId cause commonAddress _ _ _ => {
      format := .I
      control := 0
      typeId := some typeId.toNat
      cause := some cause.toNat
      commonAddress := some commonAddress.toNat }
  | u control _ => { format := .U, control := control.toNat }
  | s control _ _ _ _ => { format := .S, control := control.toNat }

/-- The body the encoder puts behind the start and length octets of an I-format APDU. -/
def infoBody (typeId cause : UInt8) (commonAddress : UInt16) (ioa : Fin (2 ^ 24)) (payload : Bytes) :
    Bytes :=
  [0, 0, 0, 0] ++ ([typeId, 0x01, cause, 0] ++ (be16 commonAddress.toNat).reverse ++
    ((be32 ioa).reverse.take 3 ++ payload))

theorem iecIFrame_ok (typeId cause : UInt8) (commonAddress : UInt16) (ioa : Fin (2 ^ 24))
    {payload : Bytes} (h : payload.length ≤ 242) :
    OtTraffic.iecIFrame typeId.toNat cause.toNat commonAddress.toNat ioa payload =
      .ok (start :: UInt8.ofNat (infoBody typeId cause commonAddress ioa payload).length ::
        infoBody typeId cause commonAddress ioa payload) := by
  have ht : packB typeId.toNat = .ok [typeId] := by
    rw [packB, if_pos typeId.toNat_lt, UInt8.ofNat_toNat]
  have hcause : packHle cause.toNat = .ok [cause, 0] := by
    have hlt := cause.toNat_lt
    rw [packHle, if_pos (by omega), be16, Nat.div_eq_of_lt hlt, Nat.mod_eq_of_lt hlt,
      UInt8.ofNat_toNat]
    rfl
  have hca : packHle commonAddress.toNat = .ok (be16 commonAddress.toNat).reverse :=
    if_pos commonAddress.toNat_lt
  have hioa : packIle ioa = .ok (be32 ioa).reverse := if_pos (by omega)
  have hlen : (infoBody typeId cause commonAddress ioa payload).length = 13 + payload.length := by
    simp [infoBody, be16, be32]
    omega
  have hbody : [0x00, 0x00, 0x00, 0x00] ++ ([typeId] ++ [0x01] ++ [cause, 0] ++
      (be16 commonAddress.toNat).reverse ++ (be32 ioa).reverse.take 3 ++ payload) =
      infoBody typeId cause commonAddress ioa payload := by
    simp [infoBody]
  simp only [OtTraffic.iecIFrame, ht, hcause, hca, hioa, ok_bind, hbody]
  rw [byte, if_pos (by omega), ok_bind]
  rfl

/-- **Every message is a frame**, which decodes to what a parser should report. -/
theorem exists_frame (m : Sent) : ∃ f : Frame, m.encode = .ok f.bytes ∧ f.decoded = m.apdu := by
  cases m with
  | i typeId cause commonAddress ioa payload short =>
    have hlen : (infoBody typeId cause commonAddress ioa payload).length = 13 + payload.length := by
      simp [infoBody, be16, be32]
      omega
    refine ⟨⟨infoBody typeId cause commonAddress ioa payload, by omega, by omega⟩,
      iecIFrame_ok typeId cause commonAddress ioa short, ?_⟩
    have haddress : commonAddress.toNat % 256 + 256 * (commonAddress.toNat / 256 % 256) =
        commonAddress.toNat := by
      have hlt := commonAddress.toNat_lt
      omega
    simp [Frame.decoded, Frame.format, Frame.control, Frame.address, Frame.octet, infoBody, be16,
      haddress, apdu]
  | u control unnumbered =>
    refine ⟨⟨[control, 0, 0, 0], by simp, by simp⟩, ?_, ?_⟩
    · rw [encode, OtTraffic.iecUFrame, byte, if_pos control.toNat_lt, UInt8.ofNat_toNat]
      rfl
    · have hodd : control.toNat % 2 ≠ 0 := by omega
      simp [Frame.decoded, Frame.format, Frame.control, Frame.octet, unnumbered, hodd, apdu]
  | s control c2 c3 c4 supervisory =>
    refine ⟨⟨[control, c2, c3, c4], by simp, by simp⟩, rfl, ?_⟩
    have hodd : control.toNat % 2 ≠ 0 := by omega
    simp [Frame.decoded, Frame.format, Frame.control, Frame.octet, supervisory, hodd, apdu]

theorem exists_frames (ms : List Sent) : ∃ fs : List Frame,
    ms.mapM encode = .ok (fs.map Frame.bytes) ∧ fs.map Frame.decoded = ms.map apdu := by
  induction ms with
  | nil => exact ⟨[], rfl, rfl⟩
  | cons m ms ih =>
    obtain ⟨f, hf, hdecoded⟩ := m.exists_frame
    obtain ⟨fs, hfs, hrest⟩ := ih
    refine ⟨f :: fs, ?_, by rw [List.map_cons, List.map_cons, hdecoded, hrest]⟩
    rw [List.mapM_cons, hf, ok_bind, hfs]
    rfl

end Sent

/-- **`parseApdus` undoes concatenation up to its limit**: of messages laid end to end, with nothing
behind them or something that is no APDU, it returns the first ones, each as it was sent. -/
theorem parseApdus_sent (ms : List Sent) (limit : Nat) {tail : Bytes}
    (h : tail.head? ≠ some start) :
    ∃ parts, ms.mapM Sent.encode = .ok parts ∧
      parseApdus (parts.flatten ++ tail) limit = .ok ((ms.map Sent.apdu).take limit) := by
  obtain ⟨fs, hfs, hdecoded⟩ := Sent.exists_frames ms
  refine ⟨fs.map Frame.bytes, hfs, ?_⟩
  rw [← hdecoded, ← parseApdus_append fs h limit, framesBytes, List.flatMap]

/-- A test frame, a single command and an acknowledgement, and room for two of them. -/
theorem parseApdus_sent_two :
    ∃ parts, [Sent.u 0x43 (by decide), .i 45 6 1 1 [0x01] (by decide),
        .s 0x01 0 2 0 (by decide)].mapM Sent.encode = .ok parts ∧
      parseApdus (parts.flatten ++ [0xFF]) 2 =
        .ok [{ format := .U, control := 0x43 },
          { format := .I, control := 0, typeId := some 45, cause := some 6,
            commonAddress := some 1 }] :=
  parseApdus_sent _ 2 (by decide)

/-! ## Streams cut short -/

/-- APDUs end to end, for a reader. -/
def apdus : Grammar Unit UInt8 Frame Apdu where
  bytes _ f := f.bytes
  next _ _ := ()
  out _ f := [f.decoded]

theorem stream_apdus (k : Unit) (fs : List Frame) : apdus.stream k fs = framesBytes fs := by
  induction fs with
  | nil => rfl
  | cons f fs ih => rw [Grammar.stream, show apdus.next k f = k from rfl, ih]; rfl

/-- Some APDU is cut behind its sixth byte. -/
def CutsBody (fs : List Frame) (n : Nat) : Prop :=
  ∃ before f after, fs = before ++ f :: after ∧ (framesBytes before).length + apciSize ≤ n ∧
    n < (framesBytes before).length + f.bytes.length

/-- A turn of the loop at a start octet. -/
theorem apduLoop_start (l : UInt8) (tail : Bytes) (room : Nat) :
    apduLoop (start :: l :: tail) (room + 1) 0 =
      if ((start :: l :: tail).take (2 + l.toNat)).length < apciSize then .ok []
      else (do
        let head ← parseApdu ((start :: l :: tail).take (2 + l.toNat))
        let rest ← apduLoop ((start :: l :: tail).drop (2 + l.toNat)) room 0
        .ok (head :: rest)) := by
  have hslice : slice (start :: l :: tail) 0 (0 + 2 + l.toNat) =
      (start :: l :: tail).take (2 + l.toNat) := by
    rw [slice, List.drop_zero, Nat.zero_add]
  rw [apduLoop, if_pos (by simp), index_zero, ok_bind, if_neg (by simp), Nat.zero_add, index_succ,
    index_zero, ok_bind]
  simp only [Nat.zero_add] at hslice ⊢
  rw [hslice, apduLoop_drop _ room (2 + l.toNat)]

/-- **The loop on a torn APDU**: below six bytes it stops, from six bytes on it reports one. -/
theorem apduLoop_torn (f : Frame) {m : Nat} (h : m < f.bytes.length) (room : Nat) :
    (m < apciSize → apduLoop (f.bytes.take m) (room + 1) 0 = .ok []) ∧
      (apciSize ≤ m → ∃ a, apduLoop (f.bytes.take m) (room + 1) 0 = .ok [a]) := by
  have h255 := f.le_octet
  have hl : (UInt8.ofNat f.body.length).toNat = f.body.length :=
    UInt8.toNat_ofNat_of_lt' (Nat.lt_succ_of_le h255)
  rw [f.length_bytes] at h
  by_cases h2 : m < 2
  · refine ⟨fun _ => ?_, fun hm => absurd hm (by simp only [apciSize]; omega)⟩
    rw [apduLoop, if_neg (by rw [List.length_take]; omega)]
  · obtain ⟨k, rfl⟩ := Nat.exists_eq_add_of_le' (Nat.le_of_not_lt h2)
    have htake : f.bytes.take (k + 2) = start :: UInt8.ofNat f.body.length :: f.body.take k := rfl
    have hlen : (f.bytes.take (k + 2)).length = k + 2 := by
      rw [List.length_take, f.length_bytes]
      omega
    have hall : (f.bytes.take (k + 2)).take (2 + f.body.length) = f.bytes.take (k + 2) :=
      List.take_of_length_le (by omega)
    have hrest : (f.bytes.take (k + 2)).drop (2 + f.body.length) = [] :=
      List.drop_eq_nil_of_le (by omega)
    have hturn := apduLoop_start (UInt8.ofNat f.body.length) (f.body.take k) room
    rw [← htake, hl, hall, hrest, hlen] at hturn
    rw [hturn]
    refine ⟨fun hm => if_pos hm, fun hm => ?_⟩
    have hsix : apciSize ≤ (f.bytes.take (k + 2)).length := by omega
    obtain ⟨a, ha, -⟩ := parseApdu_yields hsix
    refine ⟨a, ?_⟩
    rw [if_neg (by omega), ha, ok_bind, apduLoop_other (by simp), ok_bind]

section Cut

variable {before after : List Frame} {f : Frame} {limit m : Nat}

theorem parseApdus_torn (hroom : (before ++ f :: after).length < limit) (hm : m < f.bytes.length) :
    parseApdus ((framesBytes (before ++ f :: after)).take ((framesBytes before).length + m)) limit =
      (before.map Frame.decoded ++ ·) <$>
        apduLoop (f.bytes.take m) (limit - before.length - 1 + 1) 0 := by
  rw [List.length_append, List.length_cons] at hroom
  have hleft : limit - before.length - 1 + 1 = limit - before.length := by omega
  have htake := Grammar.take_stream (G := apdus) () before f after hm
  rw [stream_apdus, stream_apdus] at htake
  rw [htake, parseApdus, apduLoop_append, hleft, List.take_of_length_le (by simp; omega)]
  rfl

theorem whole_torn (hm : m < f.bytes.length) :
    apdus.whole () ((framesBytes before).length + m) (before ++ f :: after) = before := by
  rw [← stream_apdus ()]
  exact Grammar.whole_torn () before f after hm

/-- An APDU cut behind its sixth byte is reported behind the whole ones. -/
theorem CutsBody.reported {fs : List Frame} {n : Nat} (h : CutsBody fs n)
    (hroom : fs.length < limit) :
    ∃ a, parseApdus ((framesBytes fs).take n) limit =
      .ok ((apdus.whole () n fs).map Frame.decoded ++ [a]) := by
  obtain ⟨before, f, after, rfl, hlo, hhi⟩ := h
  obtain ⟨m, rfl⟩ := Nat.exists_eq_add_of_le (Nat.le_of_add_right_le hlo)
  have hm : m < f.bytes.length := by omega
  obtain ⟨a, ha⟩ := (apduLoop_torn f hm (limit - before.length - 1)).2 (by omega)
  refine ⟨a, ?_⟩
  rw [parseApdus_torn hroom hm, ha, whole_torn hm]
  rfl

end Cut

/-- **A truncated APDU is dropped exactly when** the cut leaves less than six bytes of it: then the
APDUs reported are those that lie wholly within the cut. -/
theorem truncated_dropped {fs : List Frame} {limit : Nat} (h : fs.length < limit) (n : Nat) :
    parseApdus ((framesBytes fs).take n) limit = .ok ((apdus.whole () n fs).map Frame.decoded) ↔
      ¬ CutsBody fs n := by
  constructor
  · intro hclean hcut
    obtain ⟨a, ha⟩ := hcut.reported h
    rw [ha] at hclean
    simpa using Except.ok.inj hclean
  · intro hcut
    rcases apdus.cut_cases () n fs with ⟨hlen, hall⟩ | ⟨before, f, after, m, rfl, hall, hn, hm⟩
    · rw [hall, ← stream_apdus (), List.take_of_length_le hlen, stream_apdus, parseApdus_frames,
        List.take_of_length_le (by simp; omega)]
    · rw [stream_apdus] at hn
      have hshort : m < apciSize := by
        by_contra hlong
        exact hcut ⟨before, f, after, rfl, by omega, hn ▸ Nat.add_lt_add_left hm _⟩
      rw [hall, hn, parseApdus_torn h hm, (apduLoop_torn f hm _).1 hshort]
      exact congrArg Except.ok (List.append_nil _)

/-- A single command of sixteen bytes. -/
def command : Frame := ⟨[0, 0, 0, 0, 45, 1, 6, 0, 1, 0, 2, 0, 0, 1], by decide, by decide⟩

theorem truncated_dropped_five :
    parseApdus ((framesBytes [command]).take 5) 64 = .ok [] ↔ ¬ CutsBody [command] 5 :=
  truncated_dropped (by decide) 5

/-- Its last byte missing, it is reported all the same. -/
theorem truncated_reported :
    ¬ ∀ (fs : List Frame) (limit : Nat), fs.length < limit → ∀ n,
      parseApdus ((framesBytes fs).take n) limit =
        .ok ((apdus.whole () n fs).map Frame.decoded) := by
  intro hclean
  have hcut : CutsBody [command] 15 := ⟨[], command, [], rfl, by decide, by decide⟩
  have hroom : [command].length < 64 := by decide
  obtain ⟨a, ha⟩ := hcut.reported hroom
  rw [hclean [command] 64 (by decide) 15] at ha
  cases ha

end Pyscan.Iec104
