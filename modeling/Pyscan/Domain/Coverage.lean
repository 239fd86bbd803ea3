import Pyscan.Domain.OtTraffic
import Pyscan.Domain.DetectorRuns

/-!
# What the rules catch

A stranger's packet to a protected device (`Intrusion`) raises one alert for
every operation its codec reads with a danger (`filter_judge`). What is caught
is therefore what the codec reads: the one message of a frame built by the
encoders, the first messages of an IEC-104 segment, the first message of a
Modbus or S7 segment.
-/

namespace Pyscan.OtDetect

open Py

/-- The severity of a danger that comes from a stranger. -/
def Danger.hostile : Danger → Severity
  | .change => .critical
  | .survey => .medium
  | .silence => .medium
  | .presence => .high

theorem Danger.verdict_stranger (danger : Danger) : danger.verdict .stranger = some danger.hostile := by
  cases danger <;> rfl

/-- How an operation is reported, when it is of this danger. -/
def Operation.reportOf (danger : Danger) (op : Operation) : Option Report :=
  op.finding.bind fun f => if f.1 = danger then some f.2 else none

namespace Detector

/-- A stranger's packet to port `dport` of a protected device. -/
structure Intrusion (b : Baseline) (pkt : Packet) (dport : Nat) : Prop where
  tcp : pkt.protocol = "TCP"
  port : pkt.dport = some dport
  dst : ∃ host, pkt.dst = some host ∧ (b.plcs = ∅ ∨ host ∈ b.plcs)
  src : ∃ s, pkt.src = some s ∧ b.hmi ≠ ∅ ∧ s ∉ b.hmi

section Intrusion

variable {b : Baseline} {d : Detector} {pkt : Packet} {dport : Nat} {protocol : String}

theorem Intrusion.stranger (h : Intrusion b pkt dport) : b.standing pkt.src = .stranger :=
  standing_eq_stranger.mpr h.src

theorem Intrusion.watched (h : Intrusion b pkt dport) (hot : (dport, protocol) ∈ otPorts) :
    Watched b pkt protocol dport :=
  ⟨h.tcp, h.port, hot, h.dst⟩

/-- A stranger's operations are judged by their danger alone. -/
theorem judge_stranger (hs : b.standing pkt.src = .stranger) (op : Operation) :
    b.judge pkt op = op.finding.map fun f => raise pkt f.2 f.1.hostile := by
  rw [Baseline.judge, hs]
  cases op.finding with
  | none => rfl
  | some f => rw [Option.bind_some, Danger.verdict_stranger]; rfl

/-- The alerts that a test picks out by danger are those of the operations of that danger. -/
theorem filter_judge (hs : b.standing pkt.src = .stranger) {test : Alert → Bool} {danger : Danger}
    {ops : List Operation} (htest : ∀ op ∈ ops, ∀ f, op.finding = some f →
      (test (raise pkt f.2 f.1.hostile) = true ↔ f.1 = danger)) :
    (ops.filterMap (b.judge pkt)).filter test =
      (ops.filterMap (Operation.reportOf danger)).map fun r => raise pkt r danger.hostile := by
  induction ops with
  | nil => rfl
  | cons op ops ih =>
    have ih := ih fun op' hop' => htest op' (List.mem_cons_of_mem _ hop')
    have hop := htest op List.mem_cons_self
    rw [List.filterMap_cons, List.filterMap_cons, judge_stranger hs]
    unfold Operation.reportOf
    cases hf : op.finding with
    | none => exact ih
    | some f =>
      simp only [Option.map_some, Option.bind_some]
      by_cases hd : f.1 = danger
      · subst hd
        rw [List.filter_cons_of_pos ((hop f hf).mpr rfl), ih, if_pos rfl]
        rfl
      · rw [List.filter_cons_of_neg (fun h => hd ((hop f hf).mp h)), ih, if_neg hd]
        rfl

/-- The alerts on an intrusion that report a danger of its payload. -/
theorem Intrusion.reported (h : Intrusion d.baseline pkt dport) (hot : (dport, protocol) ∈ otPorts)
    (hp : pkt.payload ≠ []) {test : Alert → Bool} {danger : Danger} (hsurvey : danger ≠ .survey)
    (hpresence : danger ≠ .presence)
    (htest : ∀ op ∈ operations d.seenTalkers pkt protocol dport, ∀ f, op.finding = some f →
      (test (raise pkt f.2 f.1.hostile) = true ↔ f.1 = danger)) :
    (d.react pkt).2.filter test =
      ((payloadOperations protocol pkt.payload).filterMap (Operation.reportOf danger)).map
        fun r => raise pkt r danger.hostile := by
  have hsyn : (synOperations pkt protocol dport).filterMap (Operation.reportOf danger) = [] := by
    unfold synOperations
    split
    · simp [Operation.reportOf, hsurvey.symm]
    · rfl
  have htalk : (talkerOperations d.seenTalkers pkt protocol).filterMap
      (Operation.reportOf danger) = [] := by
    unfold talkerOperations
    split
    · rfl
    · simp [Operation.reportOf, hpresence.symm]
  rw [react_watched (h.watched hot), report, accept_baseline, filter_judge h.stranger htest,
    operations, if_neg hp, List.filterMap_append, List.filterMap_append, hsyn, htalk]
  rfl

theorem Intrusion.criticals (h : Intrusion d.baseline pkt dport) (hot : (dport, protocol) ∈ otPorts)
    (hp : pkt.payload ≠ []) :
    (d.react pkt).2.filter (fun a => a.severity = .critical) =
      ((payloadOperations protocol pkt.payload).filterMap (Operation.reportOf .change)).map
        fun r => raise pkt r .critical := by
  have hne : Danger.change ≠ .survey ∧ Danger.change ≠ .presence := by decide
  apply h.reported hot hp hne.1 hne.2
  rintro op - ⟨danger, r⟩ -
  cases danger <;> simp [raise, Danger.hostile]

theorem Intrusion.stopdts (h : Intrusion d.baseline pkt dport) (hot : (dport, protocol) ∈ otPorts)
    (hp : pkt.payload ≠ []) :
    (d.react pkt).2.filter stopdtAlert =
      ((payloadOperations protocol pkt.payload).filterMap (Operation.reportOf .silence)).map
        fun r => raise pkt r .medium := by
  have hne : Danger.silence ≠ .survey ∧ Danger.silence ≠ .presence := by decide
  apply h.reported hot hp hne.1 hne.2
  rintro op hop ⟨danger, r⟩ hf
  refine stopdtAlert_raise (operations_titled hop) hf (fun e => ?_) pkt _
  exact report_of_silence hop (e ▸ hf)

end Intrusion

end Detector

/-! ## IEC-104 segments -/

/-- An I-format APDU whose type id is a control command. -/
def isCommand (f : Iec104.Frame) : Bool :=
  f.format = .I ∧ (f.octet 4).any fun typeId => Iec104.classifyTypeId typeId = .command

/-- A STOPDT act. -/
def isStopdt (f : Iec104.Frame) : Bool := f.format = .U ∧ f.control = 0x13

theorem decoded_format (f : Iec104.Frame) : f.decoded.format = f.format := by
  unfold Iec104.Frame.decoded
  split
  · exact Eq.symm ‹_›
  · rfl

theorem decoded_control (f : Iec104.Frame) : f.decoded.control = f.control := by
  unfold Iec104.Frame.decoded
  split <;> rfl

theorem decoded_typeId (f : Iec104.Frame) :
    f.decoded.typeId = if f.format = .I then f.octet 4 else none := by
  unfold Iec104.Frame.decoded
  split
  · rw [if_pos ‹_›]
  · rw [if_neg ‹_›]

theorem change_of_frame (f : Iec104.Frame) :
    (apduOperation f.decoded).bind (Operation.reportOf .change) =
      if isCommand f then some (commandReport f.decoded) else none := by
  unfold apduOperation
  rw [decoded_format, decoded_control, decoded_typeId]
  cases hf : f.format with
  | U =>
    simp only [if_true, isCommand, hf, reduceCtorEq, false_and, decide_false, if_false]
    split <;> rfl
  | S => simp [isCommand, hf]
  | I =>
    simp only [reduceCtorEq, if_false, if_true, isCommand, hf, true_and]
    cases f.octet 4 with
    | none => rfl
    | some typeId => cases hc : Iec104.classifyTypeId typeId <;> simp [Operation.reportOf, hc]

theorem silence_of_frame (f : Iec104.Frame) :
    (apduOperation f.decoded).bind (Operation.reportOf .silence) =
      if isStopdt f then some stopdtReport else none := by
  unfold apduOperation
  rw [decoded_format, decoded_control, decoded_typeId]
  cases hf : f.format with
  | U =>
    by_cases hc : f.control = 0x13 <;> simp [isStopdt, hf, hc, Operation.reportOf]
  | S => simp [isStopdt, hf]
  | I =>
    simp only [reduceCtorEq, if_false, if_true, isStopdt, hf, false_and, decide_false]
    cases f.octet 4 with
    | none => rfl
    | some typeId => cases hc : Iec104.classifyTypeId typeId <;> simp [Operation.reportOf, hc]

theorem filterMap_ite {α β : Type} (p : α → Bool) (g : α → β) (l : List α) :
    l.filterMap (fun x => if p x then some (g x) else none) = (l.filter p).map g := by
  induction l with
  | nil => rfl
  | cons x l ih =>
    cases hp : p x <;> simp [hp, ih]

/-- The reports of one danger in a segment of frames, given what each frame reports. -/
theorem payloadOperations_frames {danger : Danger} {p : Iec104.Frame → Bool}
    {g : Iec104.Frame → Report}
    (h : ∀ f : Iec104.Frame, (apduOperation f.decoded).bind (Operation.reportOf danger) =
      if p f then some (g f) else none) (fs : List Iec104.Frame) :
    (payloadOperations "IEC-104" (Iec104.framesBytes fs)).filterMap (Operation.reportOf danger) =
      ((fs.take Iec104.defaultLimit).filter p).map g := by
  have hne : ("IEC-104" : String) ≠ "Modbus" := by decide
  rw [payloadOperations, if_neg hne, if_pos rfl, Iec104.parseApdus_frames, value_ok,
    ← List.map_take, List.filterMap_map, List.filterMap_filterMap, ← filterMap_ite]
  exact List.filterMap_congr fun f _ => h f

/-! ## Modbus and S7 segments -/

/-- A request whose function code is of class WRITE or PROGRAM. -/
def isWrite (a : OtTraffic.Adu) : Bool :=
  Modbus.classifyFunction a.code.toNat = .write ∨ Modbus.classifyFunction a.code.toNat = .program

/-- A job of class WRITE, PROGRAM or CONTROL. -/
def isControl (m : S7comm.JobMessage) : Bool :=
  m.job.jobClass = .write ∨ m.job.jobClass = .program ∨ m.job.jobClass = .control

/-- The codec reads the function code of the first request, and nothing behind it. -/
theorem readFunctionCode_adu (a : OtTraffic.Adu) (tail : Bytes) :
    Modbus.readFunctionCode (a.bytes ++ tail) = .ok (some a.code.toNat) := by
  obtain ⟨tid, ht, h⟩ := bind_inv a.encoded
  obtain ⟨length, hl, h⟩ := bind_inv h
  obtain ⟨unit, hu, h⟩ := bind_inv h
  obtain ⟨-, rfl⟩ := packH_inv ht
  obtain ⟨hlt, rfl⟩ := packH_inv hl
  obtain ⟨-, rfl⟩ := packB_inv hu
  have hshort := a.short
  have hb : a.bytes ++ tail = UInt8.ofNat (a.tid / 256) :: UInt8.ofNat (a.tid % 256) :: 0 :: 0 ::
      UInt8.ofNat (((a.code :: a.data).length + 1) / 256) ::
      UInt8.ofNat (((a.code :: a.data).length + 1) % 256) :: UInt8.ofNat a.unit :: a.code ::
      (a.data ++ tail) := by
    rw [← Except.ok.inj h]
    rfl
  have hcode : a.code.toNat &&& 0x7F = a.code.toNat := by
    rw [Nat.and_two_pow_sub_one_eq_mod _ 7]
    exact Nat.mod_eq_of_lt a.request
  rw [hb, Modbus.readFunctionCode_cons, u16_ofNat hlt, hcode,
    if_pos ⟨rfl, by simp, by simp; omega⟩]

theorem payloadOperations_adu (a : OtTraffic.Adu) (tail : Bytes) :
    payloadOperations "Modbus" (a.bytes ++ tail) = [modbusOperation a.code.toNat] := by
  rw [payloadOperations, if_pos rfl, readFunctionCode_adu, value_ok]
  rfl

theorem payloadOperations_job (m : S7comm.JobMessage) (tail : Bytes) :
    payloadOperations "S7comm" (m.bytes ++ tail) = (s7Operation m.job).toList := by
  have hne : ("S7comm" : String) ≠ "Modbus" ∧ ("S7comm" : String) ≠ "IEC-104" := by decide
  rw [payloadOperations, if_neg hne.1, if_neg hne.2, S7comm.parseJob_message, value_ok,
    Option.toList_some, List.filterMap_cons, List.filterMap_nil]
  cases s7Operation m.job <;> rfl

theorem change_of_adu (a : OtTraffic.Adu) :
    ((modbusOperation a.code.toNat).reportOf .change).isSome = isWrite a := by
  unfold modbusOperation Operation.reportOf isWrite
  cases Modbus.classifyFunction a.code.toNat <;> rfl

theorem change_of_job (m : S7comm.JobMessage) :
    ((s7Operation m.job).bind (Operation.reportOf .change)).isSome = isControl m := by
  unfold s7Operation Operation.reportOf isControl
  rw [if_neg (by simp [S7comm.JobMessage.job])]
  cases hc : m.job.jobClass <;> simp

namespace Detector

theorem framesBytes_ne_nil {fs : List Iec104.Frame} (h : fs ≠ []) : Iec104.framesBytes fs ≠ [] := by
  obtain ⟨f, fs, rfl⟩ := List.exists_cons_of_ne_nil h
  rw [Iec104.framesBytes_cons]
  simp [Iec104.Frame.bytes]

section Segments

variable {d : Detector} {pkt : Packet}

theorem Intrusion.countP_critical {protocol : String} {dport : Nat}
    (h : Intrusion d.baseline pkt dport) (hot : (dport, protocol) ∈ otPorts)
    (hp : pkt.payload ≠ []) :
    (d.react pkt).2.countP (fun a => a.severity = .critical) =
      ((payloadOperations protocol pkt.payload).filterMap (Operation.reportOf .change)).length := by
  rw [List.countP_eq_length_filter, h.criticals hot hp, List.length_map]

theorem Intrusion.criticals_frames (h : Intrusion d.baseline pkt 2404) {fs : List Iec104.Frame}
    (hne : fs ≠ []) (hpay : pkt.payload = Iec104.framesBytes fs) :
    (d.react pkt).2.filter (fun a => a.severity = .critical) =
      ((fs.take 64).filter isCommand).map
        fun f => raise pkt (commandReport f.decoded) .critical := by
  rw [h.criticals (by decide : (2404, "IEC-104") ∈ otPorts) (hpay ▸ framesBytes_ne_nil hne), hpay,
    payloadOperations_frames change_of_frame, List.map_map]
  rfl

theorem Intrusion.stopdts_frames (h : Intrusion d.baseline pkt 2404) {fs : List Iec104.Frame}
    (hne : fs ≠ []) (hpay : pkt.payload = Iec104.framesBytes fs) :
    (d.react pkt).2.filter stopdtAlert =
      ((fs.take 64).filter isStopdt).map fun _ => raise pkt stopdtReport .medium := by
  rw [h.stopdts (by decide : (2404, "IEC-104") ∈ otPorts) (hpay ▸ framesBytes_ne_nil hne), hpay,
    payloadOperations_frames silence_of_frame, List.map_map]
  rfl

theorem adu_bytes_ne_nil (a : OtTraffic.Adu) (tail : Bytes) : a.bytes ++ tail ≠ [] := by
  intro h
  have hread := readFunctionCode_adu a tail
  rw [h] at hread
  cases hread

theorem job_bytes_ne_nil (m : S7comm.JobMessage) (tail : Bytes) : m.bytes ++ tail ≠ [] := by
  intro h
  have hread := S7comm.parseJob_message m tail
  rw [h] at hread
  cases hread

/-- Of a Modbus segment the detector reads the first request only. -/
theorem Intrusion.countP_adus (h : Intrusion d.baseline pkt 502) {a : OtTraffic.Adu} {tail : Bytes}
    (hpay : pkt.payload = a.bytes ++ tail) :
    (d.react pkt).2.countP (fun a => a.severity = .critical) = (isWrite a).toNat := by
  rw [h.countP_critical (by decide : (502, "Modbus") ∈ otPorts) (hpay ▸ adu_bytes_ne_nil a tail),
    hpay, payloadOperations_adu, ← change_of_adu]
  cases hr : (modbusOperation a.code.toNat).reportOf .change <;> simp [hr]

/-- Of an S7 segment the detector reads the first job only. -/
theorem Intrusion.countP_jobs (h : Intrusion d.baseline pkt 102) {m : S7comm.JobMessage}
    {tail : Bytes} (hpay : pkt.payload = m.bytes ++ tail) :
    (d.react pkt).2.countP (fun a => a.severity = .critical) = (isControl m).toNat := by
  rw [h.countP_critical (by decide : (102, "S7comm") ∈ otPorts) (hpay ▸ job_bytes_ne_nil m tail),
    hpay, payloadOperations_job, ← change_of_job]
  cases hop : s7Operation m.job with
  | none => rfl
  | some op => cases hr : op.reportOf .change <;> simp [hr]

theorem head_eq_countP_iff {α : Type} (p : α → Bool) (x : α) (l : List α) :
    (p x).toNat = (x :: l).countP p ↔ ∀ y ∈ l, p y = false := by
  have hcount : (x :: l).countP p = (p x).toNat + l.countP p := by
    rw [List.countP_cons, Nat.add_comm]
    cases p x <;> rfl
  rw [hcount, Nat.left_eq_add, List.countP_eq_zero]
  simp

end Segments

/-! ## The practice plant -/

/-- A baseline with one station and one controller. -/
def practiceBaseline : Baseline := { hmi := {OtTraffic.hmi}, plcs := {OtTraffic.plc} }

/-- A packet from the attacker to the controller. -/
def attack (dport : Nat) (payload : Bytes) : Packet :=
  { ts := 0, length := 54 + payload.length, protocol := "TCP", src := some OtTraffic.attacker,
    dst := some OtTraffic.plc, sport := some 50000, dport := some dport, flags := "PA",
    payload := payload, version := some 4 }

theorem attack_intrusion (dport : Nat) (payload : Bytes) :
    Intrusion (fresh practiceBaseline).baseline (attack dport payload) dport where
  tcp := rfl
  port := rfl
  dst := ⟨OtTraffic.plc, rfl, by decide⟩
  src := ⟨OtTraffic.attacker, rfl, by decide, by decide⟩

theorem fresh_reachable (b : Baseline) : Reachable (fresh b) := ⟨b, [], [], rfl⟩

/-- `TESTFR act`. -/
def testfr : Iec104.Frame := ⟨[0x43, 0x00, 0x00, 0x00], by decide, by decide⟩

/-- A single command, `C_SC_NA`. -/
def singleCommand : Iec104.Frame :=
  ⟨[0x00, 0x00, 0x00, 0x00, 45, 0x01, 0x06, 0x00, 0x01, 0x00, 0x01, 0x00, 0x00, 0x01], by decide,
    by decide⟩

/-- Read holding registers. -/
def readAdu : OtTraffic.Adu where
  unit := 1
  tid := 1
  code := 0x03
  data := [0x00, 0x00, 0x00, 0x0A]
  request := by decide
  short := by decide
  bytes := [0x00, 0x01, 0x00, 0x00, 0x00, 0x06, 0x01, 0x03, 0x00, 0x00, 0x00, 0x0A]
  encoded := rfl

/-- Write single register. -/
def writeAdu : OtTraffic.Adu where
  unit := 1
  tid := 2
  code := 0x06
  data := [0x00, 0x01, 0x00, 0x2A]
  request := by decide
  short := by decide
  bytes := [0x00, 0x02, 0x00, 0x00, 0x00, 0x06, 0x01, 0x06, 0x00, 0x01, 0x00, 0x2A]
  encoded := rfl

/-- Read variable. -/
def readJob : S7comm.JobMessage where
  header := [0x00, 0x00, 0x00, 0x01, 0x00, 0x01, 0x00, 0x00]
  header_length := rfl
  function := 0x04
  rest := []
  bytes := [0x03, 0x00, 0x00, 0x12, 0x02, 0xF0, 0x80, 0x32, 0x01, 0x00, 0x00, 0x00, 0x01, 0x00,
    0x01, 0x00, 0x00, 0x04]
  encoded := rfl

/-- PLC stop. -/
def stopJob : S7comm.JobMessage where
  header := [0x00, 0x00, 0x00, 0x01, 0x00, 0x01, 0x00, 0x00]
  header_length := rfl
  function := 0x29
  rest := []
  bytes := [0x03, 0x00, 0x00, 0x12, 0x02, 0xF0, 0x80, 0x32, 0x01, 0x00, 0x00, 0x00, 0x01, 0x00,
    0x01, 0x00, 0x00, 0x29]
  encoded := rfl

/-! ## Whole segments -/

/-- **No command hides among the first 64 APDUs**: on a segment of complete APDUs from a stranger,
the critical alerts are those of the control commands among the first 64, in order, and the STOPDT
alerts those of the STOPDT acts among them. -/
theorem iec104_segment (d : Detector) (pkt : Packet) (h : Intrusion d.baseline pkt 2404)
    (fs : List Iec104.Frame) (hne : fs ≠ []) (hpay : pkt.payload = Iec104.framesBytes fs) :
    ∃ d' alerts, d.feed pkt = .ok (d', alerts) ∧
      alerts.filter (fun a => a.severity = .critical) =
        ((fs.take 64).filter isCommand).map (fun f => raise pkt (commandReport f.decoded) .critical) ∧
      alerts.filter stopdtAlert =
        ((fs.take 64).filter isStopdt).map (fun _ => raise pkt stopdtReport .medium) :=
  ⟨_, _, d.feed_ok pkt, h.criticals_frames hne hpay, h.stopdts_frames hne hpay⟩

theorem iec104_segment_singleCommand :
    ∃ d' alerts, (fresh practiceBaseline).feed
        (attack 2404 (Iec104.framesBytes [testfr, singleCommand])) = .ok (d', alerts) ∧
      (alerts.filter fun a => a.severity = .critical).map Alert.summary =
        ["CONTROL COMMAND - C_SC_NA single command"] := by
  obtain ⟨d', alerts, hfeed, hcrit, -⟩ := iec104_segment (fresh practiceBaseline) _
    (attack_intrusion 2404 (Iec104.framesBytes [testfr, singleCommand])) [testfr, singleCommand]
    (by simp) rfl
  refine ⟨d', alerts, hfeed, ?_⟩
  rw [hcrit]
  decide

/-- The 65th APDU of a segment is not read. -/
theorem iec104_segment_sixty_fifth :
    ¬ ∀ (d : Detector) (pkt : Packet), Reachable d → Intrusion d.baseline pkt 2404 →
      ∀ fs : List Iec104.Frame, fs ≠ [] → (∀ f ∈ fs, f.body.length ≤ 253) →
      pkt.payload = Iec104.framesBytes fs →
      ∃ d' alerts, d.feed pkt = .ok (d', alerts) ∧
        alerts.countP (fun a => a.severity = .critical) = fs.countP isCommand ∧
        alerts.countP stopdtAlert = fs.countP isStopdt := by
  intro h
  obtain ⟨fs, hfs⟩ : ∃ fs, fs = List.replicate 64 testfr ++ [singleCommand] := ⟨_, rfl⟩
  have hne : fs ≠ [] := by simp [hfs]
  have hshort : ∀ f ∈ fs, f.body.length ≤ 253 := by
    rw [hfs]
    decide
  have hi := attack_intrusion 2404 (Iec104.framesBytes fs)
  obtain ⟨d', alerts, hfeed, hcount, -⟩ := h _ _ (fresh_reachable practiceBaseline) hi fs hne hshort rfl
  rw [alerts_of_feed hfeed, List.countP_eq_length_filter, hi.criticals_frames hne rfl,
    List.length_map, hfs] at hcount
  exact absurd hcount (by decide)

/-- **Exactly the segments whose writes come first are caught whole**: on a segment of pipelined
requests from a stranger, the detector returns one critical alert for each write (for each job
that writes, programs or controls) if and only if none stands behind the first message. -/
theorem pipelined_segment (d : Detector) (pkt : Packet) :
    (∀ adus : List OtTraffic.Adu, adus ≠ [] → Intrusion d.baseline pkt 502 →
      pkt.payload = adus.flatMap OtTraffic.Adu.bytes →
      ∃ d' alerts, d.feed pkt = .ok (d', alerts) ∧
        (alerts.countP (fun a => a.severity = .critical) = adus.countP isWrite ↔
          ∀ a ∈ adus.tail, isWrite a = false)) ∧
    (∀ jobs : List S7comm.JobMessage, jobs ≠ [] → Intrusion d.baseline pkt 102 →
      pkt.payload = jobs.flatMap S7comm.JobMessage.bytes →
      ∃ d' alerts, d.feed pkt = .ok (d', alerts) ∧
        (alerts.countP (fun a => a.severity = .critical) = jobs.countP isControl ↔
          ∀ m ∈ jobs.tail, isControl m = false)) := by
  constructor
  · intro adus hne h hpay
    obtain ⟨a, adus, rfl⟩ := List.exists_cons_of_ne_nil hne
    refine ⟨_, _, d.feed_ok pkt, ?_⟩
    rw [h.countP_adus hpay]
    exact head_eq_countP_iff isWrite a adus
  · intro jobs hne h hpay
    obtain ⟨m, jobs, rfl⟩ := List.exists_cons_of_ne_nil hne
    refine ⟨_, _, d.feed_ok pkt, ?_⟩
    rw [h.countP_jobs hpay]
    exact head_eq_countP_iff isControl m jobs

theorem pipelined_segment_write_first :
    (∃ d' alerts, (fresh practiceBaseline).feed
        (attack 502 ([writeAdu, readAdu].flatMap OtTraffic.Adu.bytes)) = .ok (d', alerts) ∧
        alerts.countP (fun a => a.severity = .critical) = 1) ∧
      ∃ d' alerts, (fresh practiceBaseline).feed
        (attack 102 ([stopJob, readJob].flatMap S7comm.JobMessage.bytes)) = .ok (d', alerts) ∧
        alerts.countP (fun a => a.severity = .critical) = 1 := by
  obtain ⟨hadus, -⟩ := pipelined_segment (fresh practiceBaseline)
    (attack 502 ([writeAdu, readAdu].flatMap OtTraffic.Adu.bytes))
  obtain ⟨-, hjobs⟩ := pipelined_segment (fresh practiceBaseline)
    (attack 102 ([stopJob, readJob].flatMap S7comm.JobMessage.bytes))
  obtain ⟨d', alerts, hfeed, hcount⟩ := hadus _ (by simp) (attack_intrusion 502 _) rfl
  obtain ⟨e', warnings, hfeed', hcount'⟩ := hjobs _ (by simp) (attack_intrusion 102 _) rfl
  exact ⟨⟨d', alerts, hfeed, hcount.mpr (by decide)⟩,
    ⟨e', warnings, hfeed', hcount'.mpr (by decide)⟩⟩

/-- A write behind a read, and a stop behind a read, are not seen. -/
theorem pipelined_segment_write_behind :
    (¬ ∀ (d : Detector) (pkt : Packet), Reachable d → Intrusion d.baseline pkt 502 →
      ∀ adus : List OtTraffic.Adu, adus ≠ [] → pkt.payload = adus.flatMap OtTraffic.Adu.bytes →
      ∃ d' alerts, d.feed pkt = .ok (d', alerts) ∧
        alerts.countP (fun a => a.severity = .critical) = adus.countP isWrite) ∧
    ¬ ∀ (d : Detector) (pkt : Packet), Reachable d → Intrusion d.baseline pkt 102 →
      ∀ jobs : List S7comm.JobMessage, jobs ≠ [] →
      pkt.payload = jobs.flatMap S7comm.JobMessage.bytes →
      ∃ d' alerts, d.feed pkt = .ok (d', alerts) ∧
        alerts.countP (fun a => a.severity = .critical) = jobs.countP isControl := by
  constructor
  · intro h
    have hi := attack_intrusion 502 ([readAdu, writeAdu].flatMap OtTraffic.Adu.bytes)
    obtain ⟨d', alerts, hfeed, hcount⟩ := h _ _ (fresh_reachable practiceBaseline) hi
      [readAdu, writeAdu] (by simp) rfl
    rw [alerts_of_feed hfeed, hi.countP_adus List.flatMap_cons] at hcount
    exact absurd hcount (by decide)
  · intro h
    have hi := attack_intrusion 102 ([readJob, stopJob].flatMap S7comm.JobMessage.bytes)
    obtain ⟨d', alerts, hfeed, hcount⟩ := h _ _ (fresh_reachable practiceBaseline) hi
      [readJob, stopJob] (by simp) rfl
    rw [alerts_of_feed hfeed, hi.countP_jobs List.flatMap_cons] at hcount
    exact absurd hcount (by decide)

end Detector

/-! ## One message, end to end -/

/-- One message, of the protocol of the port, that changes the process: a Modbus write, an IEC-104
command, an S7 write, program or control job. -/
def OneCommand (dport : Nat) (payload : Bytes) : Prop :=
  (dport = 502 ∧ ∃ a : OtTraffic.Adu, payload = a.bytes ∧ isWrite a = true) ∨
    (dport = 2404 ∧ ∃ typeId cause commonAddress ioa data,
      OtTraffic.iecIFrame typeId cause commonAddress ioa data = .ok payload ∧ data.length ≤ 240 ∧
      Iec104.classifyTypeId typeId = .command) ∨
    (dport = 102 ∧ ∃ m : S7comm.JobMessage, payload = m.bytes ∧ isControl m = true)

/-- What `iecIFrame` builds is one APDU, of the type id it was given. -/
theorem iecIFrame_frame {typeId cause commonAddress ioa : Nat} {data payload : Bytes}
    (h : OtTraffic.iecIFrame typeId cause commonAddress ioa data = .ok payload) :
    ∃ f : Iec104.Frame, payload = Iec104.framesBytes [f] ∧ f.format = .I ∧
      f.octet 4 = some typeId := by
  obtain ⟨tid, ht, h⟩ := bind_inv h
  obtain ⟨c, hc, h⟩ := bind_inv h
  obtain ⟨ca, hca, h⟩ := bind_inv h
  obtain ⟨io, hio, h⟩ := bind_inv h
  obtain ⟨length, hl, h⟩ := bind_inv h
  obtain ⟨hlt, rfl⟩ := packB_inv ht
  obtain ⟨hle, rfl⟩ := byte_inv hl
  refine ⟨⟨[0x00, 0x00, 0x00, 0x00] ++ ([UInt8.ofNat typeId] ++ [0x01] ++ c ++ ca ++ io.take 3 ++
    data), by simp, by omega⟩, ?_, rfl, ?_⟩
  · rw [← Except.ok.inj h]
    simp [Iec104.framesBytes, Iec104.Frame.bytes, Iec104.start]
  · simp [Iec104.Frame.octet, Nat.mod_eq_of_lt hlt]

theorem reportOf_eq_some {danger : Danger} {op : Operation} {r : Report} :
    op.reportOf danger = some r ↔ op.finding = some (danger, r) := by
  unfold Operation.reportOf
  cases op.finding with
  | none => simp
  | some f =>
    obtain ⟨danger', r'⟩ := f
    by_cases hd : danger' = danger <;> simp [hd]

/-- The payload of one command is read as one change. -/
theorem payloadOperations_oneCommand {dport : Nat} {payload : Bytes} (h : OneCommand dport payload) :
    ∃ protocol, (dport, protocol) ∈ otPorts ∧ payload ≠ [] ∧ ∃ op r,
      payloadOperations protocol payload = [op] ∧ op.finding = some (.change, r) := by
  rcases h with ⟨rfl, a, rfl, hw⟩ | ⟨rfl, typeId, cause, ca, ioa, data, henc, -, hc⟩ | ⟨rfl, m, rfl, hw⟩
  · rw [← change_of_adu] at hw
    obtain ⟨r, hr⟩ := Option.isSome_iff_exists.mp hw
    have hops := payloadOperations_adu a []
    have hne := Detector.adu_bytes_ne_nil a []
    rw [List.append_nil] at hops hne
    exact ⟨"Modbus", by decide, hne, _, r, hops, reportOf_eq_some.mp hr⟩
  · obtain ⟨f, rfl, hI, ht⟩ := iecIFrame_frame henc
    have hcmd : isCommand f = true := by
      simp [isCommand, hI, ht, hc]
    have hchange := change_of_frame f
    rw [if_pos hcmd] at hchange
    obtain ⟨op, hop, hr⟩ := Option.bind_eq_some_iff.mp hchange
    refine ⟨"IEC-104", by decide, Detector.framesBytes_ne_nil (by simp), op, _, ?_,
      reportOf_eq_some.mp hr⟩
    have hne : ("IEC-104" : String) ≠ "Modbus" := by decide
    rw [payloadOperations, if_neg hne, if_pos rfl, Iec104.parseApdus_frames, value_ok]
    simp [Iec104.defaultLimit, hop]
  · rw [← change_of_job] at hw
    obtain ⟨r, hr⟩ := Option.isSome_iff_exists.mp hw
    obtain ⟨op, hop, hr⟩ := Option.bind_eq_some_iff.mp hr
    have hops := payloadOperations_job m []
    have hne := Detector.job_bytes_ne_nil m []
    rw [List.append_nil] at hops hne
    rw [hop] at hops
    exact ⟨"S7comm", by decide, hne, op, r, hops, reportOf_eq_some.mp hr⟩

namespace Detector

/-- What a stranger's packet raises before its payload is read: the SYN alert for a connection
request, the new-talker alert for a new pair. -/
def forerunners (d : Detector) (pkt : Packet) (protocol : String) (dport : Nat) : List Alert :=
  (if 'S' ∈ pkt.flags.toList ∧ 'A' ∉ pkt.flags.toList then
      [raise pkt (synReport protocol dport) .medium] else []) ++
    if talkers pkt ∈ d.seenTalkers then [] else [raise pkt (talkerReport protocol) .high]

theorem mem_forerunners {d : Detector} {pkt : Packet} {protocol : String} {dport : Nat} {a : Alert}
    (h : a ∈ d.forerunners pkt protocol dport) :
    a.severity ≠ .critical ∧ a.src = str pkt.src ∧ a.dst = str pkt.dst := by
  rcases List.mem_append.mp h with h | h
  · split at h
    · rw [List.mem_singleton.mp h]
      exact ⟨by simp [raise], rfl, rfl⟩
    · cases h
  · split at h
    · cases h
    · rw [List.mem_singleton.mp h]
      exact ⟨by simp [raise], rfl, rfl⟩

theorem severity_forerunners (d : Detector) (pkt : Packet) (protocol : String) (dport : Nat) :
    (d.forerunners pkt protocol dport).map Alert.severity =
      (if 'S' ∈ pkt.flags.toList ∧ 'A' ∉ pkt.flags.toList then [.medium] else []) ++
        if talkers pkt ∈ d.seenTalkers then [] else [.high] := by
  rw [forerunners, List.map_append]
  congr 1
  · split <;> rfl
  · split <;> rfl

/-- **One command from a stranger raises one critical alert.** -/
theorem Intrusion.react_one {d : Detector} {pkt : Packet} {dport : Nat}
    (h : Intrusion d.baseline pkt dport) {protocol : String} (hot : (dport, protocol) ∈ otPorts)
    (hp : pkt.payload ≠ []) {op : Operation} {r : Report}
    (hops : payloadOperations protocol pkt.payload = [op]) (hf : op.finding = some (.change, r)) :
    (d.react pkt).2 = d.forerunners pkt protocol dport ++ [raise pkt r .critical] := by
  have hsyn : (synOperations pkt protocol dport).filterMap (d.baseline.judge pkt) =
      if 'S' ∈ pkt.flags.toList ∧ 'A' ∉ pkt.flags.toList then
        [raise pkt (synReport protocol dport) .medium] else [] := by
    unfold synOperations
    split
    · simp [judge_stranger h.stranger, Danger.hostile]
    · rfl
  have htalk : (talkerOperations d.seenTalkers pkt protocol).filterMap (d.baseline.judge pkt) =
      if talkers pkt ∈ d.seenTalkers then [] else [raise pkt (talkerReport protocol) .high] := by
    unfold talkerOperations
    split
    · rfl
    · simp [judge_stranger h.stranger, Danger.hostile]
  have hop : [op].filterMap (d.baseline.judge pkt) = [raise pkt r .critical] := by
    simp [judge_stranger h.stranger, hf, Danger.hostile]
  rw [react_watched (h.watched hot), report, accept_baseline, operations, if_neg hp, hops,
    List.filterMap_append, List.filterMap_append, hsyn, htalk, hop, forerunners, List.append_assoc]

/-- The flags column shows a connection request exactly when the exchange asks for one. -/
theorem syn_flags (x : OtTraffic.Exchange) {t : Wire.Tcp} (h : t.control = x.control) :
    ('S' ∈ (Wire.Transport.tcp t).flags.toList ∧ 'A' ∉ (Wire.Transport.tcp t).flags.toList) ↔
      x.flags = "S" := by
  rw [← OtTraffic.syn_control, ← h]
  exact t.control.text_syn

/-- The packet a frame of the encoder decodes to. -/
theorem decode_encodeFrame {x : OtTraffic.Exchange} {a b c e a' b' c' e' : UInt8}
    (hsrc : x.src = dotted a b c e) (hdst : x.dst = dotted a' b' c' e') (hsport : x.sport < 65536)
    (hdport : x.dport < 65536) (hlen : x.payload.length ≤ 65495) :
    ∃ frame pkt, OtTraffic.encodeFrame x = .ok frame ∧
      Packet.decode frame Packet.linktypeEthernet x.ts = pkt ∧
      pkt.protocol = "TCP" ∧ pkt.src = some x.src ∧ pkt.dst = some x.dst ∧
      pkt.dport = some x.dport ∧ pkt.payload = x.payload ∧ pkt.ts = x.ts ∧
      (('S' ∈ pkt.flags.toList ∧ 'A' ∉ pkt.flags.toList) ↔ x.flags = "S") := by
  have hs16 : x.sport = (UInt16.ofNat x.sport).toNat := (UInt16.toNat_ofNat_of_lt' hsport).symm
  have hd16 : x.dport = (UInt16.ofNat x.dport).toNat := (UInt16.toNat_ofNat_of_lt' hdport).symm
  obtain ⟨frame, henc, f, rfl, hlink, hns, hnd, hpay, -, sum, htr⟩ :=
    OtTraffic.encodeFrame_yields hsrc hdst hs16 hd16 hlen
  have hdec := Wire.decode_of_addresses f x.ts hns hnd
  rw [hlink, htr] at hdec
  refine ⟨_, _, henc, hdec, rfl, rfl, rfl, ?_, hpay, rfl, syn_flags x rfl⟩
  exact congrArg some hd16.symm

theorem dport_lt {dport : Nat} {payload : Bytes} (h : OneCommand dport payload) : dport < 65536 := by
  rcases h with ⟨rfl, -⟩ | ⟨rfl, -⟩ | ⟨rfl, -⟩ <;> decide

/-- **No missed write, end to end**: in every state of the detector, a frame that carries one
command from an unauthorised source to a protected destination raises exactly one critical alert,
with both addresses. Before it come the SYN alert exactly for a connection request and the
new-talker alert exactly for an unreported pair; the source is hostile from then on. -/
theorem no_missed_write (d : Detector) (x : OtTraffic.Exchange) {a b c e u v w z : UInt8}
    (hsrc : x.src = dotted a b c e) (hdst : x.dst = dotted u v w z) (hsport : x.sport < 65536)
    (hlen : x.payload.length ≤ 65495) (hcmd : OneCommand x.dport x.payload)
    (hknown : d.baseline.hmi ≠ ∅) (hunauth : x.src ∉ d.baseline.hmi)
    (hprot : d.baseline.plcs = ∅ ∨ x.dst ∈ d.baseline.plcs) :
    ∃ frame d' before alert,
      OtTraffic.encodeFrame x = .ok frame ∧
      d.feed (Packet.decode frame Packet.linktypeEthernet x.ts) = .ok (d', before ++ [alert]) ∧
      alert.severity = .critical ∧ alert.src = x.src ∧ alert.dst = x.dst ∧ alert.ts = x.ts ∧
      (∀ y ∈ before, y.severity ≠ .critical ∧ y.src = x.src ∧ y.dst = x.dst) ∧
      before.map Alert.severity = (if x.flags = "S" then [.medium] else []) ++
        (if (x.src, x.dst) ∈ d.seenTalkers then [] else [.high]) ∧
      x.src ∈ d'.hostileSources ∧ (x.src, x.dst) ∈ d'.seenTalkers ∧
      d'.packets = d.packets + 1 ∧ d'.alerts = d.alerts + before.length + 1 := by
  obtain ⟨frame, pkt, henc, hdec, htcp, hs, hd, hport, hpay, hts, hsyn⟩ :=
    decode_encodeFrame hsrc hdst hsport (dport_lt hcmd) hlen
  obtain ⟨protocol, hot, hne, op, r, hops, hf⟩ := payloadOperations_oneCommand hcmd
  rw [← hpay] at hne hops
  have h : Intrusion d.baseline pkt x.dport :=
    ⟨htcp, hport, ⟨x.dst, hd, hprot⟩, ⟨x.src, hs, hknown, hunauth⟩⟩
  have hsrc' : str pkt.src = x.src := by rw [hs]; rfl
  have hdst' : str pkt.dst = x.dst := by rw [hd]; rfl
  have hpair : talkers pkt = (x.src, x.dst) := by rw [talkers, hsrc', hdst']
  have hwatch : Talks d.baseline pkt := ⟨⟨protocol, x.dport, h.watched hot⟩, hne, h.stranger⟩
  have hout := h.react_one hot hne hops hf
  have hmem : raise pkt r .critical ∈ (d.react pkt).2 := by
    rw [hout]
    exact List.mem_append_right _ List.mem_cons_self
  refine ⟨frame, (d.react pkt).1, d.forerunners pkt protocol x.dport, raise pkt r .critical, henc, ?_,
    rfl, hsrc', hdst', hts, ?_, ?_, ?_, ?_, ?_, ?_⟩
  · rw [hdec, feed_ok, hout]
  · intro y hy
    obtain ⟨hsev, hys, hyd⟩ := mem_forerunners hy
    exact ⟨hsev, hys.trans hsrc', hyd.trans hdst'⟩
  · rw [severity_forerunners, hpair]
    simp only [hsyn]
  · exact mem_react_hostileSources.mpr (.inr ⟨h.stranger, _, hmem, by simp [raise], hsrc'⟩)
  · exact mem_react_seenTalkers.mpr (.inr ⟨hwatch, hpair⟩)
  · rw [react_packets, if_pos (watches_iff.mpr ⟨_, _, h.watched hot⟩)]
  · rw [react_alerts, hout, List.length_append, List.length_singleton, Nat.add_assoc]

theorem no_missed_write_register :
    ∃ frame d' before alert,
      OtTraffic.encodeFrame ⟨0, OtTraffic.attacker, OtTraffic.plc, 50000, 502, writeAdu.bytes, "PA"⟩ =
        .ok frame ∧
      (fresh practiceBaseline).feed (Packet.decode frame Packet.linktypeEthernet 0) =
        .ok (d', before ++ [alert]) ∧
      alert.severity = .critical ∧ alert.src = OtTraffic.attacker ∧
      before.map Alert.severity = [.high] := by
  obtain ⟨frame, d', before, alert, henc, hfeed, hsev, hsrc, -, -, -, hbefore, -⟩ :=
    no_missed_write (fresh practiceBaseline)
      ⟨0, OtTraffic.attacker, OtTraffic.plc, 50000, 502, writeAdu.bytes, "PA"⟩ (a := 10) (b := 10)
      (c := 30) (e := 142) (u := 10) (v := 10) (w := 30) (z := 21) (by decide) (by decide)
      (by decide) (by decide) (.inl ⟨rfl, writeAdu, rfl, by decide⟩) (by decide) (by decide)
      (by decide)
  refine ⟨frame, d', before, alert, henc, hfeed, hsev, hsrc, ?_⟩
  rw [hbefore]
  decide

end Detector

end Pyscan.OtDetect
