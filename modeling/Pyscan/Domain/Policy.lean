import Pyscan.Domain.OtDetect
import Pyscan.Lib.Mealy

/-!
# What the detector is for

The policy the rules implement, stated without them. A source has a `Standing`
under the baseline; an operation read off the wire has a `Danger`; the
`verdict` on the two is a severity or silence. `operations` lists what a packet
does, and `react` answers a packet with the verdicts on its operations.

`feed_eq` is the refinement: the source's `feed` raises nothing and computes
`react`. The state enters in one place only, whether the packet's
(source, destination) pair has been reported as a new talker.
-/

namespace Pyscan.OtDetect

open Py

/-! ## The policy -/

/-- What the baseline says of a source. -/
inductive Standing where
  /-- no baseline was given -/
  | unknown
  /-- the baseline names stations, and this is not one of them -/
  | stranger
  | operator
  deriving DecidableEq

/-- What an operation does to the plant. -/
inductive Danger where
  /-- moves a setpoint, a program or a CPU -/
  | change
  /-- reads the plant's structure, or probes for it -/
  | survey
  /-- stops an outstation reporting -/
  | silence
  /-- speaks to a device for the first time -/
  | presence
  deriving DecidableEq

def Danger.verdict : Danger → Standing → Option Severity
  | .change, .stranger => some .critical
  | .change, .unknown => some .high
  | .change, .operator => some .info
  | .survey, .stranger => some .medium
  | .presence, .stranger => some .high
  | .silence, _ => some .medium
  | _, _ => none

/-- An operation read off the wire: the name it is recorded under, and how it is reported. -/
structure Operation where
  name : Option String
  finding : Option (Danger × Report)

def Baseline.standing (b : Baseline) (src : Option String) : Standing :=
  if b.hmi = ∅ then .unknown
  else match src with
    | none => .operator
    | some host => if host ∈ b.hmi then .operator else .stranger

/-- The alert a packet raises with a report, at a severity. -/
def raise (pkt : Packet) (report : Report) (severity : Severity) : Alert :=
  { ts := pkt.ts
    severity
    src := str pkt.src
    dst := str pkt.dst
    protocol := report.protocol
    summary := report.summary
    technique := report.technique
    action := report.action }

def Baseline.judge (b : Baseline) (pkt : Packet) (op : Operation) : Option Alert :=
  op.finding.bind fun f => (f.1.verdict (b.standing pkt.src)).map (raise pkt f.2)

/-! ## Operations -/

def modbusOperation (function : Nat) : Operation where
  name := some ("Modbus FC" ++ toString function)
  finding := match Modbus.classifyFunction function with
    | .write => some (.change, modbusWriteReport function)
    | .program => some (.change, modbusProgramReport function)
    | .recon => some (.survey, modbusReconReport function)
    | .read | .other => none

def apduOperation (apdu : Iec104.Apdu) : Option Operation :=
  if apdu.format = .U then
    if apdu.control = 0x13 then some ⟨some "IEC-104 STOPDT", some (.silence, stopdtReport)⟩ else none
  else apdu.typeId.map fun typeId => {
    name := some ("IEC-104 T" ++ toString typeId)
    finding := match Iec104.classifyTypeId typeId with
      | .command => some (.change, commandReport apdu)
      | .system => some (.survey, interrogationReport apdu)
      | .monitor => none }

def s7Operation (job : S7comm.S7Job) : Option Operation :=
  if job.rosctr ≠ 0x01 then none
  else some {
    name := some ("S7 " ++ job.name)
    finding := match job.jobClass with
      | .program => some (.change, blockTransferReport job)
      | .control => some (.change, cpuControlReport job)
      | .write => some (.change, s7WriteReport job)
      | .read | .setup | .other => none }

/-- The operations in a payload, read with the codec of its protocol. -/
def payloadOperations (protocol : String) (payload : Bytes) : List Operation :=
  if protocol = "Modbus" then (value (Modbus.readFunctionCode payload)).toList.map modbusOperation
  else if protocol = "IEC-104" then
    (value (Iec104.parseApdus payload Iec104.defaultLimit)).filterMap apduOperation
  else (value (S7comm.parseJob payload)).toList.filterMap s7Operation

def synOperations (pkt : Packet) (protocol : String) (dport : Nat) : List Operation :=
  if 'S' ∈ pkt.flags.toList ∧ 'A' ∉ pkt.flags.toList then
    [⟨none, some (.survey, synReport protocol dport)⟩]
  else []

/-- The pair a new talker is remembered by. -/
def talkers (pkt : Packet) : String × String := (str pkt.src, str pkt.dst)

def talkerOperations (seen : Finset (String × String)) (pkt : Packet) (protocol : String) :
    List Operation :=
  if talkers pkt ∈ seen then [] else [⟨none, some (.presence, talkerReport protocol)⟩]

/-- Everything a packet to an OT port does. -/
def operations (seen : Finset (String × String)) (pkt : Packet) (protocol : String) (dport : Nat) :
    List Operation :=
  synOperations pkt protocol dport ++
    if pkt.payload = [] then []
    else talkerOperations seen pkt protocol ++ payloadOperations protocol pkt.payload

namespace Detector

/-- The sources that alerts on a packet mark as hostile. -/
def marked (b : Baseline) (pkt : Packet) (out : List Alert) : Finset String :=
  if b.standing pkt.src = .stranger then
    ((out.filter fun a => a.severity ≠ .info).map Alert.src).toFinset
  else ∅

/-- The detector after reporting `ops`, with the alerts it returned. -/
def report (d : Detector) (pkt : Packet) (ops : List Operation) : Detector × List Alert :=
  let out := ops.filterMap (d.baseline.judge pkt)
  ({ d with
      alerts := d.alerts + out.length
      hostileSources := d.hostileSources ∪ marked d.baseline pkt out
      observedOperations := d.observedOperations ∪ (ops.filterMap Operation.name).toFinset },
    out)

def observeName (d : Detector) : Option String → Detector
  | some name => d.observe name
  | none => d

/-- The detector once it knows a stranger's pair. -/
def remember (d : Detector) (pkt : Packet) : Detector :=
  { d with
    seenTalkers :=
      if d.baseline.standing pkt.src = .stranger then insert (talkers pkt) d.seenTalkers
      else d.seenTalkers }

/-- The detector once a packet is let through the filter. -/
def accept (d : Detector) (pkt : Packet) : Detector :=
  if pkt.payload = [] then d.count else d.count.remember pkt

def react (d : Detector) (pkt : Packet) : Detector × List Alert :=
  match d.target pkt with
  | none => (d, [])
  | some (protocol, dport) =>
    (d.accept pkt).report pkt (operations d.seenTalkers pkt protocol dport)

/-! ## The rules compute the policy -/

section

variable (d : Detector) (pkt : Packet)

@[simp] theorem report_packets (ops : List Operation) :
    (d.report pkt ops).1.packets = d.packets := rfl

@[simp] theorem report_seenTalkers (ops : List Operation) :
    (d.report pkt ops).1.seenTalkers = d.seenTalkers := rfl

@[simp] theorem observe_unauthorised (name : String) (src : Option String) :
    (d.observe name).unauthorised src = d.unauthorised src := by
  cases src <;> rfl

@[simp] theorem accept_baseline : (d.accept pkt).baseline = d.baseline := by
  unfold accept
  split <;> rfl

theorem report_remember (ops : List Operation) :
    (d.report pkt ops).1.remember pkt = ((d.remember pkt).report pkt ops).1 := rfl

theorem standing_eq_unknown {b : Baseline} {src : Option String} :
    b.standing src = .unknown ↔ b.hmi = ∅ := by
  unfold Baseline.standing
  by_cases hb : b.hmi = ∅
  · simp [hb]
  · cases src with
    | none => simp [hb]
    | some host => by_cases hm : host ∈ b.hmi <;> simp [hb, hm]

theorem unauthorised_eq (src : Option String) :
    d.unauthorised src = decide (d.baseline.standing src = .stranger) := by
  by_cases hb : d.baseline.hmi = ∅
  · cases src <;> simp [unauthorised, Baseline.standing, Baseline.known, hb]
  · cases src with
    | none => simp [unauthorised, Baseline.standing, hb]
    | some host =>
      by_cases hm : host ∈ d.baseline.hmi <;>
        simp [unauthorised, Baseline.standing, Baseline.known, hb, hm]

/-- `_severity` of a critical rule is the verdict on a change. -/
theorem verdict_change (src : Option String) :
    Danger.change.verdict (d.baseline.standing src) = some (d.severity src .critical) := by
  have hu := d.unauthorised_eq src
  have hk : d.baseline.standing src = .unknown ↔ d.baseline.hmi = ∅ := standing_eq_unknown
  unfold severity
  cases hs : d.baseline.standing src with
  | unknown => simp [hu, hs, Baseline.known, hk.mp hs, Danger.verdict]
  | stranger => simp [hu, hs, Danger.verdict]
  | operator =>
    have hne : d.baseline.hmi ≠ ∅ := fun h => by simp [hk.mpr h] at hs
    simp [hu, hs, Baseline.known, hne, Danger.verdict]

theorem marked_nil (b : Baseline) : marked b pkt [] = ∅ := by
  simp [marked]

theorem marked_append (b : Baseline) (out out' : List Alert) :
    marked b pkt (out ++ out') = marked b pkt out ∪ marked b pkt out' := by
  unfold marked
  split
  · rw [List.filter_append, List.map_append, List.toFinset_append]
  · rfl

theorem report_nil : d.report pkt [] = (d, []) := by
  simp [report, marked_nil]

/-- Reporting in two goes is reporting once. -/
theorem report_append (ops ops' : List Operation) :
    d.report pkt (ops ++ ops') =
      (((d.report pkt ops).1.report pkt ops').1,
        (d.report pkt ops).2 ++ ((d.report pkt ops).1.report pkt ops').2) := by
  simp only [report, List.filterMap_append, List.toFinset_append, List.length_append,
    marked_append, Nat.add_assoc, Finset.union_assoc]

theorem observeName_eq (name : Option String) (finding : Option (Danger × Report)) :
    { d with observedOperations := d.observedOperations ∪
        ([(⟨name, finding⟩ : Operation)].filterMap Operation.name).toFinset } =
      d.observeName name := by
  cases name with
  | none => simp [observeName]
  | some n => simp [observeName, observe]

@[simp] theorem observeName_unauthorised (name : Option String) (src : Option String) :
    (d.observeName name).unauthorised src = d.unauthorised src := by
  cases name with
  | none => rfl
  | some n => exact d.observe_unauthorised n src

/-- The alert of a rule site is the report of its operation. -/
theorem report_alert (name : Option String) {f : Danger × Report} {severity : Severity}
    (h : f.1.verdict (d.baseline.standing pkt.src) = some severity) :
    d.report pkt [⟨name, some f⟩] = (d.observeName name).alertOne pkt severity f.2 := by
  have hout : [(⟨name, some f⟩ : Operation)].filterMap (d.baseline.judge pkt) =
      [raise pkt f.2 severity] := by
    simp [Baseline.judge, h]
  have hmark : d.hostileSources ∪ marked d.baseline pkt [raise pkt f.2 severity] =
      if (d.observeName name).unauthorised pkt.src ∧ severity ≠ .info then
        insert (str pkt.src) d.hostileSources
      else d.hostileSources := by
    rw [observeName_unauthorised, unauthorised_eq]
    by_cases hs : d.baseline.standing pkt.src = .stranger
    · by_cases hi : severity = .info
      · simp [marked, hs, hi, raise]
      · simp [marked, raise, hs, hi]
    · simp [marked, hs]
  simp only [report, hout, hmark, alertOne, alert, ← d.observeName_eq name (some f)]
  rfl

/-- An operation without a verdict is only observed. -/
theorem report_silent {op : Operation} (h : d.baseline.judge pkt op = none) :
    d.report pkt [op] = (d.observeName op.name, []) := by
  have hout : [op].filterMap (d.baseline.judge pkt) = [] := by simp [h]
  simp only [report, hout, marked_nil, Finset.union_empty, List.length_nil, Nat.add_zero,
    ← d.observeName_eq op.name op.finding]

theorem judge_none (name : Option String) :
    d.baseline.judge pkt ⟨name, none⟩ = none := rfl

theorem judge_survey (name : Option String) (r : Report)
    (h : ¬ d.unauthorised pkt.src = true) :
    d.baseline.judge pkt ⟨name, some (.survey, r)⟩ = none := by
  rw [unauthorised_eq, decide_eq_true_eq] at h
  cases hs : d.baseline.standing pkt.src <;> simp_all [Baseline.judge, Danger.verdict]

theorem judge_presence (name : Option String) (r : Report)
    (h : ¬ d.unauthorised pkt.src = true) :
    d.baseline.judge pkt ⟨name, some (.presence, r)⟩ = none := by
  rw [unauthorised_eq, decide_eq_true_eq] at h
  cases hs : d.baseline.standing pkt.src <;> simp_all [Baseline.judge, Danger.verdict]

theorem standing_of_unauthorised {src : Option String} (h : d.unauthorised src = true) :
    d.baseline.standing src = .stranger := by
  rwa [unauthorised_eq, decide_eq_true_eq] at h

/-- A rule that reports a change does so at `_severity`. -/
theorem report_change (name : String) (r : Report) :
    d.report pkt [⟨some name, some (.change, r)⟩] =
      (d.observe name).alertOne pkt ((d.observe name).severity pkt.src .critical) r :=
  d.report_alert pkt (some name) (d.verdict_change pkt.src)

/-- A rule that reports a survey does so for strangers only. -/
theorem report_survey (name : String) (r : Report) :
    d.report pkt [⟨some name, some (.survey, r)⟩] =
      if (d.observe name).unauthorised pkt.src then (d.observe name).alertOne pkt .medium r
      else (d.observe name, []) := by
  rw [observe_unauthorised]
  split
  · have hv : Danger.survey.verdict (d.baseline.standing pkt.src) = some .medium := by
      rw [d.standing_of_unauthorised ‹_›]
      rfl
    exact d.report_alert pkt (some name) (f := (.survey, r)) hv
  · exact d.report_silent pkt (d.judge_survey pkt (some name) r ‹_›)

theorem modbusRule_eq (function : Option Nat) :
    d.modbusRule pkt function = d.report pkt (function.toList.map modbusOperation) := by
  cases function with
  | none => rw [Option.toList_none, List.map_nil, report_nil]; rfl
  | some function =>
    have hchange := d.report_change pkt ("Modbus FC" ++ toString function)
    have hsurvey := d.report_survey pkt ("Modbus FC" ++ toString function)
    have hsilent := d.report_silent pkt (d.judge_none pkt (some ("Modbus FC" ++ toString function)))
    simp only [Option.toList_some, List.map_cons, List.map_nil, modbusOperation, modbusRule]
    cases hk : Modbus.classifyFunction function <;>
      simp only [reduceCtorEq, if_false, if_true, false_and, true_and, hchange, hsurvey, hsilent,
        observeName]

theorem apduRule_eq (apdu : Iec104.Apdu) :
    d.apduRule pkt apdu = d.report pkt (apduOperation apdu).toList := by
  unfold apduRule apduOperation
  by_cases hU : apdu.format = .U
  · rw [if_pos hU, if_pos hU]
    split
    · have hv : Danger.silence.verdict (d.baseline.standing pkt.src) = some .medium := rfl
      exact (d.report_alert pkt (some "IEC-104 STOPDT") (f := (.silence, _)) hv).symm
    · exact (d.report_nil pkt).symm
  · rw [if_neg hU, if_neg hU]
    cases apdu.typeId with
    | none => exact (d.report_nil pkt).symm
    | some typeId =>
      have hchange := d.report_change pkt ("IEC-104 T" ++ toString typeId) (commandReport apdu)
      have hsurvey := d.report_survey pkt ("IEC-104 T" ++ toString typeId) (interrogationReport apdu)
      have hsilent := d.report_silent pkt (d.judge_none pkt (some ("IEC-104 T" ++ toString typeId)))
      simp only [Option.map_some, Option.toList_some]
      cases hk : Iec104.classifyTypeId typeId <;>
        simp only [reduceCtorEq, if_false, if_true, false_and, true_and, hchange, hsurvey, hsilent,
          observeName]

/-- The loop over a segment's messages reports their operations, in order. -/
theorem apduRules_eq (apdus : List Iec104.Apdu) :
    d.apduRules pkt apdus = d.report pkt (apdus.filterMap apduOperation) := by
  induction apdus generalizing d with
  | nil => exact (d.report_nil pkt).symm
  | cons apdu apdus ih =>
    have hops : (apdu :: apdus).filterMap apduOperation =
        (apduOperation apdu).toList ++ apdus.filterMap apduOperation := by
      rw [List.filterMap_cons]
      cases apduOperation apdu <;> rfl
    rw [hops, report_append, apduRules, apduRule_eq, ih]

theorem s7Rule_eq (job : Option S7comm.S7Job) :
    d.s7Rule pkt job = d.report pkt (job.toList.filterMap s7Operation) := by
  cases job with
  | none => exact (d.report_nil pkt).symm
  | some job =>
    have hchange := d.report_change pkt ("S7 " ++ job.name)
    have hsilent := d.report_silent pkt (d.judge_none pkt (some ("S7 " ++ job.name)))
    simp only [s7Rule, Option.toList_some, List.filterMap_cons, List.filterMap_nil, s7Operation]
    split
    · exact (d.report_nil pkt).symm
    · cases hk : job.jobClass <;>
        simp only [reduceCtorEq, if_false, if_true, hchange, hsilent, observeName]

theorem synRule_eq (protocol : String) (dport : Nat) :
    d.synRule pkt protocol dport = d.report pkt (synOperations pkt protocol dport) := by
  unfold synRule synOperations
  by_cases hf : 'S' ∈ pkt.flags.toList ∧ 'A' ∉ pkt.flags.toList
  · rw [if_pos hf]
    by_cases hu : d.unauthorised pkt.src = true
    · rw [if_pos ⟨hf.1, hf.2, hu⟩]
      have hv : Danger.survey.verdict (d.baseline.standing pkt.src) = some .medium := by
        rw [d.standing_of_unauthorised hu]
        rfl
      exact (d.report_alert pkt none (f := (.survey, _)) hv).symm
    · rw [if_neg fun h => hu h.2.2]
      exact (d.report_silent pkt (d.judge_survey pkt none _ hu)).symm
  · rw [if_neg hf, if_neg fun h => hf ⟨h.1, h.2.1⟩, report_nil]

/-- The new-talker rule remembers the pair of a stranger, and reports it the first time. -/
theorem newTalker_eq (protocol : String) :
    d.newTalker pkt protocol =
      (d.remember pkt).report pkt (talkerOperations d.seenTalkers pkt protocol) := by
  unfold newTalker talkerOperations remember
  by_cases hu : d.unauthorised pkt.src = true
  · rw [if_pos (d.standing_of_unauthorised hu)]
    by_cases hm : talkers pkt ∈ d.seenTalkers
    · rw [if_pos (.inr hm), if_pos hm, report_nil, Finset.insert_eq_of_mem hm]
    · rw [if_neg (by simp only [hu]; exact fun h => hm (h.resolve_left (by simp))), if_neg hm]
      have hv : Danger.presence.verdict (d.baseline.standing pkt.src) = some .high := by
        rw [d.standing_of_unauthorised hu]
        rfl
      exact (report_alert { d with seenTalkers := insert (talkers pkt) d.seenTalkers } pkt none
        (f := (.presence, _)) hv).symm
  · have hs : ¬ d.baseline.standing pkt.src = .stranger := by
      rwa [unauthorised_eq, decide_eq_true_eq] at hu
    rw [if_pos (.inl (by simp [hu])), if_neg hs]
    split
    · exact (d.report_nil pkt).symm
    · exact (d.report_silent pkt (d.judge_presence pkt none _ hu)).symm

/-- The rule set of a protocol reports the operations its codec reads. -/
theorem protocolRules_eq (protocol : String) :
    d.protocolRules pkt protocol =
      .ok (d.report pkt (payloadOperations protocol pkt.payload)) := by
  have hm := (Modbus.readFunctionCode_yields pkt.payload).eq_value
  have hi := (Iec104.parseApdus_yields pkt.payload Iec104.defaultLimit).eq_value
  have hs := (S7comm.parseJob_yields pkt.payload).eq_value
  unfold protocolRules payloadOperations
  split
  · rw [modbus, hm, ok_bind, value_ok, modbusRule_eq]
  · split
    · rw [iec104, hi, ok_bind, value_ok, apduRules_eq]
    · rw [s7comm, hs, ok_bind, value_ok, s7Rule_eq]

theorem inspect_eq (protocol : String) (dport : Nat) :
    d.inspect pkt protocol dport =
      .ok ((d.accept pkt).report pkt (operations d.seenTalkers pkt protocol dport)) := by
  unfold inspect operations accept
  rw [synRule_eq]
  by_cases hp : pkt.payload = []
  · rw [if_pos hp, if_pos hp, if_pos hp, List.append_nil]
  · rw [if_neg hp, if_neg hp, if_neg hp, report_append, report_append]
    dsimp only
    -- remembering the pair before or after the SYN rule makes no difference
    rw [protocolRules_eq, ok_bind, newTalker_eq, report_remember, report_seenTalkers,
      List.append_assoc]
    rfl

/-- **The rules refine the policy**: `feed` raises nothing and computes `react`. -/
theorem feed_eq : d.feed pkt = .ok (d.react pkt) := by
  unfold feed react
  cases d.target pkt with
  | none => rfl
  | some t => exact d.inspect_eq pkt t.1 t.2

theorem feed_ok : d.feed pkt = .ok ((d.react pkt).1, (d.react pkt).2) := d.feed_eq pkt

variable {d pkt} in
theorem alerts_of_feed {d' : Detector} {alerts : List Alert} (h : d.feed pkt = .ok (d', alerts)) :
    alerts = (d.react pkt).2 := by
  rw [feed_ok] at h
  exact (congrArg Prod.snd (Except.ok.inj h)).symm

end

end Detector

end Pyscan.OtDetect
