import Pyscan.Domain.Packet
import Pyscan.Domain.Modbus
import Pyscan.Domain.S7comm
import Pyscan.Domain.Iec104

/-!
# The OT detection rules

`Detector.feed` as the source has it: the packet filter, the SYN rule, the
new-talker rule and one rule set per protocol, threaded through the detector's
counters and sets. An alert's fixed texts are gathered in a `Report`; the rule
sites pick the report and the severity.
-/

namespace Pyscan.OtDetect

open Py

/-- The OT protocols of the engine, by registered port. -/
def otPorts : List (Nat × String) := [(502, "Modbus"), (2404, "IEC-104"), (102, "S7comm")]

inductive Severity where
  | critical
  | high
  | medium
  | info
  deriving DecidableEq, Repr

def Severity.order : Severity → Nat
  | .critical => 3
  | .high => 2
  | .medium => 1
  | .info => 0

/-- `severity` is as serious as `floor` or worse. -/
def atLeast (severity floor : Severity) : Bool := decide (floor.order ≤ severity.order)

/-- A floor lets through what stands from it on in the scale. -/
theorem atLeast_iff (severity floor : Severity) : atLeast severity floor = true ↔
    severity ∈ [.info, .medium, .high, .critical].dropWhile fun milder => decide (milder ≠ floor) := by
  cases severity <;> cases floor <;> decide

structure Alert where
  ts : ℚ
  severity : Severity
  src : String
  dst : String
  protocol : String
  summary : String
  technique : String
  action : String
  deriving DecidableEq

/-- Who is allowed to talk to what; an empty `plcs` protects every destination. -/
structure Baseline where
  hmi : Finset String := ∅
  plcs : Finset String := ∅

def Baseline.known (b : Baseline) : Bool := decide (b.hmi ≠ ∅)

structure Detector where
  baseline : Baseline := {}
  packets : Nat := 0
  alerts : Nat := 0
  hostileSources : Finset String := ∅
  observedOperations : Finset String := ∅
  seenTalkers : Finset (String × String) := ∅

/-- The texts of a rule site. -/
structure Report where
  protocol : String
  summary : String
  technique : String
  action : String
  deriving DecidableEq

namespace Detector

/-! ## Rule helpers -/

def isProtected (d : Detector) : Option String → Bool
  | none => false
  | some host => if d.baseline.plcs ≠ ∅ then decide (host ∈ d.baseline.plcs) else true

def unauthorised (d : Detector) : Option String → Bool
  | none => false
  | some host => d.baseline.known && decide (host ∉ d.baseline.hmi)

def severity (d : Detector) (src : Option String) (whenHostile : Severity) : Severity :=
  if d.unauthorised src then whenHostile
  else if !d.baseline.known then if whenHostile = .critical then .high else .medium
  else .info

def alert (d : Detector) (pkt : Packet) (severity : Severity) (report : Report) :
    Detector × Alert :=
  ({ d with
      alerts := d.alerts + 1
      hostileSources :=
        if d.unauthorised pkt.src ∧ severity ≠ .info then insert (str pkt.src) d.hostileSources
        else d.hostileSources },
    { ts := pkt.ts
      severity
      src := str pkt.src
      dst := str pkt.dst
      protocol := report.protocol
      summary := report.summary
      technique := report.technique
      action := report.action })

/-- `return [self._alert(...)]`. -/
def alertOne (d : Detector) (pkt : Packet) (severity : Severity) (report : Report) :
    Detector × List Alert :=
  let r := d.alert pkt severity report
  (r.1, [r.2])

/-- `self.packets += 1`. -/
def count (d : Detector) : Detector := { d with packets := d.packets + 1 }

/-- `self.observed_operations.add(...)`. -/
def observe (d : Detector) (operation : String) : Detector :=
  { d with observedOperations := insert operation d.observedOperations }

end Detector

/-! ## The reports -/

def synReport (protocol : String) (dport : Nat) : Report where
  protocol := protocol
  summary := "New connection (SYN) to OT port " ++ toString dport
  technique := "T0846 Remote System Discovery"
  action := "Unexpected talker reaching OT. Watch it: this is the prelude."

def talkerReport (protocol : String) : Report where
  protocol := protocol
  summary := "Unauthorised talker sending OT traffic to a protected device"
  technique := "T0846 Remote System Discovery"
  action := "Isolate the SOURCE with an ACL at the IDMZ. The HMI should be the only one here."

/-- `FC{function} {name}`. -/
def functionText (function : Nat) : String :=
  "FC" ++ toString function ++ " " ++ Modbus.functionName function

def modbusWriteReport (function : Nat) : Report where
  protocol := "Modbus"
  summary := "WRITE to the process - " ++ functionText function
  technique := "T0855 Unauthorized Command Message / T0836 Modify Parameter"
  action := "Confirm the source is not the HMI, then isolate it. Do NOT reboot the PLC; " ++
    "coordinate any restoration with operations."

def modbusProgramReport (function : Nat) : Report where
  protocol := "Modbus"
  summary := "Logic/file operation - " ++ functionText function
  technique := "T0843 Program Download"
  action := "Someone is changing what the device runs. Isolate the source and preserve evidence."

def modbusReconReport (function : Nat) : Report where
  protocol := "Modbus"
  summary := "Reconnaissance - " ++ functionText function
  technique := "T0888 Remote System Information Discovery"
  action := "Enumeration usually precedes the write. Track this source now."

def stopdtReport : Report where
  protocol := "IEC-104"
  summary := "STOPDT act - an attempt to stop the outstation reporting"
  technique := "T0804 Block Reporting Message"
  action := "Telemetry is being silenced. Correlate with any commands just before it; " ++
    "do not trust a quiet HMI."

def commandReport (apdu : Iec104.Apdu) : Report where
  protocol := "IEC-104"
  summary := "CONTROL COMMAND - " ++ apdu.name
  technique := "T0855 Unauthorized Command Message"
  action := "A legitimate command from an illegitimate source is the Industroyer signature. " ++
    "Isolate the source; do not cut the process."

def interrogationReport (apdu : Iec104.Apdu) : Report where
  protocol := "IEC-104"
  summary := "Reconnaissance - " ++ apdu.name
  technique := "T0888 Remote System Information Discovery"
  action := "An interrogation from a non-HMI source usually precedes the command."

def blockTransferReport (job : S7comm.S7Job) : Report where
  protocol := "S7comm"
  summary := "Block transfer - " ++ job.name
  technique := "T0843 Program Download"
  action := "Control logic is being read or replaced. Isolate the source and preserve the capture."

def cpuControlReport (job : S7comm.S7Job) : Report where
  protocol := "S7comm"
  summary := "CPU control - " ++ job.name
  technique := "T0858 Change Operating Mode / T0813 Denial of Control"
  action := "Someone is starting or stopping the CPU. Alert operations before anything else."

def s7WriteReport (job : S7comm.S7Job) : Report where
  protocol := "S7comm"
  summary := "WRITE to the process - " ++ job.name
  technique := "T0855 Unauthorized Command Message"
  action := "Confirm the source, then isolate it. Do not stop the CPU yourself."

namespace Detector

/-! ## Per-protocol rules -/

def newTalker (d : Detector) (pkt : Packet) (protocol : String) : Detector × List Alert :=
  let pair := (str pkt.src, str pkt.dst)
  if !d.unauthorised pkt.src ∨ pair ∈ d.seenTalkers then (d, [])
  else
    let d := { d with seenTalkers := insert pair d.seenTalkers }
    d.alertOne pkt .high (talkerReport protocol)

/-- `_modbus` behind the codec. -/
def modbusRule (d : Detector) (pkt : Packet) : Option Nat → Detector × List Alert
  | none => (d, [])
  | some function =>
    let kind := Modbus.classifyFunction function
    let d := d.observe ("Modbus FC" ++ toString function)
    if kind = .write then
      d.alertOne pkt (d.severity pkt.src .critical) (modbusWriteReport function)
    else if kind = .program then
      d.alertOne pkt (d.severity pkt.src .critical) (modbusProgramReport function)
    else if kind = .recon ∧ d.unauthorised pkt.src then
      d.alertOne pkt .medium (modbusReconReport function)
    else (d, [])

def modbus (d : Detector) (pkt : Packet) : Result (Detector × List Alert) := do
  .ok (d.modbusRule pkt (← Modbus.readFunctionCode pkt.payload))

/-- The body of the `for` loop of `_iec104`. -/
def apduRule (d : Detector) (pkt : Packet) (apdu : Iec104.Apdu) : Detector × List Alert :=
  if apdu.format = .U then
    if apdu.control = 0x13 then (d.observe "IEC-104 STOPDT").alertOne pkt .medium stopdtReport
    else (d, [])
  else match apdu.typeId with
    | none => (d, [])
    | some typeId =>
      let kind := Iec104.classifyTypeId typeId
      let d := d.observe ("IEC-104 T" ++ toString typeId)
      if kind = .command then
        d.alertOne pkt (d.severity pkt.src .critical) (commandReport apdu)
      else if kind = .system ∧ d.unauthorised pkt.src then
        d.alertOne pkt .medium (interrogationReport apdu)
      else (d, [])

def apduRules (d : Detector) (pkt : Packet) : List Iec104.Apdu → Detector × List Alert
  | [] => (d, [])
  | apdu :: apdus =>
    let r := d.apduRule pkt apdu
    let rest := r.1.apduRules pkt apdus
    (rest.1, r.2 ++ rest.2)

def iec104 (d : Detector) (pkt : Packet) : Result (Detector × List Alert) := do
  .ok (d.apduRules pkt (← Iec104.parseApdus pkt.payload Iec104.defaultLimit))

/-- `_s7comm` behind the codec. -/
def s7Rule (d : Detector) (pkt : Packet) : Option S7comm.S7Job → Detector × List Alert
  | none => (d, [])
  | some job =>
    if job.rosctr ≠ 0x01 then (d, [])
    else
      let d := d.observe ("S7 " ++ job.name)
      if job.jobClass = .program then
        d.alertOne pkt (d.severity pkt.src .critical) (blockTransferReport job)
      else if job.jobClass = .control then
        d.alertOne pkt (d.severity pkt.src .critical) (cpuControlReport job)
      else if job.jobClass = .write then
        d.alertOne pkt (d.severity pkt.src .critical) (s7WriteReport job)
      else (d, [])

def s7comm (d : Detector) (pkt : Packet) : Result (Detector × List Alert) := do
  .ok (d.s7Rule pkt (← S7comm.parseJob pkt.payload))

/-! ## The entry point -/

/-- The SYN rule of `feed`. -/
def synRule (d : Detector) (pkt : Packet) (protocol : String) (dport : Nat) :
    Detector × List Alert :=
  if 'S' ∈ pkt.flags.toList ∧ 'A' ∉ pkt.flags.toList ∧ d.unauthorised pkt.src then
    d.alertOne pkt .medium (synReport protocol dport)
  else (d, [])

/-- The dispatch on the protocol in `feed`. -/
def protocolRules (d : Detector) (pkt : Packet) (protocol : String) :
    Result (Detector × List Alert) :=
  if protocol = "Modbus" then d.modbus pkt
  else if protocol = "IEC-104" then d.iec104 pkt
  else d.s7comm pkt

/-- `feed` behind the packet filter. -/
def inspect (d : Detector) (pkt : Packet) (protocol : String) (dport : Nat) :
    Result (Detector × List Alert) :=
  let syn := d.count.synRule pkt protocol dport
  if pkt.payload = [] then .ok syn
  else do
    let talker := syn.1.newTalker pkt protocol
    let rules ← talker.1.protocolRules pkt protocol
    .ok (rules.1, syn.2 ++ talker.2 ++ rules.2)

/-- The protocol and port `feed` inspects a packet for, if any. -/
def target (d : Detector) (pkt : Packet) : Option (String × Nat) :=
  if pkt.protocol ≠ "TCP" then none
  else match pkt.dport with
    | none => none
    | some dport =>
      match otPorts.lookup dport with
      | none => none
      | some protocol => if !d.isProtected pkt.dst then none else some (protocol, dport)

def feed (d : Detector) (pkt : Packet) : Result (Detector × List Alert) :=
  match d.target pkt with
  | none => .ok (d, [])
  | some (protocol, dport) => d.inspect pkt protocol dport

/-- A detector that has seen nothing. -/
def fresh (b : Baseline) : Detector := { baseline := b }

/-- Packets fed one after the other: the final detector, and every alert returned. -/
def feedAll (d : Detector) : List Packet → Result (Detector × List Alert)
  | [] => .ok (d, [])
  | pkt :: pkts => do
    let r ← d.feed pkt
    let rest ← r.1.feedAll pkts
    .ok (rest.1, r.2 ++ rest.2)

end Detector

end Pyscan.OtDetect
