import Pyscan.Adapters.Strategies
import Pyscan.Application.MonitorService
import Pyscan.Domain.Coverage

/-!
# A scan under the monitor's eyes

The scanner and the detector read the same protocols. A `Piece` of a scan is
whatever TCP cuts out of the bytes the scan writes, on any port, against any
peer. **Whatever else is on the wire, a station that only scans is reported for
discovery and for nothing else** (`scan_is_discovery`): no piece of a scan holds
a command, to any of the detector's codecs.
-/

namespace Pyscan.OtDetect

open Py Streams
open S7commScan (Connect)

/-! ## Pieces of a scan -/

/-- TCP may cut `payload` out of what the strategy's scan of a port has written. -/
def Piece (strategy : Strategy) (payload : Bytes) : Prop :=
  ∃ (connect : Connect) (latencyMs : ℚ) (port : Nat) (rounds : List (List Event)) (c : Conn),
    ((∃ result, strategy.scanPort connect latencyMs port (accepted rounds) = .ok result c) ∨
      ∃ e, strategy.scanPort connect latencyMs port (accepted rounds) = .error e c) ∧
    payload <:+: c.written.flatten

theorem Piece.infix {strategy : Strategy} {payload : Bytes} (h : Piece strategy payload) :
    payload <:+: strategy.requests.flatten := by
  obtain ⟨connect, latencyMs, port, rounds, c, hends, hpiece⟩ := h
  have hwrites := strategy.writes connect latencyMs port rounds
  have hprefix : c.written <+: strategy.requests := by
    rcases hends with ⟨result, h⟩ | ⟨e, h⟩
    · rwa [Ends, h] at hwrites
    · rwa [Ends, h] at hwrites
  obtain ⟨rest, hrest⟩ := hprefix
  refine hpiece.trans ?_
  rw [← hrest, List.flatten_append]
  exact (List.prefix_append _ _).isInfix

/-! ## No command in any piece -/

/-- From `offset` on, the bytes read as a command to Modbus. -/
def modbusCommandAt (stream : Bytes) (offset : Nat) : Bool :=
  match stream[offset + 2]?, stream[offset + 3]?, stream[offset + 4]?, stream[offset + 5]?,
      stream[offset + 7]? with
  | some p1, some p0, some l1, some l0, some code =>
    decide (p1 = 0 ∧ p0 = 0 ∧ (1 ≤ u16 l1 l0 ∧ u16 l1 l0 ≤ 255) ∧
      Modbus.classifyFunction (code.toNat &&& 0x7F) ∈
        [Modbus.FunctionClass.write, Modbus.FunctionClass.program])
  | _, _, _, _, _ => false

/-- From `offset` on, the bytes read as a job that commands an S7 CPU. -/
def s7CommandAt (stream : Bytes) (offset : Nat) : Bool :=
  match stream[offset]?, stream[offset + 7]?, (stream[offset + 8]?).map UInt8.toNat,
      (stream[offset + 17]?).map UInt8.toNat with
  | some version, some protocolId, some rosctr, some function =>
    decide (version = 0x03 ∧ protocolId = 0x32 ∧ rosctr = 0x01 ∧
      S7comm.S7Job.jobClass ⟨rosctr, function⟩ ∈
        [S7comm.JobClass.write, S7comm.JobClass.program, S7comm.JobClass.control])
  | _, _, _, _ => false

/-- The strategies the command line offers over a stream. -/
def offered (strategy : Strategy) : Prop := ∃ name grabBanner, Strategy.getStrategy name grabBanner = some strategy

theorem requests_offered {strategy : Strategy} (h : offered strategy) :
    strategy.requests.flatten ∈ [Strategy.requests (.tcpConnect {}), Strategy.requests (.modbus {}),
      Strategy.requests .iec104, Strategy.requests (.s7comm 0 2)].map List.flatten := by
  obtain ⟨name, grabBanner, h⟩ := h
  unfold Strategy.getStrategy at h
  split at h
  · cases h
    exact List.mem_cons_self
  · split at h
    · cases h
      simp
    · split at h
      · cases h
        simp
      · split at h
        · cases h
          simp
        · cases h

theorem offered_harmless {strategy : Strategy} (h : offered strategy) (offset : Nat) :
    modbusCommandAt strategy.requests.flatten offset = false ∧
      s7CommandAt strategy.requests.flatten offset = false := by
  have hall : ∀ stream ∈ [Strategy.requests (.tcpConnect {}), Strategy.requests (.modbus {}),
      Strategy.requests .iec104, Strategy.requests (.s7comm 0 2)].map List.flatten,
      stream.length ≤ 80 ∧ ∀ offset < 80,
        modbusCommandAt stream offset = false ∧ s7CommandAt stream offset = false := by
    decide +kernel
  obtain ⟨hlen, hshort⟩ := hall _ (requests_offered h)
  by_cases hoffset : offset < 80
  · exact hshort offset hoffset
  · unfold modbusCommandAt s7CommandAt
    rw [List.getElem?_eq_none (show strategy.requests.flatten.length ≤ offset + 2 by omega),
      List.getElem?_eq_none (show strategy.requests.flatten.length ≤ offset by omega)]
    exact ⟨rfl, rfl⟩

section Pieces

variable {strategy : Strategy} {stream payload : Bytes}

/-- What a piece holds, the stream holds further on. -/
theorem exists_offset (h : payload <:+: stream) :
    ∃ offset, ∀ (k : Nat) (b : UInt8), payload[k]? = some b → stream[offset + k]? = some b := by
  obtain ⟨before, after, rfl⟩ := h
  refine ⟨before.length, fun k b hb => ?_⟩
  obtain ⟨hk, -⟩ := List.getElem?_eq_some_iff.mp hb
  rw [List.append_assoc, List.getElem?_append_right (by omega), Nat.add_sub_cancel_left,
    List.getElem?_append_left hk, hb]

theorem no_modbus_command (h : offered strategy) (hpiece : payload <:+: strategy.requests.flatten)
    {function : Nat} (hm : Modbus.Message payload function) :
    Modbus.classifyFunction function ∉ [Modbus.FunctionClass.write, Modbus.FunctionClass.program] := by
  intro hclass
  obtain ⟨t1, t0, l1, l0, unit, code, rest, rfl, h1, h2, rfl⟩ := hm
  obtain ⟨offset, hread⟩ := exists_offset hpiece
  have hcommand : modbusCommandAt strategy.requests.flatten offset = true := by
    rw [modbusCommandAt, hread 2 0 rfl, hread 3 0 rfl, hread 4 l1 rfl, hread 5 l0 rfl,
      hread 7 code rfl]
    exact decide_eq_true ⟨rfl, rfl, ⟨h1, h2⟩, hclass⟩
  rw [(offered_harmless h offset).1] at hcommand
  cases hcommand

theorem no_s7_command (h : offered strategy) (hpiece : payload <:+: strategy.requests.flatten)
    {job : S7comm.S7Job} (hm : S7comm.Message payload job) (hrosctr : job.rosctr = 1) :
    job.jobClass ∉ [S7comm.JobClass.write, S7comm.JobClass.program, S7comm.JobClass.control] := by
  intro hclass
  obtain ⟨hversion, hprotocol, hr, hf⟩ := hm
  obtain ⟨rosctr, h8, hr⟩ := Option.map_eq_some_iff.mp hr
  obtain ⟨function, h17, hf⟩ := Option.map_eq_some_iff.mp hf
  obtain ⟨offset, hread⟩ := exists_offset hpiece
  have hcommand : s7CommandAt strategy.requests.flatten offset = true := by
    rw [s7CommandAt, ← Nat.add_zero offset, hread 0 _ hversion, Nat.add_zero, hread 7 _ hprotocol,
      hread 8 _ h8, hread 17 _ h17, Option.map_some, Option.map_some, hr, hf]
    exact decide_eq_true ⟨rfl, rfl, hrosctr, hclass⟩
  rw [(offered_harmless h offset).2] at hcommand
  cases hcommand

/-- Only at its start does a stream without a second start octet read as IEC-104. -/
theorem parseApdus_of_head (h : payload.head? ≠ some Iec104.start) :
    Iec104.parseApdus payload Iec104.defaultLimit = .ok [] := by
  unfold Iec104.parseApdus Iec104.defaultLimit Iec104.apduLoop
  split
  · cases payload with
    | nil => simp at *
    | cons b rest =>
      rw [index_zero, ok_bind]
      exact if_pos fun hb => h (congrArg some hb)
  · rfl

/-- A start octet is met in the beginnings of one test frame only. -/
theorem startsAt_offered (h : offered strategy) {offset : Nat}
    (hstart : strategy.requests.flatten[offset]? = some Iec104.start) :
    strategy.requests.flatten = Iec104.buildTestfrAct ∧ offset = 0 := by
  have hall : ∀ stream ∈ [Strategy.requests (.tcpConnect {}), Strategy.requests (.modbus {}),
      Strategy.requests .iec104, Strategy.requests (.s7comm 0 2)].map List.flatten,
      stream.length ≤ 80 ∧ ∀ offset < 80, stream[offset]? = some Iec104.start →
        stream = Iec104.buildTestfrAct ∧ offset = 0 := by
    decide +kernel
  obtain ⟨hlen, hshort⟩ := hall _ (requests_offered h)
  obtain ⟨hoffset, -⟩ := List.getElem?_eq_some_iff.mp hstart
  exact hshort offset (by omega) hstart

theorem no_iec_operation (h : offered strategy) (hpiece : payload <:+: strategy.requests.flatten) :
    (value (Iec104.parseApdus payload Iec104.defaultLimit)).filterMap apduOperation = [] := by
  by_cases hhead : payload.head? = some Iec104.start
  · obtain ⟨before, after, hsplit⟩ := hpiece
    have hstart : strategy.requests.flatten[before.length]? = some Iec104.start := by
      rw [← hsplit, List.append_assoc, List.getElem?_append_right (le_refl _), Nat.sub_self,
        ← List.head?_eq_getElem?, List.head?_append, hhead, Option.some_or]
    obtain ⟨hstream, hbefore⟩ := startsAt_offered h hstart
    rw [List.length_eq_zero_iff.mp hbefore, List.nil_append, hstream] at hsplit
    -- the test frame, cut short or whole
    have hcuts : ∀ n ≤ 6, (value (Iec104.parseApdus (Iec104.buildTestfrAct.take n)
        Iec104.defaultLimit)).filterMap apduOperation = [] := by decide +kernel
    have hpayload : payload = Iec104.buildTestfrAct.take payload.length := by
      rw [← hsplit, List.take_left]
    have hlen : payload.length ≤ 6 := by
      have hsum : payload.length + after.length = 6 := by
        rw [← List.length_append, hsplit]
        rfl
      omega
    rw [hpayload]
    exact hcuts _ hlen
  · rw [parseApdus_of_head hhead]
    rfl

end Pieces

/-! ## What the monitor makes of them -/

/-- The techniques of discovery: what reaches out or enumerates, and commands nothing. -/
def Discovery (technique : String) : Prop :=
  technique = "T0846 Remote System Discovery" ∨
    technique = "T0888 Remote System Information Discovery"

theorem discovery_modbus {function : Nat} {danger : Danger} {r : Report}
    (hclass : Modbus.classifyFunction function ∉
      [Modbus.FunctionClass.write, Modbus.FunctionClass.program])
    (hf : (modbusOperation function).finding = some (danger, r)) :
    danger = .survey ∧ r = modbusReconReport function := by
  unfold modbusOperation at hf
  dsimp only at hf
  split at hf
  · rename_i hwrite
    exact absurd (by rw [hwrite]; decide) hclass
  · rename_i hprogram
    exact absurd (by rw [hprogram]; decide) hclass
  · cases hf
    exact ⟨rfl, rfl⟩
  · cases hf
  · cases hf

theorem no_s7_finding {job : S7comm.S7Job} {op : Operation} (hop : s7Operation job = some op)
    (hclass : job.rosctr = 1 → job.jobClass ∉
      [S7comm.JobClass.write, S7comm.JobClass.program, S7comm.JobClass.control]) :
    op.finding = none := by
  unfold s7Operation at hop
  split at hop
  · cases hop
  · rename_i hrosctr
    have hclass := hclass (not_not.mp hrosctr)
    cases hop
    dsimp only
    split
    · rename_i hprogram
      exact absurd (by rw [hprogram]; decide) hclass
    · rename_i hcontrol
      exact absurd (by rw [hcontrol]; decide) hclass
    · rename_i hwrite
      exact absurd (by rw [hwrite]; decide) hclass
    all_goals rfl

/-- The findings on a packet whose payload is a piece of a scan. -/
theorem discovery_of_mem_operations {strategy : Strategy} {seen : Finset (String × String)}
    {pkt : Packet} {protocol : String} {dport : Nat} (h : offered strategy)
    (hpiece : Piece strategy pkt.payload) {op : Operation}
    (hop : op ∈ operations seen pkt protocol dport) {danger : Danger} {r : Report}
    (hf : op.finding = some (danger, r)) :
    (danger = .survey ∨ danger = .presence) ∧ Discovery r.technique := by
  rcases mem_operations hop with rfl | rfl | hpay
  · cases hf
    exact ⟨.inl rfl, .inl rfl⟩
  · cases hf
    exact ⟨.inr rfl, .inl rfl⟩
  · have hinfix := hpiece.infix
    rcases mem_payloadOperations hpay with ⟨-, function, hm, rfl⟩ | ⟨hiec, -⟩ | ⟨-, -, job, hm, hs7⟩
    · obtain ⟨rfl, rfl⟩ := discovery_modbus (no_modbus_command h hinfix hm) hf
      exact ⟨.inl rfl, .inr rfl⟩
    · rw [payloadOperations, if_neg (by rw [hiec]; decide), if_pos hiec,
        no_iec_operation h hinfix] at hpay
      cases hpay
    · rw [no_s7_finding hs7 (no_s7_command h hinfix hm)] at hf
      cases hf

/-- Surveying and talking are held against a stranger, and are never critical. -/
theorem verdict_discovery {danger : Danger} {standing : Standing} {severity : Severity}
    (hd : danger = .survey ∨ danger = .presence) (hv : danger.verdict standing = some severity) :
    standing = .stranger ∧ severity ≠ .critical := by
  rcases hd with rfl | rfl <;> cases standing <;> cases hv <;> decide

/-- **A station that only scans is reported for discovery and for nothing else**: over any frames,
its own and everyone else's, in any order, when all it sends are pieces of scans. No alert about it
is critical, and there is none where it is an HMI or where no baseline is known. -/
theorem scan_is_discovery (b : Baseline) (floor : Severity)
    (source : List (Option MonitorService.Frame)) (station : String)
    (hscans : ∀ pkt ∈ MonitorService.packets source, pkt.src = some station →
      ∃ strategy, offered strategy ∧ Piece strategy pkt.payload) :
    ∃ m yielded, MonitorService.run ⟨.fresh b, floor⟩ source = .ok (m, yielded) ∧
      ∀ a ∈ yielded, a.src = station →
        Discovery a.technique ∧ a.severity ≠ .critical ∧ b.hmi ≠ ∅ ∧ station ∉ b.hmi := by
  refine ⟨_, _, MonitorService.run_eq _ _ _, fun a ha hsrc => ?_⟩
  obtain ⟨before, pkt, after, hsplit, ha⟩ := Detector.machine.mem_run (List.mem_filter.mp ha).1
  have hpkt : pkt ∈ MonitorService.packets source := by
    rw [hsplit]
    exact List.mem_append_right _ List.mem_cons_self
  obtain ⟨hpsrc, -⟩ := Detector.addresses_of_mem_react ha
    (MonitorService.packets_addressed source pkt hpkt)
  rw [hsrc] at hpsrc
  obtain ⟨strategy, h, hpiece⟩ := hscans pkt hpkt hpsrc
  obtain ⟨protocol, dport, -, op, hop, danger, r, severity, hf, hv, rfl⟩ := Detector.mem_react ha
  obtain ⟨hdanger, htechnique⟩ := discovery_of_mem_operations h hpiece hop hf
  obtain ⟨hstranger, hsevere⟩ := verdict_discovery hdanger hv
  rw [Detector.run_baseline] at hstranger
  obtain ⟨s, hs, hknown, hunauth⟩ := Detector.standing_eq_stranger.mp hstranger
  cases hpsrc.symm.trans hs
  exact ⟨htechnique, hsevere, hknown, hunauth⟩

/-- The request of a Modbus scan, from a station the baseline does not name. -/
theorem scan_is_discovery_request :
    ∃ frame m yielded, OtTraffic.encodeFrame ⟨0, OtTraffic.attacker, OtTraffic.plc, 50000, 502,
        [0, 1, 0, 0, 0, 5, 1, 0x2B, 0x0E, 0x01, 0x00], "PA"⟩ = .ok frame ∧
      MonitorService.run ⟨.fresh Detector.practiceBaseline, .medium⟩
        [none, some (0, Packet.linktypeEthernet, frame)] = .ok (m, yielded) ∧
      ∀ a ∈ yielded, a.src = OtTraffic.attacker → Discovery a.technique ∧ a.severity ≠ .critical := by
  have hplc : OtTraffic.plc = dotted 10 10 30 21 := by decide
  have hattacker : OtTraffic.attacker = dotted 10 10 30 142 := by decide
  obtain ⟨frame, pkt, henc, hdec, -, -, -, -, hpay, -⟩ := Detector.decode_encodeFrame
    (x := ⟨0, OtTraffic.attacker, OtTraffic.plc, 50000, 502,
      [0, 1, 0, 0, 0, 5, 1, 0x2B, 0x0E, 0x01, 0x00], "PA"⟩)
    hattacker hplc (by decide) (by decide) (by decide)
  obtain ⟨m, yielded, hrun, hall⟩ := scan_is_discovery Detector.practiceBaseline .medium
    [none, some (0, Packet.linktypeEthernet, frame)] OtTraffic.attacker (by
      intro p hp _
      obtain rfl : p = pkt := (List.mem_singleton.mp hp).trans hdec
      rw [hpay]
      exact ⟨.modbus {}, ⟨"modbus", true, rfl⟩, .accepted, 0, 502, [], _, .inl ⟨_, rfl⟩, by decide⟩)
  exact ⟨frame, m, yielded, henc, hrun, fun a ha hsrc =>
    ⟨(hall a ha hsrc).1, (hall a ha hsrc).2.1⟩⟩

end Pyscan.OtDetect
