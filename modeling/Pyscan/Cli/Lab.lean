import Pyscan.Adapters.PcapWriter
import Pyscan.Cli.Monitor
import Pyscan.Domain.Coverage

/-!
# The lab

Exchanges are encoded as frames and written to a capture, which `monitor`
replays. On the way nothing is lost: **every command an unauthorised station
sends to a protected device has its line in the report** (`commands_reported`);
and nothing is gained: **no frame can forge a line of it** (`monitor_report`).
-/

namespace Pyscan.Cli

open Py OtDetect PcapReader PcapWriter IncidentReport OtTraffic

/-- What the encoder and the writer take: dotted quads, ports, a payload that fits, a time that does. -/
structure OnWire (x : Exchange) : Prop where
  src : ∃ a b c d, x.src = dotted a b c d
  dst : ∃ a b c d, x.dst = dotted a b c d
  sport : x.sport < 65536
  dport : x.dport < 65536
  payload : x.payload.length ≤ 65495
  epoch : 0 ≤ x.ts
  seconds : ticks x.ts < 2 ^ 32 * 10 ^ 6

/-- `[(x.ts, encode_frame(x)) for x in exchanges]`. -/
def encodeFrames (exchanges : List Exchange) : Result (List (ℚ × Bytes)) :=
  exchanges.mapM fun x => do .ok (x.ts, ← encodeFrame x)

theorem length_packH {n : Nat} {b : Bytes} (h : packH n = .ok b) : b.length = 2 := by
  rw [(packH_inv h).2, length_be16]

theorem length_tcp {x : Exchange} {segment : Bytes} (h : tcp x = .ok segment) :
    segment.length ≤ 40 + x.payload.length := by
  obtain ⟨sport, hsport, h⟩ := bind_inv h
  obtain ⟨dport, hdport, h⟩ := bind_inv h
  obtain ⟨pseudo, -, h⟩ := bind_inv h
  obtain ⟨check, -, h⟩ := bind_inv h
  obtain ⟨sum, hsum, h⟩ := bind_inv h
  obtain rfl := Except.ok.inj h
  have h2 := length_packH hsport
  have h2' := length_packH hdport
  have hs := length_packH hsum
  simp only [List.length_append, List.length_take, List.length_drop, List.length_cons,
    List.length_nil, length_be16, be32]
  omega

theorem length_ipv4 {src dst : String} {segment header : Bytes}
    (h : ipv4 src dst segment = .ok header) : header.length ≤ 22 := by
  obtain ⟨s, -, h⟩ := bind_inv h
  obtain ⟨d, -, h⟩ := bind_inv h
  obtain ⟨total, htotal, h⟩ := bind_inv h
  obtain ⟨check, -, h⟩ := bind_inv h
  obtain ⟨sum, hsum, h⟩ := bind_inv h
  obtain rfl := Except.ok.inj h
  have ht := length_packH htotal
  have hs := length_packH hsum
  simp only [List.length_append, List.length_take, List.length_drop, List.length_cons,
    List.length_nil, length_be16, field4s]
  omega

theorem length_encodeFrame {x : Exchange} (hx : OnWire x) {frame : Bytes}
    (h : encodeFrame x = .ok frame) : frame.length ≤ maxBlock := by
  obtain ⟨a, b, c, d, hsrc⟩ := hx.src
  obtain ⟨a', b', c', d', hdst⟩ := hx.dst
  obtain ⟨segment, hsegment, h⟩ := bind_inv h
  obtain ⟨header, hheader, h⟩ := bind_inv h
  rw [hsrc, hdst, mac_dotted, ok_bind, mac_dotted, ok_bind] at h
  obtain rfl := Except.ok.inj h
  have hs := length_tcp hsegment
  have hh := length_ipv4 hheader
  have hp := hx.payload
  simp only [List.length_append, List.length_cons, List.length_nil, length_be16, maxBlock]
  omega

/-! ## From exchanges to a report -/

/-- The packet that an exchange arrives as. -/
structure Arrives (x : Exchange) (ts : ℚ) (pkt : Packet) : Prop where
  protocol : pkt.protocol = "TCP"
  src : pkt.src = some x.src
  dst : pkt.dst = some x.dst
  dport : pkt.dport = some x.dport
  payload : pkt.payload = x.payload
  ts : pkt.ts = ts

/-- What a frame of an exchange decodes to, at any time. -/
theorem decode_frame {x : Exchange} (hx : OnWire x) (ts : ℚ) :
    ∃ frame, encodeFrame x = .ok frame ∧
      Arrives x ts (Packet.decode frame Packet.linktypeEthernet ts) := by
  obtain ⟨a, b, c, d, hsrc⟩ := hx.src
  obtain ⟨a', b', c', d', hdst⟩ := hx.dst
  obtain ⟨frame, pkt, hframe, hdecode, htcp, hs, hd, hport, hpayload, hts, -⟩ :=
    Detector.decode_encodeFrame (x := { x with ts := ts }) hsrc hdst hx.sport hx.dport hx.payload
  exact ⟨frame, hframe, hdecode ▸ ⟨htcp, hs, hd, hport, hpayload, hts⟩⟩

/-- The frames of exchanges fit a capture. -/
theorem encodeFrames_ok {exchanges : List Exchange} (h : ∀ x ∈ exchanges, OnWire x) :
    ∃ frames, encodeFrames exchanges = .ok frames ∧ frames.length = exchanges.length ∧
      (∀ x ∈ exchanges, ∃ frame, encodeFrame x = .ok frame ∧ (x.ts, frame) ∈ frames) ∧
      ∀ r ∈ frames, ∃ x ∈ exchanges, x.ts = r.1 ∧ encodeFrame x = .ok r.2 := by
  induction exchanges with
  | nil => exact ⟨[], rfl, rfl, nofun, nofun⟩
  | cons x exchanges ih =>
    obtain ⟨hx, hrest⟩ := List.forall_mem_cons.mp h
    obtain ⟨frames, hframes, hlength, hto, hfrom⟩ := ih hrest
    obtain ⟨frame, hframe, -⟩ := decode_frame hx 0
    refine ⟨(x.ts, frame) :: frames, ?_, congrArg Nat.succ hlength, ?_, ?_⟩
    · rw [encodeFrames, List.mapM_cons, hframe]
      show (do
        let rest ← encodeFrames exchanges
        pure ((x.ts, frame) :: rest)) = _
      rw [hframes]
      rfl
    · refine List.forall_mem_cons.mpr ⟨⟨frame, hframe, List.mem_cons_self⟩, fun y hy => ?_⟩
      obtain ⟨frame', hframe', hmem⟩ := hto y hy
      exact ⟨frame', hframe', List.mem_cons_of_mem _ hmem⟩
    · refine List.forall_mem_cons.mpr ⟨⟨x, List.mem_cons_self, rfl, hframe⟩, fun r hr => ?_⟩
      obtain ⟨y, hy, hts, henc⟩ := hfrom r hr
      exact ⟨y, List.mem_cons_of_mem _ hy, hts, henc⟩

/-- A command among the packets of a run raises a critical alert. -/
theorem command_alert {b : Baseline} {pkts : List Packet} {pkt : Packet} {dport : Nat}
    (hpkt : pkt ∈ pkts) (h : Detector.Intrusion b pkt dport) (hcmd : OneCommand dport pkt.payload) :
    ∃ a ∈ (Detector.machine.run (.fresh b) pkts).2,
      a.severity = .critical ∧ a.src = str pkt.src ∧ a.dst = str pkt.dst ∧ a.ts = pkt.ts := by
  obtain ⟨before, after, rfl⟩ := List.append_of_mem hpkt
  obtain ⟨protocol, hot, hne, op, r, hops, hf⟩ := payloadOperations_oneCommand hcmd
  obtain ⟨d, hd⟩ : ∃ d, d = (Detector.machine.run (.fresh b) before).1 := ⟨_, rfl⟩
  have hbaseline : d.baseline = b := hd ▸ Detector.run_baseline _ _
  rw [← hbaseline] at h
  have hreact := h.react_one hot hne hops hf
  refine ⟨raise pkt r .critical, ?_, rfl, rfl, rfl, rfl⟩
  rw [Detector.machine.run_append, Detector.machine.run_cons, ← hd]
  refine List.mem_append_right _ (List.mem_append_left _ ?_)
  show _ ∈ (d.react pkt).2
  rw [hreact]
  exact List.mem_append_right _ List.mem_cons_self

/-- The capture of exchanges: no record is lost, each exchange has its packet, each packet its
exchange and a clock. -/
theorem capture_ok {exchanges : List Exchange} (h : ∀ x ∈ exchanges, OnWire x) :
    ∃ frames contents pkts, encodeFrames exchanges = .ok frames ∧
      writePcap frames Packet.linktypeEthernet = .ok (contents, frames.length) ∧
      (readPcap contents).error = none ∧
      MonitorService.packets ((readPcap contents).items.map some) = pkts ∧
      pkts.length = exchanges.length ∧ (∀ pkt ∈ pkts, ClocksReturn pkt.ts) ∧
      (∀ x ∈ exchanges, ∃ pkt ∈ pkts, Arrives x (ticks x.ts / 10 ^ 6) pkt) ∧
      ∀ pkt ∈ pkts, ∃ x ∈ exchanges, Arrives x (ticks x.ts / 10 ^ 6) pkt := by
  obtain ⟨frames, hframes, hlength, hto, hfrom⟩ := encodeFrames_ok h
  have hwritable : ∀ r ∈ frames, Writable r := by
    intro r hr
    obtain ⟨x, hx, hts, henc⟩ := hfrom r hr
    rw [← Prod.mk.eta (p := r), ← hts]
    exact ⟨(h x hx).epoch, (h x hx).seconds, length_encodeFrame (h x hx) henc⟩
  obtain ⟨contents, hwrite, hread⟩ := read_writePcap (show Packet.linktypeEthernet < 2 ^ 32 by decide) hwritable
  have hpackets : MonitorService.packets ((readPcap contents).items.map some) =
      frames.map fun r => Packet.decode r.2 Packet.linktypeEthernet (ticks r.1 / 10 ^ 6) := by
    rw [hread, MonitorService.packets_map_some, List.map_map]
    rfl
  refine ⟨frames, contents, _, hframes, hwrite, by rw [hread], hpackets, ?_, ?_, fun x hx => ?_, ?_⟩
  · rw [List.length_map, hlength]
  · rintro pkt hpkt
    obtain ⟨r, hr, rfl⟩ := List.mem_map.mp hpkt
    rw [(Packet.decode_stamps _ _ _).1]
    exact clocksReturn_readBack (hwritable r hr)
  · obtain ⟨frame, hframe, hmem⟩ := hto x hx
    obtain ⟨frame', hframe', harrives⟩ := decode_frame (h x hx) (ticks x.ts / 10 ^ 6)
    obtain rfl := Except.ok.inj (hframe'.symm.trans hframe)
    exact ⟨_, List.mem_map.mpr ⟨(x.ts, frame'), hmem, rfl⟩, harrives⟩
  · rintro pkt hpkt
    obtain ⟨⟨ts, frame⟩, hr, rfl⟩ := List.mem_map.mp hpkt
    obtain ⟨x, hx, rfl, henc⟩ := hfrom _ hr
    obtain ⟨frame', hframe', harrives⟩ := decode_frame (h x hx) (ticks x.ts / 10 ^ 6)
    obtain rfl := Except.ok.inj (hframe'.symm.trans henc)
    exact ⟨x, hx, harrives⟩

/-- A command that reaches a session which ends in a report. -/
theorem command_line {contents : Bytes} {hmi plc text : String} {floor : Severity} {now : Datetime}
    {d : Detector} {pkts : List Packet} {pkt : Packet} {x : Exchange} {ts : ℚ}
    (hclosed : (monitor contents hmi plc floor now).closed = .ok (d, text))
    (hpackets : MonitorService.packets ((readPcap contents).items.map some) = pkts)
    (hpkt : pkt ∈ pkts) (harrives : Arrives x ts pkt) (hcmd : OneCommand x.dport x.payload)
    (hhmi : (Baseline.of (.text hmi) (.text plc)).hmi ≠ ∅)
    (hsrc : x.src ∉ (Baseline.of (.text hmi) (.text plc)).hmi)
    (hplc : (Baseline.of (.text hmi) (.text plc)).plcs = ∅ ∨
      x.dst ∈ (Baseline.of (.text hmi) (.text plc)).plcs) :
    x.src ∈ d.hostileSources ∧
      ∃ shown ∈ (monitor contents hmi plc floor now).shown,
        shown.1.severity = .critical ∧ shown.1.src = x.src ∧ shown.1.dst = x.dst ∧
        shown.1.ts = ts ∧ timelineLine shown.2 ∈ split text '\n' := by
  obtain ⟨heq, -⟩ := closed_eq hclosed
  obtain ⟨hd, hshown⟩ := Prod.mk.inj heq
  rw [hpackets] at hd hshown
  have hintrusion : Detector.Intrusion (.of (.text hmi) (.text plc)) pkt x.dport :=
    ⟨harrives.protocol, harrives.dport, ⟨x.dst, harrives.dst, hplc⟩, ⟨x.src, harrives.src, hhmi, hsrc⟩⟩
  obtain ⟨a, ha, hcritical, hasrc, hadst, hats⟩ :=
    command_alert hpkt hintrusion (harrives.payload ▸ hcmd)
  rw [harrives.src] at hasrc
  rw [harrives.dst] at hadst
  rw [harrives.ts] at hats
  have haddressed : ∀ pkt ∈ pkts, pkt.Addressed := hpackets ▸ MonitorService.packets_addressed _
  refine ⟨?_, ?_⟩
  · rw [hd]
    exact ((Detector.accounted_run _ haddressed).hostile x.src).mpr
      ⟨a, ha, by rw [hcritical]; decide, hasrc, hhmi, hsrc⟩
  · have hkept : a ∈ (monitor contents hmi plc floor now).shown.map Prod.fst := by
      rw [hshown]
      -- no floor is above critical
      refine List.mem_filter.mpr ⟨ha, ?_⟩
      rw [hcritical]
      cases floor <;> rfl
    obtain ⟨shown, hin, rfl⟩ := List.mem_map.mp hkept
    refine ⟨shown, hin, hcritical, hasrc, hadst, hats, ?_⟩
    rw [(lines_closed hclosed).2]
    exact List.mem_append_left _ (List.mem_append_left _ (List.mem_append_right _
      (mem_timelineLines (List.mem_map_of_mem hin))))

/-! ## The practice capture -/

theorem ticks_lt {ts : ℚ} (h : ts ≤ 4000000000) : ticks ts < 2 ^ 32 * 10 ^ 6 := by
  have hle := ticks_mono h
  rw [ticks, ticks, show (4000000000 : ℚ) * 10 ^ 6 = ((4000000000 * 10 ^ 6 : ℤ) : ℚ) by norm_num,
    Rounding.roundHalfEven_intCast] at hle
  exact lt_of_le_of_lt hle (by norm_num)

/-- A message that the encoder takes, soon after the one before it. -/
@[mk_iff] structure Sendable (m : ℚ × Message) : Prop where
  later : 0 ≤ m.1
  soon : m.1 ≤ 1
  src : m.2.1 ∈ [hmi, plc, rtu, attacker]
  dst : m.2.2.1 ∈ [hmi, plc, rtu, attacker]
  sport : m.2.2.2.1 < 65536
  dport : m.2.2.2.2.1 < 65536
  payload : m.2.2.2.2.2.1.length ≤ 65495

instance : DecidablePred Sendable := fun m => decidable_of_iff' _ (sendable_iff m)

theorem onWire_onClock {messages : List (ℚ × Message)} (h : ∀ m ∈ messages, Sendable m) {start : ℚ}
    (h0 : 0 ≤ start) {n : ℕ} (hn : start ≤ n) (hend : n + messages.length ≤ 4000000000) :
    ∀ x ∈ onClock start messages, OnWire x := by
  induction messages generalizing start n with
  | nil => exact fun x hx => by cases hx
  | cons m messages ih =>
    obtain ⟨hm, hrest⟩ := List.forall_mem_cons.mp h
    have hstation : ∀ s ∈ [hmi, plc, rtu, attacker], ∃ a b c d, s = dotted a b c d := by
      simp only [List.forall_mem_cons]
      exact ⟨⟨10, 10, 30, 10, by decide⟩, ⟨10, 10, 30, 21, by decide⟩, ⟨10, 10, 40, 7, by decide⟩,
        ⟨10, 10, 30, 142, by decide⟩, fun s hs => by cases hs⟩
    rw [List.length_cons] at hend
    -- whole seconds are floats, so no rounding passes one
    have hone : binary64.float m.1 ≤ 1 := by
      have hmono := binary64_mono hm.later hm.soon
      rwa [show (1 : ℚ) = (1 : ℕ) by norm_num, binary64_natCast (by norm_num)] at hmono
    have hdelta : 0 ≤ binary64.float m.1 := binary64_nonneg hm.later
    obtain ⟨now, hnow⟩ : ∃ now, now = @fadd binary64 start (binary64.float m.1) := ⟨_, rfl⟩
    have hnow0 : 0 ≤ now := hnow ▸ binary64_nonneg (add_nonneg h0 hdelta)
    have hnow1 : now ≤ (n + 1 : ℕ) := by
      have hsum : start + binary64.float m.1 ≤ (n + 1 : ℕ) := by
        push_cast
        linarith
      have hmono := binary64_mono (add_nonneg h0 hdelta) hsum
      rw [binary64_natCast (by omega)] at hmono
      exact hnow ▸ hmono
    have hlate : now ≤ 4000000000 := hnow1.trans (by exact_mod_cast (by omega : n + 1 ≤ 4000000000))
    show ∀ x ∈ (⟨@fadd binary64 start (binary64.float m.1), _, _, _, _, _, _⟩ : Exchange) ::
      onClock _ messages, OnWire x
    rw [← hnow]
    exact List.forall_mem_cons.mpr ⟨⟨hstation _ hm.src, hstation _ hm.dst, hm.sport, hm.dport,
      hm.payload, hnow0, ticks_lt hlate⟩, ih hrest hnow0 hnow1 (by omega)⟩

theorem length_onClock (messages : List (ℚ × Message)) (start : ℚ) :
    (onClock start messages).length = messages.length := by
  induction messages generalizing start with
  | nil => rfl
  | cons m messages ih => exact congrArg Nat.succ (ih _)

/-- A message of the scenario is sent. -/
theorem exists_onClock {messages : List (ℚ × Message)} {delta : ℚ} {src dst : String}
    {sport dport : Nat} {payload : Bytes} {flags : String}
    (h : (delta, src, dst, sport, dport, payload, flags) ∈ messages) (start : ℚ) :
    ∃ ts, ⟨ts, src, dst, sport, dport, payload, flags⟩ ∈ onClock start messages := by
  induction messages generalizing start with
  | nil => cases h
  | cons m messages ih =>
    rcases List.mem_cons.mp h with rfl | h
    · exact ⟨_, List.mem_cons_self⟩
    · obtain ⟨ts, hts⟩ := ih h (@fadd binary64 start (binary64.float m.1))
      exact ⟨ts, List.mem_cons_of_mem _ hts⟩

/-- The request that moves the setpoint. -/
def setpoint : Bytes := [0x00, 0x00, 0x00, 0x00, 0x00, 0x06, 0x01, 0x06, 0x00, 0x09, 0x00, 0xFA]

theorem setpoint_adu : ∃ adu : Adu, setpoint = adu.bytes ∧ adu.code = 0x06 :=
  ⟨{ unit := 1
     tid := 0
     code := 0x06
     data := [0x00, 0x09, 0x00, 0xFA]
     request := by decide
     short := by decide
     bytes := setpoint
     encoded := rfl }, rfl, rfl⟩

theorem setpoint_command : OneCommand 502 setpoint := by
  obtain ⟨adu, hbytes, hcode⟩ := setpoint_adu
  exact .inl ⟨rfl, adu, hbytes, by rw [isWrite, hcode]; decide⟩

theorem scenario_ok :
    ∃ messages, scenario = .ok messages ∧ messages.length = 22 ∧ (∀ m ∈ messages, Sendable m) ∧
      (0.9, attacker, plc, 50412, 502, setpoint, "PA") ∈ messages :=
  ⟨_, rfl, rfl, by decide +kernel, by decide +kernel⟩

/-- The scenario fits a capture, whenever it starts. -/
theorem buildScenario_ok {start : ℚ} (h0 : 0 ≤ start) (h : start ≤ 3999999900) :
    ∃ exchanges, buildScenario start = .ok exchanges ∧ exchanges.length = 22 ∧
      (∀ x ∈ exchanges, OnWire x) ∧ ∃ ts, ⟨ts, attacker, plc, 50412, 502, setpoint, "PA"⟩ ∈ exchanges := by
  obtain ⟨messages, hmessages, hlength, hsendable, hsetpoint⟩ := scenario_ok
  have hstart : start ≤ (3999999900 : ℕ) := by exact_mod_cast h
  refine ⟨onClock start messages, ?_, ?_, onWire_onClock hsendable h0 hstart (by omega),
    exists_onClock hsetpoint start⟩
  · rw [buildScenario, hmessages]
    rfl
  · rw [length_onClock, hlength]

/-- The file that `lab` writes. -/
def LabCapture (contents : Bytes) : Prop :=
  ∃ exchanges frames, buildScenario 1700000000 = .ok exchanges ∧ encodeFrames exchanges = .ok frames ∧
    writePcap frames Packet.linktypeEthernet = .ok (contents, 22)

/-- The practice capture is read back to its 22 packets, and the setpoint is moved in one of them. -/
theorem exists_labCapture :
    ∃ contents pkts, LabCapture contents ∧ (readPcap contents).error = none ∧
      MonitorService.packets ((readPcap contents).items.map some) = pkts ∧ pkts.length = 22 ∧
      (∀ pkt ∈ pkts, pkt.protocol = "TCP" ∧ ClocksReturn pkt.ts) ∧
      ∃ pkt ∈ pkts, ∃ sent ts, Arrives ⟨sent, attacker, plc, 50412, 502, setpoint, "PA"⟩ ts pkt := by
  obtain ⟨exchanges, hscenario, hlength, hwire, ts, hsetpoint⟩ :=
    buildScenario_ok (show (0 : ℚ) ≤ 1700000000 by norm_num) (by norm_num)
  obtain ⟨frames, contents, pkts, hframes, hwrite, hread, hpackets, hcount, hclocks, hto, hfrom⟩ :=
    capture_ok hwire
  obtain ⟨frames', hframes', hframesLength, -⟩ := encodeFrames_ok hwire
  obtain rfl := Except.ok.inj (hframes.symm.trans hframes')
  rw [hframesLength, hlength] at hwrite
  refine ⟨contents, pkts, ⟨exchanges, frames, hscenario, hframes, hwrite⟩, hread, hpackets,
    hcount.trans hlength, fun pkt hpkt => ⟨?_, hclocks pkt hpkt⟩, ?_⟩
  · obtain ⟨x, -, harrives⟩ := hfrom pkt hpkt
    exact harrives.protocol
  · obtain ⟨pkt, hpkt, harrives⟩ := hto _ hsetpoint
    exact ⟨pkt, hpkt, ts, _, harrives⟩

/-- `monitor` on a capture, for the stations of the lab. -/
abbrev labMonitor (contents : Bytes) : Session :=
  monitor contents "10.10.30.10" "10.10.30.21,10.10.40.7" .medium ⟨2024, 1, 2, 3, 4, 5⟩

/-- The practice capture is reported on, the move of the setpoint among the rest. -/
theorem exists_labReport :
    ∃ contents d text, LabCapture contents ∧ (labMonitor contents).closed = .ok (d, text) ∧
      attacker ∈ d.hostileSources ∧
      ∃ shown ∈ (labMonitor contents).shown, shown.1.severity = .critical ∧ shown.1.src = attacker ∧
        shown.1.dst = plc ∧ timelineLine shown.2 ∈ split text '\n' := by
  obtain ⟨contents, pkts, hlab, hread, hpackets, -, hpkts, pkt, hpkt, sent, ts, harrives⟩ :=
    exists_labCapture
  obtain ⟨d, text, hclosed⟩ := closed_ok "10.10.30.10" "10.10.30.21,10.10.40.7" .medium
    ⟨2024, 1, 2, 3, 4, 5⟩ hread hpackets fun pkt hpkt => (hpkts pkt hpkt).2
  obtain ⟨hhostile, shown, hin, hcritical, hsrc, hdst, -, hline⟩ := command_line hclosed hpackets hpkt
    harrives setpoint_command (by decide) (show attacker ∉ _ by decide)
    (.inr (show plc ∈ _ by decide))
  exact ⟨contents, d, text, hlab, hclosed, hhostile, shown, hin, hcritical, hsrc, hdst, hline⟩

/-! ## The report -/

/-- **Every command has its line.** Exchanges on the wire are encoded, written and replayed, and the
run ends in a report; for each exchange that carries one command from an unauthorised source to a
protected destination the source is listed, and a critical alert is shown whose line the report has. -/
theorem commands_reported {exchanges : List Exchange} (h : ∀ x ∈ exchanges, OnWire x)
    (hmi plc : String) (floor : Severity) (now : Datetime) :
    ∃ frames contents d text, encodeFrames exchanges = .ok frames ∧
      writePcap frames Packet.linktypeEthernet = .ok (contents, frames.length) ∧
      (monitor contents hmi plc floor now).closed = .ok (d, text) ∧
      ∀ x ∈ exchanges, OneCommand x.dport x.payload →
        (Baseline.of (.text hmi) (.text plc)).hmi ≠ ∅ →
        x.src ∉ (Baseline.of (.text hmi) (.text plc)).hmi →
        ((Baseline.of (.text hmi) (.text plc)).plcs = ∅ ∨
          x.dst ∈ (Baseline.of (.text hmi) (.text plc)).plcs) →
        x.src ∈ d.hostileSources ∧
          ∃ shown ∈ (monitor contents hmi plc floor now).shown,
            shown.1.severity = .critical ∧ shown.1.src = x.src ∧ shown.1.dst = x.dst ∧
            |shown.1.ts - x.ts| ≤ 1 / 2 * (1 / 10 ^ 6) ∧
            timelineLine shown.2 ∈ split text '\n' := by
  obtain ⟨frames, contents, pkts, hframes, hwrite, hread, hpackets, -, hts, hto, -⟩ := capture_ok h
  obtain ⟨d, text, hclosed⟩ := closed_ok hmi plc floor now hread hpackets hts
  refine ⟨frames, contents, d, text, hframes, hwrite, hclosed, fun x hx hcmd hhmi hsrc hplc => ?_⟩
  obtain ⟨pkt, hpkt, harrives⟩ := hto x hx
  obtain ⟨hhostile, shown, hin, hcritical, hssrc, hsdst, hsts, hline⟩ :=
    command_line hclosed hpackets hpkt harrives hcmd hhmi hsrc hplc
  exact ⟨hhostile, shown, hin, hcritical, hssrc, hsdst, hsts ▸ abs_ticks_le x.ts, hline⟩

theorem commands_reported_scenario :
    ∃ exchanges frames contents d text, buildScenario 1700000000 = .ok exchanges ∧
      encodeFrames exchanges = .ok frames ∧
      writePcap frames Packet.linktypeEthernet = .ok (contents, frames.length) ∧
      (monitor contents "10.10.30.10" "10.10.30.21,10.10.40.7" .medium ⟨2024, 1, 2, 3, 4, 5⟩).closed =
        .ok (d, text) ∧
      attacker ∈ d.hostileSources := by
  obtain ⟨exchanges, hscenario, -, hwire, ts, hsetpoint⟩ :=
    buildScenario_ok (show (0 : ℚ) ≤ 1700000000 by norm_num) (by norm_num)
  obtain ⟨frames, contents, d, text, hframes, hwrite, hclosed, hall⟩ := commands_reported hwire
    "10.10.30.10" "10.10.30.21,10.10.40.7" .medium ⟨2024, 1, 2, 3, 4, 5⟩
  obtain ⟨hhostile, -⟩ := hall _ hsetpoint setpoint_command (by decide)
    (show attacker ∉ _ by decide) (.inr (show plc ∈ _ by decide))
  exact ⟨exchanges, frames, contents, d, text, hscenario, hframes, hwrite, hclosed, hhostile⟩

/-- **No frame can forge a line of the report.** A report that is written has the lines of its
template and, in the timeline, one for each alert the service yields; and nothing it quotes opens a
code span, a tag or an escape. -/
theorem monitor_report [Floats] (hmi plc : String) (floor : Severity) (now : Datetime) {contents : Bytes}
    {d : Detector} {text : String}
    (h : (monitor contents hmi plc floor now).closed = .ok (d, text)) :
    split text '\n' = headLines d now ++
        timelineLines ((monitor contents hmi plc floor now).shown.map Prod.snd) ++ tailLines ++ [""] ∧
      MonitorService.run ⟨.fresh (.of (.text hmi) (.text plc)), floor⟩
          ((readPcap contents).items.map some) =
        .ok (⟨d, floor⟩, (monitor contents hmi plc floor now).shown.map Prod.fst) ∧
      (∀ shown ∈ (monitor contents hmi plc floor now).shown, PlainEntry shown.2) ∧
      Plain (listed d.hostileSources) ∧ Plain (listed d.observedOperations) := by
  obtain ⟨hplain, hlines⟩ := lines_closed h
  obtain ⟨heq, -⟩ := closed_eq h
  obtain ⟨hd, hshown⟩ := Prod.mk.inj heq
  refine ⟨hlines, ?_, plain_shown hmi plc floor now contents, plain_listed hplain.sources,
    plain_listed hplain.operations⟩
  rw [MonitorService.run_eq, hd, hshown]

theorem monitor_report_lab :
    ∃ contents d text, LabCapture contents ∧ (labMonitor contents).closed = .ok (d, text) ∧
      split text '\n' = headLines d ⟨2024, 1, 2, 3, 4, 5⟩ ++
        timelineLines ((labMonitor contents).shown.map Prod.snd) ++ tailLines ++ [""] ∧
      attacker ∈ d.hostileSources ∧ Plain (listed d.hostileSources) ∧
      ∃ shown ∈ (labMonitor contents).shown, shown.1.severity = .critical ∧ shown.1.src = attacker ∧
        PlainEntry shown.2 ∧ timelineLine shown.2 ∈ split text '\n' := by
  obtain ⟨contents, d, text, hlab, hclosed, hhostile, shown, hin, hcritical, hsrc, -, hline⟩ :=
    exists_labReport
  obtain ⟨hlines, -, hentries, hsources, -⟩ := monitor_report _ _ _ _ hclosed
  exact ⟨contents, d, text, hlab, hclosed, hlines, hhostile, hsources, shown, hin, hcritical, hsrc,
    hentries shown hin, hline⟩

end Pyscan.Cli
