import Pyscan.Adapters.CaptureCut
import Pyscan.Adapters.IncidentReport
import Pyscan.Adapters.PcapWriter
import Pyscan.Application.MonitorService
import Pyscan.Domain.Spelling

/-!
# The `monitor` command

`monitor` replays a capture file: each alert is printed under its clock and
entered in the timeline, and the incident report is written when the run ends.
**A file cut anywhere is replayed as far as it goes** (`monitor_cut`); and what a
report quotes is plain (`lines_closed`). Both hold of any `Floats`.
-/

namespace Pyscan

open Py OtDetect PcapReader PcapWriter Framed IncidentReport

namespace Cli

/-- What the timeline says of an alert. -/
def detail (alert : Alert) : String :=
  alert.protocol ++ " " ++ alert.src ++ " -> " ++ alert.dst ++ ": " ++ alert.summary

/-- The body of the loop of `monitor`: the console prints the alert, then it is entered. -/
def enter (alert : Alert) : Read TimelineEntry := do
  let _ ← call (AlertConsole.clock alert.ts)
  let time ← call (Cli.clock alert.ts)
  .ok (time, alert.severity.value, detail alert)

/-- The loop over the alerts, each with its entry, until a clock raises. -/
def watch : List Alert → Outcome Raised (Alert × TimelineEntry)
  | [] => ⟨[], none⟩
  | alert :: alerts =>
    match enter alert with
    | .error e => ⟨[], some e⟩
    | .ok entry => (watch alerts).prepend [(alert, entry)]

/-- What a run of `monitor` leaves behind. -/
structure Session where
  shown : List (Alert × TimelineEntry)
  /-- the exception, or the detector of the summary and the report -/
  closed : Read (Detector × String)

def monitor [Floats] (contents : Bytes) (hmi plc : String) (floor : Severity) (now : Datetime) : Session :=
  let capture := readPcap contents
  match MonitorService.run ⟨.fresh (.of (.text hmi) (.text plc)), floor⟩ (capture.items.map some) with
  | .error kind => ⟨[], .error ⟨kind, none⟩⟩
  | .ok (service, alerts) =>
    let loop := watch alerts
    -- the alerts of the records before an exception of the reader come before it
    ⟨loop.items, match loop.error.or capture.error with
      | some e => .error e
      | none => .ok (service.detector,
          buildReport service.detector (loop.items.map Prod.snd) now)⟩

/-! ## The loop -/

theorem watch_append (xs ys : List Alert) : (watch xs).items <+: (watch (xs ++ ys)).items := by
  induction xs with
  | nil => exact List.nil_prefix
  | cons alert xs ih =>
    rw [List.cons_append, watch, watch]
    cases enter alert with
    | error e => exact List.nil_prefix
    | ok entry => exact List.cons_prefix_cons.mpr ⟨rfl, ih⟩

theorem mem_watch {alerts : List Alert} {alert : Alert} {entry : TimelineEntry}
    (h : (alert, entry) ∈ (watch alerts).items) : alert ∈ alerts ∧ enter alert = .ok entry := by
  induction alerts with
  | nil => cases h
  | cons a alerts ih =>
    rw [watch] at h
    cases henter : enter a with
    | error e =>
      rw [henter] at h
      cases h
    | ok e =>
      rw [henter] at h
      rcases List.mem_cons.mp h with h | h
      · cases h
        exact ⟨List.mem_cons_self, henter⟩
      · exact ⟨List.mem_cons_of_mem _ (ih h).1, (ih h).2⟩

/-- A loop that no clock ends shows every alert. -/
theorem map_fst_watch {alerts : List Alert} (h : (watch alerts).error = none) :
    (watch alerts).items.map Prod.fst = alerts := by
  induction alerts with
  | nil => rfl
  | cons a alerts ih =>
    rw [watch] at h ⊢
    cases henter : enter a with
    | error e =>
      rw [henter] at h
      cases h
    | ok e =>
      rw [henter] at h
      exact congrArg (a :: ·) (ih h)

theorem enter_ok {alert : Alert} (h : ClocksReturn alert.ts) : ∃ entry, enter alert = .ok entry := by
  obtain ⟨⟨s, hs⟩, t, ht⟩ := h
  exact ⟨(t, alert.severity.value, detail alert), by rw [enter, hs, ht]; rfl⟩

theorem watch_ok {alerts : List Alert} (h : ∀ alert ∈ alerts, ClocksReturn alert.ts) :
    (watch alerts).error = none := by
  induction alerts with
  | nil => rfl
  | cons alert alerts ih =>
    obtain ⟨halert, hrest⟩ := List.forall_mem_cons.mp h
    obtain ⟨entry, hentry⟩ := enter_ok halert
    rw [watch, hentry]
    exact ih hrest

variable (hmi plc : String) (floor : Severity) (now : Datetime)

theorem monitor_eq [Floats] (contents : Bytes) {r : Detector × List Alert}
    {loop : Outcome Raised (Alert × TimelineEntry)}
    (hr : r = Detector.machine.run (.fresh (.of (.text hmi) (.text plc)))
      (MonitorService.packets ((readPcap contents).items.map some)))
    (hloop : loop = watch (r.2.filter fun alert => atLeast alert.severity floor)) :
    monitor contents hmi plc floor now = ⟨loop.items, match loop.error.or (readPcap contents).error with
      | some e => .error e
      | none => .ok (r.1, buildReport r.1 (loop.items.map Prod.snd) now)⟩ := by
  subst hloop
  rw [monitor, MonitorService.run_eq, ← hr]

theorem shown_monitor [Floats] (contents : Bytes) :
    (monitor contents hmi plc floor now).shown =
      (watch ((Detector.machine.run (.fresh (.of (.text hmi) (.text plc)))
        (MonitorService.packets ((readPcap contents).items.map some))).2.filter fun alert =>
          atLeast alert.severity floor)).items := by
  rw [monitor_eq hmi plc floor now contents rfl rfl]

/-- An alert has the time of its packet. -/
theorem exists_packet {d : Detector} {pkts : List Packet} {alert : Alert}
    (h : alert ∈ (Detector.machine.run d pkts).2) : ∃ pkt ∈ pkts, alert.ts = pkt.ts := by
  obtain ⟨before, pkt, after, rfl, ha⟩ := Detector.machine.mem_run h
  obtain ⟨-, -, -, -, -, -, -, -, -, -, rfl⟩ := Detector.mem_react ha
  exact ⟨pkt, List.mem_append_right _ List.mem_cons_self, rfl⟩

theorem decode_ts (r : Record) : (MonitorService.Frame.decode r).ts = r.1 :=
  (Packet.decode_stamps _ _ _).1

/-- **A capture cut anywhere is replayed as far as it goes**, whatever the file holds: the alerts shown,
and the timeline, are the first of those of the whole capture; and they are those the service yields
on the records that end before the cut, each of them where those records have clocks. -/
theorem monitor_cut [Floats] (a b : Bytes) (now' : Datetime) :
    (monitor a hmi plc floor now).shown <+: (monitor (a ++ b) hmi plc floor now').shown ∧
      ∃ service alerts, MonitorService.run ⟨.fresh (.of (.text hmi) (.text plc)), floor⟩
          ((recordsWithin a.length (a ++ b)).map some) = .ok (service, alerts) ∧
        (monitor a hmi plc floor now).shown = (watch alerts).items ∧
        ((∀ r ∈ recordsWithin a.length (a ++ b), ClocksReturn r.1) →
          (monitor a hmi plc floor now).shown.map Prod.fst = alerts) := by
  have hshown := shown_monitor hmi plc floor now a
  rw [readPcap_cut a b] at hshown
  refine ⟨?_, _, _, MonitorService.run_eq _ floor _, hshown, fun hclocks => ?_⟩
  · obtain ⟨rest, hrest⟩ := recordsWithin_prefix a.length (a ++ b)
    rw [hshown, shown_monitor, ← hrest, List.map_append]
    have hpackets : ∀ source source' : List (Option MonitorService.Frame),
        MonitorService.packets (source ++ source') =
          MonitorService.packets source ++ MonitorService.packets source' := by
      intro source source'
      simp [MonitorService.packets, List.reduceOption_append]
    rw [hpackets, Detector.machine.run_append, List.filter_append]
    exact watch_append _ _
  · rw [hshown]
    refine map_fst_watch (watch_ok fun alert halert => ?_)
    obtain ⟨pkt, hpkt, hts⟩ := exists_packet (List.mem_filter.mp halert).1
    rw [MonitorService.packets_map_some] at hpkt
    obtain ⟨r, hr, rfl⟩ := List.mem_map.mp hpkt
    rw [hts, decode_ts]
    exact hclocks r hr

/-! ## The report -/

/-- A timestamp read back has a clock. -/
theorem clocksReturn_readBack {r : ℚ × Bytes} (h : Writable r) :
    ClocksReturn (readBack Packet.linktypeEthernet r).1 := by
  have h0 : (0 : ℚ) ≤ ticks r.1 := Int.cast_nonneg (ticks_nonneg h.epoch)
  have hlt : (ticks r.1 : ℚ) < 2 ^ 32 * 10 ^ 6 := by exact_mod_cast h.seconds
  refine (clocksReturn_iff (by unfold readBack; positivity)).mpr ?_
  show (ticks r.1 : ℚ) / 10 ^ 6 < yearTenThousand
  rw [div_lt_iff₀ (by norm_num)]
  exact hlt.trans (by norm_num [yearTenThousand])

/-- A session whose packets all have a clock ends in a report. -/
theorem closed_ok [Floats] {contents : Bytes} {pkts : List Packet} (hread : (readPcap contents).error = none)
    (hpackets : MonitorService.packets ((readPcap contents).items.map some) = pkts)
    (hts : ∀ pkt ∈ pkts, ClocksReturn pkt.ts) :
    ∃ d text, (monitor contents hmi plc floor now).closed = .ok (d, text) := by
  have hmonitor := monitor_eq hmi plc floor now contents rfl rfl
  rw [hpackets, hread, watch_ok] at hmonitor
  · rw [hmonitor]
    exact ⟨_, _, rfl⟩
  · intro alert halert
    obtain ⟨pkt, hpkt, halert⟩ := exists_packet (List.mem_filter.mp halert).1
    exact halert ▸ hts pkt hpkt

theorem plain_clock {ts : ℚ} {time : String} (h : Cli.clock ts = .ok time) : Plain time := by
  unfold Cli.clock wallClock at h
  split at h
  · obtain rfl := Except.ok.inj h
    decide
  · obtain ⟨micros, -, h⟩ := bind_inv h
    obtain rfl := Except.ok.inj h
    exact (((plain_decPad _).append (by decide)).append (plain_decPad _)).append (by decide) |>.append
      (plain_decPad _)

/-- The texts of a timeline entry are plain. -/
def PlainEntry (entry : TimelineEntry) : Prop := Plain entry.1 ∧ Plain entry.2.1 ∧ Plain entry.2.2

theorem plain_enter {alert : Alert} {entry : TimelineEntry} (ha : alert.Plain)
    (h : enter alert = .ok entry) : PlainEntry entry := by
  obtain ⟨-, -, h⟩ := bind_inv h
  obtain ⟨time, htime, h⟩ := bind_inv h
  obtain rfl := Except.ok.inj h
  have hclock : Cli.clock alert.ts = .ok time := by
    cases hc : Cli.clock alert.ts with
    | error kind =>
      rw [hc] at htime
      cases htime
    | ok t =>
      rw [hc, call_ok] at htime
      rw [Except.ok.inj htime]
  have hseverity : Plain alert.severity.value := by cases alert.severity <;> decide
  have haddresses : Plain (alert.protocol ++ " " ++ alert.src ++ " -> " ++ alert.dst) :=
    (((ha.protocol.append (by decide)).append ha.src).append (by decide)).append ha.dst
  exact ⟨plain_clock hclock, hseverity, (haddresses.append (by decide)).append ha.summary⟩

/-- What is entered is plain: the detector quotes its own texts, numbers and addresses. -/
theorem plain_shown [Floats] (contents : Bytes) :
    ∀ shown ∈ (monitor contents hmi plc floor now).shown, PlainEntry shown.2 := by
  rintro ⟨alert, entry⟩ hshown
  rw [shown_monitor] at hshown
  obtain ⟨halert, henter⟩ := mem_watch hshown
  obtain ⟨halerts, -⟩ := Detector.plain_run (.of (.text hmi) (.text plc))
    (MonitorService.packets_addressed ((readPcap contents).items.map some))
  exact plain_enter (halerts alert (List.mem_filter.mp halert).1) henter

variable {hmi plc floor now} in
/-- A session that ends in a report: its detector, its alerts and its text. -/
theorem closed_eq [Floats] {contents : Bytes} {d : Detector} {text : String}
    (h : (monitor contents hmi plc floor now).closed = .ok (d, text)) :
    (d, (monitor contents hmi plc floor now).shown.map Prod.fst) =
        ((Detector.machine.run (.fresh (.of (.text hmi) (.text plc)))
            (MonitorService.packets ((readPcap contents).items.map some))).1,
          (Detector.machine.run (.fresh (.of (.text hmi) (.text plc)))
            (MonitorService.packets ((readPcap contents).items.map some))).2.filter fun alert =>
              atLeast alert.severity floor) ∧
      text = buildReport d ((monitor contents hmi plc floor now).shown.map Prod.snd) now := by
  rw [shown_monitor]
  rw [monitor_eq hmi plc floor now contents rfl rfl] at h
  dsimp only at h
  split at h
  · cases h
  · rename_i hloop
    obtain ⟨hwatch, -⟩ := Option.or_eq_none_iff.mp hloop
    cases h
    exact ⟨by rw [map_fst_watch hwatch], rfl⟩

variable {hmi plc floor now} in
/-- The lines of a session's report. -/
theorem lines_closed [Floats] {contents : Bytes} {d : Detector} {text : String}
    (h : (monitor contents hmi plc floor now).closed = .ok (d, text)) :
    d.Plain ∧ split text '\n' = headLines d now ++
      timelineLines ((monitor contents hmi plc floor now).shown.map Prod.snd) ++ tailLines ++ [""] := by
  obtain ⟨hd, rfl⟩ := closed_eq h
  obtain ⟨-, hplain⟩ := Detector.plain_run (.of (.text hmi) (.text plc))
    (MonitorService.packets_addressed ((readPcap contents).items.map some))
  obtain rfl := congrArg Prod.fst hd
  refine ⟨hplain, split_buildReport hplain fun entry hentry => ?_⟩
  obtain ⟨shown, hmem, rfl⟩ := List.mem_map.mp hentry
  obtain ⟨htime, hkind, hdetail⟩ := plain_shown hmi plc floor now contents shown hmem
  exact ⟨oneLine_of_plain htime, oneLine_of_plain hkind, oneLine_of_plain hdetail⟩

end Cli

end Pyscan
