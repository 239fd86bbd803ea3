import Pyscan.Domain.DetectorRuns

/-!
# The monitor

`MonitorService.run` decodes each frame of its source, feeds the detector and
yields the alerts at or above its severity floor; `none` is the live capture's
heartbeat. A run is the detector run over the decoded frames, its output
filtered (`run_eq`), so it inherits the detector's accounting.
-/

namespace Pyscan

open Py OtDetect

structure MonitorService where
  detector : Detector
  minSeverity : Severity := .medium

namespace MonitorService

/-- A captured frame: time, link type, bytes. -/
abbrev Frame := ℚ × Nat × Bytes

def Frame.decode (frame : Frame) : Packet := Packet.decode frame.2.2 frame.2.1 frame.1

/-- The fully consumed generator: the service afterwards, and what it yielded. -/
def run (m : MonitorService) : List (Option Frame) → Result (MonitorService × List Alert)
  | [] => .ok (m, [])
  | none :: source => m.run source
  | some frame :: source => do
    let r ← m.detector.feed frame.decode
    let rest ← run { m with detector := r.1 } source
    .ok (rest.1, r.2.filter (fun alert => atLeast alert.severity m.minSeverity) ++ rest.2)

/-- The packets of a source: its frames, decoded. -/
def packets (source : List (Option Frame)) : List Packet := source.reduceOption.map Frame.decode

theorem packets_map_some (frames : List Frame) :
    packets (frames.map some) = frames.map Frame.decode := by
  simp [packets, List.reduceOption, List.filterMap_map]

theorem packets_addressed (source : List (Option Frame)) :
    ∀ pkt ∈ packets source, pkt.Addressed := by
  intro pkt hpkt
  obtain ⟨frame, -, rfl⟩ := List.mem_map.mp hpkt
  exact Packet.decode_addressed _ _ _

variable (d : Detector) (floor : Severity)

/-- A run of the monitor is a run of the detector, filtered. -/
theorem run_eq (source : List (Option Frame)) :
    run ⟨d, floor⟩ source =
      .ok (⟨(Detector.machine.run d (packets source)).1, floor⟩,
        (Detector.machine.run d (packets source)).2.filter fun alert =>
          atLeast alert.severity floor) := by
  induction source generalizing d with
  | nil => rfl
  | cons frame source ih =>
    cases frame with
    | none => exact ih d
    | some frame =>
      have hpk : packets (some frame :: source) = frame.decode :: packets source := by
        simp [packets]
      rw [run, Detector.feed_eq, ok_bind, ih, ok_bind, hpk, Detector.machine.run_cons,
        List.filter_append]
      rfl

/-- A run may be interrupted anywhere and taken up again. -/
theorem run_append (source rest : List (Option Frame)) :
    run ⟨d, floor⟩ (source ++ rest) =
      (do
        let r ← run ⟨d, floor⟩ source
        let r' ← run r.1 rest
        .ok (r'.1, r.2 ++ r'.2)) := by
  have hpk : packets (source ++ rest) = packets source ++ packets rest := by
    simp [packets, List.reduceOption_append]
  rw [run_eq, run_eq, ok_bind, run_eq, ok_bind, hpk, Detector.machine.run_append,
    List.filter_append]

/-- **No crafted frame raises**: over any frames, from any detector, the monitor returns, and the
`try` block of `decode` returns on each of them. -/
theorem monitor_never_raises (m : MonitorService) (source : List (Option Frame)) :
    (∃ m' yielded, m.run source = .ok (m', yielded)) ∧
      ∀ ts linktype raw, some (ts, linktype, raw) ∈ source →
        ∃ r, Packet.decodeBody raw linktype ts = .ok r := by
  refine ⟨⟨_, _, run_eq m.detector m.minSeverity source⟩, fun ts linktype raw _ => ?_⟩
  obtain ⟨r, hr, -⟩ := Packet.decodeBody_yields raw linktype ts
  exact ⟨r, hr⟩

/-- **The detector's accounts**, at every point of a run: after `consumed`, whatever comes next.
`returned` is every alert `feed` has returned so far. -/
theorem monitor_accounts (b : Baseline) (consumed rest : List (Option Frame)) :
    ∃ d returned,
      (Detector.fresh b).feedAll (packets consumed) = .ok (d, returned) ∧
      run ⟨.fresh b, floor⟩ consumed =
        .ok (⟨d, floor⟩, returned.filter fun alert => atLeast alert.severity floor) ∧
      run ⟨.fresh b, floor⟩ (consumed ++ rest) =
        (do
          let r ← run ⟨d, floor⟩ rest
          .ok (r.1, returned.filter (fun alert => atLeast alert.severity floor) ++ r.2)) ∧
      d.alerts = returned.length ∧
      d.packets = (packets consumed).countP b.watches ∧
      (∀ s, s ∈ d.hostileSources ↔
        ∃ a ∈ returned, a.severity ≠ .info ∧ a.src = s ∧ b.hmi ≠ ∅ ∧ s ∉ b.hmi) ∧
      (∀ src dst, (∃ pkt ∈ packets consumed, Detector.Sends b pkt src dst) →
        returned.countP (newTalkerAlert src dst) = 1) ∧
      (∀ src dst, (¬ ∃ pkt ∈ packets consumed, Detector.Sends b pkt src dst) →
        returned.countP (newTalkerAlert src dst) = 0) ∧
      ∀ floor' source, source.reduceOption = consumed.reduceOption →
        ∃ yielded, run ⟨.fresh b, floor'⟩ source = .ok (⟨d, floor'⟩, yielded) := by
  have hacc := Detector.accounted_run b (packets_addressed consumed)
  refine ⟨_, _, Detector.feedAll_eq _ _, run_eq _ _ _, ?_, hacc.alerts, hacc.packets, hacc.hostile,
    fun src dst h => hacc.once src dst ((hacc.seen src dst).mpr h),
    fun src dst h => hacc.never src dst fun hm => h ((hacc.seen src dst).mp hm), ?_⟩
  · rw [run_append, run_eq (Detector.fresh b) floor consumed, ok_bind]
  · intro floor' source hsame
    have hpk : packets source = packets consumed := congrArg (List.map Frame.decode) hsame
    exact ⟨_, hpk ▸ run_eq (Detector.fresh b) floor' source⟩

end MonitorService

end Pyscan
