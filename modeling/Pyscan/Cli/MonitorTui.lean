import Pyscan.Adapters.MonitorTimeline
import Pyscan.Cli.Lab

/-!
# The command centre against the command line

The stations named on the command line reach the command centre as the text of
its inputs, and are read back from there: the baseline is the same
(`of_inputText`). Left to replay the capture it was given, the command centre
enters **the alerts that `monitor` shows**, whatever notes and reports are made
meanwhile, and its report differs from that of `monitor` in the timeline's clocks
and in these alone (`views_agree_monitor`).
-/

namespace Pyscan.Cli

open Py OtDetect PcapReader IncidentReport MonitorApp

/-! ## The inputs -/

theorem not_mem_splitOn {α : Type*} [BEq α] [LawfulBEq α] {a : α} {xs part : List α}
    (h : part ∈ xs.splitOn a) : a ∉ part := by
  induction xs generalizing part with
  | nil =>
    obtain rfl := List.mem_singleton.mp h
    exact List.not_mem_nil
  | cons x xs ih =>
    rw [List.splitOn_cons_eq_if_modifyHead] at h
    split at h
    · rcases List.mem_cons.mp h with rfl | h
      · exact List.not_mem_nil
      · exact ih h
    · rename_i hne
      cases hsplit : xs.splitOn a with
      | nil => exact absurd hsplit (List.splitOn_ne_nil a xs)
      | cons head rest =>
        rw [hsplit, List.modifyHead_cons] at h
        rcases List.mem_cons.mp h with rfl | h
        · intro hmem
          rcases List.mem_cons.mp hmem with rfl | hmem
          · simp at hne
          · exact ih (hsplit ▸ List.mem_cons_self) hmem
        · exact ih (hsplit ▸ List.mem_cons_of_mem _ h)

/-- A station read off a text is not empty, and has no comma and no blank at its ends. -/
theorem of_mem_asSet {text name : String} (h : name ∈ asSet (.text text)) :
    name ≠ "" ∧ ',' ∉ name.toList ∧ stripWhite name = name := by
  obtain ⟨hne, part, hpart, rfl⟩ := mem_asSet.mp h
  obtain ⟨cs, hcs, rfl⟩ := List.mem_map.mp hpart
  refine ⟨hne, fun hmem => ?_, String.toList_injective ?_⟩
  · rw [toList_stripWhite, String.toList_ofList] at hmem
    exact not_mem_splitOn hcs ((Strip.strip_sublist isWhite cs).subset hmem)
  · rw [toList_stripWhite, toList_stripWhite, Strip.strip_strip]

/-- The names that an input shows are the names read from it. -/
theorem list_inputText {names : Finset String} (hne : names ≠ ∅) (h : ∀ name ∈ names, ',' ∉ name.toList) :
    (Addresses.text (inputText names)).list = names.sort := by
  have hparts : ∀ part ∈ names.sort.map String.toList, ',' ∉ part := by
    intro part hpart
    obtain ⟨name, hname, rfl⟩ := List.mem_map.mp hpart
    exact h name ((Finset.mem_sort _).mp hname)
  have hsort : names.sort.map String.toList ≠ [] := by
    rw [ne_eq, List.map_eq_nil_iff]
    intro hnil
    exact hne (by rw [← Finset.sort_toFinset names (· ≤ ·), hnil]; rfl)
  rw [Addresses.list, inputText, joinSorted, String.toList_intercalate]
  show (List.splitOn ',' ([','].intercalate _)).map String.ofList = _
  rw [List.splitOn_intercalate _ hparts hsort, List.map_map]
  exact List.map_id'' (fun name => String.ofList_toList) _

theorem asSet_inputText (text : String) :
    asSet (.text (inputText (asSet (.text text)))) = asSet (.text text) := by
  by_cases hne : asSet (.text text) = ∅
  · rw [hne, inputText_empty]
    decide
  · ext name
    rw [mem_asSet, list_inputText hne fun name h => (of_mem_asSet h).2.1]
    constructor
    · rintro ⟨-, x, hx, rfl⟩
      have hmem : x ∈ asSet (.text text) := (Finset.mem_sort _).mp hx
      rwa [(of_mem_asSet hmem).2.2]
    · intro h
      obtain ⟨hname, -, hstrip⟩ := of_mem_asSet h
      exact ⟨hname, name, (Finset.mem_sort _).mpr h, hstrip⟩

/-- The baseline of the inputs is the one the command centre was given. -/
theorem of_inputText (hmi plcs : String) :
    Baseline.of (.text (inputText (Baseline.of (.text hmi) (.text plcs)).hmi))
      (.text (inputText (Baseline.of (.text hmi) (.text plcs)).plcs)) =
        .of (.text hmi) (.text plcs) := by
  rw [Baseline.of, Baseline.of, asSet_inputText, asSet_inputText]

/-! ## The timeline -/

/-- The entries of alerts, without their clocks. -/
def found (timeline : List TimelineEntry) : List (String × String) :=
  (timeline.filter fun entry => entry.2.1 ≠ "NOTE" ∧ entry.2.1 ≠ "REPORT").map Prod.snd

theorem found_entries {events : List Event} (h : ∀ i, i ≠ 0 → entered i events = []) :
    found (events.map Event.entry) =
      (entered 0 events).map fun alert => (alert.severity.value, alertText alert) := by
  induction events with
  | nil => rfl
  | cons event events ih =>
    have hrest : ∀ i, i ≠ 0 → entered i events = [] := fun i hi => by
      have hall : entered i ([event] ++ events) = [] := h i hi
      rw [entered_append] at hall
      exact (List.append_eq_nil_iff.mp hall).2
    rw [show event :: events = [event] ++ events from rfl, entered_append, List.map_append,
      List.map_append, ← ih hrest, found, List.filter_append, List.map_append]
    congr 1
    cases event with
    | note text now => simp [entered, Event.alertOf, Event.entry]
    | report path now => simp [entered, Event.alertOf, Event.entry]
    | alert i alert now =>
      obtain rfl : i = 0 := by
        by_contra hi
        have hnone := h i hi
        simp [entered, Event.alertOf] at hnone
      have hkind : alert.severity.value ≠ "NOTE" ∧ alert.severity.value ≠ "REPORT" := by
        cases alert.severity <;> decide
      simp [entered, Event.alertOf, Event.entry, hkind]

/-- What `monitor` enters of the alerts it shows. -/
theorem entries_shown (contents : Bytes) (hmi plc : String) (floor : Severity) (now : Datetime) :
    (monitor contents hmi plc floor now).shown.map (fun shown => shown.2.2) =
      ((monitor contents hmi plc floor now).shown.map Prod.fst).map fun alert =>
        (alert.severity.value, alertText alert) := by
  rw [List.map_map]
  refine List.map_congr_left fun shown hshown => ?_
  rw [shown_monitor] at hshown
  obtain ⟨-, henter⟩ := mem_watch hshown
  obtain ⟨-, -, henter⟩ := bind_inv henter
  obtain ⟨time, -, henter⟩ := bind_inv henter
  exact congrArg Prod.snd (Except.ok.inj henter).symm

variable {contents : Bytes} {hmi plc text : String} {floor : Severity} {now : Datetime} {d : Detector}

/-- The command centre over a capture, as `monitor --tui` starts it. -/
def tui (contents : Bytes) (hmi plc : String) (path : CapturePath) (iface : Option String) : MonitorApp :=
  runMonitorTui (.of (.text hmi) (.text plc)) (some path) iface none (.ok contents)

/-- A capture that can be read is replayed at once, for the baseline of the command line. -/
theorem sound_tui (hmi plc : String) (path : CapturePath) (iface : Option String)
    (hread : (readPcap contents).error = none) :
    ∃ l, Sound [l] [] (tui contents hmi plc path iface) ∧ (tui contents hmi plc path iface).Running ∧
      (tui contents hmi plc path iface).crash = none ∧
      l.service = { detector := .fresh (.of (.text hmi) (.text plc)) } ∧
      l.source.frames = (readPcap contents).items.map some := by
  have hreplayed : replayed (.ok contents) = .ok { frames := (readPcap contents).items.map some } := by
    rw [replayed, ok_bind, hread]
  have htui : tui contents hmi plc path iface =
      (MonitorApp.new (.of (.text hmi) (.text plc)) (some path) iface).start
        { frames := (readPcap contents).items.map some } ("replay of " ++ path.name) := by
    show startReplay _ _ = _
    rw [startReplay, hreplayed]
    rfl
  rw [htui]
  refine ⟨_, (sound_new (.of (.text hmi) (.text plc)) (some path) iface).start ⟨_, _, _⟩ rfl rfl,
    ?_, rfl, ?_, rfl⟩
  · rintro w (_ | ⟨_, hw⟩)
    · rfl
    · cases hw
  · rw [Launch.service]
    exact congrArg (fun b : Baseline => (⟨.fresh b, .medium⟩ : MonitorService)) (of_inputText hmi plc)

theorem readPcap_of_closed (h : (monitor contents hmi plc floor now).closed = .ok (d, text)) :
    (readPcap contents).error = none := by
  rw [monitor_eq hmi plc floor now contents rfl rfl] at h
  dsimp only at h
  split at h
  · cases h
  · rename_i hloop
    exact (Option.or_eq_none_iff.mp hloop).2

/-- A session that ends in a report has shown what its service yields. -/
theorem run_of_closed (h : (monitor contents hmi plc floor now).closed = .ok (d, text)) :
    MonitorService.run ⟨.fresh (.of (.text hmi) (.text plc)), floor⟩ ((readPcap contents).items.map some) =
      .ok (⟨d, floor⟩, (monitor contents hmi plc floor now).shown.map Prod.fst) := by
  obtain ⟨hd, hshown⟩ := Prod.mk.inj (closed_eq h).1
  rw [MonitorService.run_eq, hd, hshown]

/-- While no source is opened, a single thread stays the only one. -/
theorem sound_alone {l : Launch} {events : List Event} {app app' : MonitorApp} {as : List Act}
    (h : Sound [l] events app) (has : ∀ a ∈ as, a.opens = none) (hexec : system.exec app as = some app') :
    ∃ new w, Sound [l] (events ++ new) app' ∧ app'.workers = [w] := by
  obtain ⟨new, hsound⟩ := h.exec hexec
  rw [launchedAlong_none has, List.append_nil] at hsound
  obtain ⟨w, hworkers⟩ := List.length_eq_one_iff.mp hsound.workers
  exact ⟨new, w, hsound, hworkers⟩

/-- What a single thread that is left alone has entered of the alerts of its whole source. -/
theorem found_alone {l : Launch} {events : List Event} {app : MonitorApp} {w : Worker}
    {service : MonitorService} {alerts : List Alert} (h : Sound [l] events app)
    (hworkers : app.workers = [w]) (hc : w.cancelled = false)
    (hwhole : l.service.run l.source.frames = .ok (service, alerts)) :
    found app.timeline <+: alerts.map (fun alert => (alert.severity.value, alertText alert)) ∧
      (w.phase = .done →
        found app.timeline = alerts.map (fun alert => (alert.severity.value, alertText alert)) ∧
        w.service = service) := by
  have hw : app.workers[0]? = some w := by rw [hworkers]; rfl
  obtain ⟨read, yielded, hread, hrun, hbegins, hall, hend⟩ := h.tracks 0 l w rfl hw
  have hfound : found app.timeline = (entered 0 events).map fun alert =>
      (alert.severity.value, alertText alert) := by
    rw [h.timeline]
    exact found_entries fun i hi => h.others i (Nat.one_le_iff_ne_zero.mpr hi)
  rw [hfound]
  have hyielded : yielded <+: alerts := by
    rw [hread, MonitorService.run_append l.service.detector l.service.minSeverity, hrun, ok_bind] at hwhole
    obtain ⟨r, -, hwhole⟩ := bind_inv hwhole
    exact ⟨r.2, congrArg Prod.snd (Except.ok.inj hwhole)⟩
  refine ⟨(((List.prefix_append _ _).trans hbegins).trans hyielded).map _, fun hphase => ?_⟩
  have hrest : w.source.frames = [] := hend (by rw [hphase]; rfl) hc
  have hheld := hall (.inr hc)
  rw [hphase, Phase.held, List.append_nil] at hheld
  rw [hread, hrest, List.append_nil, hrun] at hwhole
  obtain ⟨hservice, hshown⟩ := Prod.mk.inj (Except.ok.inj hwhole)
  exact ⟨by rw [hheld, hshown], hservice⟩

/-- A single thread that is not cancelled can be run to its end, by steps of its own alone. -/
theorem single_ends {l : Launch} {events : List Event} {app : MonitorApp} (hsound : Sound [l] events app)
    (hrunning : app.Running) (hcrash : app.crash = none) (now : Datetime) :
    ∃ bs app', (∀ b ∈ bs, b = .work 0 ∨ b = .call 0 now) ∧ system.exec app bs = some app' ∧
      ∀ w ∈ app'.workers, w.phase = .done := by
  obtain ⟨w, hworkers⟩ := List.length_eq_one_iff.mp hsound.workers
  have hw : app.workers[0]? = some w := by rw [hworkers]; rfl
  obtain ⟨bs, app', w', hbs, hexec, hw', hdone, -⟩ :=
    thread_ends hw (hrunning w (hworkers ▸ List.mem_cons_self)) hcrash now
  have hopens : ∀ b ∈ bs, b.opens = none := by
    intro b hb
    rcases hbs b hb with rfl | rfl <;> rfl
  obtain ⟨events', u, -, hworkers'⟩ := sound_alone hsound hopens hexec
  refine ⟨bs, app', hbs, hexec, fun v hv => ?_⟩
  rw [hworkers'] at hw' hv
  cases hw'
  rw [List.mem_singleton.mp hv]
  exact hdone

end Pyscan.Cli
