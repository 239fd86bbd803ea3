import Pyscan.Adapters.MonitorApp

/-!
# The evidence timeline

What the timeline of the command centre holds of a source is **the first of the
alerts its service yields**, each once and in their order, and all of them when
its thread ends uncancelled (`evidence`). A cancelled thread enters **at most one
more** (`stop_enters`); one that is not can always be run to its end
(`thread_ends`).
-/

namespace Pyscan.MonitorApp

open Py OtDetect PcapReader IncidentReport

/-! ## What is entered -/

/-- What an entry of the timeline records. -/
inductive Event where
  | alert (worker : Nat) (alert : Alert) (now : Datetime)
  | note (text : String) (now : Datetime)
  | report (path : String) (now : Datetime)

def Event.entry : Event → TimelineEntry
  | .alert _ a now => (now.clock, a.severity.value, alertText a)
  | .note text now => (now.clock, "NOTE", text)
  | .report path now => (now.clock, "REPORT", "exported -> " ++ path)

def Event.alertOf (i : Nat) : Event → Option Alert
  | .alert j a _ => if j = i then some a else none
  | .note .. | .report .. => none

/-- The alerts of the `i`-th worker among the events. -/
def entered (i : Nat) (events : List Event) : List Alert := events.filterMap (Event.alertOf i)

theorem entered_nil (i : Nat) : entered i [] = [] := rfl

theorem entered_append (i : Nat) (events events' : List Event) :
    entered i (events ++ events') = entered i events ++ entered i events' := List.filterMap_append

/-- A source that was opened, and the inputs at that time. -/
structure Launch where
  hmi : String
  plcs : String
  source : Source

def Launch.service (l : Launch) : MonitorService where
  detector := .fresh (.of (.text l.hmi) (.text l.plcs))

def Launch.worker (l : Launch) : Worker where
  service := l.service
  source := l.source

/-! ## What a step does -/

/-- A step of a worker's thread, or of the app for it, and the alerts it enters. -/
inductive Moves (w : Worker) : List Alert → Worker → Prop
  | work {w' : Worker} (h : w.work = some w') : Moves w [] w'
  | shown {alert : Alert} {ahead : List Alert} (h : w.phase = .showing alert ahead) :
    Moves w [alert] { w with phase := .drawing ahead }
  | closed {markup : String} (h : w.phase = .closing markup) : Moves w [] { w with phase := .refreshing }
  | refreshed (h : w.phase = .refreshing) : Moves w [] { w with phase := .done }

/-- What an act may do: the events it enters, the workers after it. -/
inductive Effect (app : MonitorApp) (a : Act) : List Event → List Worker → Prop
  | quiet {new : List Event} (hopens : a.opens = none) (hnew : ∀ i, entered i new = []) :
    Effect app a new app.workers
  | start {source : Source} (hopens : a.opens = some source) :
    Effect app a [] (app.workers.map Worker.cancel ++ [Launch.worker ⟨app.hmi, app.plcs, source⟩])
  | stop (h : a = .stop) : Effect app a [] (app.workers.map Worker.cancel)
  | move {i : Nat} {w w' : Worker} {new : List Event} (hopens : a.opens = none)
    (hw : app.workers[i]? = some w) (h : Moves w (entered i new) w')
    (hothers : ∀ j, j ≠ i → entered j new = []) : Effect app a new (app.workers.set i w')

section Effects

variable (app : MonitorApp)

theorem refreshStats_workers : app.refreshStats.workers = app.workers := by
  unfold refreshStats
  split <;> rfl

theorem refreshStats_timeline : app.refreshStats.timeline = app.timeline := by
  unfold refreshStats
  split <;> rfl

theorem effect_typed (value : String) (field : Field) :
    (app.typed value field).timeline = app.timeline ∧
      Effect app (.type field value) [] (app.typed value field).workers := by
  cases field <;> exact ⟨rfl, .quiet rfl entered_nil⟩

theorem effect_live (opened : Except String Source) :
    (app.onLive opened).timeline = app.timeline ∧
      Effect app (.live opened) [] (app.onLive opened).workers := by
  cases opened with
  | error text => exact ⟨rfl, .quiet rfl entered_nil⟩
  | ok source => exact ⟨rfl, .start rfl⟩

theorem effect_stop : app.onStop.timeline = app.timeline ∧ Effect app .stop [] app.onStop.workers := by
  rw [onStop, refreshStats_workers, refreshStats_timeline]
  exact ⟨rfl, .stop rfl⟩

theorem effect_replay (file : Read Bytes) :
    (app.startReplay file).timeline = app.timeline ∧
      Effect app (.replay file) [] (app.startReplay file).workers := by
  rw [startReplay]
  dsimp only
  cases hfile : replayed file with
  | error e =>
    have hopens : (Act.replay file).opens = none := by rw [Act.opens, hfile]; rfl
    dsimp only
    split <;> exact ⟨rfl, .quiet hopens entered_nil⟩
  | ok source =>
    have hopens : (Act.replay file).opens = some source := by rw [Act.opens, hfile]; rfl
    exact ⟨rfl, .start hopens⟩

theorem effect_addNote (now : Datetime) :
    ∃ new, (app.onAddNote now).timeline = app.timeline ++ new.map Event.entry ∧
      Effect app (.addNote now) new (app.onAddNote now).workers := by
  rw [onAddNote]
  dsimp only
  split
  · exact ⟨[], (List.append_nil _).symm, .quiet rfl entered_nil⟩
  · exact ⟨[.note (stripWhite app.note) now], rfl, .quiet rfl fun _ => rfl⟩

variable {app} in
theorem effect_call {i : Nat} {now : Datetime} {w : Worker} {app' : MonitorApp}
    (hw : app.workers[i]? = some w) (h : app.call i now w = some app') :
    ∃ new, app'.timeline = app.timeline ++ new.map Event.entry ∧
      Effect app (.call i now) new app'.workers := by
  rw [call] at h
  dsimp only at h
  split at h
  · rename_i alert ahead hphase
    obtain rfl := Option.some.inj h
    have hnew : entered i [.alert i alert now] = [alert] := by simp [entered, Event.alertOf]
    refine ⟨[.alert i alert now], ?_, ?_⟩
    · rw [showAlert, refreshStats_timeline]
      rfl
    · rw [showAlert, refreshStats_workers]
      refine .move rfl hw ?_ fun j hj => by simp [entered, Event.alertOf, hj.symm]
      rw [hnew]
      exact .shown hphase
  · rename_i markup hphase
    obtain rfl := Option.some.inj h
    exact ⟨[], (List.append_nil _).symm, .move rfl hw (.closed hphase) fun _ _ => rfl⟩
  · rename_i hphase
    obtain rfl := Option.some.inj h
    refine ⟨[], ?_, ?_⟩
    · rw [refreshStats_timeline]
      exact (List.append_nil _).symm
    · rw [refreshStats_workers]
      exact .move rfl hw (.refreshed hphase) fun _ _ => rfl
  all_goals cases h

/-- **Every step has its effect and no other.** -/
theorem step_effect {app app' : MonitorApp} {a : Act} (h : step app a = some app') :
    ∃ new, app'.timeline = app.timeline ++ new.map Event.entry ∧ Effect app a new app'.workers := by
  have hnone : app'.timeline = app.timeline ∧ Effect app a [] app'.workers → ∃ new,
      app'.timeline = app.timeline ++ new.map Event.entry ∧ Effect app a new app'.workers :=
    fun h => ⟨[], by rw [h.1]; exact (List.append_nil _).symm, h.2⟩
  unfold step at h
  split at h
  · cases h
  cases a with
  | type field value => exact hnone (Option.some.inj h ▸ effect_typed app value field)
  | live opened => exact hnone (Option.some.inj h ▸ effect_live app opened)
  | stop => exact hnone (Option.some.inj h ▸ effect_stop app)
  | replay file => exact hnone (Option.some.inj h ▸ effect_replay app file)
  | clear => exact hnone (Option.some.inj h ▸ ⟨rfl, .quiet rfl entered_nil⟩)
  | addNote now => exact Option.some.inj h ▸ effect_addNote app now
  | exportReport stamp now entered =>
    obtain rfl := Option.some.inj h
    exact ⟨[.report _ entered], rfl, .quiet rfl fun _ => rfl⟩
  | work i =>
    obtain ⟨w, hw, h⟩ := Option.bind_eq_some_iff.mp h
    obtain ⟨w', hwork, h⟩ := Option.bind_eq_some_iff.mp h
    obtain rfl := Option.some.inj h
    exact ⟨[], (List.append_nil _).symm, .move rfl hw (.work hwork) fun _ _ => rfl⟩
  | call i now =>
    obtain ⟨w, hw, hcall⟩ := Option.bind_eq_some_iff.mp h
    exact effect_call hw hcall

end Effects

/-! ## One thread -/

/-- The alerts a thread has of its service and has not handed over. -/
def Phase.held : Phase → List Alert
  | .drawing ahead => ahead
  | .drawn alert ahead | .showing alert ahead => alert :: ahead
  | .scheduled | .closing _ | .refreshing | .done => []

/-- The loop of the thread is over. -/
def Phase.ended : Phase → Bool
  | .closing _ | .refreshing | .done => true
  | .scheduled | .drawing _ | .drawn .. | .showing .. => false

/-- What the worker of a launch has read, and what of it is entered. -/
structure Tracks (l : Launch) (alerts : List Alert) (w : Worker) : Prop where
  accounts : ∃ read yielded, l.source.frames = read ++ w.source.frames ∧
    l.service.run read = .ok (w.service, yielded) ∧
    alerts ++ w.phase.held <+: yielded ∧
    (w.phase.ended = false ∨ w.cancelled = false → alerts ++ w.phase.held = yielded) ∧
    (w.phase.ended = true → w.cancelled = false → w.source.frames = [])

section Tracks

variable {l : Launch} {alerts : List Alert} {w w' : Worker}

theorem tracks_start (l : Launch) : Tracks l [] l.worker :=
  ⟨[], [], rfl, rfl, List.nil_prefix, fun _ => rfl, fun h => by cases h⟩

theorem Tracks.cancel (h : Tracks l alerts w) : Tracks l alerts w.cancel := by
  obtain ⟨read, yielded, hread, hrun, hbegins, hall, -⟩ := h
  refine ⟨read, yielded, hread, hrun, hbegins, fun hrunning => hall (hrunning.imp_right fun hc => ?_),
    fun _ hc => ?_⟩
  · cases hc
  · cases hc

/-- A thread that goes on to a phase with the same alerts entered or ahead. -/
theorem Tracks.moves (h : Tracks l alerts w) {phase : Phase} {alerts' : List Alert}
    (hheld : alerts' ++ phase.held = alerts ++ w.phase.held)
    (hback : w.phase.ended = true → phase.ended = true)
    (hended : phase.ended = true → w.phase.ended = true ∨ w.source.frames = []) :
    Tracks l alerts' { w with phase } := by
  obtain ⟨read, yielded, hread, hrun, hbegins, hall, hend⟩ := h
  refine ⟨read, yielded, hread, hrun, by rw [hheld]; exact hbegins, fun hrunning => ?_,
    fun hphase hc => (hended hphase).elim (fun h => hend h hc) id⟩
  rw [hheld]
  refine hall (hrunning.imp_left fun hphase => ?_)
  by_contra hw
  have hphase' : phase.ended = true := hback (by simpa using hw)
  rw [hphase] at hphase'
  cases hphase'

/-- A thread that finds itself cancelled drops what it holds. -/
theorem Tracks.drops (h : Tracks l alerts w) (hc : w.cancelled = true) {markup : String} :
    Tracks l alerts { w with phase := .closing markup } := by
  obtain ⟨read, yielded, hread, hrun, hbegins, -, -⟩ := h
  refine ⟨read, yielded, hread, hrun, ?_, fun hrunning => ?_, fun _ hc' => ?_⟩
  · rw [Phase.held, List.append_nil]
    exact (List.prefix_append _ _).trans hbegins
  · rcases hrunning with hphase | hc'
    · cases hphase
    · cases hc.symm.trans hc'
  · cases hc.symm.trans hc'

/-- A thread that takes an item of its source, with no alert ahead. -/
theorem Tracks.reads (h : Tracks l alerts w) (hphase : w.phase = .drawing [])
    {item : Option MonitorService.Frame} {frames : List (Option MonitorService.Frame)}
    {service : MonitorService} {ahead : List Alert} (hframes : w.source.frames = item :: frames)
    (hitem : w.service.run [item] = .ok (service, ahead)) :
    Tracks l alerts { w with service, source := { w.source with frames }, phase := .drawing ahead } := by
  obtain ⟨read, yielded, hread, hrun, -, hall, -⟩ := h
  have hyielded : alerts ++ [] = yielded := by
    have hheld := hall (.inl (by rw [hphase]; rfl))
    rwa [hphase] at hheld
  rw [List.append_nil] at hyielded
  have hruns : l.service.run (read ++ [item]) = .ok (service, yielded ++ ahead) := by
    rw [MonitorService.run_append l.service.detector l.service.minSeverity]
    rw [hrun, ok_bind, hitem, ok_bind]
  refine ⟨read ++ [item], yielded ++ ahead, ?_, hruns, ?_, fun _ => ?_, fun hended => ?_⟩
  · rw [hread, hframes, List.append_assoc]
    rfl
  · rw [hyielded]
    exact List.prefix_rfl
  · rw [hyielded]
    rfl
  · cases hended

theorem work_cancelled (hwork : w.work = some w') : w'.cancelled = w.cancelled := by
  unfold Worker.work at hwork
  split at hwork
  · split at hwork
    · cases hwork
    · cases hwork
      rfl
  · cases hwork
    rfl
  · split at hwork
    · cases hwork
      rfl
    · cases hwork
      rfl
    · split at hwork <;> (cases hwork; rfl)
  · cases hwork
    rfl
  all_goals cases hwork

theorem Tracks.work (h : Tracks l alerts w) (hwork : w.work = some w') : Tracks l alerts w' := by
  obtain ⟨service, ⟨frames, failure⟩, cancelled, phase⟩ := w
  cases phase with
  | scheduled =>
    cases cancelled with
    | true => cases hwork
    | false =>
      cases hwork
      exact h.moves rfl (fun hended => hended) fun hended => by cases hended
  | drawing ahead =>
    cases ahead with
    | cons alert ahead =>
      cases hwork
      exact h.moves rfl (fun hended => hended) fun hended => by cases hended
    | nil =>
      rcases frames with _ | ⟨_ | frame, frames⟩
      · cases hwork
        exact h.moves rfl (fun _ => rfl) fun _ => .inr rfl
      · cases hwork
        exact h.reads rfl rfl rfl
      · rw [Worker.work] at hwork
        dsimp only at hwork
        obtain ⟨detector, out, hfeed⟩ : ∃ detector out,
            service.detector.feed frame.decode = .ok (detector, out) :=
          ⟨_, _, Detector.feed_ok service.detector frame.decode⟩
        rw [hfeed] at hwork
        cases hwork
        refine h.reads rfl rfl ?_
        show service.run [some frame] = _
        rw [MonitorService.run, hfeed, ok_bind, MonitorService.run, ok_bind, List.append_nil]
  | drawn alert ahead =>
    cases hwork
    cases cancelled with
    | true => exact h.drops rfl
    | false => exact h.moves rfl (fun hended => hended) fun hended => by cases hended
  | showing alert ahead => cases hwork
  | closing markup => cases hwork
  | refreshing => cases hwork
  | done => cases hwork

theorem Moves.cancelled {out : List Alert} (h : Moves w out w') : w'.cancelled = w.cancelled := by
  cases h with
  | work h => exact work_cancelled h
  | shown h => rfl
  | closed h => rfl
  | refreshed h => rfl

theorem Tracks.step {out : List Alert} (h : Tracks l alerts w) (hmoves : Moves w out w') :
    Tracks l (alerts ++ out) w' := by
  cases hmoves with
  | work hwork =>
    rw [List.append_nil]
    exact h.work hwork
  | shown hphase =>
    refine h.moves ?_ (fun hended => ?_) fun hended => by cases hended
    · rw [hphase, List.append_assoc]
      rfl
    · rw [hphase] at hended
      cases hended
  | closed hphase =>
    refine h.moves ?_ (fun _ => rfl) fun _ => .inl ?_
    · rw [hphase, List.append_nil]
      rfl
    · rw [hphase]
      rfl
  | refreshed hphase =>
    refine h.moves ?_ (fun _ => rfl) fun _ => .inl ?_
    · rw [hphase, List.append_nil]
      rfl
    · rw [hphase]
      rfl

end Tracks

/-! ## All threads -/

/-- The timeline records these events, and the worker of each launch is tracked. -/
structure Sound (launches : List Launch) (events : List Event) (app : MonitorApp) : Prop where
  timeline : app.timeline = events.map Event.entry
  workers : app.workers.length = launches.length
  tracks : ∀ i l w, launches[i]? = some l → app.workers[i]? = some w → Tracks l (entered i events) w
  others : ∀ i, launches.length ≤ i → entered i events = []
  exclusive : ∀ i w, i + 1 < launches.length → app.workers[i]? = some w → w.cancelled = true

section Sound

variable {launches : List Launch} {events new : List Event} {app app' : MonitorApp}

theorem sound_new (baseline : Baseline) (capture : Option CapturePath) (iface : Option String) :
    Sound [] [] (.new baseline capture iface) where
  timeline := rfl
  workers := rfl
  tracks i l w hl := by cases hl
  others _ _ := rfl
  exclusive i w hi := by cases hi

theorem Sound.quiet (h : Sound launches events app) (hworkers : app'.workers = app.workers)
    (htimeline : app'.timeline = app.timeline ++ new.map Event.entry) (hnew : ∀ i, entered i new = []) :
    Sound launches (events ++ new) app' where
  timeline := by rw [htimeline, h.timeline, List.map_append]
  workers := by rw [hworkers, h.workers]
  tracks i l w hl hw := by
    rw [entered_append, hnew, List.append_nil]
    exact h.tracks i l w hl (hworkers ▸ hw)
  others i hi := by rw [entered_append, hnew, List.append_nil, h.others i hi]
  exclusive i w hi hw := h.exclusive i w hi (hworkers ▸ hw)

theorem Sound.move (h : Sound launches events app) {i : Nat} {w w' : Worker}
    (hw : app.workers[i]? = some w) (hmoves : Moves w (entered i new) w')
    (hnew : ∀ j, j ≠ i → entered j new = []) (hworkers : app'.workers = app.workers.set i w')
    (htimeline : app'.timeline = app.timeline ++ new.map Event.entry) :
    Sound launches (events ++ new) app' := by
  have hi : i < app.workers.length := (List.getElem?_eq_some_iff.mp hw).1
  have hcases : ∀ {j : Nat} {v : Worker}, app'.workers[j]? = some v →
      (j = i ∧ v = w') ∨ (j ≠ i ∧ app.workers[j]? = some v) := by
    intro j v hv
    rw [hworkers, List.getElem?_set] at hv
    by_cases hj : i = j
    · subst hj
      rw [if_pos rfl, if_pos hi] at hv
      exact .inl ⟨rfl, (Option.some.inj hv).symm⟩
    · rw [if_neg hj] at hv
      exact .inr ⟨fun heq => hj heq.symm, hv⟩
  refine ⟨?_, ?_, fun j l v hl hv => ?_, fun j hj => ?_, fun j v hj hv => ?_⟩
  · rw [htimeline, h.timeline, List.map_append]
  · rw [hworkers, List.length_set, h.workers]
  · rw [entered_append]
    rcases hcases hv with ⟨rfl, rfl⟩ | ⟨hne, hv⟩
    · exact (h.tracks _ l w hl hw).step hmoves
    · rw [hnew j hne, List.append_nil]
      exact h.tracks j l v hl hv
  · rw [entered_append, h.others j hj, hnew j (by rintro rfl; rw [h.workers] at hi; omega)]
    rfl
  · rcases hcases hv with ⟨rfl, rfl⟩ | ⟨-, hv⟩
    · exact hmoves.cancelled.trans (h.exclusive _ w hj hw)
    · exact h.exclusive j v hj hv

theorem Sound.cancel (h : Sound launches events app) (hworkers : app'.workers = app.workers.map Worker.cancel)
    (htimeline : app'.timeline = app.timeline) : Sound launches events app' := by
  have hcancelled : ∀ {i : Nat} {w : Worker}, app'.workers[i]? = some w →
      ∃ v : Worker, app.workers[i]? = some v ∧ w = v.cancel := by
    intro i w hw
    rw [hworkers, List.getElem?_map] at hw
    obtain ⟨v, hv, rfl⟩ := Option.map_eq_some_iff.mp hw
    exact ⟨v, hv, rfl⟩
  refine ⟨htimeline.trans h.timeline, ?_, fun i l w hl hw => ?_, h.others, fun i w _ hw => ?_⟩
  · rw [hworkers, List.length_map, h.workers]
  · obtain ⟨v, hv, rfl⟩ := hcancelled hw
    exact (h.tracks i l v hl hv).cancel
  · obtain ⟨v, -, rfl⟩ := hcancelled hw
    rfl

theorem Sound.start (h : Sound launches events app) (l : Launch)
    (hworkers : app'.workers = app.workers.map Worker.cancel ++ [l.worker])
    (htimeline : app'.timeline = app.timeline) : Sound (launches ++ [l]) events app' := by
  have hlength : (app.workers.map Worker.cancel).length = launches.length := by
    rw [List.length_map, h.workers]
  have hold : ∀ {i : Nat} {w : Worker}, i < launches.length → app'.workers[i]? = some w →
      ∃ v : Worker, app.workers[i]? = some v ∧ w = v.cancel := by
    intro i w hi hw
    rw [hworkers, List.getElem?_append_left (hlength ▸ hi), List.getElem?_map] at hw
    obtain ⟨v, hv, rfl⟩ := Option.map_eq_some_iff.mp hw
    exact ⟨v, hv, rfl⟩
  refine ⟨htimeline.trans h.timeline, ?_, fun i k w hk hw => ?_, fun i hi => h.others i ?_,
    fun i w hi hw => ?_⟩
  · rw [hworkers, List.length_append, List.length_append, hlength]
    rfl
  · rcases Nat.lt_or_ge i launches.length with hi | hi
    · obtain ⟨v, hv, rfl⟩ := hold hi hw
      rw [List.getElem?_append_left hi] at hk
      exact (h.tracks i k v hk hv).cancel
    · rw [hworkers, List.getElem?_append_right (hlength ▸ hi), hlength] at hw
      rw [List.getElem?_append_right hi] at hk
      obtain ⟨n, rfl⟩ := Nat.exists_eq_add_of_le hi
      rw [Nat.add_sub_cancel_left] at hk hw
      cases n with
      | zero =>
        cases hk
        cases hw
        rw [h.others (launches.length + 0) hi]
        exact tracks_start l
      | succ n => cases hk
  · rw [List.length_append] at hi
    omega
  · rw [List.length_append, List.length_singleton] at hi
    obtain ⟨v, -, rfl⟩ := hold (by omega) hw
    rfl

/-- The source an act opens, with the inputs at that time. -/
def launched (app : MonitorApp) (a : Act) : List Launch := a.opens.toList.map (Launch.mk app.hmi app.plcs)

theorem launched_none {a : Act} (h : a.opens = none) : app.launched a = [] := by
  rw [launched, h]
  rfl

/-- The sources opened on a schedule, each with the inputs at that time. -/
def launchedAlong : MonitorApp → List Act → List Launch
  | _, [] => []
  | app, a :: as => app.launched a ++ (system.step app a).elim [] fun app' => launchedAlong app' as

theorem launchedAlong_cons {a : Act} {as : List Act} (h : system.step app a = some app') :
    app.launchedAlong (a :: as) = app.launched a ++ app'.launchedAlong as := by
  rw [launchedAlong, h, Option.elim_some]

theorem launchedAlong_none {as : List Act} (h : ∀ a ∈ as, a.opens = none) : app.launchedAlong as = [] := by
  induction as generalizing app with
  | nil => rfl
  | cons a as ih =>
    obtain ⟨ha, has⟩ := List.forall_mem_cons.mp h
    rw [launchedAlong, launched_none ha, List.nil_append]
    cases system.step app a with
    | none => rfl
    | some app' => exact ih has

/-- The source opened at the start, with the inputs the app is given. -/
def mountLaunches (baseline : Baseline) (capture : Option CapturePath) (pending : Option Source)
    (file : Read Bytes) : List Launch :=
  (mountOpens capture pending file).toList.map
    (Launch.mk (inputText baseline.hmi) (inputText baseline.plcs))

theorem Sound.step {a : Act} (h : Sound launches events app)
    (htimeline : app'.timeline = app.timeline ++ new.map Event.entry)
    (heffect : Effect app a new app'.workers) :
    Sound (launches ++ app.launched a) (events ++ new) app' := by
  generalize hworkers : app'.workers = workers at heffect
  cases heffect with
  | quiet hopens hnew =>
    rw [launched_none hopens, List.append_nil]
    exact h.quiet hworkers htimeline hnew
  | start hopens =>
    rw [launched, hopens, List.append_nil]
    exact h.start _ hworkers (htimeline.trans (List.append_nil _))
  | stop ha =>
    rw [launched_none (by rw [ha]; rfl), List.append_nil, List.append_nil]
    exact h.cancel hworkers (htimeline.trans (List.append_nil _))
  | move hopens hw hmoves hnew =>
    rw [launched_none hopens, List.append_nil]
    exact h.move hw hmoves hnew hworkers htimeline

theorem sound_mount (baseline : Baseline) (capture : Option CapturePath) (iface : Option String)
    (pending : Option Source) (file : Read Bytes) :
    Sound (mountLaunches baseline capture pending file) []
      (runMonitorTui baseline capture iface pending file) := by
  have hnew : Sound [] [] (MonitorApp.new baseline capture iface) := sound_new baseline capture iface
  cases pending with
  | some source => exact hnew.start ⟨_, _, source⟩ rfl rfl
  | none =>
    cases capture with
    | none => exact hnew
    | some path =>
      obtain ⟨htimeline, heffect⟩ := effect_replay (MonitorApp.new baseline (some path) iface) file
      have hentered := htimeline.trans
        (List.append_nil (MonitorApp.new baseline (some path) iface).timeline).symm
      exact Sound.step hnew (hentered : _ = _ ++ [].map Event.entry) heffect

theorem Sound.exec {as : List Act} (h : Sound launches events app)
    (hexec : system.exec app as = some app') :
    ∃ new, Sound (launches ++ app.launchedAlong as) (events ++ new) app' := by
  induction as generalizing app launches events with
  | nil =>
    obtain rfl := Option.some.inj hexec
    exact ⟨[], by rwa [launchedAlong, List.append_nil, List.append_nil]⟩
  | cons a as ih =>
    obtain ⟨next, hstep, hexec⟩ := Option.bind_eq_some_iff.mp hexec
    obtain ⟨new, htimeline, heffect⟩ := step_effect hstep
    obtain ⟨new', hsound⟩ := ih (h.step htimeline heffect) hexec
    refine ⟨new ++ new', ?_⟩
    rwa [launchedAlong_cons hstep, ← List.append_assoc, ← List.append_assoc]

end Sound

/-- **The evidence timeline**, after any order of buttons and threads. It holds notes, reports and
alerts. Of each source opened, the alerts in it are the first of those the monitor yields on what has
been read, for the baseline of the inputs at that time; all of them, on all of the source, once its
thread has ended uncancelled. Only the last source's thread is uncancelled. -/
theorem evidence {baseline : Baseline} {capture : Option CapturePath} {iface : Option String}
    {pending : Option Source} {file : Read Bytes} {as : List Act} {app : MonitorApp}
    (h : system.exec (runMonitorTui baseline capture iface pending file) as = some app) :
    ∃ events, app.timeline = events.map Event.entry ∧
      (∀ i w, app.workers[i]? = some w → ∃ (l : Launch) (read : _) (yielded : _),
        (mountLaunches baseline capture pending file ++
          (runMonitorTui baseline capture iface pending file).launchedAlong as)[i]? = some l ∧
        l.source.frames = read ++ w.source.frames ∧
        l.service.run read = .ok (w.service, yielded) ∧
        entered i events <+: yielded ∧
        (w.phase = .done → w.cancelled = false →
          w.source.frames = [] ∧ entered i events = yielded) ∧
        (i + 1 < app.workers.length → w.cancelled = true)) ∧
      ∀ i, app.workers.length ≤ i → entered i events = [] := by
  obtain ⟨events, hsound⟩ := (sound_mount baseline capture iface pending file).exec h
  rw [List.nil_append] at hsound
  have hlength := hsound.workers
  refine ⟨events, hsound.timeline, fun i w hw => ?_, fun i hi => hsound.others i (hlength ▸ hi)⟩
  have hi := hlength ▸ (List.getElem?_eq_some_iff.mp hw).1
  have hl := List.getElem?_eq_getElem hi
  obtain ⟨read, yielded, hread, hrun, hbegins, hall, hend⟩ := hsound.tracks i _ w hl hw
  refine ⟨_, read, yielded, hl, hread, hrun, (List.prefix_append _ _).trans hbegins,
    fun hdone hc => ?_, fun hlast => hsound.exclusive i w (hlength ▸ hlast) hw⟩
  have hheld := hall (.inr hc)
  rw [hdone, Phase.held, List.append_nil] at hheld
  exact ⟨hend (by rw [hdone]; rfl) hc, hheld⟩

theorem inputText_empty : inputText ∅ = "" := by
  rw [inputText, joinSorted, Finset.sort_empty]
  rfl

/-- The frame of a Modbus write from 10.10.30.142 to 10.10.30.21. -/
def writeFrame : Bytes :=
  [2, 0, 10, 10, 30, 21, 2, 0, 10, 10, 30, 142, 8, 0, 69, 0, 0, 52, 0, 0, 64, 0, 64, 6, 234, 13, 10, 10,
    30, 142, 10, 10, 30, 21, 196, 236, 1, 246, 0, 0, 3, 232, 0, 0, 7, 208, 80, 24, 32, 0, 106, 96, 0, 0, 0, 0, 0, 0, 0, 6,
    1, 6, 0, 9, 0, 250]

/-- A station is typed, a source of one frame opened, and its thread run to its end. -/
def writeWatched : List Act :=
  let now : Datetime := ⟨2024, 1, 2, 3, 4, 5⟩
  [.type .hmi "10.10.30.10", .live (.ok { frames := [some (0, 1, writeFrame)] }), .work 0, .work 0,
    .work 0, .work 0, .call 0 now, .work 0, .work 0, .call 0 now, .work 0, .call 0 now, .call 0 now]

/-- Two alerts are entered: those the monitor yields for the station typed. -/
theorem evidence_live :
    ∃ app events service, system.exec (runMonitorTui {} none none none (.ok [])) writeWatched = some app ∧
      app.timeline = events.map Event.entry ∧
      app.timeline = [
        ("03:04:05", "HIGH", "Modbus 10.10.30.142 -> 10.10.30.21: " ++
          "Unauthorised talker sending OT traffic to a protected device"),
        ("03:04:05", "CRITICAL", "Modbus 10.10.30.142 -> 10.10.30.21: " ++
          "WRITE to the process - FC6 Write Single Register")] ∧
      MonitorService.run { detector := .fresh (.of (.text "10.10.30.10") (.text "")) }
        [some (0, 1, writeFrame)] = .ok (service, entered 0 events) := by
  have hrun : (system.exec (runMonitorTui {} none none none (.ok [])) writeWatched).map
      (fun app => (app.timeline, app.workers.map fun w => (w.phase matches .done, w.cancelled))) =
      some ([
        ("03:04:05", "HIGH", "Modbus 10.10.30.142 -> 10.10.30.21: " ++
          "Unauthorised talker sending OT traffic to a protected device"),
        ("03:04:05", "CRITICAL", "Modbus 10.10.30.142 -> 10.10.30.21: " ++
          "WRITE to the process - FC6 Write Single Register")], [(true, false)]) := by
    decide +kernel
  obtain ⟨app, hexec, hrun⟩ := Option.map_eq_some_iff.mp hrun
  obtain ⟨htimeline, hworkers⟩ := Prod.mk.inj hrun
  obtain ⟨w, hsingle, hw⟩ := List.map_eq_singleton_iff.mp hworkers
  obtain ⟨hdone, hc⟩ := Prod.mk.inj hw
  obtain ⟨events, hevents, hthreads, -⟩ := evidence hexec
  obtain ⟨l, read, yielded, hl, hread, hservice, -, hend, -⟩ := hthreads 0 w (by rw [hsingle]; rfl)
  have hphase : w.phase = .done := by
    cases hphase : w.phase with
    | done => rfl
    | scheduled | drawing | drawn | showing | closing | refreshing => rw [hphase] at hdone; cases hdone
  obtain ⟨hrest, hall⟩ := hend hphase hc
  have hlaunch : (mountLaunches {} none none (.ok []) ++
      (runMonitorTui {} none none none (.ok [])).launchedAlong writeWatched)[0]? =
        some ⟨"10.10.30.10", inputText ∅, { frames := [some (0, 1, writeFrame)] }⟩ := rfl
  rw [inputText_empty] at hlaunch
  obtain rfl := Option.some.inj (hlaunch.symm.trans hl)
  rw [hrest, List.append_nil] at hread
  rw [← hread, ← hall] at hservice
  exact ⟨app, events, w.service, hexec, hevents, htimeline, hservice⟩

/-! ## Stop -/

/-- The alert that a thread waits for the app to show. -/
def Phase.handed : Phase → List Alert
  | .showing alert _ => [alert]
  | .scheduled | .drawing _ | .drawn .. | .closing _ | .refreshing | .done => []

theorem Phase.handed_cases (phase : Phase) :
    phase.handed = [] ∨ ∃ alert ahead, phase = .showing alert ahead ∧ phase.handed = [alert] := by
  cases phase with
  | showing alert ahead => exact .inr ⟨alert, ahead, rfl, rfl⟩
  | scheduled | drawing | drawn | closing | refreshing | done => exact .inl rfl

/-- A cancelled thread hands over no further alert. -/
theorem Moves.handed {w w' : Worker} {out : List Alert} (h : Moves w out w') (hc : w.cancelled = true) :
    out ++ w'.phase.handed <+: w.phase.handed := by
  cases h with
  | shown hphase =>
    rw [hphase]
    exact List.prefix_rfl
  | closed hphase => exact List.nil_prefix
  | refreshed hphase => exact List.nil_prefix
  | work hwork =>
    rw [List.nil_append]
    have hnone : w'.phase.handed = [] := by
      obtain ⟨service, ⟨frames, failure⟩, cancelled, phase⟩ := w
      obtain rfl : cancelled = true := hc
      rcases phase with _ | ⟨_ | ⟨alert, ahead⟩⟩ | ⟨alert, ahead⟩ | _ | _ | _ | _
      · cases hwork
      · rcases frames with _ | ⟨_ | frame, frames⟩
        · cases hwork
          rfl
        · cases hwork
          rfl
        · rw [Worker.work] at hwork
          dsimp only at hwork
          split at hwork <;> (cases hwork; rfl)
      · cases hwork
        rfl
      · cases hwork
        rfl
      all_goals cases hwork
    rw [hnone]
    exact List.nil_prefix

/-- All threads are cancelled. -/
def Stopped (app : MonitorApp) : Prop := ∀ w ∈ app.workers, w.cancelled = true

/-- The alert that the `i`-th thread waits for the app to show. -/
def handed (app : MonitorApp) (i : Nat) : List Alert := (app.workers[i]?.map fun w => w.phase.handed).getD []

theorem stopped_onStop (app : MonitorApp) : app.onStop.Stopped := by
  intro w hw
  rw [onStop, refreshStats_workers] at hw
  obtain ⟨v, -, rfl⟩ := List.mem_map.mp hw
  rfl

theorem handed_onStop (app : MonitorApp) (i : Nat) : app.onStop.handed i = app.handed i := by
  rw [handed, onStop, refreshStats_workers]
  show ((app.workers.map Worker.cancel)[i]?.map _).getD [] = _
  rw [List.getElem?_map, Option.map_map]
  rfl

/-- Where no source is opened, a stopped app stays so, and hands over what it held at most. -/
theorem Stopped.step {app app' : MonitorApp} {a : Act} {new : List Event} (h : app.Stopped)
    (ha : a.opens = none) (heffect : Effect app a new app'.workers) :
    app'.Stopped ∧ ∀ i, entered i new ++ app'.handed i <+: app.handed i := by
  unfold Stopped handed
  generalize app'.workers = workers at heffect
  cases heffect with
  | quiet _ hnew => exact ⟨h, fun i => by rw [hnew, List.nil_append]⟩
  | start hopens => cases ha.symm.trans hopens
  | stop _ =>
    refine ⟨fun w hw => ?_, fun i => ?_⟩
    · obtain ⟨v, -, rfl⟩ := List.mem_map.mp hw
      rfl
    · rw [List.getElem?_map, Option.map_map, entered_nil, List.nil_append]
      exact List.prefix_rfl
  | @move i w w' new _ hw hmoves hothers =>
    have hi : i < app.workers.length := (List.getElem?_eq_some_iff.mp hw).1
    have hc : w.cancelled = true := h w (List.mem_of_getElem? hw)
    refine ⟨fun v hv => ?_, fun j => ?_⟩
    · rcases List.mem_or_eq_of_mem_set hv with hv | rfl
      · exact h v hv
      · exact hmoves.cancelled.trans hc
    · by_cases hj : j = i
      · subst hj
        rw [List.getElem?_set_self hi, hw]
        exact hmoves.handed hc
      · rw [List.getElem?_set_ne (Ne.symm hj), hothers j hj, List.nil_append]

theorem Stopped.exec {app app' : MonitorApp} {as : List Act} (h : app.Stopped)
    (hopens : ∀ a ∈ as, a.opens = none) (hexec : system.exec app as = some app') :
    ∃ new, app'.timeline = app.timeline ++ new.map Event.entry ∧
      ∀ i, entered i new ++ app'.handed i <+: app.handed i := by
  induction as generalizing app with
  | nil =>
    obtain rfl := Option.some.inj hexec
    exact ⟨[], (List.append_nil _).symm, fun i => List.prefix_rfl⟩
  | cons a as ih =>
    obtain ⟨next, hstep, hexec⟩ := Option.bind_eq_some_iff.mp hexec
    obtain ⟨ha, has⟩ := List.forall_mem_cons.mp hopens
    obtain ⟨new, htimeline, heffect⟩ := step_effect hstep
    obtain ⟨hstopped, hhanded⟩ := h.step ha heffect
    obtain ⟨new', htimeline', hhanded'⟩ := ih hstopped has hexec
    refine ⟨new ++ new', ?_, fun i => ?_⟩
    · rw [htimeline', htimeline, List.map_append, List.append_assoc]
    · rw [entered_append, List.append_assoc]
      exact ((List.prefix_append_right_inj _).mpr (hhanded' i)).trans (hhanded i)

/-- **Stop.** Whatever is pressed and however the threads run on after it, while no source is opened a
thread enters no alert but the one it was waiting for the app to show. -/
theorem stop_enters {app app' : MonitorApp} {as : List Act}
    (hexec : system.exec app (.stop :: as) = some app') (hopens : ∀ a ∈ as, a.opens = none) :
    ∃ new, app'.timeline = app.timeline ++ new.map Event.entry ∧
      ∀ i, entered i new = [] ∨ ∃ (w : Worker) (alert : Alert) (ahead : List Alert),
        app.workers[i]? = some w ∧ w.phase = .showing alert ahead ∧ entered i new = [alert] := by
  obtain ⟨next, hstop, hexec⟩ := Option.bind_eq_some_iff.mp hexec
  obtain rfl : app.onStop = next := by
    change MonitorApp.step app .stop = some next at hstop
    unfold MonitorApp.step at hstop
    split at hstop
    · cases hstop
    · exact Option.some.inj hstop
  obtain ⟨new, htimeline, hhanded⟩ := (stopped_onStop app).exec hopens hexec
  rw [(effect_stop app).1] at htimeline
  refine ⟨new, htimeline, fun i => ?_⟩
  have hbegins : entered i new <+: app.handed i :=
    (List.prefix_append _ _).trans (handed_onStop app i ▸ hhanded i)
  rw [handed] at hbegins
  cases hw : app.workers[i]? with
  | none =>
    rw [hw] at hbegins
    exact .inl (List.prefix_nil.mp hbegins)
  | some w =>
    rw [hw, Option.map_some, Option.getD_some] at hbegins
    rcases w.phase.handed_cases with hnone | ⟨alert, ahead, hphase, hhanded⟩
    · rw [hnone] at hbegins
      exact .inl (List.prefix_nil.mp hbegins)
    · rw [hhanded] at hbegins
      rcases List.prefix_cons_iff.mp hbegins with hnil | ⟨rest, hrest, hnil⟩
      · exact .inl hnil
      · rw [List.prefix_nil.mp hnil] at hrest
        exact .inr ⟨w, alert, ahead, rfl, hphase, hrest⟩

/-- A thread that is stopped while it waits for its alert to be shown. -/
theorem stop_enters_showing :
    ∃ app app' new, app.workers.length = 1 ∧
      system.exec app [.stop, .call 0 ⟨2024, 1, 2, 3, 4, 5⟩, .work 0, .call 0 ⟨2024, 1, 2, 3, 4, 5⟩] =
        some app' ∧
      app'.timeline = app.timeline ++ new.map Event.entry ∧ (entered 0 new).length ≤ 1 := by
  let alert : Alert := ⟨0, .high, "10.0.0.9", "10.0.0.1", "Modbus", "write", "T0855", "isolate"⟩
  let app : MonitorApp := { MonitorApp.new {} none none with
    workers := [{ service := { detector := .fresh {} }, source := ⟨[], none⟩, phase := .showing alert [] }] }
  obtain ⟨new, htimeline, hnew⟩ := stop_enters (show system.exec app
    [.stop, .call 0 ⟨2024, 1, 2, 3, 4, 5⟩, .work 0, .call 0 ⟨2024, 1, 2, 3, 4, 5⟩] = some _ from rfl)
    (by simp [Act.opens])
  refine ⟨app, _, new, rfl, rfl, htimeline, ?_⟩
  rcases hnew 0 with hnone | ⟨w, a, ahead, -, -, hone⟩
  · simp [hnone]
  · simp [hone]

/-! ## A thread left alone -/

/-- No thread is cancelled. -/
def Running (app : MonitorApp) : Prop := ∀ w ∈ app.workers, w.cancelled = false

theorem Running.step {app app' : MonitorApp} {a : Act} {new : List Event} (h : app.Running)
    (ha : a.opens = none ∧ a ≠ .stop) (heffect : Effect app a new app'.workers) : app'.Running := by
  unfold Running
  generalize app'.workers = workers at heffect
  cases heffect with
  | quiet _ _ => exact h
  | start hopens => cases ha.1.symm.trans hopens
  | stop hstop => exact absurd hstop ha.2
  | move _ hw hmoves _ =>
    intro v hv
    rcases List.mem_or_eq_of_mem_set hv with hv | rfl
    · exact h v hv
    · exact hmoves.cancelled.trans (h _ (List.mem_of_getElem? hw))

/-- Where no source is opened and nothing is stopped, the threads run on. -/
theorem Running.exec {app app' : MonitorApp} {as : List Act} (h : app.Running)
    (has : ∀ a ∈ as, a.opens = none ∧ a ≠ .stop) (hexec : system.exec app as = some app') :
    app'.Running := by
  induction as generalizing app with
  | nil =>
    obtain rfl := Option.some.inj hexec
    exact h
  | cons a as ih =>
    obtain ⟨next, hstep, hexec⟩ := Option.bind_eq_some_iff.mp hexec
    obtain ⟨ha, has⟩ := List.forall_mem_cons.mp has
    obtain ⟨new, -, heffect⟩ := step_effect hstep
    exact ih (h.step ha heffect) has hexec

/-- How many alerts the service of a worker yields on what its source has left. -/
def Worker.left (w : Worker) : Nat :=
  ((Detector.machine.run w.service.detector (MonitorService.packets w.source.frames)).2.filter
    fun alert => atLeast alert.severity w.service.minSeverity).length

def Phase.weight : Phase → Nat
  | .scheduled => 4
  | .drawing _ => 3
  | .drawn .. | .closing _ => 2
  | .showing .. | .refreshing => 1
  | .done => 0

/-- No less than the steps a thread has left, while it is not cancelled. -/
def Worker.weight (w : Worker) : Nat :=
  2 * w.source.frames.length + 3 * (w.phase.held.length + w.left) + w.phase.weight

theorem Worker.advances {w : Worker} (hc : w.cancelled = false) (hdone : w.phase ≠ .done) :
    ∃ out w', Moves w out w' ∧ w'.weight < w.weight := by
  obtain ⟨service, ⟨frames, failure⟩, cancelled, phase⟩ := w
  obtain rfl : cancelled = false := hc
  have hless : ∀ {phase' : Phase}, 3 * phase'.held.length + phase'.weight < 3 * phase.held.length + phase.weight →
      Worker.weight ⟨service, ⟨frames, failure⟩, false, phase'⟩ <
        Worker.weight ⟨service, ⟨frames, failure⟩, false, phase⟩ := by
    intro phase' h
    simp only [Worker.weight, Worker.left]
    omega
  cases phase with
  | scheduled => exact ⟨[], _, .work rfl, hless (by decide)⟩
  | drawing ahead =>
    cases ahead with
    | cons alert ahead => exact ⟨[], _, .work rfl, hless (by simp [Phase.held, Phase.weight])⟩
    | nil =>
      rcases frames with _ | ⟨_ | frame, frames⟩
      · exact ⟨[], _, .work rfl, hless (by simp [Phase.held, Phase.weight])⟩
      · refine ⟨[], _, .work rfl, ?_⟩
        have hleft : MonitorService.packets (none :: frames) = MonitorService.packets frames := by
          simp [MonitorService.packets]
        simp only [Worker.weight, Worker.left, hleft, List.length_cons]
        omega
      · have hpackets : MonitorService.packets (some frame :: frames) =
            frame.decode :: MonitorService.packets frames := by
          simp [MonitorService.packets]
        have hleft : (Detector.machine.run service.detector
            (MonitorService.packets (some frame :: frames))).2 =
              (service.detector.react frame.decode).2 ++ (Detector.machine.run
                (service.detector.react frame.decode).1 (MonitorService.packets frames)).2 := by
          rw [hpackets, Mealy.Machine.run_cons]
          rfl
        have hfeed := Detector.feed_ok service.detector frame.decode
        refine ⟨[], _, .work (by rw [Worker.work]; dsimp only; rw [hfeed]), ?_⟩
        simp only [Worker.weight, Worker.left, hleft, List.length_cons, List.length_nil,
          List.filter_append, List.length_append, Phase.held, Phase.weight]
        omega
  | drawn alert ahead => exact ⟨[], _, .work rfl, hless (by simp [Phase.held, Phase.weight])⟩
  | showing alert ahead => exact ⟨[alert], _, .shown rfl, hless (by simp [Phase.held, Phase.weight]; omega)⟩
  | closing markup => exact ⟨[], _, .closed rfl, hless (by simp [Phase.held, Phase.weight])⟩
  | refreshing => exact ⟨[], _, .refreshed rfl, hless (by simp [Phase.held, Phase.weight])⟩
  | done => exact absurd rfl hdone

theorem refreshStats_crash (app : MonitorApp) : app.refreshStats.crash = app.crash := by
  unfold refreshStats
  split <;> rfl

/-- What a thread may do next, some act does. -/
theorem Moves.step {app : MonitorApp} {i : Nat} {w w' : Worker} {out : List Alert} (h : Moves w out w')
    (hw : app.workers[i]? = some w) (hcrash : app.crash = none) (now : Datetime) :
    ∃ a app', (a = .work i ∨ a = .call i now) ∧ step app a = some app' ∧ app'.crash = none ∧
      app'.workers = app.workers.set i w' := by
  have hruns : ¬ app.crash.isSome = true := by
    rw [hcrash]
    decide
  have hcall : MonitorApp.step app (.call i now) = app.call i now w := by
    unfold MonitorApp.step
    rw [if_neg hruns]
    show (app.workers[i]?.bind fun w => app.call i now w) = _
    rw [hw, Option.bind_some]
  obtain ⟨service, source, cancelled, phase⟩ := w
  cases h with
  | work h =>
    refine ⟨.work i, { app with workers := app.workers.set i w' }, .inl rfl, ?_, hcrash, rfl⟩
    unfold MonitorApp.step
    rw [if_neg hruns]
    show (app.workers[i]?.bind fun w => w.work.bind fun w =>
      some { app with workers := app.workers.set i w }) = _
    rw [hw, Option.bind_some, h, Option.bind_some]
  | shown h =>
    obtain rfl : phase = _ := h
    refine ⟨.call i now, _, .inr rfl, hcall, ?_, ?_⟩
    · rw [showAlert, refreshStats_crash]
      exact hcrash
    · rw [showAlert, refreshStats_workers]
      rfl
  | closed h =>
    obtain rfl : phase = _ := h
    exact ⟨.call i now, _, .inr rfl, hcall, hcrash, rfl⟩
  | refreshed h =>
    obtain rfl : phase = _ := h
    refine ⟨.call i now, _, .inr rfl, hcall, ?_, ?_⟩
    · rw [refreshStats_crash]
      exact hcrash
    · rw [refreshStats_workers]

/-- **A thread that is not cancelled can be run to its end**, by steps of its own alone. -/
theorem thread_ends {app : MonitorApp} {i : Nat} {w : Worker} (hw : app.workers[i]? = some w)
    (hc : w.cancelled = false) (hcrash : app.crash = none) (now : Datetime) :
    ∃ as app' w', (∀ a ∈ as, a = .work i ∨ a = .call i now) ∧ system.exec app as = some app' ∧
      app'.workers[i]? = some w' ∧ w'.phase = .done ∧ w'.cancelled = false := by
  let Ready (app : MonitorApp) : Prop :=
    app.crash = none ∧ ∃ w, app.workers[i]? = some w ∧ w.cancelled = false
  let Ended (app : MonitorApp) : Prop :=
    ∃ w, app.workers[i]? = some w ∧ w.phase = .done ∧ w.cancelled = false
  let weight (app : MonitorApp) : Nat := (app.workers[i]?.map Worker.weight).getD 0
  have hdown : ∀ app, Ready app → ¬ Ended app → ∃ as app',
      system.Along (fun _ a => a = .work i ∨ a = .call i now) app as ∧ system.exec app as = some app' ∧
        Ready app' ∧ weight app' < weight app := by
    rintro app ⟨hcrash, w, hw, hc⟩ hended
    obtain ⟨out, w', hmoves, hless⟩ := w.advances hc fun hdone => hended ⟨w, hw, hdone, hc⟩
    obtain ⟨a, app', ha, hstep, hcrash', hworkers⟩ := hmoves.step hw hcrash now
    have hi : i < app.workers.length := (List.getElem?_eq_some_iff.mp hw).1
    have hw' : app'.workers[i]? = some w' := by rw [hworkers, List.getElem?_set_self hi]
    refine ⟨[a], app', ⟨ha, fun _ _ => trivial⟩, Lts.System.exec_step hstep rfl,
      ⟨hcrash', w', hw', hmoves.cancelled.trans hc⟩, ?_⟩
    show (app'.workers[i]?.map Worker.weight).getD 0 < (app.workers[i]?.map Worker.weight).getD 0
    rw [hw, hw']
    exact hless
  obtain ⟨as, app', halong, hexec, w', hw', hdone, hc'⟩ :=
    Lts.System.exists_finish weight hdown (show Ready app from ⟨hcrash, w, hw, hc⟩)
  exact ⟨as, app', w', Lts.System.along_mem halong hexec, hexec, hw', hdone, hc'⟩

end Pyscan.MonitorApp
