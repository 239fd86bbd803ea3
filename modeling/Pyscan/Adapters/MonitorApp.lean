import Pyscan.Adapters.IncidentReport
import Pyscan.Adapters.PcapReader
import Pyscan.Application.MonitorService
import Pyscan.Domain.Spelling
import Pyscan.Lib.Lts

/-!
# The command centre

The app keeps an evidence timeline. Each source it opens is read by a thread of
its own, which hands its alerts to the app one at a time; `Stop`, and every new
source, cancels the threads before. A step is a button, a step of a thread, or
the call that a thread waits for; they take turns in any order.
-/

namespace Pyscan

open Py OtDetect PcapReader IncidentReport

/-- `strftime("%H:%M:%S")`. -/
def IncidentReport.Datetime.clock (t : Datetime) : String :=
  decPad t.hour ++ ":" ++ decPad t.minute ++ ":" ++ decPad t.second

/-- `strftime("%Y%m%d_%H%M%S")`. -/
def IncidentReport.Datetime.stamp (t : Datetime) : String :=
  t.number ++ "_" ++ decPad t.hour ++ decPad t.minute ++ decPad t.second

/-- A `Path`: its text, and its last part. -/
structure CapturePath where
  text : String
  name : String

namespace MonitorApp

/-- The items of a frame source, and the exception that ends it. -/
structure Source where
  frames : List (Option MonitorService.Frame)
  failure : Option Raised := none

/-- Where the thread of `consume` stands; `ahead` are the alerts of the last frame still to be yielded. -/
inductive Phase where
  | scheduled
  /-- in the generator of `service.run` -/
  | drawing (ahead : List Alert)
  /-- before the check of `is_cancelled` -/
  | drawn (alert : Alert) (ahead : List Alert)
  /-- in `call_from_thread(self.show_alert, alert)` -/
  | showing (alert : Alert) (ahead : List Alert)
  /-- in `call_from_thread(self._write, markup)` -/
  | closing (markup : String)
  /-- in `call_from_thread(self._refresh_stats)` -/
  | refreshing
  | done

/-- A worker: its service, what its source has left, and its thread. -/
structure Worker where
  service : MonitorService
  source : Source
  cancelled : Bool := false
  phase : Phase := .scheduled

def Worker.cancel (w : Worker) : Worker := { w with cancelled := true }

/-- `f"[red]capture stopped: {exc}[/]"`, where the source gives the text of the exception. -/
def stoppedText (e : Raised) : String := "[red]capture stopped: " ++ e.text.getD "" ++ "[/]"

def exhaustedText : String := "[green]source exhausted[/]"

/-- The thread's own next step; what it hands to the app is the app's. -/
def Worker.work (w : Worker) : Option Worker :=
  match w.phase with
  | .scheduled => if w.cancelled then none else some { w with phase := .drawing [] }
  | .drawing (alert :: ahead) => some { w with phase := .drawn alert ahead }
  | .drawing [] =>
    match w.source.frames with
    | [] => some { w with phase := .closing (w.source.failure.elim exhaustedText stoppedText) }
    | none :: frames => some { w with source := { w.source with frames } }
    | some frame :: frames =>
      match w.service.detector.feed frame.decode with
      | .error kind => some { w with phase := .closing (stoppedText ⟨kind, none⟩) }
      | .ok (detector, alerts) => some { w with
          source := { w.source with frames }
          service := { w.service with detector }
          phase := .drawing (alerts.filter fun alert => atLeast alert.severity w.service.minSeverity) }
  | .drawn alert ahead =>
    some { w with phase := if w.cancelled then .closing exhaustedText else .showing alert ahead }
  | .showing .. | .closing _ | .refreshing | .done => none

end MonitorApp

structure MonitorApp where
  /-- the values of the inputs -/
  hmi : String
  plcs : String
  iface : String
  note : String := ""
  capture : Option CapturePath
  /-- the lines of the log -/
  log : List String := []
  stats : String := "engine idle"
  timeline : List TimelineEntry := []
  /-- the workers so far; the app's service is that of the last -/
  workers : List MonitorApp.Worker := []
  /-- the files written: name and text -/
  reports : List (String × String) := []
  notices : List String := []
  /-- an exception no handler catches ends the app -/
  crash : Option Raised := none

namespace MonitorApp

/-- `",".join(sorted(names))`. -/
def inputText (names : Finset String) : String := joinSorted "," names

def new (baseline : Baseline) (capture : Option CapturePath) (iface : Option String) : MonitorApp where
  hmi := inputText baseline.hmi
  plcs := inputText baseline.plcs
  iface := match iface with
    | some name => if name = "" then "eth0" else name
    | none => "eth0"
  capture

def write (app : MonitorApp) (markup : String) : MonitorApp := { app with log := app.log ++ [markup] }

def service (app : MonitorApp) : Option MonitorService := app.workers.getLast?.map Worker.service

def refreshStats (app : MonitorApp) : MonitorApp :=
  match app.service with
  | none => { app with stats := "engine idle" }
  | some service => { app with
      stats := "engine running - " ++ toString service.detector.packets ++ " OT packets - " ++
        toString service.detector.alerts ++ " alerts - hostile sources: " ++
        joinedOr service.detector.hostileSources "-" }

def addEvent (app : MonitorApp) (now : Datetime) (kind detail : String) : MonitorApp :=
  { app with timeline := app.timeline ++ [(now.clock, kind, detail)] }

def severityStyle : Severity → String
  | .critical => "bold red"
  | .high => "red"
  | .medium => "yellow"
  | .info => "cyan"

/-- `f"{s:>15}"`. -/
def padLeft (s : String) : String := String.ofList (s.toList.leftpad 15 ' ')

/-- `f"{s:<15}"`. -/
def padRight (s : String) : String := String.ofList (s.toList.rightpad 15 ' ')

/-- What the timeline says of an alert. -/
def alertText (alert : Alert) : String :=
  alert.protocol ++ " " ++ alert.src ++ " -> " ++ alert.dst ++ ": " ++ alert.summary

def showAlert (app : MonitorApp) (now : Datetime) (alert : Alert) : MonitorApp :=
  let app := app.write ("[" ++ severityStyle alert.severity ++ " b][" ++ alert.severity.value ++
    "][/] [b]" ++ padLeft alert.src ++ "[/] -> " ++ padRight alert.dst ++ " [cyan]" ++ alert.protocol ++
    "[/]  " ++ alert.summary)
  let app := app.write ("        [dim]ATT&CK:[/] " ++ alert.technique ++ "   [green]>[/] " ++ alert.action)
  (app.addEvent now alert.severity.value (alertText alert)).refreshStats

/-- `_build_service`, and the worker of `self.consume(source)`, which cancels those before it. -/
def consume (app : MonitorApp) (source : Source) (baseline : Baseline) : MonitorApp :=
  { app with workers := app.workers.map Worker.cancel ++
      [{ service := { detector := .fresh baseline }, source }] }

def start (app : MonitorApp) (source : Source) (label : String) : MonitorApp :=
  let baseline := Baseline.of (.text app.hmi) (.text app.plcs)
  let app := app.write ("[green]monitoring " ++ label ++ "[/] - HMI: " ++
    joinedOr baseline.hmi "unset" ++ " - protecting: " ++
    joinedOr baseline.plcs "every OT destination")
  app.consume source baseline

/-! ## The buttons -/

/-- `opened` is what `live_capture` gives: a source, or the text of its `RuntimeError`. -/
def onLive (app : MonitorApp) (opened : Except String Source) : MonitorApp :=
  match opened with
  | .error text => app.write ("[red]" ++ text ++ "[/]")
  | .ok source =>
    let iface := stripWhite app.iface
    app.start source ("interface " ++ if iface = "" then "any" else iface)

def onStop (app : MonitorApp) : MonitorApp :=
  let app := { app with workers := app.workers.map Worker.cancel }
  (app.write "[yellow]capture stopped[/]").refreshStats

/-- The source of a replay: the whole file, read first. -/
def replayed (file : Read Bytes) : Read Source := do
  let contents ← file
  match (readPcap contents).error with
  | some e => .error e
  | none => .ok { frames := (readPcap contents).items.map some }

/-- `file` is what opening the path gives: the bytes of the file, or an `OSError`. -/
def startReplay (app : MonitorApp) (file : Read Bytes) : MonitorApp :=
  let path := app.capture.getD ⟨"capture.pcap", "capture.pcap"⟩
  match replayed file with
  | .ok source => app.start source ("replay of " ++ path.name)
  | .error e =>
    if e.kind = .osError ∨ e.kind = .valueError then
      let app := app.write ("[red]cannot replay " ++ path.text ++ ": " ++ e.text.getD "" ++ "[/]")
      app.write "[dim]generate a practice capture with:  pyscan lab capture.pcap[/]"
    else { app with crash := some e }

def onClear (app : MonitorApp) : MonitorApp := { app with log := [] }

def onAddNote (app : MonitorApp) (now : Datetime) : MonitorApp :=
  let text := stripWhite app.note
  if text = "" then app else { app.addEvent now "NOTE" text with note := "" }

/-- The clock is read for the name of the file, for the report and for the entry. -/
def onExport (app : MonitorApp) (stamp now entered : Datetime) : MonitorApp :=
  let detector := (app.service.map MonitorService.detector).getD {}
  let path := "incident_" ++ stamp.stamp ++ ".md"
  let app := { app with
    reports := app.reports ++ [(path, buildReport detector app.timeline now)]
    notices := app.notices ++ ["report written: " ++ path] }
  app.addEvent entered "REPORT" ("exported -> " ++ path)

/-- `pending` is the source of a live capture, `file` as for a replay. -/
def onMount (app : MonitorApp) (pending : Option Source) (file : Read Bytes) : MonitorApp :=
  match pending with
  | some source => app.start source "live capture"
  | none => if app.capture.isSome then app.startReplay file else app

/-- The app that `run_monitor_tui` runs. -/
def runMonitorTui (baseline : Baseline) (capture : Option CapturePath) (iface : Option String)
    (pending : Option Source) (file : Read Bytes) : MonitorApp :=
  (new baseline capture iface).onMount pending file

/-! ## Threads and buttons -/

inductive Field where
  | hmi
  | plcs
  | iface
  | note
  deriving DecidableEq, Repr

def typed (app : MonitorApp) (value : String) : Field → MonitorApp
  | .hmi => { app with hmi := value }
  | .plcs => { app with plcs := value }
  | .iface => { app with iface := value }
  | .note => { app with note := value }

inductive Act where
  | type (field : Field) (value : String)
  | live (opened : Except String Source)
  | stop
  | replay (file : Read Bytes)
  | clear
  | addNote (now : Datetime)
  | exportReport (stamp now entered : Datetime)
  /-- the `i`-th worker's thread takes a step of its own -/
  | work (i : Nat)
  /-- the app runs the call the `i`-th thread waits for -/
  | call (i : Nat) (now : Datetime)

/-- The call of a thread, run by the app; the thread goes on. -/
def call (app : MonitorApp) (i : Nat) (now : Datetime) (w : Worker) : Option MonitorApp :=
  let set (phase : Phase) := { app with workers := app.workers.set i { w with phase } }
  match w.phase with
  | .showing alert ahead => some ((set (.drawing ahead)).showAlert now alert)
  | .closing markup => some ((set .refreshing).write markup)
  | .refreshing => some (set .done).refreshStats
  | .scheduled | .drawing _ | .drawn .. | .done => none

def step (app : MonitorApp) (a : Act) : Option MonitorApp :=
  if app.crash.isSome then none
  else match a with
  | .type field value => some (app.typed value field)
  | .live opened => some (app.onLive opened)
  | .stop => some app.onStop
  | .replay file => some (app.startReplay file)
  | .clear => some app.onClear
  | .addNote now => some (app.onAddNote now)
  | .exportReport stamp now entered => some (app.onExport stamp now entered)
  | .work i => do
    let w ← app.workers[i]?
    let w ← w.work
    some { app with workers := app.workers.set i w }
  | .call i now => do
    let w ← app.workers[i]?
    app.call i now w

def system : Lts.System MonitorApp Act := ⟨step⟩

/-- The source an act opens. -/
def Act.opens : Act → Option Source
  | .live opened => opened.toOption
  | .replay file => (replayed file).toOption
  | .type .. | .stop | .clear | .addNote _ | .exportReport .. | .work _ | .call .. => none

/-- The source opened at the start. -/
def mountOpens (capture : Option CapturePath) (pending : Option Source) (file : Read Bytes) :
    Option Source :=
  pending.or (capture.bind fun _ => (replayed file).toOption)

end MonitorApp

end Pyscan
