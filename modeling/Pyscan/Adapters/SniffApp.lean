import Pyscan.Adapters.PacketTable
import Pyscan.Application.MonitorService
import Pyscan.Lib.Lts
import Pyscan.Lib.Tally

/-!
# The live packet view

The capture thread decodes the frames of its source and posts them; the app
takes them one by one, between keys that pause it or clear its table. What it
keeps up row by row is **the table of the packets that came while it was not
paused, since it was last cleared** (`shows_kept`), whatever the order of steps.
-/

namespace Pyscan

open Py PacketTable

structure SniffApp where
  titleText : String
  paused : Bool := false
  counts : List (String × Nat) := []
  n : Nat := 0
  t0 : Option ℚ := none
  /-- the rows of the table -/
  table : List Row := []
  /-- the line of the statistics -/
  stats : String := ""

namespace SniffApp

def statsLine (titleText : String) (n : Nat) (items : List (String × Nat)) (paused : Bool) : String :=
  let breakdown := "  ".intercalate (items.map fun item => item.1 ++ " " ++ toString item.2)
  "[b]" ++ titleText ++ "[/b]   packets: " ++ toString n ++ "   " ++ breakdown ++
    if paused then "   [yellow]❚❚ PAUSED[/yellow]" else ""

def refreshStats (app : SniffApp) : SniffApp :=
  { app with stats := statsLine app.titleText app.n (Tally.sorted app.counts) app.paused }

def onMount (titleText : String) : SniffApp := refreshStats { titleText }

def onPacketArrived (app : SniffApp) (pkt : Packet) : SniffApp :=
  if app.paused then app
  else
    let n := app.n + 1
    let t0 := app.t0.getD pkt.ts
    refreshStats { app with
      n
      t0 := some t0
      counts := Tally.bump pkt.protocol app.counts
      table := app.table ++ [row n t0 pkt] }

def actionTogglePause (app : SniffApp) : SniffApp := refreshStats { app with paused := !app.paused }

def actionClear (app : SniffApp) : SniffApp :=
  refreshStats { app with table := [], n := 0, counts := [], t0 := none }

/-! ## The capture thread and the keys -/

/-- The rest of the source, the packets posted and not yet taken, and the app. -/
structure Session where
  source : List (Option MonitorService.Frame)
  posted : List Packet
  app : SniffApp

inductive Act where
  /-- the capture thread takes one item of the source -/
  | capture
  /-- the app takes one packet -/
  | arrive
  | togglePause
  | clear
  deriving DecidableEq, Repr

def step (s : Session) : Act → Option Session
  | .capture =>
    match s.source with
    | [] => none
    | none :: source => some { s with source }
    | some frame :: source => some { s with source, posted := s.posted ++ [frame.decode] }
  | .arrive =>
    match s.posted with
    | [] => none
    | pkt :: posted => some { s with posted, app := s.app.onPacketArrived pkt }
  | .togglePause => some { s with app := s.app.actionTogglePause }
  | .clear => some { s with app := s.app.actionClear }

def system : Lts.System Session Act := ⟨step⟩

def mounted (titleText : String) (source : List (Option MonitorService.Frame)) : Session :=
  ⟨source, [], onMount titleText⟩

/-! ## What the view is of -/

/-- The app as a user sees it: the packets to come, whether it is paused, what it shows. -/
structure View where
  coming : List Packet
  paused : Bool
  shown : List Packet

def View.step (v : View) : Act → Option View
  | .capture => some v
  | .arrive =>
    match v.coming with
    | [] => none
    | pkt :: coming => some { v with coming, shown := if v.paused then v.shown else v.shown ++ [pkt] }
  | .togglePause => some { v with paused := !v.paused }
  | .clear => some { v with shown := [] }

def views : Lts.System View Act := ⟨View.step⟩

/-- The app that shows these packets. -/
def ofShown (titleText : String) (paused : Bool) (shown : List Packet) : SniffApp :=
  refreshStats {
    titleText
    paused
    counts := Tally.tally (shown.map Packet.protocol)
    n := shown.length
    t0 := shown.head?.map Packet.ts
    table := rows shown }

theorem onPacketArrived_ofShown (titleText : String) (shown : List Packet) (pkt : Packet) :
    (ofShown titleText false shown).onPacketArrived pkt = ofShown titleText false (shown ++ [pkt]) := by
  have ht0 : (shown ++ [pkt]).head?.map Packet.ts = some (startTime shown pkt) := by
    cases shown <;> rfl
  have hcounts : Tally.tally ((shown ++ [pkt]).map Packet.protocol) =
      Tally.bump pkt.protocol (Tally.tally (shown.map Packet.protocol)) := by
    rw [List.map_append]
    exact Tally.tally_concat _ _
  rw [ofShown, ofShown, ht0, hcounts, rows_concat, List.length_append]
  rfl

/-- The state of the app is a function of its view. -/
theorem step_view {titleText : String} {s s' : Session} {v : View} {a : Act}
    (hcoming : v.coming = s.posted ++ MonitorService.packets s.source)
    (happ : s.app = ofShown titleText v.paused v.shown) (h : step s a = some s') :
    ∃ v', v.step a = some v' ∧ v'.coming = s'.posted ++ MonitorService.packets s'.source ∧
      s'.app = ofShown titleText v'.paused v'.shown := by
  cases a with
  | capture =>
    refine ⟨v, rfl, ?_, ?_⟩
    · rw [hcoming]
      obtain ⟨source, posted, app⟩ := s
      rcases source with _ | ⟨_ | frame, source⟩
      · cases h
      · cases h
        rfl
      · cases h
        simp [MonitorService.packets]
    · rw [← happ]
      obtain ⟨source, posted, app⟩ := s
      rcases source with _ | ⟨_ | frame, source⟩ <;> cases h <;> rfl
  | arrive =>
    obtain ⟨source, posted, app⟩ := s
    cases posted with
    | nil => cases h
    | cons pkt posted =>
      cases h
      obtain ⟨coming, paused, shown⟩ := v
      obtain rfl : coming = pkt :: (posted ++ MonitorService.packets source) := hcoming
      obtain rfl : app = ofShown titleText paused shown := happ
      refine ⟨_, rfl, rfl, ?_⟩
      cases paused with
      | true => rfl
      | false => exact onPacketArrived_ofShown titleText shown pkt
  | togglePause =>
    cases h
    exact ⟨_, rfl, hcoming, by rw [happ]; rfl⟩
  | clear =>
    cases h
    exact ⟨_, rfl, hcoming, by rw [happ]; rfl⟩

/-- Every schedule of the app is one of its view. -/
theorem exec_view {titleText : String} {source : List (Option MonitorService.Frame)} {as : List Act}
    {s : Session} (h : system.exec (mounted titleText source) as = some s) :
    ∃ v, views.exec ⟨MonitorService.packets source, false, []⟩ as = some v ∧
      v.coming = s.posted ++ MonitorService.packets s.source ∧
      s.app = ofShown titleText v.paused v.shown := by
  obtain ⟨v, hv, hR⟩ := Lts.System.exec_simulates (T := views) (fun a => [a])
    (R := fun s v => v.coming = s.posted ++ MonitorService.packets s.source ∧
      s.app = ofShown titleText v.paused v.shown)
    (fun s v a s' hR hstep => by
      obtain ⟨v', hv', hR'⟩ := step_view hR.1 hR.2 hstep
      exact ⟨v', Lts.System.exec_step hv' (Lts.System.exec_nil v'), hR'⟩)
    (t := ⟨MonitorService.packets source, false, []⟩) ⟨rfl, rfl⟩ h
  rw [List.flatMap_singleton'] at hv
  exact ⟨v, hv, hR⟩

/-- Of the packets that arrive on a schedule, those that do so while it is not paused and are not
cleared afterwards. -/
def kept : (paused : Bool) → List Act → List Packet → List Packet
  | _, [], _ => []
  | _, .arrive :: _, [] => []
  | paused, .arrive :: as, pkt :: pkts =>
    if paused ∨ .clear ∈ as then kept paused as pkts else pkt :: kept paused as pkts
  | paused, .togglePause :: as, pkts => kept (!paused) as pkts
  | paused, .capture :: as, pkts | paused, .clear :: as, pkts => kept paused as pkts

theorem kept_sublist (paused : Bool) (as : List Act) (pkts : List Packet) :
    (kept paused as pkts).Sublist (pkts.take (as.count .arrive)) := by
  induction as generalizing paused pkts with
  | nil => exact List.nil_sublist _
  | cons a as ih =>
    cases a with
    | capture => exact ih paused pkts
    | togglePause => exact ih (!paused) pkts
    | clear => exact ih paused pkts
    | arrive =>
      cases pkts with
      | nil => exact List.nil_sublist _
      | cons pkt pkts =>
        rw [kept, List.count_cons_self, List.take_succ_cons]
        split
        · exact (ih paused pkts).cons pkt
        · exact (ih paused pkts).cons_cons pkt

/-- Where no key is pressed, all that arrives is kept. -/
theorem kept_of_no_keys {as : List Act} (hpause : .togglePause ∉ as) (hclear : .clear ∉ as)
    (pkts : List Packet) : kept false as pkts = pkts.take (as.count .arrive) := by
  induction as generalizing pkts with
  | nil => rfl
  | cons a as ih =>
    have ih := ih (fun h => hpause (List.mem_cons_of_mem _ h)) (fun h => hclear (List.mem_cons_of_mem _ h))
    cases a with
    | capture => exact ih pkts
    | togglePause => exact absurd List.mem_cons_self hpause
    | clear => exact absurd List.mem_cons_self hclear
    | arrive =>
      cases pkts with
      | nil =>
        rw [List.take_nil]
        rfl
      | cons pkt pkts =>
        have hkeep : ¬ (false = true ∨ Act.clear ∈ as) := by
          rintro (h | h)
          · cases h
          · exact hclear (List.mem_cons_of_mem _ h)
        rw [kept, if_neg hkeep, ih, List.count_cons_self, List.take_succ_cons]

/-- A run of the view, in closed form. -/
theorem views_exec {v v' : View} {as : List Act} (h : views.exec v as = some v') :
    v'.shown = (if .clear ∈ as then [] else v.shown) ++ kept v.paused as v.coming ∧
      as.count .arrive ≤ v.coming.length ∧ v'.coming = v.coming.drop (as.count .arrive) ∧
      v'.paused = (v.paused ^^ (as.count .togglePause % 2 == 1)) := by
  induction as generalizing v with
  | nil =>
    obtain rfl := Option.some.inj h
    exact ⟨by simp [kept], by simp, by simp, by simp⟩
  | cons a as ih =>
    obtain ⟨u, hu, h⟩ := Option.bind_eq_some_iff.mp h
    obtain ⟨hshown, hle, hcoming, hpaused⟩ := ih h
    cases a with
    | capture =>
      cases hu
      exact ⟨by simpa [kept] using hshown, by simpa using hle, by simpa using hcoming,
        by simpa using hpaused⟩
    | arrive =>
      obtain ⟨_ | ⟨pkt, coming⟩, paused, shown⟩ := v
      · cases hu
      · cases hu
        refine ⟨?_, ?_, ?_, by simpa using hpaused⟩
        · rw [hshown]
          by_cases hclear : Act.clear ∈ as <;> cases paused <;> simp [kept, hclear]
        · rw [List.count_cons_self, List.length_cons]
          exact Nat.succ_le_succ hle
        · rw [List.count_cons_self, List.drop_succ_cons, hcoming]
    | togglePause =>
      cases hu
      refine ⟨by simpa [kept] using hshown, by simpa using hle, by simpa using hcoming, ?_⟩
      rw [hpaused, List.count_cons_self]
      rcases Nat.mod_two_eq_zero_or_one (as.count .togglePause) with hm | hm <;>
        cases v.paused <;> simp [hm, Nat.add_mod]
    | clear =>
      cases hu
      exact ⟨by simpa [kept] using hshown, by simpa using hle, by simpa using hcoming,
        by simpa using hpaused⟩

theorem table_ofShown (titleText : String) (paused : Bool) (shown : List Packet) :
    (ofShown titleText paused shown).table = rows shown := rfl

/-- The statistics name each protocol shown once, in order, with how many packets are of it. -/
theorem stats_ofShown (titleText : String) (paused : Bool) (shown : List Packet) :
    (ofShown titleText paused shown).stats = statsLine titleText shown.length
      (((shown.map Packet.protocol).toFinset.sort (· ≤ ·)).map fun protocol =>
        (protocol, shown.countP (·.protocol = protocol))) paused := by
  show statsLine titleText shown.length (Tally.sorted (Tally.tally _)) paused = _
  rw [Tally.sorted_tally]
  congr 1
  refine List.map_congr_left fun protocol _ => ?_
  rw [List.count, List.countP_map]
  rfl

/-- The app after any schedule. -/
theorem exec_ofShown {titleText : String} {source : List (Option MonitorService.Frame)} {as : List Act}
    {s : Session} (h : system.exec (mounted titleText source) as = some s) :
    s.app = ofShown titleText (as.count .togglePause % 2 == 1)
        (kept false as (MonitorService.packets source)) ∧
      as.count .arrive ≤ (MonitorService.packets source).length ∧
      s.posted ++ MonitorService.packets s.source =
        (MonitorService.packets source).drop (as.count .arrive) := by
  obtain ⟨v, hv, hcoming, happ⟩ := exec_view h
  obtain ⟨hshown, hle, hrest, hpaused⟩ := views_exec hv
  rw [ite_self, List.nil_append] at hshown
  rw [Bool.false_xor] at hpaused
  exact ⟨by rw [happ, hshown, hpaused], hle, by rw [← hcoming, hrest]⟩

/-- **What the live view shows**, after any order of captures, arrivals and keys: the table and the
statistics of the packets kept, numbered and timed from the first of them, while every packet of the
source has arrived, is posted or is still to come, in its place. -/
theorem shows_kept {titleText : String} {source : List (Option MonitorService.Frame)} {as : List Act}
    {s : Session} (h : system.exec (mounted titleText source) as = some s) :
    ∃ shown arrived, shown = kept false as (MonitorService.packets source) ∧
      arrived.length = as.count .arrive ∧
      MonitorService.packets source = arrived ++ s.posted ++ MonitorService.packets s.source ∧
      shown.Sublist arrived ∧ (.togglePause ∉ as → .clear ∉ as → shown = arrived) ∧
      s.app.table = rows shown ∧ s.app.n = shown.length ∧
      s.app.paused = (as.count .togglePause % 2 == 1) ∧
      s.app.stats = statsLine titleText shown.length
        (((shown.map Packet.protocol).toFinset.sort (· ≤ ·)).map fun protocol =>
          (protocol, shown.countP (·.protocol = protocol))) s.app.paused := by
  obtain ⟨happ, hle, hrest⟩ := exec_ofShown h
  refine ⟨_, (MonitorService.packets source).take (as.count .arrive), rfl, List.length_take_of_le hle,
    ?_, kept_sublist false as _, fun hpause hclear => kept_of_no_keys hpause hclear _, ?_, ?_, ?_, ?_⟩
  · rw [List.append_assoc, hrest, List.take_append_drop]
  · rw [happ, table_ofShown]
  · rw [happ]
    rfl
  · rw [happ]
    rfl
  · rw [happ, stats_ofShown]
    rfl

theorem shows_kept_paused :
    ∃ s, system.exec (mounted "pyscan sniff" [some (0, 1, []), none, some (1, 1, [])])
        [.capture, .arrive, .togglePause, .capture, .capture, .arrive] = some s ∧
      s.app.n = 1 ∧ s.app.paused = true := by
  obtain ⟨shown, arrived, hshown, -, -, -, -, -, hn, hpaused, -⟩ := shows_kept
    (show system.exec (mounted "pyscan sniff" [some (0, 1, []), none, some (1, 1, [])])
      [.capture, .arrive, .togglePause, .capture, .capture, .arrive] = some _ from rfl)
  exact ⟨_, rfl, by rw [hn, hshown]; rfl, hpaused⟩

end SniffApp

end Pyscan
