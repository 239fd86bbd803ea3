import Pyscan.Application.Retries
import Pyscan.Application.ScanService

/-!
# The outcome of a scan

The rest of `ScanService.scan_host`: what it makes of the answers, once every
job is done. A strategy is a function of the port and of how often the port has
been probed; whatever the schedule, the report is `Scan.outcome`, in which no
schedule occurs.
-/

namespace Pyscan

open Py Lts

/-- `a or b`. -/
def orElse (a b : Option String) : Option String :=
  match a with
  | some s => if s = "" then b else some s
  | none => b

/-- `ScanService._identify`, with `fingerprint.identify` a parameter. -/
def ScanService.identify (fingerprint : Option String → Nat → ServiceInfo) (result : PortResult) :
    PortResult :=
  if result.state ≠ .opened then result
  else
    let info := fingerprint result.banner result.port
    { result with
      service := orElse info.service result.service
      product := info.product
      version := info.version }

/-- `sorted(enriched, key=lambda r: r.port)`. -/
def sortedByPort (results : List PortResult) : List PortResult :=
  results.mergeSort fun a b => decide (a.port ≤ b.port)

/-- What `scan_host` holds when it starts to gather. -/
structure Scan where
  target : ScanTarget
  ip : Option String
  /-- the strategy's name -/
  scanType : String
  startedAt : ℚ
  t0 : ℚ

section Report

variable (fingerprint : Option String → Nat → ServiceInfo)

/-- The report, once `gather` has every answer. -/
def Scan.report (scan : Scan) (s : ScanHost) : Option ScanReport :=
  s.pool.answers.map fun results =>
    let enriched := results.map (ScanService.identify fingerprint)
    { target := scan.target
      host := { host := scan.target.host, ip := scan.ip, ports := sortedByPort enriched }
      scanType := scan.scanType
      startedAt := scan.startedAt
      durationS := s.now - scan.t0 }

variable {fingerprint} {results : List PortResult} {r : PortResult}

theorem identify_port (r : PortResult) : (ScanService.identify fingerprint r).port = r.port := by
  unfold ScanService.identify
  split <;> rfl

theorem identify_state (r : PortResult) : (ScanService.identify fingerprint r).state = r.state := by
  unfold ScanService.identify
  split <;> rfl

theorem identify_banner (r : PortResult) :
    (ScanService.identify fingerprint r).banner = r.banner := by
  unfold ScanService.identify
  split <;> rfl

theorem sortedByPort_perm (results : List PortResult) : (sortedByPort results).Perm results :=
  List.mergeSort_perm _ _

theorem sortedByPort_sorted (results : List PortResult) :
    (sortedByPort results).Pairwise fun a b => a.port ≤ b.port := by
  have h : (sortedByPort results).Pairwise fun a b => decide (a.port ≤ b.port) = true :=
    List.pairwise_mergeSort
      (fun a b c hab hbc => decide_eq_true ((of_decide_eq_true hab).trans (of_decide_eq_true hbc)))
      (fun a b => by simp [Nat.le_total]) results
  exact h.imp fun hab => of_decide_eq_true hab

/-- Ports that occur once are sorted strictly. -/
theorem sortedByPort_strict (h : (results.map PortResult.port).Nodup) :
    (sortedByPort results).Pairwise fun a b => a.port < b.port := by
  have hnodup := ((sortedByPort_perm results).map PortResult.port).nodup_iff.mpr h
  apply ((sortedByPort_sorted results).and (List.pairwise_map.mp hnodup)).imp
  rintro a b ⟨hle, hne⟩
  exact lt_of_le_of_ne hle hne

end Report

/-- What `bounded` returns for a port. -/
def lastAnswer (strategy : Nat → Nat → PortResult) (retries : Nat) (port : Nat) : PortResult :=
  strategy port (lastAttempt inconclusive (strategy port) 1 retries)

/-- The host part of a report, from the strategy alone. -/
def Scan.outcome (scan : Scan) (fingerprint : Option String → Nat → ServiceInfo)
    (strategy : Nat → Nat → PortResult) (retries : Nat) : HostResult where
  host := scan.target.host
  ip := scan.ip
  ports := sortedByPort
    (scan.target.ports.map fun port => ScanService.identify fingerprint (lastAnswer strategy retries port))

namespace ScanHost

/-- How many calls of `scan_port` are in flight. -/
def inFlight (s : ScanHost) : Nat :=
  s.pool.jobs.countP fun job => match job.phase with
    | .running _ _ => true
    | _ => false

/-- How often a port has been probed. -/
def attempts (s : ScanHost) (ports : List Nat) (port : Nat) : Nat :=
  s.calls.countP fun call => decide (ports[call.2]? = some port)

/-- A call answers what the strategy has for the port at this attempt. -/
def Follows (strategy : Nat → Nat → PortResult) (ports : List Nat) (s : ScanHost) (a : Act) : Prop :=
  ∀ i duration answer port, a = .probe (.launch i duration answer) → ports[i]? = some port →
    answer = strategy port (s.attempts ports port + 1)

/-! ## Every job is on its way -/

variable {strategy : Nat → Nat → PortResult} {ports : List Nat} {concurrency retries : Nat}
  {s s' : ScanHost}

structure OnTrack (strategy : Nat → Nat → PortResult) (ports : List Nat) (concurrency retries : Nat)
    (s : ScanHost) : Prop where
  sound : s.pool.Sound concurrency
  length : s.pool.jobs.length = ports.length
  timely : s.pool.Timely s.now
  tracks : ∀ (i : Nat) (job : Job PortResult) (port : Nat),
    s.pool.jobs[i]? = some job → ports[i]? = some port →
      job.Tracks inconclusive (strategy port) retries (s.attempts ports port)

theorem onTrack_start (ports : List Nat) (concurrency retries : Nat) (now : ℚ) (limiter : Option Pacer) :
    OnTrack strategy ports concurrency retries
      { now, limiter, pool := Pool.start concurrency ports.length retries } where
  sound := Pool.sound_start _ _ _
  length := List.length_replicate
  timely job hjob := by
    rw [List.eq_of_mem_replicate hjob]
    exact fun _ => nofun
  tracks i job port hjob hport := by
    rw [List.eq_of_mem_replicate (List.mem_of_getElem? hjob)]
    exact Job.tracks_start _ _ _

/-- A launch is an attempt at the port of its position, and at no other. -/
theorem attempts_probe (hports : ports.Nodup) {a : Pool.Act PortResult} {port j : Nat}
    (hcalls : s'.calls = s.calls ++ a.launched.map fun i => (s.now, i)) (hj : ports[j]? = some port) :
    s'.attempts ports port = s.attempts ports port + (a.launches j).toList.length := by
  unfold attempts
  rw [hcalls, List.countP_append]
  congr 1
  cases a with
  | launch i duration answer =>
    have hsame : ports[i]? = some port ↔ i = j := by
      refine ⟨fun hi => ?_, fun h => h ▸ hj⟩
      exact (List.getElem?_inj (List.getElem?_eq_some_iff.mp hi).1 hports).mp (hi.trans hj.symm)
    simp only [Pool.Act.launched, Pool.Act.launches, List.map_cons, List.map_nil, List.countP_cons,
      List.countP_nil, hsame, Nat.zero_add, decide_eq_true_eq]
    split <;> rfl
  | _ => rfl

theorem OnTrack.step (h : OnTrack strategy ports concurrency retries s) (hports : ports.Nodup)
    {a : Act} (hfollows : Follows strategy ports s a) (hs : system.step s a = some s') :
    OnTrack strategy ports concurrency retries s' := by
  cases a with
  | probe a =>
    obtain ⟨hstep, hnow, hcalls⟩ := probe_inv hs
    refine ⟨h.sound.step hstep, (Pool.step_length hstep).trans h.length, ?_, ?_⟩
    · rw [hnow]
      exact h.timely.step h.sound hstep
    · intro j job' port hjob' hport
      obtain ⟨job, hjob, hmoves⟩ := h.sound.moves hstep hjob'
      rw [attempts_probe hports hcalls hport]
      refine (h.tracks j job port hjob hport).move hmoves fun answer hanswer => ?_
      cases a with
      | launch i duration x =>
        simp only [Pool.Act.launches] at hanswer
        split at hanswer
        · rename_i hij
          obtain rfl := Option.some.inj hanswer
          exact hfollows i duration x port rfl (hij ▸ hport)
        · cases hanswer
      | _ => cases hanswer
  | tick t =>
    obtain ⟨-, hidle, rfl⟩ := tick_inv hs
    exact ⟨h.sound, h.length, Pool.Timely.tick hidle, h.tracks⟩

/-! ## A scan gets done -/

/-- A job that can go on takes the scan a step further. -/
theorem OnTrack.advance (h : OnTrack strategy ports concurrency retries s) (hports : ports.Nodup)
    {job : Job PortResult} (hjob : job ∈ s.pool.jobs)
    (hgo : job.phase.runnable = true ∨ job.phase.timer = some s.now) :
    ∃ a s', Follows strategy ports s a ∧ system.step s a = some s' ∧
      OnTrack strategy ports concurrency retries s' ∧ s'.pool.work < s.pool.work := by
  obtain ⟨i, hi⟩ := List.getElem?_of_mem hjob
  obtain ⟨a, r, hstep, hanswer, hwork⟩ := h.sound.exists_step inconclusive s.limiter
    (fun i => strategy (ports[i]?.getD 0) (s.attempts ports (ports[i]?.getD 0) + 1)) hi hgo
  have hfollows : Follows strategy ports s (.probe a) := by
    rintro i duration answer port ⟨⟩ hport
    have hanswer := hanswer i answer (if_pos rfl)
    rwa [hport, Option.getD_some] at hanswer
  have hs : system.step s (.probe a) =
      some ⟨s.now, r.1, r.2, s.calls ++ a.launched.map fun i => (s.now, i)⟩ :=
    Option.map_eq_some_iff.mpr ⟨r, hstep, rfl⟩
  exact ⟨_, _, hfollows, hs, h.step hports hfollows hs, hwork⟩

/-- **While answers are missing, some schedule gets closer to the end.** -/
theorem OnTrack.closer (h : OnTrack strategy ports concurrency retries s) (hports : ports.Nodup)
    (hc : 1 ≤ concurrency) (hopen : s.pool.answers = none) :
    ∃ acts s', system.Along (Follows strategy ports) s acts ∧ system.exec s acts = some s' ∧
      OnTrack strategy ports concurrency retries s' ∧ s'.pool.work < s.pool.work := by
  by_cases hgo : ∃ job ∈ s.pool.jobs, job.phase.runnable = true ∨ job.phase.timer = some s.now
  · obtain ⟨job, hjob, hgo⟩ := hgo
    obtain ⟨a, s', hfollows, hs, htrack, hwork⟩ := h.advance hports hjob hgo
    exact ⟨[a], s', ⟨hfollows, fun _ _ => trivial⟩, System.exec_step hs rfl, htrack, hwork⟩
  · have hstuck : ∀ job ∈ s.pool.jobs, job.phase.runnable = false ∧ job.phase.timer ≠ some s.now :=
      fun job hjob => ⟨Bool.eq_false_iff.mpr fun hrun => hgo ⟨job, hjob, .inl hrun⟩,
        fun htimer => hgo ⟨job, hjob, .inr htimer⟩⟩
    obtain ⟨t, hlt, hidle, job, hjob, htimer⟩ := h.sound.exists_tick hc hopen h.timely hstuck
    have htick : system.step s (.tick t) = some { s with now := t } := if_pos ⟨hlt, hidle⟩
    have hfollows : Follows strategy ports s (.tick t) := fun _ _ _ _ => nofun
    obtain ⟨a, s', hfollows', hs, htrack, hwork⟩ :=
      (h.step hports hfollows htick).advance hports hjob (.inr htimer)
    refine ⟨[.tick t, a], s', ⟨hfollows, ?_⟩, System.exec_step htick (System.exec_step hs rfl), htrack,
      hwork⟩
    rintro _ ht
    obtain rfl := Option.some.inj (htick.symm.trans ht)
    exact ⟨hfollows', fun _ _ => trivial⟩

theorem OnTrack.exists_done (h : OnTrack strategy ports concurrency retries s) (hports : ports.Nodup)
    (hc : 1 ≤ concurrency) :
    ∃ acts s', system.Along (Follows strategy ports) s acts ∧ system.exec s acts = some s' ∧
      s'.pool.answers.isSome := by
  refine System.exists_finish (I := OnTrack strategy ports concurrency retries)
    (fun s => s.pool.work) (fun s hs hopen => ?_) h
  exact hs.closer hports hc (Option.not_isSome_iff_eq_none.mp hopen)

/-! ## What a scan comes to -/

theorem OnTrack.inFlight_le (h : OnTrack strategy ports concurrency retries s) :
    s.inFlight ≤ concurrency := by
  have hpermits := h.sound.permits
  have hle : s.inFlight ≤ Pool.holders s.pool.jobs := by
    refine List.countP_mono_left fun job _ hrun => ?_
    cases hphase : job.phase <;> simp_all [Phase.holds]
  omega

/-- Every port has been probed as often as its retry loop runs, and the answers are the last. -/
theorem OnTrack.answers (h : OnTrack strategy ports concurrency retries s) {answers : List PortResult}
    (hdone : s.pool.answers = some answers) :
    answers = ports.map (lastAnswer strategy retries) ∧ ∀ port ∈ ports,
      s.attempts ports port = lastAttempt inconclusive (strategy port) 1 retries := by
  have hphases := Pool.answers_eq_some.mp hdone
  have hlength : answers.length = ports.length := by
    have := congrArg List.length hphases
    rw [List.length_map, List.length_map, h.length] at this
    exact this.symm
  have hat : ∀ i port : Nat, ports[i]? = some port → answers[i]? = some (lastAnswer strategy retries port) ∧
      s.attempts ports port = lastAttempt inconclusive (strategy port) 1 retries := by
    intro i port hport
    obtain ⟨hi, -⟩ := List.getElem?_eq_some_iff.mp hport
    obtain ⟨⟨left, phase⟩, hjob⟩ : ∃ job, s.pool.jobs[i]? = some job :=
      ⟨_, List.getElem?_eq_getElem (hi.trans_eq h.length.symm)⟩
    obtain ⟨answer, hanswer⟩ : ∃ answer, answers[i]? = some answer :=
      ⟨_, List.getElem?_eq_getElem (hi.trans_eq hlength.symm)⟩
    have hphase := congrArg (fun l => l[i]?) hphases
    simp only [List.getElem?_map, hjob, hanswer, Option.map_some] at hphase
    obtain rfl : phase = .done answer := Option.some.inj hphase
    obtain ⟨hlast, hstrategy⟩ := (h.tracks i _ port hjob hport).finished
    exact ⟨by rw [hanswer, hstrategy, hlast, lastAnswer], hlast⟩
  refine ⟨List.ext_getElem? fun i => ?_, fun port hport => ?_⟩
  · rw [List.getElem?_map]
    cases hport : ports[i]? with
    | none =>
      rw [List.getElem?_eq_none_iff] at hport
      rw [List.getElem?_eq_none (hlength.trans_le hport)]
      rfl
    | some port => rw [(hat i port hport).1, Option.map_some]
  · obtain ⟨i, hi⟩ := List.getElem?_of_mem hport
    exact (hat i port hi).2

theorem OnTrack.report {scan : Scan} {fingerprint : Option String → Nat → ServiceInfo}
    (h : OnTrack strategy scan.target.ports concurrency retries s) {report : ScanReport}
    (hreport : scan.report fingerprint s = some report) :
    report.host = scan.outcome fingerprint strategy retries ∧ ∀ port ∈ scan.target.ports,
      s.attempts scan.target.ports port = lastAttempt inconclusive (strategy port) 1 retries := by
  obtain ⟨answers, hdone, rfl⟩ := Option.map_eq_some_iff.mp hreport
  obtain ⟨rfl, hattempts⟩ := h.answers hdone
  refine ⟨?_, hattempts⟩
  rw [Scan.outcome, List.map_map]
  rfl

end ScanHost

section Outcome

variable (fingerprint : Option String → Nat → ServiceInfo) {strategy : Nat → Nat → PortResult}
  {scan : Scan} {retries : Nat}

theorem outcome_ports_perm (hcarries : ∀ port k, (strategy port k).port = port) :
    ((scan.outcome fingerprint strategy retries).ports.map PortResult.port).Perm scan.target.ports := by
  apply ((sortedByPort_perm _).map PortResult.port).trans
  rw [List.map_map]
  refine List.Perm.of_eq ((List.map_congr_left fun port _ => ?_).trans (List.map_id _))
  exact (identify_port _).trans (hcarries _ _)

theorem outcome_ports_sorted (hcarries : ∀ port k, (strategy port k).port = port)
    (hports : scan.target.ports.Nodup) :
    (scan.outcome fingerprint strategy retries).ports.Pairwise fun a b => a.port < b.port := by
  apply sortedByPort_strict
  apply ((sortedByPort_perm _).map PortResult.port).nodup_iff.mp
  exact (outcome_ports_perm fingerprint hcarries).nodup_iff.mpr hports

theorem mem_outcome {port : Nat} (h : port ∈ scan.target.ports) :
    ScanService.identify fingerprint (lastAnswer strategy retries port) ∈
      (scan.outcome fingerprint strategy retries).ports :=
  (sortedByPort_perm _).mem_iff.mpr (List.mem_map_of_mem h)

end Outcome

namespace ScanHost

section Scans

variable (fingerprint : Option String → Nat → ServiceInfo) {strategy : Nat → Nat → PortResult}
  (scan : Scan) {concurrency : Nat} {maxRate : Option ℚ} {retries : Int} {limiter : Option Pacer}
  {now : ℚ} {s₀ s : ScanHost} {acts : List Act}

theorem onTrack_scanHost {ports : List Nat}
    (h : scanHost ports concurrency maxRate retries limiter now = .ok s) :
    OnTrack strategy ports concurrency retries.toNat s := by
  obtain ⟨limiter, -, h⟩ := bind_inv h
  obtain rfl := Except.ok.inj h
  exact onTrack_start ports concurrency retries.toNat now limiter

/-- Every schedule can be carried to a report, and a report has every port once, in order, with the
answer that its probes came to. -/
theorem reports_answers (hcarries : ∀ port k, (strategy port k).port = port)
    (hports : scan.target.ports.Nodup) (hc : 1 ≤ concurrency)
    (hscan : scanHost scan.target.ports concurrency maxRate retries limiter now = .ok s₀)
    (hfollows : system.Along (Follows strategy scan.target.ports) s₀ acts)
    (hexec : system.exec s₀ acts = some s) :
    (∃ rest s', system.Along (Follows strategy scan.target.ports) s rest ∧
        system.exec s rest = some s' ∧ (scan.report fingerprint s').isSome) ∧
      ∀ report, scan.report fingerprint s = some report →
        (report.host.ports.Pairwise fun a b => a.port < b.port) ∧
        (report.host.ports.map PortResult.port).Perm scan.target.ports ∧
        ∀ r ∈ report.host.ports, ∃ port ∈ scan.target.ports,
          r = ScanService.identify fingerprint (lastAnswer strategy retries.toNat port) := by
  have htrack : OnTrack strategy scan.target.ports concurrency retries.toNat s :=
    System.exec_invariant (fun s a s' h hfollows hs => h.step hports hfollows hs)
      (onTrack_scanHost hscan) hfollows hexec
  refine ⟨?_, fun report hreport => ?_⟩
  · obtain ⟨rest, s', hrest, hs', hdone⟩ := htrack.exists_done hports hc
    exact ⟨rest, s', hrest, hs', by rwa [Scan.report, Option.isSome_map]⟩
  · rw [(htrack.report hreport).1]
    refine ⟨outcome_ports_sorted fingerprint hcarries hports,
      outcome_ports_perm fingerprint hcarries, fun r hr => ?_⟩
    obtain ⟨port, hport, rfl⟩ := List.mem_map.mp ((sortedByPort_perm _).mem_iff.mp hr)
    exact ⟨port, hport, rfl⟩

/-- **The outcome of a scan does not depend on its schedule.** In every state reached, at most
`concurrency` calls are in flight and some schedule ends the scan; once it has ended, each port has
been probed up to its first conclusive answer or the last retry, and the report has every port once,
in order, with its last answer. -/
theorem outcome_unscheduled (hcarries : ∀ port k, (strategy port k).port = port)
    (hports : scan.target.ports.Nodup) (hc : 1 ≤ concurrency)
    (hscan : scanHost scan.target.ports concurrency maxRate retries limiter now = .ok s₀)
    (hfollows : system.Along (Follows strategy scan.target.ports) s₀ acts)
    (hexec : system.exec s₀ acts = some s) :
    s.inFlight ≤ concurrency ∧
      (∃ rest s', system.Along (Follows strategy scan.target.ports) s rest ∧
        system.exec s rest = some s' ∧ (scan.report fingerprint s').isSome) ∧
      ∀ report, scan.report fingerprint s = some report →
        report.host = scan.outcome fingerprint strategy retries.toNat ∧
        (report.host.ports.Pairwise fun a b => a.port < b.port) ∧
        (report.host.ports.map PortResult.port).Perm scan.target.ports ∧
        ∀ port ∈ scan.target.ports,
          (s.attempts scan.target.ports port : ℕ∞) =
            min (firstFinal inconclusive (strategy port)) (((max 0 retries).toNat + 1 : ℕ) : ℕ∞) ∧
          ScanService.identify fingerprint (strategy port (s.attempts scan.target.ports port)) ∈
            report.host.ports := by
  have htrack : OnTrack strategy scan.target.ports concurrency retries.toNat s :=
    System.exec_invariant (fun s a s' h hfollows hs => h.step hports hfollows hs)
      (onTrack_scanHost hscan) hfollows hexec
  refine ⟨htrack.inFlight_le, ?_, fun report hreport => ?_⟩
  · obtain ⟨rest, s', hrest, hs', hdone⟩ := htrack.exists_done hports hc
    exact ⟨rest, s', hrest, hs', by rwa [Scan.report, Option.isSome_map]⟩
  · obtain ⟨hhost, hattempts⟩ := htrack.report hreport
    rw [hhost]
    refine ⟨rfl, outcome_ports_sorted fingerprint hcarries hports,
      outcome_ports_perm fingerprint hcarries, ?_⟩
    intro port hport
    rw [hattempts port hport, lastAttempt_eq_min]
    have hretries : (max 0 retries).toNat = retries.toNat := by omega
    exact ⟨by rw [hretries], mem_outcome fingerprint hport⟩

/-- Two ports behind one permit, one of them silent at first: the scan ends, and reports both. -/
theorem outcome_unscheduled_silent :
    ∃ s₀ acts s report, scanHost [443, 22] 1 none 1 none 0 = .ok s₀ ∧
      system.exec s₀ acts = some s ∧
      (⟨⟨"plc", [443, 22], .tcp⟩, none, "fake", 0, 0⟩ : Scan).report (fun _ _ => {}) s = some report ∧
      (report.host.ports.Pairwise fun a b => a.port < b.port) ∧
      (report.host.ports.map PortResult.port).Perm [443, 22] := by
  obtain ⟨strategy, hstrategy⟩ : ∃ strategy : Nat → Nat → PortResult, strategy = fun port k =>
    { port, state := if port = 22 ∧ k = 1 then .filtered else .closed } := ⟨_, rfl⟩
  have hcarries : ∀ port k, (strategy port k).port = port := by simp [hstrategy]
  have hscan : scanHost [443, 22] 1 none 1 none 0 = .ok _ := rfl
  obtain ⟨-, ⟨acts, s, hfollows, hexec, hdone⟩, -⟩ := outcome_unscheduled (fun _ _ => {})
    ⟨⟨"plc", [443, 22], .tcp⟩, none, "fake", 0, 0⟩ hcarries (by decide) (le_refl 1) hscan
    (System.along_nil _) (System.exec_nil _)
  obtain ⟨report, hreport⟩ := Option.isSome_iff_exists.mp hdone
  obtain ⟨-, -, hreported⟩ := outcome_unscheduled (fun _ _ => {})
    ⟨⟨"plc", [443, 22], .tcp⟩, none, "fake", 0, 0⟩ hcarries (by decide) (le_refl 1) hscan
    hfollows hexec
  obtain ⟨-, hsorted, hperm, -⟩ := hreported report hreport
  exact ⟨_, acts, s, report, rfl, hexec, hreport, hsorted, hperm⟩

end Scans

end ScanHost

end Pyscan
