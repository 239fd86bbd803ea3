import Pyscan.Adapters.Strategies
import Pyscan.Application.ScanOutcome

/-!
# A scan and the peers it meets

`scan_host` with a strategy over a stream: the answer to each probe is what
`scan_port` returns on the peer that probe meets. A port is probed until
something comes back, so **its state in the report is that of the first
connection that was not silent**, within the retries, under every schedule
(`scan_peers`).
-/

namespace Pyscan

open Py Streams Lts
open S7commScan (Connect)

/-- What a probe meets: how the connection went, how long it took, and what the peer does on it. -/
structure Peer where
  connect : Connect
  latencyMs : ℚ
  rounds : List (List Event) := []

namespace Peer

/-- Among `tries` probes the first that is not silent goes as `connect`. -/
def First (peers : Nat → Peer) (tries : Nat) (connect : Connect) : Prop :=
  Pyscan.First Strategy.silent (fun k => (peers k).connect) tries connect

end Peer


/-- The scan's answers: `scan_port` returned them. -/
def Strategy.Answers (strategy : Strategy) (peers : Nat → Nat → Peer) (answer : Nat → Nat → PortResult) :
    Prop :=
  ∀ port k, ∃ c, strategy.scanPort (peers port k).connect (peers port k).latencyMs port
    (accepted (peers port k).rounds) = .ok (answer port k) c

/-- Every peer is one the strategy returns on. -/
def Strategy.Withstands (strategy : Strategy) (peers : Nat → Nat → Peer) : Prop :=
  ∀ port k, (peers port k).connect = .accepted → strategy.Survives (peers port k).rounds

namespace ScanHost

section Peers

variable {strategy : Strategy} {peers : Nat → Nat → Peer} {answer : Nat → Nat → PortResult}

theorem exists_answers (h : strategy.Withstands peers) : ∃ answer, strategy.Answers peers answer := by
  choose answer c hanswer _ using fun port k => strategy.returns (peers port k).connect
    (peers port k).latencyMs port (peers port k).rounds (h port k)
  exact ⟨answer, fun port k => ⟨c port k, hanswer port k⟩⟩

theorem reports_of_answers (h : strategy.Withstands peers) (hanswers : strategy.Answers peers answer)
    (port k : Nat) :
    strategy.Reports (peers port k).connect (peers port k).latencyMs port (answer port k) := by
  obtain ⟨result, c', hreturns, hreports⟩ := strategy.returns (peers port k).connect
    (peers port k).latencyMs port (peers port k).rounds (h port k)
  obtain ⟨c, hanswer⟩ := hanswers port k
  obtain ⟨rfl, -⟩ := EStateM.Result.ok.inj (hreturns.symm.trans hanswer)
  exact hreports

theorem inconclusive_iff {connect : Connect} {latencyMs : ℚ} {port : Nat} {result : PortResult}
    (h : strategy.Reports connect latencyMs port result) :
    inconclusive result = Strategy.silent connect := by
  obtain ⟨banner, rfl, -⟩ := h
  cases connect <;> rfl

theorem answers_port (h : strategy.Withstands peers) (hanswers : strategy.Answers peers answer)
    (port k : Nat) : (answer port k).port = port := by
  obtain ⟨banner, hanswer, -⟩ := reports_of_answers h hanswers port k
  rw [hanswer]

theorem lastAnswer_eq (h : strategy.Withstands peers) (hanswers : strategy.Answers peers answer)
    (retries port : Nat) :
    ∃ latencyMs, strategy.Reports (settled Strategy.silent (fun k => (peers port k).connect) retries)
      latencyMs port (lastAnswer answer retries port) := by
  have hlast : lastAttempt inconclusive (answer port) 1 retries =
      lastAttempt Strategy.silent (fun k => (peers port k).connect) 1 retries :=
    lastAttempt_congr (fun k => inconclusive_iff (reports_of_answers h hanswers port k)) 1 retries
  rw [lastAnswer, hlast]
  exact ⟨_, reports_of_answers h hanswers port _⟩

theorem stateOf_eq (connect : Connect) :
    (Strategy.stateOf connect = .opened ↔ connect = .accepted) ∧
      (Strategy.stateOf connect = .closed ↔ connect = .refused) ∧
      (Strategy.stateOf connect = .filtered ↔ Strategy.silent connect = true) := by
  cases connect <;> decide

variable (fingerprint : Option String → Nat → ServiceInfo)

theorem identify_reports {connect : Connect} {latencyMs : ℚ} {port : Nat} {result : PortResult}
    (h : strategy.Reports connect latencyMs port result) :
    (ScanService.identify fingerprint result).port = port ∧
      (ScanService.identify fingerprint result).state = Strategy.stateOf connect ∧
      ∀ b, (ScanService.identify fingerprint result).banner = some b → strategy.Banner b := by
  rw [identify_port, identify_state, identify_banner]
  obtain ⟨banner, rfl, hbanner⟩ := h
  exact ⟨rfl, rfl, fun b hb => (hbanner b hb).2⟩

/-- What the report makes of the last answer for a port. -/
theorem identify_lastAnswer (h : strategy.Withstands peers) (hanswers : strategy.Answers peers answer)
    (retries port : Nat) :
    (ScanService.identify fingerprint (lastAnswer answer retries port)).port = port ∧
      (((ScanService.identify fingerprint (lastAnswer answer retries port)).state = .opened ↔
          Peer.First (peers port) (retries + 1) .accepted) ∧
        ((ScanService.identify fingerprint (lastAnswer answer retries port)).state = .closed ↔
          Peer.First (peers port) (retries + 1) .refused) ∧
        ((ScanService.identify fingerprint (lastAnswer answer retries port)).state = .filtered ↔
          ∀ k, 1 ≤ k → k ≤ retries + 1 → Strategy.silent (peers port k).connect = true)) ∧
      ∀ b, (ScanService.identify fingerprint (lastAnswer answer retries port)).banner = some b →
        strategy.Banner b := by
  obtain ⟨latencyMs, hlast⟩ := lastAnswer_eq h hanswers retries port
  obtain ⟨hsame, hstate, hbanner⟩ := identify_reports fingerprint hlast
  obtain ⟨hopened, hclosed, hfiltered⟩ := stateOf_eq
    (settled Strategy.silent (fun k => (peers port k).connect) retries)
  rw [hstate, hopened, hclosed, hfiltered]
  exact ⟨hsame, ⟨settled_eq rfl, settled_eq rfl, settled_again_iff⟩, hbanner⟩

variable (scan : Scan) {concurrency : Nat} {maxRate : Option ℚ} {retries : Int}
  {limiter : Option Pacer} {now : ℚ} {s₀ : ScanHost}

/-- **A report says what the network said.** Over any peers the strategy returns on, every schedule
can be carried to a report, and every report has each port once, in order: open or closed as the
first connection went that was not silent, filtered when all were, with a banner the strategy can
vouch for. -/
theorem scan_peers (hpeers : strategy.Withstands peers) (hports : scan.target.ports.Nodup)
    (hc : 1 ≤ concurrency)
    (hscan : scanHost scan.target.ports concurrency maxRate retries limiter now = .ok s₀) :
    ∃ answer, strategy.Answers peers answer ∧
      ∀ acts s, system.Along (Follows answer scan.target.ports) s₀ acts → system.exec s₀ acts = some s →
        (∃ rest s', system.Along (Follows answer scan.target.ports) s rest ∧
          system.exec s rest = some s' ∧ (scan.report fingerprint s').isSome) ∧
        ∀ report, scan.report fingerprint s = some report →
          (report.host.ports.Pairwise fun a b => a.port < b.port) ∧
          (report.host.ports.map PortResult.port).Perm scan.target.ports ∧
          ∀ r ∈ report.host.ports,
            (r.state = .opened ↔ Peer.First (peers r.port) (retries.toNat + 1) .accepted) ∧
            (r.state = .closed ↔ Peer.First (peers r.port) (retries.toNat + 1) .refused) ∧
            (r.state = .filtered ↔ ∀ k, 1 ≤ k → k ≤ retries.toNat + 1 →
              Strategy.silent (peers r.port k).connect = true) ∧
            ∀ b, r.banner = some b → strategy.Banner b := by
  obtain ⟨answer, hanswers⟩ := exists_answers hpeers
  refine ⟨answer, hanswers, fun acts s hfollows hexec => ?_⟩
  obtain ⟨hends, hreports⟩ :=
    reports_answers fingerprint scan (answers_port hpeers hanswers) hports hc hscan hfollows hexec
  refine ⟨hends, fun report hreport => ?_⟩
  obtain ⟨hsorted, hperm, hanswered⟩ := hreports report hreport
  refine ⟨hsorted, hperm, fun r hr => ?_⟩
  obtain ⟨port, -, rfl⟩ := hanswered r hr
  obtain ⟨hsame, hstates, hbanner⟩ := identify_lastAnswer fingerprint hpeers hanswers retries.toNat port
  rw [hsame]
  exact ⟨hstates.1, hstates.2.1, hstates.2.2, hbanner⟩

/-- A controller that drops the first probe: one retry finds it open. -/
theorem scan_peers_retried :
    ∃ s₀ acts s report, scanHost [502] 1 none 1 none 0 = .ok s₀ ∧ system.exec s₀ acts = some s ∧
      (⟨⟨"plc", [502], .tcp⟩, none, "modbus", 0, 0⟩ : Scan).report (fun _ _ => {}) s = some report ∧
      ∀ r ∈ report.host.ports, r.state = .opened := by
  have hscan : scanHost [502] 1 none 1 none 0 = .ok _ := rfl
  have hpeers : (Strategy.modbus {}).Withstands fun _ k =>
      ⟨if k = 1 then .timedOut else .accepted, 0, []⟩ := fun _ _ _ =>
    (by decide : 1 < 256)
  obtain ⟨answer, -, hall⟩ := scan_peers (fun _ _ => {})
    ⟨⟨"plc", [502], .tcp⟩, none, "modbus", 0, 0⟩ hpeers (by decide) (le_refl 1) hscan
  obtain ⟨⟨acts, s, hfollows, hexec, hdone⟩, -⟩ := hall [] _ (System.along_nil _) (System.exec_nil _)
  obtain ⟨report, hreport⟩ := Option.isSome_iff_exists.mp hdone
  obtain ⟨-, -, hports⟩ := (hall acts s hfollows hexec).2 report hreport
  refine ⟨_, acts, s, report, rfl, hexec, hreport, fun r hr => ?_⟩
  refine (hports r hr).1.mpr ⟨2, by decide, by decide, rfl, fun j h1 hj => ?_⟩
  obtain rfl : j = 1 := by omega
  rfl

end Peers

end ScanHost

end Pyscan
