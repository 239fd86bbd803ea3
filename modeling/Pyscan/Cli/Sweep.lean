import Pyscan.Adapters.NetworkJson
import Pyscan.Cli.Scan

/-!
# The sweep command

`sweep` scans the hosts of a range that are up and writes an inventory of them.
Read back from its file, the inventory has **each host that is up, once, with
exactly those ports that were asked for and found open** (`sweep_json`): the
first connection that was not silent was taken.
-/

namespace Pyscan

open Py PortSpec Targets Streams Lts

namespace Cli

/-- `DEFAULT_SWEEP_PORTS`. -/
def defaultSweepPorts : String :=
  "21,22,23,25,53,80,110,111,135,139,143,443,445,993,995,1723,3306,3389,5432,5900,8080,8443"

/-- The options of `sweep`. -/
structure SweepCall where
  network : String
  ports : String := defaultSweepPorts
  scanType : String := "tcp-connect"
  retries : ℤ := 0
  discovery : Bool := true
  maxRate : Option ℚ := none

namespace SweepCall

variable (text : Ipv6Text) (py : Builtins) (call : SweepCall)

/-- The ports and the candidates of a call, or how it is refused. -/
def plan : Except Refusal (List ℕ × List String) := do
  let ports ← (parsePortSpec py call.ports).mapError fun e => .badParameter e.2
  let candidates ← (expandTargets text call.network).mapError fun e => .badParameter e.2
  .ok (ports.map Int.toNat, candidates)

def service (ports : List ℕ) : SweepService := { ports, retries := call.retries }

/-- What the service holds; `wall` is what the wall clock shows at a time of the run. -/
def sweepRun (candidates : List String) (fingerprint : Option String → ℕ → ServiceInfo)
    (wall : ℚ → ℚ) (t0 : ℚ) : SweepRun :=
  ⟨call.network, candidates, call.discovery, call.scanType, fingerprint, wall, t0⟩

/-- The call asks for the port. -/
def Asks (p : ℤ) : Prop := ∃ chunk ∈ split call.ports ',', Denotes py chunk p

variable {text py call} {ports : List ℕ} {candidates : List String}

theorem plan_asked (h : call.plan text py = .ok (ports, candidates)) :
    expandTargets text call.network = .ok candidates ∧ ports.Nodup ∧
      ∀ p : ℕ, p ∈ ports ↔ call.Asks py p := by
  unfold plan at h
  cases hports : parsePortSpec py call.ports with
  | error e =>
    rw [hports] at h
    cases h
  | ok parsed =>
    rw [hports] at h
    cases hhosts : expandTargets text call.network with
    | error e =>
      rw [hhosts] at h
      cases h
    | ok hosts =>
      rw [hhosts] at h
      obtain ⟨rfl, rfl⟩ := Prod.mk.inj (Except.ok.inj h)
      obtain ⟨hnodup, hrange, hasked⟩ := mem_parsePortSpec hports
      obtain ⟨hnodup', hmem⟩ := mem_toNat hnodup hrange
      exact ⟨rfl, hnodup', fun p => (hmem p).trans (hasked p)⟩

end SweepCall

section Inventory

variable {strategy : Strategy} {peers : ℕ → ℕ → Peer} {answer : ℕ → ℕ → PortResult} {ports : List ℕ}

/-- The open ports of a host, from its last answers. -/
def openPorts (fingerprint : Option String → ℕ → ServiceInfo) (answer : ℕ → ℕ → PortResult)
    (ports : List ℕ) (retries : ℕ) : List ℕ :=
  ((sortedByPort (ports.map fun port =>
    ScanService.identify fingerprint (lastAnswer answer retries port))).filter fun p =>
      decide (p.state = .opened)).map PortResult.port

variable (fingerprint : Option String → ℕ → ServiceInfo)

theorem mem_openPorts (h : strategy.Withstands peers) (hanswers : strategy.Answers peers answer)
    (retries p : ℕ) :
    p ∈ openPorts fingerprint answer ports retries ↔
      p ∈ ports ∧ Peer.First (peers p) (retries + 1) .accepted := by
  have hidentify (port : ℕ) :=
    ScanHost.identify_lastAnswer fingerprint h hanswers retries port
  unfold openPorts
  simp only [List.mem_map, List.mem_filter, (sortedByPort_perm _).mem_iff, decide_eq_true_eq]
  constructor
  · rintro ⟨r, ⟨⟨port, hport, rfl⟩, hopened⟩, rfl⟩
    rw [(hidentify port).1]
    exact ⟨hport, (hidentify port).2.1.1.mp hopened⟩
  · rintro ⟨hport, hfirst⟩
    exact ⟨_, ⟨⟨p, hport, rfl⟩, (hidentify p).2.1.1.mpr hfirst⟩, (hidentify p).1⟩

theorem openPorts_sorted (h : strategy.Withstands peers) (hanswers : strategy.Answers peers answer)
    (hports : ports.Nodup) (retries : ℕ) :
    (openPorts fingerprint answer ports retries).Pairwise (· < ·) := by
  have hsame : (ports.map fun port => ScanService.identify fingerprint
      (lastAnswer answer retries port)).map PortResult.port = ports := by
    rw [List.map_map]
    refine (List.map_congr_left fun port _ => ?_).trans (List.map_id ports)
    exact (ScanHost.identify_lastAnswer fingerprint h hanswers retries port).1
  refine List.pairwise_map.mpr (List.Pairwise.filter _ (sortedByPort_strict ?_))
  rwa [hsame]

/-- The inventory of a report is that of the last answers of its hosts. -/
theorem inventory_report (rounded : ℚ → Json.Word) {service : SweepService} {network : Network}
    {run : SweepRun} {up : List String} {now : ℚ} {report : NetworkReport}
    (h : service.Reports network run up now report) :
    ∃ hosts : List String,
      NetworkJson.inventory (NetworkJson.emit rounded report) = some (hosts.map fun host =>
        (host, openPorts run.fingerprint (network.answer host) service.ports service.retries.toNat)) ∧
      hosts.Perm up ∧ hosts.Pairwise fun a b =>
        (orElse (network.ip a) (some a)).getD "" ≤ (orElse (network.ip b) (some b)).getD "" := by
  have hopened (hr : ScanReport) (hmem : hr ∈ report.hosts) :
      hr.host.openPorts.map PortResult.port =
        openPorts run.fingerprint (network.answer hr.host.host) service.ports service.retries.toNat ∧
      hr.address = (orElse (network.ip hr.host.host) (some hr.host.host)).getD "" := by
    obtain ⟨host, scanned, hanswers, rfl⟩ := h.mem hmem
    refine ⟨?_, rfl⟩
    unfold openPorts HostResult.openPorts SweepService.hostReport
    dsimp only
    rw [hanswers, Network.lastAnswers, List.map_map]
    rfl
  refine ⟨report.hosts.map fun hr => hr.host.host, ?_, h.names, ?_⟩
  · rw [NetworkJson.inventory_emit, List.map_map]
    exact congrArg some (List.map_congr_left fun hr hmem => Prod.ext rfl (hopened hr hmem).1)
  · refine List.pairwise_map.mpr (h.sorted.imp_of_mem fun ha hb hle => ?_)
    rwa [(hopened _ ha).2, (hopened _ hb).2] at hle

variable {text : Ipv6Text} {py : Builtins} {call : SweepCall} {candidates : List String} {now : ℚ} {s₀ : Sweep}

/-- **The inventory of a sweep is what the network has.** Every schedule can be carried to a report, and
the file of every report, read back, lists the hosts that are up, by address, each once, and with each
the ports that the call asks for whose first connection that was not silent was taken, in ascending
order. -/
theorem sweep_json (rounded : ℚ → Json.Word) (peers : String → ℕ → ℕ → Peer) (pings : String → Pings)
    (ip : String → Option String) (wall : ℚ → ℚ) (t0 : ℚ)
    (hplan : call.plan text py = .ok (ports, candidates))
    (hstrategy : Strategy.getStrategy call.scanType true = some strategy)
    (hpeers : call.scanType = "s7comm" → ∀ host port k, (peers host port k).connect = .accepted →
      ¬ S7commScan.Aborts (accepted (peers host port k).rounds).wire)
    (hpings : ∀ host, (pings host).length = (call.service ports).pingPorts.length)
    (hrun : (call.service ports).run candidates call.discovery call.maxRate now = .ok s₀) :
    ∃ network : Network, network.pings = pings ∧ network.ip = ip ∧
      (∀ host, strategy.Answers (peers host) (network.answer host)) ∧
      ∀ acts s, (call.service ports).system.Along ((call.service ports).Follows network) s₀ acts →
        (call.service ports).system.exec s₀ acts = some s →
        (∃ rest s', (call.service ports).system.Along ((call.service ports).Follows network) s rest ∧
          (call.service ports).system.exec s rest = some s' ∧
          ((call.service ports).report network (call.sweepRun candidates fingerprint wall t0) s').isSome) ∧
        ∀ report, (call.service ports).report network (call.sweepRun candidates fingerprint wall t0) s =
            some report →
          ∃ (hosts : List String) (opened : String → List ℕ),
            NetworkJson.inventory (NetworkJson.emit rounded report) =
              some (hosts.map fun host => (host, opened host)) ∧
            hosts.Perm (network.upHosts call.discovery candidates) ∧
            hosts.Pairwise (fun a b => (orElse (ip a) (some a)).getD "" ≤ (orElse (ip b) (some b)).getD "") ∧
            ∀ host, (opened host).Pairwise (· < ·) ∧ ∀ p : ℕ, p ∈ opened host ↔
              call.Asks py p ∧ Peer.First (peers host p) (call.retries.toNat + 1) .accepted := by
  obtain ⟨-, hnodup, hasked⟩ := SweepCall.plan_asked hplan
  have hwithstands (host : String) : strategy.Withstands (peers host) :=
    withstands_of_getStrategy hstrategy fun hname => hpeers hname host
  choose answer hanswers using fun host => ScanHost.exists_answers (hwithstands host)
  refine ⟨⟨pings, ip, answer⟩, rfl, rfl, hanswers, fun acts s hfollows hexec => ?_⟩
  have htrack : s.OnTrack (call.service ports) ⟨pings, ip, answer⟩ candidates call.discovery :=
    System.exec_invariant (fun s a s' h hfollows hs => h.step hfollows hs)
      ((call.service ports).onTrack_run _ hrun) hfollows hexec
  refine ⟨(call.service ports).exists_report _ _ hpings (by decide : 1 ≤ 64) htrack,
    fun report hreport => ?_⟩
  obtain ⟨hhosts, -, -⟩ := (call.service ports).report_eq _ _ htrack hreport
  obtain ⟨hosts, hinventory, hperm, hsorted⟩ := inventory_report rounded hhosts
  refine ⟨hosts, fun host => openPorts fingerprint (answer host) ports call.retries.toNat, hinventory,
    hperm, hsorted, fun host => ?_⟩
  refine ⟨openPorts_sorted fingerprint (hwithstands host) (hanswers host) hnodup _, fun p => ?_⟩
  rw [mem_openPorts fingerprint (hwithstands host) (hanswers host), hasked]

/-- Of two candidates one is up. Its controller loses the first probe and takes the second. -/
theorem sweep_json_retried :
    ∃ network s₀ acts s report,
      SweepService.run { ports := [502], retries := 1 } ["10.10.30.21", "10.10.30.22"] true none 0 = .ok s₀ ∧
      (SweepService.system { ports := [502], retries := 1 }).exec s₀ acts = some s ∧
      SweepService.report { ports := [502], retries := 1 } network
        ⟨"10.10.30.20/30", ["10.10.30.21", "10.10.30.22"], true, "modbus", fun _ _ => {}, id, 0⟩
        s = some report ∧
      NetworkJson.inventory (NetworkJson.emit (fun _ => .nat 0) report) = some [("10.10.30.21", [502])] := by
  obtain ⟨call, hcall⟩ : ∃ call : SweepCall, call =
    { network := "10.10.30.20/30", ports := "502", scanType := "modbus", retries := 1 } := ⟨_, rfl⟩
  have hplan : call.plan .compressed Builtins.ascii = .ok ([502], ["10.10.30.21", "10.10.30.22"]) := by
    rw [hcall]
    decide +kernel
  have hstrategy : Strategy.getStrategy call.scanType true = some (.modbus {}) := by
    rw [hcall]
    rfl
  obtain ⟨s₀, hrun⟩ : ∃ s₀, (call.service [502]).run ["10.10.30.21", "10.10.30.22"] call.discovery
      call.maxRate 0 = .ok s₀ := by
    rw [hcall]
    exact ⟨_, rfl⟩
  obtain ⟨network, hpings, -, -, hall⟩ := sweep_json (fun _ _ => {}) (fun _ => .nat 0)
    (fun _ _ k => ⟨if k = 1 then .timedOut else .accepted, 0, []⟩)
    (fun host => List.replicate 4 (0, decide (host = "10.10.30.21"))) (fun _ => none) id 0
    hplan hstrategy (fun h => absurd h (by rw [hcall]; decide)) (fun _ => by rw [hcall]; rfl) hrun
  obtain ⟨⟨acts, s, hfollows, hexec, hdone⟩, -⟩ := hall [] _ (System.along_nil _) (System.exec_nil _)
  obtain ⟨report, hreport⟩ := Option.isSome_iff_exists.mp hdone
  obtain ⟨hosts, opened, hread, hperm, -, hopened⟩ := (hall acts s hfollows hexec).2 report hreport
  have hup : network.upHosts call.discovery ["10.10.30.21", "10.10.30.22"] = ["10.10.30.21"] := by
    rw [hcall, Network.upHosts, hpings]
    decide
  rw [hup] at hperm
  obtain rfl := List.perm_singleton.mp hperm
  obtain ⟨hsorted, hmem⟩ := hopened "10.10.30.21"
  have hports : opened "10.10.30.21" = [502] := by
    refine List.perm_singleton.mp
      ((List.perm_ext_iff_of_nodup hsorted.nodup (List.nodup_singleton 502)).mpr fun p => ?_)
    have hfirst : Peer.First (fun k => ⟨if k = 1 then .timedOut else .accepted, 0, []⟩)
        (call.retries.toNat + 1) .accepted := by
      rw [hcall]
      refine ⟨2, by decide, by decide, rfl, fun j h1 hj => ?_⟩
      obtain rfl : j = 1 := by omega
      rfl
    rw [hmem, and_iff_left hfirst]
    exact ((SweepCall.plan_asked hplan).2.2 p).symm
  rw [List.map_singleton, hports] at hread
  rw [hcall] at hrun hexec hreport
  exact ⟨network, s₀, acts, s, report, hrun, hexec, hreport, hread⟩

end Inventory

end Cli

end Pyscan
