import Pyscan.Application.PeerScan

/-!
# The SYN scan

A SYN scan sends a lone SYN and reads the reply; a port that accepts is reset
before the connection stands. Where a host treats a SYN as it treats a
connection, **the SYN scan and a scan over connections find the same states**
(`scans_agree`), whatever the schedules, and a reset is sent just where a port
was found open.
-/

namespace Pyscan

open Py Streams Lts
open S7commScan (Connect)

/-! ## The classification -/

namespace Syn

abbrev syn : Nat := 0x02
abbrev rst : Nat := 0x04
abbrev ack : Nat := 0x10
abbrev synAck : Nat := syn ||| ack

def classify (tcpFlags : Option Nat) (icmpUnreachable : Bool) : PortState :=
  if icmpUnreachable then .filtered
  else match tcpFlags with
    | none => .filtered
    | some flags =>
      if flags &&& synAck = synAck then .opened
      else if flags &&& rst ≠ 0 then .closed
      else .filtered

example : classify (some 0x12) false = .opened ∧ classify (some 0x14) false = .closed := by decide

end Syn

namespace SynScan

def hint : String :=
  "SYN scan needs scapy + raw-socket privileges. " ++
  "Install: pip install 'pyscan[syn]'. Run as root (Linux: sudo) or as admin " ++
  "with Npcap (Windows), or from WSL2."

/-- What `sr1` comes to. -/
inductive Response where
  | permissionError
  /-- any other `OSError` -/
  | osError
  | silence
  | tcp (flags ack : Nat)
  /-- ICMP or ICMPv6: destination unreachable -/
  | unreachable
  | other

inductive Sent where
  | syn
  | reset (seq : Nat)
  deriving DecidableEq

/-- `_probe`: what it sends, and what it returns, or the text of the `RuntimeError`. -/
def probe (port : Nat) (response : Response) (latencyMs : ℚ) : List Sent × Except String PortResult :=
  match response with
  -- the socket is refused, nothing leaves
  | .permissionError => ([], .error hint)
  | .osError | .silence => ([.syn], .ok { port, state := .filtered })
  | .tcp flags ack =>
    let state := Syn.classify (some flags) false
    (.syn :: (if state = .opened then [.reset ack] else []),
      .ok { port, state, latencyMs := some latencyMs })
  | .unreachable =>
    ([.syn], .ok { port, state := Syn.classify none true, latencyMs := some latencyMs })
  | .other => ([.syn], .ok { port, state := .filtered, latencyMs := some latencyMs })

variable {port : Nat} {response : Response} {latencyMs : ℚ} {connect : Connect} {result : PortResult}

/-- A connection is torn down just where the port is found open. -/
theorem probe_reset (h : (probe port response latencyMs).2 = .ok result) :
    (∃ seq, Sent.reset seq ∈ (probe port response latencyMs).1) ↔ result.state = .opened := by
  cases response with
  | tcp flags ack =>
    obtain rfl := Except.ok.inj h
    unfold probe
    dsimp only
    split
    · rename_i hopened
      exact iff_of_true ⟨ack, by simp⟩ hopened
    · rename_i hopened
      exact iff_of_false (by simp) hopened
  | permissionError => cases h
  | _ =>
    obtain rfl := Except.ok.inj h
    exact iff_of_false (by simp [probe]) (by simp [Syn.classify])

/-- A host answers a SYN as it answers a connection. -/
inductive Alike : Connect → Response → Prop where
  | accepts {flags ack : Nat} (h : flags &&& Syn.synAck = Syn.synAck) : Alike .accepted (.tcp flags ack)
  | refuses {flags ack : Nat} (h : flags &&& Syn.rst ≠ 0) (hack : flags &&& Syn.synAck ≠ Syn.synAck) :
    Alike .refused (.tcp flags ack)
  | silent : Alike .timedOut .silence
  | unreachable : Alike .failed .unreachable
  | failed : Alike .failed .osError

theorem Alike.probe (h : Alike connect response) (port : Nat) (latencyMs : ℚ) :
    ∃ result, (probe port response latencyMs).2 = .ok result ∧ result.port = port ∧
      result.state = Strategy.stateOf connect := by
  cases h with
  | accepts h => exact ⟨_, rfl, rfl, if_pos h⟩
  | refuses h hack => exact ⟨_, rfl, rfl, (if_neg hack).trans (if_pos h)⟩
  | _ => exact ⟨_, rfl, rfl, rfl⟩

end SynScan

/-! ## Two scans of one network -/

namespace ScanHost

/-- The ports of a report and their states. -/
def states (report : ScanReport) : List (Nat × PortState) :=
  report.host.ports.map fun r => (r.port, r.state)

variable {strategy strategy' : Nat → Nat → PortResult} {fingerprint : Option String → Nat → ServiceInfo}
  {scan : Scan} {concurrency : Nat} {maxRate : Option ℚ} {retries : Int} {limiter : Option Pacer}
  {now : ℚ} {s₀ s : ScanHost} {acts : List ScanHost.Act} {report : ScanReport}

/-- The states of a report are those of the last answers, by port. -/
theorem states_eq (hcarries : ∀ port k, (strategy port k).port = port)
    (hports : scan.target.ports.Nodup) (hc : 1 ≤ concurrency)
    (hscan : scanHost scan.target.ports concurrency maxRate retries limiter now = .ok s₀)
    (hfollows : system.Along (Follows strategy scan.target.ports) s₀ acts)
    (hexec : system.exec s₀ acts = some s) (hreport : scan.report fingerprint s = some report) :
    states report = (scan.target.ports.mergeSort (fun a b => decide (a ≤ b))).map fun port =>
      (port, (lastAnswer strategy retries.toNat port).state) := by
  obtain ⟨-, hreports⟩ := reports_answers fingerprint scan hcarries hports hc hscan hfollows hexec
  obtain ⟨hsorted, hperm, hanswered⟩ := hreports report hreport
  have hlist : report.host.ports.map PortResult.port =
      scan.target.ports.mergeSort (fun a b => decide (a ≤ b)) := by
    have hmerge : (scan.target.ports.mergeSort fun a b => decide (a ≤ b)).Pairwise
        fun a b => decide (a ≤ b) = true :=
      List.pairwise_mergeSort
        (fun a b c hab hbc => decide_eq_true ((of_decide_eq_true hab).trans (of_decide_eq_true hbc)))
        (fun a b => by simp [Nat.le_total]) _
    have hports : (report.host.ports.map PortResult.port).Pairwise fun a b => decide (a ≤ b) = true :=
      List.pairwise_map.mpr (hsorted.imp fun hlt => decide_eq_true hlt.le)
    refine (hperm.trans (List.mergeSort_perm _ _).symm).eq_of_pairwise (fun a b _ _ hab hba => ?_)
      hports hmerge
    exact le_antisymm (of_decide_eq_true hab) (of_decide_eq_true hba)
  rw [← hlist, List.map_map]
  refine List.map_congr_left fun r hr => ?_
  obtain ⟨port, -, rfl⟩ := hanswered r hr
  have hport : (lastAnswer strategy retries.toNat port).port = port := hcarries _ _
  rw [Function.comp_apply, identify_port, identify_state, hport]

/-- The last answers of two strategies have the same state where all their answers do. -/
theorem lastAnswer_state_congr (h : ∀ port k, (strategy port k).state = (strategy' port k).state)
    (retries port : Nat) :
    (lastAnswer strategy retries port).state = (lastAnswer strategy' retries port).state := by
  have hlast : lastAttempt inconclusive (strategy port) 1 retries =
      lastAttempt inconclusive (strategy' port) 1 retries :=
    lastAttempt_congr (fun k => by rw [inconclusive, inconclusive, h]) 1 retries
  rw [lastAnswer, lastAnswer, hlast, h]

/-- The answers of a SYN scan: `_probe` returned them. -/
def SynAnswers (responses : Nat → Nat → SynScan.Response) (latencyMs : Nat → Nat → ℚ)
    (answer : Nat → Nat → PortResult) : Prop :=
  ∀ port k, (SynScan.probe port (responses port k) (latencyMs port k)).2 = .ok (answer port k)

variable {peers : Nat → Nat → Peer} {responses : Nat → Nat → SynScan.Response}
  {concurrency' : Nat} {maxRate' : Option ℚ} {limiter' : Option Pacer} {now' : ℚ}
  {s₀' : ScanHost} {connects : Strategy}

/-- **A SYN scan and a scan over connections agree.** Where hosts answer a SYN as they answer a
connection, the reports of both have the same ports in the same states, for the same retries, each scan
under a schedule, a rate and a concurrency of its own; and a probe sends a reset just where the port accepted it. -/
theorem scans_agree (fingerprint : Option String → Nat → ServiceInfo) (scan scan' : Scan)
    (latencyMs : Nat → Nat → ℚ)
    (halike : ∀ port k, SynScan.Alike (peers port k).connect (responses port k))
    (hpeers : connects.Withstands peers) (hsame : scan'.target.ports = scan.target.ports)
    (hports : scan.target.ports.Nodup) (hc : 1 ≤ concurrency) (hc' : 1 ≤ concurrency')
    (hscan : scanHost scan.target.ports concurrency maxRate retries limiter now = .ok s₀)
    (hscan' : scanHost scan'.target.ports concurrency' maxRate' retries limiter' now' = .ok s₀') :
    (∃ answer answer', connects.Answers peers answer ∧ SynAnswers responses latencyMs answer' ∧
      ∀ acts s acts' s' report report',
        system.Along (Follows answer scan.target.ports) s₀ acts → system.exec s₀ acts = some s →
        system.Along (Follows answer' scan'.target.ports) s₀' acts' →
        system.exec s₀' acts' = some s' →
        scan.report fingerprint s = some report → scan'.report fingerprint s' = some report' →
        states report = states report') ∧
    ∀ port k, (∃ seq, SynScan.Sent.reset seq ∈
      (SynScan.probe port (responses port k) (latencyMs port k)).1) ↔ (peers port k).connect = .accepted := by
  choose answer' hanswers' hport' hstate' using fun port k =>
    (halike port k).probe port (latencyMs port k)
  constructor
  · obtain ⟨answer, hanswers⟩ := exists_answers hpeers
    refine ⟨answer, answer', hanswers, hanswers',
      fun acts s acts' s' report report' hfollows hexec hfollows' hexec' hreport hreport' => ?_⟩
    have hagree (port k : Nat) : (answer port k).state = (answer' port k).state := by
      obtain ⟨banner, hanswer, -⟩ := reports_of_answers hpeers hanswers port k
      rw [hstate', hanswer]
    rw [states_eq (answers_port hpeers hanswers) hports hc hscan hfollows hexec hreport,
      states_eq hport' (by rwa [hsame]) hc' hscan' hfollows' hexec' hreport', hsame]
    exact List.map_congr_left fun port _ =>
      congrArg (Prod.mk port) (lastAnswer_state_congr hagree retries.toNat port)
  · intro port k
    rw [SynScan.probe_reset (hanswers' port k), hstate']
    exact (stateOf_eq (peers port k).connect).1

/-- A station with one open port. -/
theorem scans_agree_station :
    ∃ s₀ acts s acts' s' report report', scanHost [80, 502] 2 none 0 none 0 = .ok s₀ ∧
      system.exec s₀ acts = some s ∧ system.exec s₀ acts' = some s' ∧
      (⟨⟨"plc", [80, 502], .tcp⟩, none, "modbus", 0, 0⟩ : Scan).report (fun _ _ => {}) s = some report ∧
      (⟨⟨"plc", [80, 502], .tcp⟩, none, "syn", 0, 0⟩ : Scan).report (fun _ _ => {}) s' = some report' ∧
      states report = states report' := by
  obtain ⟨connect, hconnect⟩ : ∃ connect : Nat → Connect, connect =
    fun port => if port = 502 then .accepted else .refused := ⟨_, rfl⟩
  obtain ⟨response, hresponse⟩ : ∃ response : Nat → SynScan.Response, response =
    fun port => if port = 502 then .tcp 0x12 1 else .tcp 0x14 0 := ⟨_, rfl⟩
  have halike : ∀ port k : Nat, SynScan.Alike (⟨connect port, 0, []⟩ : Peer).connect (response port) := by
    intro port k
    subst hconnect hresponse
    dsimp only
    split
    · exact .accepts (by decide)
    · exact .refuses (by decide) (by decide)
  have hpeers : (Strategy.modbus {}).Withstands fun port _ => ⟨connect port, 0, []⟩ := fun _ _ _ =>
    (by decide : 1 < 256)
  have hscan : scanHost [80, 502] 2 none 0 none 0 = .ok _ := rfl
  obtain ⟨⟨answer, answer', hanswers, hanswers', hall⟩, -⟩ := scans_agree
    (fun _ _ => {}) ⟨⟨"plc", [80, 502], .tcp⟩, none, "modbus", 0, 0⟩
    ⟨⟨"plc", [80, 502], .tcp⟩, none, "syn", 0, 0⟩ (fun _ _ => 0)
    halike hpeers rfl (by decide) (by decide) (by decide) hscan hscan
  obtain ⟨⟨acts, s, hfollows, hexec, hdone⟩, -⟩ := reports_answers (fun _ _ => {})
    ⟨⟨"plc", [80, 502], .tcp⟩, none, "modbus", 0, 0⟩ (answers_port hpeers hanswers) (by decide)
    (by decide) hscan (System.along_nil _) (System.exec_nil _)
  have hport' (port k : Nat) : (answer' port k).port = port := by
    obtain ⟨result, hresult, hport, -⟩ := (halike port k).probe port 0
    rw [Except.ok.inj ((hanswers' port k).symm.trans hresult), hport]
  obtain ⟨⟨acts', s', hfollows', hexec', hdone'⟩, -⟩ := reports_answers (fun _ _ => {})
    ⟨⟨"plc", [80, 502], .tcp⟩, none, "syn", 0, 0⟩ hport' (by decide)
    (by decide) hscan (System.along_nil _) (System.exec_nil _)
  obtain ⟨report, hreport⟩ := Option.isSome_iff_exists.mp hdone
  obtain ⟨report', hreport'⟩ := Option.isSome_iff_exists.mp hdone'
  exact ⟨_, acts, s, acts', s', report, report', rfl, hexec, hexec', hreport, hreport',
    hall acts s acts' s' report report' hfollows hexec hfollows' hexec' hreport hreport'⟩

end ScanHost

end Pyscan
