import Pyscan.Adapters.UdpScan
import Pyscan.Application.ScanOutcome

/-!
# A UDP scan and the network

Silence is ambiguous in UDP, so a port is probed until something counts or the
retries are spent. Under every schedule **a port is open when the first answer
that counts is a reply, closed when it is a refusal**, and otherwise in doubt as
the last probe left it (`scan_udp`).
-/

namespace Pyscan

open Py Lts

namespace UdpScan

/-- What a probe comes to. -/
inductive Answer where
  | replied (data : Bytes)
  | unreachable
  | failed
  | timedOut
  | raised
  deriving DecidableEq, Repr

def Probe.answer (probe : Probe) : Answer :=
  if ¬ probe.endpoint then .failed
  else match (probe.inTime.findSome? Event.value).getD .pending with
    | .result data => .replied data
    | .failed .refused | .failed .reset => .unreachable
    | .failed .osError => .failed
    | .failed .other => .raised
    | .pending | .failed .timedOut => .timedOut

namespace Answer

/-- Nothing came back. -/
def silent (a : Answer) : Bool := a = .failed ∨ a = .timedOut

def state : Answer → PortState
  | .replied _ => .opened
  | .unreachable => .closed
  | .failed => .filtered
  | .timedOut => .openFiltered
  | .raised => .unknown

def banner : Answer → Option String
  | .replied data => some (preview data)
  | _ => none

end Answer

/-- A result for the port that says what the probe came to. -/
structure Reports (a : Answer) (port : Nat) (result : PortResult) : Prop where
  port : result.port = port
  state : result.state = a.state
  banner : result.banner = a.banner

/-- A scan of a port ends as its probe does, after one payload at most. -/
theorem scanPort_reports (port : Nat) (probe : Probe) (h : probe.answer ≠ .raised) :
    ∃ sent result, scanPort port probe = (sent, .ok result) ∧ sent.length ≤ 1 ∧
      Reports probe.answer port result := by
  obtain ⟨payload, hpayload⟩ := UdpProbes.payloadFor_ok port
  unfold scanPort
  unfold Probe.answer at h ⊢
  by_cases hendpoint : probe.endpoint = true
  · rw [if_neg (not_not.mpr hendpoint)] at h ⊢
    rw [if_neg (not_not.mpr hendpoint), hpayload, callbacks_pending]
    dsimp only at h ⊢
    generalize (probe.inTime.findSome? Event.value).getD .pending = f at h ⊢
    rcases f with _ | data | (_ | _ | _ | _ | _)
    all_goals first
      | exact absurd rfl h
      | exact ⟨_, _, rfl, le_rfl, rfl, rfl, rfl⟩
  · rw [if_pos hendpoint, if_pos hendpoint]
    exact ⟨_, _, rfl, Nat.zero_le 1, rfl, rfl, rfl⟩

end UdpScan

namespace ScanHost

open UdpScan

section Udp

variable {probes : Nat → Nat → UdpScan.Probe} {answer : Nat → Nat → PortResult}

theorem inconclusive_udp {a : Answer} {port : Nat} {result : PortResult} (h : Reports a port result)
    (hraised : a ≠ .raised) : inconclusive result = a.silent := by
  rw [inconclusive, h.state]
  cases a
  case raised => exact absurd rfl hraised
  all_goals rfl

/-- The scan's answers: `scan_port` returned them. -/
def Answers (probes : Nat → Nat → Probe) (answer : Nat → Nat → PortResult) : Prop :=
  ∀ port k, (scanPort port (probes port k)).2 = .ok (answer port k)

theorem exists_answers_udp (h : ∀ port k, (probes port k).answer ≠ .raised) :
    ∃ answer, Answers probes answer ∧ ∀ port k, Reports (probes port k).answer port (answer port k) := by
  choose sent result hscan _ hreports using fun port k => scanPort_reports port (probes port k) (h port k)
  exact ⟨result, fun port k => by rw [hscan], hreports⟩

/-- Among `tries` probes the first that counts comes to `a`. -/
def FirstUdp (probes : Nat → Probe) (tries : Nat) (a : Answer) : Prop :=
  First Answer.silent (fun k => (probes k).answer) tries a

/-- The answer that `bounded` returns, and the probe it comes from. -/
theorem lastAnswer_udp (hraised : ∀ port k, (probes port k).answer ≠ .raised)
    (hreports : ∀ port k, Reports (probes port k).answer port (answer port k)) (retries port : Nat) :
    Reports (settled Answer.silent (fun k => (probes port k).answer) retries) port
      (lastAnswer answer retries port) := by
  have hlast : lastAttempt inconclusive (answer port) 1 retries =
      lastAttempt Answer.silent (fun k => (probes port k).answer) 1 retries :=
    lastAttempt_congr (fun k => inconclusive_udp (hreports port k) (hraised port k)) 1 retries
  rw [lastAnswer, hlast]
  exact hreports port _

/-- What the answer settled on says of the probes. -/
theorem settled_udp (f : Nat → Answer) (retries : Nat) :
    ((settled Answer.silent f retries).state = .opened ↔
        ∃ data, First Answer.silent f (retries + 1) (.replied data)) ∧
      ((settled Answer.silent f retries).state = .closed ↔
        First Answer.silent f (retries + 1) .unreachable) ∧
      ((settled Answer.silent f retries).state = .openFiltered ↔ f (retries + 1) = .timedOut ∧
        ∀ k, 1 ≤ k → k ≤ retries + 1 → (f k).silent = true) ∧
      ((settled Answer.silent f retries).state = .filtered ↔ f (retries + 1) = .failed ∧
        ∀ k, 1 ≤ k → k ≤ retries + 1 → (f k).silent = true) := by
  have hlast : ∀ a : Answer, a.silent = true → (settled Answer.silent f retries = a ↔
      f (retries + 1) = a ∧ ∀ k, 1 ≤ k → k ≤ retries + 1 → (f k).silent = true) := by
    intro a ha
    constructor
    · rintro rfl
      obtain ⟨heq, hall⟩ := settled_again ha
      exact ⟨heq.symm, hall⟩
    · rintro ⟨heq, hall⟩
      rw [(settled_again (settled_again_iff.mpr hall)).1, heq]
  have hopened : ∀ a : Answer, a.state = .opened ↔ ∃ data, a = .replied data := by
    intro a
    cases a <;> simp [Answer.state]
  have hstates : ∀ a : Answer, (a.state = .closed ↔ a = .unreachable) ∧
      (a.state = .openFiltered ↔ a = .timedOut) ∧ (a.state = .filtered ↔ a = .failed) := by
    intro a
    cases a <;> simp [Answer.state]
  obtain ⟨hclosed, htimedOut, hfailed⟩ := hstates (settled Answer.silent f retries)
  refine ⟨?_, hclosed.trans (settled_eq rfl), htimedOut.trans (hlast .timedOut rfl),
    hfailed.trans (hlast .failed rfl)⟩
  rw [hopened]
  exact exists_congr fun data => settled_eq rfl

variable (fingerprint : Option String → Nat → ServiceInfo) (scan : Scan) {concurrency : Nat}
  {maxRate : Option ℚ} {retries : Int} {limiter : Option Pacer} {now : ℚ} {s₀ : ScanHost}

/-- **A UDP report says what came back.** Whatever events reach the probes, in whatever order, every
schedule can be carried to a report, and every report has each port once, in order: open with the
preview of the first reply that counts, closed by the first refusal that does, and where nothing
counts, open or filtered if the last probe timed out, filtered if it failed. -/
theorem scan_udp (hprobes : ∀ port k, (probes port k).answer ≠ .raised)
    (hports : scan.target.ports.Nodup) (hc : 1 ≤ concurrency)
    (hscan : scanHost scan.target.ports concurrency maxRate retries limiter now = .ok s₀) :
    ∃ answer, Answers probes answer ∧
      ∀ acts s, system.Along (Follows answer scan.target.ports) s₀ acts → system.exec s₀ acts = some s →
        (∃ rest s', system.Along (Follows answer scan.target.ports) s rest ∧
          system.exec s rest = some s' ∧ (scan.report fingerprint s').isSome) ∧
        ∀ report, scan.report fingerprint s = some report →
          (report.host.ports.Pairwise fun a b => a.port < b.port) ∧
          (report.host.ports.map PortResult.port).Perm scan.target.ports ∧
          ∀ r ∈ report.host.ports,
            (r.state = .opened ↔
              ∃ data, FirstUdp (probes r.port) (retries.toNat + 1) (.replied data)) ∧
            (∀ data, FirstUdp (probes r.port) (retries.toNat + 1) (.replied data) →
              r.banner = some (preview data)) ∧
            (r.state = .closed ↔ FirstUdp (probes r.port) (retries.toNat + 1) .unreachable) ∧
            (r.state = .openFiltered ↔ (probes r.port (retries.toNat + 1)).answer = .timedOut ∧
              ∀ k, 1 ≤ k → k ≤ retries.toNat + 1 → (probes r.port k).answer.silent = true) ∧
            (r.state = .filtered ↔ (probes r.port (retries.toNat + 1)).answer = .failed ∧
              ∀ k, 1 ≤ k → k ≤ retries.toNat + 1 → (probes r.port k).answer.silent = true) := by
  obtain ⟨answer, hanswers, hanswered⟩ := exists_answers_udp hprobes
  refine ⟨answer, hanswers, fun acts s hfollows hexec => ?_⟩
  obtain ⟨hends, hreports⟩ := reports_answers fingerprint scan
    (fun port k => (hanswered port k).port) hports hc hscan hfollows hexec
  refine ⟨hends, fun report hreport => ?_⟩
  obtain ⟨hsorted, hperm, hcome⟩ := hreports report hreport
  refine ⟨hsorted, hperm, fun r hr => ?_⟩
  obtain ⟨port, -, rfl⟩ := hcome r hr
  obtain ⟨hport, hstate, hbanner⟩ := lastAnswer_udp hprobes hanswered retries.toNat port
  obtain ⟨hopened, hclosed, htimedOut, hfailed⟩ :=
    settled_udp (fun k => (probes port k).answer) retries.toNat
  rw [identify_port, identify_state, identify_banner, hport, hstate, hbanner]
  refine ⟨hopened, fun data hfirst => ?_, hclosed, htimedOut, hfailed⟩
  rw [(settled_eq rfl).mpr hfirst]
  rfl

/-- A resolver whose first answer is lost, and whose second comes twice. -/
def lossyResolver : Nat → Nat → Probe := fun _ k =>
  ⟨true, if k = 1 then [] else [.datagramReceived [0x41], .datagramReceived [0x42]], 0⟩

theorem scan_udp_retried :
    ∃ s₀ acts s report, scanHost [53] 1 none 1 none 0 = .ok s₀ ∧ system.exec s₀ acts = some s ∧
      (⟨⟨"plc", [53], .tcp⟩, none, "udp", 0, 0⟩ : Scan).report (fun _ _ => {}) s = some report ∧
      ∀ r ∈ report.host.ports, r.state = .opened := by
  have hscan : scanHost [53] 1 none 1 none 0 = .ok _ := rfl
  have hprobes : ∀ port k, (lossyResolver port k).answer ≠ .raised := by
    intro port k
    unfold lossyResolver
    split <;> decide
  obtain ⟨answer, -, hall⟩ := scan_udp (fun _ _ => {}) ⟨⟨"plc", [53], .tcp⟩, none, "udp", 0, 0⟩
    hprobes (by decide) (le_refl 1) hscan
  obtain ⟨⟨acts, s, hfollows, hexec, hdone⟩, -⟩ := hall [] _ (System.along_nil _) (System.exec_nil _)
  obtain ⟨report, hreport⟩ := Option.isSome_iff_exists.mp hdone
  obtain ⟨-, -, hports⟩ := (hall acts s hfollows hexec).2 report hreport
  refine ⟨_, acts, s, report, rfl, hexec, hreport, fun r hr => ?_⟩
  refine (hports r hr).1.mpr ⟨[0x41], 2, by decide, by decide, rfl, fun j h1 hj => ?_⟩
  obtain rfl : j = 1 := by omega
  rfl

end Udp

end ScanHost

end Pyscan
