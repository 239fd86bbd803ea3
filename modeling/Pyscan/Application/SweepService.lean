import Pyscan.Application.ScanService
import Pyscan.Py.Inet

/-!
# Sweeping a network

`SweepService.run`: discovery pings every candidate, then the hosts that are up
are scanned, port by port. One rate limiter is shared by both phases and all
hosts; `attempts` is the log of the connections opened. `TcpPingDiscovery.is_up`
calls `open_connection` for each of its ping ports behind a single pass of the
limiter, with the candidate as it is given: a name is looked up in the call, and
every address found may get a connection. `scan_host` looks the name up first and
gives every port of a host its own permit; a name it does not find is not found by
the connections either, whose calls are counted all the same.
-/

namespace Pyscan

open Py Spacing Lts

/-- A sweep's services and arguments. -/
structure SweepService where
  ports : List Nat
  /-- the ports of its `TcpPingDiscovery` -/
  pingPorts : List Nat := [80, 443, 22, 3389]
  hostConcurrency : Nat := 64
  retries : Int := 0

/-- What the pings of one `is_up` came to: how long each took, and whether it was answered. -/
abbrev Pings := List (ℚ × Bool)

namespace Pings

/-- `is_up` waits for all its pings. -/
def duration (pings : Pings) : ℚ := (pings.map Prod.fst).foldr max 0

theorem duration_nonneg (pings : Pings) : 0 ≤ pings.duration := by
  unfold duration
  induction pings.map Prod.fst with
  | nil => exact le_rfl
  | cons _ _ ih => exact ih.trans (le_max_right _ _)

/-- `any(results)`. -/
def isUp (pings : Pings) : Bool := pings.any Prod.snd

end Pings

/-- A host that is an address: `open_connection` looks nothing up. -/
def literal (host : String) : Bool := (ipAddress host).isSome

/-- The connections that `open_connection` opens for one ping, each by how long after the call: one at
once to an address; to a name, one after the other to the addresses the name is found to have. -/
def Opens (host : String) (ping : ℚ × Bool) (opened : List ℚ) : Prop :=
  if literal host then opened = [0] else ∀ t ∈ opened, 0 ≤ t ∧ t ≤ ping.1

instance (host : String) (ping : ℚ × Bool) (opened : List ℚ) : Decidable (Opens host ping opened) := by
  unfold Opens
  infer_instance

/-- Whatever is pinged, its connections may be so: a name may have no address. -/
theorem exists_opens (host : String) (pings : Pings) :
    ∃ opened, List.Forall₂ (Opens host) pings opened := by
  refine ⟨pings.map fun _ => if literal host then [0] else [],
    List.forall₂_map_right_iff.mpr (List.forall₂_same.mpr fun ping _ => ?_)⟩
  unfold Opens
  split
  · rfl
  · exact List.forall_mem_nil _

/-- What the scan of a host has when its probes are over, and when they began and ended. -/
structure Scanned where
  began : ℚ
  ended : ℚ
  results : List PortResult

/-- How far `scan_one` has come with a host. -/
inductive HostPhase where
  /-- before the host semaphore -/
  | arriving
  | queued
  | granted
  /-- in `_resolve` -/
  | resolving (ends : ℚ)
  | scanning (began : ℚ) (pool : Pool PortResult)
  | reported (scanned : Scanned)

structure HostScan where
  host : String
  phase : HostPhase

inductive Stage where
  | discovering (hosts : List String) (pool : Pool Pings)
  | scanning (sem : Semaphore) (hosts : List HostScan)

/-- The state of a sweep. -/
structure Sweep where
  now : ℚ
  limiter : Option Pacer
  stage : Stage
  /-- when a connection was opened, to which host and port -/
  attempts : List (ℚ × String × Nat) := []

namespace Sweep

inductive Act where
  /-- `opened` are the connections of each ping, when the check is launched -/
  | check (a : Pool.Act Pings) (opened : List (List ℚ))
  | discovered
  | enter (j : Nat)
  | resolve (j : Nat) (duration : ℚ)
  | resolved (j : Nat)
  | probe (j : Nat) (a : Pool.Act PortResult)
  | report (j : Nat)
  | tick (t : ℚ)

/-- `is_up` ends with its last ping; every ping port gets one, and each its connections. -/
def pinged (pingPorts : List Nat) (hosts : List String) (opened : List (List ℚ)) :
    Pool.Act Pings → Bool
  | .launch i duration pings => decide (pings.length = pingPorts.length ∧
      duration = pings.duration ∧ List.Forall₂ (Opens (hosts.getD i "")) pings opened)
  | _ => true

/-- The connections of a check, ping port by ping port. -/
def connections (pingPorts : List Nat) (opened : List (List ℚ)) (now : ℚ) (host : String) :
    List (ℚ × String × Nat) :=
  (pingPorts.zip opened).flatMap fun p => p.2.map fun t => (now + t, host, p.1)

/-- `[host for host, up in checked if up]`. -/
def upHosts (hosts : List String) (checked : List Pings) : List String :=
  ((hosts.zip checked).filter fun c => c.2.isUp).map Prod.fst

/-- The host that was handed a permit goes on. -/
def grant (hosts : List HostScan) (waiter : Option Nat) : List HostScan :=
  match waiter with
  | none => hosts
  | some j =>
    match hosts[j]? with
    | none => hosts
    | some h => hosts.set j ⟨h.host, .granted⟩

/-- `scan_one` for every host, at the host semaphore. -/
def arrive (hostConcurrency : Nat) (hosts : List String) : Stage :=
  .scanning ⟨hostConcurrency, []⟩ (hosts.map fun host => ⟨host, .arriving⟩)

end Sweep

def HostPhase.waitsUntil (phase : HostPhase) (t : ℚ) : Bool :=
  match phase with
  | .arriving | .granted => false
  | .queued | .reported _ => true
  | .resolving ends => decide (t ≤ ends)
  | .scanning _ pool => pool.idleUntil t && pool.answers.isNone

def Stage.idleUntil (stage : Stage) (t : ℚ) : Bool :=
  match stage with
  | .discovering _ pool => pool.idleUntil t && pool.answers.isNone
  | .scanning _ hosts => hosts.all fun h => h.phase.waitsUntil t

namespace SweepService

variable (service : SweepService)

/-- A step of `_discover`. -/
def discoverStep (s : Sweep) (hosts : List String) (pool : Pool Pings) (a : Pool.Act Pings)
    (opened : List (List ℚ)) : Option Sweep :=
  if Sweep.pinged service.pingPorts hosts opened a then
    (pool.step (fun _ => false) s.now s.limiter a).map fun r => { s with
      limiter := r.1
      stage := .discovering hosts r.2
      attempts := s.attempts ++ a.launched.flatMap fun i =>
        Sweep.connections service.pingPorts opened s.now (hosts.getD i "") }
  else none

/-- A step of `scan_one` on host `j`. -/
def scanStep (s : Sweep) (sem : Semaphore) (hosts : List HostScan) : Sweep.Act → Option Sweep
  | .enter j =>
    match hosts[j]? with
    | some ⟨host, .arriving⟩ =>
      let r := sem.acquire j
      some { s with
        stage := .scanning r.1 (hosts.set j ⟨host, if r.2 then .granted else .queued⟩) }
    | _ => none
  | .resolve j duration =>
    match hosts[j]? with
    | some ⟨host, .granted⟩ =>
      if 0 ≤ duration then
        some { s with stage := .scanning sem (hosts.set j ⟨host, .resolving (s.now + duration)⟩) }
      else none
    | _ => none
  | .resolved j =>
    match hosts[j]? with
    | some ⟨host, .resolving ends⟩ =>
      if ends = s.now then
        let pool := Pool.start service.ports.length service.ports.length service.retries.toNat
        some { s with stage := .scanning sem (hosts.set j ⟨host, .scanning s.now pool⟩) }
      else none
    | _ => none
  | .probe j a =>
    match hosts[j]? with
    | some ⟨host, .scanning began pool⟩ =>
      (pool.step inconclusive s.now s.limiter a).map fun r => { s with
        limiter := r.1
        stage := .scanning sem (hosts.set j ⟨host, .scanning began r.2⟩)
        attempts := s.attempts ++ a.launched.map fun i => (s.now, host, service.ports.getD i 0) }
    | _ => none
  | .report j =>
    match hosts[j]? with
    | some ⟨host, .scanning began pool⟩ =>
      pool.answers.map fun results =>
        let r := sem.release
        let scanned := ⟨began, s.now, results⟩
        { s with stage := .scanning r.1 (Sweep.grant (hosts.set j ⟨host, .reported scanned⟩) r.2) }
    | _ => none
  | _ => none

def step (s : Sweep) (act : Sweep.Act) : Option Sweep :=
  match act, s.stage with
  | .tick t, stage => if s.now < t ∧ stage.idleUntil t then some { s with now := t } else none
  | .check a opened, .discovering hosts pool => service.discoverStep s hosts pool a opened
  | .discovered, .discovering hosts pool => pool.answers.map fun checked =>
      { s with stage := Sweep.arrive service.hostConcurrency (Sweep.upHosts hosts checked) }
  | _, .discovering _ _ => none
  | act, .scanning sem hosts => service.scanStep s sem hosts act

def system : System Sweep Sweep.Act := ⟨service.step⟩

/-- `run`, from time `now` on, over the candidates its spec expands to. -/
def run (candidates : List String) (discover : Bool) (maxRate : Option ℚ) (now : ℚ) :
    Result Sweep := do
  let limiter ← ScanHost.openLimiter none maxRate now
  .ok {
    now := now
    limiter := limiter
    stage := if discover then
        .discovering candidates (Pool.start service.hostConcurrency candidates.length 0)
      else Sweep.arrive service.hostConcurrency candidates }

end SweepService

end Pyscan
