import Pyscan.Application.SweepService

/-!
# The rate of a sweep

Every pass of a sweep's limiter is spent at once: no semaphore of a sweep makes
a job wait behind it (the hosts fit into discovery's, and a host's ports into
its own). A port probe opens one connection in its slot. A discovery check
opens one or more for each ping port: to an address one at once, to a name one
for every address the name is found to have, and only when it is found. So the
sweep keeps to its rate exactly when there is one ping port and every candidate
is an address, or nothing is pinged (`sweep_rate_cap`).
-/

namespace Pyscan

open Py Spacing Lts

/-- The limiter's slots booked for the ports of a host. -/
def HostPhase.slots (now : ℚ) : HostPhase → List ℚ
  | .scanning _ pool => Pool.booked now pool.jobs
  | _ => []

def hostSlots (now : ℚ) (hosts : List HostScan) : List ℚ := hosts.flatMap fun h => h.phase.slots now

def Stage.slots (now : ℚ) : Stage → List ℚ
  | .discovering _ pool => Pool.booked now pool.jobs
  | .scanning _ hosts => hostSlots now hosts

namespace SweepService

variable {service : SweepService} {s s' : Sweep} {δ : ℚ}

/-- Every port of a host has a permit. -/
def HostsRoomy (service : SweepService) (hosts : List HostScan) : Prop :=
  ∀ h ∈ hosts, ∀ began pool, h.phase = .scanning began pool → pool.Roomy service.ports.length

/-- Every job has a permit; and where there are hosts to check, they are addresses, with one ping port. -/
def Roomy (service : SweepService) : Stage → Prop
  | .discovering hosts pool => pool.Roomy service.hostConcurrency ∧ pool.jobs.length = hosts.length ∧
      (hosts = [] ∨ service.pingPorts.length = 1 ∧ ∀ host ∈ hosts, literal host = true)
  | .scanning _ hosts => service.HostsRoomy hosts

/-- Every connection was opened in its slot. -/
structure InSlots (service : SweepService) (δ : ℚ) (s : Sweep) : Prop where
  paced : Pool.Paced δ s.limiter (s.stage.slots s.now) (s.attempts.map Prod.fst)
  roomy : service.Roomy s.stage

/-! ## The steps of a host -/

section Hosts

variable {now : ℚ} {hosts : List HostScan} {j : Nat} {x y : HostScan} {sem : Semaphore}
  {act : Sweep.Act}

theorem hostSlots_set (h : hosts[j]? = some x) (hy : y.phase.slots now = []) :
    (hostSlots now (hosts.set j y)).Subperm (hostSlots now hosts) := by
  have hset := flatMap_set h y fun h : HostScan => h.phase.slots now
  rw [hy, List.nil_append] at hset
  exact (List.sublist_append_right _ _).subperm.trans hset.subperm

theorem HostsRoomy.set (h : service.HostsRoomy hosts)
    (hy : ∀ began pool, y.phase = .scanning began pool → pool.Roomy service.ports.length) :
    service.HostsRoomy (hosts.set j y) := forall_set h hy

theorem hostSlots_grant (waiter : Option Nat) :
    (hostSlots now (Sweep.grant hosts waiter)).Subperm (hostSlots now hosts) := by
  unfold Sweep.grant
  split
  · exact List.Subperm.refl _
  · split
    · exact List.Subperm.refl _
    · exact hostSlots_set ‹_› rfl

theorem HostsRoomy.grant (h : service.HostsRoomy hosts) (waiter : Option Nat) :
    service.HostsRoomy (Sweep.grant hosts waiter) := by
  unfold Sweep.grant
  split
  · exact h
  · split
    · exact h
    · exact h.set (by rintro began pool ⟨⟩)

/-- A step of `scan_one` that opens no connection: no slot is booked by it. -/
structure Quiet (service : SweepService) (s : Sweep) (hosts : List HostScan) (s' : Sweep) : Prop where
  stage : ∃ sem' hosts', s' = { s with stage := .scanning sem' hosts' } ∧
    (hostSlots s.now hosts').Subperm (hostSlots s.now hosts) ∧ service.HostsRoomy hosts'

theorem Quiet.of_set (h : service.HostsRoomy hosts) (hj : hosts[j]? = some x)
    (hslots : y.phase.slots s.now = [])
    (hroomy : ∀ began pool, y.phase = .scanning began pool → pool.Roomy service.ports.length) (sem : Semaphore) :
    service.Quiet s hosts { s with stage := .scanning sem (hosts.set j y) } :=
  ⟨sem, hosts.set j y, rfl, hostSlots_set hj hslots, h.set hroomy⟩

/-- A step of `scan_one` is quiet, or a step of the pool of one host. -/
theorem scanStep_cases (h : service.HostsRoomy hosts)
    (hs : service.scanStep s sem hosts act = some s') :
    service.Quiet s hosts s' ∨ ∃ j a host began pool limiter pool',
      hosts[j]? = some ⟨host, .scanning began pool⟩ ∧
      pool.step inconclusive s.now s.limiter a = some (limiter, pool') ∧
      s' = { s with
        limiter := limiter
        stage := .scanning sem (hosts.set j ⟨host, .scanning began pool'⟩)
        attempts := s.attempts ++ a.launched.map fun i => (s.now, host, service.ports.getD i 0) } := by
  cases act with
  | enter j =>
    simp only [scanStep] at hs
    split at hs
    · obtain rfl := Option.some.inj hs
      refine .inl (Quiet.of_set h ‹_› ?_ ?_ _)
      · split <;> rfl
      · intro began pool hpool
        split at hpool <;> cases hpool
    · cases hs
  | resolve j duration =>
    simp only [scanStep] at hs
    split at hs
    · split at hs
      · obtain rfl := Option.some.inj hs
        exact .inl (Quiet.of_set h ‹_› rfl (by rintro began pool ⟨⟩) _)
      · cases hs
    · cases hs
  | resolved j =>
    simp only [scanStep] at hs
    split at hs
    · split at hs
      · obtain rfl := Option.some.inj hs
        refine .inl (Quiet.of_set h ‹_› ?_ ?_ _)
        · exact Pool.booked_start _ _ _ _
        · rintro began pool ⟨⟩
          exact Pool.roomy_start (le_refl _) _
      · cases hs
    · cases hs
  | probe j a =>
    simp only [scanStep] at hs
    split at hs
    · obtain ⟨⟨limiter, pool'⟩, hr, rfl⟩ := Option.map_eq_some_iff.mp hs
      exact .inr ⟨j, a, _, _, _, limiter, pool', ‹_›, hr, rfl⟩
    · cases hs
  | report j =>
    simp only [scanStep] at hs
    split at hs
    · obtain ⟨results, -, rfl⟩ := Option.map_eq_some_iff.mp hs
      refine .inl ⟨_, _, rfl, ?_, ?_⟩
      · exact (hostSlots_grant _).trans (hostSlots_set ‹_› rfl)
      · exact (h.set (by rintro began pool ⟨⟩)).grant _
    · cases hs
  | _ => cases hs

end Hosts

/-! ## The steps of a sweep -/

section Steps

variable {act : Sweep.Act} {hosts : List String} {pool : Pool Pings} {sem : Semaphore}
  {scans : List HostScan}

theorem hostSlots_cons (now : ℚ) (h : HostScan) (scans : List HostScan) :
    hostSlots now (h :: scans) = h.phase.slots now ++ hostSlots now scans := List.flatMap_cons

theorem InSlots.scanStep (h : InSlots service δ s) (hstage : s.stage = .scanning sem scans)
    (hs : service.scanStep s sem scans act = some s') : InSlots service δ s' := by
  have hroomy : service.HostsRoomy scans := by
    have := h.roomy
    rwa [hstage] at this
  have hpaced := h.paced
  rw [hstage] at hpaced
  rcases scanStep_cases hroomy hs with ⟨sem', scans', rfl, hslots, hroomy'⟩ | hprobe
  · exact ⟨hpaced.forget hslots, hroomy'⟩
  · obtain ⟨j, a, host, began, pool, limiter, pool', hj, hstep, rfl⟩ := hprobe
    have hpool := hroomy _ (List.mem_of_getElem? hj) began pool rfl
    obtain ⟨rest, hscans, hset⟩ := exists_perm_set hj
    have hbefore : (hostSlots s.now scans).Perm (Pool.booked s.now pool.jobs ++ hostSlots s.now rest) :=
      (hscans.flatMap_right _).trans (List.Perm.of_eq (hostSlots_cons ..))
    have hafter : (hostSlots s.now (scans.set j ⟨host, .scanning began pool'⟩)).Perm
        (Pool.booked s.now pool'.jobs ++ hostSlots s.now rest) :=
      ((hset _).flatMap_right _).trans (List.Perm.of_eq (hostSlots_cons ..))
    have hspent := Pool.step_paced (hpaced.perm hbefore) hpool.free (hpool.unlocked hstep) hstep
    refine ⟨?_, hroomy.set ?_⟩
    · rw [List.map_append, List.map_map]
      exact hspent.perm hafter.symm
    · rintro _ _ ⟨⟩
      exact hpool.step hstep

/-- A check of an address opens one connection, at once, given one ping port. -/
theorem connections_one {port : Nat} {pings : Pings} {opened : List (List ℚ)} {host : String}
    (now : ℚ) (hliteral : literal host = true) (hone : pings.length = 1)
    (hopens : List.Forall₂ (Opens host) pings opened) :
    Sweep.connections [port] opened now host = [(now, host, port)] := by
  obtain ⟨ping, rfl⟩ := List.length_eq_one_iff.mp hone
  cases hopens with
  | cons hping hrest =>
    obtain rfl := List.forall₂_nil_left_iff.mp hrest
    rw [Opens, if_pos hliteral] at hping
    simp [Sweep.connections, hping]

/-- A check opens one connection in its slot, given one ping port and addresses only. -/
theorem InSlots.discoverStep {a : Pool.Act Pings} {opened : List (List ℚ)} (h : InSlots service δ s)
    (hstage : s.stage = .discovering hosts pool)
    (hs : service.discoverStep s hosts pool a opened = some s') : InSlots service δ s' := by
  obtain ⟨hroomy, hlength, hping⟩ : pool.Roomy service.hostConcurrency ∧
      pool.jobs.length = hosts.length ∧
      (hosts = [] ∨ service.pingPorts.length = 1 ∧ ∀ host ∈ hosts, literal host = true) := by
    have := h.roomy
    rwa [hstage] at this
  have hpaced := h.paced
  rw [hstage] at hpaced
  unfold SweepService.discoverStep at hs
  split at hs
  · rename_i hpinged
    obtain ⟨⟨limiter, pool'⟩, hstep, rfl⟩ := Option.map_eq_some_iff.mp hs
    obtain ⟨hone, hliteral⟩ : service.pingPorts.length = 1 ∧ ∀ host ∈ hosts, literal host = true := by
      refine hping.resolve_left fun hnone => Pool.step_of_nil (List.length_eq_zero_iff.mp ?_) hstep
      rw [hlength, hnone, List.length_nil]
    obtain ⟨port, hport⟩ := List.length_eq_one_iff.mp hone
    have hpaced : Pool.Paced δ s.limiter (Pool.booked s.now pool.jobs ++ [])
        (s.attempts.map Prod.fst) := by
      rw [List.append_nil]
      exact hpaced
    have hspent := Pool.step_paced hpaced hroomy.free (hroomy.unlocked hstep) hstep
    have hopened : (a.launched.flatMap fun i =>
        Sweep.connections service.pingPorts opened s.now (hosts.getD i "")).map Prod.fst =
        a.launched.map fun _ => s.now := by
      cases a with
      | launch i duration pings =>
        obtain ⟨hpings, -, hopens⟩ := of_decide_eq_true hpinged
        obtain ⟨retries, hi, -⟩ := Pool.launch_inv hstep
        obtain ⟨hi, -⟩ := List.getElem?_eq_some_iff.mp hi
        have hmem : hosts.getD i "" ∈ hosts := by
          rw [List.getD_eq_getElem _ _ (hlength ▸ hi)]
          exact List.getElem_mem _
        rw [Pool.Act.launched, List.flatMap_singleton, hport,
          connections_one s.now (hliteral _ hmem) (hpings.trans hone) hopens]
        rfl
      | _ => rfl
    refine ⟨?_, hroomy.step hstep, (Pool.step_length hstep).trans hlength, .inr ⟨hone, hliteral⟩⟩
    rw [List.append_nil] at hspent
    rwa [List.map_append, hopened]
  · cases hs

/-- Time passes only while no job holds a permit that it has not used. -/
theorem slots_of_idle {stage : Stage} {t : ℚ} (h : stage.idleUntil t = true) (now : ℚ) :
    stage.slots now = stage.slots t := by
  cases stage with
  | discovering hosts pool =>
    rw [Stage.idleUntil, Bool.and_eq_true] at h
    exact Pool.booked_of_not_granted (Pool.not_runnable_of_idle h.1) now t
  | scanning sem scans =>
    refine List.flatMap_congr fun scan hscan => ?_
    have hscan := List.all_eq_true.mp h scan hscan
    cases hphase : scan.phase with
    | scanning began pool =>
      rw [hphase, HostPhase.waitsUntil, Bool.and_eq_true] at hscan
      exact Pool.booked_of_not_granted (Pool.not_runnable_of_idle hscan.1) now t
    | _ => rfl

theorem slots_arrive (now : ℚ) (hostConcurrency : Nat) (hosts : List String) :
    (Sweep.arrive hostConcurrency hosts).slots now = [] := by
  refine List.flatMap_eq_nil_iff.mpr fun scan hscan => ?_
  obtain ⟨host, -, rfl⟩ := List.mem_map.mp hscan
  rfl

theorem roomy_arrive (hostConcurrency : Nat) (hosts : List String) :
    service.Roomy (Sweep.arrive hostConcurrency hosts) := by
  intro scan hscan began pool hpool
  obtain ⟨host, -, rfl⟩ := List.mem_map.mp hscan
  cases hpool

theorem InSlots.step (h : InSlots service δ s) (hs : service.system.step s act = some s') :
    InSlots service δ s' := by
  change service.step s act = some s' at hs
  unfold SweepService.step at hs
  split at hs
  · -- time passes
    split at hs
    · rename_i hidle
      obtain rfl := Option.some.inj hs
      refine ⟨?_, h.roomy⟩
      have hslots := slots_of_idle hidle.2 s.now
      exact hslots ▸ h.paced
    · cases hs
  · exact h.discoverStep ‹_› hs
  · -- the hosts that are up have booked nothing yet
    obtain ⟨checked, -, rfl⟩ := Option.map_eq_some_iff.mp hs
    refine ⟨h.paced.forget ?_, roomy_arrive _ _⟩
    rw [slots_arrive]
    exact List.nil_subperm
  · cases hs
  · exact h.scanStep ‹_› hs

end Steps

/-! ## Whole sweeps -/

section Runs

variable {r : ℚ}

/-- A sweep with a rate starts with a limiter of that rate, all of whose slots are free. -/
theorem run_ok (hr : 0 < r) (service : SweepService) (candidates : List String) (discover : Bool)
    (now : ℚ) :
    ∃ pacer : Pacer, pacer.interval = 1 / r ∧ pacer.next = now ∧
      service.run candidates discover (some r) now = .ok {
        now := now
        limiter := some pacer
        stage := if discover then
            .discovering candidates (Pool.start service.hostConcurrency candidates.length 0)
          else Sweep.arrive service.hostConcurrency candidates } := by
  obtain ⟨pacer, hnew, hinterval, hnext⟩ := Pacer.new_ok hr now
  refine ⟨pacer, hinterval, hnext, ?_⟩
  simp only [run, ScanHost.openLimiter, if_neg hr.ne', hnew, ok_bind]

theorem inSlots_start {candidates : List String} {discover : Bool} {pacer : Pacer} {now : ℚ}
    (hhosts : candidates.length ≤ service.hostConcurrency)
    (hping : discover = true → candidates = [] ∨
      service.pingPorts.length = 1 ∧ ∀ host ∈ candidates, literal host = true)
    (hinterval : pacer.interval = 1 / r) :
    InSlots service (1 / r) {
      now := now
      limiter := some pacer
      stage := if discover then
          .discovering candidates (Pool.start service.hostConcurrency candidates.length 0)
        else Sweep.arrive service.hostConcurrency candidates } := by
  cases discover with
  | false =>
    refine ⟨?_, roomy_arrive _ _⟩
    dsimp only
    rw [if_neg Bool.false_ne_true, slots_arrive]
    exact Pool.paced_new hinterval
  | true =>
    refine ⟨?_, Pool.roomy_start hhosts 0, List.length_replicate, hping rfl⟩
    dsimp only
    rw [if_pos rfl, Stage.slots, Pool.booked_start]
    exact Pool.paced_new hinterval

/-- The connections of a check whose pings all open theirs at the same times. -/
theorem connections_replicate (ports : List Nat) (times : List ℚ) (now : ℚ) (host : String) :
    Sweep.connections ports (List.replicate ports.length times) now host =
      ports.flatMap fun port => times.map fun t => (now + t, host, port) := by
  unfold Sweep.connections
  induction ports with
  | nil => rfl
  | cons port ports ih =>
    rw [List.length_cons, List.replicate_succ, List.zip_cons_cons, List.flatMap_cons,
      List.flatMap_cons, ih]

/-- A state of discovery in which all checks but one are ready. -/
def oneCheck (now : ℚ) (hosts : List String) (limiter : Option Pacer) (permits i : Nat)
    (phase : Phase Pings) (attempts : List (ℚ × String × Nat)) : Sweep where
  now := now
  limiter := limiter
  stage := .discovering hosts
    ⟨⟨permits, []⟩, (List.replicate hosts.length ⟨0, .ready⟩).set i ⟨0, phase⟩⟩
  attempts := attempts

/-- A ping may open `n` connections at once: one to an address, any number to a name. -/
theorem opens_replicate {host : String} {n : Nat} (hn : literal host = true → n = 1) :
    Opens host (0, true) (List.replicate n 0) := by
  unfold Opens
  split
  · rw [hn ‹_›]
    rfl
  · intro t ht
    rw [List.eq_of_mem_replicate ht]
    exact ⟨le_rfl, le_rfl⟩

theorem pinged_replicate {pingPorts : List Nat} {hosts : List String} {i n : Nat}
    (hn : literal (hosts.getD i "") = true → n = 1) :
    Sweep.pinged pingPorts hosts (List.replicate pingPorts.length (List.replicate n 0))
      (.launch i (Pings.duration (List.replicate pingPorts.length (0, true)))
        (List.replicate pingPorts.length (0, true))) = true := by
  refine decide_eq_true ⟨List.length_replicate, rfl, List.forall₂_iff_get.mpr ⟨by simp, ?_⟩⟩
  intro k hk hk'
  simpa using opens_replicate hn

/-- The first check of a sweep may open `n` connections for each ping port at once: one to an address,
any number to a name. -/
theorem exists_burst {hosts : List String} {pacer : Pacer} {now : ℚ} {i n : Nat}
    (hhosts : hosts.length ≤ service.hostConcurrency) (hnext : pacer.next = now)
    (hi : i < hosts.length) (hn : literal (hosts.getD i "") = true → n = 1) :
    ∃ acts s', service.system.exec {
        now := now
        limiter := some pacer
        stage := .discovering hosts (Pool.start service.hostConcurrency hosts.length 0) } acts =
          some s' ∧
      s'.attempts = service.pingPorts.flatMap fun port =>
        List.replicate n (now, hosts.getD i "", port) := by
  obtain ⟨pings, hpings⟩ : ∃ pings : Pings, pings = List.replicate service.pingPorts.length (0, true) :=
    ⟨_, rfl⟩
  obtain ⟨opened, hopened⟩ : ∃ opened : List (List ℚ),
      opened = List.replicate service.pingPorts.length (List.replicate n 0) := ⟨_, rfl⟩
  obtain ⟨permits, hpermits⟩ : ∃ permits, service.hostConcurrency = permits + 1 :=
    ⟨service.hostConcurrency - 1, by omega⟩
  have hdue : acquire (some pacer) now = (some (pacer.reserve now).2, now) := by
    rw [acquire, Pacer.reserve_fst, Pacer.slot, hnext, max_self, sub_self, add_zero]
  have hfree : (⟨permits + 1, []⟩ : Semaphore).acquire i = (⟨permits, []⟩, true) :=
    Semaphore.acquire_free rfl
  have hpinged : Sweep.pinged service.pingPorts hosts opened (.launch i pings.duration pings) = true := by
    rw [hpings, hopened]
    exact pinged_replicate hn
  have hduration : 0 ≤ pings.duration := pings.duration_nonneg
  have hat (phase : Phase Pings) : ((List.replicate hosts.length (⟨0, .ready⟩ : Job Pings)).set i
      ⟨0, phase⟩)[i]? = some ⟨0, phase⟩ :=
    List.getElem?_set_self (by rwa [List.length_replicate])
  have hreserve : service.system.step (oneCheck now hosts (some pacer) (permits + 1) i .ready [])
      (.check (.reserve i) []) =
      some (oneCheck now hosts (some (pacer.reserve now).2) (permits + 1) i (.paced now) []) := by
    simp [system, step, oneCheck, SweepService.discoverStep, Sweep.pinged, Pool.step, hdue,
      Pool.Act.launched, hi]
  have henter : service.system.step
      (oneCheck now hosts (some (pacer.reserve now).2) (permits + 1) i (.paced now) [])
      (.check (.enter i) []) =
      some (oneCheck now hosts (some (pacer.reserve now).2) permits i .granted []) := by
    simp [system, step, oneCheck, SweepService.discoverStep, Sweep.pinged, Pool.step, hfree,
      Pool.Act.launched, hat]
  have hlaunch : service.system.step
      (oneCheck now hosts (some (pacer.reserve now).2) permits i .granted [])
      (.check (.launch i pings.duration pings) opened) =
      some (oneCheck now hosts (some (pacer.reserve now).2) permits i
        (.running (now + pings.duration) pings)
        (Sweep.connections service.pingPorts opened now (hosts.getD i ""))) := by
    simp [system, step, oneCheck, SweepService.discoverStep, hpinged, Pool.step, hduration,
      Pool.Act.launched, hat]
  have hstart : oneCheck now hosts (some pacer) (permits + 1) i .ready [] = {
      now := now
      limiter := some pacer
      stage := .discovering hosts (Pool.start (permits + 1) hosts.length 0) } := by
    rw [oneCheck, List.set_replicate_self]
    rfl
  have hlog : Sweep.connections service.pingPorts opened now (hosts.getD i "") =
      service.pingPorts.flatMap fun port => List.replicate n (now, hosts.getD i "", port) := by
    simp only [hopened, connections_replicate, List.map_replicate, add_zero]
  rw [hpermits, ← hstart]
  exact ⟨_, _, System.exec_step hreserve (System.exec_step henter
    (System.exec_step hlaunch (System.exec_nil _))), hlog⟩

/-- A name with one address is no better: looked up behind the limiter's pass, it is connected to when
the next candidate is. -/
example :
    ((SweepService.run { ports := [502], pingPorts := [502] } ["plc.plant", "10.10.30.21"] true (some 1)
        0).toOption.bind fun s =>
      ((system { ports := [502], pingPorts := [502] }).exec s [.check (.reserve 0) [],
        .check (.enter 0) [], .check (.launch 0 2 [(2, true)]) [[1]], .check (.reserve 1) [], .tick 1,
        .check (.enter 1) [], .check (.launch 1 (1 / 4) [(1 / 4, true)]) [[0]]]).map
          Sweep.attempts) = some [(1, "plc.plant", 502), (1, "10.10.30.21", 502)] := by
  decide +kernel

end Runs

end SweepService

end Pyscan
