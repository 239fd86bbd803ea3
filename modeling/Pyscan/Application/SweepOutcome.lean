import Pyscan.Application.ScanOutcome
import Pyscan.Application.SweepService

/-!
# The outcome of a sweep

What `SweepService.run` reports, once every host is scanned. The network a sweep
meets is a function: how the pings of a host go, and what a port answers to
each attempt. **The report does not depend on the schedule**
(`sweep_unscheduled`): it has one entry for each candidate that is up, no host
is lost or scanned twice, and from every state some schedule ends the sweep.

Each pool of jobs is on its way to its answers (`Pool.OnTrack`); the hosts
behind the host semaphore are the jobs of one more pool.
-/

namespace Pyscan

open Py Lts

variable {β : Type*}

/-! ## A pool on its way -/

/-- How often a job has been launched, of `retries + 1` times. -/
def Job.calls (retries : Nat) (job : Job β) : Nat :=
  retries - job.retries + match job.phase with
    | .running _ _ | .done _ => 1
    | _ => 0

theorem Job.Moves.calls {again : β → Bool} {now : ℚ} {job job' : Job β} {launched : Option β}
    {retries : Nat} (h : Job.Moves again now job launched job') (hle : job.retries ≤ retries) :
    job'.retries ≤ retries ∧ job'.calls retries = job.calls retries + launched.toList.length := by
  cases h with
  | finish =>
    unfold Job.answered
    split
    · refine ⟨by dsimp only at hle ⊢; omega, ?_⟩
      simp only [Job.calls, Option.toList_none, List.length_nil] at hle ⊢
      omega
    · exact ⟨hle, rfl⟩
  | _ => exact ⟨hle, rfl⟩

namespace Pool

/-- Job `i` is answered `answer i k` the `k`-th time it is launched. -/
def Answers (answer : Nat → Nat → β) (retries : Nat) (pool : Pool β) (a : Act β) : Prop :=
  ∀ (i : Nat) (duration : ℚ) (x : β) (job : Job β), a = .launch i duration x →
    pool.jobs[i]? = some job → x = answer i (job.calls retries + 1)

/-- Every job is on its way to the end of its own loop, and no timer has been missed. -/
structure OnTrack (again : β → Bool) (answer : Nat → Nat → β) (concurrency retries n : Nat)
    (now : ℚ) (pool : Pool β) : Prop where
  sound : Sound concurrency pool
  length : pool.jobs.length = n
  timely : Timely now pool
  tracks : ∀ (i : Nat) (job : Job β), pool.jobs[i]? = some job →
    job.retries ≤ retries ∧ job.Tracks again (answer i) retries (job.calls retries)

variable {again : β → Bool} {answer : Nat → Nat → β} {concurrency retries n i : Nat} {now t : ℚ}
  {limiter limiter' : Option Pacer} {pool pool' : Pool β} {job : Job β}

theorem onTrack_begin : OnTrack again answer concurrency retries n now (start concurrency n retries) where
  sound := sound_start _ _ _
  length := List.length_replicate
  timely job hjob := by
    rw [List.eq_of_mem_replicate hjob]
    exact fun _ => nofun
  tracks i job hjob := by
    rw [List.eq_of_mem_replicate (List.mem_of_getElem? hjob)]
    refine ⟨le_refl _, ?_⟩
    rw [Job.calls, Nat.sub_self]
    exact Job.tracks_start _ _ _

theorem OnTrack.step {a : Act β} (h : OnTrack again answer concurrency retries n now pool)
    (ha : pool.Answers answer retries a)
    (hs : pool.step again now limiter a = some (limiter', pool')) :
    OnTrack again answer concurrency retries n now pool' where
  sound := h.sound.step hs
  length := (step_length hs).trans h.length
  timely := h.timely.step h.sound hs
  tracks i job' hjob' := by
    obtain ⟨job, hjob, hmoves⟩ := h.sound.moves hs hjob'
    obtain ⟨hle, htracks⟩ := h.tracks i job hjob
    obtain ⟨hle', hcalls⟩ := hmoves.calls hle
    refine ⟨hle', ?_⟩
    rw [hcalls]
    refine htracks.move hmoves fun x hx => ?_
    cases a with
    | launch j duration y =>
      simp only [Act.launches] at hx
      split at hx
      · rename_i hj
        obtain rfl := Option.some.inj hx
        exact ha i duration y job (hj ▸ rfl) hjob
      · cases hx
    | _ => cases hx

theorem OnTrack.tick (h : OnTrack again answer concurrency retries n now pool)
    (hidle : pool.idleUntil t = true) : OnTrack again answer concurrency retries n t pool :=
  ⟨h.sound, h.length, Timely.tick hidle, h.tracks⟩

/-- Once every job is done, each has the answer its loop stops at. -/
theorem OnTrack.answers (h : OnTrack again answer concurrency retries n now pool) {xs : List β}
    (hdone : pool.answers = some xs) :
    xs = (List.range n).map fun i => answer i (lastAttempt again (answer i) 1 retries) := by
  have hphases := answers_eq_some.mp hdone
  have hlength : xs.length = n := by
    have hsame := congrArg List.length hphases
    rw [List.length_map, List.length_map, h.length] at hsame
    exact hsame.symm
  refine List.ext_getElem (by rw [hlength, List.length_map, List.length_range]) fun i hi _ => ?_
  rw [List.getElem_map, List.getElem_range]
  obtain ⟨⟨left, phase⟩, hjob⟩ : ∃ job, pool.jobs[i]? = some job :=
    ⟨_, List.getElem?_eq_getElem (by rw [h.length, ← hlength]; exact hi)⟩
  have hphase := congrArg (fun l => l[i]?) hphases
  simp only [List.getElem?_map, hjob, List.getElem?_eq_getElem hi, Option.map_some] at hphase
  obtain rfl : phase = .done xs[i] := Option.some.inj hphase
  obtain ⟨hlast, hanswer⟩ := (h.tracks i _ hjob).2.finished
  rw [hanswer, hlast]

/-- Some job can go on now. -/
def Ready (now : ℚ) (pool : Pool β) : Prop :=
  ∃ job ∈ pool.jobs, job.phase.runnable = true ∨ job.phase.timer = some now

/-- A pool that can go on does, answering as it is told to. -/
theorem OnTrack.exists_step (h : OnTrack again answer concurrency retries n now pool)
    (hready : pool.Ready now) (limiter : Option Pacer) {duration : Nat → ℚ}
    (hduration : ∀ i, 0 ≤ duration i) :
    ∃ a r, pool.step again now limiter a = some r ∧ pool.Answers answer retries a ∧
      (∀ i d x, a = .launch i d x → ∃ k, d = duration i ∧ x = answer i k) ∧
      r.2.work < pool.work := by
  obtain ⟨job, hmem, hgo⟩ := hready
  obtain ⟨i, hi⟩ := List.getElem?_of_mem hmem
  obtain ⟨a, r, hs, hlaunch, hwork⟩ := h.sound.exists_step_lasting again limiter
    (fun i => answer i ((pool.jobs[i]?.map (Job.calls retries)).getD 0 + 1)) hduration hi hgo
  refine ⟨a, r, hs, ?_, fun i d x ha => ⟨_, hlaunch i d x ha⟩, hwork⟩
  intro i d x job ha hjob
  obtain ⟨-, rfl⟩ := hlaunch i d x ha
  rw [hjob]
  rfl

/-- Or it has its answers, or it waits for a timer. -/
theorem OnTrack.exists_timer (h : OnTrack again answer concurrency retries n now pool)
    (hc : n ≠ 0 → 1 ≤ concurrency) (hopen : pool.answers = none) (hstuck : ¬ pool.Ready now) :
    ∃ t, now < t ∧ pool.idleUntil t = true ∧ pool.Ready t := by
  have hn : n ≠ 0 := by
    rintro rfl
    rw [Pool.answers, List.length_eq_zero_iff.mp h.length] at hopen
    cases hopen
  have hrest : ∀ job ∈ pool.jobs, job.phase.runnable = false ∧ job.phase.timer ≠ some now :=
    fun job hjob => ⟨Bool.eq_false_iff.mpr fun hrun => hstuck ⟨job, hjob, .inl hrun⟩,
      fun htimer => hstuck ⟨job, hjob, .inr htimer⟩⟩
  obtain ⟨t, hlt, hidle, job, hjob, htimer⟩ := h.sound.exists_tick (hc hn) hopen h.timely hrest
  exact ⟨t, hlt, hidle, job, hjob, .inr htimer⟩

/-- What is idle until a time is idle before. -/
theorem idleUntil_of_le {u : ℚ} (h : pool.idleUntil t = true) (hu : u ≤ t) :
    pool.idleUntil u = true := by
  refine List.all_eq_true.mpr fun job hjob => ?_
  have hjob := List.all_eq_true.mp h job hjob
  rw [Phase.waitsUntil, Bool.and_eq_true] at hjob ⊢
  refine ⟨hjob.1, ?_⟩
  cases htimer : job.phase.timer with
  | none => rfl
  | some due =>
    rw [htimer] at hjob
    exact decide_eq_true (hu.trans (of_decide_eq_true hjob.2))

end Pool

/-! ## The hosts of a sweep -/

/-- A host at the host semaphore, as a job. -/
def HostScan.job (h : HostScan) : Job Unit :=
  ⟨0, match h.phase with
    | .arriving => .ready
    | .queued => .queued
    | .granted => .granted
    | .resolving ends => .running ends ()
    | .scanning _ _ => .running 0 ()
    | .reported _ => .done ()⟩

theorem map_job_grant (hosts : List HostScan) (waiter : Option Nat) :
    (Sweep.grant hosts waiter).map HostScan.job = Pool.grant (hosts.map HostScan.job) waiter := by
  cases waiter with
  | none => rfl
  | some j =>
    unfold Sweep.grant Pool.grant
    dsimp only
    rw [List.getElem?_map]
    cases hosts[j]? with
    | none => rfl
    | some h => exact List.map_set

/-- What a sweep meets: how the pings of a host go, and what its ports answer to each attempt. -/
structure Network where
  pings : String → Pings
  /-- what `_resolve` finds -/
  ip : String → Option String
  answer : String → Nat → Nat → PortResult

namespace Network

/-- The answers to the jobs of one host. -/
def answers (network : Network) (ports : List Nat) (host : String) (i k : Nat) : PortResult :=
  network.answer host (ports.getD i 0) k

/-- The hosts that are scanned. -/
def upHosts (network : Network) (discover : Bool) (candidates : List String) : List String :=
  if discover then candidates.filter fun host => (network.pings host).isUp else candidates

/-- What `bounded` returns for each port of a host. -/
def lastAnswers (network : Network) (ports : List Nat) (retries : Nat) (host : String) :
    List PortResult :=
  ports.map (lastAnswer (network.answer host) retries)

end Network

namespace SweepService

variable (service : SweepService) (network : Network)

/-- A launch answers what the network has for the host, or for its port at this attempt. -/
def Follows (s : Sweep) (act : Sweep.Act) : Prop :=
  match s.stage, act with
  | .discovering hosts pool, .check a _ =>
    pool.Answers (fun i _ => network.pings (hosts.getD i "")) 0 a
  | .scanning _ hosts, .probe j a => ∀ host began pool, hosts[j]? = some ⟨host, .scanning began pool⟩ →
    pool.Answers (network.answers service.ports host) service.retries.toNat a
  | _, _ => True

end SweepService

/-- The scan of a host began before it ended, and that was no later than `now`. -/
def Scanned.Timed (now : ℚ) (scanned : Scanned) : Prop :=
  scanned.began ≤ scanned.ended ∧ scanned.ended ≤ now

/-- A host is on its way to its last answers. -/
def HostScan.OnTrack (service : SweepService) (network : Network) (now : ℚ) (h : HostScan) : Prop :=
  match h.phase with
  | .resolving ends => now ≤ ends
  | .scanning began pool => began ≤ now ∧
      pool.OnTrack inconclusive (network.answers service.ports h.host) service.ports.length
        service.retries.toNat service.ports.length now
  | .reported scanned => scanned.Timed now ∧
      scanned.results = network.lastAnswers service.ports service.retries.toNat h.host
  | _ => True

/-- The hosts are those that are up, each once, on their way behind the host semaphore. -/
structure HostsOnTrack (service : SweepService) (network : Network) (up : List String) (now : ℚ)
    (sem : Semaphore) (hosts : List HostScan) : Prop where
  names : hosts.map HostScan.host = up
  sound : Pool.Sound service.hostConcurrency ⟨sem, hosts.map HostScan.job⟩
  tracks : ∀ h ∈ hosts, h.OnTrack service network now

def Stage.OnTrack (service : SweepService) (network : Network) (candidates : List String)
    (discover : Bool) (now : ℚ) : Stage → Prop
  | .discovering hosts pool => discover = true ∧ hosts = candidates ∧
      pool.OnTrack (fun _ => false) (fun i _ => network.pings (hosts.getD i ""))
        service.hostConcurrency 0 hosts.length now
  | .scanning sem hosts => HostsOnTrack service network (network.upHosts discover candidates) now sem hosts

section Hosts

variable {service : SweepService} {network : Network} {up : List String} {now : ℚ} {sem : Semaphore}
  {hosts : List HostScan} {j : Nat} {h x : HostScan}

theorem hostsOnTrack_arrive (service : SweepService) (network : Network) (up : List String) (now : ℚ) :
    HostsOnTrack service network up now ⟨service.hostConcurrency, []⟩
      (up.map fun host => ⟨host, .arriving⟩) where
  names := by
    rw [List.map_map]
    exact List.map_id _
  sound := by
    have hjobs : (up.map fun host => (⟨host, .arriving⟩ : HostScan)).map HostScan.job =
        List.replicate up.length ⟨0, .ready⟩ := by
      rw [List.map_map]
      show (up.map fun _ => (⟨0, .ready⟩ : Job Unit)) = _
      exact List.map_const'
    rw [hjobs]
    exact Pool.sound_start _ _ _
  tracks h hh := by
    obtain ⟨host, -, rfl⟩ := List.mem_map.mp hh
    trivial

theorem map_host_set (hj : hosts[j]? = some h) (hx : x.host = h.host) :
    (hosts.set j x).map HostScan.host = hosts.map HostScan.host := by
  rw [List.map_set, hx]
  refine List.ext_getElem? fun k => ?_
  by_cases hk : j = k
  · subst hk
    obtain ⟨hlt, -⟩ := List.getElem?_eq_some_iff.mp hj
    rw [List.getElem?_set_self (by rwa [List.length_map]), List.getElem?_map, hj, Option.map_some]
  · rw [List.getElem?_set_ne hk]

/-- A host of the same name, in a phase the semaphore allows. -/
theorem HostsOnTrack.set {sem' : Semaphore} (ht : HostsOnTrack service network up now sem hosts)
    (hj : hosts[j]? = some h) (hx : x.host = h.host) (hphase : x.OnTrack service network now)
    (hsound : Pool.Sound service.hostConcurrency ⟨sem', (hosts.map HostScan.job).set j x.job⟩) :
    HostsOnTrack service network up now sem' (hosts.set j x) where
  names := (map_host_set hj hx).trans ht.names
  sound := by rwa [List.map_set]
  tracks := forall_set ht.tracks hphase

/-- A host that keeps its permit, or its place. -/
theorem HostsOnTrack.exchange (ht : HostsOnTrack service network up now sem hosts)
    (hj : hosts[j]? = some h) (hx : x.host = h.host) (hphase : x.OnTrack service network now)
    (hhold : x.job.phase.holds = h.job.phase.holds) (hq : h.job.phase.isQueued = false)
    (hxq : x.job.phase.isQueued = false) :
    HostsOnTrack service network up now sem (hosts.set j x) := by
  have hjob : (hosts.map HostScan.job)[j]? = some h.job := by rw [List.getElem?_map, hj, Option.map_some]
  exact ht.set hj hx hphase (ht.sound.exchange hjob hhold hq hxq)

theorem HostsOnTrack.enter {host : String} (ht : HostsOnTrack service network up now sem hosts)
    (hj : hosts[j]? = some ⟨host, .arriving⟩) :
    HostsOnTrack service network up now (sem.acquire j).1
      (hosts.set j ⟨host, if (sem.acquire j).2 then .granted else .queued⟩) := by
  have hjob : (hosts.map HostScan.job)[j]? = some ⟨0, .ready⟩ := by
    rw [List.getElem?_map, hj]
    rfl
  have hentered := ht.sound.enter hjob rfl rfl 0
  refine ht.set hj rfl ?_ ?_
  · cases (sem.acquire j).2 <;> trivial
  · dsimp only at hentered
    cases hgot : (sem.acquire j).2 <;> rw [hgot] at hentered <;> exact hentered

theorem HostsOnTrack.leave {host : String} {began : ℚ} {pool : Pool PortResult} {scanned : Scanned}
    (ht : HostsOnTrack service network up now sem hosts)
    (hj : hosts[j]? = some ⟨host, .scanning began pool⟩) (htimed : scanned.Timed now)
    (hresults : scanned.results = network.lastAnswers service.ports service.retries.toNat host) :
    HostsOnTrack service network up now sem.release.1
      (Sweep.grant (hosts.set j ⟨host, .reported scanned⟩) sem.release.2) := by
  have hjob : (hosts.map HostScan.job)[j]? = some ⟨0, .running 0 ()⟩ := by
    rw [List.getElem?_map, hj]
    rfl
  have hleft := ht.sound.leave (x := ⟨0, .done ()⟩) hjob rfl rfl rfl rfl
  have htracks : ∀ h ∈ hosts.set j ⟨host, .reported scanned⟩, h.OnTrack service network now :=
    forall_set ht.tracks ⟨htimed, hresults⟩
  have hhosts := (map_host_set (x := ⟨host, .reported scanned⟩) hj rfl).trans ht.names
  generalize hset : hosts.set j ⟨host, .reported scanned⟩ = hosts' at htracks hhosts
  have hjobs : (hosts.map HostScan.job).set j ⟨0, .done ()⟩ = hosts'.map HostScan.job := by
    rw [← hset, List.map_set]
    rfl
  rw [hjobs, ← map_job_grant] at hleft
  refine ⟨?_, hleft, ?_⟩
  · unfold Sweep.grant
    split
    · exact hhosts
    · split
      · exact hhosts
      · rename_i hwaiter
        exact (map_host_set (x := ⟨_, .granted⟩) hwaiter rfl).trans hhosts
  · unfold Sweep.grant
    split
    · exact htracks
    · split
      · exact htracks
      · exact forall_set htracks trivial

end Hosts

/-! ## Each step keeps a sweep on its way -/

/-- What `gather` has in `_scan_all`, once every host is reported. -/
def Stage.results : Stage → Option (List (String × Scanned))
  | .discovering _ _ => none
  | .scanning _ hosts => hosts.mapM fun h => match h.phase with
      | .reported scanned => some (h.host, scanned)
      | _ => none

def Sweep.OnTrack (service : SweepService) (network : Network) (candidates : List String)
    (discover : Bool) (s : Sweep) : Prop :=
  s.stage.OnTrack service network candidates discover s.now

section Steps

variable {service : SweepService} {network : Network} {candidates up : List String} {discover : Bool}
  {s s' : Sweep} {act : Sweep.Act} {sem : Semaphore} {hosts : List HostScan}

theorem map_range_getD {γ : Type*} (ports : List Nat) (f : Nat → γ) :
    ((List.range ports.length).map fun i => f (ports.getD i 0)) = ports.map f := by
  refine List.ext_getElem (by rw [List.length_map, List.length_map, List.length_range]) fun i _ hi => ?_
  rw [List.getElem_map, List.getElem_map, List.getElem_range]
  rw [List.length_map] at hi
  rw [List.getD_eq_getElem _ _ hi]

theorem lastAnswers_eq {now : ℚ} {host : String} {pool : Pool PortResult} {n : Nat}
    {results : List PortResult}
    (h : pool.OnTrack inconclusive (network.answers service.ports host) n service.retries.toNat
      service.ports.length now) (hdone : pool.answers = some results) :
    results = network.lastAnswers service.ports service.retries.toNat host := by
  rw [h.answers hdone]
  exact map_range_getD service.ports (lastAnswer (network.answer host) service.retries.toNat)

/-- A step of `scan_one` keeps the hosts on their way. -/
theorem HostsOnTrack.step (ht : HostsOnTrack service network up s.now sem hosts)
    (hstage : s.stage = .scanning sem hosts) (hfollows : service.Follows network s act)
    (hs : service.scanStep s sem hosts act = some s') :
    ∃ sem' hosts', s'.stage = .scanning sem' hosts' ∧ s'.now = s.now ∧
      HostsOnTrack service network up s.now sem' hosts' := by
  cases act with
  | enter j =>
    simp only [SweepService.scanStep] at hs
    split at hs
    · obtain rfl := Option.some.inj hs
      exact ⟨_, _, rfl, rfl, ht.enter ‹_›⟩
    · cases hs
  | resolve j duration =>
    simp only [SweepService.scanStep] at hs
    split at hs
    · rename_i host hj
      split at hs
      · rename_i hduration
        obtain rfl := Option.some.inj hs
        refine ⟨_, _, rfl, rfl, ht.exchange hj rfl ?_ rfl rfl rfl⟩
        exact le_add_of_nonneg_right hduration
      · cases hs
    · cases hs
  | resolved j =>
    simp only [SweepService.scanStep] at hs
    split at hs
    · rename_i host ends hj
      split at hs
      · obtain rfl := Option.some.inj hs
        exact ⟨_, _, rfl, rfl, ht.exchange hj rfl ⟨le_rfl, Pool.onTrack_begin⟩ rfl rfl rfl⟩
      · cases hs
    · cases hs
  | probe j a =>
    simp only [SweepService.scanStep] at hs
    split at hs
    · rename_i host began pool hj
      obtain ⟨⟨limiter, pool'⟩, hr, rfl⟩ := Option.map_eq_some_iff.mp hs
      obtain ⟨hbegan, hpool⟩ := ht.tracks _ (List.mem_of_getElem? hj)
      unfold SweepService.Follows at hfollows
      rw [hstage] at hfollows
      refine ⟨_, _, rfl, rfl, ht.exchange hj rfl ⟨hbegan, ?_⟩ rfl rfl rfl⟩
      exact Pool.OnTrack.step hpool (hfollows host began pool hj) hr
    · cases hs
  | report j =>
    simp only [SweepService.scanStep] at hs
    split at hs
    · rename_i host began pool hj
      obtain ⟨results, hdone, rfl⟩ := Option.map_eq_some_iff.mp hs
      obtain ⟨hbegan, hpool⟩ := ht.tracks _ (List.mem_of_getElem? hj)
      exact ⟨_, _, rfl, rfl, ht.leave hj ⟨hbegan, le_rfl⟩ (lastAnswers_eq hpool hdone)⟩
    · cases hs
  | _ => cases hs

theorem HostsOnTrack.tick {now t : ℚ} (ht : HostsOnTrack service network up now sem hosts)
    (hlt : now < t) (hidle : hosts.all (fun h => h.phase.waitsUntil t) = true) :
    HostsOnTrack service network up t sem hosts where
  names := ht.names
  sound := ht.sound
  tracks h hh := by
    have hidle := List.all_eq_true.mp hidle h hh
    have htracks := ht.tracks h hh
    unfold HostScan.OnTrack at htracks ⊢
    cases hphase : h.phase with
    | resolving ends =>
      rw [hphase] at hidle
      exact of_decide_eq_true hidle
    | scanning began pool =>
      rw [hphase] at hidle htracks
      rw [HostPhase.waitsUntil, Bool.and_eq_true] at hidle
      exact ⟨htracks.1.trans hlt.le, htracks.2.tick hidle.1⟩
    | reported scanned =>
      rw [hphase] at htracks
      obtain ⟨⟨hspan, hended⟩, hresults⟩ := htracks
      exact ⟨⟨hspan, hended.trans hlt.le⟩, hresults⟩
    | _ => trivial

/-- The checked hosts that are up are those the network has up. -/
theorem upHosts_checked {hosts : List String} {checked : List Pings}
    (h : checked = (List.range hosts.length).map fun i => network.pings (hosts.getD i "")) :
    Sweep.upHosts hosts checked = network.upHosts true hosts := by
  have hmap : checked = hosts.map network.pings := by
    rw [h]
    refine List.ext_getElem (by rw [List.length_map, List.length_map, List.length_range]) fun i _ hi => ?_
    rw [List.length_map] at hi
    rw [List.getElem_map, List.getElem_map, List.getElem_range, List.getD_eq_getElem _ _ hi]
  rw [Sweep.upHosts, hmap, ← List.map_prod_left_eq_zip, List.filter_map, List.map_map]
  exact List.map_id _

theorem Sweep.OnTrack.step (ht : s.OnTrack service network candidates discover)
    (hfollows : service.Follows network s act) (hs : service.system.step s act = some s') :
    s'.OnTrack service network candidates discover := by
  change service.step s act = some s' at hs
  rw [Sweep.OnTrack] at ht
  unfold SweepService.step at hs
  split at hs
  · split at hs
    · rename_i hidle
      obtain rfl := Option.some.inj hs
      obtain ⟨hlt, hidle⟩ := hidle
      rw [Sweep.OnTrack]
      dsimp only
      cases hstage : s.stage with
      | discovering hosts pool =>
        rw [hstage] at ht hidle
        rw [Stage.idleUntil, Bool.and_eq_true] at hidle
        exact ⟨ht.1, ht.2.1, ht.2.2.tick hidle.1⟩
      | scanning sem hosts =>
        rw [hstage] at ht hidle
        exact HostsOnTrack.tick ht hlt hidle
    · cases hs
  · rename_i a hosts pool hstage
    rw [hstage] at ht
    unfold SweepService.Follows at hfollows
    rw [hstage] at hfollows
    unfold SweepService.discoverStep at hs
    split at hs
    · obtain ⟨⟨limiter, pool'⟩, hr, rfl⟩ := Option.map_eq_some_iff.mp hs
      exact ⟨ht.1, ht.2.1, ht.2.2.step hfollows hr⟩
    · cases hs
  · rename_i hosts pool hstage
    rw [hstage] at ht
    obtain ⟨checked, hdone, rfl⟩ := Option.map_eq_some_iff.mp hs
    obtain ⟨rfl, rfl, hpool⟩ := ht
    rw [upHosts_checked (hpool.answers hdone)]
    exact hostsOnTrack_arrive service network _ s.now
  · cases hs
  · rename_i sem hosts hact hstage
    rw [hstage] at ht
    obtain ⟨sem', hosts', hstage', hnow, ht'⟩ := HostsOnTrack.step ht hstage hfollows hs
    rw [Sweep.OnTrack, hstage', hnow]
    exact ht'

end Steps

/-! ## A sweep gets done -/

/-- A host can go on at `now`. -/
def HostScan.Ready (now : ℚ) (h : HostScan) : Prop :=
  match h.phase with
  | .arriving | .granted => True
  | .queued | .reported _ => False
  | .resolving ends => ends = now
  | .scanning _ pool => pool.answers.isSome ∨ pool.Ready now

/-- A host that does not go on by itself. -/
def HostScan.Passive (h : HostScan) : Prop := h.phase = .queued ∨ ∃ scanned, h.phase = .reported scanned

namespace SweepService

variable (service : SweepService)

/-- The steps a pool of probes takes, at most. -/
def probeWork : Nat :=
  (Pool.start service.ports.length service.ports.length service.retries.toNat : Pool PortResult).work

def hostWork (h : HostScan) : Nat :=
  match h.phase with
  | .arriving => service.probeWork + 5
  | .queued => service.probeWork + 4
  | .granted => service.probeWork + 3
  | .resolving _ => service.probeWork + 2
  | .scanning _ pool => pool.work + 1
  | .reported _ => 0

/-- The steps that are left to do, at most. -/
def work : Stage → Nat
  | .discovering hosts pool => pool.work + hosts.length * (service.probeWork + 5) + 1
  | .scanning _ hosts => (hosts.map service.hostWork).sum

end SweepService

section Progress

variable {service : SweepService} {network : Network} {candidates up : List String} {discover : Bool}
  {s s' : Sweep} {act : Sweep.Act} {sem : Semaphore} {hosts : List HostScan} {now : ℚ}

theorem step_scanning (hstage : s.stage = .scanning sem hosts) (hact : ∀ t, act ≠ .tick t) :
    service.step s act = service.scanStep s sem hosts act := by
  unfold SweepService.step
  rw [hstage]
  cases act with
  | tick t => exact absurd rfl (hact t)
  | _ => rfl

/-- Only a probe has an answer to follow. -/
theorem follows_quiet (hstage : s.stage = .scanning sem hosts) (hact : ∀ j a, act ≠ .probe j a) :
    service.Follows network s act := by
  unfold SweepService.Follows
  rw [hstage]
  cases act with
  | probe j a => exact absurd rfl (hact j a)
  | _ => trivial

/-- A host that is granted its permit has less to do. -/
theorem work_sweepGrant {waiter : Option Nat}
    (h : ∀ j, waiter = some j → Pool.queuedAt (hosts.map HostScan.job) j = true) :
    ((Sweep.grant hosts waiter).map service.hostWork).sum ≤ (hosts.map service.hostWork).sum := by
  unfold Sweep.grant
  split
  · exact le_refl _
  · rename_i j
    split
    · exact le_refl _
    · rename_i h' hj
      obtain ⟨retries, hqueued⟩ := Pool.exists_queued (h j rfl)
      rw [List.getElem?_map, hj, Option.map_some, Option.some.injEq] at hqueued
      have hphase : h'.phase = .queued := by
        have hjob := congrArg Job.phase hqueued
        unfold HostScan.job at hjob
        cases hp : h'.phase <;> rw [hp] at hjob <;> first | rfl | cases hjob
      have hset := sum_map_set service.hostWork hj (⟨h'.host, .granted⟩ : HostScan)
      have hbefore : service.hostWork h' = service.probeWork + 4 := by
        rw [SweepService.hostWork, hphase]
      have hafter : service.hostWork ⟨h'.host, .granted⟩ = service.probeWork + 3 := rfl
      omega

theorem work_hosts_set {j : Nat} {h x : HostScan} (hj : hosts[j]? = some h)
    (hlt : service.hostWork x < service.hostWork h) :
    ((hosts.set j x).map service.hostWork).sum < (hosts.map service.hostWork).sum := by
  have hset := sum_map_set service.hostWork hj x
  omega

/-- Whatever step of `scan_one` is taken, it leaves less to do. -/
theorem HostsOnTrack.work_step (ht : HostsOnTrack service network up s.now sem hosts)
    (hs : service.scanStep s sem hosts act = some s') :
    service.work s'.stage < (hosts.map service.hostWork).sum := by
  cases act with
  | enter j =>
    simp only [SweepService.scanStep] at hs
    split at hs
    · obtain rfl := Option.some.inj hs
      refine work_hosts_set ‹_› ?_
      cases (sem.acquire j).2 <;> simp [SweepService.hostWork]
    · cases hs
  | resolve j duration =>
    simp only [SweepService.scanStep] at hs
    split at hs
    · split at hs
      · obtain rfl := Option.some.inj hs
        exact work_hosts_set ‹_› (by simp [SweepService.hostWork])
      · cases hs
    · cases hs
  | resolved j =>
    simp only [SweepService.scanStep] at hs
    split at hs
    · split at hs
      · obtain rfl := Option.some.inj hs
        exact work_hosts_set ‹_› (by simp [SweepService.hostWork, SweepService.probeWork])
      · cases hs
    · cases hs
  | probe j a =>
    simp only [SweepService.scanStep] at hs
    split at hs
    · rename_i host began pool hj
      obtain ⟨⟨limiter, pool'⟩, hr, rfl⟩ := Option.map_eq_some_iff.mp hs
      obtain ⟨-, hpool⟩ := ht.tracks _ (List.mem_of_getElem? hj)
      have hwork := hpool.sound.work_step hr
      exact work_hosts_set hj (by simpa [SweepService.hostWork] using hwork)
    · cases hs
  | report j =>
    simp only [SweepService.scanStep] at hs
    split at hs
    · rename_i host began pool hj
      obtain ⟨results, -, rfl⟩ := Option.map_eq_some_iff.mp hs
      have hjob : (hosts.map HostScan.job)[j]? = some ⟨0, .running 0 ()⟩ := by
        rw [List.getElem?_map, hj]
        rfl
      refine (work_sweepGrant fun k hk => ?_).trans_lt
        (work_hosts_set hj (by simp [SweepService.hostWork]))
      rw [List.map_set]
      exact ht.sound.released hjob rfl hk
    · cases hs
  | _ => cases hs

/-- **A host that can go on does.** -/
theorem HostsOnTrack.advance (ht : HostsOnTrack service network up s.now sem hosts)
    (hstage : s.stage = .scanning sem hosts) {h : HostScan} (hh : h ∈ hosts) (hready : h.Ready s.now) :
    ∃ act s', service.Follows network s act ∧ service.system.step s act = some s' ∧
      ∀ t, act ≠ .tick t := by
  obtain ⟨j, hj⟩ := List.getElem?_of_mem hh
  have htracks := ht.tracks h hh
  obtain ⟨host, phase⟩ := h
  -- a step that is no probe has nothing to follow
  have hquiet : ∀ act : Sweep.Act, (∀ t, act ≠ .tick t) → (∀ j a, act ≠ .probe j a) →
      (service.scanStep s sem hosts act).isSome →
      ∃ act s', service.Follows network s act ∧ service.system.step s act = some s' ∧
        ∀ t, act ≠ .tick t := by
    intro act htick hprobe hs
    obtain ⟨s', hs⟩ := Option.isSome_iff_exists.mp hs
    exact ⟨act, s', follows_quiet hstage hprobe, (step_scanning hstage htick).trans hs, htick⟩
  cases phase with
  | arriving =>
    refine hquiet (.enter j) (fun _ => nofun) (fun _ _ => nofun) ?_
    simp only [SweepService.scanStep, hj]
    rfl
  | queued => exact hready.elim
  | granted =>
    refine hquiet (.resolve j 0) (fun _ => nofun) (fun _ _ => nofun) ?_
    simp only [SweepService.scanStep, hj, if_pos (le_refl (0 : ℚ))]
    rfl
  | resolving ends =>
    have hends : ends = s.now := hready
    refine hquiet (.resolved j) (fun _ => nofun) (fun _ _ => nofun) ?_
    simp only [SweepService.scanStep, hj, if_pos hends]
    rfl
  | scanning began pool =>
    obtain ⟨-, hpool⟩ := htracks
    rcases hready with hdone | hready
    · obtain ⟨results, hdone⟩ := Option.isSome_iff_exists.mp hdone
      refine hquiet (.report j) (fun _ => nofun) (fun _ _ => nofun) ?_
      simp only [SweepService.scanStep, hj, hdone, Option.map_some]
      rfl
    · obtain ⟨a, ⟨limiter, pool'⟩, hstep, hanswers, -, -⟩ :=
        hpool.exists_step hready s.limiter fun _ => le_refl 0
      have hs : service.scanStep s sem hosts (.probe j a) = some { s with
          limiter := limiter
          stage := .scanning sem (hosts.set j ⟨host, .scanning began pool'⟩)
          attempts := s.attempts ++ a.launched.map fun i => (s.now, host, service.ports.getD i 0) } := by
        simp only [SweepService.scanStep, hj, hstep, Option.map_some]
      refine ⟨.probe j a, _, ?_, (step_scanning hstage (by rintro _ ⟨⟩)).trans hs, fun _ => nofun⟩
      unfold SweepService.Follows
      rw [hstage]
      intro host' began' pool' hj'
      obtain ⟨rfl, rfl, rfl⟩ : host = host' ∧ began = began' ∧ pool = pool' := by
        rw [hj, Option.some.injEq, HostScan.mk.injEq, HostPhase.scanning.injEq] at hj'
        exact hj'
      exact hanswers
  | reported scanned => exact hready.elim

/-- A host that cannot go on is passive, or waits for a timer. -/
theorem HostScan.OnTrack.exists_timer {h : HostScan} (ht : h.OnTrack service network now)
    (hready : ¬ h.Ready now) :
    h.Passive ∨ ∃ t, now < t ∧ (∀ u ≤ t, h.phase.waitsUntil u = true) ∧ h.Ready t := by
  obtain ⟨host, phase⟩ := h
  cases phase with
  | arriving => exact absurd trivial hready
  | queued => exact .inl (.inl rfl)
  | granted => exact absurd trivial hready
  | resolving ends =>
    have hle : now ≤ ends := ht
    exact .inr ⟨ends, lt_of_le_of_ne hle fun h => hready h.symm, fun u hu => decide_eq_true hu, rfl⟩
  | scanning began pool =>
    obtain ⟨-, hpool⟩ := ht
    obtain ⟨hopen, hstuck⟩ := not_or.mp hready
    have hopen : pool.answers = none := Option.not_isSome_iff_eq_none.mp hopen
    obtain ⟨t, hlt, hidle, hready'⟩ :=
      hpool.exists_timer (fun hn => Nat.one_le_iff_ne_zero.mpr hn) hopen hstuck
    refine .inr ⟨t, hlt, fun u hu => ?_, .inr hready'⟩
    rw [HostPhase.waitsUntil, Pool.idleUntil_of_le hidle hu, hopen]
    rfl
  | reported scanned => exact .inl (.inr ⟨scanned, rfl⟩)

theorem HostScan.Passive.waits {h : HostScan} (hp : h.Passive) (t : ℚ) : h.phase.waitsUntil t = true := by
  rcases hp with hp | ⟨scanned, hp⟩ <;> rw [hp] <;> rfl

/-- Time passes to the earliest of the timers. -/
theorem exists_earliest
    (h : ∀ h ∈ hosts, h.Passive ∨ ∃ t, now < t ∧ (∀ u ≤ t, h.phase.waitsUntil u = true) ∧ h.Ready t) :
    (∀ h ∈ hosts, h.Passive) ∨ ∃ t, now < t ∧
      (∀ h ∈ hosts, ∀ u ≤ t, h.phase.waitsUntil u = true) ∧ ∃ h ∈ hosts, h.Ready t := by
  induction hosts with
  | nil => exact .inl fun h hh => absurd hh List.not_mem_nil
  | cons x hosts ih =>
    obtain ⟨hx, hrest⟩ := List.forall_mem_cons.mp h
    rcases hx with hx | ⟨t, hlt, hwaits, hready⟩ <;> rcases ih hrest with hall | ⟨t', hlt', hwaits', y, hy, hready'⟩
    · exact .inl (List.forall_mem_cons.mpr ⟨hx, hall⟩)
    · exact .inr ⟨t', hlt', List.forall_mem_cons.mpr ⟨fun u _ => hx.waits u, hwaits'⟩, y,
        List.mem_cons_of_mem x hy, hready'⟩
    · exact .inr ⟨t, hlt, List.forall_mem_cons.mpr ⟨hwaits, fun y hy u _ => (hall y hy).waits u⟩, x,
        List.mem_cons_self, hready⟩
    · rcases le_total t t' with hle | hle
      · exact .inr ⟨t, hlt, List.forall_mem_cons.mpr
          ⟨hwaits, fun y hy u hu => hwaits' y hy u (hu.trans hle)⟩, x, List.mem_cons_self, hready⟩
      · exact .inr ⟨t', hlt', List.forall_mem_cons.mpr
          ⟨fun u hu => hwaits u (hu.trans hle), hwaits'⟩, y, List.mem_cons_of_mem x hy, hready'⟩

/-- When all hosts are passive, nobody waits for the host semaphore: all are reported. -/
theorem HostsOnTrack.all_reported (ht : HostsOnTrack service network up now sem hosts)
    (hc : 1 ≤ service.hostConcurrency) (hall : ∀ h ∈ hosts, h.Passive) :
    ∀ h ∈ hosts, ∃ scanned, h.phase = .reported scanned := by
  have hholders : Pool.holders (hosts.map HostScan.job) = 0 := by
    refine List.countP_eq_zero.mpr fun job hjob => ?_
    obtain ⟨h, hh, rfl⟩ := List.mem_map.mp hjob
    rcases hall h hh with hp | ⟨scanned, hp⟩ <;> simp [HostScan.job, hp, Phase.holds]
  have hfree : sem.waiters = [] := by
    by_contra hw
    have hpermits := ht.sound.permits
    have hfull := ht.sound.full hw
    dsimp only at hpermits hfull
    omega
  intro h hh
  refine (hall h hh).resolve_left fun hqueued => ?_
  obtain ⟨j, hj⟩ := List.getElem?_of_mem hh
  have hwait := (ht.sound.waits j).mpr (by
    rw [Pool.queuedAt, List.getElem?_map, hj, Option.map_some, Option.any_some, HostScan.job, hqueued]
    rfl)
  dsimp only at hwait
  rw [hfree] at hwait
  cases hwait

theorem results_isSome (h : ∀ h ∈ hosts, ∃ scanned, h.phase = .reported scanned) :
    (Stage.scanning sem hosts).results.isSome := by
  rw [Stage.results]
  induction hosts with
  | nil => rfl
  | cons x hosts ih =>
    obtain ⟨⟨scanned, hx⟩, hrest⟩ := List.forall_mem_cons.mp h
    obtain ⟨rest, hrest⟩ := Option.isSome_iff_exists.mp (ih hrest)
    rw [List.mapM_cons, hrest, hx]
    rfl

end Progress

/-- Some part of the sweep can go on now. -/
def Sweep.Ready (s : Sweep) : Prop :=
  match s.stage with
  | .discovering _ pool => pool.answers.isSome ∨ pool.Ready s.now
  | .scanning _ hosts => ∃ h ∈ hosts, h.Ready s.now

section Done

variable {service : SweepService} {network : Network} {candidates : List String} {discover : Bool}
  {s s' : Sweep} {hosts : List String} {pool : Pool Pings}

theorem length_upHosts_le (hosts : List String) (checked : List Pings) :
    (Sweep.upHosts hosts checked).length ≤ hosts.length := by
  rw [Sweep.upHosts, List.length_map]
  refine (List.length_filter_le _ _).trans ?_
  rw [List.length_zip]
  exact Nat.min_le_left _ _

theorem work_arrive (hostConcurrency : Nat) (up : List String) :
    service.work (Sweep.arrive hostConcurrency up) = up.length * (service.probeWork + 5) := by
  rw [Sweep.arrive, SweepService.work, List.map_map]
  show (up.map fun _ => service.probeWork + 5).sum = _
  rw [List.map_const', List.sum_replicate, smul_eq_mul]

/-- Discovery takes its next step, or is over. -/
theorem advance_discovering (hpings : ∀ host, (network.pings host).length = service.pingPorts.length)
    (ht : s.OnTrack service network candidates discover) (hstage : s.stage = .discovering hosts pool)
    (hready : pool.answers.isSome ∨ pool.Ready s.now) :
    ∃ act s', service.Follows network s act ∧ service.system.step s act = some s' ∧
      ∀ t, act ≠ .tick t := by
  rw [Sweep.OnTrack, hstage] at ht
  obtain ⟨-, -, hpool⟩ := ht
  unfold SweepService.Follows
  rw [hstage]
  rcases hready with hdone | hready
  · obtain ⟨checked, hdone⟩ := Option.isSome_iff_exists.mp hdone
    refine ⟨.discovered, { s with
        stage := Sweep.arrive service.hostConcurrency (Sweep.upHosts hosts checked) }, trivial, ?_,
      fun _ => nofun⟩
    show service.step s .discovered = _
    unfold SweepService.step
    rw [hstage]
    dsimp only
    rw [hdone, Option.map_some]
  · obtain ⟨a, ⟨limiter, pool'⟩, hstep, hanswers, hlaunch, -⟩ :=
      hpool.exists_step hready s.limiter fun i => (network.pings (hosts.getD i "")).duration_nonneg
    obtain ⟨opened, hpinged⟩ : ∃ opened, Sweep.pinged service.pingPorts hosts opened a = true := by
      cases a with
      | launch i d x =>
        obtain ⟨-, rfl, rfl⟩ := hlaunch i d x rfl
        obtain ⟨opened, hopens⟩ := exists_opens (hosts.getD i "") (network.pings (hosts.getD i ""))
        exact ⟨opened, decide_eq_true ⟨hpings _, rfl, hopens⟩⟩
      | _ => exact ⟨[], rfl⟩
    refine ⟨.check a opened, { s with
        limiter := limiter
        stage := .discovering hosts pool'
        attempts := s.attempts ++ a.launched.flatMap fun i =>
          Sweep.connections service.pingPorts opened s.now (hosts.getD i "") }, hanswers, ?_,
      fun _ => nofun⟩
    show service.step s (.check a opened) = _
    unfold SweepService.step
    rw [hstage]
    dsimp only
    rw [SweepService.discoverStep, if_pos hpinged, hstep, Option.map_some]

/-- A step that is not the passing of time. -/
def Sweep.Act.moves : Sweep.Act → Nat
  | .tick _ => 0
  | _ => 1

theorem moves_eq_one {act : Sweep.Act} (h : ∀ t, act ≠ .tick t) : act.moves = 1 := by
  cases act with
  | tick t => exact absurd rfl (h t)
  | _ => rfl

/-- Whatever step is taken, it leaves less to do, or time passes. -/
theorem Sweep.OnTrack.work_step {act : Sweep.Act} (ht : s.OnTrack service network candidates discover)
    (hs : service.system.step s act = some s') :
    service.work s'.stage + act.moves ≤ service.work s.stage := by
  change service.step s act = some s' at hs
  rw [Sweep.OnTrack] at ht
  unfold SweepService.step at hs
  split at hs
  · split at hs
    · obtain rfl := Option.some.inj hs
      exact le_refl _
    · cases hs
  · rename_i a hosts pool hstage
    rw [hstage] at ht ⊢
    unfold SweepService.discoverStep at hs
    split at hs
    · obtain ⟨⟨limiter, pool'⟩, hr, rfl⟩ := Option.map_eq_some_iff.mp hs
      have hwork := ht.2.2.sound.work_step hr
      simp only [SweepService.work, Sweep.Act.moves] at hwork ⊢
      omega
    · cases hs
  · rename_i hosts pool hstage
    obtain ⟨checked, -, rfl⟩ := Option.map_eq_some_iff.mp hs
    have hle := Nat.mul_le_mul_right (service.probeWork + 5) (length_upHosts_le hosts checked)
    rw [hstage, work_arrive, moves_eq_one (by rintro _ ⟨⟩), SweepService.work]
    omega
  · cases hs
  · rename_i sem hosts hact hstage
    rw [hstage] at ht ⊢
    rw [moves_eq_one hact]
    exact HostsOnTrack.work_step ht hs

theorem Sweep.OnTrack.advance (hpings : ∀ host, (network.pings host).length = service.pingPorts.length)
    (ht : s.OnTrack service network candidates discover) (hready : s.Ready) :
    ∃ act s', service.Follows network s act ∧ service.system.step s act = some s' ∧
      s'.OnTrack service network candidates discover ∧ service.work s'.stage < service.work s.stage := by
  have hnext : ∃ act s', service.Follows network s act ∧ service.system.step s act = some s' ∧
      ∀ t, act ≠ .tick t := by
    unfold Sweep.Ready at hready
    cases hstage : s.stage with
    | discovering hosts pool =>
      rw [hstage] at hready
      exact advance_discovering hpings ht hstage hready
    | scanning sem hosts =>
      rw [hstage] at hready
      obtain ⟨h, hh, hready⟩ := hready
      rw [Sweep.OnTrack, hstage] at ht
      exact HostsOnTrack.advance ht hstage hh hready
  obtain ⟨act, s', hfollows, hs, htick⟩ := hnext
  have hwork := ht.work_step hs
  rw [moves_eq_one htick] at hwork
  exact ⟨act, s', hfollows, hs, ht.step hfollows hs, hwork⟩

/-- **Or time passes** to where some part can go on. -/
theorem Sweep.OnTrack.exists_tick (ht : s.OnTrack service network candidates discover)
    (hc : 1 ≤ service.hostConcurrency) (hopen : s.stage.results = none) (hstuck : ¬ s.Ready) :
    ∃ t, service.system.step s (.tick t) = some { s with now := t } ∧
      Sweep.Ready { s with now := t } := by
  have htick : ∀ t, s.now < t → s.stage.idleUntil t = true →
      service.system.step s (.tick t) = some { s with now := t } := fun t hlt hidle =>
    if_pos ⟨hlt, hidle⟩
  unfold Sweep.Ready at hstuck
  rw [Sweep.OnTrack] at ht
  cases hstage : s.stage with
  | discovering hosts pool =>
    rw [hstage] at hstuck ht htick
    obtain ⟨hnone, hstuck⟩ := not_or.mp hstuck
    obtain ⟨-, -, hpool⟩ := ht
    have hnone : pool.answers = none := Option.not_isSome_iff_eq_none.mp hnone
    obtain ⟨t, hlt, hidle, hready⟩ := hpool.exists_timer (fun _ => hc) hnone hstuck
    refine ⟨t, htick t hlt ?_, .inr hready⟩
    rw [Stage.idleUntil, hidle, hnone]
    rfl
  | scanning sem hosts =>
    rw [hstage] at hstuck ht htick hopen
    rcases exists_earliest fun h hh => (ht.tracks h hh).exists_timer fun hready =>
        hstuck ⟨h, hh, hready⟩ with hall | ⟨t, hlt, hwaits, hready⟩
    · have hdone : (Stage.scanning sem hosts).results.isSome = true :=
        results_isSome (ht.all_reported hc hall)
      rw [hopen] at hdone
      cases hdone
    · refine ⟨t, htick t hlt ?_, hready⟩
      exact List.all_eq_true.mpr fun h hh => hwaits h hh t (le_refl t)

/-- **While hosts are missing, some schedule gets closer to the end.** -/
theorem Sweep.OnTrack.closer (hpings : ∀ host, (network.pings host).length = service.pingPorts.length)
    (hc : 1 ≤ service.hostConcurrency) (ht : s.OnTrack service network candidates discover)
    (hopen : s.stage.results = none) :
    ∃ acts s', service.system.Along (service.Follows network) s acts ∧
      service.system.exec s acts = some s' ∧ s'.OnTrack service network candidates discover ∧
      service.work s'.stage < service.work s.stage := by
  by_cases hready : s.Ready
  · obtain ⟨act, s', hfollows, hs, ht', hwork⟩ := ht.advance hpings hready
    exact ⟨[act], s', ⟨hfollows, fun _ _ => trivial⟩, System.exec_step hs rfl, ht', hwork⟩
  · obtain ⟨t, htick, hready'⟩ := ht.exists_tick hc hopen hready
    have hfollows : service.Follows network s (.tick t) := by
      unfold SweepService.Follows
      cases s.stage <;> trivial
    obtain ⟨act, s', hfollows', hs, ht', hwork⟩ := (ht.step hfollows htick).advance hpings hready'
    refine ⟨[.tick t, act], s', ⟨hfollows, ?_⟩, System.exec_step htick (System.exec_step hs rfl),
      ht', hwork⟩
    rintro _ hnext
    obtain rfl := Option.some.inj (htick.symm.trans hnext)
    exact ⟨hfollows', fun _ _ => trivial⟩

/-- The results are the last answers of the hosts that are up, each with its times. -/
theorem Sweep.OnTrack.results (ht : s.OnTrack service network candidates discover)
    {results : List (String × Scanned)} (hdone : s.stage.results = some results) :
    (results.map fun r => (r.1, r.2.results)) = (network.upHosts discover candidates).map (fun host =>
      (host, network.lastAnswers service.ports service.retries.toNat host)) ∧
      ∀ r ∈ results, r.2.Timed s.now := by
  rw [Sweep.OnTrack] at ht
  cases hstage : s.stage with
  | discovering hosts pool =>
    rw [hstage] at hdone
    cases hdone
  | scanning sem hosts =>
    rw [hstage] at hdone ht
    rw [← ht.names, List.map_map]
    have htracks := ht.tracks
    rw [Stage.results] at hdone
    clear ht hstage
    induction hosts generalizing results with
    | nil =>
      obtain rfl := Option.some.inj hdone
      exact ⟨rfl, List.forall_mem_nil _⟩
    | cons h hosts ih =>
      obtain ⟨hhead, hrest⟩ := List.forall_mem_cons.mp htracks
      rw [List.mapM_cons] at hdone
      obtain ⟨first, hfirst, hdone⟩ := Option.bind_eq_some_iff.mp hdone
      obtain ⟨rest, hmap, hdone⟩ := Option.bind_eq_some_iff.mp hdone
      obtain rfl := Option.some.inj hdone
      obtain ⟨hnames, htimed⟩ := ih hmap hrest
      rw [List.map_cons, List.map_cons, ← hnames]
      unfold HostScan.OnTrack at hhead
      cases hphase : h.phase with
      | reported scanned =>
        rw [hphase] at hfirst hhead
        obtain rfl := Option.some.inj hfirst
        obtain ⟨hhead, hresults⟩ := hhead
        refine ⟨?_, List.forall_mem_cons.mpr ⟨hhead, htimed⟩⟩
        rw [hresults]
        rfl
      | _ =>
        rw [hphase] at hfirst
        cases hfirst

end Done

/-! ## What a sweep reports -/

structure NetworkReport where
  network : String
  hosts : List ScanReport
  totalCandidates : Nat
  upCount : Nat
  durationS : ℚ

/-- `r.host.ip or r.host.host`. -/
def ScanReport.address (r : ScanReport) : String := (orElse r.host.ip (some r.host.host)).getD ""

/-- `sorted(reports, key=...)`. -/
def sortedByAddress (reports : List ScanReport) : List ScanReport :=
  reports.mergeSort fun a b => decide (a.address ≤ b.address)

/-- What a sweep holds beside its service: `wall` is what the wall clock shows at a time of the run. -/
structure SweepRun where
  spec : String
  candidates : List String
  discover : Bool
  scanType : String
  fingerprint : Option String → Nat → ServiceInfo
  wall : ℚ → ℚ
  t0 : ℚ

namespace SweepService

variable (service : SweepService) (network : Network) (run : SweepRun)

/-- What `scan_host` returns for a host. -/
def hostReport (host : String) (scanned : Scanned) : ScanReport where
  target := { host, ports := service.ports }
  host := { host, ip := network.ip host,
            ports := sortedByPort (scanned.results.map (ScanService.identify run.fingerprint)) }
  scanType := run.scanType
  startedAt := run.wall scanned.began
  durationS := scanned.ended - scanned.began

/-- The report, once every host has its results. -/
def report (s : Sweep) : Option NetworkReport :=
  s.stage.results.map fun results =>
    { network := run.spec
      hosts := sortedByAddress (results.map fun r => service.hostReport network run r.1 r.2)
      totalCandidates := run.candidates.length
      upCount := results.length
      durationS := s.now - run.t0 }

/-- How many hosts are in `scan_host`. -/
def inScan : Stage → Nat
  | .discovering _ _ => 0
  | .scanning _ hosts => hosts.countP fun h => match h.phase with
      | .resolving _ | .scanning _ _ => true
      | _ => false

theorem inScan_le {candidates : List String} {discover : Bool} {s : Sweep}
    (ht : s.OnTrack service network candidates discover) :
    inScan s.stage ≤ service.hostConcurrency := by
  rw [Sweep.OnTrack] at ht
  cases hstage : s.stage with
  | discovering hosts pool => exact Nat.zero_le _
  | scanning sem hosts =>
    rw [hstage] at ht
    have hpermits := ht.sound.permits
    have hle : inScan (.scanning sem hosts) ≤ Pool.holders (hosts.map HostScan.job) := by
      rw [Pool.holders, List.countP_map]
      refine List.countP_mono_left fun h _ hscan => ?_
      unfold HostScan.job
      cases hphase : h.phase <;> simp_all [Phase.holds]
    dsimp only at hpermits
    omega

theorem onTrack_run {maxRate : Option ℚ} {now : ℚ} {candidates : List String} {discover : Bool}
    {s : Sweep} (h : service.run candidates discover maxRate now = .ok s) :
    s.OnTrack service network candidates discover := by
  obtain ⟨limiter, -, h⟩ := bind_inv h
  obtain rfl := Except.ok.inj h
  rw [Sweep.OnTrack]
  dsimp only
  split
  · rename_i hdiscover
    exact ⟨hdiscover, rfl, Pool.onTrack_begin⟩
  · rename_i hdiscover
    have hup : network.upHosts discover candidates = candidates := if_neg hdiscover
    show HostsOnTrack service network (network.upHosts discover candidates) now _ _
    rw [hup]
    exact hostsOnTrack_arrive service network candidates now

theorem sortedByAddress_sorted (reports : List ScanReport) :
    (sortedByAddress reports).Pairwise fun a b => a.address ≤ b.address := by
  have h : (sortedByAddress reports).Pairwise fun a b => decide (a.address ≤ b.address) = true :=
    List.pairwise_mergeSort
      (fun a b c hab hbc => decide_eq_true ((of_decide_eq_true hab).trans (of_decide_eq_true hbc)))
      (fun a b => by simp [le_total]) reports
  exact h.imp fun hab => of_decide_eq_true hab

/-- The steps of a sweep other than the passing of time, at most: five for a check and one to end
discovery, and for each candidate five and five for each probe. -/
def steps (candidates : List String) : Nat :=
  5 * candidates.length + 1 +
    candidates.length * (service.ports.length * (5 * service.retries.toNat + 5) + 5)

theorem work_start (concurrency n retries : Nat) :
    (Pool.start concurrency n retries : Pool β).work = n * (5 * retries + 5) := by
  rw [Pool.work, Pool.start, List.map_replicate, List.sum_replicate, smul_eq_mul]
  rfl

theorem work_run_le {maxRate : Option ℚ} {now : ℚ} {candidates : List String} {discover : Bool}
    {s : Sweep} (h : service.run candidates discover maxRate now = .ok s) :
    service.work s.stage ≤ service.steps candidates := by
  obtain ⟨limiter, -, h⟩ := bind_inv h
  obtain rfl := Except.ok.inj h
  dsimp only
  rw [steps, ← work_start service.ports.length]
  split
  · rw [work, work_start, probeWork]
    omega
  · rw [work_arrive, probeWork]
    omega

/-- A sweep on its way can be brought to its report. -/
theorem exists_report (hpings : ∀ host, (network.pings host).length = service.pingPorts.length)
    (hc : 1 ≤ service.hostConcurrency) {s : Sweep}
    (ht : s.OnTrack service network run.candidates run.discover) :
    ∃ rest s', service.system.Along (service.Follows network) s rest ∧
      service.system.exec s rest = some s' ∧ (service.report network run s').isSome := by
  obtain ⟨rest, s', hrest, hs', hdone⟩ := System.exists_finish
    (I := Sweep.OnTrack service network run.candidates run.discover)
    (F := fun s => s.stage.results.isSome) (fun s => service.work s.stage)
    (fun s hs hopen => hs.closer hpings hc (Option.not_isSome_iff_eq_none.mp hopen)) ht
  exact ⟨rest, s', hrest, hs', by rwa [SweepService.report, Option.isSome_map]⟩

/-- The hosts of a report are those that are up, by address, with their last answers: only the times
are of the schedule. -/
def Reports (up : List String) (now : ℚ) (report : NetworkReport) : Prop :=
  ∃ scans : List Scanned,
    scans.map Scanned.results = up.map (network.lastAnswers service.ports service.retries.toNat) ∧
    (∀ scanned ∈ scans, scanned.Timed now) ∧
    report.hosts = sortedByAddress ((up.zip scans).map fun r => service.hostReport network run r.1 r.2)

/-- The report of a sweep on its way is that of its last answers. -/
theorem report_eq {s : Sweep} {report : NetworkReport}
    (ht : s.OnTrack service network run.candidates run.discover)
    (h : service.report network run s = some report) :
    service.Reports network run (network.upHosts run.discover run.candidates) s.now report ∧
      report.upCount = (network.upHosts run.discover run.candidates).length ∧
      report.totalCandidates = run.candidates.length := by
  obtain ⟨results, hdone, rfl⟩ := Option.map_eq_some_iff.mp h
  obtain ⟨hresults, htimed⟩ := ht.results hdone
  have hnames : results.map Prod.fst = network.upHosts run.discover run.candidates := by
    have hnames := congrArg (List.map Prod.fst) hresults
    rw [List.map_map, List.map_map] at hnames
    exact hnames.trans (List.map_id _)
  refine ⟨⟨results.map Prod.snd, ?_, List.forall_mem_map.mpr htimed, ?_⟩, ?_, rfl⟩
  · have hanswers := congrArg (List.map Prod.snd) hresults
    rw [List.map_map, List.map_map] at hanswers
    rw [List.map_map]
    exact hanswers
  · rw [← List.zip_of_prod hnames rfl]
  · rw [← hnames, List.length_map]

section

variable {service network run}

theorem Reports.sorted {up : List String} {now : ℚ} {report : NetworkReport}
    (h : service.Reports network run up now report) :
    report.hosts.Pairwise fun a b => a.address ≤ b.address := by
  obtain ⟨scans, -, -, hhosts⟩ := h
  rw [hhosts]
  exact sortedByAddress_sorted _

/-- Each host of the report is one that is up, with its last answers. -/
theorem Reports.mem {up : List String} {now : ℚ} {report : NetworkReport}
    (h : service.Reports network run up now report) {hr : ScanReport} (hmem : hr ∈ report.hosts) :
    ∃ host scanned,
      scanned.results = network.lastAnswers service.ports service.retries.toNat host ∧
      hr = service.hostReport network run host scanned := by
  obtain ⟨scans, hanswers, -, hhosts⟩ := h
  rw [hhosts] at hmem
  obtain ⟨⟨host, scanned⟩, hzip, rfl⟩ :=
    List.mem_map.mp ((List.mergeSort_perm _ _).mem_iff.mp hmem)
  obtain ⟨i, hi⟩ := List.mem_iff_getElem?.mp hzip
  obtain ⟨hhost, hscanned⟩ := List.getElem?_zip_eq_some.mp hi
  have hresults := congrArg (fun l => l[i]?) hanswers
  rw [List.getElem?_map, List.getElem?_map, hhost, hscanned] at hresults
  exact ⟨host, scanned, Option.some.inj hresults, rfl⟩

theorem Reports.names {up : List String} {now : ℚ} {report : NetworkReport}
    (h : service.Reports network run up now report) : (report.hosts.map fun r => r.host.host).Perm up := by
  obtain ⟨scans, hanswers, -, hhosts⟩ := h
  have hlength : up.length ≤ scans.length := by
    have hlength := congrArg List.length hanswers
    rw [List.length_map, List.length_map] at hlength
    exact hlength.ge
  rw [hhosts]
  refine ((List.mergeSort_perm _ _).map _).trans (List.Perm.of_eq ?_)
  rw [List.map_map]
  exact List.map_fst_zip hlength

end

end SweepService

end Pyscan
