import Pyscan.Domain.Rate

/-!
# Jobs behind a rate gate and a semaphore

`ScanService.probe_once` and `SweepService.check` have one shape: pass the rate
limiter, then run one job inside `async with sem`; `bounded` runs a job again
while its answer asks for it. `Pool.step` is that code for a list of jobs, one
atomic step between two awaits, on an ideal event loop: a sleeper resumes
exactly when its time comes, a semaphore serves its waiters in order, and the
code between awaits takes no time. Which job moves next, how long a job runs
and what it answers are up to the schedule.
-/

namespace Pyscan

open Spacing

/-- `asyncio.Semaphore`: the free permits, and who waits for one. -/
structure Semaphore where
  value : Nat
  waiters : List Nat

namespace Semaphore

def locked (s : Semaphore) : Bool := decide (s.value = 0 ∨ s.waiters ≠ [])

/-- Take a permit (`true`), or join the waiters. -/
def acquire (s : Semaphore) (i : Nat) : Semaphore × Bool :=
  if s.locked then ({ s with waiters := s.waiters ++ [i] }, false)
  else ({ s with value := s.value - 1 }, true)

/-- Give the permit back, or hand it to the first waiter. -/
def release (s : Semaphore) : Semaphore × Option Nat :=
  match s.waiters with
  | [] => ({ s with value := s.value + 1 }, none)
  | i :: waiters => ({ s with waiters := waiters }, some i)

variable {s : Semaphore} {i : Nat}

theorem acquire_locked (h : s.locked = true) :
    s.acquire i = (⟨s.value, s.waiters ++ [i]⟩, false) := if_pos h

theorem acquire_free (h : s.locked = false) : s.acquire i = (⟨s.value - 1, s.waiters⟩, true) :=
  if_neg (by simp [h])

theorem locked_eq_false : s.locked = false ↔ s.value ≠ 0 ∧ s.waiters = [] := by
  simp [locked]

theorem release_nil (h : s.waiters = []) : s.release = (⟨s.value + 1, []⟩, none) := by
  rw [release, h]

theorem release_cons {waiters : List Nat} (h : s.waiters = i :: waiters) :
    s.release = (⟨s.value, waiters⟩, some i) := by
  rw [release, h]

end Semaphore

/-- `AsyncRateLimiter.acquire` at time `now`: the limiter afterwards, and when the caller goes on.
Its lock is never held across an await. -/
def acquire (limiter : Option Pacer) (now : ℚ) : Option Pacer × ℚ :=
  match limiter with
  | none => (none, now)
  | some pacer => (some (pacer.reserve now).2, now + (pacer.reserve now).1)

/-! ## Exchanging one element of a list -/

section Exchange

variable {α γ : Type*} {l : List α} {i : Nat} {a : α}

theorem exists_perm_set (h : l[i]? = some a) :
    ∃ rest, l.Perm (a :: rest) ∧ ∀ b, (l.set i b).Perm (b :: rest) := by
  obtain ⟨hi, rfl⟩ := List.getElem?_eq_some_iff.mp h
  exact ⟨l.eraseIdx i, (List.getElem_cons_eraseIdx_perm hi).symm, List.set_perm_cons_eraseIdx hi⟩

theorem countP_set (p : α → Bool) (h : l[i]? = some a) (b : α) :
    (l.set i b).countP p + (p a).toNat = l.countP p + (p b).toNat := by
  obtain ⟨rest, hl, hset⟩ := exists_perm_set h
  rw [hl.countP_eq, (hset b).countP_eq, List.countP_cons, List.countP_cons]
  cases p a <;> cases p b <;> simp

theorem sum_map_set (f : α → Nat) (h : l[i]? = some a) (b : α) :
    ((l.set i b).map f).sum + f a = (l.map f).sum + f b := by
  obtain ⟨rest, hl, hset⟩ := exists_perm_set h
  rw [((hset b).map f).sum_eq, (hl.map f).sum_eq, List.map_cons, List.map_cons, List.sum_cons,
    List.sum_cons]
  omega

theorem flatMap_set (h : l[i]? = some a) (b : α) (f : α → List γ) :
    (f a ++ (l.set i b).flatMap f).Perm (f b ++ l.flatMap f) := by
  obtain ⟨rest, hl, hset⟩ := exists_perm_set h
  have hset := (hset b).flatMap_right f
  have hl := hl.flatMap_right f
  rw [List.flatMap_cons] at hset hl
  refine (hset.append_left _).trans (List.Perm.trans ?_ (hl.symm.append_left _))
  rw [← List.append_assoc, ← List.append_assoc]
  exact List.perm_append_comm.append_right _

theorem forall_set {p : α → Prop} {b : α} (h : ∀ x ∈ l, p x) (hb : p b) : ∀ x ∈ l.set i b, p x := by
  intro x hx
  rcases List.mem_or_eq_of_mem_set hx with hx | rfl
  · exact h x hx
  · exact hb

end Exchange

/-! ## Jobs -/

/-- How far a job has come. -/
inductive Phase (β : Type*) where
  /-- before the limiter -/
  | ready
  /-- a slot is reserved -/
  | paced (due : ℚ)
  /-- waits for the semaphore -/
  | queued
  /-- inside the semaphore, about to run -/
  | granted
  | running (ends : ℚ) (answer : β)
  | done (answer : β)

namespace Phase

variable {β : Type*}

/-- When the timer of the phase fires. -/
def timer : Phase β → Option ℚ
  | .paced due => some due
  | .running ends _ => some ends
  | _ => none

/-- Whether the job can go on at once. -/
def runnable : Phase β → Bool
  | .ready | .granted => true
  | _ => false

/-- The job does nothing before `t`. -/
def waitsUntil (phase : Phase β) (t : ℚ) : Bool :=
  !phase.runnable && phase.timer.all fun u => decide (t ≤ u)

/-- The slot of the rate limiter a job is going to run in. -/
def slot (now : ℚ) : Phase β → Option ℚ
  | .paced due => some due
  | .granted => some now
  | _ => none

/-- Whether the job has a permit of the semaphore. -/
def holds : Phase β → Bool
  | .granted | .running _ _ => true
  | _ => false

def isQueued : Phase β → Bool
  | .queued => true
  | _ => false

end Phase

structure Job (β : Type*) where
  retries : Nat
  phase : Phase β

/-- What `bounded` does with an answer: again, while it asks for it and retries are left. -/
def Job.answered {β : Type*} (again : β → Bool) (retries : Nat) (answer : β) : Job β :=
  if again answer ∧ 0 < retries then ⟨retries - 1, .ready⟩ else ⟨retries, .done answer⟩

structure Pool (β : Type*) where
  sem : Semaphore
  jobs : List (Job β)

namespace Pool

variable {β : Type*}

/-- `n` jobs behind `Semaphore(concurrency)`. -/
def start (concurrency n retries : Nat) : Pool β where
  sem := { value := concurrency, waiters := [] }
  jobs := List.replicate n ⟨retries, .ready⟩

inductive Act (β : Type*) where
  | reserve (i : Nat)
  | enter (i : Nat)
  | launch (i : Nat) (duration : ℚ) (answer : β)
  | finish (i : Nat)

/-- The jobs a step launches. -/
def Act.launched : Act β → List Nat
  | .launch i _ _ => [i]
  | _ => []

/-- The waiter that was handed a permit goes on. -/
def grant (jobs : List (Job β)) (waiter : Option Nat) : List (Job β) :=
  match waiter with
  | none => jobs
  | some j =>
    match jobs[j]? with
    | none => jobs
    | some job => jobs.set j ⟨job.retries, .granted⟩

def step (again : β → Bool) (now : ℚ) (limiter : Option Pacer) (pool : Pool β) :
    Act β → Option (Option Pacer × Pool β)
  | .reserve i =>
    match pool.jobs[i]? with
    | some ⟨retries, .ready⟩ =>
      let r := acquire limiter now
      some (r.1, ⟨pool.sem, pool.jobs.set i ⟨retries, .paced r.2⟩⟩)
    | _ => none
  | .enter i =>
    match pool.jobs[i]? with
    | some ⟨retries, .paced due⟩ =>
      if due = now then
        let r := pool.sem.acquire i
        some (limiter, ⟨r.1, pool.jobs.set i ⟨retries, if r.2 then .granted else .queued⟩⟩)
      else none
    | _ => none
  | .launch i duration answer =>
    match pool.jobs[i]? with
    | some ⟨retries, .granted⟩ =>
      if 0 ≤ duration then
        some (limiter, ⟨pool.sem, pool.jobs.set i ⟨retries, .running (now + duration) answer⟩⟩)
      else none
    | _ => none
  | .finish i =>
    match pool.jobs[i]? with
    | some ⟨retries, .running ends answer⟩ =>
      if ends = now then
        let r := pool.sem.release
        some (limiter, ⟨r.1, grant (pool.jobs.set i (Job.answered again retries answer)) r.2⟩)
      else none
    | _ => none

/-- Time may pass up to `t`. -/
def idleUntil (pool : Pool β) (t : ℚ) : Bool := pool.jobs.all fun job => job.phase.waitsUntil t

/-- The answers, once every job is done. -/
def answers (pool : Pool β) : Option (List β) :=
  pool.jobs.mapM fun job => match job.phase with
    | .done answer => some answer
    | _ => none

/-! ## What a step does -/

section Steps

variable {again : β → Bool} {now : ℚ} {limiter limiter' : Option Pacer} {pool pool' : Pool β} {i : Nat}

theorem reserve_inv (h : pool.step again now limiter (.reserve i) = some (limiter', pool')) :
    ∃ retries, pool.jobs[i]? = some ⟨retries, .ready⟩ ∧
      limiter' = (acquire limiter now).1 ∧
      pool' = ⟨pool.sem, pool.jobs.set i ⟨retries, .paced (acquire limiter now).2⟩⟩ := by
  simp only [step] at h
  split at h
  · obtain ⟨rfl, rfl⟩ := Prod.mk.inj (Option.some.inj h)
    exact ⟨_, ‹_›, rfl, rfl⟩
  · cases h

theorem enter_inv (h : pool.step again now limiter (.enter i) = some (limiter', pool')) :
    ∃ retries, pool.jobs[i]? = some ⟨retries, .paced now⟩ ∧ limiter' = limiter ∧
      pool' = ⟨(pool.sem.acquire i).1,
        pool.jobs.set i ⟨retries, if (pool.sem.acquire i).2 then .granted else .queued⟩⟩ := by
  simp only [step] at h
  split at h
  · split at h
    · rename_i heq hdue
      obtain ⟨rfl, rfl⟩ := Prod.mk.inj (Option.some.inj h)
      exact ⟨_, hdue ▸ heq, rfl, rfl⟩
    · cases h
  · cases h

theorem launch_inv {duration : ℚ} {answer : β}
    (h : pool.step again now limiter (.launch i duration answer) = some (limiter', pool')) :
    ∃ retries, pool.jobs[i]? = some ⟨retries, .granted⟩ ∧ 0 ≤ duration ∧ limiter' = limiter ∧
      pool' = ⟨pool.sem, pool.jobs.set i ⟨retries, .running (now + duration) answer⟩⟩ := by
  simp only [step] at h
  split at h
  · split at h
    · obtain ⟨rfl, rfl⟩ := Prod.mk.inj (Option.some.inj h)
      exact ⟨_, ‹_›, ‹_›, rfl, rfl⟩
    · cases h
  · cases h

theorem finish_inv (h : pool.step again now limiter (.finish i) = some (limiter', pool')) :
    ∃ retries answer, pool.jobs[i]? = some ⟨retries, .running now answer⟩ ∧ limiter' = limiter ∧
      pool' = ⟨pool.sem.release.1,
        grant (pool.jobs.set i (Job.answered again retries answer)) pool.sem.release.2⟩ := by
  simp only [step] at h
  split at h
  · split at h
    · rename_i heq hends
      obtain ⟨rfl, rfl⟩ := Prod.mk.inj (Option.some.inj h)
      exact ⟨_, _, hends ▸ heq, rfl, rfl⟩
    · cases h
  · cases h

end Steps

theorem step_of_nil {again : β → Bool} {now : ℚ} {limiter : Option Pacer} {pool : Pool β}
    {r : Option Pacer × Pool β} {a : Act β} (hnil : pool.jobs = [])
    (h : pool.step again now limiter a = some r) : False := by
  cases a <;> simp [step, hnil] at h

/-! ## Permits -/

/-- How many jobs have a permit. -/
def holders (jobs : List (Job β)) : Nat := jobs.countP fun job => job.phase.holds

def queuedAt (jobs : List (Job β)) (j : Nat) : Bool := (jobs[j]?).any fun job => job.phase.isQueued

section Permits

variable {jobs : List (Job β)} {i j : Nat} {job x : Job β}

theorem holders_set (h : jobs[i]? = some job) :
    holders (jobs.set i x) + job.phase.holds.toNat = holders jobs + x.phase.holds.toNat :=
  countP_set _ h x

theorem queuedAt_of (h : jobs[i]? = some job) : queuedAt jobs i = job.phase.isQueued := by
  rw [queuedAt, h, Option.any_some]

theorem queuedAt_set (h : jobs[i]? = some job) :
    queuedAt (jobs.set i x) j = if j = i then x.phase.isQueued else queuedAt jobs j := by
  obtain ⟨hi, -⟩ := List.getElem?_eq_some_iff.mp h
  unfold queuedAt
  by_cases hj : j = i
  · rw [if_pos hj, hj, List.getElem?_set_self hi, Option.any_some]
  · rw [if_neg hj, List.getElem?_set_ne (Ne.symm hj)]

theorem exists_queued (h : queuedAt jobs j = true) : ∃ retries, jobs[j]? = some ⟨retries, .queued⟩ := by
  unfold queuedAt at h
  cases hj : jobs[j]? with
  | none => rw [hj] at h; cases h
  | some job =>
    obtain ⟨retries, phase⟩ := job
    rw [hj] at h
    cases phase with
    | queued => exact ⟨retries, hj ▸ rfl⟩
    | _ => cases h

/-- **The permits add up**: those free and those held are all there were; the waiters are the
queued jobs, each once, and nobody waits while a permit is free. -/
structure Sound (concurrency : Nat) (pool : Pool β) : Prop where
  permits : pool.sem.value + holders pool.jobs = concurrency
  waits : ∀ j, j ∈ pool.sem.waiters ↔ queuedAt pool.jobs j = true
  nodup : pool.sem.waiters.Nodup
  full : pool.sem.waiters ≠ [] → pool.sem.value = 0

variable {again : β → Bool} {now : ℚ} {limiter limiter' : Option Pacer} {pool pool' : Pool β}
  {concurrency : Nat}

theorem sound_start (concurrency n retries : Nat) :
    Sound concurrency (start concurrency n retries : Pool β) where
  permits := by
    have hnone : holders (List.replicate n (⟨retries, .ready⟩ : Job β)) = 0 := by
      unfold holders
      rw [List.countP_eq_zero]
      intro job hjob
      rw [List.eq_of_mem_replicate hjob]
      simp [Phase.holds]
    rw [start, hnone, Nat.add_zero]
  waits j := by
    unfold queuedAt start
    rw [List.getElem?_replicate]
    split <;> simp [Phase.isQueued]
  nodup := List.nodup_nil
  full h := absurd rfl h

/-- Exchanging a job for one with as many permits, queued as little as it was. -/
theorem Sound.exchange (h : Sound concurrency pool) (hi : pool.jobs[i]? = some job)
    (hhold : x.phase.holds = job.phase.holds) (hq : job.phase.isQueued = false)
    (hx : x.phase.isQueued = false) : Sound concurrency ⟨pool.sem, pool.jobs.set i x⟩ where
  permits := by
    have hset := holders_set (x := x) hi
    rw [hhold] at hset
    have := h.permits
    dsimp only
    omega
  waits j := by
    rw [h.waits, queuedAt_set hi]
    split
    · rename_i hj
      rw [hj, queuedAt_of hi, hq, hx]
    · rfl
  nodup := h.nodup
  full := h.full

/-- A job at the semaphore takes a permit, or joins the waiters. -/
theorem Sound.enter (h : Sound concurrency pool) (hi : pool.jobs[i]? = some job)
    (hhold : job.phase.holds = false) (hq : job.phase.isQueued = false) (retries : Nat) :
    Sound concurrency ⟨(pool.sem.acquire i).1,
      pool.jobs.set i ⟨retries, if (pool.sem.acquire i).2 then .granted else .queued⟩⟩ := by
  have hp := h.permits
  have hnot : i ∉ pool.sem.waiters := fun hm => by
    rw [h.waits, queuedAt_of hi, hq] at hm
    cases hm
  cases hl : pool.sem.locked with
  | true =>
    have hzero : pool.sem.value = 0 := by
      rcases of_decide_eq_true hl with hz | hw
      · exact hz
      · exact h.full hw
    have hset := holders_set (x := ⟨retries, .queued⟩) hi
    rw [hhold] at hset
    simp only [Semaphore.acquire_locked hl, Bool.false_eq_true, if_false]
    refine ⟨?_, fun j => ?_, ?_, fun _ => hzero⟩
    · dsimp only [Phase.holds, Bool.toNat_false] at hset ⊢
      omega
    · dsimp only
      rw [List.mem_append, h.waits, List.mem_singleton, queuedAt_set hi]
      split
      · rename_i hj
        exact ⟨fun _ => rfl, fun _ => .inr hj⟩
      · exact or_iff_left ‹_›
    · exact List.nodup_append.mpr ⟨h.nodup, List.nodup_singleton i, fun a ha b hb hab =>
        hnot (List.mem_singleton.mp hb ▸ hab ▸ ha)⟩
  | false =>
    obtain ⟨hvalue, hnil⟩ := Semaphore.locked_eq_false.mp hl
    have hset := holders_set (x := ⟨retries, .granted⟩) hi
    rw [hhold] at hset
    simp only [Semaphore.acquire_free hl, if_true]
    refine ⟨?_, fun j => ?_, h.nodup, fun hw => absurd hnil hw⟩
    · dsimp only [Phase.holds, Bool.toNat_false, Bool.toNat_true] at hset ⊢
      omega
    · dsimp only
      rw [h.waits, queuedAt_set hi]
      split
      · rename_i hj
        rw [hj, queuedAt_of hi, hq]
        rfl
      · rfl

theorem answered_phase (again : β → Bool) (retries : Nat) (answer : β) :
    (Job.answered again retries answer).phase.holds = false ∧
      (Job.answered again retries answer).phase.isQueued = false := by
  unfold Job.answered
  split <;> exact ⟨rfl, rfl⟩

theorem answered_zero (again : β → Bool) (answer : β) :
    Job.answered again 0 answer = ⟨0, .done answer⟩ := if_neg (by simp)

/-- A waiter that is handed a permit is queued, also when the job that left has changed. -/
theorem Sound.released (h : Sound concurrency pool) (hi : pool.jobs[i]? = some job)
    (hq : job.phase.isQueued = false) (hk : pool.sem.release.2 = some j) :
    queuedAt (pool.jobs.set i x) j = true := by
  have hmem : j ∈ pool.sem.waiters := by
    cases hw : pool.sem.waiters with
    | nil =>
      rw [Semaphore.release_nil hw] at hk
      cases hk
    | cons k ws =>
      rw [Semaphore.release_cons hw] at hk
      cases hk
      exact List.mem_cons_self
  rw [h.waits] at hmem
  have hne : j ≠ i := by
    rintro rfl
    rw [queuedAt_of hi, hq] at hmem
    cases hmem
  rw [queuedAt_set hi, if_neg hne, hmem]

theorem countP_grant {p : Job β → Bool} (hp : ∀ retries, p ⟨retries, .granted⟩ = p ⟨retries, .queued⟩)
    {waiter : Option Nat} (h : ∀ j, waiter = some j → queuedAt jobs j = true) :
    (grant jobs waiter).countP p = jobs.countP p := by
  cases waiter with
  | none => rfl
  | some j =>
    obtain ⟨retries, hj⟩ := exists_queued (h j rfl)
    have hset := countP_set p hj ⟨retries, .granted⟩
    rw [hp] at hset
    simp only [grant, hj]
    omega

/-- A running job leaves, and its permit is free or goes to the first waiter. -/
theorem Sound.leave (h : Sound concurrency pool) (hi : pool.jobs[i]? = some job)
    (hhold : job.phase.holds = true) (hq : job.phase.isQueued = false)
    (hx : x.phase.holds = false) (hxq : x.phase.isQueued = false) :
    Sound concurrency ⟨pool.sem.release.1, grant (pool.jobs.set i x) pool.sem.release.2⟩ := by
  have hp := h.permits
  have hset := holders_set (x := x) hi
  rw [hhold, hx, Bool.toNat_true, Bool.toNat_false] at hset
  have hqset : ∀ j, queuedAt (pool.jobs.set i x) j = queuedAt pool.jobs j := fun j => by
    rw [queuedAt_set hi]
    split
    · rename_i hj
      rw [hj, queuedAt_of hi, hq, hxq]
    · rfl
  cases hw : pool.sem.waiters with
  | nil =>
    rw [Semaphore.release_nil hw]
    refine ⟨?_, fun j => ?_, List.nodup_nil, fun hne => absurd rfl hne⟩
    · dsimp only [grant]
      omega
    · dsimp only [grant]
      rw [hqset, ← h.waits, hw]
  | cons k ws =>
    have hnodup := h.nodup
    rw [hw, List.nodup_cons] at hnodup
    have hrelease := Semaphore.release_cons hw
    obtain ⟨retries, hjob⟩ :=
      exists_queued (h.released (x := x) hi hq (congrArg Prod.snd hrelease))
    have hgrant := holders_set (x := ⟨retries, .granted⟩) hjob
    rw [hrelease]
    refine ⟨?_, fun j => ?_, hnodup.2, fun _ => h.full (by rw [hw]; simp)⟩
    · dsimp only [grant, Phase.holds, Bool.toNat_true, Bool.toNat_false] at hgrant ⊢
      rw [hjob]
      dsimp only
      omega
    · dsimp only [grant]
      rw [hjob]
      dsimp only
      rw [queuedAt_set hjob]
      by_cases hj : j = k
      · rw [if_pos hj, hj]
        simp [hnodup.1, Phase.isQueued]
      · rw [if_neg hj, hqset, ← h.waits, hw, List.mem_cons]
        exact (or_iff_right hj).symm

theorem Sound.step {a : Act β} (h : Sound concurrency pool)
    (hs : pool.step again now limiter a = some (limiter', pool')) : Sound concurrency pool' := by
  cases a with
  | reserve i =>
    obtain ⟨retries, hi, rfl, rfl⟩ := reserve_inv hs
    exact h.exchange hi rfl rfl rfl
  | launch i duration answer =>
    obtain ⟨retries, hi, -, rfl, rfl⟩ := launch_inv hs
    exact h.exchange hi rfl rfl rfl
  | enter i =>
    obtain ⟨retries, hi, rfl, rfl⟩ := enter_inv hs
    exact h.enter hi rfl rfl retries
  | finish i =>
    obtain ⟨retries, answer, hi, rfl, rfl⟩ := finish_inv hs
    obtain ⟨hhold, hq⟩ := answered_phase again retries answer
    exact h.leave hi rfl rfl hhold hq

theorem forall_grant {p : Job β → Prop} (h : ∀ job ∈ jobs, p job)
    (hp : ∀ job, p job → p ⟨job.retries, .granted⟩) (waiter : Option Nat) :
    ∀ job ∈ grant jobs waiter, p job := by
  unfold grant
  split
  · exact h
  · split
    · exact h
    · exact forall_set h (hp _ (h _ (List.mem_of_getElem? ‹_›)))

theorem length_grant (jobs : List (Job β)) (waiter : Option Nat) :
    (grant jobs waiter).length = jobs.length := by
  unfold grant
  split
  · rfl
  · split
    · rfl
    · rw [List.length_set]

theorem step_length {a : Act β} (hs : pool.step again now limiter a = some (limiter', pool')) :
    pool'.jobs.length = pool.jobs.length := by
  cases a with
  | reserve i =>
    obtain ⟨retries, -, rfl, rfl⟩ := reserve_inv hs
    exact List.length_set
  | launch i duration answer =>
    obtain ⟨retries, -, -, rfl, rfl⟩ := launch_inv hs
    exact List.length_set
  | enter i =>
    obtain ⟨retries, -, rfl, rfl⟩ := enter_inv hs
    exact List.length_set
  | finish i =>
    obtain ⟨retries, answer, -, rfl, rfl⟩ := finish_inv hs
    exact (length_grant _ _).trans List.length_set

/-- Jobs without retries stay without. -/
theorem step_final {a : Act β} (h : ∀ job ∈ pool.jobs, job.retries = 0)
    (hs : pool.step again now limiter a = some (limiter', pool')) :
    ∀ job ∈ pool'.jobs, job.retries = 0 := by
  have hat : ∀ {i retries : Nat} {phase : Phase β}, pool.jobs[i]? = some ⟨retries, phase⟩ →
      retries = 0 := fun hi => h _ (List.mem_of_getElem? hi)
  cases a with
  | reserve i =>
    obtain ⟨retries, hi, rfl, rfl⟩ := reserve_inv hs
    exact forall_set h (hat hi)
  | launch i duration answer =>
    obtain ⟨retries, hi, -, rfl, rfl⟩ := launch_inv hs
    exact forall_set h (hat hi)
  | enter i =>
    obtain ⟨retries, hi, rfl, rfl⟩ := enter_inv hs
    exact forall_set h (hat hi)
  | finish i =>
    obtain ⟨retries, answer, hi, rfl, rfl⟩ := finish_inv hs
    obtain rfl : retries = 0 := hat hi
    exact forall_grant (forall_set h (congrArg Job.retries (answered_zero again answer)))
      (fun _ hjob => hjob) _

end Permits

/-! ## Slots -/

/-- The slots of the jobs between the limiter and their run. -/
def booked (now : ℚ) (jobs : List (Job β)) : List ℚ := jobs.filterMap fun job => job.phase.slot now

/-- The limiter gives out slots `δ` apart: those booked and those spent are its ledger. -/
def Paced (δ : ℚ) (limiter : Option Pacer) (booked spent : List ℚ) : Prop :=
  ∃ pacer, limiter = some pacer ∧ pacer.interval = δ ∧ Ledger δ pacer.next booked spent

section Slots

variable {δ now : ℚ} {limiter limiter' : Option Pacer} {slots spent : List ℚ}

theorem Paced.perm {slots' : List ℚ} (h : Paced δ limiter slots spent) (hp : slots.Perm slots') :
    Paced δ limiter slots' spent := by
  obtain ⟨pacer, rfl, hδ, hled⟩ := h
  exact ⟨pacer, rfl, hδ, hled.perm hp (List.Perm.refl _)⟩

theorem Paced.forget {slots' : List ℚ} (h : Paced δ limiter slots spent)
    (hs : slots'.Subperm slots) : Paced δ limiter slots' spent := by
  obtain ⟨pacer, rfl, hδ, hled⟩ := h
  exact ⟨pacer, rfl, hδ, hled.forget hs⟩

theorem Paced.reserve (h : Paced δ limiter slots spent) (now : ℚ) :
    Paced δ (acquire limiter now).1 ((acquire limiter now).2 :: slots) spent := by
  obtain ⟨pacer, rfl, rfl, hled⟩ := h
  have hdue : (acquire (some pacer) now).2 = pacer.slot now := pacer.add_reserve_fst now
  refine ⟨_, rfl, rfl, ?_⟩
  rw [hdue, pacer.reserve_next]
  exact hled.book pacer.positive.le (pacer.next_le_slot now)

theorem Paced.spend {t : ℚ} {slots' : List ℚ} (h : Paced δ limiter slots spent)
    (hp : slots.Perm (t :: slots')) : Paced δ limiter slots' (spent ++ [t]) := by
  obtain ⟨pacer, rfl, hδ, hled⟩ := h
  exact ⟨pacer, rfl, hδ, hled.spend hp⟩

theorem Paced.spaced (h : Paced δ limiter slots spent) : Spaced δ spent := by
  obtain ⟨pacer, -, -, hled⟩ := h
  exact hled.spent_spaced

variable {jobs : List (Job β)} {i : Nat} {job x : Job β}

theorem booked_cons (job : Job β) (jobs : List (Job β)) :
    booked now (job :: jobs) = (job.phase.slot now).toList ++ booked now jobs := by
  unfold booked
  rw [List.filterMap_cons]
  cases job.phase.slot now <;> rfl

theorem booked_set (now : ℚ) (h : jobs[i]? = some job) :
    ((job.phase.slot now).toList ++ booked now (jobs.set i x)).Perm
      ((x.phase.slot now).toList ++ booked now jobs) := by
  have hset := flatMap_set h x fun job : Job β => (job.phase.slot now).toList
  rwa [← List.filterMap_eq_flatMap_toList, ← List.filterMap_eq_flatMap_toList] at hset

/-- With no job between grant and run, the slots do not depend on the time. -/
theorem booked_of_not_granted (h : ∀ job ∈ jobs, job.phase.runnable = false) (now t : ℚ) :
    booked now jobs = booked t jobs := by
  refine List.filterMap_congr fun job hjob => ?_
  have hjob := h job hjob
  cases hphase : job.phase with
  | granted => rw [hphase] at hjob; cases hjob
  | _ => rfl

theorem not_runnable_of_idle {pool : Pool β} {t : ℚ} (h : pool.idleUntil t = true) :
    ∀ job ∈ pool.jobs, job.phase.runnable = false := by
  intro job hjob
  have hidle := List.all_eq_true.mp h job hjob
  rw [Phase.waitsUntil, Bool.and_eq_true, Bool.not_eq_true'] at hidle
  exact hidle.1

variable {again : β → Bool} {pool pool' : Pool β} {other : List ℚ} {a : Act β}

/-- Nobody comes to wait while whoever enters finds the semaphore free. -/
theorem step_free (hw : pool.sem.waiters = []) (hfree : ∀ i, a = .enter i → pool.sem.locked = false)
    (hs : pool.step again now limiter a = some (limiter', pool')) : pool'.sem.waiters = [] := by
  cases a with
  | reserve i =>
    obtain ⟨retries, -, rfl, rfl⟩ := reserve_inv hs
    exact hw
  | enter i =>
    obtain ⟨retries, -, rfl, rfl⟩ := enter_inv hs
    simp only [Semaphore.acquire_free (hfree i rfl), hw]
  | launch i duration answer =>
    obtain ⟨retries, -, -, rfl, rfl⟩ := launch_inv hs
    exact hw
  | finish i =>
    obtain ⟨retries, answer, -, rfl, rfl⟩ := finish_inv hs
    simp only [Semaphore.release_nil hw]

/-- **A step spends its slot**: while nobody waits at the semaphore and whoever comes is let in,
every job that is launched is launched in a slot booked for it. -/
theorem step_paced (h : Paced δ limiter (booked now pool.jobs ++ other) spent)
    (hw : pool.sem.waiters = []) (hfree : ∀ i, a = .enter i → pool.sem.locked = false)
    (hs : pool.step again now limiter a = some (limiter', pool')) :
    Paced δ limiter' (booked now pool'.jobs ++ other) (spent ++ a.launched.map fun _ => now) := by
  cases a with
  | reserve i =>
    obtain ⟨retries, hi, rfl, rfl⟩ := reserve_inv hs
    have hset := booked_set (x := ⟨retries, .paced (acquire limiter now).2⟩) now hi
    simp only [Act.launched, List.map_nil, List.append_nil]
    exact (h.reserve now).perm (hset.symm.append_right other)
  | enter i =>
    obtain ⟨retries, hi, rfl, rfl⟩ := enter_inv hs
    have hset := booked_set (x := ⟨retries, .granted⟩) now hi
    simp only [Semaphore.acquire_free (hfree i rfl), Act.launched, List.map_nil, List.append_nil]
    exact h.perm (((List.perm_cons now).mp hset).symm.append_right other)
  | launch i duration answer =>
    obtain ⟨retries, hi, -, rfl, rfl⟩ := launch_inv hs
    have hset := booked_set (x := ⟨retries, .running (now + duration) answer⟩) now hi
    exact h.spend (hset.symm.append_right other)
  | finish i =>
    obtain ⟨retries, answer, hi, rfl, rfl⟩ := finish_inv hs
    have hset := booked_set (x := Job.answered again retries answer) now hi
    have hslot : (Job.answered again retries answer).phase.slot now = none := by
      unfold Job.answered
      split <;> rfl
    rw [hslot] at hset
    simp only [Semaphore.release_nil hw, Act.launched, List.map_nil, List.append_nil]
    exact h.perm (hset.symm.append_right other)

theorem booked_start (now : ℚ) (concurrency n retries : Nat) :
    booked now (start concurrency n retries : Pool β).jobs = [] := by
  refine List.filterMap_eq_nil_iff.mpr fun job hjob => ?_
  rw [List.eq_of_mem_replicate hjob]
  rfl

theorem paced_new {rate : ℚ} {pacer : Pacer} (hi : pacer.interval = 1 / rate) :
    Paced (1 / rate) (some pacer) [] [] :=
  ⟨pacer, rfl, hi, Ledger.empty _ _⟩

/-- A pool with a permit for every job, at whose semaphore nobody waits. -/
structure Roomy (concurrency : Nat) (pool : Pool β) : Prop where
  sound : Sound concurrency pool
  room : pool.jobs.length ≤ concurrency
  free : pool.sem.waiters = []

variable {concurrency : Nat}

theorem roomy_start {n : Nat} (hroom : n ≤ concurrency) (retries : Nat) :
    Roomy concurrency (start concurrency n retries : Pool β) where
  sound := sound_start concurrency n retries
  room := by rwa [start, List.length_replicate]
  free := rfl

/-- Whoever comes is let in. -/
theorem Roomy.unlocked (h : Roomy concurrency pool)
    (hs : pool.step again now limiter a = some (limiter', pool')) (i : Nat) (ha : a = .enter i) :
    pool.sem.locked = false := by
  subst ha
  obtain ⟨retries, hi, -⟩ := enter_inv hs
  have hlt : holders pool.jobs < pool.jobs.length :=
    List.countP_lt_length_iff.mpr ⟨⟨retries, .paced now⟩, List.mem_of_getElem? hi, rfl⟩
  have hpermits := h.sound.permits
  have hroom := h.room
  exact Semaphore.locked_eq_false.mpr ⟨by omega, h.free⟩

theorem Roomy.step (h : Roomy concurrency pool)
    (hs : pool.step again now limiter a = some (limiter', pool')) : Roomy concurrency pool' where
  sound := h.sound.step hs
  room := (step_length hs).trans_le h.room
  free := step_free h.free (h.unlocked hs) hs

end Slots

end Pool

end Pyscan
