import Pyscan.Application.ProbePool

/-!
# Jobs that are retried

`bounded` runs a job, and runs it again while the answer asks for it and
retries are left. `lastAttempt` is that loop alone, with nobody else in the
pool; `Job.Tracks` says that a job of the pool is on its way to the same end.
What one step of the pool does to one job is `Job.Moves`.
-/

namespace Pyscan

variable {β : Type*}

/-! ## The loop alone -/

section Loop

variable (again : β → Bool) (answer : Nat → β)

/-- The attempt `bounded` stops at, from attempt `n` on. -/
def lastAttempt (n : Nat) : Nat → Nat
  | 0 => n
  | retries + 1 => if again (answer n) then lastAttempt (n + 1) retries else n

/-- The first attempt whose answer stands; infinite when there is none. -/
noncomputable def firstFinal : ℕ∞ :=
  sInf ((fun k : ℕ => (k : ℕ∞)) '' {k | 0 < k ∧ again (answer k) = false})

variable {again answer}

theorem lastAttempt_le (n retries : Nat) : lastAttempt again answer n retries ≤ n + retries := by
  induction retries generalizing n with
  | zero => exact le_rfl
  | succ retries ih =>
    rw [lastAttempt]
    split
    · exact (ih (n + 1)).trans (by omega)
    · omega

/-- The loop looks at nothing but whether to go on. -/
theorem lastAttempt_congr {γ : Type*} {again' : γ → Bool} {answer' : Nat → γ}
    (h : ∀ k, again (answer k) = again' (answer' k)) (n retries : Nat) :
    lastAttempt again answer n retries = lastAttempt again' answer' n retries := by
  induction retries generalizing n with
  | zero => rfl
  | succ retries ih => rw [lastAttempt, lastAttempt, h, ih]

/-- Every answer before the last asked for another attempt. -/
theorem again_of_lt_lastAttempt {n retries k : Nat} (hn : n ≤ k)
    (h : k < lastAttempt again answer n retries) : again (answer k) = true := by
  induction retries generalizing n with
  | zero => exact absurd hn (not_le.mpr h)
  | succ retries ih =>
    rw [lastAttempt] at h
    split at h
    · rcases hn.eq_or_lt with rfl | hlt
      · assumption
      · exact ih hlt h
    · exact absurd hn (not_le.mpr h)

/-- The last answer stands, or the retries are spent. -/
theorem lastAttempt_stops (n retries : Nat) :
    lastAttempt again answer n retries = n + retries ∨
      again (answer (lastAttempt again answer n retries)) = false := by
  induction retries generalizing n with
  | zero => exact .inl rfl
  | succ retries ih =>
    rw [lastAttempt]
    split
    · rcases ih (n + 1) with h | h
      · exact .inl (h.trans (by omega))
      · exact .inr h
    · exact .inr (by simp_all)

theorem le_lastAttempt (n retries : Nat) : n ≤ lastAttempt again answer n retries := by
  induction retries generalizing n with
  | zero => exact le_rfl
  | succ retries ih =>
    rw [lastAttempt]
    split
    · exact (Nat.le_succ n).trans (ih (n + 1))
    · exact le_rfl

/-- **The loop stops at the first answer that stands**, or at the last retry. -/
theorem lastAttempt_eq_min (retries : Nat) :
    (lastAttempt again answer 1 retries : ℕ∞) =
      min (firstFinal again answer) ((retries + 1 : ℕ) : ℕ∞) := by
  have hle : (lastAttempt again answer 1 retries : ℕ∞) ≤ ((retries + 1 : ℕ) : ℕ∞) := by
    exact_mod_cast (lastAttempt_le 1 retries).trans_eq (Nat.add_comm 1 retries)
  have hfirst : (lastAttempt again answer 1 retries : ℕ∞) ≤ firstFinal again answer := by
    apply le_sInf
    rintro _ ⟨k, ⟨hk, hfinal⟩, rfl⟩
    by_contra hlt
    have hlt : k < lastAttempt again answer 1 retries := ENat.natCast_lt_natCast.mp (not_le.mp hlt)
    rw [again_of_lt_lastAttempt hk hlt] at hfinal
    cases hfinal
  apply le_antisymm (le_min hfirst hle)
  have hstops : lastAttempt again answer 1 retries = 1 + retries ∨
      again (answer (lastAttempt again answer 1 retries)) = false := lastAttempt_stops 1 retries
  rcases hstops with h | h
  · rw [h, Nat.add_comm 1]
    exact min_le_right _ _
  · exact (min_le_left _ _).trans (sInf_le ⟨_, ⟨le_lastAttempt 1 retries, h⟩, rfl⟩)

variable (again answer) in
/-- The answer the loop comes back with. -/
def settled (retries : Nat) : β := answer (lastAttempt again answer 1 retries)

variable (again answer) in
/-- `b` is an answer of the first `tries`, and all before it asked for another attempt. -/
def First (tries : Nat) (b : β) : Prop :=
  ∃ k, 1 ≤ k ∧ k ≤ tries ∧ answer k = b ∧ ∀ j, 1 ≤ j → j < k → again (answer j) = true

variable {retries : Nat}

theorem settled_first : First again answer (retries + 1) (settled again answer retries) :=
  ⟨_, le_lastAttempt 1 retries, (lastAttempt_le 1 retries).trans_eq (Nat.add_comm 1 retries), rfl,
    fun _ h1 hj => again_of_lt_lastAttempt h1 hj⟩

/-- Of the answers that stand one is first. -/
theorem First.unique {tries : Nat} {b b' : β} (h : First again answer tries b)
    (h' : First again answer tries b') (hb : again b = false) (hb' : again b' = false) : b = b' := by
  obtain ⟨k, h1, -, rfl, hbefore⟩ := h
  obtain ⟨k', h1', -, rfl, hbefore'⟩ := h'
  rcases Nat.lt_trichotomy k k' with hlt | rfl | hlt
  · rw [hbefore' k h1 hlt] at hb
    cases hb
  · rfl
  · rw [hbefore k' h1' hlt] at hb'
    cases hb'

/-- An answer that does not stand in the end is the last, and none before it did. -/
theorem settled_again (h : again (settled again answer retries) = true) :
    settled again answer retries = answer (retries + 1) ∧
      ∀ k, 1 ≤ k → k ≤ retries + 1 → again (answer k) = true := by
  have hlast : lastAttempt again answer 1 retries = retries + 1 := by
    have hstops : lastAttempt again answer 1 retries = 1 + retries ∨
        again (answer (lastAttempt again answer 1 retries)) = false := lastAttempt_stops 1 retries
    rcases hstops with hlast | hstops
    · omega
    · rw [settled, hstops] at h
      cases h
  refine ⟨by rw [settled, hlast], fun k h1 hk => ?_⟩
  rcases Nat.lt_or_eq_of_le hk with hlt | rfl
  · exact again_of_lt_lastAttempt h1 (hlast ▸ hlt)
  · rwa [settled, hlast] at h

theorem settled_again_iff : again (settled again answer retries) = true ↔
    ∀ k, 1 ≤ k → k ≤ retries + 1 → again (answer k) = true := by
  refine ⟨fun h => (settled_again h).2, fun hall => ?_⟩
  obtain ⟨k, h1, hk, hanswer, -⟩ : First again answer (retries + 1) (settled again answer retries) :=
    settled_first
  rw [← hanswer]
  exact hall k h1 hk

theorem settled_eq {b : β} (hb : again b = false) :
    settled again answer retries = b ↔ First again answer (retries + 1) b := by
  constructor
  · rintro rfl
    exact settled_first
  · intro h
    refine settled_first.unique h (Bool.eq_false_iff.mpr fun hagain => ?_) hb
    obtain ⟨k, h1, hk, rfl, -⟩ := h
    rw [(settled_again hagain).2 k h1 hk] at hb
    cases hb

end Loop

/-! ## What a step does to one job -/

/-- The answer a step launches job `i` with. -/
def Pool.Act.launches : Pool.Act β → Nat → Option β
  | .launch i _ answer, j => if i = j then some answer else none
  | _, _ => none

namespace Job

/-- A step at time `now` takes one job to another; a launch is labelled with its answer. -/
inductive Moves (again : β → Bool) (now : ℚ) : Job β → Option β → Job β → Prop where
  | stay (job : Job β) : Moves again now job none job
  | reserve {retries : Nat} {due : ℚ} (h : now ≤ due) :
      Moves again now ⟨retries, .ready⟩ none ⟨retries, .paced due⟩
  | enter {retries : Nat} : Moves again now ⟨retries, .paced now⟩ none ⟨retries, .granted⟩
  | wait {retries : Nat} : Moves again now ⟨retries, .paced now⟩ none ⟨retries, .queued⟩
  | wake {retries : Nat} : Moves again now ⟨retries, .queued⟩ none ⟨retries, .granted⟩
  | launch {retries : Nat} {duration : ℚ} {answer : β} (h : 0 ≤ duration) :
      Moves again now ⟨retries, .granted⟩ (some answer) ⟨retries, .running (now + duration) answer⟩
  | finish {retries : Nat} {answer : β} :
      Moves again now ⟨retries, .running now answer⟩ none (Job.answered again retries answer)

end Job

section Moves

variable {again : β → Bool} {now : ℚ} {limiter limiter' : Option Pacer} {pool pool' : Pool β}
  {concurrency i j : Nat} {job job' x : Job β}

theorem le_acquire (limiter : Option Pacer) (now : ℚ) : now ≤ (acquire limiter now).2 := by
  cases limiter with
  | none => exact le_rfl
  | some pacer =>
    rw [acquire, pacer.add_reserve_fst]
    exact le_max_right _ _

/-- The job exchanged, or another that stays. -/
theorem getElem?_exchanged {jobs : List (Job β)} (hi : jobs[i]? = some job)
    (hj : (jobs.set i x)[j]? = some job') :
    (j = i ∧ job' = x) ∨ (j ≠ i ∧ jobs[j]? = some job') := by
  obtain ⟨hlt, -⟩ := List.getElem?_eq_some_iff.mp hi
  by_cases h : j = i
  · rw [h, List.getElem?_set_self hlt] at hj
    exact .inl ⟨h, (Option.some.inj hj).symm⟩
  · rw [List.getElem?_set_ne (Ne.symm h)] at hj
    exact .inr ⟨h, hj⟩

/-- **One step, job by job.** -/
theorem Pool.Sound.moves {a : Pool.Act β} (h : Pool.Sound concurrency pool)
    (hs : pool.step again now limiter a = some (limiter', pool')) (hj : pool'.jobs[j]? = some job') :
    ∃ job, pool.jobs[j]? = some job ∧ Job.Moves again now job (a.launches j) job' := by
  cases a with
  | reserve i =>
    obtain ⟨retries, hi, rfl, rfl⟩ := Pool.reserve_inv hs
    rcases getElem?_exchanged hi hj with ⟨rfl, rfl⟩ | ⟨-, hj⟩
    · exact ⟨_, hi, .reserve (le_acquire limiter now)⟩
    · exact ⟨_, hj, .stay _⟩
  | enter i =>
    obtain ⟨retries, hi, rfl, rfl⟩ := Pool.enter_inv hs
    rcases getElem?_exchanged hi hj with ⟨rfl, rfl⟩ | ⟨-, hj⟩
    · refine ⟨_, hi, ?_⟩
      cases (pool.sem.acquire j).2 with
      | true => exact .enter
      | false => exact .wait
    · exact ⟨_, hj, .stay _⟩
  | launch i duration answer =>
    obtain ⟨retries, hi, hduration, rfl, rfl⟩ := Pool.launch_inv hs
    rcases getElem?_exchanged hi hj with ⟨rfl, rfl⟩ | ⟨hne, hj⟩
    · refine ⟨_, hi, ?_⟩
      rw [Pool.Act.launches, if_pos rfl]
      exact .launch hduration
    · refine ⟨_, hj, ?_⟩
      rw [Pool.Act.launches, if_neg (Ne.symm hne)]
      exact .stay _
  | finish i =>
    obtain ⟨retries, answer, hi, rfl, rfl⟩ := Pool.finish_inv hs
    cases hk : pool.sem.release.2 with
    | none =>
      rw [hk] at hj
      rcases getElem?_exchanged hi hj with ⟨rfl, rfl⟩ | ⟨-, hj⟩
      · exact ⟨_, hi, .finish⟩
      · exact ⟨_, hj, .stay _⟩
    | some k =>
      obtain ⟨waiting, hqueued⟩ := Pool.exists_queued
        (h.released (x := Job.answered again retries answer) hi rfl hk)
      have hgrant : Pool.grant (pool.jobs.set i (Job.answered again retries answer)) (some k) =
          (pool.jobs.set i (Job.answered again retries answer)).set k ⟨waiting, .granted⟩ := by
        simp only [Pool.grant, hqueued]
      rw [hk, hgrant] at hj
      rcases getElem?_exchanged hqueued hj with ⟨rfl, rfl⟩ | ⟨-, hj⟩
      · rcases getElem?_exchanged hi hqueued with ⟨-, hwaiting⟩ | ⟨-, hwaiting⟩
        · have hq := (Pool.answered_phase again retries answer).2
          rw [← hwaiting] at hq
          cases hq
        · exact ⟨_, hwaiting, .wake⟩
      · rcases getElem?_exchanged hi hj with ⟨rfl, rfl⟩ | ⟨-, hj⟩
        · exact ⟨_, hi, .finish⟩
        · exact ⟨_, hj, .stay _⟩

end Moves

/-! ## A job is on its way -/

namespace Job

variable {again : β → Bool} {answer : Nat → β} {now : ℚ}

/-- The attempt a job is going to stop at, when it has made `calls` of them. -/
def last (again : β → Bool) (answer : Nat → β) (calls : Nat) (job : Job β) : Nat :=
  match job.phase with
  | .running _ _ => lastAttempt again answer calls job.retries
  | .done _ => calls
  | _ => lastAttempt again answer (calls + 1) job.retries

/-- The job has the answer of its latest attempt, and stops where the loop does. -/
structure Tracks (again : β → Bool) (answer : Nat → β) (retries calls : Nat) (job : Job β) : Prop where
  last : job.last again answer calls = lastAttempt again answer 1 retries
  running : ∀ ends a, job.phase = .running ends a → a = answer calls
  done : ∀ a, job.phase = .done a → a = answer calls

variable {retries calls : Nat} {job job' : Job β}

theorem tracks_start (again : β → Bool) (answer : Nat → β) (retries : Nat) :
    Tracks again answer retries 0 ⟨retries, .ready⟩ :=
  ⟨rfl, fun _ _ => nofun, fun _ => nofun⟩

/-- **Each step keeps a job on its way**, when it launches the job with its next answer. -/
theorem Tracks.move {launched : Option β} (h : Tracks again answer retries calls job)
    (hm : Moves again now job launched job')
    (hanswer : ∀ a, launched = some a → a = answer (calls + 1)) :
    Tracks again answer retries (calls + launched.toList.length) job' := by
  have hlast := h.last
  cases hm with
  | stay => exact h
  | reserve => exact ⟨hlast, fun _ _ => nofun, fun _ => nofun⟩
  | enter => exact ⟨hlast, fun _ _ => nofun, fun _ => nofun⟩
  | wait => exact ⟨hlast, fun _ _ => nofun, fun _ => nofun⟩
  | wake => exact ⟨hlast, fun _ _ => nofun, fun _ => nofun⟩
  | launch =>
    refine ⟨hlast, ?_, fun _ => nofun⟩
    rintro _ _ ⟨⟩
    exact hanswer _ rfl
  | @finish left a =>
    obtain rfl := h.running _ _ rfl
    change lastAttempt again answer calls left = _ at hlast
    change Tracks again answer retries calls _
    unfold Job.answered
    cases left with
    | zero =>
      rw [if_neg (by simp)]
      refine ⟨hlast, fun _ _ => nofun, ?_⟩
      rintro _ ⟨⟩
      rfl
    | succ left =>
      rw [lastAttempt] at hlast
      by_cases ha : again (answer calls) = true
      · rw [if_pos ha] at hlast
        rw [if_pos ⟨ha, left.succ_pos⟩]
        exact ⟨hlast, fun _ _ => nofun, fun _ => nofun⟩
      · rw [if_neg ha] at hlast
        rw [if_neg fun h => ha h.1]
        refine ⟨hlast, fun _ _ => nofun, ?_⟩
        rintro _ ⟨⟩
        rfl

/-- A job that is done has made the attempts of the loop, and holds the answer to the last. -/
theorem Tracks.finished {left : Nat} {a : β} (h : Tracks again answer retries calls ⟨left, .done a⟩) :
    calls = lastAttempt again answer 1 retries ∧ a = answer calls :=
  ⟨h.last, h.done a rfl⟩

end Job

/-! ## A pool gets done -/

/-- How many steps a phase is away from its end. -/
def Phase.distance : Phase β → Nat
  | .ready => 5
  | .paced _ => 4
  | .queued => 3
  | .granted => 2
  | .running _ _ => 1
  | .done _ => 0

def Job.work (job : Job β) : Nat := 5 * job.retries + job.phase.distance

namespace Pool

/-- The steps that are left to do, at most. -/
def work (pool : Pool β) : Nat := (pool.jobs.map Job.work).sum

/-- No timer has been missed. -/
def Timely (now : ℚ) (pool : Pool β) : Prop :=
  ∀ job ∈ pool.jobs, ∀ t, job.phase.timer = some t → now ≤ t

variable {again : β → Bool} {now : ℚ} {limiter limiter' : Option Pacer} {pool pool' : Pool β}
  {concurrency i : Nat} {job x : Job β}

theorem Timely.step {a : Act β} (h : Timely now pool) (hsound : Sound concurrency pool)
    (hs : pool.step again now limiter a = some (limiter', pool')) : Timely now pool' := by
  intro job' hjob'
  obtain ⟨j, hj⟩ := List.getElem?_of_mem hjob'
  obtain ⟨job, hjob, hm⟩ := hsound.moves hs hj
  have hold := h job (List.mem_of_getElem? hjob)
  generalize a.launches j = launched at hm
  cases hm with
  | stay => exact hold
  | reserve hdue =>
    rintro _ ⟨⟩
    exact hdue
  | launch hduration =>
    rintro _ ⟨⟩
    exact le_add_of_nonneg_right hduration
  | finish =>
    unfold Job.answered
    split <;> exact fun _ => nofun
  | _ => exact fun _ => nofun

theorem Timely.tick {t : ℚ} (h : pool.idleUntil t = true) : Timely t pool := by
  intro job hjob u hu
  have hidle := List.all_eq_true.mp h job hjob
  rw [Phase.waitsUntil, hu, Bool.and_eq_true] at hidle
  exact of_decide_eq_true hidle.2

theorem work_set {sem : Semaphore} (hi : pool.jobs[i]? = some job) (hlt : x.work < job.work) :
    work ⟨sem, pool.jobs.set i x⟩ < pool.work := by
  have hset := sum_map_set Job.work hi x
  simp only [work]
  omega

theorem work_grant {sem : Semaphore} {jobs : List (Job β)} {waiter : Option Nat}
    (h : ∀ j, waiter = some j → queuedAt jobs j = true) :
    work ⟨sem, grant jobs waiter⟩ ≤ work ⟨sem, jobs⟩ := by
  cases waiter with
  | none => exact le_rfl
  | some j =>
    obtain ⟨retries, hj⟩ := exists_queued (h j rfl)
    simp only [grant, hj]
    have hset := sum_map_set Job.work hj (⟨retries, .granted⟩ : Job β)
    have hlt : Job.work (⟨retries, .granted⟩ : Job β) < Job.work (⟨retries, .queued⟩ : Job β) := by
      simp [Job.work, Phase.distance]
    simp only [work]
    omega

theorem answered_work (again : β → Bool) (retries : Nat) (ends : ℚ) (answer : β) :
    (Job.answered again retries answer).work < Job.work ⟨retries, .running ends answer⟩ := by
  unfold Job.answered
  split
  · simp only [Job.work, Phase.distance]
    omega
  · simp [Job.work, Phase.distance]

/-- Whatever step is taken, it leaves less to do. -/
theorem Sound.work_step {a : Act β} (h : Sound concurrency pool)
    (hs : pool.step again now limiter a = some (limiter', pool')) : pool'.work < pool.work := by
  cases a with
  | reserve i =>
    obtain ⟨retries, hi, -, rfl⟩ := reserve_inv hs
    exact work_set hi (by simp [Job.work, Phase.distance])
  | enter i =>
    obtain ⟨retries, hi, -, rfl⟩ := enter_inv hs
    refine work_set hi ?_
    cases (pool.sem.acquire i).2 <;> simp [Job.work, Phase.distance]
  | launch i duration answer =>
    obtain ⟨retries, hi, -, -, rfl⟩ := launch_inv hs
    exact work_set hi (by simp [Job.work, Phase.distance])
  | finish i =>
    obtain ⟨retries, answer, hi, -, rfl⟩ := finish_inv hs
    refine (work_grant fun j hj => h.released hi rfl hj).trans_lt ?_
    exact work_set hi (answered_work again retries now answer)

/-- **A job that can go on does**, and leaves less to do; how long it runs and what it answers is
free to choose. -/
theorem Sound.exists_step_lasting (h : Sound concurrency pool) (again : β → Bool)
    (limiter : Option Pacer) (answer : Nat → β) {duration : Nat → ℚ} (hduration : ∀ i, 0 ≤ duration i)
    (hi : pool.jobs[i]? = some job) (hgo : job.phase.runnable = true ∨ job.phase.timer = some now) :
    ∃ a r, pool.step again now limiter a = some r ∧
      (∀ j d x, a = .launch j d x → d = duration j ∧ x = answer j) ∧ r.2.work < pool.work := by
  suffices hstep : ∃ a r, pool.step again now limiter a = some r ∧
      ∀ j d x, a = .launch j d x → d = duration j ∧ x = answer j by
    obtain ⟨a, r, hs, hlaunch⟩ := hstep
    exact ⟨a, r, hs, hlaunch, h.work_step hs⟩
  obtain ⟨retries, phase⟩ := job
  cases phase with
  | ready =>
    have hs : pool.step again now limiter (.reserve i) = some ((acquire limiter now).1,
        ⟨pool.sem, pool.jobs.set i ⟨retries, .paced (acquire limiter now).2⟩⟩) := by
      simp only [Pool.step, hi]
    exact ⟨_, _, hs, fun _ _ _ hlaunch => by cases hlaunch⟩
  | paced due =>
    obtain rfl : due = now := by simpa [Phase.runnable, Phase.timer] using hgo
    have hs : pool.step again due limiter (.enter i) = some (limiter, ⟨(pool.sem.acquire i).1,
        pool.jobs.set i ⟨retries, if (pool.sem.acquire i).2 then .granted else .queued⟩⟩) := by
      simp only [Pool.step, hi, if_pos]
    exact ⟨_, _, hs, fun _ _ _ hlaunch => by cases hlaunch⟩
  | queued => simp [Phase.runnable, Phase.timer] at hgo
  | granted =>
    have hs : pool.step again now limiter (.launch i (duration i) (answer i)) = some (limiter,
        ⟨pool.sem, pool.jobs.set i ⟨retries, .running (now + duration i) (answer i)⟩⟩) := by
      simp only [Pool.step, hi, if_pos (hduration i)]
    refine ⟨_, _, hs, ?_⟩
    rintro j d x ⟨⟩
    exact ⟨rfl, rfl⟩
  | running ends a =>
    obtain rfl : ends = now := by simpa [Phase.runnable, Phase.timer] using hgo
    have hs : pool.step again ends limiter (.finish i) = some (limiter, ⟨pool.sem.release.1,
        grant (pool.jobs.set i (Job.answered again retries a)) pool.sem.release.2⟩) := by
      simp only [Pool.step, hi, if_pos]
    exact ⟨_, _, hs, fun _ _ _ hlaunch => by cases hlaunch⟩
  | done a => simp [Phase.runnable, Phase.timer] at hgo

/-- A job that can go on does, at once. -/
theorem Sound.exists_step (h : Sound concurrency pool) (again : β → Bool) (limiter : Option Pacer)
    (answer : Nat → β) (hi : pool.jobs[i]? = some job)
    (hgo : job.phase.runnable = true ∨ job.phase.timer = some now) :
    ∃ a r, pool.step again now limiter a = some r ∧
      (∀ j x, a.launches j = some x → x = answer j) ∧ r.2.work < pool.work := by
  obtain ⟨a, r, hs, hlaunch, hwork⟩ :=
    h.exists_step_lasting again limiter answer (fun _ => le_refl 0) hi hgo
  refine ⟨a, r, hs, fun j x hx => ?_, hwork⟩
  cases a with
  | launch i duration y =>
    simp only [Act.launches] at hx
    split at hx
    · rename_i hj
      rw [← hj, ← (hlaunch i duration y rfl).2]
      exact (Option.some.inj hx).symm
    · cases hx
  | _ => cases hx

theorem answers_eq_some {answers : List β} :
    pool.answers = some answers ↔ pool.jobs.map Job.phase = answers.map .done := by
  unfold Pool.answers
  generalize pool.jobs = jobs
  induction jobs generalizing answers with
  | nil => cases answers <;> simp
  | cons job jobs ih =>
    obtain ⟨retries, phase⟩ := job
    cases answers <;> cases phase <;>
      simp [List.mapM_cons, Option.bind_eq_some_iff, ih, and_comm]

theorem exists_answers (h : ∀ job ∈ pool.jobs, ∃ a, job.phase = .done a) :
    ∃ answers, pool.answers = some answers := by
  simp only [answers_eq_some]
  generalize pool.jobs = jobs at h
  induction jobs with
  | nil => exact ⟨[], rfl⟩
  | cons job jobs ih =>
    obtain ⟨a, ha⟩ := h job List.mem_cons_self
    obtain ⟨answers, hrest⟩ := ih fun job hjob => h job (List.mem_cons_of_mem _ hjob)
    exact ⟨a :: answers, by rw [List.map_cons, List.map_cons, ha, hrest]⟩

/-- While jobs are open and none can go on at once, some timer is set: a job that waits for the
semaphore waits for one that runs. -/
theorem Sound.exists_timer (h : Sound concurrency pool) (hc : 1 ≤ concurrency)
    (hopen : pool.answers = none) (hidle : ∀ job ∈ pool.jobs, job.phase.runnable = false) :
    ∃ job ∈ pool.jobs, ∃ t, job.phase.timer = some t := by
  by_contra hnone
  have hrest : ∀ job ∈ pool.jobs, job.phase = .queued ∨ ∃ a, job.phase = .done a := by
    intro job hjob
    have hrun := hidle job hjob
    have htimer : ∀ t, job.phase.timer ≠ some t := fun t ht => hnone ⟨job, hjob, t, ht⟩
    cases hphase : job.phase with
    | queued => exact .inl rfl
    | done a => exact .inr ⟨a, rfl⟩
    | ready => simp [hphase, Phase.runnable] at hrun
    | granted => simp [hphase, Phase.runnable] at hrun
    | paced due => exact absurd (by rw [hphase]; rfl) (htimer due)
    | running ends a => exact absurd (by rw [hphase]; rfl) (htimer ends)
  have hholders : holders pool.jobs = 0 := by
    refine List.countP_eq_zero.mpr fun job hjob => ?_
    rcases hrest job hjob with hq | ⟨a, hd⟩
    · simp [hq, Phase.holds]
    · simp [hd, Phase.holds]
  have hfree : pool.sem.waiters = [] := by
    by_contra hw
    have hpermits := h.permits
    have hfull := h.full hw
    omega
  have hdone : ∀ job ∈ pool.jobs, ∃ a, job.phase = .done a := by
    intro job hjob
    rcases hrest job hjob with hq | hd
    · obtain ⟨j, hj⟩ := List.getElem?_of_mem hjob
      have hwait := (h.waits j).mpr (by rw [queuedAt_of hj, hq]; rfl)
      rw [hfree] at hwait
      cases hwait
    · exact hd
  obtain ⟨answers, hanswers⟩ := exists_answers hdone
  rw [hanswers] at hopen
  cases hopen

/-- **Or time passes** to the first timer that is set. -/
theorem Sound.exists_tick (h : Sound concurrency pool) (hc : 1 ≤ concurrency)
    (hopen : pool.answers = none) (htimely : Timely now pool)
    (hstuck : ∀ job ∈ pool.jobs, job.phase.runnable = false ∧ job.phase.timer ≠ some now) :
    ∃ t, now < t ∧ pool.idleUntil t = true ∧ ∃ job ∈ pool.jobs, job.phase.timer = some t := by
  obtain ⟨job, hjob, t, ht⟩ := h.exists_timer hc hopen fun job hjob => (hstuck job hjob).1
  have hne : pool.jobs.filterMap (fun job => job.phase.timer) ≠ [] :=
    List.ne_nil_of_mem (List.mem_filterMap.mpr ⟨job, hjob, ht⟩)
  obtain ⟨first, hfirst⟩ := Option.isSome_iff_exists.mp (List.isSome_min?_of_ne_nil hne)
  obtain ⟨hmem, hmin⟩ := List.min?_eq_some_iff.mp hfirst
  obtain ⟨due, hdue, hset⟩ := List.mem_filterMap.mp hmem
  refine ⟨first, lt_of_le_of_ne (htimely due hdue first hset) ?_, ?_, due, hdue, hset⟩
  · rintro rfl
    exact (hstuck due hdue).2 hset
  · refine List.all_eq_true.mpr fun job hjob => ?_
    rw [Phase.waitsUntil, (hstuck job hjob).1, Bool.not_false, Bool.true_and]
    cases htimer : job.phase.timer with
    | none => rfl
    | some u => exact decide_eq_true (hmin u (List.mem_filterMap.mpr ⟨job, hjob, htimer⟩))

end Pool

end Pyscan
