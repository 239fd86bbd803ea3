import Pyscan.Application.ScanService

/-!
# How far apart probes start

The rate gate of `scan_host` stands in front of the concurrency semaphore. A
probe that finds the semaphore free starts in its slot (`OnTime`); one that has
to wait starts when a permit comes back, whatever the slots say. Calls
therefore stay a slot apart in every run of a scan exactly when no second probe
can come to wait: with a permit for every port, or for every port but one and
no retries (`max_rate_spacing`).
-/

namespace Pyscan

open Py Spacing Lts

/-- Before the semaphore. -/
def Phase.early {β : Type*} : Phase β → Bool
  | .ready | .paced _ => true
  | _ => false

/-- At the semaphore, or just let in. -/
def Phase.pending {β : Type*} : Phase β → Bool
  | .queued | .granted => true
  | _ => false

/-- How many jobs are at the semaphore, or just let in. -/
def Pool.pending {β : Type*} (jobs : List (Job β)) : Nat := jobs.countP fun job => job.phase.pending

namespace ScanHost

variable {s s' : ScanHost} {δ : ℚ} {concurrency ports : Nat}

/-! ## One probe may wait -/

/-- All calls but at most one have been made, and the last may be made from now on. -/
structure LastOne (δ : ℚ) (s : ScanHost) : Prop where
  spaced : Spaced δ (s.calls.map Prod.fst)
  late : ∀ job ∈ s.pool.jobs, job.phase.early = false
  one : Pool.pending s.pool.jobs ≤ 1
  room : Pool.pending s.pool.jobs ≠ 0 → ∀ t ∈ s.calls.map Prod.fst, t + δ ≤ s.now

theorem LastOne.step {a : Act} (h : LastOne δ s) (hsound : s.pool.Sound concurrency)
    (hfinal : ∀ job ∈ s.pool.jobs, job.retries = 0) (hs : system.step s a = some s') :
    LastOne δ s' := by
  cases a with
  | tick t =>
    obtain ⟨hlt, -, rfl⟩ := tick_inv hs
    exact ⟨h.spaced, h.late, h.one, fun hne u hu => (h.room hne u hu).trans hlt.le⟩
  | probe a =>
    obtain ⟨hstep, hnow, hcalls⟩ := probe_inv hs
    obtain ⟨now', limiter', pool', calls'⟩ := s'
    obtain rfl : now' = s.now := hnow
    obtain rfl : calls' = _ := hcalls
    have hlate : ∀ {i : Nat} {job : Job PortResult}, s.pool.jobs[i]? = some job →
        job.phase.early = false := fun hi => h.late _ (List.mem_of_getElem? hi)
    cases a with
    | reserve i =>
      obtain ⟨retries, hi, -⟩ := Pool.reserve_inv hstep
      cases hlate hi
    | enter i =>
      obtain ⟨retries, hi, -⟩ := Pool.enter_inv hstep
      cases hlate hi
    | launch i duration answer =>
      obtain ⟨retries, hi, -, rfl, rfl⟩ := Pool.launch_inv hstep
      have hcount : Pool.pending (s.pool.jobs.set i ⟨retries, .running (s.now + duration) answer⟩) +
          1 = Pool.pending s.pool.jobs := countP_set _ hi _
      have hone := h.one
      refine ⟨?_, forall_set h.late rfl, by dsimp only; omega,
        fun hne => absurd (by dsimp only; omega) hne⟩
      -- the last call: every other one was made a slot ago
      have hroom := h.room (by omega)
      simp only [Pool.Act.launched, List.map_append, List.map_cons, List.map_nil]
      refine List.pairwise_append.mpr ⟨h.spaced, List.pairwise_singleton _ _, fun t ht u hu => ?_⟩
      rw [List.mem_singleton.mp hu]
      exact (apart_of_add_le (hroom t ht)).symm
    | finish i =>
      obtain ⟨retries, answer, hi, rfl, rfl⟩ := Pool.finish_inv hstep
      obtain rfl : retries = 0 := hfinal _ (List.mem_of_getElem? hi)
      have hcount : Pool.pending (s.pool.jobs.set i ⟨0, .done answer⟩) + 0 =
          Pool.pending s.pool.jobs + 0 := countP_set _ hi _
      have hgrant := Pool.countP_grant (p := fun job => job.phase.pending) (fun _ => rfl)
        fun j hj => hsound.released (x := ⟨0, .done answer⟩) hi rfl hj
      have hsame := hgrant.trans (Nat.add_right_cancel hcount)
      rw [Pool.answered_zero]
      simp only [Pool.Act.launched, List.map_nil, List.append_nil]
      exact ⟨h.spaced, Pool.forall_grant (forall_set h.late rfl) (fun _ _ => rfl) _,
        hsame.le.trans h.one, fun hne => h.room (hsame ▸ hne)⟩

section Last

variable {rest : List (Job PortResult)} {retries : Nat}

/-- At a locked semaphore with permits for all but one, everyone else has a permit. -/
theorem others_hold (hsteady : Steady concurrency (concurrency + 1) s)
    (hfree : s.pool.sem.waiters = []) (hlocked : s.pool.sem.locked = true)
    (hjobs : s.pool.jobs.Perm (⟨retries, .paced s.now⟩ :: rest)) :
    ∀ job ∈ rest, job.phase.holds = true := by
  have hzero : s.pool.sem.value = 0 :=
    (of_decide_eq_true hlocked).resolve_right (not_not_intro hfree)
  have hpermits := hsteady.sound.permits
  have hlength := hjobs.length_eq.symm.trans hsteady.length
  have hcount : Pool.holders s.pool.jobs = Pool.holders rest :=
    (hjobs.countP_eq _).trans (List.countP_cons_of_neg (by simp [Phase.holds]))
  apply List.countP_eq_length.mp
  rw [List.length_cons] at hlength
  rw [hzero, hcount] at hpermits
  unfold Pool.holders at hpermits
  omega

/-- A probe whose slot has come is a slot apart from all others and from every call. -/
theorem OnTime.apart (h : OnTime δ s) (hjobs : s.pool.jobs.Perm (⟨retries, .paced s.now⟩ :: rest)) :
    ∀ t ∈ Pool.booked s.now rest ++ s.calls.map Prod.fst, Apart δ s.now t := by
  have hbooked : (Pool.booked s.now s.pool.jobs).Perm (s.now :: Pool.booked s.now rest) :=
    (hjobs.filterMap _).trans (List.Perm.of_eq (Pool.booked_cons _ rest))
  obtain ⟨pacer, -, -, hled⟩ := h.paced.perm hbooked
  exact fun t ht => List.rel_of_pairwise_cons hled.spaced ht

/-- Whoever has a permit when another probe's slot comes is running. -/
theorem OnTime.others_run (h : OnTime δ s) (hδ : 0 < δ)
    (hjobs : s.pool.jobs.Perm (⟨retries, .paced s.now⟩ :: rest))
    (hheld : ∀ job ∈ rest, job.phase.holds = true) :
    ∀ job ∈ rest, job.phase.early = false ∧ job.phase.pending = false := by
  intro job hjob
  have hheld := hheld job hjob
  cases hphase : job.phase with
  | running ends answer => exact ⟨rfl, rfl⟩
  | granted =>
    -- a second probe in the same slot
    have hmem : s.now ∈ Pool.booked s.now rest :=
      List.mem_filterMap.mpr ⟨job, hjob, by rw [hphase]; rfl⟩
    have hapart := h.apart hjobs s.now (List.mem_append_left _ hmem)
    rw [Apart, sub_self, abs_zero] at hapart
    exact absurd hδ (not_lt.mpr hapart)
  | _ => rw [hphase] at hheld; cases hheld

end Last

/-- The first probe to find the semaphore locked is the last one left, when all but one have a
permit: its slot has come, so every call was made a slot ago. -/
theorem OnTime.last (h : OnTime δ s) (hδ : 0 < δ) (hsteady : Steady concurrency (concurrency + 1) s)
    (hlocked : s.pool.sem.locked = true) {i : Nat}
    (hs : system.step s (.probe (.enter i)) = some s') : LastOne δ s' := by
  obtain ⟨hstep, hnow, hcalls⟩ := probe_inv hs
  obtain ⟨retries, hi, hlimiter, hpool⟩ := Pool.enter_inv hstep
  rw [Semaphore.acquire_locked hlocked] at hpool
  obtain ⟨now', limiter', pool', calls'⟩ := s'
  obtain rfl : now' = s.now := hnow
  obtain rfl : calls' = s.calls := hcalls.trans (List.append_nil _)
  obtain rfl : limiter' = s.limiter := hlimiter
  obtain rfl : pool' = _ := hpool
  obtain ⟨rest, hjobs, hset⟩ := exists_perm_set hi
  have hrunning := h.others_run hδ hjobs (others_hold hsteady h.free hlocked hjobs)
  have hpending : Pool.pending (s.pool.jobs.set i ⟨retries, .queued⟩) = 1 := by
    have hnone : Pool.pending rest = 0 := List.countP_eq_zero.mpr fun job hjob => by
      simp [(hrunning job hjob).2]
    refine ((hset ⟨retries, .queued⟩).countP_eq _).trans ?_
    exact (List.countP_cons_of_pos rfl).trans (congrArg (· + 1) hnone)
  refine ⟨h.paced.spaced, fun job hjob => ?_, hpending.le, fun _ t ht => ?_⟩
  · rcases List.mem_cons.mp ((hset _).mem_iff.mp hjob) with rfl | hjob
    · rfl
    · exact (hrunning job hjob).1
  · have hapart := h.apart hjobs t (List.mem_append_right _ ht)
    rw [Apart, abs_of_nonneg (sub_nonneg.mpr (hsteady.past t ht))] at hapart
    exact le_sub_iff_add_le'.mp hapart

/-- The state of a scan without retries that has one port more than permits. -/
structure OneOver (δ : ℚ) (concurrency : Nat) (s : ScanHost) : Prop where
  steady : Steady concurrency (concurrency + 1) s
  final : ∀ job ∈ s.pool.jobs, job.retries = 0
  spacing : OnTime δ s ∨ LastOne δ s

theorem OneOver.step {a : Act} (h : OneOver δ concurrency s) (hδ : 0 < δ)
    (hs : system.step s a = some s') : OneOver δ concurrency s' where
  steady := h.steady.step hs
  final := by
    cases a with
    | probe a => exact Pool.step_final h.final (probe_inv hs).1
    | tick t =>
      obtain ⟨-, -, rfl⟩ := tick_inv hs
      exact h.final
  spacing := by
    rcases h.spacing with hon | hlast
    · by_cases hfree : Unblocked s a
      · exact .inl (hon.step hfree hs)
      · simp only [Unblocked, not_forall] at hfree
        obtain ⟨i, rfl, hlocked⟩ := hfree
        exact .inr (hon.last hδ h.steady (Bool.of_not_eq_false hlocked) hs)
    · exact .inr (hlast.step h.steady.sound h.final hs)

/-! ## Two probes that wait -/

section Schedules

/-- A state of the scan of `n` ports, its jobs given by their numbers. -/
def snapshot (hδ : 0 < δ) (n : Nat) (next now : ℚ) (value : Nat) (waiters : List Nat)
    (f : Nat → Job PortResult) (calls : List (ℚ × Nat)) : ScanHost where
  now := now
  limiter := some ⟨δ, next, hδ⟩
  pool := ⟨⟨value, waiters⟩, (List.range n).map f⟩
  calls := calls

theorem set_map_range {α : Type} (f : Nat → α) (n i : Nat) (x : α) :
    ((List.range n).map f).set i x = (List.range n).map (Function.update f i x) := by
  refine List.ext_getElem (by simp) fun j hj hj' => ?_
  rw [List.getElem_set, List.getElem_map, List.getElem_map, List.getElem_range, Function.update_apply]
  by_cases h : i = j
  · rw [if_pos h, if_pos h.symm]
  · rw [if_neg h, if_neg (Ne.symm h)]

theorem getElem?_map_range {α : Type} (f : Nat → α) {n i : Nat} (h : i < n) :
    ((List.range n).map f)[i]? = some (f i) := by
  rw [List.getElem?_map, List.getElem?_range h, Option.map_some]

variable (hδ : 0 < δ) {n : Nat} {next now : ℚ} {value : Nat} {waiters : List Nat}
  {f : Nat → Job PortResult} {calls : List (ℚ × Nat)} {i k retries retries' : Nat}
  {answer : PortResult}

theorem acquire_due (hnow : now ≤ next) :
    acquire (some ⟨δ, next, hδ⟩) now = (some ⟨δ, next + δ, hδ⟩, next) := by
  have hslot : (if next > now then next else now) = next := by
    rcases hnow.lt_or_eq with h | h
    · exact if_pos h
    · rw [h, ite_self]
  simp only [acquire, Pacer.reserve, hslot, add_sub_cancel]

theorem snapshot_reserve (hi : i < n) (hf : f i = ⟨retries, .ready⟩) (hnow : now ≤ next) :
    system.step (snapshot hδ n next now value waiters f calls) (.probe (.reserve i)) =
      some (snapshot hδ n (next + δ) now value waiters
        (Function.update f i ⟨retries, .paced next⟩) calls) := by
  simp only [system, step, snapshot, Pool.step, getElem?_map_range f hi, hf, set_map_range,
    acquire_due hδ hnow, Option.map_some, Pool.Act.launched, List.map_nil, List.append_nil]

theorem snapshot_enter_free (hi : i < n) (hf : f i = ⟨retries, .paced now⟩) :
    system.step (snapshot hδ n next now (value + 1) [] f calls) (.probe (.enter i)) =
      some (snapshot hδ n next now value [] (Function.update f i ⟨retries, .granted⟩) calls) := by
  have hfree : (⟨value + 1, []⟩ : Semaphore).acquire i = (⟨value, []⟩, true) :=
    Semaphore.acquire_free rfl
  simp only [system, step, snapshot, Pool.step, getElem?_map_range f hi, hf, set_map_range, hfree,
    if_true, Option.map_some, Pool.Act.launched, List.map_nil, List.append_nil]

theorem snapshot_enter_locked (hi : i < n) (hf : f i = ⟨retries, .paced now⟩) :
    system.step (snapshot hδ n next now 0 waiters f calls) (.probe (.enter i)) =
      some (snapshot hδ n next now 0 (waiters ++ [i])
        (Function.update f i ⟨retries, .queued⟩) calls) := by
  have hlocked : (⟨0, waiters⟩ : Semaphore).acquire i = (⟨0, waiters ++ [i]⟩, false) :=
    Semaphore.acquire_locked (by simp [Semaphore.locked])
  simp only [system, step, snapshot, Pool.step, getElem?_map_range f hi, hf, set_map_range, hlocked,
    if_true, Bool.false_eq_true, if_false, Option.map_some, Pool.Act.launched, List.map_nil,
    List.append_nil]

theorem snapshot_launch (hi : i < n) (hf : f i = ⟨retries, .granted⟩) {duration : ℚ}
    (hd : 0 ≤ duration) :
    system.step (snapshot hδ n next now value waiters f calls)
        (.probe (.launch i duration answer)) =
      some (snapshot hδ n next now value waiters
        (Function.update f i ⟨retries, .running (now + duration) answer⟩) (calls ++ [(now, i)])) := by
  simp only [system, step, snapshot, Pool.step, getElem?_map_range f hi, hf, set_map_range,
    if_pos hd, Option.map_some, Pool.Act.launched, List.map_cons, List.map_nil]

theorem snapshot_finish (hi : i < n) (hk : k < n) (hne : k ≠ i)
    (hf : f i = ⟨retries, .running now answer⟩) (hfk : f k = ⟨retries', .queued⟩) :
    system.step (snapshot hδ n next now value (k :: waiters) f calls) (.probe (.finish i)) =
      some (snapshot hδ n next now value waiters
        (Function.update (Function.update f i (Job.answered inconclusive retries answer)) k
          ⟨retries', .granted⟩) calls) := by
  have hrelease : (⟨value, k :: waiters⟩ : Semaphore).release = (⟨value, waiters⟩, some k) :=
    Semaphore.release_cons rfl
  simp only [system, step, snapshot, Pool.step, getElem?_map_range f hi, hf, set_map_range, hrelease,
    if_true, Option.map_some, Pool.Act.launched, List.map_nil, List.append_nil, Pool.grant,
    getElem?_map_range _ hk, Function.update_of_ne hne, hfk]

theorem snapshot_tick {t : ℚ} (ht : now < t) (hidle : ∀ j < n, (f j).phase.waitsUntil t = true) :
    system.step (snapshot hδ n next now value waiters f calls) (.tick t) =
      some (snapshot hδ n next t value waiters f calls) := by
  refine if_pos ⟨ht, List.all_eq_true.mpr fun job hjob => ?_⟩
  obtain ⟨j, hj, rfl⟩ := List.mem_map.mp hjob
  exact hidle j (List.mem_range.mp hj)

/-! The schedule: every job reserves its slot at once, the first `concurrency` jobs start in
theirs and keep their permits until slot `concurrency + 1` (job 0) or longer. -/

/-- The first `k` jobs have their slots. -/
def reserved (δ now : ℚ) (retries k : Nat) (i : Nat) : Job PortResult :=
  if i < k then ⟨retries, .paced (now + i * δ)⟩ else ⟨retries, .ready⟩

def endOf (δ now : ℚ) (concurrency i : Nat) : ℚ :=
  if i = 0 then now + (concurrency + 1) * δ else now + (concurrency + 2) * δ

/-- The first `k` jobs run. -/
def underway (δ now : ℚ) (concurrency retries : Nat) (answer : PortResult) (k i : Nat) :
    Job PortResult :=
  if i < k then ⟨retries, .running (endOf δ now concurrency i) answer⟩
  else ⟨retries, .paced (now + i * δ)⟩

theorem exec_reserve (concurrency : Nat) (now : ℚ) (retries : Nat) {k : Nat} (hk : k ≤ n) :
    system.exec (snapshot hδ n now now concurrency [] (reserved δ now retries 0) [])
        ((List.range k).map fun i => .probe (.reserve i)) =
      some (snapshot hδ n (now + k * δ) now concurrency [] (reserved δ now retries k) []) := by
  induction k with
  | zero =>
    rw [Nat.cast_zero, zero_mul, add_zero]
    rfl
  | succ k ih =>
    rw [List.range_succ, List.map_append]
    apply System.exec_append (ih (by omega))
    have hnext : now ≤ now + k * δ := le_add_of_nonneg_right (by positivity)
    have hf : reserved δ now retries k k = ⟨retries, .ready⟩ := if_neg (by omega)
    apply (System.exec_cons (snapshot_reserve hδ (by omega) hf hnext)).trans
    have hupdate : Function.update (reserved δ now retries k) k ⟨retries, .paced (now + k * δ)⟩ =
        reserved δ now retries (k + 1) := by
      funext i
      rw [Function.update_apply, reserved, reserved]
      by_cases hi : i = k
      · rw [if_pos hi, hi, if_pos (by omega)]
      · rw [if_neg hi]
        exact if_congr (by omega) rfl rfl
    rw [hupdate, List.map_nil, System.exec_nil, add_assoc, ← add_one_mul, ← Nat.cast_add_one]

include hδ in
theorem slot_le {j k : Nat} (h : j ≤ k) : now + j * δ ≤ now + k * δ :=
  add_le_add_right (mul_le_mul_of_nonneg_right (Nat.cast_le.mpr h) hδ.le) now

include hδ in
theorem le_endOf (i : Nat) : now + (concurrency + 1 : Nat) * δ ≤ endOf δ now concurrency i := by
  unfold endOf
  split
  · push_cast
    exact le_rfl
  · push_cast
    linarith

theorem exec_launch (next now : ℚ) (retries : Nat) (answer : PortResult) (hn : concurrency ≤ n) {k : Nat}
    (hk : k ≤ concurrency) :
    ∃ acts calls, system.exec (snapshot hδ n next now concurrency []
        (underway δ now concurrency retries answer 0) []) acts =
      some (snapshot hδ n next (now + k * δ) (concurrency - k) []
        (underway δ now concurrency retries answer k) calls) := by
  induction k with
  | zero =>
    refine ⟨[], [], ?_⟩
    rw [Nat.cast_zero, zero_mul, add_zero]
    rfl
  | succ k ih =>
    obtain ⟨acts, calls, hexec⟩ := ih (by omega)
    obtain ⟨free, hvalue⟩ : ∃ free, concurrency - k = free + 1 := ⟨concurrency - (k + 1), by omega⟩
    have hfree : concurrency - (k + 1) = free := by omega
    have hf : underway δ now concurrency retries answer k k = ⟨retries, .paced (now + k * δ)⟩ :=
      if_neg (by omega)
    have hends : now + k * δ ≤ endOf δ now concurrency k :=
      (slot_le hδ (by omega)).trans (le_endOf hδ k)
    have hupdate : Function.update (Function.update (underway δ now concurrency retries answer k) k
        ⟨retries, .granted⟩) k
          ⟨retries, .running (now + k * δ + (endOf δ now concurrency k - (now + k * δ))) answer⟩ =
        underway δ now concurrency retries answer (k + 1) := by
      funext i
      rw [Function.update_idem, Function.update_apply, underway, underway, add_sub_cancel]
      by_cases hi : i = k
      · rw [if_pos hi, hi, if_pos (by omega)]
      · rw [if_neg hi]
        exact if_congr (by omega) rfl rfl
    have hidle : ∀ j < n, (underway δ now concurrency retries answer (k + 1) j).phase.waitsUntil
        (now + (k + 1 : Nat) * δ) = true := by
      intro j _
      unfold underway
      split
      · exact decide_eq_true ((slot_le hδ (by omega)).trans (le_endOf hδ j))
      · exact decide_eq_true (slot_le hδ (by omega))
    have hlt : now + k * δ < now + (k + 1 : Nat) * δ := by
      push_cast
      linarith
    rw [hvalue] at hexec
    refine ⟨acts ++ [.probe (.enter k), .probe (.launch k (endOf δ now concurrency k - (now + k * δ))
      answer), .tick (now + (k + 1 : Nat) * δ)], calls ++ [(now + k * δ, k)],
      System.exec_append hexec ?_⟩
    apply (System.exec_cons (snapshot_enter_free hδ (by omega) hf)).trans
    refine (System.exec_cons (snapshot_launch hδ (by omega) (Function.update_self ..)
      (sub_nonneg.mpr hends))).trans ?_
    rw [hupdate]
    apply (System.exec_cons (snapshot_tick hδ hlt hidle)).trans
    rw [System.exec_nil, hfree]

/-- Two probes that start half a slot apart: job `k` waits for the permit of job `i`. -/
theorem exec_apart (hi : i < n) (hk : k < n) (hne : k ≠ i) (hfi : f i = ⟨retries, .granted⟩)
    (hfk : f k = ⟨retries', .queued⟩)
    (hidle : ∀ j < n, j ≠ i → (f j).phase.waitsUntil (now + δ / 2) = true) (answer : PortResult) :
    ∃ acts s, system.exec (snapshot hδ n next now 0 [k] f calls) acts = some s ∧
      ¬ Spaced δ (s.calls.map Prod.fst) := by
  have hhalf : 0 ≤ δ / 2 := by positivity
  have hidle : ∀ j < n, ((Function.update f i ⟨retries, .running (now + δ / 2) answer⟩) j).phase.waitsUntil
      (now + δ / 2) = true := by
    intro j hj
    rw [Function.update_apply]
    split
    · exact decide_eq_true le_rfl
    · exact hidle j hj ‹_›
  obtain ⟨f', hexec⟩ : ∃ f', system.exec (snapshot hδ n next now 0 [k] f calls)
      [.probe (.launch i (δ / 2) answer), .tick (now + δ / 2), .probe (.finish i),
        .probe (.launch k (δ / 2) answer)] =
      some (snapshot hδ n next (now + δ / 2) 0 [] f'
        (calls ++ [(now, i)] ++ [(now + δ / 2, k)])) := by
    have hqueued : Function.update f i ⟨retries, .running (now + δ / 2) answer⟩ k =
        ⟨retries', .queued⟩ := (Function.update_of_ne hne _ _).trans hfk
    exact ⟨_, System.exec_step (snapshot_launch hδ hi hfi hhalf)
      (System.exec_step (snapshot_tick hδ (by linarith) hidle)
        (System.exec_step (snapshot_finish hδ hi hk hne (Function.update_self ..) hqueued)
          (System.exec_step (snapshot_launch hδ hk (Function.update_self ..) hhalf)
            (System.exec_nil _))))⟩
  refine ⟨_, _, hexec, fun hspaced => ?_⟩
  rw [snapshot, List.map_append, Spaced, List.pairwise_append] at hspaced
  have hapart := hspaced.2.2 now (by simp) (now + δ / 2) (by simp)
  rw [Apart, sub_add_cancel_left, abs_neg, abs_of_nonneg hhalf] at hapart
  linarith

theorem snapshot_congr {g : Nat → Job PortResult} (h : ∀ i < n, f i = g i) :
    snapshot hδ n next now value waiters f calls = snapshot hδ n next now value waiters g calls := by
  have hmap : (List.range n).map f = (List.range n).map g :=
    List.map_congr_left fun i hi => h i (List.mem_range.mp hi)
  rw [snapshot, snapshot, hmap]

/-- The jobs in slot `concurrency + 1`: every permit is out, and job `concurrency` waits for one. -/
def full (δ now : ℚ) (concurrency retries : Nat) (answer : PortResult) : Nat → Job PortResult :=
  Function.update (underway δ now concurrency retries answer concurrency) concurrency
    ⟨retries, .queued⟩

theorem full_waits : full δ now concurrency retries answer concurrency = ⟨retries, .queued⟩ :=
  Function.update_self ..

/-- The first job is about to give its permit back. -/
theorem full_first (hc : concurrency ≠ 0) : full δ now concurrency retries answer 0 =
    ⟨retries, .running (now + (concurrency + 1 : Nat) * δ) answer⟩ := by
  rw [full, Function.update_of_ne hc.symm, underway, if_pos (Nat.pos_of_ne_zero hc), endOf,
    if_pos rfl]
  push_cast
  rfl

theorem full_next : full δ now concurrency retries answer (concurrency + 1) =
    ⟨retries, .paced (now + (concurrency + 1 : Nat) * δ)⟩ := by
  rw [full, Function.update_of_ne (by omega), underway, if_neg (by omega)]

include hδ in
/-- All others go on half a slot later at the earliest. -/
theorem full_later {j : Nat} (h0 : j ≠ 0) (hc : j ≠ concurrency) (hnext : j ≠ concurrency + 1) :
    (full δ now concurrency retries answer j).phase.waitsUntil
      (now + (concurrency + 1 : Nat) * δ + δ / 2) = true := by
  have hslot : now + (concurrency + 1 : Nat) * δ + δ / 2 ≤ now + (concurrency + 2 : Nat) * δ := by
    push_cast
    linarith
  rw [full, Function.update_of_ne hc]
  unfold underway
  split
  · rw [endOf, if_neg h0]
    refine decide_eq_true (hslot.trans ?_)
    push_cast
    exact le_rfl
  · exact decide_eq_true (hslot.trans (slot_le hδ (by omega)))

theorem exec_full (hn : concurrency < n) (now : ℚ) (retries : Nat) (answer : PortResult) :
    ∃ acts calls, system.exec (snapshot hδ n now now concurrency [] (reserved δ now retries 0) []) acts =
      some (snapshot hδ n (now + n * δ) (now + (concurrency + 1 : Nat) * δ) 0 [concurrency]
        (full δ now concurrency retries answer) calls) := by
  have hreserve := exec_reserve hδ concurrency now retries (le_refl n)
  have hall : ∀ i < n, reserved δ now retries n i = underway δ now concurrency retries answer 0 i :=
    fun i hi => if_pos hi
  rw [snapshot_congr hδ hall] at hreserve
  obtain ⟨acts, calls, hlaunch⟩ :=
    exec_launch hδ (now + n * δ) now retries answer hn.le (le_refl concurrency)
  rw [Nat.sub_self] at hlaunch
  have hpaced : underway δ now concurrency retries answer concurrency concurrency =
      ⟨retries, .paced (now + concurrency * δ)⟩ := if_neg (lt_irrefl _)
  have hidle : ∀ j < n, (full δ now concurrency retries answer j).phase.waitsUntil
      (now + (concurrency + 1 : Nat) * δ) = true := by
    intro j _
    rw [full, Function.update_apply]
    split
    · rfl
    · unfold underway
      split
      · exact decide_eq_true (le_endOf hδ j)
      · exact decide_eq_true (slot_le hδ (by omega))
  have hlt : now + concurrency * δ < now + (concurrency + 1 : Nat) * δ := by
    push_cast
    linarith
  exact ⟨_, calls, System.exec_snoc (System.exec_snoc (System.exec_append hreserve hlaunch)
    (snapshot_enter_locked hδ hn hpaced)) (snapshot_tick hδ hlt hidle)⟩

/-- With two ports more than permits, job `concurrency + 1` comes to wait as well, and the first job
is done. -/
theorem exists_apart_over (hc : concurrency ≠ 0) (now : ℚ) (retries : Nat) (hn : concurrency + 2 ≤ n) :
    ∃ acts s, system.exec (snapshot hδ n now now concurrency [] (reserved δ now retries 0) []) acts =
      some s ∧ ¬ Spaced δ (s.calls.map Prod.fst) := by
  obtain ⟨answer, hanswer⟩ : ∃ answer : PortResult, inconclusive answer = false :=
    ⟨{ port := 0, state := .closed }, rfl⟩
  have hdone : Job.answered inconclusive retries answer = ⟨retries, .done answer⟩ :=
    if_neg (by simp [hanswer])
  have hlast : concurrency < n := by omega
  have hnext : concurrency + 1 < n := by omega
  obtain ⟨acts, calls, hfull⟩ := exec_full hδ hlast now retries answer
  have henter := System.exec_snoc hfull (snapshot_enter_locked hδ hnext full_next)
  obtain ⟨g, hg⟩ : ∃ g, g = Function.update (full δ now concurrency retries answer) (concurrency + 1)
    ⟨retries, .queued⟩ := ⟨_, rfl⟩
  have hother : ∀ j, j ≠ concurrency + 1 → g j = full δ now concurrency retries answer j :=
    fun j hj => by rw [hg, Function.update_of_ne hj]
  have hqueued : g (concurrency + 1) = ⟨retries, .queued⟩ := by rw [hg, Function.update_self]
  rw [← hg] at henter
  have hfinish := System.exec_snoc henter (snapshot_finish hδ (by omega : 0 < n) hlast hc
    ((hother 0 (by omega)).trans (full_first hc)) ((hother _ (by omega)).trans full_waits))
  rw [hdone] at hfinish
  obtain ⟨acts', s, hexec, hs⟩ := exec_apart hδ hlast hnext (by omega)
    (f := Function.update (Function.update g 0 ⟨retries, .done answer⟩) concurrency
      ⟨retries, .granted⟩) (Function.update_self ..)
    (by rw [Function.update_of_ne (by omega), Function.update_of_ne (by omega), hqueued])
    (fun j _ hj => by
      rw [Function.update_of_ne hj]
      by_cases h0 : j = 0
      · rw [h0, Function.update_self]
        rfl
      · rw [Function.update_of_ne h0]
        by_cases h1 : j = concurrency + 1
        · rw [h1, hqueued]
          rfl
        · rw [hother j h1]
          exact full_later hδ h0 hj h1) answer
  exact ⟨_, s, System.exec_append hfinish hexec, hs⟩

/-- With one port more than permits and a retry left, the first job has to be repeated, and comes to
wait itself. -/
theorem exists_apart_retry (hc : concurrency ≠ 0) (now : ℚ) {retries : Nat} (hretries : 0 < retries) :
    ∃ acts s, system.exec
        (snapshot hδ (concurrency + 1) now now concurrency [] (reserved δ now retries 0) []) acts =
      some s ∧ ¬ Spaced δ (s.calls.map Prod.fst) := by
  obtain ⟨answer, hanswer⟩ : ∃ answer : PortResult, inconclusive answer = true :=
    ⟨{ port := 0, state := .filtered }, rfl⟩
  have hagain : Job.answered inconclusive retries answer = ⟨retries - 1, .ready⟩ :=
    if_pos ⟨hanswer, hretries⟩
  have hlast : concurrency < concurrency + 1 := by omega
  have hzero : 0 < concurrency + 1 := by omega
  obtain ⟨acts, calls, hfull⟩ := exec_full hδ hlast now retries answer
  have hfinish := System.exec_snoc hfull
    (snapshot_finish hδ hzero hlast hc (full_first hc) full_waits)
  rw [hagain] at hfinish
  obtain ⟨g, hg⟩ : ∃ g, g = Function.update (Function.update
    (full δ now concurrency retries answer) 0 ⟨retries - 1, .ready⟩) concurrency
      ⟨retries, .granted⟩ := ⟨_, rfl⟩
  rw [← hg] at hfinish
  have hready : g 0 = ⟨retries - 1, .ready⟩ := by
    rw [hg, Function.update_of_ne hc.symm, Function.update_self]
  have hreserve := System.exec_snoc hfinish (snapshot_reserve hδ hzero hready (le_refl _))
  have henter := System.exec_snoc hreserve
    (snapshot_enter_locked hδ hzero (Function.update_self ..))
  rw [Function.update_idem, List.nil_append] at henter
  obtain ⟨acts', s, hexec, hs⟩ := exec_apart hδ hlast hzero hc.symm
    (f := Function.update g 0 ⟨retries - 1, .queued⟩)
    (by rw [Function.update_of_ne hc, hg, Function.update_self]) (Function.update_self ..)
    (fun j hj hjc => by
      by_cases h0 : j = 0
      · rw [h0, Function.update_self]
        rfl
      · rw [Function.update_of_ne h0, hg, Function.update_of_ne hjc, Function.update_of_ne h0]
        exact full_later hδ h0 hjc (by omega)) answer
  exact ⟨_, s, System.exec_append henter hexec, hs⟩

/-- With a port too many some schedule starts two probes less than a slot apart: the first job
keeps its permit until slot `concurrency + 1`, and then two probes wait for it. -/
theorem exists_apart (hc : 1 ≤ concurrency) (now : ℚ) (retries : Nat)
    (hover : concurrency + 2 ≤ n ∨ n = concurrency + 1 ∧ 0 < retries) :
    ∃ acts s, system.exec (snapshot hδ n now now concurrency [] (reserved δ now retries 0) []) acts =
      some s ∧ ¬ Spaced δ (s.calls.map Prod.fst) := by
  have hne : concurrency ≠ 0 := by omega
  rcases hover with hover | ⟨rfl, hretries⟩
  · exact exists_apart_over hδ hne now retries hover
  · exact exists_apart_retry hδ hne now hretries

end Schedules

/-! ## Every run of a scan -/

section Runs

variable {r : ℚ}

/-- The scan at its start: every job is ready, and the first slot is now. -/
theorem scanHost_ok (hr : 0 < r) (ports : List Nat) (concurrency : Nat) (retries : Int) (now : ℚ) :
    ∃ pacer : Pacer, pacer.interval = 1 / r ∧ pacer.next = now ∧
      scanHost ports concurrency (some r) retries none now =
        .ok { now, limiter := some pacer
              pool := Pool.start concurrency ports.length retries.toNat } := by
  obtain ⟨pacer, hnew, hinterval, hnext⟩ := Pacer.new_ok hr now
  refine ⟨pacer, hinterval, hnext, ?_⟩
  simp only [scanHost, openLimiter, if_neg hr.ne', hnew, ok_bind]

variable {pacer : Pacer} {n retries : Nat} {now : ℚ}

theorem onTime_start (hinterval : pacer.interval = 1 / r) :
    OnTime (1 / r) ⟨now, some pacer, Pool.start concurrency n retries, []⟩ where
  paced := by
    rw [Pool.booked_start]
    exact Pool.paced_new hinterval
  free := rfl

theorem steady_start :
    Steady concurrency n ⟨now, some pacer, Pool.start concurrency n retries, []⟩ where
  sound := Pool.sound_start concurrency n retries
  length := List.length_replicate
  past := by simp

/-- With a permit for every port every call is on time. -/
theorem OnTime.step_roomy {a : Act} (h : OnTime δ s) (hsteady : Steady concurrency n s)
    (hroom : n ≤ concurrency) (hs : system.step s a = some s') : OnTime δ s' := by
  have hroomy : s.pool.Roomy concurrency := ⟨hsteady.sound, hsteady.length.trans_le hroom, h.free⟩
  refine h.step (fun i hi => ?_) hs
  subst hi
  exact hroomy.unlocked (probe_inv hs).1 i rfl

theorem snapshot_start (hδ : 0 < 1 / r) (hinterval : pacer.interval = 1 / r) (hnext : pacer.next = now) :
    (⟨now, some pacer, Pool.start concurrency n retries, []⟩ : ScanHost) =
      snapshot hδ n now now concurrency [] (reserved (1 / r) now retries 0) [] := by
  obtain ⟨interval, next, hpos⟩ := pacer
  obtain rfl : interval = 1 / r := hinterval
  obtain rfl : next = now := hnext
  have hjobs : List.replicate n (⟨retries, .ready⟩ : Job PortResult) =
      (List.range n).map (reserved (1 / r) next retries 0) := by
    refine (List.eq_replicate_iff.mpr ⟨by simp, fun job hjob => ?_⟩).symm
    obtain ⟨i, -, rfl⟩ := List.mem_map.mp hjob
    exact if_neg (Nat.not_lt_zero i)
  rw [Pool.start, hjobs]
  rfl

/-- **When `--max-rate` spaces probes**: calls start at least a slot apart in every run in which no
probe leaves the rate gate while the semaphore is locked; and in all runs of a scan if and only if
there is a permit for every port, or for every port but one and no retries. -/
theorem max_rate_spacing (r : ℚ) (hr : 0 < r) (ports : List Nat) (concurrency : Nat)
    (hc : 1 ≤ concurrency) (retries : Int) (now : ℚ) :
    ∃ s, scanHost ports concurrency (some r) retries none now = .ok s ∧
      (∀ acts s', system.exec s acts = some s' → system.Along Unblocked s acts →
        Spaced (1 / r) (s'.calls.map Prod.fst)) ∧
      ((∀ acts s', system.exec s acts = some s' → Spaced (1 / r) (s'.calls.map Prod.fst)) ↔
        ports.length ≤ concurrency ∨ ports.length = concurrency + 1 ∧ retries ≤ 0) := by
  have hδ : 0 < 1 / r := one_div_pos.mpr hr
  obtain ⟨pacer, hinterval, hnext, hok⟩ := scanHost_ok hr ports concurrency retries now
  refine ⟨_, hok, fun acts s' hexec hfree => ?_, fun hall => ?_, fun hports acts s' hexec => ?_⟩
  · exact (System.exec_invariant (I := OnTime (1 / r)) (fun s a s' hI hC hs => hI.step hC hs)
      (onTime_start hinterval) hfree hexec).paced.spaced
  · by_contra hover
    obtain ⟨acts, s', hexec, hs'⟩ :=
      exists_apart hδ (n := ports.length) hc now retries.toNat (by omega)
    rw [← snapshot_start hδ hinterval hnext] at hexec
    exact hs' (hall acts s' hexec)
  · rcases hports with hroom | ⟨hlength, hretries⟩
    · have hinv := System.exec_induction
        (I := fun s => Steady concurrency ports.length s ∧ OnTime (1 / r) s)
        (fun s a s' hI hs => ⟨hI.1.step hs, hI.2.step_roomy hI.1 hroom hs⟩)
        ⟨steady_start, onTime_start hinterval⟩ hexec
      exact hinv.2.paced.spaced
    · rw [hlength, Int.toNat_of_nonpos hretries] at hexec
      have hinv := System.exec_induction (I := OneOver (1 / r) concurrency)
        (fun s a s' hI hs => hI.step hδ hs)
        ⟨steady_start, fun job hjob => by rw [List.eq_of_mem_replicate hjob],
          .inl (onTime_start hinterval)⟩ hexec
      rcases hinv.spacing with hon | hlast
      · exact hon.paced.spaced
      · exact hlast.spaced

/-- Two ports with a permit each, the first of them probed again: three calls, a fifth of a second apart. -/
theorem max_rate_spacing_retried :
    ∃ s, scanHost [80, 502] 2 (some 5) 1 none 0 = .ok s ∧
      (∃ acts s', system.exec s acts = some s' ∧ s'.calls.map Prod.fst = [0, 1 / 5, 2 / 5]) ∧
      ∀ acts s', system.exec s acts = some s' → Spaced (1 / 5) (s'.calls.map Prod.fst) := by
  obtain ⟨s, hs, -, hall⟩ := max_rate_spacing 5 (by norm_num) [80, 502] 2 (by decide) 1 0
  refine ⟨s, hs, ?_, hall.mpr (.inl (le_refl 2))⟩
  obtain ⟨silent, hsilent⟩ : ∃ silent : PortResult, silent = { port := 80, state := .filtered } :=
    ⟨_, rfl⟩
  obtain ⟨acts, hacts⟩ : ∃ acts : List Act, acts = [.probe (.reserve 0), .probe (.reserve 1),
    .probe (.enter 0), .probe (.launch 0 (1 / 10) silent), .tick (1 / 10), .probe (.finish 0),
    .probe (.reserve 0), .tick (1 / 5), .probe (.enter 1),
    .probe (.launch 1 (1 / 4) { port := 502, state := .opened }), .tick (2 / 5), .probe (.enter 0),
    .probe (.launch 0 (1 / 10) silent)] := ⟨_, rfl⟩
  have hrun : ((scanHost [80, 502] 2 (some 5) 1 none 0).toOption.bind fun s =>
      (system.exec s acts).map fun s' => s'.calls.map Prod.fst) = some [0, 1 / 5, 2 / 5] := by
    rw [hacts, hsilent]
    decide +kernel
  rw [hs] at hrun
  obtain ⟨s', hs', htimes⟩ := Option.map_eq_some_iff.mp hrun
  exact ⟨acts, s', hs', htimes⟩

/-- Three ports, one permit, one probe a second: the first probe takes five half seconds, and the
two that wait for it start a quarter of a second apart. -/
theorem max_rate_spacing_queue :
    ¬ ∀ (r : ℚ) (ports : List Nat) (concurrency : Nat) (retries : Int) (now : ℚ) (s s' : ScanHost)
      (acts : List Act), 0 < r → 1 ≤ concurrency →
      scanHost ports concurrency (some r) retries none now = .ok s →
      system.exec s acts = some s' → Spaced (1 / r) (s'.calls.map Prod.fst) := by
  intro h
  obtain ⟨closed, hclosed⟩ : ∃ closed : PortResult, closed = { port := 0, state := .closed } :=
    ⟨_, rfl⟩
  obtain ⟨acts, hacts⟩ : ∃ acts : List Act, acts = [.probe (.reserve 0), .probe (.reserve 1),
    .probe (.reserve 2), .probe (.enter 0), .probe (.launch 0 (5 / 2) closed), .tick 1,
    .probe (.enter 1), .tick 2, .probe (.enter 2), .tick (5 / 2), .probe (.finish 0),
    .probe (.launch 1 (1 / 4) closed), .tick (11 / 4), .probe (.finish 1),
    .probe (.launch 2 (1 / 4) closed)] := ⟨_, rfl⟩
  have hrun : ((scanHost [80, 443, 502] 1 (some 1) 0 none 0).toOption.bind fun s =>
      (system.exec s acts).map fun s' => s'.calls.map Prod.fst) = some [0, 5 / 2, 11 / 4] := by
    rw [hacts, hclosed]
    decide +kernel
  obtain ⟨s, hs, hexec⟩ := Option.bind_eq_some_iff.mp hrun
  obtain ⟨s', hs', htimes⟩ := Option.map_eq_some_iff.mp hexec
  have hscan : scanHost [80, 443, 502] 1 (some 1) 0 none 0 = .ok s := by
    cases hr : scanHost [80, 443, 502] 1 (some 1) 0 none 0 with
    | error e => rw [hr] at hs; cases hs
    | ok t => rw [hr] at hs; cases hs; rfl
  have hspaced := h 1 [80, 443, 502] 1 0 0 s s' acts (by norm_num) (le_refl 1) hscan hs'
  rw [htimes, Spaced, List.pairwise_cons, List.pairwise_cons] at hspaced
  have hapart : Apart (1 / 1 : ℚ) (5 / 2) (11 / 4) := hspaced.2.1 (11 / 4) List.mem_cons_self
  rw [Apart, abs_of_nonpos (by norm_num)] at hapart
  norm_num at hapart

end Runs

end ScanHost

end Pyscan
