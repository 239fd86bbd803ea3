import Pyscan.Application.ProbePool
import Pyscan.Domain.Models
import Pyscan.Lib.Lts

/-!
# Scanning one host

`ScanService.scan_host` from its `gather` on: a pool of one job for each port,
behind the limiter and the concurrency semaphore, on a clock. A run is a
schedule of the pool's steps and of ticks; its `calls` are the starts of
`strategy.scan_port`.
-/

namespace Pyscan

open Py Spacing Lts

/-- The states a retransmission can still turn into an answer. -/
def inconclusive (result : PortResult) : Bool :=
  decide (result.state = .filtered ∨ result.state = .openFiltered)

structure ScanHost where
  now : ℚ
  limiter : Option Pacer
  pool : Pool PortResult
  /-- when `scan_port` was called, and for which position of the port list -/
  calls : List (ℚ × Nat) := []

namespace ScanHost

inductive Act where
  | probe (a : Pool.Act PortResult)
  | tick (t : ℚ)

def step (s : ScanHost) : Act → Option ScanHost
  | .probe a =>
    (s.pool.step inconclusive s.now s.limiter a).map fun r =>
      { now := s.now
        limiter := r.1
        pool := r.2
        calls := s.calls ++ a.launched.map fun i => (s.now, i) }
  | .tick t => if s.now < t ∧ s.pool.idleUntil t then some { s with now := t } else none

def system : System ScanHost Act := ⟨step⟩

/-- `if limiter is None and max_rate: limiter = AsyncRateLimiter(max_rate)`. -/
def openLimiter (limiter : Option Pacer) (maxRate : Option ℚ) (now : ℚ) : Result (Option Pacer) :=
  match limiter, maxRate with
  | none, some rate => if rate = 0 then .ok none else do .ok (some (← Pacer.new rate now))
  | limiter, _ => .ok limiter

end ScanHost

/-- `scan_host` once the host is resolved, at time `now`. -/
def scanHost (ports : List Nat) (concurrency : Nat) (maxRate : Option ℚ) (retries : Int)
    (limiter : Option Pacer) (now : ℚ) : Result ScanHost := do
  let limiter ← ScanHost.openLimiter limiter maxRate now
  .ok { now, limiter, pool := Pool.start concurrency ports.length retries.toNat }

namespace ScanHost

variable {s s' : ScanHost} {δ : ℚ}

/-! ## Probes that find the semaphore free -/

/-- No probe leaves the rate gate while the semaphore is locked. -/
def Unblocked (s : ScanHost) (a : Act) : Prop :=
  ∀ i, a = .probe (.enter i) → s.pool.sem.locked = false

/-- Every call was made in the slot booked for it. -/
structure OnTime (δ : ℚ) (s : ScanHost) : Prop where
  paced : Pool.Paced δ s.limiter (Pool.booked s.now s.pool.jobs) (s.calls.map Prod.fst)
  free : s.pool.sem.waiters = []

theorem probe_inv {a : Pool.Act PortResult} (h : system.step s (.probe a) = some s') :
    s.pool.step inconclusive s.now s.limiter a = some (s'.limiter, s'.pool) ∧ s'.now = s.now ∧
      s'.calls = s.calls ++ a.launched.map fun i => (s.now, i) := by
  obtain ⟨r, hr, rfl⟩ := Option.map_eq_some_iff.mp h
  exact ⟨hr, rfl, rfl⟩

theorem tick_inv {t : ℚ} (h : system.step s (.tick t) = some s') :
    s.now < t ∧ s.pool.idleUntil t = true ∧ s' = { s with now := t } := by
  by_cases hc : s.now < t ∧ s.pool.idleUntil t
  · exact ⟨hc.1, hc.2, (Option.some.inj ((if_pos hc).symm.trans h)).symm⟩
  · cases (if_neg hc).symm.trans h

theorem OnTime.step {a : Act} (h : OnTime δ s) (hfree : Unblocked s a)
    (hs : system.step s a = some s') : OnTime δ s' := by
  cases a with
  | probe a =>
    obtain ⟨hstep, hnow, hcalls⟩ := probe_inv hs
    have hpaced := h.paced
    rw [← List.append_nil (Pool.booked _ _)] at hpaced
    have hfree : ∀ i, a = .enter i → s.pool.sem.locked = false := fun i hi => hfree i (hi ▸ rfl)
    have hpaced := Pool.step_paced hpaced h.free hfree hstep
    rw [List.append_nil] at hpaced
    refine ⟨?_, Pool.step_free h.free hfree hstep⟩
    rw [hnow, hcalls, List.map_append, List.map_map]
    exact hpaced
  | tick t =>
    obtain ⟨-, hidle, rfl⟩ := tick_inv hs
    refine ⟨?_, h.free⟩
    have hnone := Pool.booked_of_not_granted (Pool.not_runnable_of_idle hidle) s.now t
    exact hnone ▸ h.paced

/-! ## What every run keeps -/

/-- One job for each port, the permits add up, and no call lies ahead. -/
structure Steady (concurrency ports : Nat) (s : ScanHost) : Prop where
  sound : s.pool.Sound concurrency
  length : s.pool.jobs.length = ports
  past : ∀ t ∈ s.calls.map Prod.fst, t ≤ s.now

theorem Steady.step {concurrency ports : Nat} {a : Act} (h : Steady concurrency ports s)
    (hs : system.step s a = some s') : Steady concurrency ports s' := by
  cases a with
  | probe a =>
    obtain ⟨hstep, hnow, hcalls⟩ := probe_inv hs
    refine ⟨h.sound.step hstep, (Pool.step_length hstep).trans h.length, fun t ht => ?_⟩
    rw [hcalls, List.map_append, List.mem_append] at ht
    rw [hnow]
    rcases ht with ht | ht
    · exact h.past t ht
    · rw [List.map_map, List.mem_map] at ht
      obtain ⟨-, -, rfl⟩ := ht
      exact le_rfl
  | tick t =>
    obtain ⟨hlt, -, rfl⟩ := tick_inv hs
    exact ⟨h.sound, h.length, fun u hu => (h.past u hu).trans hlt.le⟩

end ScanHost

end Pyscan
