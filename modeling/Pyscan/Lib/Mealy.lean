import Mathlib

/-!
# Reactive machines

A `Machine` answers each input with outputs and a next state. `run` feeds it a
list. Three groups of rules carry every run-level result: `run_induction` (an
invariant over the inputs consumed, the outputs produced and the state), the
totals (what each input contributes whatever the state, a run contributes input
by input, so in any order), and the relational rules `run_agree` (related states
answer alike) and `run_purge` (unwinding: when hidden inputs touch neither the
relation nor the visible outputs, removing them changes nothing visible).
-/

namespace Mealy

structure Machine (σ ι ο : Type*) where
  step : σ → ι → σ × List ο

variable {σ ι ο : Type*} (M : Machine σ ι ο)

def Machine.run (s : σ) : List ι → σ × List ο
  | [] => (s, [])
  | i :: is =>
    let r := M.step s i
    let rest := Machine.run r.1 is
    (rest.1, r.2 ++ rest.2)

namespace Machine

@[simp] theorem run_nil (s : σ) : M.run s [] = (s, []) := rfl

theorem run_cons (s : σ) (i : ι) (is : List ι) :
    M.run s (i :: is) =
      ((M.run (M.step s i).1 is).1, (M.step s i).2 ++ (M.run (M.step s i).1 is).2) := rfl

theorem run_append (s : σ) (is js : List ι) :
    M.run s (is ++ js) =
      ((M.run (M.run s is).1 js).1, (M.run s is).2 ++ (M.run (M.run s is).1 js).2) := by
  induction is generalizing s with
  | nil => rfl
  | cons i is ih =>
    rw [List.cons_append, run_cons, ih, run_cons, List.append_assoc]

theorem run_concat (s : σ) (is : List ι) (i : ι) :
    M.run s (is ++ [i]) =
      ((M.step (M.run s is).1 i).1, (M.run s is).2 ++ (M.step (M.run s is).1 i).2) := by
  rw [run_append, run_cons, run_nil, List.append_nil]

/-- **Invariants of a history**: what holds at the start and is kept by one more input holds of
everything consumed, everything produced and the state, after any run. -/
theorem run_induction {s₀ : σ} {I : List ι → List ο → σ → Prop} (h0 : I [] [] s₀)
    (hstep : ∀ is os s i, I is os s → I (is ++ [i]) (os ++ (M.step s i).2) (M.step s i).1)
    (is : List ι) : I is (M.run s₀ is).2 (M.run s₀ is).1 := by
  induction is using List.reverseRecOn with
  | nil => exact h0
  | append_singleton is i ih =>
    rw [run_concat]
    exact hstep _ _ _ i ih

/-- Every output of a run was produced by one input, in the state the earlier inputs led to. -/
theorem mem_run {s : σ} {is : List ι} {o : ο} (h : o ∈ (M.run s is).2) :
    ∃ js i ks, is = js ++ i :: ks ∧ o ∈ (M.step (M.run s js).1 i).2 := by
  induction is generalizing s with
  | nil => cases h
  | cons i is ih =>
    rcases List.mem_append.mp h with hi | hrest
    · exact ⟨[], i, is, rfl, hi⟩
    · obtain ⟨js, j, ks, rfl, hj⟩ := ih hrest
      exact ⟨i :: js, j, ks, rfl, hj⟩

/-- A state property that every step keeps holds along every run. -/
theorem run_invariant {I : σ → Prop} (hI : ∀ s i, I s → I (M.step s i).1) {s : σ} (hs : I s)
    (is : List ι) : I (M.run s is).1 := by
  induction is generalizing s with
  | nil => exact hs
  | cons i is ih => exact ih (hI s i hs)

/-! ## Totals -/

section Totals

variable {I : σ → Prop} {M}

/-- A run collects what its inputs put in. -/
theorem run_collects (hI : ∀ s i, I s → I (M.step s i).1) {P : σ → Prop} {Q : ι → Prop}
    (h : ∀ s i, I s → (P (M.step s i).1 ↔ P s ∨ Q i)) {s : σ} (hs : I s) (is : List ι) :
    P (M.run s is).1 ↔ P s ∨ ∃ i ∈ is, Q i := by
  induction is generalizing s with
  | nil => simp
  | cons i is ih =>
    rw [run_cons, ih (hI s i hs), h s i hs, or_assoc, List.exists_mem_cons_iff]

/-- A run adds up what its inputs add. -/
theorem run_adds (hI : ∀ s i, I s → I (M.step s i).1) {f : σ → ℕ} {w : ι → ℕ}
    (h : ∀ s i, I s → f (M.step s i).1 = f s + w i) {s : σ} (hs : I s) (is : List ι) :
    f (M.run s is).1 = f s + (is.map w).sum := by
  induction is generalizing s with
  | nil => rfl
  | cons i is ih =>
    rw [run_cons, ih (hI s i hs), h s i hs, List.map_cons, List.sum_cons, Nat.add_assoc]

/-- The outputs that do not depend on the state come out input by input. -/
theorem run_filter (hI : ∀ s i, I s → I (M.step s i).1) {p : ο → Bool} {w : ι → List ο}
    (h : ∀ s i, I s → (M.step s i).2.filter p = w i) {s : σ} (hs : I s) (is : List ι) :
    (M.run s is).2.filter p = is.flatMap w := by
  induction is generalizing s with
  | nil => rfl
  | cons i is ih =>
    rw [run_cons, List.filter_append, h s i hs, ih (hI s i hs), List.flatMap_cons]

end Totals

/-! ## Unwinding -/

section Purge

variable {R : σ → σ → Prop} {hidden : ι → Bool} {visible : ο → Bool}

/-- **Unwinding**: two related states show the same visible outputs when the second run leaves
out every hidden input. -/
theorem run_purge
    (hhid : ∀ s t i, R s t → hidden i = true →
      R (M.step s i).1 t ∧ (M.step s i).2.filter visible = [])
    (hvis : ∀ s t i, R s t → hidden i = false →
      R (M.step s i).1 (M.step t i).1 ∧
        (M.step s i).2.filter visible = (M.step t i).2.filter visible)
    {s t : σ} (hR : R s t) (is : List ι) :
    (M.run s is).2.filter visible = (M.run t (is.filter fun i => !hidden i)).2.filter visible := by
  induction is generalizing s t with
  | nil => rfl
  | cons i is ih =>
    rw [run_cons, List.filter_append]
    cases hi : hidden i with
    | true =>
      obtain ⟨hR', hout⟩ := hhid s t i hR hi
      rw [hout, List.nil_append, ih hR', List.filter_cons_of_neg (by simp [hi])]
    | false =>
      obtain ⟨hR', hout⟩ := hvis s t i hR hi
      rw [List.filter_cons_of_pos (by simp [hi]), run_cons, List.filter_append, hout, ih hR']

/-- Related states answer inputs that keep the relation alike. -/
theorem run_agree {Q : ι → Prop}
    (h : ∀ s t i, R s t → Q i → R (M.step s i).1 (M.step t i).1 ∧ (M.step s i).2 = (M.step t i).2)
    {s t : σ} (hR : R s t) {is : List ι} (hQ : ∀ i ∈ is, Q i) : (M.run s is).2 = (M.run t is).2 := by
  induction is generalizing s t with
  | nil => rfl
  | cons i is ih =>
    obtain ⟨hR', hout⟩ := h s t i hR (hQ i List.mem_cons_self)
    rw [run_cons, run_cons, hout, ih hR' fun j hj => hQ j (List.mem_cons_of_mem _ hj)]

end Purge

end Machine

end Mealy
