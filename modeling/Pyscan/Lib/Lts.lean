import Mathlib

/-!
# Guarded transition systems

A `System` takes labelled steps, each of which may be disabled. `exec` runs a
schedule of labels; `Along C` says that every step of a schedule meets `C` in
the state it is taken from. The rules are `exec_invariant` (what every step that
meets `C` keeps holds at the end), its unconditional form `exec_induction`,
`exec_weight_le` for termination, `exists_finish` for progress, and the
composition of schedules.
-/

namespace Lts

structure System (σ α : Type*) where
  step : σ → α → Option σ

variable {σ α : Type*} (S : System σ α)

def System.exec (s : σ) : List α → Option σ
  | [] => some s
  | a :: as => (S.step s a).bind fun s' => System.exec s' as

/-- Every step of the schedule meets `C` in the state it is taken from. -/
def System.Along (C : σ → α → Prop) (s : σ) : List α → Prop
  | [] => True
  | a :: as => C s a ∧ ∀ s', S.step s a = some s' → System.Along C s' as

namespace System

variable {S} {C : σ → α → Prop} {I : σ → Prop} {s s' : σ}

theorem exec_nil (s : σ) : S.exec s [] = some s := rfl

theorem along_nil (s : σ) : S.Along C s [] := trivial

theorem exec_cons {a : α} {as : List α} (h : S.step s a = some s') :
    S.exec s (a :: as) = S.exec s' as := by
  rw [exec, h, Option.bind_some]

theorem exec_step {a : α} {as : List α} {s'' : σ} (h : S.step s a = some s')
    (h' : S.exec s' as = some s'') : S.exec s (a :: as) = some s'' := (exec_cons h).trans h'

theorem exec_append {s'' : σ} {as bs : List α} (h : S.exec s as = some s')
    (h' : S.exec s' bs = some s'') : S.exec s (as ++ bs) = some s'' := by
  induction as generalizing s with
  | nil =>
    obtain rfl := Option.some.inj h
    exact h'
  | cons a as ih =>
    obtain ⟨t, ht, h⟩ := Option.bind_eq_some_iff.mp h
    rw [List.cons_append, exec_cons ht]
    exact ih h

theorem exec_snoc {a : α} {as : List α} {s'' : σ} (h : S.exec s as = some s')
    (h' : S.step s' a = some s'') : S.exec s (as ++ [a]) = some s'' :=
  exec_append h (exec_step h' (exec_nil s''))

/-- **Conditional invariants**: what each step that meets `C` keeps holds after every schedule
whose steps all meet `C`. -/
theorem exec_invariant (hstep : ∀ s a s', I s → C s a → S.step s a = some s' → I s') (h0 : I s)
    {as : List α} (hC : S.Along C s as) (h : S.exec s as = some s') : I s' := by
  induction as generalizing s with
  | nil =>
    obtain rfl := Option.some.inj h
    exact h0
  | cons a as ih =>
    obtain ⟨t, ht, h⟩ := Option.bind_eq_some_iff.mp h
    exact ih (hstep s a t h0 hC.1 ht) (hC.2 t ht) h

theorem along_true (as : List α) : S.Along (fun _ _ => True) s as := by
  induction as generalizing s with
  | nil => trivial
  | cons a as ih => exact ⟨trivial, fun _ _ => ih⟩

theorem along_append {as bs : List α} (h : S.Along C s as) (hs : S.exec s as = some s')
    (h' : S.Along C s' bs) : S.Along C s (as ++ bs) := by
  induction as generalizing s with
  | nil =>
    obtain rfl := Option.some.inj hs
    exact h'
  | cons a as ih =>
    obtain ⟨t, ht, hs⟩ := Option.bind_eq_some_iff.mp hs
    refine ⟨h.1, fun t' ht' => ?_⟩
    obtain rfl := Option.some.inj (ht.symm.trans ht')
    exact ih (h.2 t ht) hs

/-- **Progress**: where some schedule takes every unfinished state further down, one ends. -/
theorem exists_finish {F : σ → Prop} (μ : σ → Nat)
    (hdown : ∀ s, I s → ¬ F s → ∃ as s', S.Along C s as ∧ S.exec s as = some s' ∧ I s' ∧ μ s' < μ s)
    (h : I s) : ∃ as s', S.Along C s as ∧ S.exec s as = some s' ∧ F s' := by
  induction hn : μ s using Nat.strong_induction_on generalizing s with
  | _ n ih =>
    by_cases hF : F s
    · exact ⟨[], s, trivial, rfl, hF⟩
    obtain ⟨as, t, halong, has, ht, hlt⟩ := hdown s h hF
    obtain ⟨bs, s', halong', hbs, hF'⟩ := ih (μ t) (hn ▸ hlt) ht rfl
    exact ⟨as ++ bs, s', along_append halong has halong', exec_append has hbs, hF'⟩

/-- What every label of a schedule meets, every step of it does. -/
theorem along_of_forall {P : α → Prop} {as : List α} (h : ∀ a ∈ as, P a) :
    S.Along (fun _ a => P a) s as := by
  induction as generalizing s with
  | nil => trivial
  | cons a as ih =>
    obtain ⟨ha, has⟩ := List.forall_mem_cons.mp h
    exact ⟨ha, fun _ _ => ih has⟩

/-- What every step of a schedule meets, every label of it does. -/
theorem along_mem {P : α → Prop} {as : List α} (h : S.Along (fun _ a => P a) s as)
    (hs : S.exec s as = some s') : ∀ a ∈ as, P a := by
  induction as generalizing s with
  | nil => exact fun a ha => by cases ha
  | cons a as ih =>
    obtain ⟨t, ht, hs⟩ := Option.bind_eq_some_iff.mp hs
    exact List.forall_mem_cons.mpr ⟨h.1, ih (h.2 t ht) hs⟩

/-- **Termination**: where each step takes its weight off a measure, the weights of a schedule add up
to no more than the measure was. -/
theorem exec_weight_le {μ : σ → Nat} {w : α → Nat}
    (hstep : ∀ s a s', I s → C s a → S.step s a = some s' → I s' ∧ μ s' + w a ≤ μ s) (h0 : I s)
    {as : List α} (hC : S.Along C s as) (h : S.exec s as = some s') :
    μ s' + (as.map w).sum ≤ μ s := by
  induction as generalizing s with
  | nil =>
    obtain rfl := Option.some.inj h
    exact le_rfl
  | cons a as ih =>
    obtain ⟨t, ht, h⟩ := Option.bind_eq_some_iff.mp h
    obtain ⟨hI, hle⟩ := hstep s a t h0 hC.1 ht
    have hrest := ih hI (hC.2 t ht) h
    rw [List.map_cons, List.sum_cons]
    omega

/-- What each step keeps holds after every schedule. -/
theorem exec_induction (hstep : ∀ s a s', I s → S.step s a = some s' → I s') (h0 : I s)
    {as : List α} (h : S.exec s as = some s') : I s' :=
  exec_invariant (C := fun _ _ => True) (fun s a s' hI _ => hstep s a s' hI) h0 (along_true as) h

/-- **Refinement**: where another system matches each step by steps of its own that keep the two
related, it matches every schedule. -/
theorem exec_simulates {τ β : Type*} {T : System τ β} {R : σ → τ → Prop} (label : α → List β)
    (hstep : ∀ s t a s', R s t → S.step s a = some s' → ∃ t', T.exec t (label a) = some t' ∧ R s' t')
    {t : τ} (h0 : R s t) {as : List α} (h : S.exec s as = some s') :
    ∃ t', T.exec t (as.flatMap label) = some t' ∧ R s' t' := by
  induction as generalizing s t with
  | nil =>
    obtain rfl := Option.some.inj h
    exact ⟨t, rfl, h0⟩
  | cons a as ih =>
    obtain ⟨u, hu, h⟩ := Option.bind_eq_some_iff.mp h
    obtain ⟨t', ht, hR⟩ := hstep s t a u h0 hu
    obtain ⟨t'', ht', hR'⟩ := ih hR h
    exact ⟨t'', exec_append ht ht', hR'⟩

end System

end Lts
