import Pyscan.Lib.Spacing

/-!
# The earliest spaced schedule

A schedule gives each of a sequence of releases a time, in turn: none before its
release, the first not before `start`, and each at least `δ` behind the one
before. `earliest` takes every time as soon as it may, and is **the least
schedule** (`isLeast_earliest`): each time is pushed up by one single constraint,
the start or some release, and by `δ` for every turn since (`earliest_eq`).
-/

namespace Spacing

variable {K : Type*}

section Group

variable [AddCommGroup K] [LinearOrder K] {δ start : K} {release g : ℕ → K}

structure Schedule (δ start : K) (release g : ℕ → K) : Prop where
  start_le : start ≤ g 0
  release_le : ∀ k, release k ≤ g k
  gap : ∀ k, g k + δ ≤ g (k + 1)

def earliest (δ start : K) (release : ℕ → K) : ℕ → K
  | 0 => max start (release 0)
  | k + 1 => max (earliest δ start release k + δ) (release (k + 1))

theorem schedule_earliest (δ start : K) (release : ℕ → K) :
    Schedule δ start release (earliest δ start release) where
  start_le := le_max_left _ _
  release_le k := by cases k <;> exact le_max_right _ _
  gap _ := le_max_left _ _

variable [IsOrderedAddMonoid K]

theorem Schedule.earliest_le (h : Schedule δ start release g) (k : ℕ) :
    earliest δ start release k ≤ g k := by
  induction k with
  | zero => exact max_le h.start_le (h.release_le 0)
  | succ k ih => exact max_le ((add_le_add_left ih δ).trans (h.gap k)) (h.release_le (k + 1))

theorem isLeast_earliest (δ start : K) (release : ℕ → K) :
    IsLeast {g | Schedule δ start release g} (earliest δ start release) :=
  ⟨schedule_earliest δ start release, fun _ h k => h.earliest_le k⟩

/-- What a bound on one time says of the start and of the releases so far. -/
theorem earliest_le_iff {k : ℕ} {b : K} :
    earliest δ start release k ≤ b ↔
      start + k • δ ≤ b ∧ ∀ j ≤ k, release j + (k - j) • δ ≤ b := by
  induction k generalizing b with
  | zero => simp [earliest]
  | succ k ih =>
    have hturn (x : K) (n : ℕ) : x + n • δ ≤ b - δ ↔ x + (n + 1) • δ ≤ b := by
      rw [le_sub_iff_add_le, add_assoc, ← succ_nsmul]
    rw [earliest, max_le_iff, ← le_sub_iff_add_le, ih, hturn, and_assoc]
    refine and_congr_right fun _ => ?_
    constructor
    · rintro ⟨hbefore, hlast⟩ j hj
      rcases Nat.le_succ_iff.mp hj with hj | rfl
      · rw [Nat.succ_sub hj, ← hturn]
        exact hbefore j hj
      · simpa using hlast
    · intro hall
      refine ⟨fun j hj => ?_, by simpa using hall (k + 1) le_rfl⟩
      have hj' := hall j (hj.trans k.le_succ)
      rwa [Nat.succ_sub hj, ← hturn] at hj'

/-- **The closed form**: the constraint that pushes a time up the most. -/
theorem earliest_eq (k : ℕ) :
    earliest δ start release k =
      max (start + k • δ)
        ((Finset.range (k + 1)).sup' Finset.nonempty_range_add_one
          fun j => release j + (k - j) • δ) := by
  refine eq_of_forall_ge_iff fun b => ?_
  rw [earliest_le_iff, max_le_iff, Finset.sup'_le_iff]
  simp only [Finset.mem_range, Nat.lt_succ_iff]

theorem Schedule.gap_of_lt (h : Schedule δ start release g) (hδ : 0 ≤ δ) {i j : ℕ} (hij : i < j) :
    g i + δ ≤ g j := by
  induction j, hij using Nat.le_induction with
  | base => exact h.gap i
  | succ j _ ih => exact ih.trans ((le_add_of_nonneg_right hδ).trans (h.gap j))

end Group

variable [Field K] [LinearOrder K] [IsStrictOrderedRing K] {δ start : K} {release g : ℕ → K}

theorem Schedule.apart (h : Schedule δ start release g) (hδ : 0 ≤ δ) :
    Pairwise fun i j => Apart δ (g i) (g j) := by
  intro i j hij
  rcases lt_or_gt_of_ne hij with hlt | hlt
  · exact (apart_of_add_le (h.gap_of_lt hδ hlt)).symm
  · exact apart_of_add_le (h.gap_of_lt hδ hlt)

/-- **A window of length `T` holds at most `⌊T / δ⌋ + 1` times** of a family of spaced times. -/
theorem window_encard_le [FloorRing K] {ι : Type*} {f : ι → K} (hδ : 0 < δ)
    (h : Pairwise fun i j => Apart δ (f i) (f j)) (a T : K) :
    {i | a ≤ f i ∧ f i ≤ a + T}.encard ≤ (⌊T / δ⌋₊ + 1 : ℕ) := by
  by_contra hmany
  have hlt := Order.add_one_le_of_lt (not_le.mp hmany)
  obtain ⟨s, hs, hcard⟩ := Set.exists_subset_encard_eq hlt
  -- too many of them, as a list
  obtain ⟨s, rfl⟩ := (Set.finite_of_encard_eq_coe (k := ⌊T / δ⌋₊ + 1 + 1) hcard).exists_finset_coe
  have hspaced : Spaced δ (s.toList.map f) :=
    List.pairwise_map.mpr (s.nodup_toList.imp fun hij => h hij)
  have hle := hspaced.window_le hδ a T
  rw [List.countP_map, List.countP_eq_length.mpr, Finset.length_toList] at hle
  · rw [Set.encard_coe_eq_coe_finsetCard] at hcard
    have hcount : s.card = ⌊T / δ⌋₊ + 1 + 1 := by exact_mod_cast hcard
    omega
  · intro i hi
    exact decide_eq_true (hs (Finset.mem_toList.mp hi))

end Spacing
