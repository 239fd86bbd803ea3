import Mathlib

/-!
# One's-complement sums

Words from `0` to `m`, `m` being the word of all ones, added with an end-around
carry. A sum of words is the sum of the numbers up to multiples of `m`: it is
its `residue` (`sum_eq`), the representative that is zero for zero only. A sum
whose complement is added gives all ones (`residue_complement`), and folding the
carries of a number back in does not change its residue (`residue_fold`).
-/

namespace OnesComplement

variable {m : ℕ}

/-- Addition with an end-around carry. -/
def add (m a b : ℕ) : ℕ := if a + b ≤ m then a + b else a + b - m

def sum (m : ℕ) (ws : List ℕ) : ℕ := ws.foldl (add m) 0

/-- The number from `1` to `m` congruent to `n`; zero for zero. -/
def residue (m n : ℕ) : ℕ := if n = 0 then 0 else (n - 1) % m + 1

theorem residue_modEq (m n : ℕ) : residue m n ≡ n [MOD m] := by
  unfold residue
  split
  · rename_i h
    rw [h]
  · have h := (Nat.mod_modEq (n - 1) m).add_right 1
    rwa [Nat.sub_add_cancel (by omega)] at h

theorem residue_eq_zero {n : ℕ} : residue m n = 0 ↔ n = 0 := by
  unfold residue
  split <;> simp_all

theorem residue_le (hm : 0 < m) (n : ℕ) : residue m n ≤ m := by
  unfold residue
  split
  · exact hm.le
  · exact Nat.mod_lt _ hm

/-- A residue is known by its congruence class, and by being zero or not. -/
theorem residue_unique {r n : ℕ} (hle : r ≤ m) (hmod : r ≡ n [MOD m]) (hzero : r = 0 ↔ n = 0) :
    residue m n = r := by
  unfold residue
  split
  · exact (hzero.mpr ‹_›).symm
  · have hr : r ≠ 0 := fun hr => ‹¬ n = 0› (hzero.mp hr)
    have hpred : r - 1 ≡ n - 1 [MOD m] := by
      refine Nat.ModEq.add_right_cancel' 1 ?_
      rwa [Nat.sub_add_cancel (by omega), Nat.sub_add_cancel (by omega)]
    rw [← hpred, Nat.mod_eq_of_lt (by omega)]
    omega

theorem residue_of_le {n : ℕ} (h : n ≤ m) : residue m n = n :=
  residue_unique h rfl Iff.rfl

theorem residue_congr (hm : 0 < m) {a b : ℕ} (hmod : a ≡ b [MOD m]) (hzero : a = 0 ↔ b = 0) :
    residue m a = residue m b :=
  residue_unique (residue_le hm b) ((residue_modEq m b).trans hmod.symm)
    (residue_eq_zero.trans hzero.symm)

theorem add_eq {a b : ℕ} (ha : a ≤ m) (hb : b ≤ m) : add m a b = residue m (a + b) := by
  unfold add
  split
  · exact (residue_of_le ‹_›).symm
  · refine (residue_unique (by omega) ?_ (by omega)).symm
    exact (Nat.modEq_iff_dvd' (by omega)).mpr ⟨1, by omega⟩

theorem residue_add (hm : 0 < m) (a b : ℕ) : residue m (residue m a + b) = residue m (a + b) := by
  refine residue_congr hm ((residue_modEq m a).add_right b) ?_
  rw [Nat.add_eq_zero_iff, Nat.add_eq_zero_iff, residue_eq_zero]

/-- **The sum of words** is the residue of the sum of the numbers. -/
theorem sum_eq (hm : 0 < m) {ws : List ℕ} (h : ∀ w ∈ ws, w ≤ m) : sum m ws = residue m ws.sum := by
  have hfold : ∀ (ws : List ℕ) (acc : ℕ), (∀ w ∈ ws, w ≤ m) → acc ≤ m →
      ws.foldl (add m) acc = residue m (acc + ws.sum) := by
    intro ws
    induction ws with
    | nil => exact fun acc _ hacc => (residue_of_le hacc).symm
    | cons w ws ih =>
      intro acc hws hacc
      have hw : w ≤ m := hws w List.mem_cons_self
      rw [List.foldl_cons, add_eq hacc hw,
        ih _ (fun v hv => hws v (List.mem_cons_of_mem _ hv)) (residue_le hm _), residue_add hm,
        List.sum_cons, Nat.add_assoc]
  rw [sum, hfold ws 0 h hm.le, Nat.zero_add]

/-- **A sum and its complement** are all ones. -/
theorem residue_complement (hm : 0 < m) (n : ℕ) : residue m (n + (m - residue m n)) = m := by
  have hle := residue_le hm n
  refine residue_unique le_rfl ?_ (iff_of_false hm.ne' ?_)
  · have h := (residue_modEq m n).add_right (m - residue m n)
    rwa [Nat.add_sub_cancel' hle] at h
  · intro h
    have hn : n = 0 := by omega
    rw [residue_eq_zero.mpr hn] at h
    omega

/-- Folding the carries back in keeps the residue. -/
theorem residue_fold (hm : 0 < m) (n : ℕ) :
    residue m (n % (m + 1) + n / (m + 1)) = residue m n := by
  have hsplit := Nat.div_add_mod n (m + 1)
  refine residue_congr hm ?_ ?_
  · have hn : m * (n / (m + 1)) + (n % (m + 1) + n / (m + 1)) = n := by
      rw [Nat.add_mul, Nat.one_mul] at hsplit
      omega
    calc n % (m + 1) + n / (m + 1)
        ≡ m * (n / (m + 1)) + (n % (m + 1) + n / (m + 1)) [MOD m] := by
          rw [Nat.ModEq, Nat.mul_add_mod]
      _ = n := hn
  · constructor
    · intro h
      obtain ⟨hmod, hdiv⟩ := Nat.add_eq_zero_iff.mp h
      rw [hmod, hdiv] at hsplit
      omega
    · rintro rfl
      simp

end OnesComplement
