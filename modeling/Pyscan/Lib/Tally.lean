import Mathlib

/-!
# Counting dictionaries

A dictionary in the order its keys came in, with the number of times each came.
`bump` counts one more; the items of a tally, sorted by key, are the distinct
keys with their multiplicities (`sorted_tally`), whatever the order was.
-/

namespace Tally

variable {κ : Type*}

section Bump

variable [DecidableEq κ]

/-- `counts[key] = counts.get(key, 0) + 1`. -/
def bump (key : κ) : List (κ × ℕ) → List (κ × ℕ)
  | [] => [(key, 1)]
  | (k, n) :: counts => if k = key then (k, n + 1) :: counts else (k, n) :: bump key counts

def tally (keys : List κ) : List (κ × ℕ) := keys.foldl (fun counts key => bump key counts) []

variable {keys : List κ} {key k : κ} {counts : List (κ × ℕ)}

theorem tally_concat (keys : List κ) (key : κ) : tally (keys ++ [key]) = bump key (tally keys) := by
  rw [tally, List.foldl_append]
  rfl

theorem mem_bump {item : κ × ℕ} (h : item ∈ bump key counts) : item.1 = key ∨ item ∈ counts := by
  induction counts with
  | nil =>
    rw [List.mem_singleton.mp h]
    exact .inl rfl
  | cons entry counts ih =>
    obtain ⟨k, n⟩ := entry
    rw [bump] at h
    split at h
    · rename_i hk
      rcases List.mem_cons.mp h with rfl | h
      · exact .inl hk
      · exact .inr (List.mem_cons_of_mem _ h)
    · rcases List.mem_cons.mp h with rfl | h
      · exact .inr List.mem_cons_self
      · exact (ih h).imp_right (List.mem_cons_of_mem _)

theorem nodup_bump (h : (counts.map Prod.fst).Nodup) : ((bump key counts).map Prod.fst).Nodup := by
  induction counts with
  | nil => exact List.nodup_singleton key
  | cons entry counts ih =>
    obtain ⟨k, n⟩ := entry
    obtain ⟨hk, hcounts⟩ := List.nodup_cons.mp h
    rw [bump]
    split
    · exact h
    · rename_i hne
      refine List.nodup_cons.mpr ⟨fun hmem => ?_, ih hcounts⟩
      obtain ⟨item, hitem, heq⟩ := List.mem_map.mp hmem
      rcases mem_bump hitem with hkey | hold
      · exact hne (heq.symm.trans hkey)
      · exact hk (heq ▸ List.mem_map_of_mem hold)

/-- What a dictionary says of a key. -/
def value (counts : List (κ × ℕ)) (k : κ) : ℕ := (counts.lookup k).getD 0

theorem value_bump (key k : κ) (counts : List (κ × ℕ)) :
    value (bump key counts) k = value counts k + if k = key then 1 else 0 := by
  induction counts with
  | nil =>
    rw [bump, value, value, List.lookup_cons]
    by_cases h : k = key
    · rw [if_pos h, beq_iff_eq.mpr h]
      rfl
    · rw [if_neg h, beq_eq_false_iff_ne.mpr h]
      rfl
  | cons entry counts ih =>
    obtain ⟨k', n⟩ := entry
    rw [bump]
    by_cases hk : k = k'
    · subst hk
      split <;> simp [value, List.lookup, *]
    · have hskip : ∀ m (rest : List (κ × ℕ)), value ((k', m) :: rest) k = value rest k := by
        intro m rest
        simp [value, List.lookup, beq_eq_false_iff_ne.mpr hk]
      split
      · rename_i heq
        rw [hskip, hskip, if_neg (heq ▸ hk), Nat.add_zero]
      · rw [hskip, hskip, ih]

theorem nodup_tally (keys : List κ) : ((tally keys).map Prod.fst).Nodup := by
  induction keys using List.reverseRecOn with
  | nil => exact List.nodup_nil
  | append_singleton keys key ih =>
    rw [tally_concat]
    exact nodup_bump ih

theorem value_tally (keys : List κ) (k : κ) : value (tally keys) k = keys.count k := by
  induction keys using List.reverseRecOn with
  | nil => rfl
  | append_singleton keys key ih =>
    rw [tally_concat, value_bump, ih, List.count_append, List.count_singleton]
    by_cases h : k = key
    · rw [if_pos h, if_pos (beq_iff_eq.mpr h.symm)]
    · rw [if_neg h, if_neg (fun heq => h (beq_iff_eq.mp heq).symm)]

theorem mem_tally {keys : List κ} {item : κ × ℕ} (h : item ∈ tally keys) : item.1 ∈ keys := by
  induction keys using List.reverseRecOn with
  | nil => cases h
  | append_singleton keys key ih =>
    rw [tally_concat] at h
    rcases mem_bump h with heq | hold
    · exact List.mem_append_right _ (List.mem_singleton.mpr heq)
    · exact List.mem_append_left _ (ih hold)

/-- Where no key comes twice, each item says what its key is looked up to. -/
theorem value_of_mem (h : (counts.map Prod.fst).Nodup) {item : κ × ℕ} (hitem : item ∈ counts) :
    value counts item.1 = item.2 := by
  induction counts with
  | nil => cases hitem
  | cons entry counts ih =>
    obtain ⟨hk, hcounts⟩ := List.nodup_cons.mp h
    rcases List.mem_cons.mp hitem with rfl | hitem
    · simp [value, List.lookup]
    · have hne : item.1 ≠ entry.1 := fun heq => hk (heq ▸ List.mem_map_of_mem hitem)
      have hskip : value (entry :: counts) item.1 = value counts item.1 := by
        simp [value, List.lookup, beq_eq_false_iff_ne.mpr hne]
      rw [hskip, ih hcounts hitem]

/-- The items of a tally: the keys that came, each with its multiplicity. -/
theorem mem_tally_iff {item : κ × ℕ} : item ∈ tally keys ↔ item.1 ∈ keys ∧ item.2 = keys.count item.1 := by
  constructor
  · intro h
    exact ⟨mem_tally h, by rw [← value_of_mem (nodup_tally keys) h, value_tally]⟩
  · rintro ⟨hmem, hcount⟩
    have hpos : value (tally keys) item.1 ≠ 0 := by
      rw [value_tally]
      exact Nat.ne_of_gt (List.count_pos_iff.mpr hmem)
    obtain ⟨n, hn⟩ : ∃ n, (tally keys).lookup item.1 = some n := by
      cases hl : (tally keys).lookup item.1 with
      | none => exact absurd (by rw [value, hl]; rfl) hpos
      | some n => exact ⟨n, rfl⟩
    obtain ⟨before, after, heq, -⟩ := List.lookup_eq_some_iff.mp hn
    have hin : (item.1, n) ∈ tally keys := heq ▸ List.mem_append_right _ List.mem_cons_self
    have hvalue : keys.count item.1 = n := by
      rw [← value_tally]
      exact value_of_mem (nodup_tally keys) hin
    rw [← Prod.mk.eta (p := item), hcount, hvalue]
    exact hin

end Bump

section Sorted

variable [LinearOrder κ]

/-- `sorted(counts.items())`: no key comes twice, so the order is that of the keys. -/
def sorted (counts : List (κ × ℕ)) : List (κ × ℕ) := counts.mergeSort fun a b => a.1 ≤ b.1

theorem sorted_tally (keys : List κ) :
    sorted (tally keys) = (keys.toFinset.sort (· ≤ ·)).map fun k => (k, keys.count k) := by
  have hperm : (sorted (tally keys)).Perm
      ((keys.toFinset.sort (· ≤ ·)).map fun k => (k, keys.count k)) := by
    refine (List.mergeSort_perm _ _).trans ((List.perm_ext_iff_of_nodup ?_ ?_).mpr fun item => ?_)
    · exact List.Nodup.of_map _ (nodup_tally keys)
    · exact (Finset.sort_nodup _ _).map fun a b h => (Prod.mk.inj h).1
    · rw [mem_tally_iff, List.mem_map]
      constructor
      · rintro ⟨hmem, hcount⟩
        exact ⟨item.1, (Finset.mem_sort _).mpr (List.mem_toFinset.mpr hmem), by rw [← hcount]⟩
      · rintro ⟨k, hk, rfl⟩
        exact ⟨List.mem_toFinset.mp ((Finset.mem_sort _).mp hk), rfl⟩
  have hsorted : (sorted (tally keys)).Pairwise fun a b => a.1 ≤ b.1 := by
    refine List.Pairwise.imp (fun hab => of_decide_eq_true hab) (List.pairwise_mergeSort ?_ ?_ _)
    · intro a b c hab hbc
      rw [decide_eq_true_eq] at hab hbc ⊢
      exact le_trans hab hbc
    · intro a b
      rw [Bool.or_eq_true, decide_eq_true_eq, decide_eq_true_eq]
      exact le_total a.1 b.1
  have hsort : ((keys.toFinset.sort (· ≤ ·)).map fun k => (k, keys.count k)).Pairwise
      fun a b => a.1 ≤ b.1 := List.pairwise_map.mpr (Finset.pairwise_sort _ _)
  refine hperm.eq_of_pairwise (fun a b ha hb hab hba => ?_) hsorted hsort
  obtain ⟨-, hcount⟩ := mem_tally_iff.mp ((List.mergeSort_perm _ _).mem_iff.mp ha)
  obtain ⟨k, -, rfl⟩ := List.mem_map.mp hb
  have hkey := le_antisymm hab hba
  exact Prod.ext hkey (by rw [hcount, hkey])

end Sorted

end Tally
