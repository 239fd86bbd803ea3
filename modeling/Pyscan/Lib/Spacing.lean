import Mathlib

/-!
# Points in time that keep their distance

`Spaced δ ts` says that the times of a log, in any order, are pairwise at least
`δ` apart; a closed window of length `T` then holds at most `⌊T / δ⌋ + 1` of
them (`Spaced.window_le`).

A `Ledger` is the bookkeeping of whoever hands out times: some are booked, some
spent, and a new one is never booked before `next`. Its rules (`book`, `spend`)
are the only moves that a client which spends each booked time once, when it
comes, can make.
-/

namespace Spacing

variable {K : Type*} [Field K] [LinearOrder K]

def Apart (δ s t : K) : Prop := δ ≤ |s - t|

theorem Apart.symm {δ s t : K} (h : Apart δ s t) : Apart δ t s := by
  rwa [Apart, abs_sub_comm]

def Spaced (δ : K) (ts : List K) : Prop := ts.Pairwise (Apart δ)

section Spaced

variable {δ s t : K} {ts us : List K}

theorem Spaced.perm (h : Spaced δ ts) (hp : ts.Perm us) : Spaced δ us :=
  (hp.pairwise_iff fun h => h.symm).mp h

theorem Spaced.sublist (h : Spaced δ ts) (hs : us.Sublist ts) : Spaced δ us := List.Pairwise.sublist hs h

variable [IsStrictOrderedRing K]

theorem apart_of_add_le (h : s + δ ≤ t) : Apart δ t s :=
  (le_sub_iff_add_le'.mpr h).trans (le_abs_self _)

/-- Times in one slot of width `δ` are closer than `δ`. -/
theorem Apart.floor_ne [FloorRing K] {a : K} (hδ : 0 < δ) (h : Apart δ s t) :
    ⌊(s - a) / δ⌋ ≠ ⌊(t - a) / δ⌋ := by
  intro heq
  have hlt := Int.abs_sub_lt_one_of_floor_eq_floor heq
  rw [← sub_div, sub_sub_sub_cancel_right, abs_div, abs_of_pos hδ, div_lt_one hδ] at hlt
  exact absurd h (not_le.mpr hlt)

/-- **A window of length `T` holds at most `⌊T / δ⌋ + 1` spaced times.** -/
theorem Spaced.window_le [FloorRing K] (hδ : 0 < δ) (h : Spaced δ ts) (a T : K) :
    ts.countP (fun t => a ≤ t ∧ t ≤ a + T) ≤ ⌊T / δ⌋₊ + 1 := by
  obtain ⟨ws, hws⟩ : ∃ ws, ws = ts.filter fun t => a ≤ t ∧ t ≤ a + T := ⟨_, rfl⟩
  have hspaced : Spaced δ ws := hws ▸ h.sublist List.filter_sublist
  have hslots : (ws.map fun t => ⌊(t - a) / δ⌋).Nodup :=
    List.Pairwise.map _ (fun s t hst => hst.floor_ne hδ) hspaced
  have hmem : (ws.map fun t => ⌊(t - a) / δ⌋).toFinset ⊆ Finset.Icc 0 ⌊T / δ⌋ := by
    intro n hn
    rw [List.mem_toFinset, List.mem_map] at hn
    obtain ⟨t, ht, rfl⟩ := hn
    rw [hws, List.mem_filter, decide_eq_true_eq] at ht
    obtain ⟨-, hwin⟩ := ht
    rw [Finset.mem_Icc]
    constructor
    · exact Int.floor_nonneg.mpr (div_nonneg (sub_nonneg.mpr hwin.1) hδ.le)
    · exact Int.floor_le_floor (div_le_div_of_nonneg_right (sub_le_iff_le_add'.mpr hwin.2) hδ.le)
  have hcard := Finset.card_le_card hmem
  rw [List.toFinset_card_of_nodup hslots, List.length_map, Int.card_Icc] at hcard
  rw [List.countP_eq_length_filter, ← hws, ← Int.floor_toNat]
  omega

end Spaced

/-! ## Ledgers -/

/-- Times handed out, at least `δ` apart: `booked` lie ahead, `spent` have been used, and none
lies less than `δ` before `next`. -/
structure Ledger (δ next : K) (booked spent : List K) : Prop where
  spaced : Spaced δ (booked ++ spent)
  before : ∀ t ∈ booked ++ spent, t + δ ≤ next

namespace Ledger

variable {δ next t : K} {booked spent booked' spent' : List K}

theorem empty (δ next : K) : Ledger δ next [] [] := ⟨List.Pairwise.nil, by simp⟩

theorem perm (h : Ledger δ next booked spent) (hb : booked.Perm booked') (hs : spent.Perm spent') :
    Ledger δ next booked' spent' :=
  ⟨h.spaced.perm (hb.append hs), fun t ht => h.before t ((hb.append hs).mem_iff.mpr ht)⟩

/-- A booking may be dropped. -/
theorem forget (h : Ledger δ next booked spent) (hb : booked'.Subperm booked) :
    Ledger δ next booked' spent := by
  obtain ⟨bs, hperm, hsub⟩ := hb
  have hsub := hsub.append_right spent
  exact Ledger.perm ⟨h.spaced.sublist hsub, fun t ht => h.before t (hsub.subset ht)⟩ hperm
    (List.Perm.refl spent)

variable [IsStrictOrderedRing K] in
/-- A time from `next` on may be booked. -/
theorem book (h : Ledger δ next booked spent) (hδ : 0 ≤ δ) (ht : next ≤ t) :
    Ledger δ (t + δ) (t :: booked) spent where
  spaced := List.pairwise_cons.mpr ⟨fun s hs => apart_of_add_le ((h.before s hs).trans ht), h.spaced⟩
  before s hs := by
    rcases List.mem_cons.mp hs with rfl | hs
    · exact le_rfl
    · exact ((h.before s hs).trans ht).trans (le_add_of_nonneg_right hδ)

/-- A booked time may be spent. -/
theorem spend (h : Ledger δ next booked spent) (hb : booked.Perm (t :: booked')) :
    Ledger δ next booked' (spent ++ [t]) := by
  have hp : (booked ++ spent).Perm (booked' ++ (spent ++ [t])) := by
    apply (hb.append_right spent).trans
    rw [List.cons_append, ← List.append_assoc]
    exact (List.perm_append_singleton t (booked' ++ spent)).symm
  exact ⟨h.spaced.perm hp, fun s hs => h.before s (hp.mem_iff.mpr hs)⟩

theorem spent_spaced (h : Ledger δ next booked spent) : Spaced δ spent :=
  h.spaced.sublist (List.sublist_append_right booked spent)

end Ledger

end Spacing
