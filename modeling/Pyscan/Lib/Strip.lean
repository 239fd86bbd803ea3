import Mathlib

/-!
# Stripping lists

`strip p l` is `l` without the elements satisfying `p` at either end. What is
appended to a list is stripped with it exactly when all of it satisfies `p`
(`strip_append_eq`), and two lists strip alike at the right end exactly when
they differ by such elements only (`rdropWhile_eq_iff`).
-/

namespace Strip

variable {α : Type*} {p : α → Bool}

def strip (p : α → Bool) (l : List α) : List α := (l.dropWhile p).rdropWhile p

theorem rdropWhile_append_pos {a b : List α} (h : ∀ x ∈ b, p x = true) :
    (a ++ b).rdropWhile p = a.rdropWhile p := by
  simp only [List.rdropWhile, List.reverse_append]
  rw [List.dropWhile_append_of_pos (by simpa using h)]

theorem rdropWhile_append_neg {a b : List α} (h : ¬ ∀ x ∈ b, p x = true) :
    (a ++ b).rdropWhile p = a ++ b.rdropWhile p := by
  have hb : (b.reverse.dropWhile p).isEmpty = false := by
    rw [List.isEmpty_eq_false_iff, ne_eq, List.dropWhile_eq_nil_iff]
    simpa using h
  simp only [List.rdropWhile, List.reverse_append]
  rw [List.dropWhile_append, hb, if_neg (by simp), List.reverse_append, List.reverse_reverse]

theorem rdropWhile_eq_iff {a b : List α} :
    a.rdropWhile p = b.rdropWhile p ↔
      ∃ s x y, (∀ c ∈ x, p c = true) ∧ (∀ c ∈ y, p c = true) ∧ a = s ++ x ∧ b = s ++ y := by
  constructor
  · intro h
    refine ⟨a.rdropWhile p, a.rtakeWhile p, b.rtakeWhile p, fun c hc => List.mem_rtakeWhile_imp hc,
      fun c hc => List.mem_rtakeWhile_imp hc, (List.rdropWhile_append_rtakeWhile ..).symm, ?_⟩
    rw [h, List.rdropWhile_append_rtakeWhile]
  · rintro ⟨s, x, y, hx, hy, rfl, rfl⟩
    rw [rdropWhile_append_pos hx, rdropWhile_append_pos hy]

theorem strip_eq_nil {l : List α} : strip p l = [] ↔ ∀ x ∈ l, p x = true := by
  rw [strip, List.rdropWhile_eq_nil_iff]
  constructor
  · intro h x hx
    rw [← List.takeWhile_append_dropWhile (p := p) (l := l), List.mem_append] at hx
    exact hx.elim List.mem_takeWhile_imp (h x)
  · exact fun h x hx => h x ((List.dropWhile_suffix p).mem hx)

theorem strip_sublist (p : α → Bool) (l : List α) : (strip p l).Sublist l := by
  have hinit := List.rdropWhile_prefix p (l.dropWhile p)
  exact hinit.sublist.trans (List.dropWhile_sublist p)

theorem dropWhile_eq_self {l : List α} (h : ∀ x ∈ l, p x = false) : l.dropWhile p = l := by
  cases l with
  | nil => rfl
  | cons x l => exact List.dropWhile_cons_of_neg (by rw [h x List.mem_cons_self]; decide)

/-- Where nothing satisfies `p`, nothing is stripped. -/
theorem strip_eq_self {l : List α} (h : ∀ x ∈ l, p x = false) : strip p l = l := by
  rw [strip, dropWhile_eq_self h, List.rdropWhile,
    dropWhile_eq_self fun x hx => h x (List.mem_reverse.mp hx), List.reverse_reverse]

/-- A stripped list starts with an element that stays. -/
theorem strip_head {l : List α} {a : α} {as : List α} (h : strip p l = a :: as) : p a = false := by
  have hinit := List.rdropWhile_prefix p (l.dropWhile p)
  rw [← strip, h] at hinit
  obtain ⟨t, ht⟩ := hinit
  have hhead := List.head?_dropWhile_not p l
  rw [← ht] at hhead
  exact hhead

/-- In front of a list, elements satisfying `p` are stripped; anything else stays, with what is
behind it. -/
theorem strip_append_pos {a b : List α} (h : ∀ x ∈ a, p x = true) : strip p (a ++ b) = strip p b := by
  rw [strip, List.dropWhile_append_of_pos h, strip]

theorem strip_append_neg {a b : List α} (h : ¬ ∀ x ∈ a, p x = true) :
    strip p (a ++ b) = (a.dropWhile p ++ b).rdropWhile p := by
  have ha : (a.dropWhile p).isEmpty = false := by
    rw [List.isEmpty_eq_false_iff, ne_eq, List.dropWhile_eq_nil_iff]
    simpa using h
  rw [strip, List.dropWhile_append, ha, if_neg (by simp)]

/-- **What is appended is stripped exactly when** all of it satisfies `p`. -/
theorem strip_append_eq {a b : List α} : strip p a = strip p (a ++ b) ↔ ∀ x ∈ b, p x = true := by
  by_cases ha : ∀ x ∈ a, p x = true
  · rw [strip_append_pos ha, strip_eq_nil.mpr ha, eq_comm, strip_eq_nil]
  · rw [strip_append_neg ha, strip]
    by_cases hb : ∀ x ∈ b, p x = true
    · exact iff_of_true (rdropWhile_append_pos hb).symm hb
    · refine iff_of_false (fun h => ?_) hb
      rw [rdropWhile_append_neg hb] at h
      have hinit := List.rdropWhile_prefix p (a.dropWhile p)
      have hle := hinit.length_le
      have hpos : 0 < (b.rdropWhile p).length := by
        rw [List.length_pos_iff, ne_eq, List.rdropWhile_eq_nil_iff]
        exact hb
      rw [h, List.length_append] at hle
      omega

theorem mem_strip {l : List α} {a : α} (h : p a = false) : a ∈ strip p l ↔ a ∈ l := by
  refine ⟨fun ha => (strip_sublist p l).subset ha, fun ha => ?_⟩
  rw [← List.takeWhile_append_dropWhile (p := p) (l := l), List.mem_append] at ha
  have hdrop : a ∈ l.dropWhile p :=
    ha.resolve_left fun htake => by simpa [h] using List.mem_takeWhile_imp htake
  rw [← List.rdropWhile_append_rtakeWhile (p := p) (l := l.dropWhile p), List.mem_append] at hdrop
  exact hdrop.resolve_right fun htake => by simpa [h] using List.mem_rtakeWhile_imp htake

theorem strip_dropWhile (p : α → Bool) (l : List α) : strip p (l.dropWhile p) = strip p l := by
  have hpos := strip_append_pos (p := p) (a := l.takeWhile p) (b := l.dropWhile p)
    fun x hx => List.mem_takeWhile_imp hx
  rwa [List.takeWhile_append_dropWhile, eq_comm] at hpos

theorem strip_rdropWhile (p : α → Bool) (l : List α) : strip p (l.rdropWhile p) = strip p l := by
  have heq := strip_append_eq (p := p) (a := l.rdropWhile p) (b := l.rtakeWhile p)
  rw [List.rdropWhile_append_rtakeWhile] at heq
  exact heq.mpr fun x hx => List.mem_rtakeWhile_imp hx

theorem strip_strip (p : α → Bool) (l : List α) : strip p (strip p l) = strip p l := by
  rw [strip.eq_1 p l, strip_rdropWhile, strip_dropWhile, strip]

/-- Padding is stripped. -/
theorem strip_pad {a b : List α} (ha : ∀ x ∈ a, p x = true) (hb : ∀ x ∈ b, p x = true)
    (l : List α) : strip p (a ++ (l ++ b)) = strip p l := by
  rw [strip_append_pos ha, ← strip_append_eq.mpr hb]

/-- An element that stays keeps what is stripped on either side of it apart. -/
theorem strip_append_cons {c : α} (h : p c = false) (a b : List α) :
    strip p (a ++ c :: b) = a.dropWhile p ++ c :: b.rdropWhile p := by
  have hdrop : (a ++ c :: b).dropWhile p = a.dropWhile p ++ c :: b := by
    rw [List.dropWhile_append]
    split
    · rename_i hnil
      rw [List.isEmpty_iff.mp hnil, List.dropWhile_cons_of_neg (by rw [h]; decide), List.nil_append]
    · rfl
  have hneg : ¬ ∀ x ∈ c :: b, p x = true := by simp [h]
  have hrdrop : (c :: b).rdropWhile p = c :: b.rdropWhile p := by
    rw [← List.singleton_append, ← List.singleton_append (l := b.rdropWhile p)]
    by_cases hb : ∀ x ∈ b, p x = true
    · rw [rdropWhile_append_pos hb, List.rdropWhile_eq_nil_iff.mpr hb]
      simp [List.rdropWhile, h]
    · exact rdropWhile_append_neg hb
  rw [strip, hdrop, rdropWhile_append_neg hneg, hrdrop]

end Strip
