import Mathlib

/-!
# Prioritized regular expressions

Expressions over any alphabet, with repetition of character classes, optional
parts, named groups and the two anchors. `run` is a backtracking matcher: all
ways to match at a position, in the order they are tried, so the first is the
match. `search` tries the positions from the left.

`Spans` is what an expression means as a language, with no order among the ways.
A search succeeds exactly when the language occurs in the text
(`search_isSome`), and `head?_seq` and its companions compute the match.
-/

namespace Regex

variable {α γ : Type*}

/-- Which number of repetitions is tried first. -/
inductive Mode where
  | greedy
  | lazy
  deriving DecidableEq

inductive Re (α γ : Type*) where
  | empty
  | set (p : α → Bool)
  /-- any number of characters of a class -/
  | many (mode : Mode) (p : α → Bool)
  | seq (a b : Re α γ)
  /-- tried with before it is tried without -/
  | opt (a : Re α γ)
  | group (name : γ) (a : Re α γ)
  /-- the start of the text -/
  | start
  /-- the end of the text, or in front of a last character of the class -/
  | finish (p : α → Bool)

/-- A position in a text, and the groups matched so far, the latest first. -/
structure At (α γ : Type*) where
  pos : Nat
  rest : List α
  groups : List (γ × List α)

/-- The numbers up to `n`, in the order they are tried. -/
def Mode.order : Mode → Nat → List Nat
  | .greedy, n => (List.range (n + 1)).reverse
  | .lazy, n => List.range (n + 1)

theorem Mode.mem_order {mode : Mode} {n k : Nat} : k ∈ mode.order n ↔ k ≤ n := by
  cases mode <;> simp [order]

namespace Re

/-- The ways to match at a position, in the order they are tried. -/
def run : Re α γ → At α γ → List (At α γ)
  | empty, s => [s]
  | set p, s =>
    match s.rest with
    | c :: cs => if p c then [⟨s.pos + 1, cs, s.groups⟩] else []
    | [] => []
  | many mode p, s =>
    (mode.order (s.rest.takeWhile p).length).map fun k => ⟨s.pos + k, s.rest.drop k, s.groups⟩
  | seq a b, s => (run a s).flatMap (run b)
  | opt a, s => run a s ++ [s]
  | group name a, s =>
    (run a s).map fun t => { t with groups := (name, s.rest.take (t.pos - s.pos)) :: t.groups }
  | start, s => if s.pos = 0 then [s] else []
  | finish p, s =>
    match s.rest with
    | [] => [s]
    | [c] => if p c then [s] else []
    | _ => []

def searchFrom (r : Re α γ) : (pos : Nat) → List α → Option (At α γ)
  | pos, [] => (r.run ⟨pos, [], []⟩).head?
  | pos, c :: cs =>
    match (r.run ⟨pos, c :: cs, []⟩).head? with
    | some m => some m
    | none => searchFrom r (pos + 1) cs

/-- The leftmost match in a text. -/
def search (r : Re α γ) (text : List α) : Option (At α γ) := r.searchFrom 0 text

/-- Expressions in a row. -/
def cat (rs : List (Re α γ)) : Re α γ := rs.foldr seq empty

/-- One or more characters of a class. -/
def plus (mode : Mode) (p : α → Bool) : Re α γ := seq (set p) (many mode p)

/-- Classes in a row. -/
def lit : List (α → Bool) → Re α γ
  | [] => empty
  | p :: ps => seq (set p) (lit ps)

/-! ## The language -/

/-- `r` matches the word `w` at position `pos`, in front of `rest`. -/
def Spans : Re α γ → (pos : Nat) → (w rest : List α) → Prop
  | empty, _, w, _ => w = []
  | set p, _, w, _ => ∃ c, w = [c] ∧ p c = true
  | many _ p, _, w, _ => ∀ c ∈ w, p c = true
  | seq a b, pos, w, rest =>
    ∃ u v, w = u ++ v ∧ Spans a pos u (v ++ rest) ∧ Spans b (pos + u.length) v rest
  | opt a, pos, w, rest => Spans a pos w rest ∨ w = []
  | group _ a, pos, w, rest => Spans a pos w rest
  | start, pos, w, _ => pos = 0 ∧ w = []
  | finish p, _, w, rest => w = [] ∧ (rest = [] ∨ ∃ c, rest = [c] ∧ p c = true)

/-- The language of `r` occurs in the text. -/
def Occurs (r : Re α γ) (text : List α) : Prop :=
  ∃ before w after, text = before ++ (w ++ after) ∧ r.Spans before.length w after

theorem spans_of_mem_run (r : Re α γ) {s t : At α γ} (h : t ∈ r.run s) :
    ∃ w, s.rest = w ++ t.rest ∧ t.pos = s.pos + w.length ∧ r.Spans s.pos w t.rest := by
  induction r generalizing s t with
  | empty =>
    rw [run, List.mem_singleton] at h
    subst h
    exact ⟨[], rfl, rfl, rfl⟩
  | set p =>
    unfold run at h
    split at h
    · rename_i c cs hrest
      split at h
      · rename_i hp
        rw [List.mem_singleton] at h
        subst h
        exact ⟨[c], hrest, rfl, c, rfl, hp⟩
      · cases h
    · cases h
  | many mode p =>
    obtain ⟨k, hk, rfl⟩ := List.mem_map.mp h
    rw [Mode.mem_order] at hk
    have hlen := (List.takeWhile_prefix p (l := s.rest)).length_le
    refine ⟨s.rest.take k, (List.take_append_drop k s.rest).symm, ?_, ?_⟩
    · rw [List.length_take_of_le (by omega)]
    · intro c hc
      have hsub : s.rest.take k <+: s.rest.takeWhile p := by
        rw [List.prefix_iff_eq_take.mp (List.takeWhile_prefix p (l := s.rest))]
        exact List.take_prefix_take_left hk
      exact List.mem_takeWhile_imp (hsub.subset hc)
  | seq a b iha ihb =>
    obtain ⟨m, hm, ht⟩ := List.mem_flatMap.mp h
    obtain ⟨u, hu, hpu, hsu⟩ := iha hm
    obtain ⟨v, hv, hpv, hsv⟩ := ihb ht
    refine ⟨u ++ v, by rw [hu, hv, List.append_assoc], ?_, u, v, rfl, hv ▸ hsu, hpu ▸ hsv⟩
    rw [hpv, hpu, List.length_append, Nat.add_assoc]
  | opt a iha =>
    rcases List.mem_append.mp h with h | h
    · obtain ⟨w, hw, hp, hs⟩ := iha h
      exact ⟨w, hw, hp, .inl hs⟩
    · rw [List.mem_singleton] at h
      subst h
      exact ⟨[], rfl, rfl, .inr rfl⟩
  | group name a iha =>
    obtain ⟨m, hm, rfl⟩ := List.mem_map.mp h
    obtain ⟨w, hw⟩ := iha hm
    exact ⟨w, hw⟩
  | start =>
    unfold run at h
    split at h
    · rename_i hpos
      rw [List.mem_singleton] at h
      subst h
      exact ⟨[], rfl, rfl, hpos, rfl⟩
    · cases h
  | finish p =>
    unfold run at h
    split at h
    · rename_i hrest
      rw [List.mem_singleton] at h
      subst h
      exact ⟨[], rfl, rfl, rfl, .inl hrest⟩
    · rename_i c hrest
      split at h
      · rename_i hp
        rw [List.mem_singleton] at h
        subst h
        exact ⟨[], rfl, rfl, rfl, .inr ⟨c, hrest, hp⟩⟩
      · cases h
    · cases h

theorem exists_mem_run (r : Re α γ) {s : At α γ} {w rest : List α} (h : s.rest = w ++ rest)
    (hw : r.Spans s.pos w rest) :
    ∃ t ∈ r.run s, t.pos = s.pos + w.length ∧ t.rest = rest := by
  induction r generalizing s w rest with
  | empty =>
    cases hw
    exact ⟨s, List.mem_singleton_self s, rfl, h⟩
  | set p =>
    obtain ⟨c, rfl, hp⟩ := hw
    unfold run
    rw [h]
    dsimp only [List.singleton_append]
    rw [if_pos hp]
    exact ⟨_, List.mem_singleton_self _, rfl, rfl⟩
  | many mode p =>
    have hle : w.length ≤ (s.rest.takeWhile p).length := by
      rw [h, List.takeWhile_append_of_pos hw, List.length_append]
      exact Nat.le_add_right _ _
    refine ⟨_, List.mem_map_of_mem (Mode.mem_order.mpr hle), rfl, ?_⟩
    show s.rest.drop w.length = rest
    rw [h, List.drop_left]
  | seq a b iha ihb =>
    obtain ⟨u, v, rfl, hu, hv⟩ := hw
    obtain ⟨m, hm, hmpos, hmrest⟩ := iha (h.trans (List.append_assoc ..)) hu
    obtain ⟨t, ht, htpos, htrest⟩ := ihb hmrest (hmpos ▸ hv)
    refine ⟨t, List.mem_flatMap.mpr ⟨m, hm, ht⟩, ?_, htrest⟩
    rw [htpos, hmpos, List.length_append, Nat.add_assoc]
  | opt a iha =>
    rcases hw with hw | rfl
    · obtain ⟨t, ht, hpos, hrest⟩ := iha h hw
      exact ⟨t, List.mem_append_left _ ht, hpos, hrest⟩
    · exact ⟨s, List.mem_append_right _ (List.mem_singleton_self s), rfl, h⟩
  | group name a iha =>
    obtain ⟨t, ht, hpos, hrest⟩ := iha h hw
    exact ⟨_, List.mem_map_of_mem ht, hpos, hrest⟩
  | start =>
    obtain ⟨hpos, rfl⟩ := hw
    exact ⟨s, by rw [run, if_pos hpos]; exact List.mem_singleton_self s, rfl, h⟩
  | finish p =>
    obtain ⟨rfl, hend⟩ := hw
    refine ⟨s, ?_, rfl, h⟩
    unfold run
    rcases hend with rfl | ⟨c, rfl, hp⟩
    · rw [h]
      exact List.mem_singleton_self s
    · rw [h]
      dsimp only [List.nil_append]
      rw [if_pos hp]
      exact List.mem_singleton_self s

theorem run_ne_nil {r : Re α γ} {s : At α γ} :
    r.run s ≠ [] ↔ ∃ w rest, s.rest = w ++ rest ∧ r.Spans s.pos w rest := by
  constructor
  · intro h
    obtain ⟨t, l, heq⟩ := List.exists_cons_of_ne_nil h
    obtain ⟨w, hw, -, hs⟩ := r.spans_of_mem_run (heq ▸ List.mem_cons_self : t ∈ r.run s)
    exact ⟨w, t.rest, hw, hs⟩
  · rintro ⟨w, rest, h, hs⟩
    obtain ⟨t, ht, -⟩ := r.exists_mem_run h hs
    exact List.ne_nil_of_mem ht

theorem searchFrom_isSome (r : Re α γ) (pos : Nat) (text : List α) :
    (r.searchFrom pos text).isSome = true ↔
      ∃ before w after, text = before ++ (w ++ after) ∧ r.Spans (pos + before.length) w after := by
  induction text generalizing pos with
  | nil =>
    rw [searchFrom, List.isSome_head?, run_ne_nil]
    constructor
    · rintro ⟨w, rest, h, hs⟩
      exact ⟨[], w, rest, h, hs⟩
    · rintro ⟨before, w, after, h, hs⟩
      obtain ⟨rfl, hrest⟩ := List.append_eq_nil_iff.mp h.symm
      exact ⟨w, after, hrest.symm, hs⟩
  | cons c cs ih =>
    rw [searchFrom]
    cases hrun : r.run ⟨pos, c :: cs, []⟩ with
    | cons m ms =>
      refine iff_of_true rfl ?_
      obtain ⟨w, rest, h, hs⟩ := run_ne_nil.mp (hrun ▸ List.cons_ne_nil m ms)
      exact ⟨[], w, rest, h, hs⟩
    | nil =>
      show (r.searchFrom (pos + 1) cs).isSome = true ↔ _
      rw [ih]
      constructor
      · rintro ⟨before, w, after, rfl, hs⟩
        refine ⟨c :: before, w, after, rfl, ?_⟩
        rwa [List.length_cons, Nat.add_comm before.length, ← Nat.add_assoc]
      · rintro ⟨before, w, after, h, hs⟩
        cases before with
        | nil =>
          -- no match starts here
          exact absurd hrun (run_ne_nil.mpr ⟨w, after, h, hs⟩)
        | cons b before =>
          obtain ⟨rfl, htail⟩ := List.cons.inj h
          refine ⟨before, w, after, htail, ?_⟩
          rwa [Nat.add_assoc, Nat.add_comm 1]

/-- **A search succeeds** exactly when the language occurs. -/
theorem search_isSome {r : Re α γ} {text : List α} :
    (r.search text).isSome = true ↔ r.Occurs text := by
  rw [search, searchFrom_isSome, Occurs]
  simp only [Nat.zero_add]

theorem search_eq_none {r : Re α γ} {text : List α} : r.search text = none ↔ ¬ r.Occurs text := by
  rw [← search_isSome, Option.not_isSome_iff_eq_none]

/-! ## Languages of the derived forms -/

theorem spans_seq {a b : Re α γ} {pos : Nat} {w rest : List α} :
    (seq a b).Spans pos w rest ↔
      ∃ u v, w = u ++ v ∧ a.Spans pos u (v ++ rest) ∧ b.Spans (pos + u.length) v rest := Iff.rfl

theorem spans_plus {mode : Mode} {p : α → Bool} {pos : Nat} {w rest : List α} :
    (plus mode p : Re α γ).Spans pos w rest ↔ w ≠ [] ∧ ∀ c ∈ w, p c = true := by
  constructor
  · rintro ⟨_, v, rfl, ⟨c, rfl, hp⟩, hv⟩
    refine ⟨List.cons_ne_nil c v, fun d hd => ?_⟩
    rcases List.mem_cons.mp hd with rfl | hd
    · exact hp
    · exact hv d hd
  · rintro ⟨hne, hw⟩
    obtain ⟨c, v, rfl⟩ := List.exists_cons_of_ne_nil hne
    exact ⟨[c], v, rfl, ⟨c, rfl, hw c List.mem_cons_self⟩, fun d hd => hw d (List.mem_cons_of_mem c hd)⟩

theorem spans_lit {ps : List (α → Bool)} {pos : Nat} {w rest : List α} :
    (lit ps : Re α γ).Spans pos w rest ↔ List.Forall₂ (fun p c => p c = true) ps w := by
  induction ps generalizing pos w with
  | nil => rw [List.forall₂_nil_left_iff]; rfl
  | cons p ps ih =>
    rw [lit, spans_seq]
    constructor
    · rintro ⟨_, v, rfl, ⟨c, rfl, hp⟩, hv⟩
      exact .cons hp (ih.mp hv)
    · intro h
      obtain ⟨c, v, hp, hv, rfl⟩ := List.forall₂_cons_left_iff.mp h
      exact ⟨[c], v, rfl, ⟨c, rfl, hp⟩, ih.mpr hv⟩

/-! ## The first match -/

theorem head?_seq {a b : Re α γ} {s t u : At α γ} (ha : (a.run s).head? = some t)
    (hb : (b.run t).head? = some u) : ((seq a b).run s).head? = some u := by
  obtain ⟨l, hl⟩ := List.head?_eq_some_iff.mp ha
  rw [run, hl, List.flatMap_cons, List.head?_append, hb]
  rfl

theorem head?_opt {a : Re α γ} {s t : At α γ} (h : (a.run s).head? = some t) :
    ((opt a).run s).head? = some t := by
  rw [run, List.head?_append, h]
  rfl

theorem head?_group {name : γ} {a : Re α γ} {s t : At α γ} (h : (a.run s).head? = some t) :
    ((group name a).run s).head? =
      some { t with groups := (name, s.rest.take (t.pos - s.pos)) :: t.groups } := by
  rw [run, List.head?_map, h]
  rfl

theorem head?_greedy (p : α → Bool) (s : At α γ) :
    ((many .greedy p).run s).head? =
      some ⟨s.pos + (s.rest.takeWhile p).length, s.rest.drop (s.rest.takeWhile p).length, s.groups⟩ := by
  rw [run, Mode.order, List.range_succ, List.reverse_append, List.map_append, List.head?_append]
  rfl

/-- A greedy repetition takes all it can. -/
theorem head?_plus {p : α → Bool} {pos : Nat} {c : α} {cs : List α} {groups : List (γ × List α)}
    (hc : p c = true) :
    ((plus .greedy p).run ⟨pos, c :: cs, groups⟩).head? =
      some ⟨pos + 1 + (cs.takeWhile p).length, cs.drop (cs.takeWhile p).length, groups⟩ := by
  apply head?_seq (t := ⟨pos + 1, cs, groups⟩)
  · rw [run]
    dsimp only
    rw [if_pos hc]
    rfl
  · exact head?_greedy p _

theorem head?_lit {ps : List (α → Bool)} {pos : Nat} {w rest : List α} {groups : List (γ × List α)}
    (h : List.Forall₂ (fun p c => p c = true) ps w) :
    ((lit ps).run ⟨pos, w ++ rest, groups⟩).head? = some ⟨pos + w.length, rest, groups⟩ := by
  induction h generalizing pos with
  | nil => rfl
  | @cons p c ps w hp hw ih =>
    apply head?_seq (t := ⟨pos + 1, w ++ rest, groups⟩)
    · rw [run]
      dsimp only [List.cons_append]
      rw [if_pos hp]
      rfl
    · rw [ih, List.length_cons, Nat.add_comm w.length, ← Nat.add_assoc]

/-- A match at the start is the leftmost. -/
theorem search_of_head {r : Re α γ} {text : List α} {m : At α γ}
    (h : (r.run ⟨0, text, []⟩).head? = some m) : r.search text = some m := by
  cases text with
  | nil => exact h
  | cons c cs => rw [search, searchFrom, h]

end Re

end Regex
