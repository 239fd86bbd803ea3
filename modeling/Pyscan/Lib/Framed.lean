import Mathlib

/-!
# Readers of streams

A `Reader` is a generator over a stream: a turn stops it, raises, or takes
something off the front of the stream and goes on, with items to yield. `run`
exhausts it; `run_rule` is its induction. `placed` says where in the stream its items
end: a `Steady` reader yields of a stream's beginning the items that end there
(`Steady.run_cut`), which are the first of them (`filter_placed_prefix`).

A `Grammar` lays items end to end, each encoded in the context that the items
before it leave behind. Two facts carry the readers of such streams:
`run_stream` (who reads one item off the front reads a list of them) and
`cut_cases` (a stream cut anywhere is its whole items and a torn one).
-/

namespace Framed

variable {κ β ε ο τ : Type*}

/-- What a generator yields, and the exception it ends in, if any. -/
structure Outcome (ε ο : Type*) where
  items : List ο
  error : Option ε
  deriving DecidableEq

def Outcome.prepend (out : List ο) (r : Outcome ε ο) : Outcome ε ο := ⟨out ++ r.items, r.error⟩

@[simp] theorem Outcome.items_prepend (out : List ο) (r : Outcome ε ο) :
    (r.prepend out).items = out ++ r.items := rfl

structure Reader (κ β ε ο : Type*) where
  turn : κ → List β → Except ε (Option (κ × List β × List ο))
  shrinks : ∀ {k s k' s' out}, turn k s = .ok (some (k', s', out)) → s'.length < s.length

namespace Reader

variable (R : Reader κ β ε ο)

def run (k : κ) (s : List β) : Outcome ε ο :=
  match _h : R.turn k s with
  | .error e => ⟨[], some e⟩
  | .ok none => ⟨[], none⟩
  | .ok (some (k', s', out)) => (run k' s').prepend out
termination_by s.length
decreasing_by exact R.shrinks _h

variable {R}

theorem run_raise {k : κ} {s : List β} {e : ε} (h : R.turn k s = .error e) :
    R.run k s = ⟨[], some e⟩ := by
  rw [run]
  split <;> simp_all

theorem run_stop {k : κ} {s : List β} (h : R.turn k s = .ok none) : R.run k s = ⟨[], none⟩ := by
  rw [run]
  split <;> simp_all

theorem run_next {k k' : κ} {s s' : List β} {out : List ο}
    (h : R.turn k s = .ok (some (k', s', out))) : R.run k s = (R.run k' s').prepend out := by
  rw [run]
  split <;> simp_all

/-- **Induction on a run**: turn by turn, from its last one. -/
theorem run_rule {P : κ → List β → Outcome ε ο → Prop}
    (hraise : ∀ k s e, R.turn k s = .error e → P k s ⟨[], some e⟩)
    (hstop : ∀ k s, R.turn k s = .ok none → P k s ⟨[], none⟩)
    (hnext : ∀ k s k' s' out r, R.turn k s = .ok (some (k', s', out)) → P k' s' r →
      P k s (r.prepend out))
    (k : κ) (s : List β) : P k s (R.run k s) := by
  induction hn : s.length using Nat.strongRecOn generalizing k s with
  | _ n ih =>
    cases ht : R.turn k s with
    | error e =>
      rw [run_raise ht]
      exact hraise k s e ht
    | ok r =>
      cases r with
      | none =>
        rw [run_stop ht]
        exact hstop k s ht
      | some r =>
        obtain ⟨k', s', out⟩ := r
        rw [run_next ht]
        exact hnext k s k' s' out _ ht (ih _ (hn ▸ R.shrinks ht) k' s' rfl)

/-- A turn that goes on takes symbols off the front, and looks no further. -/
def Steady (R : Reader κ β ε ο) : Prop :=
  ∀ {k k' : κ} {s s' : List β} {out : List ο}, R.turn k s = .ok (some (k', s', out)) →
    ∃ front, s = front ++ s' ∧ ∀ rest, R.turn k (front ++ rest) = .ok (some (k', rest, out))

theorem Steady.append (h : R.Steady) {k k' : κ} {s s' : List β} {out : List ο}
    (hturn : R.turn k s = .ok (some (k', s', out))) (t : List β) :
    R.turn k (s ++ t) = .ok (some (k', s' ++ t, out)) := by
  obtain ⟨front, rfl, hfront⟩ := h hturn
  rw [List.append_assoc]
  exact hfront (s' ++ t)

/-- A turn that leaves the end of a stream alone does without it. -/
theorem Steady.of_append (h : R.Steady) {k k' : κ} {s s' t : List β} {out : List ο}
    (hturn : R.turn k (s ++ t) = .ok (some (k', s', out))) (hlength : t.length ≤ s'.length) :
    ∃ u, s' = u ++ t ∧ R.turn k s = .ok (some (k', u, out)) := by
  obtain ⟨front, hsplit, hfront⟩ := h hturn
  rcases List.append_eq_append_iff.mp hsplit with ⟨u, hfront', rfl⟩ | ⟨u, rfl, rfl⟩
  · -- the front would reach into the end
    rw [List.length_append] at hlength
    obtain rfl : u = [] := List.length_eq_zero_iff.mp (by omega)
    rw [List.append_nil] at hfront'
    exact ⟨[], rfl, hfront' ▸ (by simpa using hfront [])⟩
  · exact ⟨u, rfl, hfront u⟩

/-! ## Where the items of a stream end -/

/-- A turn that says with each item how many symbols it leaves behind. -/
def placedTurn (R : Reader κ β ε ο) (k : κ) (s : List β) : Except ε (Option (κ × List β × List (ℕ × ο))) :=
  match R.turn k s with
  | .error e => .error e
  | .ok none => .ok none
  | .ok (some (k', s', out)) => .ok (some (k', s', out.map (Prod.mk s'.length)))

theorem placedTurn_next {k k' : κ} {s s' : List β} {out : List (ℕ × ο)}
    (h : R.placedTurn k s = .ok (some (k', s', out))) :
    ∃ items, R.turn k s = .ok (some (k', s', items)) ∧ out = items.map (Prod.mk s'.length) := by
  unfold placedTurn at h
  split at h
  · cases h
  · cases h
  · cases h
    exact ⟨_, ‹_›, rfl⟩

/-- The reader that says with each item how many symbols of the stream are left behind it. -/
def placed (R : Reader κ β ε ο) : Reader κ β ε (ℕ × ο) where
  turn := R.placedTurn
  shrinks h := by
    obtain ⟨items, hturn, -⟩ := placedTurn_next h
    exact R.shrinks hturn

theorem run_placed_of_not_next {k : κ} {s : List β} (h : ∀ r, R.turn k s ≠ .ok (some r)) :
    (R.run k s).items = [] ∧ (R.placed.run k s).items = [] := by
  cases ht : R.turn k s with
  | error e =>
    have hplaced : R.placed.turn k s = .error e := by
      show R.placedTurn k s = _
      rw [placedTurn, ht]
    rw [run_raise ht, run_raise hplaced]
    exact ⟨rfl, rfl⟩
  | ok r =>
    cases r with
    | none =>
      have hplaced : R.placed.turn k s = .ok none := by
        show R.placedTurn k s = _
        rw [placedTurn, ht]
      rw [run_stop ht, run_stop hplaced]
      exact ⟨rfl, rfl⟩
    | some r => exact absurd ht (h r)

theorem run_placed_next {k k' : κ} {s s' : List β} {out : List ο}
    (h : R.turn k s = .ok (some (k', s', out))) :
    (R.placed.run k s).items = out.map (Prod.mk s'.length) ++ (R.placed.run k' s').items := by
  have hplaced : R.placed.turn k s = .ok (some (k', s', out.map (Prod.mk s'.length))) := by
    show R.placedTurn k s = _
    rw [placedTurn, h]
  rw [run_next hplaced, Outcome.items_prepend]

/-- Every turn takes something off the stream: less and less of it is left behind the items. -/
theorem placed_sorted (k : κ) (s : List β) :
    (∀ p ∈ (R.placed.run k s).items, p.1 < s.length) ∧
      (R.placed.run k s).items.Pairwise fun p q => q.1 ≤ p.1 := by
  refine run_rule (R := R.placed)
    (P := fun _ s r => (∀ p ∈ r.items, p.1 < s.length) ∧ r.items.Pairwise fun p q => q.1 ≤ p.1)
    ?_ ?_ ?_ k s
  · exact fun _ _ _ _ => ⟨List.forall_mem_nil _, .nil⟩
  · exact fun _ _ _ => ⟨List.forall_mem_nil _, .nil⟩
  · intro k s k' s' out r hturn ih
    have hshrinks := R.placed.shrinks hturn
    obtain ⟨items, -, rfl⟩ := placedTurn_next hturn
    have hout : ∀ p ∈ items.map (Prod.mk s'.length), p.1 = s'.length := by
      intro p hp
      obtain ⟨item, -, rfl⟩ := List.mem_map.mp hp
      rfl
    constructor
    · intro p hp
      rcases List.mem_append.mp hp with hp | hp
      · exact (hout p hp).trans_lt hshrinks
      · exact (ih.1 p hp).trans hshrinks
    · refine List.pairwise_append.mpr ⟨?_, ih.2, fun p hp q hq => ?_⟩
      · exact List.pairwise_map.mpr (List.pairwise_of_forall fun _ _ => le_rfl)
      · rw [hout p hp]
        exact (ih.1 q hq).le

/-- The items that leave at least `n` symbols behind are the first of them. -/
theorem filter_placed_prefix (k : κ) (s : List β) (n : ℕ) :
    (R.placed.run k s).items.filter (fun p => n ≤ p.1) <+: (R.placed.run k s).items := by
  have hsorted := (placed_sorted (R := R) k s).2
  generalize (R.placed.run k s).items = items at hsorted ⊢
  induction items with
  | nil => exact List.prefix_rfl
  | cons p items ih =>
    obtain ⟨hp, hitems⟩ := List.pairwise_cons.mp hsorted
    by_cases hn : n ≤ p.1
    · rw [List.filter_cons_of_pos (by simpa using hn)]
      exact List.cons_prefix_cons.mpr ⟨rfl, ih hitems⟩
    · have hnone : ∀ q ∈ p :: items, ¬ n ≤ q.1 :=
        List.forall_mem_cons.mpr ⟨hn, fun q hq hle => hn (hle.trans (hp q hq))⟩
      rw [List.filter_eq_nil_iff.mpr (by simpa using hnone)]
      exact List.nil_prefix

theorem map_snd_placed (k : κ) (s : List β) :
    (R.placed.run k s).items.map Prod.snd = (R.run k s).items := by
  refine run_rule (R := R)
    (P := fun k s r => (R.placed.run k s).items.map Prod.snd = r.items) ?_ ?_ ?_ k s
  · exact fun k s e h => by
      rw [(run_placed_of_not_next fun r hr => by rw [h] at hr; cases hr).2]
      rfl
  · exact fun k s h => by
      rw [(run_placed_of_not_next fun r hr => by rw [h] at hr; cases hr).2]
      rfl
  · intro k s k' s' out r hturn ih
    rw [run_placed_next hturn, List.map_append, ih, List.map_map, Outcome.items_prepend]
    congr 1
    exact List.map_id _

/-- **A steady reader yields of a beginning just what it takes from there**: of a stream that goes on
behind it, the items that leave as much of the stream as is behind it. -/
theorem Steady.run_cut (h : R.Steady) (k : κ) (s t : List β) :
    (R.run k s).items =
      ((R.placed.run k (s ++ t)).items.filter fun p => t.length ≤ p.1).map Prod.snd := by
  induction hn : s.length using Nat.strongRecOn generalizing k s with
  | _ n ih =>
    by_cases hgoes : ∃ r, R.turn k (s ++ t) = .ok (some r)
    · obtain ⟨⟨k', s', out⟩, hturn⟩ := hgoes
      rw [run_placed_next hturn, List.filter_append, List.map_append]
      by_cases hlength : t.length ≤ s'.length
      · -- the turn is taken from the beginning
        obtain ⟨u, rfl, hfront⟩ := h.of_append hturn hlength
        have hall : (out.map (Prod.mk (u ++ t).length)).filter (fun p => t.length ≤ p.1) =
            out.map (Prod.mk (u ++ t).length) := by
          refine List.filter_eq_self.mpr fun p hp => ?_
          obtain ⟨item, -, rfl⟩ := List.mem_map.mp hp
          exact decide_eq_true hlength
        rw [hall, List.map_map, run_next hfront, Outcome.items_prepend,
          ih _ (hn ▸ R.shrinks hfront) k' u rfl]
        congr 1
        exact (List.map_id _).symm
      · -- it reaches behind it, and so do all after it
        have hnone : ∀ p ∈ out.map (Prod.mk s'.length) ++ (R.placed.run k' s').items,
            ¬ t.length ≤ p.1 := by
          intro p hp
          rcases List.mem_append.mp hp with hp | hp
          · obtain ⟨item, -, rfl⟩ := List.mem_map.mp hp
            exact hlength
          · have := (placed_sorted k' s').1 p hp
            omega
        rw [← List.map_append, ← List.filter_append, List.filter_eq_nil_iff.mpr (by simpa using hnone)]
        refine (run_placed_of_not_next fun r hr => hlength ?_).1
        obtain ⟨k'', s'', out''⟩ := r
        have happend := h.append hr t
        rw [hturn] at happend
        cases happend
        rw [List.length_append]
        omega
    · push Not at hgoes
      rw [(run_placed_of_not_next hgoes).2]
      refine (run_placed_of_not_next fun r hr => ?_).1
      obtain ⟨k', s', out⟩ := r
      exact hgoes _ (h.append hr t)

end Reader

/-- Items laid end to end: how each is encoded in a context, the context after it, and what a
reader should yield for it. -/
structure Grammar (κ β τ ο : Type*) where
  bytes : κ → τ → List β
  next : κ → τ → κ
  out : κ → τ → List ο

namespace Grammar

variable (G : Grammar κ β τ ο)

def stream (k : κ) : List τ → List β
  | [] => []
  | t :: ts => G.bytes k t ++ stream (G.next k t) ts

def items (k : κ) : List τ → List ο
  | [] => []
  | t :: ts => G.out k t ++ items (G.next k t) ts

/-- The context behind some items. -/
def after (k : κ) (ts : List τ) : κ := ts.foldl G.next k

/-- Every item satisfies `P` in the context it stands in. -/
def Along (P : κ → τ → Prop) (k : κ) : List τ → Prop
  | [] => True
  | t :: ts => P k t ∧ Along P (G.next k t) ts

/-- The items that lie wholly within the first `n` symbols. -/
def whole (k : κ) (n : ℕ) : List τ → List τ
  | [] => []
  | t :: ts =>
    if (G.bytes k t).length ≤ n then t :: whole (G.next k t) (n - (G.bytes k t).length) ts else []

variable {G}

theorem stream_append (k : κ) (ts us : List τ) :
    G.stream k (ts ++ us) = G.stream k ts ++ G.stream (G.after k ts) us := by
  induction ts generalizing k with
  | nil => rfl
  | cons t ts ih =>
    rw [List.cons_append, stream, stream, ih, List.append_assoc]
    rfl

theorem items_append (k : κ) (ts us : List τ) :
    G.items k (ts ++ us) = G.items k ts ++ G.items (G.after k ts) us := by
  induction ts generalizing k with
  | nil => rfl
  | cons t ts ih =>
    rw [List.cons_append, items, items, ih, List.append_assoc]
    rfl

theorem along_of_forall {P : κ → τ → Prop} (h : ∀ k t, P k t) (k : κ) (ts : List τ) :
    G.Along P k ts := by
  induction ts generalizing k with
  | nil => trivial
  | cons t ts ih => exact ⟨h k t, ih _⟩

theorem along_append {P : κ → τ → Prop} {k : κ} {ts us : List τ} :
    G.Along P k (ts ++ us) ↔ G.Along P k ts ∧ G.Along P (G.after k ts) us := by
  induction ts generalizing k with
  | nil => simp [Along, after]
  | cons t ts ih => rw [List.cons_append, Along, Along, ih, and_assoc]; rfl

/-- **Where a cut falls**: behind the stream, or inside one item, behind the whole ones. -/
theorem cut_cases (k : κ) (n : ℕ) (ts : List τ) :
    ((G.stream k ts).length ≤ n ∧ G.whole k n ts = ts) ∨
      ∃ us t rest m, ts = us ++ t :: rest ∧ G.whole k n ts = us ∧
        n = (G.stream k us).length + m ∧ m < (G.bytes (G.after k us) t).length := by
  induction ts generalizing k n with
  | nil => exact .inl ⟨Nat.zero_le n, rfl⟩
  | cons t ts ih =>
    by_cases hfit : (G.bytes k t).length ≤ n
    · have hwhole : G.whole k n (t :: ts) =
          t :: G.whole (G.next k t) (n - (G.bytes k t).length) ts := if_pos hfit
      rcases ih (G.next k t) (n - (G.bytes k t).length) with ⟨hlen, hall⟩ |
        ⟨us, u, rest, m, hts, hall, hn, hm⟩
      · refine .inl ⟨?_, by rw [hwhole, hall]⟩
        rw [stream, List.length_append]
        omega
      · refine .inr ⟨t :: us, u, rest, m, by rw [hts, List.cons_append], by rw [hwhole, hall], ?_, hm⟩
        rw [stream, List.length_append]
        omega
    · exact .inr ⟨[], t, ts, n, rfl, if_neg hfit, (Nat.zero_add n).symm, Nat.lt_of_not_le hfit⟩

/-- A cut inside an item leaves those before it whole. -/
theorem whole_torn (k : κ) (us : List τ) (t : τ) (rest : List τ) {m : ℕ}
    (hm : m < (G.bytes (G.after k us) t).length) :
    G.whole k ((G.stream k us).length + m) (us ++ t :: rest) = us := by
  induction us generalizing k with
  | nil => exact if_neg (by rw [stream, List.length_nil, Nat.zero_add]; exact Nat.not_le.mpr hm)
  | cons u us ih =>
    have hfit : (G.bytes k u).length ≤ (G.stream k (u :: us)).length + m := by
      rw [stream, List.length_append]
      omega
    have hrest : (G.stream k (u :: us)).length + m - (G.bytes k u).length =
        (G.stream (G.next k u) us).length + m := by
      rw [stream, List.length_append]
      omega
    rw [List.cons_append, whole, if_pos hfit, hrest, ih (G.next k u) hm]

theorem take_stream (k : κ) (us : List τ) (t : τ) (rest : List τ) {m : ℕ}
    (hm : m < (G.bytes (G.after k us) t).length) :
    (G.stream k (us ++ t :: rest)).take ((G.stream k us).length + m) =
      G.stream k us ++ (G.bytes (G.after k us) t).take m := by
  rw [stream_append, stream, List.take_length_add_append, List.take_append_of_le_length hm.le]

end Grammar

/-! ## Reading a grammar -/

section Reads

variable {R : Reader κ β ε ο} {G : Grammar κ β τ ο} {P : κ → τ → Prop}

/-- A turn takes any item satisfying `P` off the front of a stream. -/
def Reads (R : Reader κ β ε ο) (G : Grammar κ β τ ο) (P : κ → τ → Prop) : Prop :=
  ∀ k t rest, P k t → R.turn k (G.bytes k t ++ rest) = .ok (some (G.next k t, rest, G.out k t))

/-- **Reading a list of items**, and on to whatever follows it. -/
theorem Reads.run_stream (h : Reads R G P) {k : κ} {ts : List τ} (hts : G.Along P k ts)
    (rest : List β) :
    R.run k (G.stream k ts ++ rest) = (R.run (G.after k ts) rest).prepend (G.items k ts) := by
  induction ts generalizing k with
  | nil => rfl
  | cons t ts ih =>
    rw [Grammar.stream, List.append_assoc, Reader.run_next (h k t _ hts.1), ih hts.2]
    simp only [Outcome.prepend, Grammar.items, List.append_assoc]
    rfl

/-- A reader that stops at the end of a stream reads the list and no more. -/
theorem Reads.run_all (h : Reads R G P) (hend : ∀ k, R.turn k [] = .ok none) {k : κ} {ts : List τ}
    (hts : G.Along P k ts) : R.run k (G.stream k ts) = ⟨G.items k ts, none⟩ := by
  have hrun := h.run_stream hts []
  rw [List.append_nil, Reader.run_stop (hend _)] at hrun
  rw [hrun, Outcome.prepend, List.append_nil]

/-- **Reading a cut stream**: the whole items, and whatever the reader makes of the torn one. -/
theorem Reads.run_cut (h : Reads R G P) {k : κ} {us rest : List τ} {t : τ}
    (hts : G.Along P k (us ++ t :: rest)) {m : ℕ} (hm : m < (G.bytes (G.after k us) t).length) :
    R.run k ((G.stream k (us ++ t :: rest)).take ((G.stream k us).length + m)) =
      (R.run (G.after k us) ((G.bytes (G.after k us) t).take m)).prepend (G.items k us) := by
  rw [Grammar.take_stream k us t rest hm, h.run_stream (Grammar.along_append.mp hts).1]

/-- A reader that stops at a torn item reads the whole items of a cut stream. -/
theorem Reads.run_take (h : Reads R G P) (hend : ∀ k, R.turn k [] = .ok none)
    (htorn : ∀ k t m, P k t → m < (G.bytes k t).length → R.turn k ((G.bytes k t).take m) = .ok none)
    {k : κ} {ts : List τ} (hts : G.Along P k ts) (n : ℕ) :
    R.run k ((G.stream k ts).take n) = ⟨G.items k (G.whole k n ts), none⟩ := by
  rcases G.cut_cases k n ts with ⟨hlen, hall⟩ | ⟨us, t, rest, m, rfl, hall, rfl, hm⟩
  · rw [List.take_of_length_le hlen, hall, h.run_all hend hts]
  · have ht : P (G.after k us) t := (Grammar.along_append.mp hts).2.1
    rw [h.run_cut hts hm, hall, Reader.run_stop (htorn _ t m ht hm), Outcome.prepend,
      List.append_nil]

end Reads

end Framed
