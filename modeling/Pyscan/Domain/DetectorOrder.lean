import Pyscan.Domain.DetectorRuns

/-!
# The order of the packets

Only the new-talker rule looks at the past, and only at whether the packet's
pair has been reported. All else a packet contributes it contributes whatever
came before: its place in the counters and sets, and the alerts of its other
rules (`lasting`). So the totals rules of `Mealy.Machine` give every field of
the final detector and every other alert, input by input, and **a permutation
of the packets changes neither** (`order_independent`).
-/

namespace Pyscan.OtDetect

open Py Mealy

/-- An alert of the new-talker rule. -/
def Alert.newTalker (a : Alert) : Bool :=
  a.summary = "Unauthorised talker sending OT traffic to a protected device"

/-- The pairs that alerts report as new talkers. -/
def newTalkers (out : List Alert) : List (String × String) :=
  (out.filter Alert.newTalker).map fun a => (a.src, a.dst)

theorem count_newTalkers (out : List Alert) (pair : String × String) :
    (newTalkers out).count pair = out.countP (newTalkerAlert pair.1 pair.2) := by
  rw [newTalkers, List.count, List.countP_map, List.countP_filter]
  refine List.countP_congr fun a _ => ?_
  simp [newTalkerAlert, Alert.newTalker, Prod.ext_iff, and_comm]

/-- The operations of a packet that do not depend on the past. -/
def lastingOperations (pkt : Packet) (protocol : String) (dport : Nat) : List Operation :=
  synOperations pkt protocol dport ++
    if pkt.payload = [] then [] else payloadOperations protocol pkt.payload

theorem lasting_of_mem {pkt : Packet} {protocol : String} {dport : Nat} {op : Operation}
    (h : op ∈ lastingOperations pkt protocol dport) : op.Lasting := by
  rcases List.mem_append.mp h with h | h
  · exact synOperations_lasting h
  · split at h
    · cases h
    · exact payloadOperations_lasting h

/-- The operations of a packet and its new-talker operation are all it does. -/
theorem filterMap_operations {α : Type} (f : Operation → Option α) (seen : Finset (String × String))
    (pkt : Packet) (protocol : String) (dport : Nat)
    (h : ∀ op ∈ talkerOperations seen pkt protocol, f op = none) :
    (operations seen pkt protocol dport).filterMap f =
      (lastingOperations pkt protocol dport).filterMap f := by
  unfold operations lastingOperations
  split
  · rfl
  · rw [List.filterMap_append, List.filterMap_append, List.filterMap_append,
      List.filterMap_eq_nil_iff.mpr h, List.nil_append]

theorem newTalker_judge {op : Operation} (hop : op.Lasting) {b : Baseline} {pkt : Packet} {a : Alert}
    (ha : b.judge pkt op = some a) : a.newTalker = false := by
  have h := not_newTalkerAlert hop.1 hop.2 ha a.src a.dst
  simpa [newTalkerAlert, Alert.newTalker] using h

namespace Detector

section Step

variable {d : Detector} {pkt : Packet}

/-- The alerts of a packet that do not depend on the past. -/
def lasting (b : Baseline) (pkt : Packet) : List Alert :=
  match (fresh b).target pkt with
  | none => []
  | some (protocol, dport) => (lastingOperations pkt protocol dport).filterMap (b.judge pkt)

/-- The names a packet's operations are recorded under. -/
def names (b : Baseline) (pkt : Packet) : List String :=
  match (fresh b).target pkt with
  | none => []
  | some (protocol, dport) => (lastingOperations pkt protocol dport).filterMap Operation.name

theorem react_lasting :
    (d.react pkt).2.filter (fun a => !a.newTalker) = lasting d.baseline pkt := by
  unfold react lasting
  rw [show (fresh d.baseline).target pkt = d.target pkt from rfl]
  cases d.target pkt with
  | none => rfl
  | some t =>
    dsimp only
    rw [report, accept_baseline, ← List.filterMap_eq_filter, List.filterMap_filterMap,
      filterMap_operations]
    · rw [← List.filterMap_filterMap, List.filterMap_eq_filter, List.filter_eq_self]
      intro a ha
      obtain ⟨op, hop, hj⟩ := List.mem_filterMap.mp ha
      simp [newTalker_judge (lasting_of_mem hop) hj]
    · intro op hop
      unfold talkerOperations at hop
      split at hop
      · cases hop
      · rw [List.mem_singleton.mp hop]
        cases hs : d.baseline.standing pkt.src <;>
          simp [Baseline.judge, hs, Danger.verdict, raise, talkerReport, Alert.newTalker]

theorem react_observed {name : String} :
    name ∈ (d.react pkt).1.observedOperations ↔
      name ∈ d.observedOperations ∨ name ∈ names d.baseline pkt := by
  unfold react names
  rw [show (fresh d.baseline).target pkt = d.target pkt from rfl]
  cases d.target pkt with
  | none => simp
  | some t =>
    have ha : (d.accept pkt).observedOperations = d.observedOperations := by
      unfold accept
      split <;> rfl
    dsimp only
    rw [report, ha, Finset.mem_union, List.mem_toFinset, filterMap_operations]
    intro op hop
    unfold talkerOperations at hop
    split at hop
    · cases hop
    · rw [List.mem_singleton.mp hop]

/-- A stranger's first payload raises a serious alert. -/
theorem talker_mem {protocol : String} {dport : Nat} (hw : Watched d.baseline pkt protocol dport)
    (ht : Talks d.baseline pkt) (hseen : talkers pkt ∉ d.seenTalkers) :
    raise pkt (talkerReport protocol) .high ∈ (d.react pkt).2 := by
  rw [react_watched hw, report, accept_baseline]
  refine List.mem_filterMap.mpr ⟨⟨none, some (.presence, talkerReport protocol)⟩, ?_, ?_⟩
  · rw [operations, if_neg ht.payload, talkerOperations, if_neg hseen]
    simp
  · simp [Baseline.judge, ht.stranger, Danger.verdict]

/-- A new-talker alert on a packet is about a pair that talks. -/
theorem talks_of_newTalker {a : Alert} (ha : a ∈ (d.react pkt).2) (hn : a.newTalker = true) :
    Talks d.baseline pkt := by
  have hpos : 0 < (d.react pkt).2.countP (newTalkerAlert a.src a.dst) := by
    rw [List.countP_pos_iff]
    exact ⟨a, ha, by simpa [newTalkerAlert, Alert.newTalker] using hn⟩
  rw [countP_newTalker_eq (a.src, a.dst)] at hpos
  split at hpos
  · rename_i h
    exact ((mem_react_seenTalkers.mp h.1).resolve_left h.2).1
  · exact absurd hpos (Nat.lt_irrefl 0)

/-- What the source of a packet is marked hostile for, whatever came before. -/
structure Marks (b : Baseline) (pkt : Packet) (s : String) : Prop where
  src : str pkt.src = s
  stranger : b.standing pkt.src = .stranger
  cause : Talks b pkt ∨ ∃ a ∈ lasting b pkt, a.severity ≠ .info

/-- Every talker that was reported is marked. -/
structure Consistent (b : Baseline) (d : Detector) : Prop where
  baseline : d.baseline = b
  marked : ∀ pair ∈ d.seenTalkers, pair.1 ∈ d.hostileSources

theorem react_hostile {b : Baseline} (h : Consistent b d) {s : String} :
    s ∈ (d.react pkt).1.hostileSources ↔ s ∈ d.hostileSources ∨ Marks b pkt s := by
  obtain rfl := h.baseline
  rw [mem_react_hostileSources]
  constructor
  · rintro (hs | ⟨hs, a, ha, hsev, rfl⟩)
    · exact .inl hs
    · refine .inr ⟨(src_of_mem_react ha).symm, hs, ?_⟩
      by_cases hn : a.newTalker = true
      · exact .inl (talks_of_newTalker ha hn)
      · rw [← react_lasting]
        exact .inr ⟨a, List.mem_filter.mpr ⟨ha, by simp [hn]⟩, hsev⟩
  · rintro (hs | ⟨rfl, hs, ht | ⟨a, ha, hsev⟩⟩)
    · exact .inl hs
    · by_cases hseen : talkers pkt ∈ d.seenTalkers
      · exact .inl (h.marked _ hseen)
      · obtain ⟨protocol, dport, hw⟩ := ht.watched
        exact .inr ⟨hs, _, talker_mem hw ht hseen, by simp [raise], rfl⟩
    · rw [← react_lasting] at ha
      have ha := (List.mem_filter.mp ha).1
      exact .inr ⟨hs, a, ha, hsev, src_of_mem_react ha⟩

theorem Consistent.step {b : Baseline} (h : Consistent b d) (pkt : Packet) :
    Consistent b (d.react pkt).1 := by
  refine ⟨(d.react_baseline pkt).trans h.baseline, fun pair hp => ?_⟩
  rw [react_hostile h]
  rcases mem_react_seenTalkers.mp hp with hseen | ⟨ht, rfl⟩
  · exact .inl (h.marked pair hseen)
  · exact .inr ⟨rfl, h.baseline ▸ ht.stranger, .inl (h.baseline ▸ ht)⟩

end Step

/-! ## Runs, packet by packet -/

section Runs

variable (b : Baseline) (pkts : List Packet)

theorem consistent_fresh : Consistent b (fresh b) := ⟨rfl, by simp [fresh]⟩

theorem seen_run (pair : String × String) :
    pair ∈ (machine.run (fresh b) pkts).1.seenTalkers ↔
      ∃ pkt ∈ pkts, Talks b pkt ∧ talkers pkt = pair := by
  rw [Machine.run_collects (M := machine) (P := fun d => pair ∈ d.seenTalkers)
    (fun _ pkt h => h.step pkt) (fun _ _ h => h.baseline ▸ mem_react_seenTalkers)
    (consistent_fresh b) pkts]
  simp [fresh]

theorem hostile_run (s : String) :
    s ∈ (machine.run (fresh b) pkts).1.hostileSources ↔ ∃ pkt ∈ pkts, Marks b pkt s := by
  rw [Machine.run_collects (M := machine) (P := fun d => s ∈ d.hostileSources)
    (fun _ pkt h => h.step pkt) (fun _ _ h => react_hostile h) (consistent_fresh b) pkts]
  simp [fresh]

theorem observed_run (name : String) :
    name ∈ (machine.run (fresh b) pkts).1.observedOperations ↔
      ∃ pkt ∈ pkts, name ∈ names b pkt := by
  rw [Machine.run_collects (M := machine) (P := fun d => name ∈ d.observedOperations)
    (fun _ pkt h => h.step pkt) (fun _ _ h => h.baseline ▸ react_observed) (consistent_fresh b) pkts]
  simp [fresh]

theorem packets_run :
    (machine.run (fresh b) pkts).1.packets =
      (pkts.map fun pkt => if b.watches pkt then 1 else 0).sum := by
  rw [Machine.run_adds (M := machine) (f := Detector.packets) (fun _ pkt h => h.step pkt)
    (fun _ _ h => h.baseline ▸ react_packets) (consistent_fresh b) pkts]
  exact Nat.zero_add _

theorem lasting_run :
    (machine.run (fresh b) pkts).2.filter (fun a => !a.newTalker) = pkts.flatMap (lasting b) :=
  Machine.run_filter (M := machine) (fun _ pkt h => h.step pkt)
    (fun _ _ h => h.baseline ▸ react_lasting) (consistent_fresh b) pkts

/-- Each pair seen was reported once, and no other was. -/
theorem count_newTalkers_run (pair : String × String) :
    (newTalkers (machine.run (fresh b) pkts).2).count pair =
      if pair ∈ (machine.run (fresh b) pkts).1.seenTalkers then 1 else 0 := by
  refine machine.run_induction (I := fun _ out d => (newTalkers out).count pair =
    if pair ∈ d.seenTalkers then 1 else 0) (by simp [newTalkers, fresh]) ?_ pkts
  intro _ out d pkt ih
  rw [count_newTalkers] at ih ⊢
  rw [List.countP_append, ih, show (machine.step d pkt) = d.react pkt from rfl, countP_newTalker_eq]
  by_cases hseen : pair ∈ d.seenTalkers
  · rw [if_pos hseen, if_neg fun h => h.2 hseen, if_pos (mem_react_seenTalkers.mpr (.inl hseen))]
  · simp [hseen]

theorem alerts_run :
    (machine.run (fresh b) pkts).1.alerts = (machine.run (fresh b) pkts).2.length := by
  refine machine.run_induction (I := fun _ out d => d.alerts = out.length) rfl ?_ pkts
  intro _ out d pkt ih
  rw [show (machine.step d pkt) = d.react pkt from rfl, react_alerts, ih, List.length_append]

end Runs

/-! ## Permutations -/

section Order

variable {b : Baseline} {pkts pkts' : List Packet}

theorem newTalkers_perm (h : pkts.Perm pkts') :
    (newTalkers (machine.run (fresh b) pkts).2).Perm (newTalkers (machine.run (fresh b) pkts').2) := by
  rw [List.perm_iff_count]
  intro pair
  have hseen := (seen_run b pkts pair).trans
    ((exists_congr fun pkt => and_congr_left' h.mem_iff).trans (seen_run b pkts' pair).symm)
  simp only [count_newTalkers_run, hseen]

theorem lasting_perm (h : pkts.Perm pkts') :
    ((machine.run (fresh b) pkts).2.filter fun a => !a.newTalker).Perm
      ((machine.run (fresh b) pkts').2.filter fun a => !a.newTalker) := by
  rw [lasting_run, lasting_run]
  exact h.flatMap_right (lasting b)

/-- The number of alerts is that of the new talkers and that of all others. -/
theorem length_eq (out : List Alert) :
    out.length = (newTalkers out).length + (out.filter fun a => !a.newTalker).length := by
  rw [newTalkers, List.length_map, ← List.countP_eq_length_filter, ← List.countP_eq_length_filter]
  simpa using List.length_eq_countP_add_countP Alert.newTalker

theorem run_perm (h : pkts.Perm pkts') :
    (machine.run (fresh b) pkts).1 = (machine.run (fresh b) pkts').1 := by
  have halerts : (machine.run (fresh b) pkts).1.alerts = (machine.run (fresh b) pkts').1.alerts := by
    rw [alerts_run, alerts_run, length_eq, length_eq (machine.run (fresh b) pkts').2,
      (newTalkers_perm h).length_eq, (lasting_perm h).length_eq]
  have hpackets : (machine.run (fresh b) pkts).1.packets = (machine.run (fresh b) pkts').1.packets := by
    rw [packets_run, packets_run, (h.map _).sum_eq]
  have hset : ∀ {P : Packet → Prop}, (∃ pkt ∈ pkts, P pkt) ↔ ∃ pkt ∈ pkts', P pkt :=
    exists_congr fun pkt => and_congr_left' h.mem_iff
  have hhostile : (machine.run (fresh b) pkts).1.hostileSources =
      (machine.run (fresh b) pkts').1.hostileSources := by
    ext s
    rw [hostile_run, hostile_run, hset]
  have hobserved : (machine.run (fresh b) pkts).1.observedOperations =
      (machine.run (fresh b) pkts').1.observedOperations := by
    ext name
    rw [observed_run, observed_run, hset]
  have hseen : (machine.run (fresh b) pkts).1.seenTalkers =
      (machine.run (fresh b) pkts').1.seenTalkers := by
    ext pair
    rw [seen_run, seen_run, hset]
  have hbase := (run_baseline (fresh b) pkts).trans (run_baseline (fresh b) pkts').symm
  obtain ⟨d, hd⟩ : ∃ d, (machine.run (fresh b) pkts).1 = d := ⟨_, rfl⟩
  obtain ⟨d', hd'⟩ : ∃ d', (machine.run (fresh b) pkts').1 = d' := ⟨_, rfl⟩
  rw [hd, hd'] at hbase halerts hpackets hhostile hobserved hseen ⊢
  cases d
  cases d'
  simp_all

/-- **Detection results are order-independent**: two fresh detectors fed the same packets in two
orders end in one state, return the same alerts but for the new talkers, and report the same pairs
as new talkers, each once. -/
theorem order_independent (b : Baseline) {pkts pkts' : List Packet} (h : pkts.Perm pkts') :
    ∃ d out out', (fresh b).feedAll pkts = .ok (d, out) ∧ (fresh b).feedAll pkts' = .ok (d, out') ∧
      (out.filter fun a => !a.newTalker).Perm (out'.filter fun a => !a.newTalker) ∧
      (newTalkers out).Nodup ∧ (newTalkers out').Nodup ∧
      ∀ pair, pair ∈ newTalkers out ↔ pair ∈ newTalkers out' := by
  have hnodup : ∀ pkts, (newTalkers (machine.run (fresh b) pkts).2).Nodup := by
    intro pkts
    rw [List.nodup_iff_count_le_one]
    intro pair
    rw [count_newTalkers_run]
    split <;> omega
  refine ⟨(machine.run (fresh b) pkts).1, _, _, feedAll_eq _ _, ?_, lasting_perm h, hnodup _,
    hnodup _, fun pair => (newTalkers_perm h).mem_iff⟩
  rw [feedAll_eq, run_perm h]

/-- A stranger's write and its STOPDT to one device: either may be the one that carries the
new-talker alert. -/
theorem order_independent_swap :
    ∃ d out out',
      (fresh { hmi := {"10.0.0.5"} }).feedAll
        [{ ts := 0, length := 66, protocol := "TCP", src := some "10.0.0.9", dst := some "10.0.0.7",
           dport := some 502, payload := [0, 1, 0, 0, 0, 6, 1, 5, 0, 0, 0xff, 0] },
         { ts := 1, length := 60, protocol := "TCP", src := some "10.0.0.9", dst := some "10.0.0.7",
           dport := some 2404, payload := [0x68, 4, 0x13, 0, 0, 0] }] = .ok (d, out) ∧
      (fresh { hmi := {"10.0.0.5"} }).feedAll
        [{ ts := 1, length := 60, protocol := "TCP", src := some "10.0.0.9", dst := some "10.0.0.7",
           dport := some 2404, payload := [0x68, 4, 0x13, 0, 0, 0] },
         { ts := 0, length := 66, protocol := "TCP", src := some "10.0.0.9", dst := some "10.0.0.7",
           dport := some 502, payload := [0, 1, 0, 0, 0, 6, 1, 5, 0, 0, 0xff, 0] }] = .ok (d, out') ∧
      (out.filter fun a => !a.newTalker).Perm (out'.filter fun a => !a.newTalker) ∧
      (newTalkers out).Nodup ∧ (newTalkers out').Nodup ∧
      ∀ pair, pair ∈ newTalkers out ↔ pair ∈ newTalkers out' :=
  order_independent { hmi := {"10.0.0.5"} } (List.Perm.swap _ _ [])

end Order

end Detector

end Pyscan.OtDetect
