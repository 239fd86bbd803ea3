import Pyscan.Domain.DetectorStep

/-!
# The detector over whole runs

`Detector.machine` is the detector as a reactive machine; feeding a list of
packets is running it (`feedAll_eq`). One packet changes the detector as
`Domain.DetectorStep` says, so each run-level result below is a statement about
one packet and an application of a rule of `Mealy.Machine`: the accounting
invariant, the severity policy, and that no source masks another.
-/

namespace Pyscan.OtDetect

open Py Mealy

namespace Detector

def machine : Machine Detector Packet Alert where
  step d pkt := d.react pkt

theorem feedAll_eq (d : Detector) (pkts : List Packet) : d.feedAll pkts = .ok (machine.run d pkts) := by
  induction pkts generalizing d with
  | nil => rfl
  | cons pkt pkts ih =>
    rw [feedAll, feed_eq, ok_bind, ih, ok_bind]
    rfl

/-- The states a detector with some baseline can be in. -/
def Reachable (d : Detector) : Prop := ∃ b pkts out, (fresh b).feedAll pkts = .ok (d, out)

theorem run_baseline (d : Detector) (pkts : List Packet) :
    (machine.run d pkts).1.baseline = d.baseline :=
  machine.run_invariant (I := fun d' => d'.baseline = d.baseline)
    (fun s i h => (s.react_baseline i).trans h) rfl pkts

/-! ## Accounting -/

section Accounting

variable {b : Baseline} {pkt : Packet} {d : Detector}

theorem standing_eq_stranger {src : Option String} :
    b.standing src = .stranger ↔ ∃ s, src = some s ∧ b.hmi ≠ ∅ ∧ s ∉ b.hmi := by
  unfold Baseline.standing
  by_cases hb : b.hmi = ∅
  · simp [hb]
  · cases src with
    | none => simp [hb]
    | some host => by_cases hm : host ∈ b.hmi <;> simp [hb, hm]

/-- An alert on a decoded packet carries the packet's addresses. -/
theorem addresses_of_mem_react {a : Alert} (ha : a ∈ (d.react pkt).2) (hp : pkt.Addressed) :
    pkt.src = some a.src ∧ pkt.dst = some a.dst := by
  obtain ⟨protocol, dport, hw, -⟩ := mem_react ha
  obtain ⟨src, dst, hs, hd, -, -⟩ := hp.addresses (.inr (by rw [hw.port]; simp))
  rw [src_of_mem_react ha, dst_of_mem_react ha, hs, hd]
  exact ⟨rfl, rfl⟩

/-- The unauthorised `src` sent a payload to a protected OT port of `dst`. -/
structure Sends (b : Baseline) (pkt : Packet) (src dst : String) : Prop where
  watched : b.watches pkt = true
  payload : pkt.payload ≠ []
  from_src : pkt.src = some src
  to_dst : pkt.dst = some dst
  known : b.hmi ≠ ∅
  unauthorised : src ∉ b.hmi

theorem sends_iff {src dst : String} :
    Sends b pkt src dst ↔ Talks b pkt ∧ talkers pkt = (src, dst) := by
  constructor
  · intro h
    refine ⟨⟨watches_iff.mp h.watched, h.payload, ?_⟩, ?_⟩
    · exact standing_eq_stranger.mpr ⟨src, h.from_src, h.known, h.unauthorised⟩
    · rw [talkers, h.from_src, h.to_dst]
      rfl
  · rintro ⟨h, hpair⟩
    obtain ⟨s, hs, hk, hu⟩ := standing_eq_stranger.mp h.stranger
    obtain ⟨protocol, dport, hw⟩ := h.watched
    obtain ⟨t, ht, -⟩ := hw.dst
    rw [talkers, hs, ht] at hpair
    obtain ⟨rfl, rfl⟩ : s = src ∧ t = dst := by simpa [str] using hpair
    exact ⟨watches_iff.mpr h.watched, h.payload, hs, ht, hk, hu⟩

/-- What the detector's fields say after the packets `pkts`, of which it returned `returned`. -/
structure Accounted (b : Baseline) (pkts : List Packet) (returned : List Alert) (d : Detector) :
    Prop where
  baseline : d.baseline = b
  alerts : d.alerts = returned.length
  packets : d.packets = pkts.countP b.watches
  hostile : ∀ s, s ∈ d.hostileSources ↔
    ∃ a ∈ returned, a.severity ≠ .info ∧ a.src = s ∧ b.hmi ≠ ∅ ∧ s ∉ b.hmi
  seen : ∀ src dst, (src, dst) ∈ d.seenTalkers ↔ ∃ pkt ∈ pkts, Sends b pkt src dst
  once : ∀ src dst, (src, dst) ∈ d.seenTalkers →
    returned.countP (newTalkerAlert src dst) = 1
  never : ∀ src dst, (src, dst) ∉ d.seenTalkers →
    returned.countP (newTalkerAlert src dst) = 0

theorem accounted_fresh (b : Baseline) : Accounted b [] [] (fresh b) where
  baseline := rfl
  alerts := rfl
  packets := rfl
  hostile s := by simp [fresh]
  seen src dst := by simp [fresh]
  once src dst h := by simp [fresh] at h
  never src dst _ := rfl

/-- One decoded packet keeps the accounts. -/
theorem Accounted.step {pkts : List Packet} {returned : List Alert}
    (h : Accounted b pkts returned d) (hp : pkt.Addressed) :
    Accounted b (pkts ++ [pkt]) (returned ++ (d.react pkt).2) (d.react pkt).1 := by
  obtain rfl := h.baseline
  have htalk : ∀ src dst, (src, dst) ∈ (d.react pkt).1.seenTalkers ↔
      (src, dst) ∈ d.seenTalkers ∨ Sends d.baseline pkt src dst := by
    intro src dst
    rw [mem_react_seenTalkers, sends_iff]
  refine ⟨d.react_baseline pkt, ?_, ?_, fun s => ?_, fun src dst => ?_, fun src dst hs => ?_,
    fun src dst hs => ?_⟩
  · rw [react_alerts, h.alerts, List.length_append]
  · rw [react_packets, h.packets, List.countP_append, List.countP_singleton]
  · rw [mem_react_hostileSources, h.hostile]
    have hstranger : ∀ a ∈ (d.react pkt).2, d.baseline.standing pkt.src = .stranger ↔
        d.baseline.hmi ≠ ∅ ∧ a.src ∉ d.baseline.hmi := by
      intro a ha
      rw [standing_eq_stranger, (addresses_of_mem_react ha hp).1]
      simp
    constructor
    · rintro (⟨a, ha, hrest⟩ | ⟨hs, a, ha, hsev, rfl⟩)
      · exact ⟨a, List.mem_append_left _ ha, hrest⟩
      · exact ⟨a, List.mem_append_right _ ha, hsev, rfl, (hstranger a ha).mp hs⟩
    · rintro ⟨a, ha, hsev, rfl, hk, hu⟩
      rcases List.mem_append.mp ha with ha | ha
      · exact .inl ⟨a, ha, hsev, rfl, hk, hu⟩
      · exact .inr ⟨(hstranger a ha).mpr ⟨hk, hu⟩, a, ha, hsev, rfl⟩
  · rw [htalk, h.seen]
    simp only [List.mem_append, List.mem_singleton, or_and_right, exists_or, exists_eq_left]
  · -- reported before and not again, or reported now and not before
    rw [List.countP_append, countP_newTalker_eq (src, dst)]
    by_cases hseen : (src, dst) ∈ d.seenTalkers
    · rw [h.once src dst hseen, if_neg fun hn => hn.2 hseen]
    · rw [h.never src dst hseen, if_pos ⟨hs, hseen⟩]
  · have hn : (src, dst) ∉ d.seenTalkers := fun hm => hs ((htalk src dst).mpr (.inl hm))
    rw [List.countP_append, h.never src dst hn, countP_newTalker_eq (src, dst),
      if_neg fun hnew => hs hnew.1]

theorem accounted_run (b : Baseline) {pkts : List Packet} (hp : ∀ pkt ∈ pkts, pkt.Addressed) :
    Accounted b pkts (machine.run (fresh b) pkts).2 (machine.run (fresh b) pkts).1 := by
  refine machine.run_induction (I := fun pkts out d => (∀ pkt ∈ pkts, pkt.Addressed) →
    Accounted b pkts out d) (fun _ => accounted_fresh b) ?_ pkts hp
  intro pkts out d pkt ih hp
  exact (ih fun q hq => hp q (List.mem_append_left _ hq)).step
    (hp pkt (List.mem_append_right _ List.mem_cons_self))

end Accounting

/-! ## The severity policy -/

section Severity

variable {b : Baseline} {pkt : Packet} {d : Detector} {a : Alert}

theorem eq_change_of_critical {danger : Danger} {standing : Standing}
    (h : danger.verdict standing = some .critical) : danger = .change ∧ standing = .stranger := by
  cases danger <;> cases standing <;> simp_all [Danger.verdict]

/-- A critical alert is about a stranger's command to a protected device. -/
theorem critical_of_mem_react (ha : a ∈ (d.react pkt).2) (hc : a.severity = .critical) :
    d.baseline.standing pkt.src = .stranger ∧ (∃ protocol dport, Watched d.baseline pkt protocol dport) ∧
      Commands pkt := by
  obtain ⟨protocol, dport, hw, op, hop, danger, r, severity, hf, hv, rfl⟩ := mem_react ha
  obtain rfl : severity = .critical := hc
  obtain ⟨rfl, hs⟩ := eq_change_of_critical hv
  exact ⟨hs, ⟨protocol, dport, hw⟩, commands_of_change hw hop hf⟩

/-- The operator's alerts are informational, but for a silenced outstation. -/
theorem severity_of_operator (ha : a ∈ (d.react pkt).2)
    (ho : d.baseline.standing pkt.src = .operator) :
    a.severity = if stopdtAlert a then .medium else .info := by
  obtain ⟨protocol, dport, hw, op, hop, danger, r, severity, hf, hv, rfl⟩ := mem_react ha
  have hstop := stopdtAlert_raise (operations_titled hop) hf
    (fun h => report_of_silence hop (h ▸ hf)) pkt severity
  rw [ho] at hv
  cases danger with
  | change =>
    rw [if_neg (by rw [hstop]; simp)]
    exact (Option.some.inj hv).symm
  | silence =>
    rw [if_pos (hstop.mpr rfl)]
    exact (Option.some.inj hv).symm
  | survey => cases hv
  | presence => cases hv

theorem hostileSources_of_not_stranger (hs : d.baseline.standing pkt.src ≠ .stranger) :
    (d.react pkt).1.hostileSources = d.hostileSources := by
  ext s
  rw [mem_react_hostileSources]
  exact or_iff_left fun h => hs h.1

/-- A station of the baseline raises informational alerts only, but for a silenced outstation, and
is never marked. -/
theorem react_operator {s : String} (hs : pkt.src = some s) (hhmi : s ∈ d.baseline.hmi) :
    (∀ a ∈ (d.react pkt).2, a.severity = if stopdtAlert a then .medium else .info) ∧
      (d.react pkt).1.hostileSources = d.hostileSources := by
  have hne : d.baseline.hmi ≠ ∅ := Finset.ne_empty_of_mem hhmi
  have ho : d.baseline.standing pkt.src = .operator := by
    rw [hs, Baseline.standing, if_neg hne]
    exact if_pos hhmi
  exact ⟨fun a ha => severity_of_operator ha ho,
    hostileSources_of_not_stranger (by rw [ho]; simp)⟩

/-- What a critical alert on a decoded packet says of its addresses and its payload. -/
theorem critical_addressed (hp : pkt.Addressed) (ha : a ∈ (d.react pkt).2)
    (hc : a.severity = .critical) :
    d.baseline.hmi ≠ ∅ ∧ a.src ∉ d.baseline.hmi ∧
      (d.baseline.plcs = ∅ ∨ a.dst ∈ d.baseline.plcs) ∧ Commands pkt := by
  obtain ⟨hs, ⟨protocol, dport, hw⟩, hcmd⟩ := critical_of_mem_react ha hc
  obtain ⟨hsrc, hdst⟩ := addresses_of_mem_react ha hp
  obtain ⟨s, hs', hk, hu⟩ := standing_eq_stranger.mp hs
  obtain ⟨t, ht, hprot⟩ := hw.dst
  cases hsrc.symm.trans hs'
  cases hdst.symm.trans ht
  exact ⟨hk, hu, hprot, hcmd⟩

/-- The addresses of an alert are the packet's, and no placeholders. -/
theorem rendered_of_mem_react (hp : pkt.Addressed) (ha : a ∈ (d.react pkt).2) :
    pkt.src = some a.src ∧ pkt.dst = some a.dst ∧ a.src ≠ "None" ∧ a.dst ≠ "None" := by
  obtain ⟨protocol, dport, hw, -⟩ := mem_react ha
  obtain ⟨s, t, hs, ht, hrs, hrt⟩ := hp.addresses (.inr (by rw [hw.port]; simp))
  obtain ⟨hsrc, hdst⟩ := addresses_of_mem_react ha hp
  cases hsrc.symm.trans hs
  cases hdst.symm.trans ht
  exact ⟨hsrc, hdst, hrs.ne_none, hrt.ne_none⟩

/-- A packet the detector does not watch for changes nothing. -/
theorem react_ignored (hw : d.baseline.watches pkt = false) : d.react pkt = (d, []) := by
  refine react_unwatched fun p q h => ?_
  rw [watches_iff.mpr ⟨p, q, h⟩] at hw
  cases hw

/-- Without a baseline no alert is critical and no source is hostile. -/
theorem run_unknown (hb : b.hmi = ∅) (pkts : List Packet) :
    (∀ a ∈ (machine.run (fresh b) pkts).2, a.severity ≠ .critical) ∧
      (machine.run (fresh b) pkts).1.hostileSources = ∅ := by
  have hns : ∀ src, b.standing src ≠ .stranger := fun src h => by
    rw [standing_eq_unknown.mpr hb] at h
    cases h
  constructor
  · intro a ha hc
    obtain ⟨js, pkt, ks, -, ha⟩ := machine.mem_run ha
    have hs := (critical_of_mem_react ha hc).1
    rw [run_baseline] at hs
    exact hns pkt.src hs
  · refine machine.run_induction (I := fun _ _ d => d.baseline = b → d.hostileSources = ∅)
      (fun _ => rfl) (fun pkts out d pkt ih hd => ?_) pkts (run_baseline (fresh b) pkts)
    have hd' : d.baseline = b := (d.react_baseline pkt).symm.trans hd
    exact (hostileSources_of_not_stranger (hd' ▸ hns pkt.src)).trans (ih hd')

/-- **The severity policy over all runs**: after any frames, for the next frame. -/
theorem severity_policy (b : Baseline) (frames : List (ℚ × Nat × Bytes)) (ts : ℚ) (linktype : Nat)
    (raw : Bytes) :
    ∃ d out d' alerts,
      (fresh b).feedAll (frames.map fun f => Packet.decode f.2.2 f.2.1 f.1) = .ok (d, out) ∧
      d.feed (Packet.decode raw linktype ts) = .ok (d', alerts) ∧
      (b.hmi = ∅ → (∀ a ∈ out ++ alerts, a.severity ≠ .critical) ∧ d.hostileSources = ∅ ∧
        d'.hostileSources = ∅) ∧
      (∀ s, (Packet.decode raw linktype ts).src = some s → s ∈ b.hmi →
        (∀ a ∈ alerts, a.severity = if stopdtAlert a then .medium else .info) ∧
          d'.hostileSources = d.hostileSources) ∧
      (∀ a ∈ alerts, a.severity = .critical →
        b.hmi ≠ ∅ ∧ a.src ∉ b.hmi ∧ (b.plcs = ∅ ∨ a.dst ∈ b.plcs) ∧
          Commands (Packet.decode raw linktype ts)) ∧
      (∀ a ∈ alerts, (Packet.decode raw linktype ts).src = some a.src ∧
        (Packet.decode raw linktype ts).dst = some a.dst ∧ a.src ≠ "None" ∧ a.dst ≠ "None") ∧
      (b.watches (Packet.decode raw linktype ts) = false → alerts = [] ∧ d' = d) := by
  obtain ⟨pkts, hpkts⟩ : ∃ pkts, pkts = frames.map fun f => Packet.decode f.2.2 f.2.1 f.1 := ⟨_, rfl⟩
  obtain ⟨pkt, hpkt⟩ : ∃ pkt, pkt = Packet.decode raw linktype ts := ⟨_, rfl⟩
  have hp : pkt.Addressed := hpkt ▸ Packet.decode_addressed raw linktype ts
  rw [← hpkts, ← hpkt]
  obtain ⟨d, out, hrun⟩ : ∃ d out, machine.run (fresh b) pkts = (d, out) := ⟨_, _, rfl⟩
  obtain rfl : d.baseline = b := by
    have h := run_baseline (fresh b) pkts
    rwa [hrun] at h
  refine ⟨d, out, _, _, by rw [feedAll_eq, hrun], d.feed_ok pkt, fun hb => ?_,
    fun s hs hhmi => react_operator hs hhmi, fun a ha hc => critical_addressed hp ha hc,
    fun a ha => rendered_of_mem_react hp ha, fun hw => ?_⟩
  · have hall := run_unknown hb (pkts ++ [pkt])
    have hpre := run_unknown hb pkts
    rw [machine.run_concat, hrun] at hall
    rw [hrun] at hpre
    exact ⟨hall.1, hpre.2, hall.2⟩
  · rw [react_ignored hw]
    exact ⟨rfl, rfl⟩

end Severity

/-! ## No source masks another -/

section Masking

variable (X : Set String)

/-- Two detectors that agree on everything outside `X`. -/
structure AgreeOutside (d d' : Detector) : Prop where
  baseline : d.baseline = d'.baseline
  seen : ∀ pair : String × String, pair.1 ∉ X → (pair ∈ d.seenTalkers ↔ pair ∈ d'.seenTalkers)

variable {X} {d d' : Detector} {pkt : Packet}

theorem AgreeOutside.hidden (h : AgreeOutside X d d') (hx : str pkt.src ∈ X) :
    AgreeOutside X (d.react pkt).1 d' := by
  refine ⟨(d.react_baseline pkt).trans h.baseline, fun pair hp => ?_⟩
  rw [mem_react_seenTalkers, h.seen pair hp]
  constructor
  · rintro (hseen | ⟨-, rfl⟩)
    · exact hseen
    · exact absurd hx hp
  · exact .inl

theorem AgreeOutside.visible (h : AgreeOutside X d d') :
    AgreeOutside X (d.react pkt).1 (d'.react pkt).1 := by
  refine ⟨by rw [react_baseline, react_baseline, h.baseline], fun pair hp => ?_⟩
  rw [mem_react_seenTalkers, mem_react_seenTalkers, h.seen pair hp, h.baseline]

theorem AgreeOutside.out (h : AgreeOutside X d d') (hx : str pkt.src ∉ X) :
    (d.react pkt).2 = (d'.react pkt).2 :=
  react_out_congr h.baseline (h.seen (talkers pkt) hx)

variable (X) [DecidablePred (· ∈ X)]

/-- The alerts about sources outside `X` are those of the run without the packets from `X`. -/
theorem run_outside (b : Baseline) (pkts : List Packet) :
    (machine.run (fresh b) pkts).2.filter (fun a => a.src ∉ X) =
      (machine.run (fresh b) (pkts.filter fun pkt => str pkt.src ∉ X)).2 := by
  have hhid : ∀ d d' pkt, AgreeOutside X d d' → decide (str pkt.src ∈ X) = true →
      AgreeOutside X (machine.step d pkt).1 d' ∧
        (machine.step d pkt).2.filter (fun a => a.src ∉ X) = [] := by
    intro d d' pkt h hx
    have hx : str pkt.src ∈ X := of_decide_eq_true hx
    refine ⟨h.hidden hx, List.filter_eq_nil_iff.mpr fun a ha => ?_⟩
    rw [decide_eq_true_eq, src_of_mem_react ha]
    exact not_not_intro hx
  have hvis : ∀ d d' pkt, AgreeOutside X d d' → decide (str pkt.src ∈ X) = false →
      AgreeOutside X (machine.step d pkt).1 (machine.step d' pkt).1 ∧
        (machine.step d pkt).2.filter (fun a => a.src ∉ X) =
          (machine.step d' pkt).2.filter (fun a => a.src ∉ X) := by
    intro d d' pkt h hx
    refine ⟨h.visible, ?_⟩
    rw [show (machine.step d pkt).2 = (machine.step d' pkt).2 from h.out (of_decide_eq_false hx)]
  have hpurge := machine.run_purge hhid hvis (⟨rfl, fun _ _ => Iff.rfl⟩ :
    AgreeOutside X (fresh b) (fresh b)) pkts
  simp only [← decide_not] at hpurge
  rw [hpurge, List.filter_eq_self]
  -- the run without the packets from `X` has no alerts about `X`
  intro a ha
  obtain ⟨js, pkt, ks, hsplit, ha⟩ := machine.mem_run ha
  have hmem : pkt ∈ pkts.filter fun pkt => decide (str pkt.src ∉ X) := by
    rw [hsplit]
    exact List.mem_append_right _ List.mem_cons_self
  rw [src_of_mem_react ha]
  exact (List.mem_filter.mp hmem).2

/-- **No source masks another**: whatever set `X` of sources is taken out of the traffic, the
alerts about all other sources stay the same, in the same order. A packet's source is the text its
alerts carry. -/
theorem no_masking (b : Baseline) (pkts : List Packet) :
    ∃ d out d' out', (fresh b).feedAll pkts = .ok (d, out) ∧
      (fresh b).feedAll (pkts.filter fun pkt => str pkt.src ∉ X) = .ok (d', out') ∧
      out.filter (fun a => a.src ∉ X) = out' :=
  ⟨_, _, _, _, feedAll_eq _ _, feedAll_eq _ _, run_outside X b pkts⟩

end Masking

end Detector

end Pyscan.OtDetect
