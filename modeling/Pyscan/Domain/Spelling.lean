import Pyscan.Domain.DetectorRuns
import Pyscan.Py.Inet
import Pyscan.Wire.Decode

/-!
# Spellings of a station

`Baseline.of` takes the stations as text and keeps the text; the decoder writes
each address in one way (`rendered`). Two spellings of an address therefore make
the same baseline when both are that text or neither is, and otherwise only
where the difference cannot show. `hmi_agree_iff` and `plcs_agree_iff` say
exactly where, for the alerts on all sequences of raw frames.
-/

namespace Pyscan.OtDetect

open Py Mealy

/-! ## Baselines from text -/

/-- `Iterable[str] | str | None`. -/
inductive Addresses where
  | none
  | text (s : String)
  | items (l : List String)

def Addresses.list : Addresses → List String
  | .none => []
  | .text s => (s.toList.splitOn ',').map String.ofList
  | .items l => l

def asSet (value : Addresses) : Finset String :=
  ((value.list.map stripWhite).filter fun item => item ≠ "").toFinset

def Baseline.of (hmi plcs : Addresses) : Baseline where
  hmi := asSet hmi
  plcs := asSet plcs

example : asSet (.text "10.0.0.1, 10.0.0.2 ,,") = {"10.0.0.1", "10.0.0.2"} := by decide

/-- Two values that list the same stations but for one, written `s₁` in the first and `s₂` in the
second; `others` are the rest. -/
structure Respelled (others : List String) (s₁ s₂ : String) (a₁ a₂ : Addresses) : Prop where
  lists : ∃ before x₁ x₂ after, others = before ++ after ∧ a₁.list = before ++ x₁ :: after ∧
    a₂.list = before ++ x₂ :: after ∧ stripWhite x₁ = s₁ ∧ stripWhite x₂ = s₂

theorem mem_asSet {a : Addresses} {s : String} :
    s ∈ asSet a ↔ s ≠ "" ∧ ∃ x ∈ a.list, stripWhite x = s := by
  rw [asSet, List.mem_toFinset, List.mem_filter, List.mem_map, decide_eq_true_eq, and_comm]

theorem asSet_insert {a : Addresses} {before after : List String} {x : String}
    (h : a.list = before ++ x :: after) (hx : stripWhite x ≠ "") :
    asSet a = insert (stripWhite x) (asSet (.items (before ++ after))) := by
  ext s
  have hlist : (Addresses.items (before ++ after)).list = before ++ after := rfl
  have hmem : ∀ y, y ∈ before ++ x :: after ↔ y = x ∨ y ∈ before ++ after := fun y => by
    rw [List.mem_append, List.mem_cons, List.mem_append, or_left_comm]
  rw [Finset.mem_insert, mem_asSet, mem_asSet, h, hlist]
  constructor
  · rintro ⟨hs, y, hy, rfl⟩
    rcases (hmem y).mp hy with rfl | hy
    · exact .inl rfl
    · exact .inr ⟨hs, y, hy, rfl⟩
  · rintro (rfl | ⟨hs, y, hy, rfl⟩)
    · exact ⟨hx, x, (hmem x).mpr (.inl rfl), rfl⟩
    · exact ⟨hs, y, (hmem y).mpr (.inr hy), rfl⟩

theorem Respelled.asSet_eq {others : List String} {s₁ s₂ : String} {a₁ a₂ : Addresses}
    (h : Respelled others s₁ s₂ a₁ a₂) (h₁ : s₁ ≠ "") (h₂ : s₂ ≠ "") :
    asSet a₁ = insert s₁ (asSet (.items others)) ∧ asSet a₂ = insert s₂ (asSet (.items others)) := by
  obtain ⟨before, x₁, x₂, after, rfl, hl₁, hl₂, rfl, rfl⟩ := h.lists
  exact ⟨asSet_insert hl₁ h₁, asSet_insert hl₂ h₂⟩

/-! ## Baselines that cannot be told apart -/

/-- The alerts a new detector returns on raw frames. -/
def Baseline.alertsOn (b : Baseline) (frames : List (ℚ × Nat × Bytes)) : Result (List Alert) := do
  .ok (← (Detector.fresh b).feedAll (frames.map fun f => Packet.decode f.2.2 f.2.1 f.1)).2

def SameAlerts (b b' : Baseline) : Prop := ∀ frames, b.alertsOn frames = b'.alertsOn frames

theorem SameAlerts.symm {b b' : Baseline} (h : SameAlerts b b') : SameAlerts b' b :=
  fun frames => (h frames).symm

theorem alertsOn_eq (b : Baseline) (frames : List (ℚ × Nat × Bytes)) :
    b.alertsOn frames = .ok (Detector.machine.run (Detector.fresh b)
      (frames.map fun f => Packet.decode f.2.2 f.2.1 f.1)).2 := by
  rw [Baseline.alertsOn, Detector.feedAll_eq, ok_bind]

/-- Two baselines say the same of a packet. -/
structure Baseline.Alike (b b' : Baseline) (pkt : Packet) : Prop where
  watched : ∀ protocol dport, Detector.Watched b pkt protocol dport ↔
    Detector.Watched b' pkt protocol dport
  standing : ∀ protocol dport, Detector.Watched b pkt protocol dport →
    b.standing pkt.src = b'.standing pkt.src

namespace Detector

/-- Detectors of two baselines that have reported the same talkers. -/
structure Twins (b b' : Baseline) (d d' : Detector) : Prop where
  left : d.baseline = b
  right : d'.baseline = b'
  seen : d.seenTalkers = d'.seenTalkers

theorem Twins.step {b b' : Baseline} {d d' : Detector} {pkt : Packet} (h : Twins b b' d d')
    (halike : b.Alike b' pkt) :
    Twins b b' (d.react pkt).1 (d'.react pkt).1 ∧ (d.react pkt).2 = (d'.react pkt).2 := by
  obtain ⟨rfl, rfl, hseen⟩ := h
  by_cases hw : ∃ protocol dport, Watched d.baseline pkt protocol dport
  · obtain ⟨protocol, dport, hw⟩ := hw
    have hstanding := halike.standing protocol dport hw
    have hjudge : d.baseline.judge pkt = d'.baseline.judge pkt := by
      funext op
      rw [Baseline.judge, hstanding, Baseline.judge]
    have hreact := react_watched hw
    have hreact' := react_watched ((halike.watched protocol dport).mp hw)
    refine ⟨⟨d.react_baseline pkt, d'.react_baseline pkt, ?_⟩, ?_⟩
    · rw [hreact, hreact', report_seenTalkers, report_seenTalkers, accept_seenTalkers,
        accept_seenTalkers, hstanding, hseen]
    · rw [hreact, hreact', report, report, accept_baseline, accept_baseline, hjudge, hseen]
  · rw [react_unwatched fun p q h' => hw ⟨p, q, h'⟩,
      react_unwatched fun p q h' => hw ⟨p, q, (halike.watched p q).mpr h'⟩]
    exact ⟨⟨rfl, rfl, hseen⟩, rfl⟩

end Detector

theorem sameAlerts_of_alike {b b' : Baseline}
    (h : ∀ raw linktype ts, b.Alike b' (Packet.decode raw linktype ts)) : SameAlerts b b' := by
  intro frames
  have hpkts : ∀ pkt ∈ frames.map fun f => Packet.decode f.2.2 f.2.1 f.1, b.Alike b' pkt := by
    intro pkt hpkt
    obtain ⟨f, -, rfl⟩ := List.mem_map.mp hpkt
    exact h f.2.2 f.2.1 f.1
  have htwins : Detector.Twins b b' (Detector.fresh b) (Detector.fresh b') := ⟨rfl, rfl, rfl⟩
  rw [alertsOn_eq, alertsOn_eq,
    Detector.machine.run_agree (fun _ _ _ htwins halike => htwins.step halike) htwins hpkts]

/-! ## Baselines told apart by one frame -/

section Probe

/-- A Modbus write from `src` to `dst`. -/
structure Writes (src dst : Bytes) (pkt : Packet) : Prop where
  protocol : pkt.protocol = "TCP"
  port : pkt.dport = some 502
  src : pkt.src = some (rendered src)
  dst : pkt.dst = some (rendered dst)
  payload : pkt.payload = [0, 1, 0, 0, 0, 6, 1, 5, 0, 1, 0xff, 0]

theorem exists_write {src dst : Bytes} (hsrc : src.length = 16) (hdst : dst.length = 16) :
    ∃ raw, Writes src dst (Packet.decode raw 101 0) := by
  obtain ⟨f, hlink, hnetwork, htransport, hpayload⟩ : ∃ f : Wire.Frame, f.link = .raw ∧
      (f.network.src = .ok (rendered src) ∧ f.network.dst = .ok (rendered dst)) ∧
      (f.transport.name = "TCP" ∧ f.transport.dport = 502) ∧
      f.payload = [0, 1, 0, 0, 0, 6, 1, 5, 0, 1, 0xff, 0] :=
    ⟨{ link := .raw
       network := .v6
        { trafficClass := 0
          flow := (0, 0, 0)
          extensions := []
          at_most_eight := Nat.zero_le 8
          hopLimit := 64
          src := ⟨src, hsrc⟩
          dst := ⟨dst, hdst⟩ }
       transport := .tcp
        { sport := 49152
          dport := 502
          seqAck := ⟨List.replicate 8 0, rfl⟩
          words := 0
          options := ⟨[], rfl⟩
          reserved := 0
          control := ⟨false, false, false, true, true, false, false, false⟩
          windowChecksumUrgent := ⟨List.replicate 6 0, rfl⟩ }
       payload := [0, 1, 0, 0, 0, 6, 1, 5, 0, 1, 0xff, 0]
       padding := []
       fits := (Nat.le_of_ble_eq_true rfl : 33 ≤ 65536) },
      rfl, ⟨inetNtop_eq_ok.mpr ⟨hsrc, rfl⟩, inetNtop_eq_ok.mpr ⟨hdst, rfl⟩⟩, ⟨rfl, rfl⟩, rfl⟩
  have hdecode := Wire.decode_of_addresses f 0 hnetwork.1 hnetwork.2
  rw [hlink] at hdecode
  refine ⟨f.assemble, ?_⟩
  rw [show Packet.decode f.assemble 101 0 = _ from hdecode]
  exact ⟨htransport.1, congrArg some htransport.2, rfl, rfl, hpayload⟩

variable {src dst : Bytes} {pkt : Packet} {b b' : Baseline}

/-- The device is protected. -/
def Protects (b : Baseline) (dst : Bytes) : Prop := b.plcs = ∅ ∨ rendered dst ∈ b.plcs

theorem Writes.watched_iff (h : Writes src dst pkt) :
    (∃ protocol dport, Detector.Watched b pkt protocol dport) ↔ Protects b dst := by
  constructor
  · rintro ⟨protocol, dport, hw⟩
    obtain ⟨host, hhost, hplcs⟩ := hw.dst
    obtain rfl := Option.some.inj (h.dst.symm.trans hhost)
    exact hplcs
  · exact fun hplcs => ⟨"Modbus", 502, h.protocol, h.port, by decide, _, h.dst, hplcs⟩

/-- The write is reported, whoever the source is. -/
theorem Writes.react_ne_nil (h : Writes src dst pkt) (hb : Protects b dst) :
    ((Detector.fresh b).react pkt).2 ≠ [] := by
  obtain ⟨protocol, dport, hw⟩ := h.watched_iff.mpr hb
  obtain rfl := Option.some.inj (h.port.symm.trans hw.port)
  obtain rfl : "Modbus" = protocol := Option.some.inj (Detector.lookup_otPorts.mpr hw.ot)
  have hread : payloadOperations "Modbus" pkt.payload = [modbusOperation 5] := by
    rw [h.payload]
    rfl
  have hop : modbusOperation 5 ∈ operations (Detector.fresh b).seenTalkers pkt "Modbus" 502 := by
    rw [operations, if_neg (by rw [h.payload]; simp), hread]
    exact List.mem_append_right _ (List.mem_append_right _ List.mem_cons_self)
  have hjudge : b.judge pkt (modbusOperation 5) = some
      (raise pkt (modbusWriteReport 5) ((Detector.fresh b).severity pkt.src .critical)) :=
    congrArg (Option.map (raise pkt (modbusWriteReport 5)))
      ((Detector.fresh b).verdict_change pkt.src)
  rw [Detector.react_watched hw, Detector.report, Detector.accept_baseline]
  exact List.ne_nil_of_mem (List.mem_filterMap.mpr ⟨_, hop, hjudge⟩)

theorem SameAlerts.react (h : SameAlerts b b') (raw : Bytes) (linktype : Nat) (ts : ℚ) :
    ((Detector.fresh b).react (Packet.decode raw linktype ts)).2 =
      ((Detector.fresh b').react (Packet.decode raw linktype ts)).2 := by
  have hone : ∀ b : Baseline, b.alertsOn [(ts, linktype, raw)] =
      .ok ((Detector.fresh b).react (Packet.decode raw linktype ts)).2 := fun b => by
    rw [alertsOn_eq, List.map_singleton, Machine.run_cons, Machine.run_nil, List.append_nil]
    rfl
  exact Except.ok.inj ((hone b).symm.trans ((h _).trans (hone b')))

/-- A device that one baseline protects, the other does. -/
theorem SameAlerts.protects (h : SameAlerts b b') (hdst : dst.length = 16) (hb : Protects b dst) :
    Protects b' dst := by
  by_contra hb'
  obtain ⟨raw, hwrite⟩ := exists_write hdst hdst
  have hreport := hwrite.react_ne_nil hb
  rw [h.react raw 101 0, Detector.react_unwatched fun p q hw =>
    hb' (hwrite.watched_iff.mp ⟨p, q, hw⟩)] at hreport
  exact hreport rfl

/-- A station that one baseline takes for the HMI, the other does. -/
theorem SameAlerts.trusts (h : SameAlerts b b') (hsrc : src.length = 16) (hdst : dst.length = 16)
    (hb : Protects b dst) (hin : rendered src ∈ b.hmi) (hknown : b'.hmi ≠ ∅) :
    rendered src ∈ b'.hmi := by
  by_contra hout
  obtain ⟨raw, hwrite⟩ := exists_write hsrc hdst
  have htalks : Detector.Talks b' (Packet.decode raw 101 0) := by
    refine ⟨hwrite.watched_iff.mpr (h.protects hdst hb), by rw [hwrite.payload]; simp, ?_⟩
    exact Detector.standing_eq_stranger.mpr ⟨_, hwrite.src, hknown, hout⟩
  have hsilent : ¬ Detector.Talks b (Packet.decode raw 101 0) := by
    intro htalks
    obtain ⟨s, hs, -, hnot⟩ := Detector.standing_eq_stranger.mp htalks.stranger
    obtain rfl := Option.some.inj (hwrite.src.symm.trans hs)
    exact hnot hin
  have hone := Detector.talker_alert (d := Detector.fresh b') htalks (by simp [Detector.fresh])
  rw [← h.react raw 101 0, Detector.no_talker_alert fun htalks => absurd htalks hsilent] at hone
  cases hone

end Probe

/-! ## One station, two spellings -/

section Respelling

variable {A : Bytes} {s₁ s₂ : String} {others : List String} {a₁ a₂ : Addresses}

/-- Both forms are the text the decoder writes or neither is, or that text is listed besides. -/
def SpeltAlike (A : Bytes) (others : List String) (s₁ s₂ : String) : Prop :=
  rendered A ∈ asSet (.items others) ∨ (s₁ = rendered A ↔ s₂ = rendered A)

/-- Devices are named, but none by the text of an address of the IP version of `A`. -/
def OutOfReach (A : Bytes) (plcs : Addresses) : Prop :=
  asSet plcs ≠ ∅ ∧ ∀ B : Bytes, B.length = A.length → rendered B ∉ asSet plcs

theorem ne_empty_of_ipAddress {s : String} (h : ipAddress s = some A) : s ≠ "" := by
  rintro rfl
  rw [ipAddress_empty] at h
  cases h

theorem length_of_ipAddress {s : String} (h : ipAddress s = some A) :
    A.length = 4 ∨ A.length = 16 :=
  (ipAddress_inv h).imp And.left And.left

/-- What the decoder writes is the one text it writes for that address. -/
theorem eq_rendered {x : String} (hx : Packet.Rendered x) (h : ipAddress x = some A) :
    x = rendered A := by
  obtain ⟨d, hd⟩ := hx
  obtain ⟨hlen, rfl⟩ : (d.length = 4 ∨ d.length = 16) ∧ x = rendered d := by
    rcases hd with hd | hd
    · exact (inetNtoa_eq_ok.mp hd).imp_left .inl
    · exact (inetNtop_eq_ok.mp hd).imp_left .inr
  rw [ipAddress_rendered hlen] at h
  rw [Option.some.inj h]

/-- Whoever exchanges packets with an address has an address of its IP version. -/
theorem exists_rendered_dst {s d : String} (h : Packet.SameVersion s d)
    (hA : A.length = 4 ∨ A.length = 16) (hs : s = rendered A) :
    ∃ B : Bytes, B.length = A.length ∧ d = rendered B := by
  have hinj : ∀ a : Bytes, (a.length = 4 ∨ a.length = 16) → s = rendered a → a = A := by
    intro a ha hsa
    have hread := ipAddress_rendered ha
    rw [← hsa, hs, ipAddress_rendered hA] at hread
    exact (Option.some.inj hread).symm
  rcases h with ⟨a, b, ha, hb⟩ | ⟨a, b, ha, hb⟩
  · obtain ⟨hlen, hsa⟩ := inetNtoa_eq_ok.mp ha
    obtain ⟨hlen', hdb⟩ := inetNtoa_eq_ok.mp hb
    exact ⟨b, by rw [hlen', ← hinj a (.inl hlen) hsa, hlen], hdb⟩
  · obtain ⟨hlen, hsa⟩ := inetNtop_eq_ok.mp ha
    obtain ⟨hlen', hdb⟩ := inetNtop_eq_ok.mp hb
    exact ⟨b, by rw [hlen', ← hinj a (.inr hlen) hsa, hlen], hdb⟩

theorem standing_congr {b b' : Baseline} {src : Option String} (hb : b.hmi ≠ ∅) (hb' : b'.hmi ≠ ∅)
    (h : ∀ s, src = some s → (s ∈ b.hmi ↔ s ∈ b'.hmi)) : b.standing src = b'.standing src := by
  unfold Baseline.standing
  rw [if_neg hb, if_neg hb']
  cases src with
  | none => rfl
  | some s => simp only [h s rfl]

theorem speltAlike_iff : SpeltAlike A others s₁ s₂ ↔
    (rendered A ∈ insert s₁ (asSet (.items others)) ↔ rendered A ∈ insert s₂ (asSet (.items others))) := by
  unfold SpeltAlike
  rw [Finset.mem_insert, Finset.mem_insert, eq_comm (a := s₁), eq_comm (a := s₂)]
  tauto

/-- The text of a packet's address tells the spellings apart only when it is that address's. -/
theorem mem_insert_spelling (h₁ : ipAddress s₁ = some A) (h₂ : ipAddress s₂ = some A) {x : String}
    (hx : Packet.Rendered x) (h : x = rendered A → SpeltAlike A others s₁ s₂) :
    x ∈ insert s₁ (asSet (.items others)) ↔ x ∈ insert s₂ (asSet (.items others)) := by
  by_cases hA : x = rendered A
  · exact hA ▸ speltAlike_iff.mp (h hA)
  · have hne : ∀ s, ipAddress s = some A → x ≠ s := by
      rintro s hs rfl
      exact hA (eq_rendered hx hs)
    rw [Finset.mem_insert, Finset.mem_insert, or_iff_right (hne s₁ h₁), or_iff_right (hne s₂ h₂)]

/-- An IPv4 address has one spelling. -/
theorem length_or_speltAlike (h₁ : ipAddress s₁ = some A) (h₂ : ipAddress s₂ = some A) :
    A.length = 16 ∨ SpeltAlike A others s₁ s₂ := by
  rcases ipAddress_inv h₁ with ⟨-, e₁⟩ | ⟨hlen, -⟩
  · rcases ipAddress_inv h₂ with ⟨-, e₂⟩ | ⟨hlen, -⟩
    · exact .inr (.inr (iff_of_true e₁ e₂))
    · exact .inl hlen
  · exact .inl hlen

section Agree

variable (h₁ : ipAddress s₁ = some A) (h₂ : ipAddress s₂ = some A)
  (h : Respelled others s₁ s₂ a₁ a₂) (other : Addresses)

include h₁ h₂ h

theorem respelled_sets : asSet a₁ = insert s₁ (asSet (.items others)) ∧
    asSet a₂ = insert s₂ (asSet (.items others)) :=
  h.asSet_eq (ne_empty_of_ipAddress h₁) (ne_empty_of_ipAddress h₂)

theorem respelled_ne : asSet a₁ ≠ ∅ ∧ asSet a₂ ≠ ∅ := by
  obtain ⟨e₁, e₂⟩ := respelled_sets h₁ h₂ h
  rw [e₁, e₂]
  exact ⟨Finset.insert_ne_empty _ _, Finset.insert_ne_empty _ _⟩

/-- Respelling a protected device shows unless both spellings are alike to the decoder. -/
theorem plcs_agree_iff :
    SameAlerts (.of other a₁) (.of other a₂) ↔ SpeltAlike A others s₁ s₂ := by
  obtain ⟨e₁, e₂⟩ := respelled_sets h₁ h₂ h
  obtain ⟨hne₁, hne₂⟩ := respelled_ne h₁ h₂ h
  constructor
  · intro hsame
    rcases length_or_speltAlike h₁ h₂ with hlen | halike
    · rw [speltAlike_iff, ← e₁, ← e₂]
      have hprotects : ∀ {a a' : Addresses}, asSet a' ≠ ∅ →
          SameAlerts (.of other a) (.of other a') → rendered A ∈ asSet a → rendered A ∈ asSet a' :=
        fun hne hsame hin => (hsame.protects hlen (.inr hin)).resolve_left hne
      exact ⟨hprotects hne₂ hsame, hprotects hne₁ hsame.symm⟩
    · exact halike
  · intro halike
    refine sameAlerts_of_alike fun raw linktype ts => ?_
    have hkindred := Packet.decode_kindred raw linktype ts
    generalize Packet.decode raw linktype ts = pkt at hkindred
    have hdst : ∀ dport host, pkt.dport = some dport → pkt.dst = some host →
        (host ∈ asSet a₁ ↔ host ∈ asSet a₂) := by
      intro dport host hport hhost
      obtain ⟨s, d, -, hd, hversion⟩ := hkindred.addresses (.inr (by rw [hport]; simp))
      obtain rfl := Option.some.inj (hd.symm.trans hhost)
      rw [e₁, e₂]
      exact mem_insert_spelling h₁ h₂ hversion.rendered.2 fun _ => halike
    refine ⟨fun protocol dport => ⟨?_, ?_⟩, fun _ _ _ => rfl⟩
    · rintro ⟨htcp, hport, hot, host, hhost, hin⟩
      exact ⟨htcp, hport, hot, host, hhost,
        .inr ((hdst dport host hport hhost).mp (hin.resolve_left hne₁))⟩
    · rintro ⟨htcp, hport, hot, host, hhost, hin⟩
      exact ⟨htcp, hport, hot, host, hhost,
        .inr ((hdst dport host hport hhost).mpr (hin.resolve_left hne₂))⟩

/-- Respelling the HMI shows unless both spellings are alike to the decoder, or no device the HMI
could speak to is protected. -/
theorem hmi_agree_iff :
    SameAlerts (.of a₁ other) (.of a₂ other) ↔ SpeltAlike A others s₁ s₂ ∨ OutOfReach A other := by
  obtain ⟨e₁, e₂⟩ := respelled_sets h₁ h₂ h
  obtain ⟨hne₁, hne₂⟩ := respelled_ne h₁ h₂ h
  constructor
  · intro hsame
    rcases length_or_speltAlike h₁ h₂ with hlen | halike
    · by_cases hreach : OutOfReach A other
      · exact .inr hreach
      obtain ⟨B, hB, hprotected⟩ : ∃ B : Bytes, B.length = 16 ∧
          (asSet other = ∅ ∨ rendered B ∈ asSet other) := by
        by_cases hany : asSet other = ∅
        · exact ⟨A, hlen, .inl hany⟩
        · by_contra hnone
          exact hreach ⟨hany, fun B hB hin => hnone ⟨B, hB.trans hlen, .inr hin⟩⟩
      left
      rw [speltAlike_iff, ← e₁, ← e₂]
      exact ⟨fun hin => hsame.trusts hlen hB hprotected hin hne₂,
        fun hin => hsame.symm.trusts hlen hB hprotected hin hne₁⟩
    · exact .inl halike
  · intro hcases
    refine sameAlerts_of_alike fun raw linktype ts => ?_
    have hkindred := Packet.decode_kindred raw linktype ts
    generalize Packet.decode raw linktype ts = pkt at hkindred
    refine ⟨fun protocol dport => ⟨fun hw => ⟨hw.tcp, hw.port, hw.ot, hw.dst⟩,
      fun hw => ⟨hw.tcp, hw.port, hw.ot, hw.dst⟩⟩, fun protocol dport hw => ?_⟩
    obtain ⟨s, d, hs, hd, hversion⟩ := hkindred.addresses (.inr (by rw [hw.port]; simp))
    refine standing_congr hne₁ hne₂ fun x hx => ?_
    obtain rfl := Option.some.inj (hs.symm.trans hx)
    change s ∈ asSet a₁ ↔ s ∈ asSet a₂
    rw [e₁, e₂]
    refine mem_insert_spelling h₁ h₂ hversion.rendered.1 fun hA => hcases.resolve_right fun hout => ?_
    -- the destination is of the version of `A`, and protected
    obtain ⟨host, hhost, hin⟩ := hw.dst
    obtain rfl := Option.some.inj (hd.symm.trans hhost)
    obtain ⟨B, hB, rfl⟩ := exists_rendered_dst hversion (length_of_ipAddress h₁) hA
    exact hout.2 B hB (hin.resolve_left hout.1)

end Agree

end Respelling

/-- **A respelled station makes no difference exactly when** the two spellings are alike to the
decoder, or, for the HMI, no device it could speak to is protected. -/
theorem spellings_agree {A : Bytes} {s₁ s₂ : String} {others : List String} {a₁ a₂ : Addresses}
    (h₁ : ipAddress s₁ = some A) (h₂ : ipAddress s₂ = some A)
    (h : Respelled others s₁ s₂ a₁ a₂) (other : Addresses) :
    (SameAlerts (.of a₁ other) (.of a₂ other) ↔ SpeltAlike A others s₁ s₂ ∨ OutOfReach A other) ∧
      (SameAlerts (.of other a₁) (.of other a₂) ↔ SpeltAlike A others s₁ s₂) :=
  ⟨hmi_agree_iff h₁ h₂ h other, plcs_agree_iff h₁ h₂ h other⟩

section Upper

theorem ipAddress_lower : ipAddress "2001:db8::1" =
    some [0x20, 1, 0x0d, 0xb8, 0, 0, 0, 0, 0, 0, 0, 0, 0, 0, 0, 1] := by
  decide

theorem ipAddress_upper : ipAddress "2001:DB8::1" =
    some [0x20, 1, 0x0d, 0xb8, 0, 0, 0, 0, 0, 0, 0, 0, 0, 0, 0, 1] := by
  decide

theorem respelled_upper :
    Respelled [] "2001:db8::1" "2001:DB8::1" (.text "2001:db8::1") (.text "2001:DB8::1") :=
  ⟨[], "2001:db8::1", "2001:DB8::1", [], rfl, by decide, by decide, by decide, by decide⟩

/-- The decoder writes one of the two. -/
theorem upper_shows : ¬ (SpeltAlike [0x20, 1, 0x0d, 0xb8, 0, 0, 0, 0, 0, 0, 0, 0, 0, 0, 0, 1] []
    "2001:db8::1" "2001:DB8::1" ∨
      OutOfReach [0x20, 1, 0x0d, 0xb8, 0, 0, 0, 0, 0, 0, 0, 0, 0, 0, 0, 1] .none) := by
  refine not_or.mpr ⟨?_, fun h => h.1 rfl⟩
  unfold SpeltAlike
  decide

/-- An HMI given in upper case is a stranger. -/
theorem spellings_agree_upper : ¬ SameAlerts (.of (.text "2001:db8::1") .none)
    (.of (.text "2001:DB8::1") .none) :=
  (spellings_agree ipAddress_lower ipAddress_upper respelled_upper .none).1.not.mpr upper_shows

/-- The baseline names spellings. -/
theorem spellings_disagree :
    ¬ ∀ (A : Bytes) (s₁ s₂ : String) (others : List String) (a₁ a₂ other : Addresses),
      ipAddress s₁ = some A → ipAddress s₂ = some A → Respelled others s₁ s₂ a₁ a₂ →
        SameAlerts (.of a₁ other) (.of a₂ other) ∧ SameAlerts (.of other a₁) (.of other a₂) := by
  intro hall
  have hsame := (hall _ _ _ _ _ _ .none ipAddress_lower ipAddress_upper respelled_upper).1
  exact upper_shows ((hmi_agree_iff ipAddress_lower ipAddress_upper respelled_upper .none).mp hsame)

end Upper

end Pyscan.OtDetect
