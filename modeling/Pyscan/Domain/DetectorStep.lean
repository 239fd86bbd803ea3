import Pyscan.Domain.Policy

/-!
# What one packet does to the detector

The packet filter of `feed` as a predicate (`Watched`), the operations behind
each alert, and the effect of one packet on every field of the detector.
-/

namespace Pyscan.OtDetect

open Py

/-- The first letters of the summaries a danger is reported under: no two dangers share one. -/
def Danger.initials : Danger → List Char
  | .change => ['W', 'L', 'C', 'B']
  | .survey => ['N', 'R']
  | .silence => ['S']
  | .presence => ['U']

/-- TCP, to an OT port, to a protected destination. -/
def Baseline.watches (b : Baseline) (pkt : Packet) : Bool :=
  pkt.protocol = "TCP" && (pkt.dport = some 502 || pkt.dport = some 2404 || pkt.dport = some 102) &&
    match pkt.dst with
    | none => false
    | some host => b.plcs = ∅ || host ∈ b.plcs

namespace Detector

@[simp] theorem react_baseline (d : Detector) (pkt : Packet) : (d.react pkt).1.baseline = d.baseline := by
  unfold react
  cases d.target pkt with
  | none => rfl
  | some t => exact d.accept_baseline pkt

/-- A TCP packet to an OT port of a protected destination. -/
structure Watched (b : Baseline) (pkt : Packet) (protocol : String) (dport : Nat) : Prop where
  tcp : pkt.protocol = "TCP"
  port : pkt.dport = some dport
  ot : (dport, protocol) ∈ otPorts
  dst : ∃ host, pkt.dst = some host ∧ (b.plcs = ∅ ∨ host ∈ b.plcs)

theorem lookup_otPorts {dport : Nat} {protocol : String} :
    otPorts.lookup dport = some protocol ↔ (dport, protocol) ∈ otPorts := by
  by_cases h1 : dport = 502
  · subst h1
    simp [otPorts, eq_comm]
  · by_cases h2 : dport = 2404
    · subst h2
      simp [otPorts, List.lookup, eq_comm]
    · by_cases h3 : dport = 102
      · subst h3
        simp [otPorts, List.lookup, eq_comm]
      · simp [otPorts, List.lookup, beq_false_of_ne, h1, h2, h3]

theorem watches_iff {b : Baseline} {pkt : Packet} :
    b.watches pkt = true ↔ ∃ protocol dport, Watched b pkt protocol dport := by
  have hport : (pkt.dport = some 502 ∨ pkt.dport = some 2404 ∨ pkt.dport = some 102) ↔
      ∃ protocol dport, pkt.dport = some dport ∧ (dport, protocol) ∈ otPorts := by
    constructor
    · rintro (h | h | h)
      · exact ⟨"Modbus", 502, h, by decide⟩
      · exact ⟨"IEC-104", 2404, h, by decide⟩
      · exact ⟨"S7comm", 102, h, by decide⟩
    · rintro ⟨protocol, dport, h, hot⟩
      simp only [otPorts, List.mem_cons, Prod.mk.injEq, List.not_mem_nil, or_false] at hot
      rcases hot with ⟨rfl, -⟩ | ⟨rfl, -⟩ | ⟨rfl, -⟩ <;> simp [h]
  have hdst : (match pkt.dst with
      | none => false
      | some host => decide (b.plcs = ∅) || decide (host ∈ b.plcs)) = true ↔
      ∃ host, pkt.dst = some host ∧ (b.plcs = ∅ ∨ host ∈ b.plcs) := by
    cases pkt.dst <;> simp
  simp only [Baseline.watches, Bool.and_eq_true, Bool.or_eq_true, decide_eq_true_eq, hdst,
    or_assoc, hport]
  constructor
  · rintro ⟨⟨htcp, protocol, dport, hp, hot⟩, hd⟩
    exact ⟨protocol, dport, htcp, hp, hot, hd⟩
  · rintro ⟨protocol, dport, htcp, hp, hot, hd⟩
    exact ⟨⟨htcp, protocol, dport, hp, hot⟩, hd⟩

theorem isProtected_iff {d : Detector} {dst : Option String} :
    d.isProtected dst = true ↔
      ∃ host, dst = some host ∧ (d.baseline.plcs = ∅ ∨ host ∈ d.baseline.plcs) := by
  cases dst with
  | none => simp [isProtected]
  | some host =>
    by_cases hp : d.baseline.plcs = ∅ <;> simp [isProtected, hp]

/-- The packet filter of `feed`. -/
theorem target_eq_some {d : Detector} {pkt : Packet} {protocol : String} {dport : Nat} :
    d.target pkt = some (protocol, dport) ↔ Watched d.baseline pkt protocol dport := by
  unfold target
  constructor
  · intro h
    split at h
    · cases h
    · rename_i htcp
      split at h
      · cases h
      · rename_i port hport
        split at h
        · cases h
        · rename_i name hname
          split at h
          · cases h
          · rename_i hprot
            cases h
            exact ⟨by simpa using htcp, hport, lookup_otPorts.mp hname,
              isProtected_iff.mp (by simpa using hprot)⟩
  · rintro ⟨htcp, hport, hot, hdst⟩
    rw [if_neg (by simp [htcp]), hport]
    simp only [lookup_otPorts.mpr hot, isProtected_iff.mpr hdst, Bool.not_true, Bool.false_eq_true,
      if_false]

theorem target_eq_none {d : Detector} {pkt : Packet} :
    d.target pkt = none ↔ ∀ protocol dport, ¬ Watched d.baseline pkt protocol dport := by
  constructor
  · intro h protocol dport hw
    rw [← target_eq_some, h] at hw
    cases hw
  · intro h
    cases ht : d.target pkt with
    | none => rfl
    | some t => exact absurd (target_eq_some.mp ht) (h t.1 t.2)

theorem react_watched {d : Detector} {pkt : Packet} {protocol : String} {dport : Nat}
    (h : Watched d.baseline pkt protocol dport) :
    d.react pkt = (d.accept pkt).report pkt (operations d.seenTalkers pkt protocol dport) := by
  rw [react, target_eq_some.mpr h]

theorem react_unwatched {d : Detector} {pkt : Packet}
    (h : ∀ protocol dport, ¬ Watched d.baseline pkt protocol dport) : d.react pkt = (d, []) := by
  rw [react, target_eq_none.mpr h]

/-! ## The alerts of one packet -/

theorem judge_eq_some {b : Baseline} {pkt : Packet} {op : Operation} {a : Alert} :
    b.judge pkt op = some a ↔ ∃ danger r severity, op.finding = some (danger, r) ∧
      danger.verdict (b.standing pkt.src) = some severity ∧ a = raise pkt r severity := by
  simp only [Baseline.judge, Option.bind_eq_some_iff, Option.map_eq_some_iff, Prod.exists]
  constructor
  · rintro ⟨danger, r, hf, severity, hv, ha⟩
    exact ⟨danger, r, severity, hf, hv, ha.symm⟩
  · rintro ⟨danger, r, severity, hf, hv, ha⟩
    exact ⟨danger, r, hf, severity, hv, ha.symm⟩

/-- Every alert of a packet is the verdict on one of its operations. -/
theorem mem_react {d : Detector} {pkt : Packet} {a : Alert} (h : a ∈ (d.react pkt).2) :
    ∃ protocol dport, Watched d.baseline pkt protocol dport ∧
      ∃ op ∈ operations d.seenTalkers pkt protocol dport, ∃ danger r severity,
        op.finding = some (danger, r) ∧ danger.verdict (d.baseline.standing pkt.src) = some severity ∧
        a = raise pkt r severity := by
  by_cases hw : ∃ protocol dport, Watched d.baseline pkt protocol dport
  · obtain ⟨protocol, dport, hw⟩ := hw
    rw [react_watched hw, report, accept_baseline] at h
    obtain ⟨op, hop, hj⟩ := List.mem_filterMap.mp h
    exact ⟨protocol, dport, hw, op, hop, judge_eq_some.mp hj⟩
  · rw [react_unwatched fun p q h => hw ⟨p, q, h⟩] at h
    cases h

/-! ## The effect of one packet -/

section Effect

variable {d : Detector} {pkt : Packet}

theorem src_of_mem_react {a : Alert} (h : a ∈ (d.react pkt).2) : a.src = str pkt.src := by
  obtain ⟨-, -, -, op, -, danger, r, severity, -, -, rfl⟩ := mem_react h
  rfl

theorem dst_of_mem_react {a : Alert} (h : a ∈ (d.react pkt).2) : a.dst = str pkt.dst := by
  obtain ⟨-, -, -, op, -, danger, r, severity, -, -, rfl⟩ := mem_react h
  rfl

/-- A stranger sent a payload to a protected OT port. -/
structure Talks (b : Baseline) (pkt : Packet) : Prop where
  watched : ∃ protocol dport, Watched b pkt protocol dport
  payload : pkt.payload ≠ []
  stranger : b.standing pkt.src = .stranger

theorem accept_seenTalkers :
    (d.accept pkt).seenTalkers =
      if pkt.payload ≠ [] ∧ d.baseline.standing pkt.src = .stranger then
        insert (talkers pkt) d.seenTalkers
      else d.seenTalkers := by
  unfold accept
  by_cases hp : pkt.payload = []
  · rw [if_pos hp, if_neg fun h => h.1 hp]
    rfl
  · rw [if_neg hp]
    simp only [ne_eq, hp, not_false_eq_true, true_and]
    rfl

theorem mem_react_seenTalkers {pair : String × String} :
    pair ∈ (d.react pkt).1.seenTalkers ↔
      pair ∈ d.seenTalkers ∨ (Talks d.baseline pkt ∧ talkers pkt = pair) := by
  by_cases hw : ∃ protocol dport, Watched d.baseline pkt protocol dport
  · obtain ⟨protocol, dport, hw⟩ := hw
    rw [react_watched hw, report_seenTalkers, accept_seenTalkers]
    by_cases ht : pkt.payload ≠ [] ∧ d.baseline.standing pkt.src = .stranger
    · have htalks : Talks d.baseline pkt := ⟨⟨protocol, dport, hw⟩, ht.1, ht.2⟩
      rw [if_pos ht, Finset.mem_insert]
      constructor
      · rintro (rfl | h)
        · exact .inr ⟨htalks, rfl⟩
        · exact .inl h
      · rintro (h | ⟨-, rfl⟩)
        · exact .inr h
        · exact .inl rfl
    · rw [if_neg ht]
      constructor
      · exact .inl
      · rintro (h | ⟨h, -⟩)
        · exact h
        · exact absurd ⟨h.payload, h.stranger⟩ ht
  · rw [react_unwatched fun p q h => hw ⟨p, q, h⟩]
    constructor
    · exact .inl
    · rintro (h | ⟨h, -⟩)
      · exact h
      · exact absurd h.watched hw

/-- The alerts on a packet depend on the detector only through its baseline and whether the
packet's own pair is known. -/
theorem react_out_congr {d' : Detector} (hb : d.baseline = d'.baseline)
    (hseen : talkers pkt ∈ d.seenTalkers ↔ talkers pkt ∈ d'.seenTalkers) :
    (d.react pkt).2 = (d'.react pkt).2 := by
  have hops : ∀ protocol dport, operations d.seenTalkers pkt protocol dport =
      operations d'.seenTalkers pkt protocol dport := by
    intro protocol dport
    simp only [operations, talkerOperations, hseen]
  by_cases hw : ∃ protocol dport, Watched d.baseline pkt protocol dport
  · obtain ⟨protocol, dport, hw⟩ := hw
    rw [react_watched hw, react_watched (hb ▸ hw), report, report, accept_baseline, accept_baseline,
      hops, hb]
  · rw [react_unwatched fun p q h => hw ⟨p, q, h⟩, react_unwatched fun p q h => hw ⟨p, q, hb ▸ h⟩]

end Effect

end Detector

/-! ## What operations are reported as -/

/-- The report of an operation begins with an initial of its danger. -/
def Operation.Titled (op : Operation) : Prop :=
  ∀ danger r, op.finding = some (danger, r) → ∃ c ∈ danger.initials, r.summary.toList.head? = some c

theorem head_append (s t : String) {c : Char} (h : s.toList.head? = some c) :
    (s ++ t).toList.head? = some c := by
  rw [String.toList_append, List.head?_append, h, Option.some_or]

/-- What a danger read from a payload is reported as. -/
def Danger.Found : Danger → Report → Prop
  | .silence, r => r = stopdtReport
  | .presence, _ => False
  | danger, r => ∃ c ∈ danger.initials, r.summary.toList.head? = some c

theorem modbusOperation_found {function : Nat} {danger : Danger} {r : Report}
    (h : (modbusOperation function).finding = some (danger, r)) : danger.Found r := by
  unfold modbusOperation at h
  split at h <;> cases h
  · exact ⟨'W', by decide, head_append _ _ rfl⟩
  · exact ⟨'L', by decide, head_append _ _ rfl⟩
  · exact ⟨'R', by decide, head_append _ _ rfl⟩

theorem apduOperation_found {apdu : Iec104.Apdu} {op : Operation} {danger : Danger} {r : Report}
    (hop : apduOperation apdu = some op) (h : op.finding = some (danger, r)) : danger.Found r := by
  unfold apduOperation at hop
  split at hop
  · split at hop <;> cases hop
    cases h
    rfl
  · obtain ⟨typeId, -, rfl⟩ := Option.map_eq_some_iff.mp hop
    dsimp only at h
    split at h <;> cases h
    · exact ⟨'C', by decide, head_append _ _ rfl⟩
    · exact ⟨'R', by decide, head_append _ _ rfl⟩

theorem s7Operation_found {job : S7comm.S7Job} {op : Operation} {danger : Danger} {r : Report}
    (hop : s7Operation job = some op) (h : op.finding = some (danger, r)) : danger.Found r := by
  unfold s7Operation at hop
  split at hop <;> cases hop
  dsimp only at h
  split at h <;> cases h
  · exact ⟨'B', by decide, head_append _ _ rfl⟩
  · exact ⟨'C', by decide, head_append _ _ rfl⟩
  · exact ⟨'W', by decide, head_append _ _ rfl⟩

/-- An operation read from a payload comes from a message of the payload's codec. -/
theorem mem_payloadOperations {protocol : String} {payload : Bytes} {op : Operation}
    (h : op ∈ payloadOperations protocol payload) :
    (protocol = "Modbus" ∧ ∃ function, Modbus.Message payload function ∧
        op = modbusOperation function) ∨
      (protocol = "IEC-104" ∧ ∃ apdu : Iec104.Apdu,
        (∀ t, apdu.typeId = some t → Iec104.Message payload t) ∧ apduOperation apdu = some op) ∨
      (protocol ≠ "Modbus" ∧ protocol ≠ "IEC-104" ∧ ∃ job, S7comm.Message payload job ∧
        s7Operation job = some op) := by
  have hm := (Modbus.readFunctionCode_yields payload).value
  have hi := (Iec104.parseApdus_yields payload Iec104.defaultLimit).value
  have hs := (S7comm.parseJob_yields payload).value
  unfold payloadOperations at h
  split at h
  · obtain ⟨function, hf, rfl⟩ := List.mem_map.mp h
    exact .inl ⟨‹_›, function, hm function (by simpa using hf), rfl⟩
  · split at h
    · obtain ⟨apdu, ha, hop⟩ := List.mem_filterMap.mp h
      exact .inr (.inl ⟨‹_›, apdu, hi apdu ha, hop⟩)
    · obtain ⟨job, hj, hop⟩ := List.mem_filterMap.mp h
      exact .inr (.inr ⟨‹_›, ‹_›, job, hs job (by simpa using hj), hop⟩)

theorem mem_operations {seen : Finset (String × String)} {pkt : Packet} {protocol : String}
    {dport : Nat} {op : Operation} (h : op ∈ operations seen pkt protocol dport) :
    op = ⟨none, some (.survey, synReport protocol dport)⟩ ∨
      op = ⟨none, some (.presence, talkerReport protocol)⟩ ∨
      op ∈ payloadOperations protocol pkt.payload := by
  unfold operations synOperations talkerOperations at h
  rcases List.mem_append.mp h with hsyn | hrest
  · split at hsyn
    · exact .inl (List.mem_singleton.mp hsyn)
    · cases hsyn
  · split at hrest
    · cases hrest
    · rcases List.mem_append.mp hrest with htalk | hpay
      · split at htalk
        · cases htalk
        · exact .inr (.inl (List.mem_singleton.mp htalk))
      · exact .inr (.inr hpay)

theorem payloadOperations_found {protocol : String} {payload : Bytes} {op : Operation}
    (h : op ∈ payloadOperations protocol payload) {danger : Danger} {r : Report}
    (hf : op.finding = some (danger, r)) : danger.Found r := by
  rcases mem_payloadOperations h with ⟨-, function, -, rfl⟩ | ⟨-, apdu, -, hop⟩ | ⟨-, -, job, -, hop⟩
  · exact modbusOperation_found hf
  · exact apduOperation_found hop hf
  · exact s7Operation_found hop hf

theorem payloadOperations_titled {protocol : String} {payload : Bytes} {op : Operation}
    (h : op ∈ payloadOperations protocol payload) : op.Titled := by
  intro danger r hf
  have hfound := payloadOperations_found h hf
  cases danger with
  | change => exact hfound
  | survey => exact hfound
  | silence =>
    obtain rfl : r = stopdtReport := hfound
    exact ⟨'S', by decide, rfl⟩
  | presence => exact hfound.elim

theorem operations_titled {seen : Finset (String × String)} {pkt : Packet} {protocol : String}
    {dport : Nat} {op : Operation} (h : op ∈ operations seen pkt protocol dport) : op.Titled := by
  rcases mem_operations h with rfl | rfl | hpay
  · rintro danger r ⟨⟩
    exact ⟨'N', by decide, head_append _ _ rfl⟩
  · rintro danger r ⟨⟩
    refine ⟨'U', by decide, ?_⟩
    dsimp only [talkerReport]
    rfl
  · exact payloadOperations_titled hpay

/-- The alert that reports `src` as a new talker to `dst`. -/
def newTalkerAlert (src dst : String) (a : Alert) : Bool :=
  a.summary = "Unauthorised talker sending OT traffic to a protected device" ∧ a.src = src ∧ a.dst = dst

theorem payloadOperations_not_presence {protocol : String} {payload : Bytes} {op : Operation}
    (h : op ∈ payloadOperations protocol payload) {danger : Danger} {r : Report}
    (hf : op.finding = some (danger, r)) : danger ≠ .presence := by
  rintro rfl
  exact payloadOperations_found h hf

/-- Only an operation of presence raises a new-talker alert. -/
theorem not_newTalkerAlert {op : Operation} (ht : op.Titled)
    (hp : ∀ danger r, op.finding = some (danger, r) → danger ≠ .presence) {b : Baseline}
    {pkt : Packet} {a : Alert} (ha : b.judge pkt op = some a) (src dst : String) :
    newTalkerAlert src dst a = false := by
  obtain ⟨danger, r, severity, hf, -, rfl⟩ := Detector.judge_eq_some.mp ha
  obtain ⟨c, hc, hhead⟩ := ht danger r hf
  have hne := hp danger r hf
  have hU : r.summary ≠ "Unauthorised talker sending OT traffic to a protected device" := by
    intro e
    rw [e] at hhead
    obtain rfl : 'U' = c := by simpa using hhead
    cases danger <;> simp_all [Danger.initials]
  simp [newTalkerAlert, raise, hU]

/-- An operation reported by its initial, whatever came before. -/
def Operation.Lasting (op : Operation) : Prop :=
  op.Titled ∧ ∀ danger r, op.finding = some (danger, r) → danger ≠ .presence

theorem synOperations_lasting {pkt : Packet} {protocol : String} {dport : Nat} {op : Operation}
    (h : op ∈ synOperations pkt protocol dport) : op.Lasting := by
  unfold synOperations at h
  split at h
  · rw [List.mem_singleton.mp h]
    refine ⟨?_, by rintro danger r ⟨⟩; simp⟩
    rintro danger r ⟨⟩
    exact ⟨'N', by decide, head_append _ _ rfl⟩
  · cases h

theorem payloadOperations_lasting {protocol : String} {payload : Bytes} {op : Operation}
    (h : op ∈ payloadOperations protocol payload) : op.Lasting :=
  ⟨payloadOperations_titled h, fun _ _ hf => payloadOperations_not_presence h hf⟩

theorem countP_newTalker_eq_zero {ops : List Operation} (h : ∀ op ∈ ops, op.Lasting)
    (b : Baseline) (pkt : Packet) (src dst : String) :
    (ops.filterMap (b.judge pkt)).countP (newTalkerAlert src dst) = 0 := by
  rw [List.countP_eq_zero]
  intro a ha
  obtain ⟨op, hop, hj⟩ := List.mem_filterMap.mp ha
  rw [not_newTalkerAlert (h op hop).1 (h op hop).2 hj]
  exact Bool.false_ne_true

/-- The payload holds a message, of the protocol of the destination port, that its codec classifies
as one that changes the process. -/
def Commands (pkt : Packet) : Prop :=
  (pkt.dport = some 502 ∧ ∃ function, Modbus.Message pkt.payload function ∧
      Modbus.classifyFunction function ∈ [.write, .program]) ∨
    (pkt.dport = some 2404 ∧ ∃ typeId, Iec104.Message pkt.payload typeId ∧
      Iec104.classifyTypeId typeId = .command) ∨
    (pkt.dport = some 102 ∧ ∃ job, S7comm.Message pkt.payload job ∧ job.rosctr = 1 ∧
      job.jobClass ∈ [.write, .program, .control])

theorem modbusOperation_change {function : Nat} {r : Report}
    (h : (modbusOperation function).finding = some (.change, r)) :
    Modbus.classifyFunction function ∈ [.write, .program] := by
  unfold modbusOperation at h
  split at h <;> simp_all

theorem apduOperation_change {apdu : Iec104.Apdu} {op : Operation} {r : Report}
    (hop : apduOperation apdu = some op) (h : op.finding = some (.change, r)) :
    ∃ typeId, apdu.typeId = some typeId ∧ Iec104.classifyTypeId typeId = .command := by
  unfold apduOperation at hop
  split at hop
  · split at hop <;> cases hop
    cases h
  · obtain ⟨typeId, ht, rfl⟩ := Option.map_eq_some_iff.mp hop
    dsimp only at h
    split at h <;> cases h
    exact ⟨typeId, ht, ‹_›⟩

theorem s7Operation_change {job : S7comm.S7Job} {op : Operation} {r : Report}
    (hop : s7Operation job = some op) (h : op.finding = some (.change, r)) :
    job.rosctr = 1 ∧ job.jobClass ∈ [.write, .program, .control] := by
  unfold s7Operation at hop
  split at hop <;> cases hop
  rename_i hr
  refine ⟨not_not.mp hr, ?_⟩
  dsimp only at h
  split at h <;> simp_all

/-- A change reported on a packet is a command in its payload. -/
theorem commands_of_change {b : Baseline} {pkt : Packet} {seen : Finset (String × String)}
    {protocol : String} {dport : Nat} (hw : Detector.Watched b pkt protocol dport) {op : Operation}
    (hop : op ∈ operations seen pkt protocol dport) {r : Report}
    (hf : op.finding = some (.change, r)) : Commands pkt := by
  have hport : ∀ p, (dport, p) ∈ otPorts → (p = "Modbus" ∧ dport = 502) ∨
      (p = "IEC-104" ∧ dport = 2404) ∨ (p = "S7comm" ∧ dport = 102) := by
    intro p hp
    simp only [otPorts, List.mem_cons, Prod.mk.injEq, List.not_mem_nil, or_false] at hp
    rcases hp with ⟨h, h'⟩ | ⟨h, h'⟩ | ⟨h, h'⟩ <;> simp [h, h']
  rcases mem_operations hop with rfl | rfl | hpay
  · cases hf
  · cases hf
  · rcases mem_payloadOperations hpay with
      ⟨hp, function, hm, rfl⟩ | ⟨hp, apdu, hm, hop'⟩ | ⟨hn, hn', job, hm, hop'⟩
    · rcases hport protocol hw.ot with ⟨-, h⟩ | ⟨h, -⟩ | ⟨h, -⟩
      · exact .inl ⟨h ▸ hw.port, function, hm, modbusOperation_change hf⟩
      · simp [hp] at h
      · simp [hp] at h
    · rcases hport protocol hw.ot with ⟨h, -⟩ | ⟨-, h⟩ | ⟨h, -⟩
      · simp [hp] at h
      · obtain ⟨typeId, ht, hc⟩ := apduOperation_change hop' hf
        exact .inr (.inl ⟨h ▸ hw.port, typeId, hm typeId ht, hc⟩)
      · simp [hp] at h
    · rcases hport protocol hw.ot with ⟨h, -⟩ | ⟨h, -⟩ | ⟨-, h⟩
      · exact absurd h hn
      · exact absurd h hn'
      · obtain ⟨hr, hc⟩ := s7Operation_change hop' hf
        exact .inr (.inr ⟨h ▸ hw.port, job, hm, hr, hc⟩)

/-- The alert that reports an outstation being silenced. -/
def stopdtAlert (a : Alert) : Bool :=
  a.summary = "STOPDT act - an attempt to stop the outstation reporting"

/-- Silence is reported with the STOPDT report. -/
theorem report_of_silence {seen : Finset (String × String)} {pkt : Packet} {protocol : String}
    {dport : Nat} {op : Operation} (hop : op ∈ operations seen pkt protocol dport) {r : Report}
    (hf : op.finding = some (.silence, r)) : r = stopdtReport := by
  rcases mem_operations hop with rfl | rfl | hpay
  · cases hf
  · cases hf
  · exact payloadOperations_found hpay hf

theorem stopdtAlert_raise {op : Operation} (ht : op.Titled) {danger : Danger} {r : Report}
    (hf : op.finding = some (danger, r)) (hs : danger = .silence → r = stopdtReport) (pkt : Packet)
    (severity : Severity) : stopdtAlert (raise pkt r severity) = true ↔ danger = .silence := by
  obtain ⟨c, hc, hhead⟩ := ht danger r hf
  constructor
  · intro h
    have e : r.summary = "STOPDT act - an attempt to stop the outstation reporting" :=
      of_decide_eq_true h
    rw [e] at hhead
    obtain rfl : 'S' = c := by simpa using hhead
    cases danger <;> simp_all [Danger.initials]
  · intro h
    rw [hs h]
    rfl

namespace Detector

section Effect

variable {d : Detector} {pkt : Packet}

/-- The new-talker alerts of a packet are those of its talker operation. -/
theorem countP_newTalker_react {protocol : String} {dport : Nat}
    (hw : Watched d.baseline pkt protocol dport) (src dst : String) :
    (d.react pkt).2.countP (newTalkerAlert src dst) =
      if pkt.payload = [] then 0
      else ((talkerOperations d.seenTalkers pkt protocol).filterMap (d.baseline.judge pkt)).countP
        (newTalkerAlert src dst) := by
  have hsyn : ((synOperations pkt protocol dport).filterMap (d.baseline.judge pkt)).countP
      (newTalkerAlert src dst) = 0 :=
    countP_newTalker_eq_zero (fun op hop => synOperations_lasting hop) _ _ _ _
  have hpay : ((payloadOperations protocol pkt.payload).filterMap (d.baseline.judge pkt)).countP
      (newTalkerAlert src dst) = 0 :=
    countP_newTalker_eq_zero (fun op hop => payloadOperations_lasting hop) _ _ _ _
  rw [react_watched hw, report, accept_baseline, operations]
  split
  · rw [List.append_nil, hsyn]
  · rw [List.filterMap_append, List.filterMap_append, List.countP_append, List.countP_append, hsyn,
      hpay, Nat.zero_add, Nat.add_zero]

theorem talker_alert (h : Talks d.baseline pkt) (hseen : talkers pkt ∉ d.seenTalkers) :
    (d.react pkt).2.countP (newTalkerAlert (str pkt.src) (str pkt.dst)) = 1 := by
  obtain ⟨protocol, dport, hw⟩ := h.watched
  rw [countP_newTalker_react hw, if_neg h.payload, talkerOperations, if_neg hseen]
  simp [Baseline.judge, h.stranger, Danger.verdict, newTalkerAlert, raise, talkerReport]

theorem no_talker_alert {src dst : String}
    (h : Talks d.baseline pkt → talkers pkt = (src, dst) → (src, dst) ∈ d.seenTalkers) :
    (d.react pkt).2.countP (newTalkerAlert src dst) = 0 := by
  by_cases hw : ∃ protocol dport, Watched d.baseline pkt protocol dport
  · obtain ⟨protocol, dport, hw⟩ := hw
    rw [countP_newTalker_react hw, talkerOperations]
    by_cases hp : pkt.payload = []
    · rw [if_pos hp]
    · by_cases hseen : talkers pkt ∈ d.seenTalkers
      · rw [if_neg hp, if_pos hseen]
        rfl
      · rw [if_neg hp, if_neg hseen, List.countP_eq_zero]
        intro a ha hnew
        obtain ⟨op, hop, hj⟩ := List.mem_filterMap.mp ha
        rw [List.mem_singleton.mp hop] at hj
        obtain ⟨danger, r, severity, hf, hv, rfl⟩ := judge_eq_some.mp hj
        cases hf
        have hs : d.baseline.standing pkt.src = .stranger := by
          cases hs : d.baseline.standing pkt.src <;> simp_all [Danger.verdict]
        have hnew := of_decide_eq_true hnew
        have hpair : talkers pkt = (src, dst) := Prod.ext hnew.2.1 hnew.2.2
        exact hseen (hpair ▸ h ⟨⟨protocol, dport, hw⟩, hp, hs⟩ hpair)
  · rw [react_unwatched fun p q hw' => hw ⟨p, q, hw'⟩]
    rfl

/-- A packet is reported as a new talker when it makes its pair known. -/
theorem countP_newTalker_eq (pair : String × String) :
    (d.react pkt).2.countP (newTalkerAlert pair.1 pair.2) =
      if pair ∈ (d.react pkt).1.seenTalkers ∧ pair ∉ d.seenTalkers then 1 else 0 := by
  have hmem : pair ∈ (d.react pkt).1.seenTalkers ↔
      pair ∈ d.seenTalkers ∨ (Talks d.baseline pkt ∧ talkers pkt = pair) := mem_react_seenTalkers
  by_cases hseen : pair ∈ d.seenTalkers
  · rw [if_neg fun h => h.2 hseen, no_talker_alert fun _ _ => hseen]
  · by_cases ht : Talks d.baseline pkt ∧ talkers pkt = pair
    · rw [if_pos ⟨hmem.mpr (.inr ht), hseen⟩]
      obtain ⟨ht, rfl⟩ := ht
      exact talker_alert ht hseen
    · rw [if_neg fun h => ht ((hmem.mp h.1).resolve_left h.2)]
      exact no_talker_alert fun h e => absurd ⟨h, e⟩ ht

theorem react_alerts : (d.react pkt).1.alerts = d.alerts + (d.react pkt).2.length := by
  unfold react
  cases d.target pkt with
  | none => rfl
  | some t =>
    have ha : (d.accept pkt).alerts = d.alerts := by
      unfold accept
      split <;> rfl
    simp only [report, ha]

theorem react_packets :
    (d.react pkt).1.packets = d.packets + if d.baseline.watches pkt then 1 else 0 := by
  by_cases hw : ∃ protocol dport, Watched d.baseline pkt protocol dport
  · have ha : (d.accept pkt).packets = d.packets + 1 := by
      unfold accept
      split <;> rfl
    rw [if_pos (watches_iff.mpr hw)]
    obtain ⟨protocol, dport, hw⟩ := hw
    rw [react_watched hw, report_packets, ha]
  · rw [if_neg (fun h => hw (watches_iff.mp h)), react_unwatched fun p q h => hw ⟨p, q, h⟩]
    rfl

/-- The sources one packet marks as hostile. -/
theorem mem_react_hostileSources {s : String} :
    s ∈ (d.react pkt).1.hostileSources ↔ s ∈ d.hostileSources ∨
      (d.baseline.standing pkt.src = .stranger ∧
        ∃ a ∈ (d.react pkt).2, a.severity ≠ .info ∧ a.src = s) := by
  have ha : (d.accept pkt).hostileSources = d.hostileSources := by
    unfold accept
    split <;> rfl
  by_cases hw : ∃ protocol dport, Watched d.baseline pkt protocol dport
  · obtain ⟨protocol, dport, hw⟩ := hw
    rw [react_watched hw]
    simp only [report, ha, accept_baseline, Finset.mem_union, marked]
    by_cases hs : d.baseline.standing pkt.src = .stranger
    · simp [hs, and_assoc]
    · simp [hs]
  · rw [react_unwatched fun p q h => hw ⟨p, q, h⟩]
    simp

end Effect

end Detector

end Pyscan.OtDetect
