import Pyscan.Domain.DetectorOrder
import Pyscan.Py.Inet

/-!
# The texts of the detector

Everything the detector says is `Plain`: printable ASCII, and none of the
characters that open a tag, a code span or an escape. This holds of every alert
and of every name the detector keeps, whatever the packets
(`Detector.plain_run`), so what quotes them need not escape them.
-/

namespace Pyscan

namespace Py

/-- Printable ASCII but for brackets, the backslash and the backquote. -/
def isPlain (c : Char) : Bool :=
  32 ≤ c.toNat && c.toNat < 127 && c.toNat != 91 && c.toNat != 92 && c.toNat != 93 && c.toNat != 96

def Plain (s : String) : Prop := s.toList.all isPlain = true

instance : DecidablePred Plain := fun s => by unfold Plain; infer_instance

variable {s t : String}

theorem Plain.append (hs : Plain s) (ht : Plain t) : Plain (s ++ t) := by
  rw [Plain, String.toList_append, List.all_append, hs, ht, Bool.and_self]

theorem plain_of_forall (h : ∀ c ∈ s.toList, isPlain c = true) : Plain s := List.all_eq_true.mpr h

theorem Plain.not_mem (h : Plain s) {c : Char} (hc : isPlain c = false) : c ∉ s.toList := fun hmem => by
  rw [List.all_eq_true.mp h c hmem] at hc
  cases hc

theorem isPlain_of_isDigit {c : Char} (h : c.isDigit = true) : isPlain c = true := by
  have hc : 48 ≤ c.toNat ∧ c.toNat ≤ 57 := by
    simpa [Char.isDigit, UInt32.le_iff_toNat_le] using h
  simp only [isPlain, Bool.and_eq_true, decide_eq_true_eq, bne_iff_ne, ne_eq]
  omega

theorem plain_toString (n : Nat) : Plain (toString n) := by
  have htext : toString n = String.ofList (decimal n) := Nat.repr_eq_ofList_toDigits
  refine plain_of_forall fun c hc => isPlain_of_isDigit ?_
  rw [htext, String.toList_ofList] at hc
  exact isDigit_of_mem_decimal hc

theorem plain_of_addrText (h : AddrText s.toList) : Plain s := by
  have hchars : ("0123456789abcdef.:".toList.all isPlain) = true := by decide
  exact plain_of_forall fun c hc => List.all_eq_true.mp hchars c (h c hc)

theorem plain_hexUpper2 (n : Nat) : Plain (S7comm.hexUpper2 n) := by
  have hupper : ("0123456789abcdef.:".toList.all fun c => isPlain c.toUpper) = true := by decide
  refine plain_of_forall fun c hc => ?_
  rw [S7comm.hexUpper2, String.toList_ofList] at hc
  obtain ⟨d, hd, rfl⟩ := List.mem_map.mp hc
  refine List.all_eq_true.mp hupper d ?_
  rw [hexPad, List.leftpad] at hd
  rcases List.mem_append.mp hd with hd | hd
  · rw [List.eq_of_mem_replicate hd]
    decide
  · exact addrText_hex n d hd

end Py

namespace OtDetect

open Py

/-! ## Reports -/

structure Report.Plain (r : Report) : Prop where
  protocol : Py.Plain r.protocol
  summary : Py.Plain r.summary
  technique : Py.Plain r.technique
  action : Py.Plain r.action

/-- A report of fixed texts, but for what its summary ends in. -/
theorem report_plain {protocol title name technique action : String} (hprotocol : Plain protocol)
    (hfixed : ∀ s ∈ [title, technique, action], Plain s) (hname : Plain name) :
    Report.Plain ⟨protocol, title ++ name, technique, action⟩ where
  protocol := hprotocol
  summary := (hfixed title (by simp)).append hname
  technique := hfixed _ (by simp)
  action := hfixed _ (by simp)

theorem mem_of_lookup {β : Type} {entries : List (Nat × β)} {k : Nat} {entry : β}
    (h : entries.lookup k = some entry) : (k, entry) ∈ entries := by
  obtain ⟨front, back, heq, -⟩ := List.lookup_eq_some_iff.mp h
  rw [heq]
  exact List.mem_append_right _ List.mem_cons_self

theorem plain_functionName (function : Nat) : Plain (Modbus.functionName function) := by
  have hnames : ∀ entry ∈ Modbus.functions, Plain entry.2.1 := by decide +kernel
  unfold Modbus.functionName
  split
  · rename_i entry hentry
    exact hnames _ (mem_of_lookup hentry)
  · exact Plain.append (by decide) (plain_toString _)

theorem plain_typeName (typeId : Nat) : Plain (Iec104.typeName typeId) := by
  have hnames : ∀ entry ∈ Iec104.typeIds, Plain entry.2.1 := by decide +kernel
  unfold Iec104.typeName
  split
  · rename_i entry hentry
    exact hnames _ (mem_of_lookup hentry)
  · exact Plain.append (by decide) (plain_toString _)

theorem plain_apdu_name (apdu : Iec104.Apdu) : Plain apdu.name := by
  have hnames : ∀ entry ∈ Iec104.uFrames, Plain entry.2 := by decide +kernel
  unfold Iec104.Apdu.name
  split
  · cases h : Iec104.uFrames.lookup apdu.control with
    | none => exact (show Plain "U-frame" by decide)
    | some name => exact hnames _ (mem_of_lookup h)
  · split
    · exact plain_typeName _
    · refine Plain.append ?_ (by decide)
      cases apdu.format <;> decide

theorem plain_job_name (job : S7comm.S7Job) : Plain job.name := by
  have hnames : ∀ entry ∈ S7comm.functions, Plain entry.2.1 := by decide +kernel
  unfold S7comm.S7Job.name
  split
  · rename_i entry hentry
    exact hnames _ (mem_of_lookup hentry)
  · exact Plain.append (by decide) (plain_hexUpper2 _)

/-! ## Operations -/

/-- An operation's name and report are plain. -/
structure Operation.Plain (op : Operation) : Prop where
  name : ∀ name, op.name = some name → Py.Plain name
  report : ∀ danger r, op.finding = some (danger, r) → r.Plain

theorem modbusOperation_plain (function : Nat) : (modbusOperation function).Plain where
  name name h := by
    obtain rfl := Option.some.inj h
    exact Plain.append (by decide) (plain_toString _)
  report danger r h := by
    have htext : Plain (functionText function) :=
      ((Plain.append (show Plain "FC" by decide) (plain_toString _)).append (by decide)).append
        (plain_functionName _)
    unfold modbusOperation at h
    split at h <;> cases h <;> exact report_plain (by decide) (by decide +kernel) htext

theorem apduOperation_plain {apdu : Iec104.Apdu} {op : Operation} (h : apduOperation apdu = some op) :
    op.Plain := by
  unfold apduOperation at h
  split at h
  · split at h <;> cases h
    refine ⟨fun name hname => ?_, fun danger r hr => ?_⟩
    · obtain rfl := Option.some.inj hname
      decide
    · cases hr
      exact ⟨by decide, by decide, by decide, by decide +kernel⟩
  · obtain ⟨typeId, -, rfl⟩ := Option.map_eq_some_iff.mp h
    refine ⟨fun name hname => ?_, fun danger r hr => ?_⟩
    · obtain rfl := Option.some.inj hname
      exact Plain.append (by decide) (plain_toString _)
    · dsimp only at hr
      split at hr <;> cases hr <;> exact report_plain (by decide) (by decide +kernel) (plain_apdu_name apdu)

theorem s7Operation_plain {job : S7comm.S7Job} {op : Operation} (h : s7Operation job = some op) :
    op.Plain := by
  unfold s7Operation at h
  split at h <;> cases h
  refine ⟨fun name hname => ?_, fun danger r hr => ?_⟩
  · obtain rfl := Option.some.inj hname
    exact Plain.append (by decide) (plain_job_name job)
  · dsimp only at hr
    split at hr <;> cases hr <;> exact report_plain (by decide) (by decide +kernel) (plain_job_name job)

theorem operations_plain {seen : Finset (String × String)} {pkt : Packet} {protocol : String}
    {dport : Nat} {op : Operation} (hot : (dport, protocol) ∈ otPorts)
    (h : op ∈ operations seen pkt protocol dport) : op.Plain := by
  have hprotocol : Plain protocol :=
    (show ∀ entry ∈ otPorts, Plain entry.2 by decide) _ hot
  rcases mem_operations h with rfl | rfl | h
  · refine ⟨nofun, fun danger r hr => ?_⟩
    cases hr
    exact report_plain hprotocol (by decide +kernel) (plain_toString dport)
  · refine ⟨nofun, fun danger r hr => ?_⟩
    cases hr
    have htexts : Plain (talkerReport "").summary ∧ Plain (talkerReport "").technique ∧
        Plain (talkerReport "").action := by
      decide +kernel
    exact ⟨hprotocol, htexts.1, htexts.2.1, htexts.2.2⟩
  · rcases mem_payloadOperations h with ⟨-, function, -, rfl⟩ | ⟨-, apdu, -, hop⟩ | ⟨-, -, job, -, hop⟩
    · exact modbusOperation_plain function
    · exact apduOperation_plain hop
    · exact s7Operation_plain hop

/-! ## Runs -/

structure Alert.Plain (a : Alert) : Prop where
  src : Py.Plain a.src
  dst : Py.Plain a.dst
  protocol : Py.Plain a.protocol
  summary : Py.Plain a.summary
  technique : Py.Plain a.technique
  action : Py.Plain a.action

namespace Detector

/-- What a detector keeps by name is plain. -/
structure Plain (d : Detector) : Prop where
  sources : ∀ s ∈ d.hostileSources, Py.Plain s
  operations : ∀ s ∈ d.observedOperations, Py.Plain s

variable {d : Detector} {pkt : Packet}

theorem plain_of_rendered {s : String} (h : Packet.Rendered s) : Py.Plain s := by
  obtain ⟨d, h | h⟩ := h
  · obtain ⟨hd, rfl⟩ := inetNtoa_eq_ok.mp h
    match d, hd with
    | [a, b, c, e], _ => exact plain_of_addrText (addrText_dotted a b c e)
  · obtain ⟨hd, rfl⟩ := inetNtop_eq_ok.mp h
    rw [rendered_v6 hd]
    refine plain_of_addrText ?_
    rw [String.toList_ofList]
    exact addrText_ipv6Text d

theorem plain_of_mem_react {a : Alert} (hp : pkt.Addressed) (ha : a ∈ (d.react pkt).2) : a.Plain := by
  obtain ⟨hsrc, hdst⟩ := addresses_of_mem_react ha hp
  obtain ⟨protocol, dport, hw, op, hop, danger, r, severity, hf, -, rfl⟩ := mem_react ha
  obtain ⟨s, t, hs, ht, hrs, hrt⟩ := hp.addresses (.inr (by rw [hw.port]; simp))
  cases hsrc.symm.trans hs
  cases hdst.symm.trans ht
  have hr : r.Plain := (operations_plain hw.ot hop).report danger r hf
  exact ⟨plain_of_rendered hrs, plain_of_rendered hrt, hr.protocol, hr.summary, hr.technique, hr.action⟩

theorem plain_of_mem_names {b : Baseline} {name : String} (h : name ∈ names b pkt) : Py.Plain name := by
  unfold names at h
  split at h
  · cases h
  · rename_i protocol dport htarget
    have hw : Watched b pkt protocol dport := target_eq_some.mp htarget
    obtain ⟨op, hop, hname⟩ := List.mem_filterMap.mp h
    have hmem : op ∈ operations ∅ pkt protocol dport := by
      unfold operations
      rcases List.mem_append.mp hop with hop | hop
      · exact List.mem_append_left _ hop
      · split at hop
        · cases hop
        · rw [if_neg ‹_›]
          exact List.mem_append_right _ (List.mem_append_right _ hop)
    exact (operations_plain hw.ot hmem).name name hname

/-- **The detector says nothing that needs escaping**, whatever the frames. -/
theorem plain_run (b : Baseline) {pkts : List Packet} (hp : ∀ pkt ∈ pkts, pkt.Addressed) :
    (∀ a ∈ (machine.run (fresh b) pkts).2, a.Plain) ∧ (machine.run (fresh b) pkts).1.Plain := by
  have halerts : ∀ a ∈ (machine.run (fresh b) pkts).2, a.Plain := by
    intro a ha
    obtain ⟨before, pkt, after, hsplit, ha⟩ := machine.mem_run ha
    have hpkt : pkt ∈ pkts := hsplit ▸ List.mem_append_right _ List.mem_cons_self
    exact plain_of_mem_react (hp pkt hpkt) ha
  refine ⟨halerts, fun s hs => ?_, fun name hname => ?_⟩
  · obtain ⟨a, ha, -, rfl, -⟩ := ((accounted_run b hp).hostile s).mp hs
    exact (halerts a ha).src
  · obtain ⟨pkt, -, hname⟩ := (observed_run b pkts name).mp hname
    exact plain_of_mem_names hname

end Detector

end OtDetect

end Pyscan
