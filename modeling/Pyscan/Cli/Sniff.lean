import Pyscan.Adapters.SniffApp
import Pyscan.Cli.Lab

/-!
# The `sniff` command

`sniff` prints the packets of a capture, or opens them in the live view. The loop
takes the first packets of the protocol asked for, up to a count (`sniff_eq`),
and what it prints the live view shows too, **however its thread and its app take
turns** (`views_agree`). With a count it does not depend on what comes behind the
packets it shows (`sniff_cut`).
-/

namespace Pyscan.Cli

open Py PcapReader Framed PacketTable SniffApp

/-- `not (want and pkt.protocol != want)`; `want` is the option in upper case, where it is given. -/
def wanted (want : Option String) (pkt : Packet) : Bool := want.all fun protocol => pkt.protocol = protocol

/-- `count and len(packets) >= count`. -/
def reached (count : Option ℤ) (packets : List Packet) : Bool :=
  count.any fun n : ℤ => n ≠ 0 ∧ n ≤ packets.length

/-- The loop of `sniff` over what the reader yields before `error`, with the packets so far. -/
def sniffLoop (want : Option String) (count : Option ℤ) (error : Option Raised) :
    List Record → List Packet → Read (List Packet)
  | [], packets =>
    match error with
    | some e => .error e
    | none => .ok packets
  | frame :: frames, packets =>
    let pkt := MonitorService.Frame.decode frame
    if ¬ wanted want pkt then sniffLoop want count error frames packets
    else if reached count (packets ++ [pkt]) then .ok (packets ++ [pkt])
    else sniffLoop want count error frames (packets ++ [pkt])

def sniff [Floats] (contents : Bytes) (want : Option String) (count : Option ℤ) : Read (List Packet) :=
  sniffLoop want count (readPcap contents).error (readPcap contents).items []

/-- The packets of a capture that are asked for. -/
def matching (want : Option String) (frames : List Record) : List Packet :=
  (frames.map MonitorService.Frame.decode).filter (wanted want)

/-- How many packets are enough: no count and a count of zero ask for all, a negative one for one. -/
def limit (count : Option ℤ) : Option Nat := (count.filter (· ≠ 0)).map fun n => (max 1 n).toNat

/-- All that the reader yields is wanted: its exception is the loop's. -/
def outcome (error : Option Raised) (packets : List Packet) : Read (List Packet) :=
  match error with
  | some e => .error e
  | none => .ok packets

variable {want : Option String} {count : Option ℤ} {error : Option Raised}

theorem reached_iff {packets : List Packet} (hne : packets ≠ []) :
    reached count packets = true ↔ ∃ n, limit count = some n ∧ n ≤ packets.length := by
  have hpos : 1 ≤ packets.length := List.length_pos_iff.mpr hne
  cases count with
  | none => simp [reached, limit]
  | some n =>
    by_cases h0 : n = 0
    · simp [reached, limit, h0]
    · simp only [reached, limit, Option.any_some, Option.filter_some, h0, ne_eq, not_false_eq_true,
        decide_true, if_true, Option.map_some, Option.some.injEq, exists_eq_left', true_and,
        decide_eq_true_eq]
      omega

/-- The loop, with fewer packets so far than are enough. -/
theorem sniffLoop_eq (frames : List Record) {packets : List Packet}
    (h : ∀ n, limit count = some n → packets.length < n) :
    sniffLoop want count error frames packets =
      match limit count with
      | some n =>
        if n ≤ (packets ++ matching want frames).length then
          .ok ((packets ++ matching want frames).take n)
        else outcome error (packets ++ matching want frames)
      | none => outcome error (packets ++ matching want frames) := by
  induction frames generalizing packets with
  | nil =>
    rw [matching, List.map_nil, List.filter_nil, List.append_nil]
    cases hl : limit count with
    | none => rfl
    | some n =>
      dsimp only
      rw [if_neg (Nat.not_le.mpr (h n hl))]
      rfl
  | cons frame frames ih =>
    rw [sniffLoop]
    by_cases hw : wanted want (MonitorService.Frame.decode frame) = true
    · have hmatching : packets ++ matching want (frame :: frames) =
          packets ++ [MonitorService.Frame.decode frame] ++ matching want frames := by
        simp [matching, hw]
      rw [if_neg (not_not.mpr hw), hmatching]
      by_cases hr : reached count (packets ++ [MonitorService.Frame.decode frame]) = true
      · obtain ⟨n, hn, hle⟩ := (reached_iff (by simp)).mp hr
        have hn1 : n = (packets ++ [MonitorService.Frame.decode frame]).length := by
          have hlt := h n hn
          rw [List.length_append, List.length_singleton] at hle ⊢
          omega
        rw [if_pos hr, hn]
        dsimp only
        rw [if_pos (by rw [List.length_append]; omega), hn1, List.take_left]
      · rw [if_neg hr]
        refine ih fun n hn => Nat.lt_of_not_le fun hle => hr ?_
        exact (reached_iff (by simp)).mpr ⟨n, hn, hle⟩
    · have hmatching : matching want (frame :: frames) = matching want frames := by
        simp [matching, hw]
      rw [if_pos hw, hmatching]
      exact ih h

/-- What `sniff` shows: where there are enough, the first packets asked for, whatever comes after
them in the file; else all of them, or the exception of the reader. -/
theorem sniff_eq [Floats] (contents : Bytes) (want : Option String) (count : Option ℤ) :
    sniff contents want count =
      match limit count with
      | some n =>
        if n ≤ (matching want (readPcap contents).items).length then
          .ok ((matching want (readPcap contents).items).take n)
        else outcome (readPcap contents).error (matching want (readPcap contents).items)
      | none => outcome (readPcap contents).error (matching want (readPcap contents).items) := by
  refine sniffLoop_eq _ fun n hn => ?_
  obtain ⟨m, -, rfl⟩ := Option.map_eq_some_iff.mp hn
  show 0 < _
  omega

/-- Without options, a capture that is read to its end is shown whole. -/
theorem sniff_all [Floats] {contents : Bytes} (hread : (readPcap contents).error = none) :
    sniff contents none none = .ok ((readPcap contents).items.map MonitorService.Frame.decode) := by
  have hmatching : matching none (readPcap contents).items =
      (readPcap contents).items.map MonitorService.Frame.decode :=
    List.filter_eq_self.mpr fun _ _ => rfl
  rw [sniff_eq, hread, hmatching]
  rfl

/-! ## The two views -/

/-- No key is pressed. -/
def Keyless (as : List Act) : Prop := .togglePause ∉ as ∧ .clear ∉ as

/-- Everything has been captured and has arrived. -/
def Drained (s : SniffApp.Session) : Prop := s.source = [] ∧ s.posted = []

theorem exec_captures (source : List (Option MonitorService.Frame)) (posted : List Packet)
    (app : SniffApp) :
    system.exec ⟨source, posted, app⟩ (List.replicate source.length .capture) =
      some ⟨[], posted ++ MonitorService.packets source, app⟩ := by
  induction source generalizing posted with
  | nil => simp [MonitorService.packets, Lts.System.exec_nil]
  | cons item source ih =>
    rw [List.length_cons, List.replicate_succ]
    cases item with
    | none => exact (Lts.System.exec_cons rfl).trans (ih posted)
    | some frame =>
      refine (Lts.System.exec_cons rfl).trans ((ih _).trans ?_)
      simp [MonitorService.packets]

theorem exec_arrivals (posted : List Packet) (app : SniffApp) :
    ∃ app', system.exec ⟨[], posted, app⟩ (List.replicate posted.length .arrive) =
      some ⟨[], [], app'⟩ := by
  induction posted generalizing app with
  | nil => exact ⟨app, rfl⟩
  | cons pkt posted ih =>
    obtain ⟨app', h⟩ := ih (app.onPacketArrived pkt)
    exact ⟨app', (Lts.System.exec_cons rfl).trans h⟩

/-- Left alone, the app takes in all of its source. -/
theorem exists_drained (s : SniffApp.Session) :
    ∃ bs s', Keyless bs ∧ system.exec s bs = some s' ∧ Drained s' := by
  obtain ⟨app', h⟩ := exec_arrivals (s.posted ++ MonitorService.packets s.source) s.app
  refine ⟨_, _, ?_, Lts.System.exec_append (exec_captures s.source s.posted s.app) h, rfl, rfl⟩
  constructor <;> simp [List.mem_replicate]

/-- No less than the steps a session has left. -/
def work (s : SniffApp.Session) : Nat := 2 * s.source.length + s.posted.length

/-- Each step that is no key leaves less to do. -/
theorem work_step {s s' : SniffApp.Session} {a : Act} (ha : a ≠ .togglePause ∧ a ≠ .clear)
    (h : system.step s a = some s') : work s' + 1 ≤ work s := by
  obtain ⟨source, posted, app⟩ := s
  cases a with
  | capture =>
    rcases source with _ | ⟨_ | frame, source⟩
    · cases h
    · cases h
      simp only [work, List.length_cons]
      omega
    · cases h
      simp only [work, List.length_cons, List.length_append, List.length_nil]
      omega
  | arrive =>
    rcases posted with _ | ⟨pkt, posted⟩
    · cases h
    · cases h
      simp only [work, List.length_cons]
      omega
  | togglePause => exact absurd rfl ha.1
  | clear => exact absurd rfl ha.2

/-- A run without keys is no longer than the work it began with. -/
theorem length_le_work {s s' : SniffApp.Session} {bs : List Act} (hbs : Keyless bs)
    (h : system.exec s bs = some s') : bs.length ≤ work s := by
  have hsteps : ∀ b ∈ bs, b ≠ .togglePause ∧ b ≠ .clear := fun b hb =>
    ⟨fun hpause => hbs.1 (hpause ▸ hb), fun hclear => hbs.2 (hclear ▸ hb)⟩
  have hweight := Lts.System.exec_weight_le (S := system) (I := fun _ => True) (μ := work)
    (C := fun _ b => b ≠ .togglePause ∧ b ≠ .clear) (w := fun _ => 1)
    (fun s a s' _ ha hs => ⟨trivial, work_step ha hs⟩) trivial
    (Lts.System.along_of_forall hsteps) h
  rw [List.map_const', List.sum_replicate, smul_eq_mul, mul_one] at hweight
  omega

/-- Where neither the thread nor the app can go on, everything has arrived. -/
theorem drained_of_stuck {s : SniffApp.Session} (hcapture : system.step s .capture = none)
    (harrive : system.step s .arrive = none) : Drained s := by
  obtain ⟨source, posted, app⟩ := s
  constructor
  · rcases source with _ | ⟨_ | frame, source⟩
    · rfl
    · cases hcapture
    · cases hcapture
  · cases posted with
    | nil => rfl
    | cons pkt posted => cases harrive

/-- **The two views agree.** For a capture that is read to its end, the live view of it shows the rows
that `sniff` prints: at any time those of some of its packets, and, when all have arrived and no key
was pressed, the very table. Left alone it comes to that: each run without keys is bounded, and ends
only there. -/
theorem views_agree [Floats] {contents : Bytes} (hread : (readPcap contents).error = none) (titleText : String)
    {as : List Act} {s : SniffApp.Session}
    (h : system.exec (mounted titleText ((readPcap contents).items.map some)) as = some s) :
    ∃ packets shown, sniff contents none none = .ok packets ∧ shown.Sublist packets ∧
      s.app.table = rows shown ∧ s.app.n = shown.length ∧
      (Keyless as → Drained s → shown = packets ∧
        (packets ≠ [] → emit packets = .table s.app.table s.app.n)) ∧
      (∀ bs s', Keyless bs → system.exec s bs = some s' → bs.length ≤ work s ∧
        (system.step s' .capture = none → system.step s' .arrive = none → Drained s')) ∧
      ∃ bs s', Keyless bs ∧ system.exec s bs = some s' ∧ Drained s' := by
  obtain ⟨happ, hle, hrest⟩ := exec_ofShown h
  rw [MonitorService.packets_map_some] at happ hle hrest
  refine ⟨_, _, sniff_all hread, (kept_sublist false as _).trans (List.take_sublist _ _), ?_, ?_, ?_,
    fun bs s' hbs hexec => ⟨length_le_work hbs hexec, drained_of_stuck⟩, exists_drained s⟩
  · rw [happ, table_ofShown]
  · rw [happ]
    rfl
  · rintro ⟨hpause, hclear⟩ ⟨hsource, hposted⟩
    rw [hsource, hposted] at hrest
    have hall : kept false as ((readPcap contents).items.map MonitorService.Frame.decode) =
        (readPcap contents).items.map MonitorService.Frame.decode := by
      rw [kept_of_no_keys hpause hclear]
      exact List.take_of_length_le (List.drop_eq_nil_iff.mp hrest.symm)
    refine ⟨hall, fun hne => ?_⟩
    rw [happ, hall, emit, if_neg hne]
    rfl

/-- The practice capture, captured and taken in without a key: the live view has its 22 rows. -/
theorem views_agree_lab :
    ∃ contents packets as s, LabCapture contents ∧ sniff contents none none = .ok packets ∧
      packets.length = 22 ∧
      system.exec (mounted "pyscan sniff" ((readPcap contents).items.map some)) as = some s ∧
      s.app.n = 22 ∧ emit packets = .table s.app.table s.app.n := by
  obtain ⟨contents, pkts, hlab, hread, hpackets, hlength, -⟩ := exists_labCapture
  obtain ⟨as, s, has, hexec, hdrained⟩ :=
    exists_drained (mounted "pyscan sniff" ((readPcap contents).items.map some))
  obtain ⟨packets, shown, hsniff, -, -, hn, hshown, -⟩ := views_agree hread "pyscan sniff" hexec
  obtain ⟨rfl, hemit⟩ := hshown has hdrained
  obtain rfl : shown = pkts := by
    rw [sniff_all hread, ← MonitorService.packets_map_some, hpackets] at hsniff
    exact (Except.ok.inj hsniff).symm
  exact ⟨contents, shown, as, s, hlab, hsniff, hlength, hexec, hn.trans hlength,
    hemit (List.ne_nil_of_length_pos (by omega))⟩

/-! ## A count, and a file that is cut -/

theorem matching_prefix {frames frames' : List Record} (h : frames <+: frames') :
    matching want frames <+: matching want frames' := by
  obtain ⟨rest, rfl⟩ := h
  rw [matching, matching, List.map_append, List.filter_append]
  exact List.prefix_append _ _

theorem outcome_ok {error : Option Raised} {ms packets : List Packet}
    (h : outcome error ms = .ok packets) : packets = ms := by
  unfold outcome at h
  split at h
  · cases h
  · exact (Except.ok.inj h).symm

theorem outcome_error {error : Option Raised} {ms : List Packet} {e : Raised}
    (h : outcome error ms = .error e) : error = some e := by
  unfold outcome at h
  split at h
  · rw [Except.error.inj h]
  · cases h

/-- There are enough packets, or what the reader came to decides. -/
theorem sniff_cases [Floats] (contents : Bytes) (want : Option String) (count : Option ℤ) :
    (∃ n, limit count = some n ∧ n ≤ (matching want (readPcap contents).items).length ∧
      sniff contents want count = .ok ((matching want (readPcap contents).items).take n)) ∨
    ((∀ n, limit count = some n → (matching want (readPcap contents).items).length < n) ∧
      sniff contents want count =
        outcome (readPcap contents).error (matching want (readPcap contents).items)) := by
  have heq := sniff_eq contents want count
  cases hl : limit count with
  | none =>
    rw [hl] at heq
    exact .inr ⟨nofun, heq⟩
  | some n =>
    rw [hl] at heq
    dsimp only at heq
    split at heq
    · exact .inl ⟨n, rfl, ‹_›, heq⟩
    · refine .inr ⟨fun m hm => ?_, heq⟩
      obtain rfl := Option.some.inj hm
      omega

/-- What is shown are the first packets asked for: as many as are enough, or all. -/
theorem sniff_ok [Floats] {contents : Bytes} {packets : List Packet}
    (h : sniff contents want count = .ok packets) :
    (∃ n, limit count = some n ∧ n ≤ (matching want (readPcap contents).items).length ∧
      packets = (matching want (readPcap contents).items).take n) ∨
    ((∀ n, limit count = some n → (matching want (readPcap contents).items).length < n) ∧
      packets = matching want (readPcap contents).items) := by
  rcases sniff_cases contents want count with ⟨n, hn, hle, hsniff⟩ | ⟨hfew, hsniff⟩
  · rw [hsniff] at h
    exact .inl ⟨n, hn, hle, (Except.ok.inj h).symm⟩
  · rw [hsniff] at h
    exact .inr ⟨hfew, outcome_ok h⟩

/-- Nothing is shown where the reader raises before there are enough. -/
theorem sniff_error [Floats] {contents : Bytes} {e : Raised} (h : sniff contents want count = .error e) :
    (readPcap contents).error = some e ∧
      ∀ n, limit count = some n → (matching want (readPcap contents).items).length < n := by
  rcases sniff_cases contents want count with ⟨n, -, -, hsniff⟩ | ⟨hfew, hsniff⟩
  · rw [hsniff] at h
    cases h
  · rw [hsniff] at h
    exact ⟨outcome_error h, hfew⟩

end Pyscan.Cli
