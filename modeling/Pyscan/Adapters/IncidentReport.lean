import Pyscan.Adapters.CaptureClock
import Pyscan.Domain.AlertText
import Pyscan.Domain.PortSpec

/-!
# The incident report

`buildReport` writes a detector's findings and a timeline of events as Markdown.
Where no text it quotes has a line break, the report has **its own lines and no
others** (`split_buildReport`): what is quoted can neither add a line nor hide
one.
-/

namespace Pyscan

def OtDetect.Severity.value : OtDetect.Severity → String
  | .critical => "CRITICAL"
  | .high => "HIGH"
  | .medium => "MEDIUM"
  | .info => "INFO"

namespace IncidentReport

open Py OtDetect

/-- (UTC time, kind, detail). -/
abbrev TimelineEntry := String × String × String

/-- A `datetime`, to the second. -/
structure Datetime where
  year : Nat
  month : Nat
  day : Nat
  hour : Nat
  minute : Nat
  second : Nat

/-- `strftime("%Y%m%d")`. -/
def Datetime.number (t : Datetime) : String := toString t.year ++ decPad t.month ++ decPad t.day

/-- `strftime("%Y-%m-%d %H:%M:%S")`. -/
def Datetime.text (t : Datetime) : String :=
  toString t.year ++ "-" ++ decPad t.month ++ "-" ++ decPad t.day ++ " " ++
    decPad t.hour ++ ":" ++ decPad t.minute ++ ":" ++ decPad t.second

/-- `sep.join(sorted(names))`. -/
def joinSorted (sep : String) (names : Finset String) : String := sep.intercalate names.sort

/-- `", ".join(sorted(names)) or default`. -/
def joinedOr (names : Finset String) (default : String) : String :=
  let text := joinSorted ", " names
  if text = "" then default else text

/-- `", ".join(sorted(names)) or "-"`. -/
def listed (names : Finset String) : String := joinedOr names "-"

/-- The report up to its timeline. -/
def headLines (d : Detector) (now : Datetime) : List String := [
  "# INC-" ++ now.number ++ "-01 - OT incident",
  "",
  "Generated: " ++ now.text ++ " UTC",
  "Traffic reviewed: " ++ toString d.packets ++ " OT packets, " ++ toString d.alerts ++
    " alerts raised.",
  "",
  "## 1. Executive summary",
  "",
  "_[fill in: what happened, over what window, current status]_",
  "",
  "## 2. Indicators of compromise",
  "",
  "- Hostile source(s): `" ++ listed d.hostileSources ++ "`",
  "- Operations observed: `" ++ listed d.observedOperations ++ "`",
  "- OT ports in scope: 502 (Modbus) / 2404 (IEC-104) / 102 (S7comm)",
  "",
  "## 3. Timeline (UTC)",
  ""]

def timelineLine (entry : TimelineEntry) : String :=
  "- **" ++ entry.1 ++ "** - " ++ entry.2.1 ++ " - " ++ entry.2.2

def timelineLines (timeline : List TimelineEntry) : List String :=
  if timeline ≠ [] then timeline.map timelineLine else ["_(no events recorded)_"]

/-- The report behind its timeline. -/
def tailLines : List String := [
  "",
  "## 4. ATT&CK for ICS mapping",
  "",
  "Discovery (T0846 / T0888) -> Collection -> Impair Process Control " ++
    "(T0855 Unauthorized Command Message) -> Impact.",
  "",
  "## 5. Containment and recommendations",
  "",
  "- Source isolated by ACL at the IDMZ - the source, not the PLC.",
  "- Setpoint and breaker restoration coordinated with operations.",
  "- Allow-list of sources permitted to reach the PLC; IDS rule on any write " ++
    "from a source other than the HMI.",
  "",
  "---",
  "",
  "Availability > Integrity > Confidentiality. Detect, map, document, " ++
    "isolate the source, report."]

def buildReport (d : Detector) (timeline : List TimelineEntry) (now : Datetime) : String :=
  "\n".intercalate (headLines d now ++ timelineLines timeline ++ tailLines) ++ "\n"

/-! ## Texts on one line -/

/-- The text has no line break. -/
def OneLine (s : String) : Prop := '\n' ∉ s.toList

instance : DecidablePred OneLine := fun s => by unfold OneLine; infer_instance

section OneLine

variable {s t : String}

theorem OneLine.append (hs : OneLine s) (ht : OneLine t) : OneLine (s ++ t) := by
  intro h
  rw [String.toList_append] at h
  exact (List.mem_append.mp h).elim hs ht

theorem oneLine_of_plain (h : Plain s) : OneLine s := h.not_mem (by decide)

theorem plain_decPad (n : Nat) : Plain (decPad n) := by
  unfold decPad
  split
  · exact Plain.append (by decide) (plain_toString n)
  · exact plain_toString n

theorem plain_listed {names : Finset String} (h : ∀ s ∈ names, Plain s) : Plain (listed names) := by
  unfold listed joinedOr joinSorted
  dsimp only
  split
  · decide
  · refine plain_of_forall fun c hc => ?_
    rw [String.toList_intercalate] at hc
    rcases mem_intercalate hc with hc | ⟨part, hpart, hc⟩
    · exact List.all_eq_true.mp (show (", ".toList.all isPlain) = true by decide) c hc
    · obtain ⟨s, hs, rfl⟩ := List.mem_map.mp hpart
      exact List.all_eq_true.mp (h s ((Finset.mem_sort _).mp hs)) c hc

end OneLine

/-! ## The lines of a report -/

/-- What the timeline quotes is on one line. -/
def TimelineEntry.OneLine (entry : TimelineEntry) : Prop :=
  IncidentReport.OneLine entry.1 ∧ IncidentReport.OneLine entry.2.1 ∧ IncidentReport.OneLine entry.2.2

variable {d : Detector} {timeline : List TimelineEntry} {now : Datetime}

theorem oneLine_number (now : Datetime) : OneLine now.number :=
  oneLine_of_plain (((plain_toString _).append (plain_decPad _)).append (plain_decPad _))

theorem oneLine_text (now : Datetime) : OneLine now.text := by
  have hdate : Plain (toString now.year ++ "-" ++ decPad now.month ++ "-" ++ decPad now.day) :=
    ((((plain_toString _).append (by decide)).append (plain_decPad _)).append (by decide)).append
      (plain_decPad _)
  have hhour : Plain (toString now.year ++ "-" ++ decPad now.month ++ "-" ++ decPad now.day ++ " " ++
      decPad now.hour) := (hdate.append (by decide)).append (plain_decPad _)
  exact oneLine_of_plain ((((hhour.append (by decide)).append (plain_decPad _)).append
    (by decide)).append (plain_decPad _))

theorem oneLine_headLines (hd : d.Plain) (now : Datetime) : ∀ line ∈ headLines d now, OneLine line := by
  have hsources : OneLine (listed d.hostileSources) := oneLine_of_plain (plain_listed hd.sources)
  have hoperations : OneLine (listed d.observedOperations) :=
    oneLine_of_plain (plain_listed hd.operations)
  have hpackets : OneLine (toString d.packets) := oneLine_of_plain (plain_toString _)
  have halerts : OneLine (toString d.alerts) := oneLine_of_plain (plain_toString _)
  have hquoted : ∀ {before s after : String}, OneLine before → OneLine s → OneLine after →
      OneLine (before ++ s ++ after) := fun hb hs ha => (hb.append hs).append ha
  simp only [headLines, List.forall_mem_cons]
  refine ⟨hquoted (by decide) (oneLine_number now) (by decide), by decide,
    hquoted (by decide) (oneLine_text now) (by decide),
    hquoted (hquoted (by decide) hpackets (by decide)) halerts (by decide), by decide, by decide,
    by decide, by decide, by decide, by decide, by decide,
    hquoted (by decide) hsources (by decide), hquoted (by decide) hoperations (by decide),
    by decide, by decide, by decide, by decide, fun _ => nofun⟩

theorem oneLine_timelineLines (h : ∀ entry ∈ timeline, entry.OneLine) :
    ∀ line ∈ timelineLines timeline, OneLine line := by
  unfold timelineLines
  split
  · intro line hline
    obtain ⟨⟨clock, kind, detail⟩, hentry, rfl⟩ := List.mem_map.mp hline
    obtain ⟨hclock, hkind, hdetail⟩ := h _ hentry
    refine OneLine.append (OneLine.append (OneLine.append (OneLine.append (OneLine.append ?_ hclock)
      ?_) hkind) ?_) hdetail <;> decide
  · decide

theorem mem_timelineLines {entry : TimelineEntry} (h : entry ∈ timeline) :
    timelineLine entry ∈ timelineLines timeline := by
  rw [timelineLines, if_pos (List.ne_nil_of_mem h)]
  exact List.mem_map_of_mem h

/-- **A report has its own lines and no others.** -/
theorem split_buildReport (hd : d.Plain) (h : ∀ entry ∈ timeline, entry.OneLine) :
    split (buildReport d timeline now) '\n' =
      headLines d now ++ timelineLines timeline ++ tailLines ++ [""] := by
  have htail : ∀ line ∈ tailLines, OneLine line := by decide +kernel
  have hlines : ∀ line ∈ headLines d now ++ timelineLines timeline ++ tailLines ++ [""],
      OneLine line := by
    intro line hline
    simp only [List.mem_append, List.mem_singleton] at hline
    rcases hline with ((hline | hline) | hline) | rfl
    · exact oneLine_headLines hd now line hline
    · exact oneLine_timelineLines h line hline
    · exact htail line hline
    · decide
  have hne : headLines d now ++ timelineLines timeline ++ tailLines ≠ [] := by simp [tailLines]
  have hend : buildReport d timeline now =
      "\n".intercalate (headLines d now ++ timelineLines timeline ++ tailLines ++ [""]) := by
    rw [String.intercalate_append_of_ne_nil hne (List.cons_ne_nil _ _), String.intercalate_singleton,
      String.append_empty]
    rfl
  have hparts : ∀ part ∈ (headLines d now ++ timelineLines timeline ++ tailLines ++ [""]).map
      String.toList, '\n' ∉ part := by
    intro part hpart
    obtain ⟨line, hline, rfl⟩ := List.mem_map.mp hpart
    exact hlines line hline
  rw [hend, split, String.toList_intercalate]
  show (List.splitOn '\n' (['\n'].intercalate _)).map String.ofList = _
  rw [List.splitOn_intercalate _ hparts (by simp), List.map_map]
  exact List.map_id'' (fun line => String.ofList_toList) _

end IncidentReport

end Pyscan
