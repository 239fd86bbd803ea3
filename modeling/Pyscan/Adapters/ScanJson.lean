import Pyscan.Adapters.CsvSink
import Pyscan.Adapters.NetworkJson

/-!
# The JSON of a scan

`emit` writes a report as JSON, a port as an object. The JSON and the CSV file of
a report hold **the same table** (`outputs_agree`): what one has as `null` is
empty in the other, and every other cell is the same text.
-/

namespace Pyscan.ScanJson

open Json NetworkJson

section Emit

-- how `started_at` and the numbers `round(x, 4)` and `round(x, 2)` are written
variable (isoformat : ℚ → String) (rounded4 rounded : ℚ → Word)

def portValue (p : PortResult) : Value := .obj [
  field "port" (.word (.nat p.port)),
  field "state" (.str p.state.value.toList),
  field "service" (orNull p.service),
  field "product" (orNull p.product),
  field "version" (orNull p.version),
  field "latency_ms" (.word ((p.latencyMs.map rounded).getD .null)),
  field "banner" (orNull p.banner)]

def payload (report : ScanReport) : Value := .obj [
  field "host" (.str report.host.host.toList),
  field "ip" (orNull report.host.ip),
  field "scan_type" (.str report.scanType.toList),
  field "started_at" (.str (isoformat report.startedAt).toList),
  field "duration_s" (.word (rounded4 report.durationS)),
  field "ports" (.arr (report.host.ports.map (portValue rounded)))]

/-- What `emit` writes to its file. -/
def emit (report : ScanReport) : String :=
  String.ofList (write (payload isoformat rounded4 rounded report) ++ ['\n'])

theorem read_emit (report : ScanReport) :
    Json.read (emit isoformat rounded4 rounded report).toList =
      some (payload isoformat rounded4 rounded report) := by
  rw [emit, String.toList_ofList]
  exact read_write _ (List.forall_mem_singleton.mpr (by decide))

/-! ## The table -/

/-- A value in a cell. -/
def cellText : Value → Option String
  | .str s => some (String.ofList s)
  | .word w => some (if w = .null then "" else String.ofList w.chars)
  | .arr _ | .obj _ => none

def rowOf (v : Value) : Option (List String) :=
  CsvSink.fieldNames.mapM fun name => (v.get name.toList).bind cellText

/-- The ports in a file, with the columns of the CSV sink. -/
def table (file : String) : Option (List (List String)) := do
  let v ← Json.read file.toList
  let ports ← (v.get "ports".toList).bind Value.items
  ports.mapM rowOf

theorem cellText_str (s : String) : cellText (.str s.toList) = some s :=
  congrArg some String.ofList_toList

theorem cellText_orNull (s : Option String) : cellText (orNull s) = some (s.getD "") := by
  cases s with
  | none => rfl
  | some s => exact cellText_str s

theorem cellText_word {w : Word} (h : w ≠ .null) : cellText (.word w) = some (String.ofList w.chars) :=
  congrArg some (if_neg h)

theorem nat_ne_null (n : ℕ) : Word.nat n ≠ .null := by
  intro h
  have hnone : Word.null.toNat = none := rfl
  rw [← h, Word.toNat_nat] at hnone
  cases hnone

variable {rounded}

theorem rowOf_portValue (h : ∀ x, rounded x ≠ .null) (p : PortResult) :
    rowOf (portValue rounded p) = some (CsvSink.row (fun x => String.ofList (rounded x).chars) p) := by
  have hport : cellText (.word (.nat p.port)) = some (toString p.port) := by
    rw [cellText_word (nat_ne_null _), Word.chars_nat]
    exact congrArg some Nat.repr_eq_ofList_toDigits.symm
  have hlatency : cellText (.word ((p.latencyMs.map rounded).getD .null)) =
      some ((p.latencyMs.map fun x => String.ofList (rounded x).chars).getD "") := by
    cases p.latencyMs with
    | none => rfl
    | some x => exact cellText_word (h x)
  have hcells : rowOf (portValue rounded p) = (do
      let port ← cellText (.word (.nat p.port))
      let state ← cellText (.str p.state.value.toList)
      let service ← cellText (orNull p.service)
      let product ← cellText (orNull p.product)
      let version ← cellText (orNull p.version)
      let latency ← cellText (.word ((p.latencyMs.map rounded).getD .null))
      let banner ← cellText (orNull p.banner)
      some [port, state, service, product, version, latency, banner]) := rfl
  rw [hcells, hport, hlatency, cellText_str, cellText_orNull, cellText_orNull, cellText_orNull,
    cellText_orNull]
  rfl

/-- **The CSV and the JSON file of a report hold the same table.** -/
theorem outputs_agree (isoformat : ℚ → String) (rounded4 : ℚ → Word) (h : ∀ x, rounded x ≠ .null)
    (report : ScanReport) : ∃ rows,
      CsvSink.read (CsvSink.emit (fun x => String.ofList (rounded x).chars) report) =
        some (CsvSink.fieldNames :: rows) ∧
      table (emit isoformat rounded4 rounded report) = some rows := by
  refine ⟨_, CsvSink.read_emit _ report, ?_⟩
  have hports : (payload isoformat rounded4 rounded report).get "ports".toList =
      some (.arr (report.host.ports.map (portValue rounded))) := rfl
  rw [table, read_emit]
  simp only [Option.bind_eq_bind, Option.bind_some, hports, Value.items]
  exact mapM_map (rowOf_portValue h) report.host.ports

/-- A banner with a quote, a comma and a line break. -/
theorem outputs_agree_banner :
    CsvSink.read (CsvSink.emit (fun _ => "1") ⟨⟨"plc", [22], .tcp⟩,
        ⟨"plc", none, [{ port := 22, state := .opened, latencyMs := some 1, banner := some "a,\"b\"\n" }]⟩,
        "tcp-connect", 0, 0⟩) =
      some [CsvSink.fieldNames, ["22", "open", "", "", "", "1", "a,\"b\"\n"]] ∧
    table (emit (fun _ => "") (fun _ => .nat 1) (fun _ => .nat 1) ⟨⟨"plc", [22], .tcp⟩,
        ⟨"plc", none, [{ port := 22, state := .opened, latencyMs := some 1, banner := some "a,\"b\"\n" }]⟩,
        "tcp-connect", 0, 0⟩) =
      some [["22", "open", "", "", "", "1", "a,\"b\"\n"]] := by
  obtain ⟨rows, hcsv, hjson⟩ := outputs_agree (fun _ => "") (fun _ => .nat 1)
    (fun _ => nat_ne_null 1) ⟨⟨"plc", [22], .tcp⟩,
      ⟨"plc", none, [{ port := 22, state := .opened, latencyMs := some 1, banner := some "a,\"b\"\n" }]⟩,
      "tcp-connect", 0, 0⟩
  have hone : String.ofList (Word.nat 1).chars = "1" := by decide
  rw [hone] at hcsv
  have hrows := (CsvSink.read_emit (fun _ => "1") _).symm.trans hcsv
  obtain rfl := (List.cons.inj (Option.some.inj hrows)).2.symm
  exact ⟨hcsv, hjson⟩

end Emit

end Pyscan.ScanJson
