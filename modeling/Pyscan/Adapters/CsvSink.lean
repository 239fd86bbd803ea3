import Pyscan.Domain.Models
import Pyscan.Lib.Csv

/-!
# The CSV sink

`emit` writes a report as a header and a row for each port, in the dialect of
`csv.DictWriter`. Whatever the fields hold, quotes, commas or line breaks, **the
rows and nothing else are read back** (`read_emit`).
-/

namespace Pyscan

def PortState.value : PortState → String
  | .opened => "open"
  | .closed => "closed"
  | .filtered => "filtered"
  | .openFiltered => "open|filtered"
  | .unknown => "unknown"

theorem PortState.value_injective : Function.Injective PortState.value := by
  intro a b h
  cases a <;> cases b <;> first | rfl | exact absurd h (by decide)

namespace CsvSink

/-- The dialect `excel`. -/
def excel : Csv.Dialect Char := ⟨',', Char.ofNat 0x22, '\r', '\n', by decide⟩

/-- `_FIELDS`. -/
def fieldNames : List String :=
  ["port", "state", "service", "product", "version", "latency_ms", "banner"]

section Emit

-- how the number `round(x, 2)` is written
variable (rounded : ℚ → String)

def row (p : PortResult) : List String := [
  toString p.port,
  p.state.value,
  p.service.getD "",
  p.product.getD "",
  p.version.getD "",
  (p.latencyMs.map rounded).getD "",
  p.banner.getD ""]

def write (rows : List (List String)) : String :=
  String.ofList (excel.write (rows.map fun row => row.map String.toList))

/-- What `emit` writes to its file. -/
def emit (report : ScanReport) : String := write (fieldNames :: report.host.ports.map (row rounded))

/-- `csv.reader` on the text of a file. -/
def read (file : String) : Option (List (List String)) :=
  (Csv.read excel file.toList).map fun rows => rows.map fun row => row.map String.ofList

/-- A column of a row, as `csv.DictReader` has it. -/
def cell (name : String) (row : List String) : Option String := (fieldNames.zip row).lookup name

theorem cell_port (p : PortResult) : cell "port" (row rounded p) = some (toString p.port) := by
  rfl

theorem cell_state (p : PortResult) (state : PortState) :
    cell "state" (row rounded p) = some state.value ↔ p.state = state :=
  Option.some_inj.trans PortState.value_injective.eq_iff

theorem cell_banner (p : PortResult) : cell "banner" (row rounded p) = some (p.banner.getD "") := by
  rfl

theorem read_write (rows : List (List String)) : read (write rows) = some rows := by
  have hrow (row : List String) : (row.map String.toList).map String.ofList = row := by
    rw [List.map_map]
    exact List.map_id'' (fun _ => String.ofList_toList) row
  rw [read, write, String.toList_ofList, Csv.read_write, Option.map_some, List.map_map]
  exact congrArg some (List.map_id'' hrow rows)

theorem read_emit (report : ScanReport) :
    read (emit rounded report) = some (fieldNames :: report.host.ports.map (row rounded)) :=
  read_write _

/-- A banner with a quote, a comma and a line break. -/
example : write [["22", "a,\"b\"\n"], [""]] = "22,\"a,\"\"b\"\"\n\"\r\n\"\"\r\n" := by decide +kernel

end Emit

end CsvSink

end Pyscan
