import Pyscan.Application.SweepOutcome
import Pyscan.Lib.Json

/-!
# The JSON inventory

`emit` writes what a sweep found: the hosts that are up, each with its open
ports. What is written is the value `payload` and no other (`read_emit`), and
the inventory in it can be read off (`inventory_emit`).
-/

namespace Pyscan

def HostResult.openPorts (h : HostResult) : List PortResult :=
  h.ports.filter fun p => decide (p.state = .opened)

namespace NetworkJson

open Json

def field (name : String) (v : Value) : List Char × Value := (name.toList, v)

/-- A text, or `null`. -/
def orNull (s : Option String) : Value := (s.map fun s => Value.str s.toList).getD (.word .null)

def portValue (p : PortResult) : Value := .obj [
  field "port" (.word (.nat p.port)),
  field "service" (orNull p.service),
  field "product" (orNull p.product),
  field "version" (orNull p.version),
  field "banner" (orNull p.banner)]

def hostValue (hr : ScanReport) : Value := .obj [
  field "host" (.str hr.host.host.toList),
  field "ip" (orNull hr.host.ip),
  field "open_ports" (.arr (hr.host.openPorts.map portValue))]

section Emit

-- how the number `round(x, 4)` is written
variable (rounded : ℚ → Word)

def payload (report : NetworkReport) : Value := .obj [
  field "network" (.str report.network.toList),
  field "total_candidates" (.word (.nat report.totalCandidates)),
  field "up_count" (.word (.nat report.upCount)),
  field "duration_s" (.word (rounded report.durationS)),
  field "hosts" (.arr (report.hosts.map hostValue))]

/-- What `emit` writes to its file. -/
def emit (report : NetworkReport) : String := String.ofList (write (payload rounded report) ++ ['\n'])

theorem read_emit (report : NetworkReport) :
    Json.read (emit rounded report).toList = some (payload rounded report) := by
  rw [emit, String.toList_ofList]
  exact read_write _ (List.forall_mem_singleton.mpr (by decide))

/-! ## The inventory -/

def portOf (v : Value) : Option Nat := ((v.get "port".toList).bind Value.asWord).bind Word.toNat

def hostOf (v : Value) : Option (String × List Nat) := do
  let name ← (v.get "host".toList).bind Value.asStr
  let ports ← (v.get "open_ports".toList).bind Value.items
  let ports ← ports.mapM portOf
  some (String.ofList name, ports)

/-- The hosts in a file, each with its open ports. -/
def inventory (file : String) : Option (List (String × List Nat)) := do
  let v ← Json.read file.toList
  let hosts ← (v.get "hosts".toList).bind Value.items
  hosts.mapM hostOf

theorem mapM_map {α β γ : Type*} {f : β → Option γ} {g : α → β} {h : α → γ}
    (hf : ∀ x, f (g x) = some (h x)) (xs : List α) : (xs.map g).mapM f = some (xs.map h) := by
  induction xs with
  | nil => rfl
  | cons x xs ih =>
    rw [List.map_cons, List.mapM_cons, hf, ih]
    rfl

theorem portOf_portValue (p : PortResult) : portOf (portValue p) = some p.port :=
  Word.toNat_nat p.port

theorem hostOf_hostValue (hr : ScanReport) :
    hostOf (hostValue hr) = some (hr.host.host, hr.host.openPorts.map PortResult.port) := by
  have hname : (hostValue hr).get "host".toList = some (.str hr.host.host.toList) := rfl
  have hports : (hostValue hr).get "open_ports".toList =
      some (.arr (hr.host.openPorts.map portValue)) := rfl
  rw [hostOf, hname, hports]
  simp only [Option.bind_some, Option.bind_eq_bind, Value.asStr, Value.items,
    mapM_map portOf_portValue, String.ofList_toList]

theorem inventory_emit (report : NetworkReport) : inventory (emit rounded report) =
    some (report.hosts.map fun hr => (hr.host.host, hr.host.openPorts.map PortResult.port)) := by
  have hhosts : (payload rounded report).get "hosts".toList =
      some (.arr (report.hosts.map hostValue)) := rfl
  rw [inventory, read_emit]
  simp only [Option.bind_eq_bind, Option.bind_some, hhosts, Value.items]
  exact mapM_map hostOf_hostValue report.hosts

end Emit

end NetworkJson

end Pyscan
