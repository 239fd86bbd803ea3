import Mathlib

/-!
# Scan targets and results
-/

namespace Pyscan

inductive Protocol where
  | tcp
  | udp
  deriving DecidableEq, Repr

inductive PortState where
  | opened
  | closed
  | filtered
  | openFiltered
  | unknown
  deriving DecidableEq, Repr

structure PortResult where
  port : Nat
  state : PortState
  service : Option String := none
  product : Option String := none
  version : Option String := none
  latencyMs : Option ℚ := none
  banner : Option String := none
  deriving DecidableEq

structure ScanTarget where
  host : String
  ports : List Nat
  protocol : Protocol := .tcp
  deriving DecidableEq

structure HostResult where
  host : String
  ip : Option String
  ports : List PortResult := []
  deriving DecidableEq

structure ScanReport where
  target : ScanTarget
  host : HostResult
  scanType : String
  /-- wall-clock seconds -/
  startedAt : ℚ
  durationS : ℚ
  deriving DecidableEq

/-- What `fingerprint.identify` makes of a banner. -/
structure ServiceInfo where
  service : Option String := none
  product : Option String := none
  version : Option String := none
  deriving DecidableEq

end Pyscan
