import Pyscan.Domain.Packet
import Pyscan.Lib.Rounding

/-!
# The packet table

Both views of decoded packets, the printed table and the live one, have the same
columns: the packets are numbered from one, and each is timed from the first.
-/

namespace Pyscan

open Py

namespace Py

/-- `f"{x:.3f}"`. -/
def fixed3 (x : ℚ) : String :=
  let n := (Rounding.roundHalfEven (|x| * 1000)).toNat
  (if x < 0 then "-" else "") ++ toString (n / 1000) ++ "." ++
    String.ofList ((decimal (n % 1000)).leftpad 3 '0')

example : fixed3 (5 / 4) = "1.250" := by decide +kernel

end Py

namespace PacketTable

def protoStyle : List (String × String) :=
  [("TCP", "green"), ("UDP", "cyan"), ("ICMP", "yellow"), ("ARP", "magenta"), ("IPv6", "blue")]

def addr (ip : Option String) (port : Option Nat) : String :=
  match ip, port with
  | none, _ => "-"
  | some ip, some port => ip ++ ":" ++ toString port
  | some ip, none => ip

/-- A row of the table; the protocol is shown in a style of its own. -/
structure Row where
  number : String
  time : String
  source : String
  destination : String
  style : String
  protocol : String
  length : String
  info : String
  deriving DecidableEq

def row (number : Nat) (t0 : ℚ) (p : Packet) : Row where
  number := toString number
  time := fixed3 (p.ts - t0)
  source := addr p.src p.sport
  destination := addr p.dst p.dport
  style := (protoStyle.lookup p.protocol).getD "white"
  protocol := p.protocol
  length := toString p.length
  info := p.info

/-- The rows of `enumerate(packets, 1)`. -/
def rows : List Packet → List Row
  | [] => []
  | p :: packets => (p :: packets).mapIdx fun i q => row (i + 1) p.ts q

/-- What the sink prints: a message, or the table and the number of packets. -/
inductive Printed where
  | noPackets
  | table (rows : List Row) (packets : Nat)
  deriving DecidableEq

def emit (packets : List Packet) : Printed :=
  if packets = [] then .noPackets else .table (rows packets) packets.length

/-- The time of the first packet shown, or of the next one where none is. -/
def startTime (packets : List Packet) (p : Packet) : ℚ := (packets.head?.map Packet.ts).getD p.ts

/-- One more packet is one more row; the others stay. -/
theorem rows_concat (packets : List Packet) (p : Packet) :
    rows (packets ++ [p]) = rows packets ++ [row (packets.length + 1) (startTime packets p) p] := by
  cases packets with
  | nil => rfl
  | cons q packets =>
    show (q :: packets ++ [p]).mapIdx _ = _
    rw [List.mapIdx_concat]
    rfl

end PacketTable

end Pyscan
