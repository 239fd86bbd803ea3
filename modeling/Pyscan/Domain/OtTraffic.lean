import Pyscan.Py.Float
import Pyscan.Wire.Decode

/-!
# Synthetic OT traffic

The encoders of the practice capture: protocol payloads, and `encodeFrame`,
which wraps one in TCP, IPv4 and Ethernet with both checksums filled in. A
frame it builds is a frame of the wire grammar (`encodeFrame_ok`), so what
`decode` makes of it follows from the grammar's round trip.
-/

namespace Pyscan.OtTraffic

open Py Wire

/-- One application message on the wire, at a point in time. -/
structure Exchange where
  ts : ℚ
  src : String
  dst : String
  sport : Nat
  dport : Nat
  payload : Bytes
  flags : String := "PA"

def hmi : String := "10.10.30.10"
def plc : String := "10.10.30.21"
def rtu : String := "10.10.40.7"
def attacker : String := "10.10.30.142"

def etherTypeIpv4 : Nat := 0x0800
def protoTcp : UInt8 := 6

def flagBits : List (String × Nat) :=
  [("S", 0x02), ("SA", 0x12), ("A", 0x10), ("PA", 0x18), ("FA", 0x11)]

/-! ## Protocol payloads -/

def modbusPdu (unit : Nat) (pdu : Bytes) (tid : Nat) : Result Bytes := do
  let tid ← packH tid
  let length ← packH (pdu.length + 1)
  let unit ← packB unit
  .ok (tid ++ be16 0 ++ length ++ unit ++ pdu)

def iecUFrame (control : Nat) : Result Bytes := do
  let control ← byte control
  .ok (0x68 :: 0x04 :: control ++ [0x00, 0x00, 0x00])

def iecIFrame (typeId cause commonAddress ioa : Nat) (payload : Bytes) : Result Bytes := do
  let typeId ← packB typeId
  let cause ← packHle cause
  let commonAddress ← packHle commonAddress
  let ioa ← packIle ioa
  let asdu := typeId ++ [0x01] ++ cause ++ commonAddress ++ ioa.take 3 ++ payload
  let body := [0x00, 0x00, 0x00, 0x00] ++ asdu
  let length ← byte body.length
  .ok (0x68 :: length ++ body)

def modbusReadHolding (addr count : Nat) (unit : Nat := 1) : Result Bytes := do
  let addr ← packH addr
  let count ← packH count
  modbusPdu unit (0x03 :: addr ++ count) 0

def modbusReadDeviceId (unit : Nat := 1) : Result Bytes := modbusPdu unit [0x2B, 0x0E, 0x01, 0x00] 0

def modbusWriteRegister (addr value : Nat) (unit : Nat := 1) : Result Bytes := do
  let addr ← packH addr
  let value ← packH value
  modbusPdu unit (0x06 :: addr ++ value) 0

def modbusWriteCoil (addr : Nat) (closed : Bool) (unit : Nat := 1) : Result Bytes := do
  let addr ← packH addr
  let value ← packH (if closed then 0xFF00 else 0x0000)
  modbusPdu unit (0x05 :: addr ++ value) 0

/-- A complete Modbus/TCP request: what `modbusPdu` builds around a PDU of 1 to 253 bytes whose
function code has no exception flag. -/
structure Adu where
  unit : Nat
  tid : Nat
  code : UInt8
  data : Bytes
  request : code.toNat < 0x80
  short : data.length ≤ 252
  bytes : Bytes
  encoded : modbusPdu unit (code :: data) tid = .ok bytes

/-! ## The scenario -/

/-- A message without its time: source, destination, ports, payload, flags. -/
abbrev Message := String × String × Nat × Nat × Bytes × String

/-- Each message the given time after the one before it, on a clock of floats. -/
def onClock (start : ℚ) : List (ℚ × Message) → List Exchange
  | [] => []
  | (delta, src, dst, sport, dport, payload, flags) :: messages =>
    let now := @fadd binary64 start (binary64.float delta)
    ⟨now, src, dst, sport, dport, payload, flags⟩ :: onClock now messages

/-- What `build_scenario` puts on its clock. -/
def scenario : Result (List (ℚ × Message)) := do
  -- the baseline: the HMI polls the PLC
  let polls ← (List.range 6).mapM fun i => do
    let poll ← modbusReadHolding (i * 10) 125
    .ok [(0.9, hmi, plc, 50100 + i, 502, poll, "PA"), (0.2, plc, hmi, 502, 50100 + i, poll, "PA")]
  -- a new talker enumerates the device
  let deviceId ← modbusReadDeviceId
  let low ← modbusReadHolding 0 125
  let high ← modbusReadHolding 125 125
  -- a setpoint is moved, a feeder opened
  let setpoint ← modbusWriteRegister 9 250
  let feeder ← modbusWriteCoil 0 false
  -- the substation: interrogation, a single command, STOPDT
  let interrogation ← iecIFrame 100 6 1 0 [0x14]
  let command ← iecIFrame 45 6 1 1 [0x01]
  let stopdt ← iecUFrame 0x13
  .ok (polls.flatten ++ [
    (0.3, attacker, plc, 50412, 502, [], "S"),
    (0.9, attacker, plc, 50412, 502, deviceId, "PA"),
    (0.9, attacker, plc, 50412, 502, low, "PA"),
    (0.9, attacker, plc, 50412, 502, high, "PA"),
    (0.9, attacker, plc, 50412, 502, setpoint, "PA"),
    (0.9, attacker, plc, 50412, 502, feeder, "PA"),
    (0.2, plc, attacker, 502, 50412, feeder, "PA"),
    (0.9, attacker, rtu, 51020, 2404, interrogation, "PA"),
    (0.9, attacker, rtu, 51020, 2404, command, "PA"),
    (0.9, attacker, rtu, 51020, 2404, stopdt, "PA")])

def buildScenario (start : ℚ) : Result (List Exchange) := do
  .ok (onClock start (← scenario))

/-! ## Frame encoding -/

/-- `bytes(ns)`. -/
def bytesOf (ns : List Int) : Result Bytes :=
  ns.mapM fun n => if 0 ≤ n ∧ n < 256 then .ok (UInt8.ofNat n.toNat) else .error .valueError

def mac (address : String) : Result Bytes := do
  let parts ← (splitDots address).mapM int
  let octets := parts.map fun n => n % 256
  bytesOf (0x02 :: 0x00 :: octets.take 4)

def address (dotted : String) : Result Bytes := do
  let parts ← (splitDots dotted).mapM int
  bytesOf parts

/-- The `while` loop of `_checksum`: fold the carries back in. -/
def foldCarries (total : Nat) : Nat :=
  if total >>> 16 = 0 then total else foldCarries ((total &&& 0xFFFF) + (total >>> 16))
termination_by total
decreasing_by
  rename_i h
  rw [Nat.and_two_pow_sub_one_eq_mod _ 16]
  rw [Nat.shiftRight_eq_div_pow] at h ⊢
  omega

def checksum (data : Bytes) : Result Nat := do
  let data := if data.length % 2 ≠ 0 then data ++ [0x00] else data
  let total := (← unpackWords (data.length / 2) data).sum
  -- the complement of a number below `2 ^ 16`, in 16 bits
  .ok (0xFFFF - foldCarries total)

def pseudoHeader (src dst : String) (length : Nat) : Result Bytes := do
  let src ← address src
  let dst ← address dst
  let length ← packH length
  .ok (src ++ dst ++ [0, protoTcp] ++ length)

/-- A `4s` field of `struct.pack`: cut or padded to four bytes. -/
def field4s (b : Bytes) : Bytes := (b ++ [0, 0, 0, 0]).take 4

def tcp (exchange : Exchange) : Result Bytes := do
  let flags := (flagBits.lookup exchange.flags).getD 0x18
  let sport ← packH exchange.sport
  let dport ← packH exchange.dport
  let header := sport ++ dport ++ be32 1000 ++ be32 2000 ++ [0x50, UInt8.ofNat flags] ++
    be16 8192 ++ be16 0 ++ be16 0
  let segment := header ++ exchange.payload
  let pseudo ← pseudoHeader exchange.src exchange.dst segment.length
  let sum ← packH (← checksum (pseudo ++ segment))
  .ok (segment.take 16 ++ sum ++ segment.drop 18)

def ipv4 (src dst : String) (payload : Bytes) : Result Bytes := do
  let src ← address src
  let dst ← address dst
  let total ← packH (20 + payload.length)
  let header := [0x45, 0] ++ total ++ be16 0 ++ be16 0x4000 ++ [64, protoTcp] ++ be16 0 ++
    field4s src ++ field4s dst
  let sum ← packH (← checksum header)
  .ok (header.take 10 ++ sum ++ header.drop 12)

def encodeFrame (exchange : Exchange) : Result Bytes := do
  let tcp ← tcp exchange
  let ip ← ipv4 exchange.src exchange.dst tcp
  let macDst ← mac exchange.dst
  let macSrc ← mac exchange.src
  .ok (macDst ++ macSrc ++ be16 etherTypeIpv4 ++ ip ++ tcp)

/-! ## Encoding succeeds -/

theorem mapM_int_dotted (a b c d : UInt8) :
    (splitDots (dotted a b c d)).mapM int =
      .ok [(a.toNat : Int), (b.toNat : Int), (c.toNat : Int), (d.toNat : Int)] := by
  rw [splitDots_dotted]
  simp [List.mapM_cons, int_decimal]

theorem bytesOf_cons (b : UInt8) (ns : List Int) :
    bytesOf ((b.toNat : Int) :: ns) = (b :: ·) <$> bytesOf ns := by
  have h := b.toNat_lt
  have hb : (0 : Int) ≤ b.toNat ∧ (b.toNat : Int) < 256 := by omega
  rw [bytesOf, List.mapM_cons, if_pos hb, Int.toNat_natCast, UInt8.ofNat_toNat, ok_bind]
  rfl

theorem address_dotted (a b c d : UInt8) : address (dotted a b c d) = .ok [a, b, c, d] := by
  rw [address, mapM_int_dotted, ok_bind]
  simp only [bytesOf_cons]
  rfl

theorem mac_dotted (a b c d : UInt8) : mac (dotted a b c d) = .ok [0x02, 0x00, a, b, c, d] := by
  have hmod : ∀ x : UInt8, (x.toNat : Int) % 256 = x.toNat := fun x => by
    have := x.toNat_lt
    omega
  rw [mac, mapM_int_dotted, ok_bind]
  simp only [List.map_cons, List.map_nil, hmod, List.take_succ_cons, List.take_zero]
  rw [show (0x02 : Int) = ((2 : UInt8).toNat : Int) from rfl,
    show (0x00 : Int) = ((0 : UInt8).toNat : Int) from rfl]
  simp only [bytesOf_cons]
  rfl

theorem checksum_yields (data : Bytes) : Yields (checksum data) (· < 65536) := by
  unfold checksum
  refine Yields.bind (P := fun _ => True) ?_ fun ws _ => yields_ok (by omega)
  unfold unpackWords
  rw [if_pos]
  · exact yields_ok trivial
  · split
    · rw [List.length_append, List.length_singleton]
      omega
    · omega

/-- The control bits the exchange's flag string stands for. -/
def Exchange.control (x : Exchange) : Control :=
  .ofByte (UInt8.ofNat ((flagBits.lookup x.flags).getD 0x18))

section Encode

variable {a b c d a' b' c' d' : UInt8}

theorem pseudoHeader_yields {length : Nat} (h : length < 65536) :
    Yields (pseudoHeader (dotted a b c d) (dotted a' b' c' d') length) fun _ => True := by
  unfold pseudoHeader
  rw [address_dotted, ok_bind, address_dotted, ok_bind, packH_ok h]
  exact yields_ok trivial

/-- The header the encoder puts in front of a payload, given its checksum field. -/
def tcpHeader (x : Exchange) (sport dport : UInt16) (sum : Block 2) : Tcp where
  sport := sport
  dport := dport
  seqAck := ⟨be32 1000 ++ be32 2000, rfl⟩
  words := 0
  options := ⟨[], rfl⟩
  reserved := 0
  control := x.control
  windowChecksumUrgent := ⟨be16 8192 ++ sum.1 ++ be16 0, by
    rw [List.length_append, List.length_append, sum.2]
    rfl⟩

theorem tcp_yields {x : Exchange} (hs : x.src = dotted a b c d) (hd : x.dst = dotted a' b' c' d')
    {sport dport : UInt16} (hsp : x.sport = sport.toNat) (hdp : x.dport = dport.toNat)
    (hlen : x.payload.length ≤ 65495) :
    Yields (tcp x) fun segment => ∃ sum, segment = (tcpHeader x sport dport sum).bytes x.payload := by
  have hflag : UInt8.ofNat ((flagBits.lookup x.flags).getD 0x18) = x.control.byte :=
    (Control.byte_ofByte _).symm
  unfold tcp
  rw [hsp, hdp, packH_ok sport.toNat_lt, ok_bind, packH_ok dport.toNat_lt, ok_bind, hs, hd]
  refine (pseudoHeader_yields ?_).bind fun pseudo _ => ?_
  · simp only [List.length_append, length_be16, be32, List.length_cons, List.length_nil]
    omega
  · refine (checksum_yields _).bind fun n hn => ?_
    rw [packH_ok hn, ok_bind, hflag]
    exact yields_ok ⟨⟨be16 n, rfl⟩, rfl⟩

/-- The IPv4 header in front of a segment, given its checksum. -/
def ipv4Header (a b c d a' b' c' d' : UInt8) (sum : UInt8 × UInt8) : V4 where
  words := 0
  options := ⟨[], rfl⟩
  tos := 0
  ident := (0, 0)
  fragment := 0x40
  unfragmented := rfl
  ttl := 64
  checksum := sum
  src := ⟨[a, b, c, d], rfl⟩
  dst := ⟨[a', b', c', d'], rfl⟩

theorem ipv4_yields {segment : Bytes} (hlen : 20 + segment.length < 65536) :
    Yields (ipv4 (dotted a b c d) (dotted a' b' c' d') segment) fun header =>
      ∃ sum, header ++ segment = (ipv4Header a b c d a' b' c' d' sum).bytes 6 segment := by
  unfold ipv4
  rw [address_dotted, ok_bind, address_dotted, ok_bind, packH_ok hlen, ok_bind]
  refine (checksum_yields _).bind fun n hn => ?_
  rw [packH_ok hn, ok_bind]
  exact yields_ok ⟨(UInt8.ofNat (n / 256), UInt8.ofNat (n % 256)), rfl⟩

/-- **A frame of the encoder is a frame of the wire grammar**: Ethernet, IPv4 without options, TCP
without options, the exchange's payload and no padding. -/
theorem encodeFrame_yields {x : Exchange} (hs : x.src = dotted a b c d)
    (hd : x.dst = dotted a' b' c' d') {sport dport : UInt16} (hsp : x.sport = sport.toNat)
    (hdp : x.dport = dport.toNat) (hlen : x.payload.length ≤ 65495) :
    Yields (encodeFrame x) fun frame => ∃ f : Frame, frame = f.assemble ∧ f.link.linktype = 1 ∧
      f.network.src = .ok x.src ∧ f.network.dst = .ok x.dst ∧
      f.payload = x.payload ∧ f.padding = [] ∧
      ∃ sum, f.transport = .tcp (tcpHeader x sport dport sum) := by
  unfold encodeFrame
  apply (tcp_yields hs hd hsp hdp hlen).bind
  rintro _ ⟨sum, rfl⟩
  have hseg : ((tcpHeader x sport dport sum).bytes x.payload).length = 20 + x.payload.length := by
    have := sum.2
    simp only [Tcp.bytes, tcpHeader, be32, List.length_append, List.length_cons, length_be16,
      List.length_nil, this]
    omega
  rw [hs, hd]
  apply (ipv4_yields (by omega)).bind
  rintro ip ⟨ipSum, hip⟩
  rw [mac_dotted, ok_bind, mac_dotted, ok_bind]
  refine yields_ok ⟨{
    link := .ethernet ⟨[0x02, 0x00, a', b', c', d', 0x02, 0x00, a, b, c, d], rfl⟩
    network := .v4 (ipv4Header a b c d a' b' c' d' ipSum)
    transport := .tcp (tcpHeader x sport dport sum)
    payload := x.payload
    padding := []
    fits := by
      simp only [Network.declared, Transport.bytes, hseg, ipv4Header]
      simp only [Fin.val_zero]
      omega }, ?_, rfl, rfl, rfl, rfl, rfl, sum, rfl⟩
  rw [List.append_assoc, hip]
  simp [Frame.assemble, Link.header, Network.bytes, Network.ethertype, Transport.bytes,
    Transport.protocol, etherTypeIpv4]

end Encode

/-- A connection request is what the flag string `"S"` encodes, and nothing else. -/
theorem syn_control (x : Exchange) : (x.control.syn = true ∧ x.control.ack = false) ↔ x.flags = "S" := by
  unfold Exchange.control
  constructor
  · rintro ⟨-, hack⟩
    by_contra hS
    have hrest : (flagBits.lookup x.flags).getD 0x18 ∈ [0x12, 0x10, 0x18, 0x11] := by
      simp only [flagBits, List.lookup_cons, List.lookup_nil, beq_false_of_ne hS]
      cases x.flags == "SA" <;> cases x.flags == "A" <;> cases x.flags == "PA" <;>
        cases x.flags == "FA" <;> decide
    have hall : ∀ n ∈ [0x12, 0x10, 0x18, 0x11], (Control.ofByte (UInt8.ofNat n)).ack = true := by
      decide
    rw [hall _ hrest] at hack
    cases hack
  · intro h
    rw [h]
    decide

end Pyscan.OtTraffic
