import Pyscan.Domain.Packet

/-!
# Frames on the wire

The grammar of the frames the decoders support, independent of the decoders: a
link header, an IP header with its options or extension headers, a transport
header with its options, a payload, and whatever padding the link layer added.
A value of these types is well formed by construction; `Frame.assemble` lays
it out in bytes.
-/

namespace Pyscan.Wire

open Py

/-- `n` bytes. -/
abbrev Block (n : Nat) := { b : Bytes // b.length = n }

/-! ## Transport -/

/-- The eight control bits of a TCP header. -/
structure Control where
  cwr : Bool
  ece : Bool
  urg : Bool
  ack : Bool
  psh : Bool
  rst : Bool
  syn : Bool
  fin : Bool
  deriving DecidableEq

def Control.byte (c : Control) : UInt8 :=
  UInt8.ofNat (128 * c.cwr.toNat + 64 * c.ece.toNat + 32 * c.urg.toNat + 16 * c.ack.toNat +
    8 * c.psh.toNat + 4 * c.rst.toNat + 2 * c.syn.toNat + c.fin.toNat)

/-- The letters of the set bits among SYN, ACK, FIN, RST, PSH and URG. -/
def Control.letters (c : Control) : List Char :=
  [(c.syn, 'S'), (c.ack, 'A'), (c.fin, 'F'), (c.rst, 'R'), (c.psh, 'P'), (c.urg, 'U')].filterMap
    fun x => if x.1 then some x.2 else none

/-- What a capture shows in the flags column: the set flags, `"."` when none is. -/
def Control.text (c : Control) : String := if c.letters = [] then "." else String.ofList c.letters

structure Tcp where
  sport : UInt16
  dport : UInt16
  seqAck : Block 8
  /-- option words: the data offset is `5 + words` -/
  words : Fin 11
  options : Block (4 * words)
  reserved : Fin 16
  control : Control
  windowChecksumUrgent : Block 6

structure Udp where
  sport : UInt16
  dport : UInt16
  checksum : Block 2

inductive Transport where
  | tcp (header : Tcp)
  | udp (header : Udp)

def Tcp.bytes (t : Tcp) (payload : Bytes) : Bytes :=
  be16 t.sport.toNat ++ be16 t.dport.toNat ++ t.seqAck.1 ++
    (UInt8.ofNat (16 * (5 + t.words) + t.reserved) :: t.control.byte ::
      (t.windowChecksumUrgent.1 ++ (t.options.1 ++ payload)))

def Udp.bytes (u : Udp) (payload : Bytes) : Bytes :=
  be16 u.sport.toNat ++ be16 u.dport.toNat ++ be16 (8 + payload.length) ++ (u.checksum.1 ++ payload)

namespace Transport

def protocol : Transport → Nat
  | tcp _ => 6
  | udp _ => 17

def name : Transport → String
  | tcp _ => "TCP"
  | udp _ => "UDP"

def sport : Transport → Nat
  | tcp t => t.sport.toNat
  | udp u => u.sport.toNat

def dport : Transport → Nat
  | tcp t => t.dport.toNat
  | udp u => u.dport.toNat

def bytes (t : Transport) (payload : Bytes) : Bytes :=
  match t with
  | tcp h => h.bytes payload
  | udp h => h.bytes payload

def flags : Transport → String
  | tcp t => t.control.text
  | udp _ => ""

def info (payload : Bytes) : Transport → String
  | t@(tcp _) => "[" ++ t.flags ++ "]"
  | udp _ => "len=" ++ toString (8 + payload.length)

end Transport

/-! ## Network -/

structure V4 where
  /-- option words: the header length is `5 + words` -/
  words : Fin 11
  options : Block (4 * words)
  tos : UInt8
  ident : UInt8 × UInt8
  /-- the reserved and don't-fragment bits; more-fragments and the offset are zero -/
  fragment : UInt8
  unfragmented : fragment.toNat % 64 = 0
  ttl : UInt8
  checksum : UInt8 × UInt8
  src : Block 4
  dst : Block 4

/-- The extension headers that carry a length octet. -/
inductive OptionsKind where
  | hopByHop
  | routing
  | destination
  deriving DecidableEq

def OptionsKind.code : OptionsKind → Nat
  | .hopByHop => 0
  | .routing => 43
  | .destination => 60

inductive Extension where
  | options (kind : OptionsKind) (length : UInt8) (content : Block (8 * length.toNat + 6))
  /-- a fragment header of offset 0; `low` holds two reserved bits and more-fragments -/
  | fragment (reserved low : UInt8) (offset_zero : low.toNat < 8) (ident : Block 4)

namespace Extension

def code : Extension → Nat
  | options kind _ _ => kind.code
  | fragment .. => 44

def bytes (next : Nat) : Extension → Bytes
  | options _ length content => UInt8.ofNat next :: length :: content.1
  | fragment reserved low _ ident => UInt8.ofNat next :: reserved :: 0 :: low :: ident.1

/-- The next-header value in front of a chain that leads to `protocol`. -/
def first (protocol : Nat) : List Extension → Nat
  | [] => protocol
  | e :: _ => e.code

def chain (protocol : Nat) : List Extension → Bytes
  | [] => []
  | e :: es => e.bytes (first protocol es) ++ chain protocol es

end Extension

structure V6 where
  trafficClass : Fin 16
  flow : UInt8 × UInt8 × UInt8
  extensions : List Extension
  at_most_eight : extensions.length ≤ 8
  hopLimit : UInt8
  src : Block 16
  dst : Block 16

inductive Network where
  | v4 (header : V4)
  | v6 (header : V6)

def V4.bytes (h : V4) (protocol : Nat) (body : Bytes) : Bytes :=
  UInt8.ofNat (64 + (5 + h.words)) :: h.tos ::
    (be16 (20 + 4 * h.words + body.length) ++
      (h.ident.1 :: h.ident.2 :: h.fragment :: 0 :: h.ttl :: UInt8.ofNat protocol ::
        h.checksum.1 :: h.checksum.2 :: (h.src.1 ++ (h.dst.1 ++ (h.options.1 ++ body)))))

def V6.bytes (h : V6) (protocol : Nat) (body : Bytes) : Bytes :=
  UInt8.ofNat (96 + h.trafficClass) :: h.flow.1 :: h.flow.2.1 :: h.flow.2.2 ::
    (be16 ((Extension.chain protocol h.extensions).length + body.length) ++
      (UInt8.ofNat (Extension.first protocol h.extensions) :: h.hopLimit ::
        (h.src.1 ++ (h.dst.1 ++ (Extension.chain protocol h.extensions ++ body)))))

namespace Network

def version : Network → Nat
  | v4 _ => 4
  | v6 _ => 6

def ethertype : Network → Nat
  | v4 _ => 0x0800
  | v6 _ => 0x86DD

/-- The value of the total-length field (IPv4) or the payload-length field (IPv6). -/
def declared (protocol : Nat) (body : Bytes) : Network → Nat
  | v4 h => 20 + 4 * h.words + body.length
  | v6 h => (Extension.chain protocol h.extensions).length + body.length

def bytes (n : Network) (protocol : Nat) (body : Bytes) : Bytes :=
  match n with
  | v4 h => h.bytes protocol body
  | v6 h => h.bytes protocol body

/-- The source address as the standard library renders it. -/
def src : Network → Result String
  | v4 h => inetNtoa h.src.1
  | v6 h => inetNtop h.src.1

def dst : Network → Result String
  | v4 h => inetNtoa h.dst.1
  | v6 h => inetNtop h.dst.1

end Network

/-! ## Link -/

inductive Link where
  | ethernet (addresses : Block 12)
  | vlan (addresses : Block 12) (tci : Block 2)
  | linuxSll (header : Block 14)
  | raw

namespace Link

def linktype : Link → Nat
  | ethernet _ => 1
  | vlan .. => 1
  | linuxSll _ => 113
  | raw => 101

def header (ethertype : Nat) : Link → Bytes
  | ethernet addresses => addresses.1 ++ be16 ethertype
  | vlan addresses tci => addresses.1 ++ (be16 0x8100 ++ (tci.1 ++ be16 ethertype))
  | linuxSll header => header.1 ++ be16 ethertype
  | raw => []

end Link

/-- A frame whose length fields are in range. -/
structure Frame where
  link : Link
  network : Network
  transport : Transport
  payload : Bytes
  padding : Bytes
  fits : network.declared transport.protocol (transport.bytes payload) < 65536

def Frame.assemble (f : Frame) : Bytes :=
  f.link.header f.network.ethertype ++
    (f.network.bytes f.transport.protocol (f.transport.bytes f.payload) ++ f.padding)

end Pyscan.Wire
