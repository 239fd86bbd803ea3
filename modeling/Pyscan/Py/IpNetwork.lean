import Pyscan.Lib.Netmask
import Pyscan.Py.Inet

/-!
# Networks

`ipaddress.ip_network(s, strict=False)`: an address of either version, behind
which a `/` may stand a prefix length or, in IPv4, a netmask or a hostmask. A
network carries that its address has no host bits; `hosts` are the numbers of
the addresses a host can have in it, in order (`mem_hosts`).
-/

namespace Pyscan.Py

open Netmask

/-! ## Addresses as numbers -/

/-- `int.from_bytes(d, "big")`. -/
def fromBytes (d : Bytes) : Nat := d.foldl (fun n b => 256 * n + b.toNat) 0

/-- `n.to_bytes(k, "big")`. -/
def toBytes : (k n : Nat) → Bytes
  | 0, _ => []
  | k + 1, n => toBytes k (n / 256) ++ [UInt8.ofNat n]

@[simp] theorem length_toBytes (k n : Nat) : (toBytes k n).length = k := by
  induction k generalizing n with
  | zero => rfl
  | succ k ih => rw [toBytes, List.length_append, ih, List.length_singleton]

theorem fromBytes_concat (d : Bytes) (b : UInt8) : fromBytes (d ++ [b]) = 256 * fromBytes d + b.toNat := by
  rw [fromBytes, List.foldl_append]
  rfl

theorem fromBytes_lt (d : Bytes) : fromBytes d < 256 ^ d.length := by
  induction d using List.reverseRecOn with
  | nil => exact Nat.one_pos
  | append_singleton d b ih =>
    have hb := b.toNat_lt
    rw [fromBytes_concat, List.length_append, List.length_singleton, pow_succ]
    omega

theorem fromBytes_toBytes {k n : Nat} (h : n < 256 ^ k) : fromBytes (toBytes k n) = n := by
  induction k generalizing n with
  | zero =>
    obtain rfl : n = 0 := by simpa using h
    rfl
  | succ k ih =>
    have hdiv : n / 256 < 256 ^ k := Nat.div_lt_of_lt_mul (by rwa [pow_succ, mul_comm] at h)
    rw [toBytes, fromBytes_concat, ih hdiv, UInt8.toNat_ofNat']
    omega

theorem toBytes_fromBytes (d : Bytes) : toBytes d.length (fromBytes d) = d := by
  induction d using List.reverseRecOn with
  | nil => rfl
  | append_singleton d b ih =>
    have hb := b.toNat_lt
    have hdiv : (256 * fromBytes d + b.toNat) / 256 = fromBytes d := by omega
    have hbyte : UInt8.ofNat (256 * fromBytes d + b.toNat) = b := by
      refine UInt8.toNat_inj.mp ?_
      rw [UInt8.toNat_ofNat']
      omega
    rw [List.length_append, List.length_singleton, toBytes, fromBytes_concat, hdiv, ih, hbyte]

/-! ## Versions -/

inductive IpVersion where
  | v4
  | v6
  deriving DecidableEq, Repr

namespace IpVersion

/-- The length of a packed address. -/
def size : IpVersion → Nat
  | .v4 => 4
  | .v6 => 16

/-- `max_prefixlen`. -/
def bits (v : IpVersion) : Nat := 8 * v.size

theorem two_pow_bits (v : IpVersion) : 2 ^ v.bits = 256 ^ v.size := by
  show 2 ^ (8 * v.size) = (2 ^ 8) ^ v.size
  exact pow_mul 2 8 v.size

end IpVersion

/-- How `ipaddress` writes an IPv6 address; the versions of Python differ in it. -/
structure Ipv6Text where
  str : Bytes → String
  reads : ∀ {d : Bytes}, d.length = 16 → ipv6 (str d).toList = some d
  addrText : ∀ d : Bytes, AddrText (str d).toList

def Ipv6Text.compressed : Ipv6Text where
  str d := String.ofList (Py.compressed (words d))
  reads h := by
    rw [String.toList_ofList]
    exact ipv6_compressed h
  addrText d := by
    rw [String.toList_ofList]
    exact addrText_compressed (words d)

/-- `str` of an address of the version. -/
def IpVersion.str (text : Ipv6Text) : IpVersion → Bytes → String
  | .v4, d => rendered d
  | .v6, d => text.str d

/-! ## IPv6 addresses with a scope -/

/-- What stands behind the `%` of an address. -/
abbrev Scope := {s : List Char // s ≠ [] ∧ '%' ∉ s ∧ '/' ∉ s}

/-- `str` of an address with a scope. -/
def withScope (addr : String) : Option Scope → String
  | none => addr
  | some scope => String.ofList (addr.toList ++ '%' :: scope)

/-- `IPv6Address(s)`: its number as bytes, and its scope. -/
def ipv6Address (cs : List Char) : Option (Bytes × Option Scope) :=
  if '/' ∈ cs then none
  else match cs.dropWhile (· != '%') with
  | [] => (ipv6 cs).map fun d => (d, none)
  | _ :: scope =>
    if h : scope ≠ [] ∧ '%' ∉ scope ∧ '/' ∉ scope then
      (ipv6 (cs.takeWhile (· != '%'))).map fun d => (d, some ⟨scope, h⟩)
    else none

/-! ## Networks -/

structure IpNetwork where
  version : IpVersion
  prefixlen : Nat
  networkAddress : Nat
  scope : Option Scope
  prefixlen_le : prefixlen ≤ version.bits
  address_lt : networkAddress < 2 ^ version.bits
  aligned : 2 ^ (version.bits - prefixlen) ∣ networkAddress

namespace IpNetwork

/-- The network of an address: its host bits are dropped, and with them its scope. -/
def of (version : IpVersion) (packed : Nat) (prefixlen : Fin (version.bits + 1)) (scope : Option Scope) :
    IpNetwork where
  version
  prefixlen
  networkAddress := packed &&& netmask version.bits prefixlen
  scope := if packed &&& netmask version.bits prefixlen = packed then scope else none
  prefixlen_le := Nat.lt_succ_iff.mp prefixlen.isLt
  address_lt := and_netmask_lt (Nat.lt_succ_iff.mp prefixlen.isLt) packed
  aligned := dvd_and_netmask (Nat.lt_succ_iff.mp prefixlen.isLt) packed

/-- `int` refuses longer numerals. -/
def maxStrDigits : Nat := 4300

/-- `_prefix_from_prefix_string`. -/
def prefixFromPrefixString (w : Nat) (cs : List Char) : Option (Fin (w + 1)) :=
  if cs ≠ [] ∧ cs.all Char.isDigit ∧ cs.length ≤ maxStrDigits then
    let n := Nat.ofDigitChars 10 cs 0
    if h : n < w + 1 then some ⟨n, h⟩ else none
  else none

/-- `_prefix_from_ip_string`: a netmask, or else a hostmask. -/
def prefixFromIpString (cs : List Char) : Option (Fin 33) :=
  (ipv4 cs).bind fun d =>
    (prefixOf 32 (fromBytes d)).or (prefixOf 32 (fromBytes d ^^^ allOnes 32))

def ipv4Mask (cs : List Char) : Option (Fin 33) :=
  (prefixFromPrefixString 32 cs).or (prefixFromIpString cs)

/-- `IPv4Network(s, strict=False)`. -/
def ipv4Network (cs : List Char) : Option IpNetwork :=
  match cs.splitOn '/' with
  | [addr] => (ipv4 addr).map fun d => of .v4 (fromBytes d) (Fin.last _) none
  | [addr, mask] => (ipv4 addr).bind fun d => (ipv4Mask mask).map fun p => of .v4 (fromBytes d) p none
  | _ => none

/-- `IPv6Network(s, strict=False)`. -/
def ipv6Network (cs : List Char) : Option IpNetwork :=
  match cs.splitOn '/' with
  | [addr] => (ipv6Address addr).map fun a => of .v6 (fromBytes a.1) (Fin.last _) a.2
  | [addr, mask] => (ipv6Address addr).bind fun a =>
      (prefixFromPrefixString 128 mask).map fun p => of .v6 (fromBytes a.1) p a.2
  | _ => none

end IpNetwork

/-- `ipaddress.ip_network(s, strict=False)`; `none` is its `ValueError`. -/
def ipNetwork (s : String) : Option IpNetwork :=
  (IpNetwork.ipv4Network s.toList).or (IpNetwork.ipv6Network s.toList)

namespace IpNetwork

variable (net : IpNetwork)

/-- How many bits a host address has of its own. -/
def hostBits : Nat := net.version.bits - net.prefixlen

def numAddresses : Nat := 2 ^ net.hostBits

/-- `int(net.broadcast_address)`. -/
def broadcastAddress : Nat := net.networkAddress + (2 ^ net.hostBits - 1)

/-- `net.hosts()`. -/
def hosts : List Nat :=
  if net.hostBits = 0 then [net.networkAddress]
  else if net.hostBits = 1 then [net.networkAddress, net.networkAddress + 1]
  else match net.version with
  | .v4 => List.range' (net.networkAddress + 1) (net.broadcastAddress - (net.networkAddress + 1))
  | .v6 => List.range' (net.networkAddress + 1) (net.broadcastAddress + 1 - (net.networkAddress + 1))

/-- `str` of an address of the network. -/
def str (text : Ipv6Text) (n : Nat) : String := net.version.str text (toBytes net.version.size n)

/-- `str(net.network_address)`. -/
def addressText (text : Ipv6Text) : String := withScope (net.str text net.networkAddress) net.scope

end IpNetwork

example : (ipNetwork "10.0.0.9/0.0.0.3").map IpNetwork.hosts = some [167772169, 167772170] := by
  decide +kernel

/-! ## Which addresses are hosts -/

namespace IpNetwork

/-- The address has the prefix of the network. -/
def Contains (net : IpNetwork) (x : Nat) : Prop :=
  x / 2 ^ net.hostBits = net.networkAddress / 2 ^ net.hostBits

/-- Where there are more than two addresses, the first is no host, and in IPv4 nor is the last. -/
def Usable (net : IpNetwork) (x : Nat) : Prop :=
  2 ≤ net.hostBits → x ≠ net.networkAddress ∧ (net.version = .v4 → x ≠ net.broadcastAddress)

variable {net : IpNetwork} {x : Nat}

theorem contains_iff : net.Contains x ↔ net.networkAddress ≤ x ∧ x ≤ net.broadcastAddress := by
  obtain ⟨k, hk⟩ : 2 ^ net.hostBits ∣ net.networkAddress := net.aligned
  have hpos : 0 < 2 ^ net.hostBits := Nat.two_pow_pos _
  unfold Contains broadcastAddress
  rw [hk, Nat.mul_div_cancel_left _ hpos, Nat.div_eq_iff hpos, mul_comm k]
  omega

theorem broadcastAddress_lt (net : IpNetwork) : net.broadcastAddress < 2 ^ net.version.bits := by
  have hbits : 2 ^ net.version.bits = 2 ^ net.hostBits * 2 ^ net.prefixlen := by
    rw [← pow_add, hostBits, Nat.sub_add_cancel net.prefixlen_le]
  obtain ⟨k, hk⟩ : 2 ^ net.hostBits ∣ net.networkAddress := net.aligned
  have hpos : 0 < 2 ^ net.hostBits := Nat.two_pow_pos _
  have hlt := net.address_lt
  rw [hbits, hk] at hlt
  have hk1 : k + 1 ≤ 2 ^ net.prefixlen := Nat.lt_of_mul_lt_mul_left hlt
  have hlast : 2 ^ net.hostBits * (k + 1) ≤ 2 ^ net.hostBits * 2 ^ net.prefixlen :=
    Nat.mul_le_mul_left _ hk1
  rw [mul_add, mul_one] at hlast
  rw [broadcastAddress, hbits, hk]
  omega

/-- **`hosts` are the usable addresses of the network.** -/
theorem mem_hosts : x ∈ net.hosts ↔ net.Contains x ∧ net.Usable x := by
  rw [contains_iff]
  unfold hosts Usable broadcastAddress
  by_cases h0 : net.hostBits = 0
  · rw [if_pos h0, h0, List.mem_singleton]
    omega
  by_cases h1 : net.hostBits = 1
  · rw [if_neg h0, if_pos h1, h1, List.mem_cons, List.mem_singleton]
    omega
  have h2 : 2 ≤ net.hostBits := by omega
  have hfour : 2 ^ 2 ≤ 2 ^ net.hostBits := Nat.pow_le_pow_right (by decide) h2
  rw [if_neg h0, if_neg h1]
  cases net.version with
  | v4 =>
    rw [List.mem_range'_1]
    simp only [h2, true_implies]
    omega
  | v6 =>
    rw [List.mem_range'_1]
    simp only [h2, true_implies, reduceCtorEq, false_implies, and_true]
    omega

theorem pairwise_hosts (net : IpNetwork) : net.hosts.Pairwise (· < ·) := by
  unfold hosts
  split
  · exact List.pairwise_singleton _ _
  split
  · exact List.pairwise_pair.mpr (Nat.lt_succ_self _)
  split <;> exact List.pairwise_lt_range'

theorem lt_of_mem_hosts (h : x ∈ net.hosts) : x < 2 ^ net.version.bits :=
  (contains_iff.mp (mem_hosts.mp h).1).2.trans_lt net.broadcastAddress_lt

/-- The hosts of the network of an address, by the bits they share with it and those they do not. -/
theorem mem_hosts_of {v : IpVersion} {n : Nat} (hn : n < 2 ^ v.bits) {p : Fin (v.bits + 1)}
    {scope : Option Scope} :
    x ∈ (of v n p scope).hosts ↔ x / 2 ^ (v.bits - p) = n / 2 ^ (v.bits - p) ∧
      (2 ≤ v.bits - p → x % 2 ^ (v.bits - p) ≠ 0 ∧
        (v = .v4 → x % 2 ^ (v.bits - p) ≠ 2 ^ (v.bits - p) - 1)) := by
  have haddr : (of v n p scope).networkAddress = n / 2 ^ (v.bits - p) * 2 ^ (v.bits - p) :=
    and_netmask (Nat.lt_succ_iff.mp p.isLt) hn
  have hpos : 0 < 2 ^ (v.bits - p) := Nat.two_pow_pos _
  have hcontains : (of v n p scope).Contains x ↔ x / 2 ^ (v.bits - p) = n / 2 ^ (v.bits - p) := by
    show x / 2 ^ (v.bits - p) = (of v n p scope).networkAddress / 2 ^ (v.bits - p) ↔ _
    rw [haddr, Nat.mul_div_cancel _ hpos]
  rw [mem_hosts, hcontains]
  refine and_congr_right fun hsame => ?_
  have hsplit := Nat.div_add_mod' x (2 ^ (v.bits - p))
  rw [hsame] at hsplit
  show (2 ≤ v.bits - p → x ≠ (of v n p scope).networkAddress ∧
    (v = .v4 → x ≠ (of v n p scope).networkAddress + (2 ^ (v.bits - p) - 1))) ↔ _
  rw [haddr]
  generalize x % 2 ^ (v.bits - p) = r at hsplit
  generalize n / 2 ^ (v.bits - p) * 2 ^ (v.bits - p) = base at hsplit
  generalize 2 ^ (v.bits - p) = size at hpos
  refine imp_congr_right fun _ => and_congr ?_ (imp_congr_right fun _ => ?_) <;> omega

/-- How many there are. -/
theorem length_hosts (net : IpNetwork) : 1 ≤ net.hosts.length ∧ net.hosts.length ≤ net.numAddresses ∧
    (2 ≤ net.hostBits → net.hosts.length < net.numAddresses) := by
  unfold hosts numAddresses broadcastAddress
  by_cases h0 : net.hostBits = 0
  · rw [if_pos h0, h0]
    exact ⟨le_refl 1, le_refl 1, by omega⟩
  by_cases h1 : net.hostBits = 1
  · rw [if_neg h0, if_pos h1, h1]
    exact ⟨Nat.le_succ 1, le_refl _, by omega⟩
  have hfour : 2 ^ 2 ≤ 2 ^ net.hostBits := Nat.pow_le_pow_right (by decide) (by omega)
  rw [if_neg h0, if_neg h1]
  cases net.version <;> dsimp only <;> rw [List.length_range'] <;> omega

end IpNetwork

/-! ## Networks in text -/

section Reading

open IpNetwork

variable (text : Ipv6Text) {v : IpVersion} {d : Bytes} {cs : List Char}

theorem addrText_str (hd : d.length = v.size) : AddrText (v.str text d).toList := by
  cases v with
  | v4 =>
    match d, hd with
    | [a, b, c, e], _ => exact addrText_dotted a b c e
  | v6 => exact text.addrText d

theorem AddrText.not_mem {c : Char} (h : AddrText cs) (hc : c ∉ "0123456789abcdef.:".toList) : c ∉ cs :=
  fun hmem => hc (h c hmem)

/-- No text is an address of both versions. -/
theorem ipv4_eq_none (h : ipv6 cs = some d) : ipv4 cs = none := by
  refine Option.eq_none_iff_forall_ne_some.mpr fun x hx => ?_
  obtain ⟨a, b, c, e, -, rfl⟩ := ipv4_inv hx
  rw [ipv6_dotted] at h
  cases h

theorem ipv6Address_of_addrText (h : AddrText cs) : ipv6Address cs = (ipv6 cs).map fun d => (d, none) := by
  have hslash : '/' ∉ cs := h.not_mem (by decide)
  have hscope : cs.dropWhile (· != '%') = [] := by
    refine List.dropWhile_eq_nil_iff.mpr fun c hc => ?_
    have hne : c ≠ '%' := fun heq => h.not_mem (by decide) (heq ▸ hc)
    simpa using hne
  rw [ipv6Address, if_neg hslash, hscope]

/-- The mask of a network, of its version. -/
def IpVersion.mask : (v : IpVersion) → List Char → Option (Fin (v.bits + 1))
  | .v4, cs => IpNetwork.ipv4Mask cs
  | .v6, cs => IpNetwork.prefixFromPrefixString 128 cs

theorem ipNetwork_str (hd : d.length = v.size) :
    ipNetwork (v.str text d) = some (.of v (fromBytes d) (Fin.last _) none) := by
  have haddr : AddrText (v.str text d).toList := addrText_str text hd
  have hsplit : (v.str text d).toList.splitOn '/' = [(v.str text d).toList] :=
    List.splitOn_eq_singleton (haddr.not_mem (by decide))
  rw [ipNetwork, IpNetwork.ipv4Network, IpNetwork.ipv6Network, hsplit]
  dsimp only
  rw [ipv6Address_of_addrText haddr]
  cases v with
  | v4 =>
    match d, hd with
    | [a, b, c, e], _ =>
      show ((ipv4 (dotted a b c e).toList).map _).or _ = _
      rw [ipv4_dotted]
      rfl
  | v6 =>
    have hread : ipv6 (text.str d).toList = some d := text.reads hd
    show ((ipv4 (text.str d).toList).map _).or (((ipv6 (text.str d).toList).map _).map _) = _
    rw [ipv4_eq_none hread, hread]
    rfl

/-- An address, and a mask behind it. -/
theorem ipNetwork_mask (hd : d.length = v.size) (hcs : '/' ∉ cs) :
    ipNetwork (String.ofList ((v.str text d).toList ++ '/' :: cs)) =
      (v.mask cs).map fun p => .of v (fromBytes d) p none := by
  have haddr : AddrText (v.str text d).toList := addrText_str text hd
  have hsplit : ((v.str text d).toList ++ '/' :: cs).splitOn '/' = [(v.str text d).toList, cs] := by
    rw [List.splitOn_append_cons_self_of_not_mem (haddr.not_mem (by decide)),
      List.splitOn_eq_singleton hcs]
  rw [ipNetwork, String.toList_ofList, IpNetwork.ipv4Network, IpNetwork.ipv6Network, hsplit]
  dsimp only
  rw [ipv6Address_of_addrText haddr]
  cases v with
  | v4 =>
    match d, hd with
    | [a, b, c, e], _ =>
      have hread : ipv6 (dotted a b c e).toList = none := ipv6_dotted a b c e
      show ((ipv4 (dotted a b c e).toList).bind _).or (((ipv6 (dotted a b c e).toList).map _).bind _) = _
      rw [ipv4_dotted, hread]
      exact Option.or_none
  | v6 =>
    have hread : ipv6 (text.str d).toList = some d := text.reads hd
    show ((ipv4 (text.str d).toList).bind _).or (((ipv6 (text.str d).toList).map _).bind _) = _
    rw [ipv4_eq_none hread, hread]
    rfl

theorem prefixFromPrefixString_decimal {w : Nat} (p : Fin (w + 1)) (hw : w < 10 ^ maxStrDigits) :
    prefixFromPrefixString w (decimal p) = some p := by
  have hdigits : (decimal p).all Char.isDigit = true :=
    List.all_eq_true.mpr fun c hc => isDigit_of_mem_decimal hc
  have hlength : (decimal p).length ≤ maxStrDigits :=
    (Nat.length_toDigits_le_iff (by decide) (by decide)).mpr ((Nat.lt_succ_iff.mp p.isLt).trans_lt hw)
  have hvalue : Nat.ofDigitChars 10 (decimal p) 0 = p := Nat.ofDigitChars_ten_toDigits
  rw [prefixFromPrefixString, if_pos ⟨decimal_ne_nil p, hdigits, hlength⟩]
  dsimp only
  simp only [hvalue, p.isLt, dite_true]

theorem maxStrDigits_bits (v : IpVersion) : v.bits < 10 ^ maxStrDigits :=
  (show v.bits < 10 ^ 3 by cases v <;> decide).trans
    (Nat.pow_lt_pow_right (by decide) (by decide))

theorem mask_decimal (v : IpVersion) (p : Fin (v.bits + 1)) : v.mask (decimal p) = some p := by
  have hread := prefixFromPrefixString_decimal p (maxStrDigits_bits v)
  cases v with
  | v4 => exact Option.or_eq_some_iff.mpr (.inl hread)
  | v6 => exact hread

/-- A dotted quad is no prefix length. -/
theorem ipv4Mask_dotted (hd : d.length = 4) :
    ipv4Mask (rendered d).toList =
      (prefixOf 32 (fromBytes d)).or (prefixOf 32 (fromBytes d ^^^ allOnes 32)) := by
  match d, hd with
  | [a, b, c, e], _ =>
    have hdot : (dotted a b c e).toList.all Char.isDigit = false := by
      simp [toList_dotted]
    rw [ipv4Mask, prefixFromPrefixString, if_neg (by rw [rendered, hdot]; simp), Option.none_or,
      prefixFromIpString, rendered, ipv4_dotted, Option.bind_some]

/-- The netmask of a prefix reads back as the prefix. -/
theorem ipv4Mask_netmask (p : Fin 33) :
    ipv4Mask (rendered (toBytes 4 (netmask 32 p))).toList = some p := by
  have hlt : netmask 32 p < 256 ^ 4 := netmask_lt (Nat.lt_succ_iff.mp p.isLt)
  rw [ipv4Mask_dotted (length_toBytes _ _), fromBytes_toBytes hlt, prefixOf_eq_some.mpr rfl,
    Option.some_or]

/-- So does its hostmask, unless that is a netmask. -/
theorem ipv4Mask_hostmask {p : Fin 33} (h0 : 0 < p.val) (h32 : p.val < 32) :
    ipv4Mask (rendered (toBytes 4 (hostmask 32 p))).toList = some p := by
  have hlt : hostmask 32 p < 256 ^ 4 := by
    rw [hostmask_eq h32.le]
    have hpow : 2 ^ (32 - p.val) ≤ 2 ^ 32 := Nat.pow_le_pow_right (by decide) (Nat.sub_le _ _)
    omega
  rw [ipv4Mask_dotted (length_toBytes _ _), fromBytes_toBytes hlt, prefixOf_hostmask h0 h32,
    Option.none_or, hostmask_xor, prefixOf_eq_some.mpr rfl]

end Reading

end Pyscan.Py
