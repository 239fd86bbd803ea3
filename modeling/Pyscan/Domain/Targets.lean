import Pyscan.Py.IpNetwork

/-!
# Targets

`expandTargets` turns a spec into hosts: an address, a name, or a network in any
spelling `ip_network` reads. A network expands to **exactly its usable
addresses**, in order, or is refused for its size (`expandTargets_cidr`); what a
spec expands to is settled, each host standing for itself alone
(`expandTargets_settled`).
-/

namespace Pyscan.Targets

open Py Netmask

def maxHosts : Nat := 65536

def tooLarge (n : Nat) : PyErr × String :=
  (.valueError, s!"Range too large ({n} addresses > {maxHosts}). Narrow the CIDR.")

def expandTargets (text : Ipv6Text) (spec : String) : Except (PyErr × String) (List String) :=
  let spec := stripWhite spec
  match ipNetwork spec with
  -- a hostname, resolved later
  | none => .ok [spec]
  | some net =>
    if net.numAddresses = 1 then .ok [net.addressText text]
    else if net.numAddresses > maxHosts + 2 then .error (tooLarge net.numAddresses)
    else .ok (net.hosts.map (net.str text))

/-- `ipaddress.ip_address(host).version`. -/
def ipVersion (host : String) : Option IpVersion :=
  if (ipv4 host.toList).isSome then some .v4
  else if (ipv6Address host.toList).isSome then some .v6
  else none

/-- The address family of a host, as a version. -/
def familyOf (host : String) : IpVersion := (ipVersion host).getD .v4

def isIpv6 (host : String) : Bool := familyOf host == .v6

variable (text : Ipv6Text) {v : IpVersion} {d : Bytes} {cs : List Char} {net : IpNetwork}

/-! ## Sizes -/

/-- The guard lets sixteen bits through. -/
theorem numAddresses_gt_iff : net.numAddresses > maxHosts + 2 ↔ 17 ≤ net.hostBits := by
  unfold IpNetwork.numAddresses maxHosts
  constructor
  · intro h
    by_contra hlt
    have hpow : 2 ^ net.hostBits ≤ 2 ^ 16 := Nat.pow_le_pow_right (by decide) (by omega)
    omega
  · intro h
    have hpow : 2 ^ 17 ≤ 2 ^ net.hostBits := Nat.pow_le_pow_right (by decide) h
    omega

theorem numAddresses_eq_one_iff : net.numAddresses = 1 ↔ net.hostBits = 0 :=
  Nat.pow_eq_one.trans (or_iff_right (by decide))

theorem length_hosts_lt (h : ¬ net.numAddresses > maxHosts + 2) : net.hosts.length < maxHosts := by
  obtain ⟨-, hle, hlt⟩ := net.length_hosts
  rw [numAddresses_gt_iff] at h
  have hpow : net.numAddresses ≤ 2 ^ 16 := Nat.pow_le_pow_right (by decide) (by omega)
  by_cases h2 : 2 ≤ net.hostBits
  · exact (hlt h2).trans_le hpow
  · have hsmall : net.numAddresses ≤ 2 ^ 1 := Nat.pow_le_pow_right (by decide) (by omega)
    unfold maxHosts
    omega

/-! ## Addresses in text -/

theorem not_white_of_addrText (h : AddrText cs) : ∀ c ∈ cs, isWhite c = false := by
  have hwhite : ∀ c ∈ "0123456789abcdef.:".toList, isWhite c = false := by
    simp [isWhite, isSpace]
  exact fun c hc => hwhite c (h c hc)

theorem stripWhite_of_addrText {s : String} (h : AddrText s.toList) : stripWhite s = s := by
  refine String.toList_injective ?_
  rw [toList_stripWhite, Strip.strip_eq_self (not_white_of_addrText h)]

theorem stripWhite_stripWhite (s : String) : stripWhite (stripWhite s) = stripWhite s := by
  refine String.toList_injective ?_
  rw [toList_stripWhite, toList_stripWhite, Strip.strip_strip]

/-- An address with all its bits fixed is one address. -/
theorem of_last_networkAddress {n : Nat} (hn : n < 2 ^ v.bits) (scope : Option Scope) :
    (IpNetwork.of v n (Fin.last _) scope).networkAddress = n := by
  show n &&& netmask v.bits v.bits = n
  rw [and_netmask (le_refl _) hn, Nat.sub_self, pow_zero, Nat.div_one, Nat.mul_one]

theorem addressText_of (hd : d.length = v.size) (scope : Option Scope) :
    (IpNetwork.of v (fromBytes d) (Fin.last _) scope).addressText text = withScope (v.str text d) scope := by
  have hn : fromBytes d < 2 ^ v.bits := by
    rw [v.two_pow_bits, ← hd]
    exact fromBytes_lt d
  have haddr := of_last_networkAddress hn scope
  have hscope : (IpNetwork.of v (fromBytes d) (Fin.last _) scope).scope = scope := by
    show (if _ = fromBytes d then scope else none) = scope
    exact if_pos haddr
  have hstr : (IpNetwork.of v (fromBytes d) (Fin.last _) scope).str text (fromBytes d) = v.str text d := by
    show v.str text (toBytes v.size (fromBytes d)) = v.str text d
    rw [← hd, toBytes_fromBytes]
  rw [IpNetwork.addressText, haddr, hscope, hstr]

/-- A bare address stands for itself. -/
theorem expandTargets_of_last {spec : String} (hd : d.length = v.size) {scope : Option Scope}
    (h : ipNetwork (stripWhite spec) = some (.of v (fromBytes d) (Fin.last _) scope)) :
    expandTargets text spec = .ok [withScope (v.str text d) scope] := by
  have hone : (IpNetwork.of v (fromBytes d) (Fin.last _) scope).numAddresses = 1 := by
    rw [numAddresses_eq_one_iff]
    exact Nat.sub_self _
  simp only [expandTargets, h, if_pos hone, addressText_of text hd]

theorem expandTargets_str (hd : d.length = v.size) :
    expandTargets text (v.str text d) = .ok [v.str text d] := by
  have hread : ipNetwork (stripWhite (v.str text d)) = some (.of v (fromBytes d) (Fin.last _) none) := by
    rw [stripWhite_of_addrText (addrText_str text hd), ipNetwork_str text hd]
  exact expandTargets_of_last text hd hread

/-- What is no address stands for itself too. -/
theorem expandTargets_of_none {spec : String} (h : ipNetwork (stripWhite spec) = none) :
    expandTargets text spec = .ok [stripWhite spec] := by
  simp only [expandTargets, h]

/-! ## Scopes -/

/-- An address, and a scope behind it. -/
theorem ipNetwork_scope (hd : d.length = v.size) {scope : List Char} (hslash : '/' ∉ scope) :
    ipNetwork (String.ofList ((v.str text d).toList ++ '%' :: scope)) = none ∨
      ∃ h : scope ≠ [] ∧ '%' ∉ scope ∧ '/' ∉ scope,
        ipNetwork (String.ofList ((v.str text d).toList ++ '%' :: scope)) =
          some (.of v (fromBytes d) (Fin.last _) (some ⟨scope, h⟩)) := by
  have haddr : AddrText (v.str text d).toList := addrText_str text hd
  have hnone : '%' ∉ (v.str text d).toList := haddr.not_mem (by decide)
  have hsplit : ((v.str text d).toList ++ '%' :: scope).splitOn '/' =
      [(v.str text d).toList ++ '%' :: scope] := by
    refine List.splitOn_eq_singleton fun hmem => ?_
    rcases List.mem_append.mp hmem with hmem | hmem
    · exact haddr.not_mem (by decide) hmem
    · rcases List.mem_cons.mp hmem with hmem | hmem
      · cases hmem
      · exact hslash hmem
  have hv4 : ipv4 ((v.str text d).toList ++ '%' :: scope) = none := by
    refine Option.eq_none_iff_forall_ne_some.mpr fun x hx => ?_
    obtain ⟨a, b, c, e, -, hcs⟩ := ipv4_inv hx
    have hmem : '%' ∈ (dotted a b c e).toList := hcs ▸ List.mem_append_right _ List.mem_cons_self
    exact (addrText_dotted a b c e).not_mem (by decide) hmem
  have hne : ∀ c ∈ (v.str text d).toList, (c != '%') = true := fun c hc =>
    bne_iff_ne.mpr fun heq => hnone (heq ▸ hc)
  have hv6 : ipv6Address ((v.str text d).toList ++ '%' :: scope) =
      if h : scope ≠ [] ∧ '%' ∉ scope ∧ '/' ∉ scope then
        (ipv6 (v.str text d).toList).map fun d => (d, some ⟨scope, h⟩)
      else none := by
    have hno : '/' ∉ (v.str text d).toList ++ '%' :: scope := fun hmem => by
      rcases List.mem_append.mp hmem with hmem | hmem
      · exact haddr.not_mem (by decide) hmem
      · exact hslash ((List.mem_cons.mp hmem).resolve_left (by decide))
    rw [ipv6Address, if_neg hno, List.dropWhile_append_of_pos hne, List.takeWhile_append_of_pos hne,
      List.dropWhile_cons_of_neg (by decide), List.takeWhile_cons_of_neg (by decide), List.append_nil]
  rw [ipNetwork, String.toList_ofList, IpNetwork.ipv4Network, IpNetwork.ipv6Network, hsplit]
  dsimp only
  rw [hv4, hv6]
  by_cases h : scope ≠ [] ∧ '%' ∉ scope ∧ '/' ∉ scope
  · rw [dif_pos h]
    cases v with
    | v4 =>
      left
      obtain ⟨a, b, c, e, rfl⟩ := List.length_eq_four.mp hd
      have hread : ipv6 (dotted a b c e).toList = none := ipv6_dotted a b c e
      show ((none : Option Bytes).map _).or (((ipv6 (dotted a b c e).toList).map _).map _) = none
      rw [hread]
      rfl
    | v6 =>
      have hread : ipv6 (text.str d).toList = some d := text.reads hd
      right
      refine ⟨h, ?_⟩
      show ((none : Option Bytes).map _).or (((ipv6 (text.str d).toList).map _).map _) = _
      rw [hread]
      rfl
  · rw [dif_neg h]
    exact .inl rfl

/-- An address with a scope stands for itself, without the blanks at its end. -/
theorem expandTargets_withScope (hd : d.length = v.size) (scope : Scope) :
    expandTargets text (withScope (v.str text d) (some scope)) =
      .ok [stripWhite (withScope (v.str text d) (some scope))] := by
  obtain ⟨scope, hscope⟩ := scope
  have haddr : AddrText (v.str text d).toList := addrText_str text hd
  have hkeep : (v.str text d).toList.dropWhile isWhite = (v.str text d).toList :=
    Strip.dropWhile_eq_self (not_white_of_addrText haddr)
  have hstrip : stripWhite (String.ofList ((v.str text d).toList ++ '%' :: scope)) =
      String.ofList ((v.str text d).toList ++ '%' :: scope.rdropWhile isWhite) := by
    refine String.toList_injective ?_
    rw [toList_stripWhite, String.toList_ofList, String.toList_ofList,
      Strip.strip_append_cons (by decide), hkeep]
  have hslash : '/' ∉ scope.rdropWhile isWhite := fun hmem =>
    hscope.2.2 ((List.rdropWhile_prefix isWhite scope).subset hmem)
  rw [withScope]
  rcases ipNetwork_scope text hd hslash with hnone | ⟨h, hsome⟩
  · exact expandTargets_of_none text (hstrip ▸ hnone)
  · have hread := expandTargets_of_last text hd (hstrip ▸ hsome)
    rw [hread, hstrip]
    rfl

/-! ## Expanding once is enough -/

theorem str_injective {d' : Bytes} (hd : d.length = v.size) (hd' : d'.length = v.size)
    (h : v.str text d = v.str text d') : d = d' := by
  cases v with
  | v4 =>
    match d, hd, d', hd' with
    | [a, b, c, e], _, [a', b', c', e'], _ =>
      have hread : ipv4 (dotted a b c e).toList = ipv4 (dotted a' b' c' e').toList := congrArg (fun s => ipv4 s.toList) h
      rw [ipv4_dotted, ipv4_dotted] at hread
      exact Option.some.inj hread
  | v6 =>
    have hread : ipv6 (text.str d).toList = ipv6 (text.str d').toList := congrArg (fun s => ipv6 s.toList) h
    rw [text.reads hd, text.reads hd'] at hread
    exact Option.some.inj hread

/-- Hosts of a network have texts of their own. -/
theorem nodup_hosts (net : IpNetwork) : (net.hosts.map (net.str text)).Nodup := by
  refine List.Nodup.map_on (fun x hx y hy hxy => ?_) (net.pairwise_hosts.imp ne_of_lt)
  have hbytes := str_injective text (length_toBytes _ _) (length_toBytes _ _) hxy
  have hx := IpNetwork.lt_of_mem_hosts hx
  have hy := IpNetwork.lt_of_mem_hosts hy
  rw [net.version.two_pow_bits] at hx hy
  rw [← fromBytes_toBytes hx, hbytes, fromBytes_toBytes hy]

/-- A network without a scope expands to its hosts, or is refused. -/
theorem expandTargets_of_network {spec : String} (h : ipNetwork (stripWhite spec) = some net)
    (hscope : net.scope = none) :
    expandTargets text spec = if 17 ≤ net.hostBits then .error (tooLarge net.numAddresses)
      else .ok (net.hosts.map (net.str text)) := by
  simp only [expandTargets, h, numAddresses_gt_iff, numAddresses_eq_one_iff]
  by_cases h0 : net.hostBits = 0
  · have hhosts : net.hosts = [net.networkAddress] := if_pos h0
    have haddress : net.addressText text = net.str text net.networkAddress := by
      rw [IpNetwork.addressText, hscope]
      rfl
    rw [if_pos h0, if_neg (by omega), hhosts, haddress]
    rfl
  · rw [if_neg h0]

/-- **What a spec expands to is settled**: the hosts are distinct, at least one and fewer than
`maxHosts`, and each expands to itself. -/
theorem expandTargets_settled {spec : String} {hosts : List String}
    (h : expandTargets text spec = .ok hosts) :
    hosts.Nodup ∧ 1 ≤ hosts.length ∧ hosts.length < maxHosts ∧
      ∀ host ∈ hosts, expandTargets text host = .ok [stripWhite host] := by
  have hone : ∀ {host : String}, expandTargets text host = .ok [stripWhite host] → [host].Nodup ∧
      1 ≤ [host].length ∧ [host].length < maxHosts ∧
        ∀ x ∈ [host], expandTargets text x = .ok [stripWhite x] := by
    intro host hself
    refine ⟨List.nodup_singleton host, le_refl 1, (show 1 < maxHosts by decide), fun x hx => ?_⟩
    rwa [List.mem_singleton.mp hx]
  have hstr : ∀ (net : IpNetwork) (n : Nat), expandTargets text (net.str text n) =
      .ok [stripWhite (net.str text n)] := by
    intro net n
    have hd := length_toBytes net.version.size n
    have hstrip : stripWhite (net.str text n) = net.str text n :=
      stripWhite_of_addrText (addrText_str text hd)
    rw [hstrip]
    exact expandTargets_str text hd
  simp only [expandTargets] at h
  split at h
  · rename_i hnone
    obtain rfl := Except.ok.inj h
    have hself : expandTargets text (stripWhite spec) = .ok [stripWhite (stripWhite spec)] :=
      expandTargets_of_none text (by rw [stripWhite_stripWhite, hnone])
    exact hone hself
  · rename_i net _
    split at h
    · obtain rfl := Except.ok.inj h
      refine hone ?_
      rw [IpNetwork.addressText]
      cases net.scope with
      | none => exact hstr net _
      | some scope => exact expandTargets_withScope text (length_toBytes _ _) scope
    · split at h
      · cases h
      · rename_i hsize
        obtain rfl := Except.ok.inj h
        refine ⟨nodup_hosts text net, ?_, ?_, fun host hhost => ?_⟩
        · rw [List.length_map]
          exact net.length_hosts.1
        · rw [List.length_map]
          exact length_hosts_lt hsize
        · obtain ⟨n, -, rfl⟩ := List.mem_map.mp hhost
          exact hstr net n

/-- A network spelled by its netmask. -/
theorem expandTargets_settled_netmask :
    ∃ hosts, expandTargets .compressed "10.10.30.21/255.255.255.252" = .ok hosts ∧ hosts.Nodup ∧
      ∀ host ∈ hosts, expandTargets .compressed host = .ok [stripWhite host] := by
  have h : expandTargets .compressed "10.10.30.21/255.255.255.252" =
      .ok ["10.10.30.21", "10.10.30.22"] := by
    decide +kernel
  obtain ⟨hnodup, -, -, hself⟩ := expandTargets_settled .compressed h
  exact ⟨_, h, hnodup, hself⟩

/-! ## Networks in CIDR -/

/-- The text of the address with a number. -/
def address (v : IpVersion) (n : Nat) : String := v.str text (toBytes v.size n)

/-- A network spelled by an address and a mask. -/
def spelled (v : IpVersion) (n : Nat) (mask : List Char) : String :=
  String.ofList ((address text v n).toList ++ '/' :: mask)

/-- `address/p`. -/
def cidr (v : IpVersion) (n p : Nat) : String := spelled text v n (decimal p)

theorem familyOf_address (v : IpVersion) (n : Nat) : familyOf (address text v n) = v := by
  have hd : (toBytes v.size n).length = v.size := length_toBytes _ _
  unfold address
  generalize toBytes v.size n = d at hd
  cases v with
  | v4 =>
    match d, hd with
    | [a, b, c, e], _ =>
      have hread : ipv4 (IpVersion.v4.str text [a, b, c, e]).toList = some [a, b, c, e] :=
        ipv4_dotted a b c e
      rw [familyOf, ipVersion, hread]
      rfl
  | v6 =>
    have hread : ipv6 (text.str d).toList = some d := text.reads hd
    have haddr : ipv6Address (text.str d).toList = some (d, none) := by
      rw [ipv6Address_of_addrText (text.addrText d), hread]
      rfl
    show ((ipVersion (text.str d)).getD .v4) = .v6
    rw [ipVersion, ipv4_eq_none hread, haddr]
    rfl

/-- A mask that reads as a prefix spells the network of that prefix. -/
theorem expandTargets_spelled {n : Nat} (hn : n < 2 ^ v.bits) {mask : List Char}
    (hwhite : ∀ c ∈ mask, isWhite c = false) (hslash : '/' ∉ mask) {p : Fin (v.bits + 1)}
    (hmask : v.mask mask = some p) :
    expandTargets text (spelled text v n mask) =
      if 17 ≤ v.bits - p then .error (tooLarge (2 ^ (v.bits - p)))
      else .ok ((IpNetwork.of v n p none).hosts.map (address text v)) := by
  have hd : (toBytes v.size n).length = v.size := length_toBytes _ _
  have hstrip : stripWhite (spelled text v n mask) = spelled text v n mask := by
    refine String.toList_injective ?_
    rw [toList_stripWhite, spelled, String.toList_ofList]
    refine Strip.strip_eq_self fun c hc => ?_
    rcases List.mem_append.mp hc with hc | hc
    · exact not_white_of_addrText (addrText_str text hd) c hc
    · rcases List.mem_cons.mp hc with rfl | hc
      · decide
      · exact hwhite c hc
  have hread : ipNetwork (stripWhite (spelled text v n mask)) = some (.of v n p none) := by
    rw [hstrip, spelled, address, ipNetwork_mask text hd hslash, hmask, Option.map_some,
      fromBytes_toBytes (by rwa [← v.two_pow_bits])]
  have hscope : (IpNetwork.of v n p none).scope = none := ite_self none
  exact expandTargets_of_network text hread hscope

theorem expandTargets_decimal {n : Nat} (hn : n < 2 ^ v.bits) (p : Fin (v.bits + 1)) :
    expandTargets text (cidr text v n p) =
      if 17 ≤ v.bits - p then .error (tooLarge (2 ^ (v.bits - p)))
      else .ok ((IpNetwork.of v n p none).hosts.map (address text v)) := by
  have hdigit : ∀ c ∈ decimal p, c.isDigit = true := fun c hc => isDigit_of_mem_decimal hc
  have hslash : '/' ∉ decimal p := fun hmem => absurd (hdigit _ hmem) (by decide)
  exact expandTargets_spelled text hn (fun c hc => isDigit_not_white (hdigit c hc)) hslash
    (mask_decimal v p)

example : expandTargets .compressed " 2001:db8::/126 " =
    .ok ["2001:db8::1", "2001:db8::2", "2001:db8::3"] := by
  decide +kernel

/-- The prefix a hostmask is read as: its own, unless it is a netmask. -/
def hostmaskPrefix (p : Fin 33) : Fin 33 := if 0 < p.val ∧ p.val < 32 then p else p.rev

theorem ipv4Mask_hostmaskPrefix (p : Fin 33) :
    IpNetwork.ipv4Mask (rendered (toBytes 4 (hostmask 32 p))).toList = some (hostmaskPrefix p) := by
  unfold hostmaskPrefix
  by_cases h : 0 < p.val ∧ p.val < 32
  · rw [if_pos h, ipv4Mask_hostmask h.1 h.2]
  · have hrev : hostmask 32 p = netmask 32 p.rev := by
      have hends : p = 0 ∨ p = 32 := by omega
      rcases hends with rfl | rfl <;> decide +kernel
    rw [if_neg h, hrev, ipv4Mask_netmask]

/-- **A netmask or a hostmask spells the network of its prefix**; the hostmasks of the two extremes
are netmasks, and spell each other's. -/
theorem expandTargets_mask (n : Fin (2 ^ 32)) (p : Fin 33) :
    expandTargets text (spelled text .v4 n (rendered (toBytes 4 (netmask 32 p))).toList) =
        expandTargets text (cidr text .v4 n p) ∧
      expandTargets text (spelled text .v4 n (rendered (toBytes 4 (hostmask 32 p))).toList) =
        expandTargets text (cidr text .v4 n (hostmaskPrefix p)) := by
  have hmask : ∀ (m : Nat) (q : Fin 33), IpNetwork.ipv4Mask (rendered (toBytes 4 m)).toList = some q →
      expandTargets text (spelled text .v4 n (rendered (toBytes 4 m)).toList) =
        expandTargets text (cidr text .v4 n q) := by
    intro m q hq
    have haddr : AddrText (rendered (toBytes 4 m)).toList :=
      addrText_str (v := .v4) text (length_toBytes _ _)
    have hspelled := expandTargets_spelled text (v := .v4) n.isLt (not_white_of_addrText haddr)
      (haddr.not_mem (by decide)) hq
    exact hspelled.trans (expandTargets_decimal text (v := .v4) n.isLt q).symm
  exact ⟨hmask _ _ (ipv4Mask_netmask p), hmask _ _ (ipv4Mask_hostmaskPrefix p)⟩

end Pyscan.Targets
