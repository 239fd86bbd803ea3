import Pyscan.Py.Text

/-!
# Reading addresses

`ipaddress.ip_address` on text, as packed bytes. An IPv4 address has one text, a
dotted quad without leading zeros. An IPv6 address has many: each group is one to
four hexadecimal digits of either case, one run of zero groups may be left out
as `::`, and the last two groups may be a dotted quad. `rendered` is the text
`inet_ntoa` and `inet_ntop` write; **it reads back as its address**
(`ipAddress_rendered`), so no other text is rendered for that address.
-/

namespace Pyscan.Py

/-! ## IPv4 -/

/-- A decimal octet; leading zeros are not permitted. -/
def octet (cs : List Char) : Option UInt8 :=
  ((List.range 256).find? fun n => decide (decimal n = cs)).map UInt8.ofNat

theorem decimal_injective {m n : Nat} (h : decimal m = decimal n) : m = n := by
  have hm := congrArg (fun cs => Nat.ofDigitChars 10 cs 0) h
  simpa only [decimal, Nat.ofDigitChars_ten_toDigits] using hm

theorem octet_eq_some {cs : List Char} {x : UInt8} : octet cs = some x ↔ decimal x.toNat = cs := by
  unfold octet
  rw [Option.map_eq_some_iff]
  constructor
  · rintro ⟨n, hfind, rfl⟩
    have hn : n < 256 := List.mem_range.mp (List.mem_of_find?_eq_some hfind)
    have hcs := List.find?_some hfind
    rw [UInt8.toNat_ofNat_of_lt' hn]
    exact of_decide_eq_true hcs
  · rintro rfl
    have hmem : x.toNat ∈ List.range 256 := List.mem_range.mpr x.toNat_lt
    obtain ⟨n, hn⟩ : ∃ n, (List.range 256).find? (fun n => decide (decimal n = decimal x.toNat)) =
        some n := by
      refine Option.isSome_iff_exists.mp (List.find?_isSome.mpr ⟨_, hmem, ?_⟩)
      exact decide_eq_true rfl
    have hcs := List.find?_some hn
    obtain rfl := decimal_injective (of_decide_eq_true hcs)
    exact ⟨_, hn, UInt8.ofNat_toNat⟩

def ipv4 (cs : List Char) : Option Bytes :=
  match cs.splitOn '.' with
  | [a, b, c, d] => do some [← octet a, ← octet b, ← octet c, ← octet d]
  | _ => none

theorem ipv4_dotted (a b c d : UInt8) : ipv4 (dotted a b c d).toList = some [a, b, c, d] := by
  have hsplit := splitDots_dotted a b c d
  unfold splitDots at hsplit
  have hoctet : ∀ x : UInt8, octet (decimal x.toNat) = some x := fun x => octet_eq_some.mpr rfl
  simp [ipv4, hsplit, hoctet]

/-- **The text of an IPv4 address is unique.** -/
theorem ipv4_inv {cs : List Char} {d : Bytes} (h : ipv4 cs = some d) :
    ∃ a b c e, d = [a, b, c, e] ∧ cs = (dotted a b c e).toList := by
  unfold ipv4 at h
  split at h
  · rename_i s t u v hsplit
    obtain ⟨a, ha, h⟩ := Option.bind_eq_some_iff.mp h
    obtain ⟨b, hb, h⟩ := Option.bind_eq_some_iff.mp h
    obtain ⟨c, hc, h⟩ := Option.bind_eq_some_iff.mp h
    obtain ⟨e, he, h⟩ := Option.bind_eq_some_iff.mp h
    refine ⟨a, b, c, e, (Option.some.inj h).symm, ?_⟩
    have hcs : ['.'].intercalate (cs.splitOn '.') = cs := List.intercalate_splitOn '.'
    rw [← hcs, hsplit, dotted, String.toList_ofList, ← octet_eq_some.mp ha, ← octet_eq_some.mp hb,
      ← octet_eq_some.mp hc, ← octet_eq_some.mp he]
    rfl
  · cases h

/-! ## IPv6 -/

def hexDigit (c : Char) : Option Nat :=
  if '0' ≤ c ∧ c ≤ '9' then some (c.toNat - 48)
  else if 'a' ≤ c ∧ c ≤ 'f' then some (c.toNat - 87)
  else if 'A' ≤ c ∧ c ≤ 'F' then some (c.toNat - 55)
  else none

/-- One to four hexadecimal digits. -/
def hextet (cs : List Char) : Option Nat :=
  if cs = [] ∨ 4 < cs.length then none
  else cs.foldlM (fun n c => (hexDigit c).map fun k => 16 * n + k) 0

/-- The groups of an address, the last of which may be a dotted quad. -/
def groups : List (List Char) → Option Bytes
  | [] => some []
  | [last] => if '.' ∈ last then ipv4 last else (hextet last).map be16
  | part :: parts => do some (be16 (← hextet part) ++ (← groups parts))

def hextets (parts : List (List Char)) : Option Bytes :=
  (parts.mapM hextet).map fun ws => ws.flatMap be16

/-- `::` stands for the groups that are missing, one at least. -/
def abbreviated (high low : List (List Char)) : Option Bytes := do
  let h ← hextets high
  let l ← groups low
  if h.length + l.length ≤ 14 then
    some (h ++ List.replicate (16 - (h.length + l.length)) 0 ++ l)
  else none

/-- The text before and after the first `::`. -/
def splitGap : List Char → Option (List Char × List Char)
  | ':' :: ':' :: rest => some ([], rest)
  | c :: cs => (splitGap cs).map fun r => (c :: r.1, r.2)
  | [] => none

def splitColons (cs : List Char) : List (List Char) := if cs = [] then [] else cs.splitOn ':'

def ipv6 (cs : List Char) : Option Bytes :=
  match splitGap cs with
  | some (high, low) => abbreviated (splitColons high) (splitColons low)
  | none => (groups (splitColons cs)).filter fun d => d.length = 16

/-- `ipaddress.ip_address(s).packed`. -/
def ipAddress (s : String) : Option Bytes := (ipv4 s.toList).or (ipv6 s.toList)

example : ipAddress "2001:DB8::1" = ipAddress "2001:0db8:0:0:0:0:0:1" := by decide

/-! ## Words and bytes -/

theorem be16_u16 (a b : UInt8) : be16 (u16 a b) = [a, b] := by
  have ha := a.toNat_lt
  have hb := b.toNat_lt
  have hhigh : u16 a b / 256 = a.toNat := by
    simp only [u16]
    omega
  have hlow : u16 a b % 256 = b.toNat := by
    simp only [u16]
    omega
  rw [be16, hhigh, hlow, UInt8.ofNat_toNat, UInt8.ofNat_toNat]

theorem lt_of_mem_words {d : Bytes} {w : Nat} (h : w ∈ words d) : w < 65536 := by
  induction d using words.induct with
  | case1 hi lo rest ih =>
    rw [words, List.mem_cons] at h
    rcases h with rfl | h
    · exact u16_lt hi lo
    · exact ih h
  | case2 d hd => simp [words.eq_2 d hd] at h

/-- The bytes of groups of an address. -/
def wordBytes (ws : List Nat) : Bytes := ws.flatMap be16

theorem wordBytes_words {d : Bytes} (h : d.length % 2 = 0) : wordBytes (words d) = d := by
  unfold wordBytes
  induction d using words.induct with
  | case1 hi lo rest ih =>
    simp only [List.length_cons] at h
    rw [words, List.flatMap_cons, be16_u16, ih (by omega)]
    rfl
  | case2 d hd =>
    rcases d with _ | ⟨a, _ | ⟨b, rest⟩⟩
    · rfl
    · simp at h
    · exact absurd rfl (hd a b rest)

@[simp] theorem length_wordBytes (ws : List Nat) : (wordBytes ws).length = 2 * ws.length := by
  unfold wordBytes
  induction ws with
  | nil => rfl
  | cons w ws ih =>
    rw [List.flatMap_cons, List.length_append, ih, length_be16, List.length_cons]
    omega

theorem wordBytes_append (ws ws' : List Nat) : wordBytes (ws ++ ws') = wordBytes ws ++ wordBytes ws' :=
  List.flatMap_append

theorem wordBytes_zeros (n : Nat) : wordBytes (List.replicate n 0) = List.replicate (2 * n) 0 := by
  induction n with
  | zero => rfl
  | succ n ih =>
    rw [List.replicate_succ, Nat.mul_succ, Nat.add_comm, List.replicate_add, ← ih]
    rfl

theorem drop_wordBytes (k : Nat) (ws : List Nat) : (wordBytes ws).drop (2 * k) = wordBytes (ws.drop k) := by
  induction k generalizing ws with
  | zero => rfl
  | succ k ih =>
    cases ws with
    | nil => simp [wordBytes]
    | cons w ws => exact ih ws

theorem length_words {d : Bytes} (h : d.length = 16) : (words d).length = 8 := by
  have hbytes := congrArg List.length (wordBytes_words (d := d) (by omega))
  rw [length_wordBytes, h] at hbytes
  omega

/-! ## Groups read back -/

theorem hexDigit_digitChar {k : Nat} (h : k < 16) : hexDigit k.digitChar = some k := by
  have hall : ∀ k < 16, hexDigit k.digitChar = some k := by decide
  exact hall k h

theorem hex_ne_nil (n : Nat) : hex n ≠ [] := Nat.toDigits_ne_nil

theorem foldlM_hex (n : Nat) :
    (hex n).foldlM (fun n c => (hexDigit c).map fun k => 16 * n + k) 0 = some n := by
  induction n using Nat.strongRecOn with
  | _ n ih =>
    unfold hex
    rw [Nat.toDigits_eq_if (by decide)]
    split
    · simp [hexDigit_digitChar ‹_›]
    · have hdigit := hexDigit_digitChar (Nat.mod_lt n (show 0 < 16 by decide))
      have hhigh := ih (n / 16) (by omega)
      unfold hex at hhigh
      rw [List.foldlM_append, hhigh]
      simp only [List.foldlM_cons, List.foldlM_nil, hdigit, Option.map_some]
      exact congrArg some (Nat.div_add_mod n 16)

theorem hextet_hex {n : Nat} (h : n < 65536) : hextet (hex n) = some n := by
  have hlen : (hex n).length ≤ 4 := (Nat.length_toDigits_le_iff (by decide) (by decide)).mpr h
  rw [hextet, if_neg (by simp [hex_ne_nil]; omega), foldlM_hex]

theorem not_mem_hex {c : Char} (n : Nat) (h : hexDigit c = none) : c ∉ hex n := by
  induction n using Nat.strongRecOn with
  | _ n ih =>
    have hne : ∀ k < 16, c ≠ k.digitChar := by
      rintro k hk rfl
      rw [hexDigit_digitChar hk] at h
      cases h
    unfold hex at ih ⊢
    rw [Nat.toDigits_eq_if (by decide)]
    split
    · rw [List.mem_singleton]
      exact hne n ‹_›
    · rw [List.mem_append, List.mem_singleton, not_or]
      exact ⟨ih (n / 16) (by omega), hne _ (Nat.mod_lt _ (by decide))⟩

variable {ws : List Nat}

theorem hextets_hex (h : ∀ w ∈ ws, w < 65536) : hextets (ws.map hex) = some (wordBytes ws) := by
  have hws : (ws.map hex).mapM hextet = some ws := by
    induction ws with
    | nil => rfl
    | cons w ws ih =>
      rw [List.map_cons, List.mapM_cons, hextet_hex (h w List.mem_cons_self),
        ih fun x hx => h x (List.mem_cons_of_mem _ hx)]
      rfl
  rw [hextets, hws]
  rfl

theorem groups_hex (h : ∀ w ∈ ws, w < 65536) : groups (ws.map hex) = some (wordBytes ws) := by
  induction ws with
  | nil => rfl
  | cons w ws ih =>
    have hw := hextet_hex (h w List.mem_cons_self)
    cases ws with
    | nil =>
      rw [List.map_singleton, groups, if_neg (not_mem_hex w (by decide)), hw]
      exact congrArg some (List.append_nil _).symm
    | cons x ws =>
      have hrest := ih fun y hy => h y (List.mem_cons_of_mem _ hy)
      rw [List.map_cons, List.map_cons, groups, hw, ← List.map_cons, hrest]
      · rfl
      · simp

/-! ## The gap is found -/

theorem splitGap_cons {c : Char} {cs : List Char} (h : c ≠ ':' ∨ cs.head? ≠ some ':') :
    splitGap (c :: cs) = (splitGap cs).map fun r => (c :: r.1, r.2) := by
  apply splitGap.eq_2 c cs
  rintro rest rfl rfl
  simp at h

theorem splitGap_append {t : List Char} (h : ':' ∉ t) (rest : List Char) :
    splitGap (t ++ rest) = (splitGap rest).map fun r => (t ++ r.1, r.2) := by
  induction t with
  | nil => simp
  | cons c t ih =>
    have hc : c ≠ ':' := fun hc => h (hc ▸ List.mem_cons_self)
    rw [List.cons_append, splitGap_cons (.inl hc), ih fun hm => h (List.mem_cons_of_mem _ hm),
      Option.map_map]
    rfl

theorem colons_cons_cons (w x : Nat) (ws : List Nat) :
    colons (w :: x :: ws) = hex w ++ ':' :: colons (x :: ws) := by
  simp [colons, List.intercalate]

theorem head?_colons (w : Nat) (ws : List Nat) (rest : List Char) :
    (colons (w :: ws) ++ rest).head? ≠ some ':' := by
  obtain ⟨c, cs, hhex⟩ := List.exists_cons_of_ne_nil (hex_ne_nil w)
  have hc : c ≠ ':' := by
    rintro rfl
    exact not_mem_hex w (by decide) (hhex ▸ List.mem_cons_self)
  have hhead : (colons (w :: ws)).head? = some c := by
    cases ws with
    | nil => simp [colons, hhex]
    | cons x ws => simp [colons_cons_cons, hhex]
  rw [List.head?_append, hhead]
  simpa using hc

/-- Groups written out hold no gap. -/
theorem splitGap_colons (ws : List Nat) (rest : List Char) :
    splitGap (colons ws ++ rest) = (splitGap rest).map fun r => (colons ws ++ r.1, r.2) := by
  induction ws with
  | nil => simp [colons]
  | cons w ws ih =>
    have hw : ':' ∉ hex w := not_mem_hex w (by decide)
    cases ws with
    | nil =>
      have hone : colons [w] = hex w := by simp [colons]
      rw [hone, splitGap_append hw]
    | cons x ws =>
      rw [colons_cons_cons, List.append_assoc, splitGap_append hw, List.cons_append,
        splitGap_cons (.inr (head?_colons x ws rest)), ih, Option.map_map, Option.map_map]
      refine congrFun (congrArg _ (funext fun r => ?_)) _
      simp

theorem splitColons_intercalate {parts : List (List Char)} (h : ∀ p ∈ parts, p ≠ [] ∧ ':' ∉ p) :
    splitColons ([':'].intercalate parts) = parts := by
  cases parts with
  | nil => rfl
  | cons p parts =>
    have hne : [':'].intercalate (p :: parts) ≠ [] := by
      have hp := (h p List.mem_cons_self).1
      cases parts <;> simp [List.intercalate, hp]
    rw [splitColons, if_neg hne, List.splitOn_intercalate]
    · exact fun q hq => (h q hq).2
    · simp

theorem hex_part {p : List Char} {ws : List Nat} (h : p ∈ ws.map hex) : p ≠ [] ∧ ':' ∉ p := by
  obtain ⟨w, -, rfl⟩ := List.mem_map.mp h
  exact ⟨hex_ne_nil w, not_mem_hex w (by decide)⟩

theorem splitColons_colons (ws : List Nat) : splitColons (colons ws) = ws.map hex :=
  splitColons_intercalate fun _ => hex_part

/-- Groups written out with a gap. -/
theorem ipv6_gap {high : List Nat} (hhigh : ∀ w ∈ high, w < 65536) {low : List Char} {tail : Bytes}
    (hlow : groups (splitColons low) = some tail) (hlen : 2 * high.length + tail.length ≤ 14) :
    ipv6 (colons high ++ ':' :: ':' :: low) = some
      (wordBytes high ++ List.replicate (16 - (2 * high.length + tail.length)) 0 ++ tail) := by
  have hsplit : splitGap (colons high ++ ':' :: ':' :: low) = some (colons high, low) := by
    rw [splitGap_colons, splitGap, Option.map_some, List.append_nil]
  rw [ipv6, hsplit]
  simp only [abbreviated, splitColons_colons, hextets_hex hhigh, hlow]
  simp [hlen]

theorem ipv6_full {ws : List Nat} (h : ∀ w ∈ ws, w < 65536) (hlen : ws.length = 8) :
    ipv6 (colons ws) = some (wordBytes ws) := by
  have hsplit : splitGap (colons ws) = none := by
    have hnil := splitGap_colons ws []
    rwa [List.append_nil] at hnil
  rw [ipv6, hsplit]
  simp [splitColons_colons, groups_hex h, hlen]

/-! ## Rendered addresses read back -/

/-- The run `inet_ntop` compresses is a run of zeros. -/
theorem zeroRun_zeros (ws : List Nat) :
    (ws.drop (zeroRun ws).1).take (zeroRun ws).2 = List.replicate (zeroRun ws).2 0 := by
  have hrun : ∀ l : List Nat, l.take (l.takeWhile (· == 0)).length =
      List.replicate (l.takeWhile (· == 0)).length 0 := by
    intro l
    rw [← List.prefix_iff_eq_take.mp (List.takeWhile_prefix _)]
    refine List.eq_replicate_of_mem fun w hw => ?_
    simpa using List.mem_takeWhile_imp hw
  unfold zeroRun
  refine List.foldlRecOn (motive := fun r : Nat × Nat => (ws.drop r.1).take r.2 = List.replicate r.2 0)
    (List.range ws.length) _ rfl fun best hbest i _ => ?_
  dsimp only
  split
  · exact hrun (ws.drop i)
  · exact hbest

theorem zeroRun_split (ws : List Nat) :
    ws = ws.take (zeroRun ws).1 ++ List.replicate (zeroRun ws).2 0 ++
      ws.drop ((zeroRun ws).1 + (zeroRun ws).2) := by
  have hdrop : ws.drop (zeroRun ws).1 =
      List.replicate (zeroRun ws).2 0 ++ ws.drop ((zeroRun ws).1 + (zeroRun ws).2) := by
    rw [← zeroRun_zeros ws, ← List.drop_drop, List.take_append_drop]
  rw [List.append_assoc, ← hdrop, List.take_append_drop]

theorem toList_dotted (a b c d : UInt8) : (dotted a b c d).toList =
    decimal a.toNat ++ '.' :: (decimal b.toNat ++ '.' :: (decimal c.toNat ++ '.' :: decimal d.toNat)) := by
  simp [dotted, List.intercalate]

theorem colon_not_mem_dotted (a b c d : UInt8) : ':' ∉ (dotted a b c d).toList := by
  have hdigits : ∀ x : UInt8, ':' ∉ decimal x.toNat := fun x hx =>
    absurd (isDigit_of_mem_decimal hx) (by decide)
  simp [toList_dotted, hdigits]

section Tail

variable {d : Bytes}

theorem quadTail_eq (h : d.length = 16) :
    ∃ a b c e, d.drop 12 = [a, b, c, e] ∧ quadTail d = (dotted a b c e).toList := by
  have hlen : (d.drop 12).length = 4 := by rw [List.length_drop, h]
  unfold quadTail
  match d.drop 12, hlen with
  | [a, b, c, e], _ => exact ⟨a, b, c, e, rfl, rfl⟩

/-- A dotted tail behind the groups `front`. -/
theorem groups_quadTail (h : d.length = 16) {front : List Nat} (hfront : ∀ w ∈ front, w < 65536) :
    groups (splitColons ([':'].intercalate (front.map hex ++ [quadTail d]))) =
      some (wordBytes front ++ d.drop 12) := by
  obtain ⟨a, b, c, e, htail, hquad⟩ := quadTail_eq h
  have hdot : '.' ∈ quadTail d := by simp [hquad, toList_dotted]
  have hparts : ∀ p ∈ front.map hex ++ [quadTail d], p ≠ [] ∧ ':' ∉ p := by
    intro p hp
    rcases List.mem_append.mp hp with hp | hp
    · exact hex_part hp
    · rw [List.mem_singleton.mp hp]
      exact ⟨List.ne_nil_of_mem hdot, hquad ▸ colon_not_mem_dotted a b c e⟩
  rw [splitColons_intercalate hparts, htail]
  clear hparts
  induction front with
  | nil =>
    rw [List.map_nil, List.nil_append, groups, if_pos hdot, hquad, ipv4_dotted]
    rfl
  | cons w front ih =>
    rw [List.map_cons, List.cons_append, groups, hextet_hex (hfront w List.mem_cons_self),
      ih fun x hx => hfront x (List.mem_cons_of_mem _ hx)]
    · rfl
    · simp

/-- Groups with the longest run of two zeros or more left out. -/
def compressed (ws : List Nat) : List Char :=
  let run := zeroRun ws
  if 2 ≤ run.2 then colons (ws.take run.1) ++ [':', ':'] ++ colons (ws.drop (run.1 + run.2))
  else colons ws

theorem addrText_compressed (ws : List Nat) : AddrText (compressed ws) := by
  have h2 : AddrText [':', ':'] := by simp [AddrText]
  unfold compressed
  dsimp only
  split
  · exact ((addrText_colons _).append h2).append (addrText_colons _)
  · exact addrText_colons _

/-- Compressed groups read back. -/
theorem ipv6_compressed (h : d.length = 16) : ipv6 (compressed (words d)) = some d := by
  obtain ⟨ws, hws⟩ : ∃ ws, ws = words d := ⟨_, rfl⟩
  have hd : wordBytes ws = d := hws ▸ wordBytes_words (by omega)
  have hlen : ws.length = 8 := hws ▸ length_words h
  have hlt : ∀ w ∈ ws, w < 65536 := fun w hw => lt_of_mem_words (hws ▸ hw)
  have hsplit := congrArg wordBytes (zeroRun_split ws)
  rw [wordBytes_append, wordBytes_append, wordBytes_zeros, hd] at hsplit
  rw [← hws]
  unfold compressed
  dsimp only
  split
  · have hhigh : ∀ w ∈ ws.take (zeroRun ws).1, w < 65536 := fun w hw =>
      hlt w (List.mem_of_mem_take hw)
    have hlow : ∀ w ∈ ws.drop ((zeroRun ws).1 + (zeroRun ws).2), w < 65536 := fun w hw =>
      hlt w (List.mem_of_mem_drop hw)
    have hbytes := congrArg List.length hsplit
    simp only [List.length_append, length_wordBytes, List.length_replicate, h] at hbytes
    rw [List.append_assoc, List.cons_append, List.cons_append, List.nil_append, ipv6_gap hhigh
      (by rw [splitColons_colons, groups_hex hlow]) (by rw [length_wordBytes]; omega)]
    refine congrArg some (Eq.trans ?_ hsplit.symm)
    rw [length_wordBytes]
    congr 3
    omega
  · rw [ipv6_full hlt hlen, hd]

/-- **What `inet_ntop` writes reads back**, in each of its four forms. -/
theorem ipv6_ipv6Text (h : d.length = 16) : ipv6 (ipv6Text d) = some d := by
  obtain ⟨ws, hws⟩ : ∃ ws, ws = words d := ⟨_, rfl⟩
  have hd : wordBytes ws = d := hws ▸ wordBytes_words (by omega)
  have hsplit := congrArg wordBytes (zeroRun_split ws)
  rw [wordBytes_append, wordBytes_append, wordBytes_zeros, hd] at hsplit
  have htail : ∀ k, wordBytes (ws.drop k) = d.drop (2 * k) := fun k => by rw [← drop_wordBytes, hd]
  have hlen12 : (d.drop 12).length = 4 := by rw [List.length_drop, h]
  simp only [ipv6Text, ← hws]
  split
  · -- `::a.b.c.d`
    rename_i hrun
    have hlow := groups_quadTail h (show ∀ w ∈ ([] : List Nat), w < 65536 by simp)
    have hgap := ipv6_gap (show ∀ w ∈ ([] : List Nat), w < 65536 by simp) hlow
      (by simp [wordBytes, hlen12])
    rw [hrun.1, hrun.2, htail 6] at hsplit
    refine Eq.trans ?_ (hgap.trans (congrArg some ?_))
    · simp [colons]
    · refine Eq.trans ?_ hsplit.symm
      simp [wordBytes, hlen12]
  · split
    · -- `::ffff:a.b.c.d`
      rename_i hrun
      have hlow := groups_quadTail h (show ∀ w ∈ [0xffff], w < 65536 by simp)
      have hgap := ipv6_gap (show ∀ w ∈ ([] : List Nat), w < 65536 by simp) hlow
        (by simp [hlen12])
      have hword : ws.drop 5 = 0xffff :: ws.drop 6 := by
        obtain ⟨hlt5, hw⟩ := List.getElem?_eq_some_iff.mp hrun.2.2
        rw [List.drop_eq_getElem_cons hlt5, hw]
      rw [hrun.1, hrun.2.1, hword] at hsplit
      refine Eq.trans ?_ (hgap.trans (congrArg some ?_))
      · have hffff : hex 0xffff = ['f', 'f', 'f', 'f'] := by decide
        simp [colons, List.intercalate, hffff]
      · refine Eq.trans ?_ hsplit.symm
        rw [show 0xffff :: ws.drop 6 = [0xffff] ++ ws.drop 6 from rfl, wordBytes_append, htail 6]
        simp [wordBytes, hlen12]
    · have hcompressed := ipv6_compressed h
      rwa [← hws] at hcompressed

end Tail

/-! ## One text is rendered for an address -/

/-- The text `decode` shows for a packed address. -/
def rendered (d : Bytes) : String :=
  match d with
  | [a, b, c, e] => dotted a b c e
  | d => String.ofList (ipv6Text d)

section Rendered

variable {d : Bytes} {s : String}

theorem inetNtoa_eq_ok : inetNtoa d = .ok s ↔ d.length = 4 ∧ s = rendered d := by
  constructor
  · intro h
    unfold inetNtoa at h
    split at h
    · cases h
      exact ⟨rfl, rfl⟩
    · cases h
  · rintro ⟨hlen, rfl⟩
    match d, hlen with
    | [_, _, _, _], _ => rfl

theorem rendered_v6 (h : d.length = 16) : rendered d = String.ofList (ipv6Text d) := by
  unfold rendered
  split
  · cases h
  · rfl

theorem inetNtop_eq_ok : inetNtop d = .ok s ↔ d.length = 16 ∧ s = rendered d := by
  constructor
  · intro h
    by_cases hlen : d.length = 16
    · rw [inetNtop_ok hlen] at h
      exact ⟨hlen, (Except.ok.inj h).symm.trans (rendered_v6 hlen).symm⟩
    · rw [inetNtop, if_neg hlen] at h
      cases h
  · rintro ⟨hlen, rfl⟩
    rw [inetNtop_ok hlen, rendered_v6 hlen]

theorem ipv6_dotted (a b c e : UInt8) : ipv6 (dotted a b c e).toList = none := by
  have hcolon := colon_not_mem_dotted a b c e
  have hdot : '.' ∈ (dotted a b c e).toList := by simp [toList_dotted]
  have hsplit : splitGap (dotted a b c e).toList = none := by
    have hnil := splitGap_append hcolon []
    rwa [List.append_nil] at hnil
  rw [ipv6, hsplit, splitColons, if_neg (List.ne_nil_of_mem hdot), List.splitOn_eq_singleton hcolon]
  simp [groups, hdot, ipv4_dotted]

theorem length_ipv6 {cs : List Char} (h : ipv6 cs = some d) : d.length = 16 := by
  unfold ipv6 at h
  split at h
  · obtain ⟨high, -, h⟩ := Option.bind_eq_some_iff.mp h
    obtain ⟨low, -, h⟩ := Option.bind_eq_some_iff.mp h
    split at h
    · obtain rfl := Option.some.inj h
      simp only [List.length_append, List.length_replicate]
      omega
    · cases h
  · exact of_decide_eq_true (Option.filter_eq_some_iff.mp h).2

/-- An IPv4 address has no text but the rendered one; an IPv6 address may. -/
theorem ipAddress_inv (h : ipAddress s = some d) :
    d.length = 4 ∧ s = rendered d ∨ d.length = 16 ∧ ipv6 s.toList = some d := by
  rcases Option.or_eq_some_iff.mp h with h | ⟨-, h⟩
  · obtain ⟨a, b, c, e, rfl, hs⟩ := ipv4_inv h
    exact .inl ⟨rfl, String.toList_injective hs⟩
  · exact .inr ⟨length_ipv6 h, h⟩

/-- **Rendered addresses read back as themselves.** -/
theorem ipAddress_rendered (h : d.length = 4 ∨ d.length = 16) : ipAddress (rendered d) = some d := by
  rcases h with h | h
  · match d, h with
    | [a, b, c, e], _ => rw [ipAddress, rendered, ipv4_dotted, Option.some_or]
  · have hread := ipv6_ipv6Text h
    have hv4 : ipv4 (ipv6Text d) = none := by
      refine Option.eq_none_iff_forall_ne_some.mpr fun x hx => ?_
      obtain ⟨a, b, c, e, -, hcs⟩ := ipv4_inv hx
      rw [hcs, ipv6_dotted] at hread
      cases hread
    rw [ipAddress, rendered_v6 h, String.toList_ofList, hv4, hread, Option.none_or]

theorem ipAddress_empty : ipAddress "" = none := by decide

end Rendered

end Pyscan.Py
