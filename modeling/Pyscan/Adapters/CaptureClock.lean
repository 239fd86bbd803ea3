import Pyscan.Adapters.PcapRefusal
import Pyscan.Adapters.PcapngFile
import Pyscan.Lib.Rounding

/-!
# The clock of an alert

Every alert is printed under the wall clock of its packet's timestamp, and
entered in the evidence timeline under it. The clock ends with the year 9999. A
classic capture cannot hold a later time; a pcapng capture can, in a packet of
an interface of coarse resolution. Times are the interpreter's own floats here, so
a tick count just below that year is rounded up into it. **The clock of every
record returns exactly when** the capture has no such packet (`clocks_return`).
-/

namespace Pyscan

open Py PcapReader

/-- The first second of the year 10000. -/
def yearTenThousand : ℚ := 253402300800

namespace Py

/-- `datetime.fromtimestamp(ts, tz=UTC)`, as microseconds since the epoch; years 1 to 9999. -/
def fromtimestamp (ts : ℚ) : Result ℤ :=
  if -62135596800 ≤ ts ∧ ts < yearTenThousand then .ok (Rounding.roundHalfEven (ts * 10 ^ 6))
  else .error .valueError

/-- A number in at least two decimal digits. -/
def decPad (n : Nat) : String := if n < 10 then "0" ++ toString n else toString n

/-- `strftime("%H:%M:%S")`. -/
def strftime (micros : ℤ) : String :=
  let second := (micros / 10 ^ 6 % 86400).toNat
  decPad (second / 3600) ++ ":" ++ decPad (second / 60 % 60) ++ ":" ++ decPad (second % 60)

end Py

/-- A timestamp as a UTC wall clock, or the text for a missing one. -/
def wallClock (missing : String) (ts : ℚ) : Result String :=
  if ts = 0 then .ok missing else do .ok (strftime (← fromtimestamp ts))

/-- `_clock` of the alert console. -/
def AlertConsole.clock (ts : ℚ) : Result String := wallClock "--:--:--" ts

/-- `_clock` of the command line, for the evidence timeline. -/
def Cli.clock (ts : ℚ) : Result String := wallClock "--:--:--" ts

/-- Both clocks return a string. -/
def ClocksReturn (ts : ℚ) : Prop :=
  (∃ s, AlertConsole.clock ts = .ok s) ∧ ∃ s, Cli.clock ts = .ok s

theorem wallClock_returns {missing : String} {ts : ℚ} (h : 0 ≤ ts) :
    (∃ s, wallClock missing ts = .ok s) ↔ ts < yearTenThousand := by
  unfold wallClock fromtimestamp
  by_cases h0 : ts = 0
  · rw [if_pos h0, h0]
    exact iff_of_true ⟨missing, rfl⟩ (by norm_num [yearTenThousand])
  · rw [if_neg h0]
    by_cases hlate : ts < yearTenThousand
    · rw [if_pos ⟨by linarith, hlate⟩]
      exact iff_of_true ⟨_, rfl⟩ hlate
    · rw [if_neg fun hr => hlate hr.2]
      exact iff_of_false (by rintro ⟨s, ⟨⟩⟩) hlate

theorem clocksReturn_iff {ts : ℚ} (h : 0 ≤ ts) : ClocksReturn ts ↔ ts < yearTenThousand := by
  rw [ClocksReturn, AlertConsole.clock, Cli.clock, wallClock_returns h, and_self]

example : AlertConsole.clock (1700000000 + 1 / 2) = .ok "22:13:20" := by decide +kernel

/-! ## Late times -/

/-- A tick count of `q` units a second whose quotient, in floats, is no time before the year 10000:
from half a unit in the last place below it on, the quotient is rounded up to it. -/
def LateTicks (q : ℚ) (ticks : Nat) : Prop :=
  (yearTenThousand - 1 / 2 ^ 16) * binary64.float q ≤ binary64.float ticks

/-- What the clocks need of an arithmetic: a tick count is shown exactly when it is not late, and
seconds with their fraction always are. -/
structure Clocked [Floats] : Prop where
  ticks {q : ℚ} (ticks : Nat) (hq : 1 ≤ q) :
    ¬ ClocksReturn (truediv (float ticks) (float q)) ↔ LateTicks q ticks
  seconds {q : ℚ} {sec frac : Nat} (hq : 1 ≤ q) (hsec : sec < 256 ^ 4) (hfrac : frac < 256 ^ 4) :
    ClocksReturn (fadd (float sec) (truediv (float frac) (float q)))

theorem yearTenThousand_le_float {x : ℚ} (h : 0 ≤ x) :
    yearTenThousand ≤ binary64.float x ↔ yearTenThousand - 1 / 2 ^ 16 ≤ x := by
  have hbits := Rounding.le_toPrecision_iff (p := 53) (by decide) (n := 253402300800 * 2 ^ 15)
    (by decide) (by norm_num) (by norm_num) (-15) h
  have hyear : ((253402300800 * 2 ^ 15 : ℤ) : ℚ) * 2 ^ (-15 : ℤ) = yearTenThousand := by
    norm_num [yearTenThousand]
  have hhalf : (((253402300800 * 2 ^ 15 : ℤ) : ℚ) - 1 / 2) * 2 ^ (-15 : ℤ) =
      yearTenThousand - 1 / 2 ^ 16 := by
    norm_num [yearTenThousand]
  rwa [hyear, hhalf] at hbits

theorem one_le_float {q : ℚ} (h : 1 ≤ q) : 1 ≤ binary64.float q := by
  have hone := binary64_zpow 0
  rw [zpow_zero] at hone
  exact hone.symm.trans_le (binary64_mono zero_le_one h)

/-- Rounding does not take a number over a power of two. -/
theorem float_le_two_pow {x : ℚ} (hx : 0 ≤ x) {k : Nat} (h : x ≤ 2 ^ k) : binary64.float x ≤ 2 ^ k := by
  have hpow := binary64_zpow k
  rw [zpow_natCast] at hpow
  exact (binary64_mono hx h).trans_eq hpow

theorem ticks_binary64 {q : ℚ} (ticks : Nat) (hq : 1 ≤ q) :
    ¬ ClocksReturn (@truediv binary64 (binary64.float ticks) (binary64.float q)) ↔ LateTicks q ticks := by
  have hpos := zero_lt_one.trans_le (one_le_float hq)
  have hquot : 0 ≤ binary64.float ticks / binary64.float q :=
    div_nonneg (binary64_nonneg (Nat.cast_nonneg _)) hpos.le
  change ¬ ClocksReturn (binary64.float (binary64.float ticks / binary64.float q)) ↔ _
  rw [clocksReturn_iff (binary64_nonneg hquot), not_lt, yearTenThousand_le_float hquot,
    le_div_iff₀ hpos, LateTicks]

theorem field_binary64 {n : Nat} (h : n < 256 ^ 4) :
    0 ≤ binary64.float n ∧ binary64.float n ≤ 2 ^ 32 := by
  have hle : (n : ℚ) ≤ 2 ^ 32 := by exact_mod_cast h.le
  exact ⟨binary64_nonneg (Nat.cast_nonneg n), float_le_two_pow (Nat.cast_nonneg n) hle⟩

/-- The time of a classic record is at most `2 ^ 33` seconds. -/
theorem seconds_binary64 {q : ℚ} {sec frac : Nat} (hq : 1 ≤ q) (hsec : sec < 256 ^ 4)
    (hfrac : frac < 256 ^ 4) :
    ClocksReturn (@fadd binary64 (binary64.float sec)
      (@truediv binary64 (binary64.float frac) (binary64.float q))) := by
  obtain ⟨hsec0, hsec⟩ := field_binary64 hsec
  obtain ⟨hfrac0, hfrac⟩ := field_binary64 hfrac
  have hone := one_le_float hq
  have hdiv0 : 0 ≤ binary64.float frac / binary64.float q := div_nonneg hfrac0 (by linarith)
  have hquot := float_le_two_pow hdiv0 ((div_le_self hfrac0 hone).trans hfrac)
  have hquot0 := binary64_nonneg hdiv0
  have hsum := float_le_two_pow (k := 33) (add_nonneg hsec0 hquot0) (by linarith)
  refine (clocksReturn_iff (binary64_nonneg (add_nonneg hsec0 hquot0))).mpr (hsum.trans_lt ?_)
  norm_num [yearTenThousand]

theorem clocked_binary64 : @Clocked binary64 := @Clocked.mk binary64 ticks_binary64 seconds_binary64

/-- In microseconds, the last sixteen ticks before the year 10000 are late. -/
example : LateTicks (10 ^ 6) 253402300799999984 ∧ ¬ LateTicks (10 ^ 6) 253402300799999983 := by
  unfold LateTicks
  decide +kernel

/-! ## Interfaces of a section -/

namespace PcapReader

/-- The interfaces of a section declare these units per second, exactly. -/
def Section.Declares [Floats] (s : Section) (units : List ℚ) : Prop :=
  s.interfaces.map Prod.snd = units.map float ∧ ∀ q ∈ units, 1 ≤ q

theorem Section.declares_nil [Floats] (e : Endian) : Section.Declares ⟨e, []⟩ [] :=
  ⟨rfl, by simp⟩

theorem Section.Declares.append [Floats] {s : Section} {units : List ℚ} (h : s.Declares units)
    {linktype : Nat} {q : ℚ} (hq : 1 ≤ q) :
    Section.Declares ⟨s.endian, s.interfaces ++ [(linktype, float q)]⟩ (units ++ [q]) := by
  refine ⟨by simp [h.1], fun r hr => ?_⟩
  rcases List.mem_append.mp hr with hr | hr
  · exact h.2 r hr
  · rwa [List.mem_singleton.mp hr]

/-- The divisor of an interface, declared or not. -/
theorem Section.Declares.divisor [Floats] {s : Section} {units : List ℚ} (h : s.Declares units)
    (i : Nat) : (interface s.interfaces i).2 = float (units.getD i (10 ^ 6)) := by
  have hget : (s.interfaces[i]?).map Prod.snd = (units[i]?).map float := by
    rw [← List.getElem?_map, ← List.getElem?_map, h.1]
  rw [interface, List.getD_eq_getElem?_getD]
  cases hi : s.interfaces[i]? <;> cases hu : units[i]? <;> rw [hi, hu] at hget
  · rfl
  · cases hget
  · cases hget
  · exact Option.some.inj hget

theorem Section.Declares.one_le [Floats] {s : Section} {units : List ℚ} (h : s.Declares units)
    (i : Nat) : 1 ≤ units.getD i (10 ^ 6) := by
  rw [List.getD_eq_getElem?_getD]
  cases hi : units[i]? with
  | none => norm_num
  | some q => exact h.2 q (List.mem_of_getElem? hi)

end PcapReader

end Pyscan

namespace Pyscan.Pcapng

open Py Framed PcapReader

/-! ## Interfaces and packets of a block -/

/-- An interface block that declares `q` units per second. -/
def InterfaceUnits (e : Endian) (body : Bytes) (q : ℚ) : Prop :=
  if body.length < 8 then q = 10 ^ 6 else Resolution e (body.drop 8) q

/-- A packet block that holds its frame in full, stamped in the year 10000 or later. An interface
that is not declared counts microseconds. -/
structure LateBlock (e : Endian) (units : List ℚ) (type : Nat) (body : Bytes) : Prop where
  packet : type = btEpb ∨ type = btPb
  head : 20 ≤ body.length
  whole : 20 + e.value (slice body 12 16) ≤ body.length
  late : LateTicks (units.getD (e.value (slice body 0 (if type = btEpb then 4 else 2))) (10 ^ 6))
    (e.value (slice body 4 8) * 2 ^ 32 + e.value (slice body 8 12))

theorem InterfaceUnits.one_le {e : Endian} {body : Bytes} {q : ℚ} (h : InterfaceUnits e body q) :
    1 ≤ q := by
  unfold InterfaceUnits at h
  split at h
  · rw [h]
    norm_num
  · exact h.one_le

theorem parseIdb_ok [Floats] {e : Endian} {body : Bytes} {i : Interface}
    (h : parseIdb body e = .ok i) : ∃ q, InterfaceUnits e body q ∧ i.2 = float q := by
  unfold parseIdb at h
  unfold InterfaceUnits
  by_cases hlen : body.length < 8
  · rw [if_pos hlen] at h
    cases h
    exact ⟨10 ^ 6, by rw [if_pos hlen], rfl⟩
  · rw [if_neg hlen, Endian.unpackH_ok (by rw [List.length_take]; omega), ok_bind] at h
    obtain ⟨divisor, hread, hpair⟩ := bind_inv h
    cases hpair
    obtain ⟨q, hq, rfl⟩ := resolution_of_read hread
    exact ⟨q, by rwa [if_neg hlen], rfl⟩

theorem InterfaceUnits.parseIdb [Floats] {e : Endian} {body : Bytes} {q : ℚ}
    (h : InterfaceUnits e body q) : ∃ linktype, parseIdb body e = .ok (linktype, float q) := by
  unfold InterfaceUnits at h
  unfold PcapReader.parseIdb
  by_cases hlen : body.length < 8
  · rw [if_pos hlen] at h
    rw [if_pos hlen, h]
    exact ⟨1, rfl⟩
  · rw [if_neg hlen] at h
    rw [if_neg hlen, Endian.unpackH_ok (by rw [List.length_take]; omega), ok_bind, h.read, ok_bind]
    exact ⟨_, rfl⟩

/-- The packet of a packet block, with its interface and its tick count. -/
def stamped [Floats] (interfaces : List Interface) (index ticks caplen : Nat) (body : Bytes) :
    Option Record :=
  if 20 ≤ body.length ∧ 20 + caplen ≤ body.length then
    some (truediv (float ticks) (interface interfaces index).2, (interface interfaces index).1,
      slice body 20 (20 + caplen))
  else none

theorem slice_take {d : Bytes} {i j n : Nat} (h : j ≤ n) : slice (d.take n) i j = slice d i j := by
  rw [slice, slice, List.take_take, Nat.min_eq_left h]

/-- The two halves of a tick count. -/
theorem ticks_halves {e : Endian} {body : Bytes} {hi : Nat} (h : 12 ≤ body.length) :
    hi <<< 32 ||| e.value (slice body 8 12) = hi * 2 ^ 32 + e.value (slice body 8 12) := by
  have hlow := e.value_lt (slice body 8 12)
  rw [length_slice_of_le h] at hlow
  rw [← Nat.shiftLeft_add_eq_or_of_lt hlow, Nat.shiftLeft_eq]

section Packet

variable {e : Endian} {body : Bytes} {interfaces : List Interface}

theorem length_frame {caplen : Nat} (h : 20 ≤ body.length) :
    (slice body 20 (20 + caplen)).length < caplen ↔ ¬ (20 ≤ body.length ∧ 20 + caplen ≤ body.length) := by
  rw [length_slice]
  omega

theorem parseEpb_stamped [Floats] :
    parseEpb body e interfaces = .ok (stamped interfaces (e.value (slice body 0 4))
      (e.value (slice body 4 8) * 2 ^ 32 + e.value (slice body 8 12)) (e.value (slice body 12 16))
      body) := by
  unfold parseEpb stamped
  by_cases h : body.length < 20
  · rw [if_pos h, if_neg (by omega)]
  · have h20 : 20 ≤ body.length := by omega
    rw [if_neg h, Endian.unpackIIIII_ok (by rw [List.length_take]; omega), ok_bind]
    simp only [slice_take (show 4 ≤ 20 by decide), slice_take (show 8 ≤ 20 by decide),
      slice_take (show 12 ≤ 20 by decide), slice_take (show 16 ≤ 20 by decide),
      ticks_halves (show 12 ≤ body.length by omega)]
    by_cases hw : 20 ≤ body.length ∧ 20 + e.value (slice body 12 16) ≤ body.length
    · rw [if_neg ((length_frame h20).not.mpr (not_not.mpr hw)), if_pos hw]
    · rw [if_pos ((length_frame h20).mpr hw), if_neg hw]

theorem parseObsoletePb_stamped [Floats] :
    parseObsoletePb body e interfaces = .ok (stamped interfaces (e.value (slice body 0 2))
      (e.value (slice body 4 8) * 2 ^ 32 + e.value (slice body 8 12)) (e.value (slice body 12 16))
      body) := by
  unfold parseObsoletePb stamped
  by_cases h : body.length < 20
  · rw [if_pos h, if_neg (by omega)]
  · have h20 : 20 ≤ body.length := by omega
    rw [if_neg h, Endian.unpackHHIIII_ok (by rw [List.length_take]; omega), ok_bind]
    simp only [slice_take (show 2 ≤ 20 by decide), slice_take (show 8 ≤ 20 by decide),
      slice_take (show 12 ≤ 20 by decide), slice_take (show 16 ≤ 20 by decide),
      ticks_halves (show 12 ≤ body.length by omega)]
    by_cases hw : 20 ≤ body.length ∧ 20 + e.value (slice body 12 16) ≤ body.length
    · rw [if_neg ((length_frame h20).not.mpr (not_not.mpr hw)), if_pos hw]
    · rw [if_pos ((length_frame h20).mpr hw), if_neg hw]

end Packet

/-! ## What a block adds -/

section Added

variable [Floats] (hclock : Clocked) {s : Section} {units : List ℚ}

include hclock

theorem stamped_late (hs : s.Declares units) {index ticks caplen : Nat} {body : Bytes} :
    (∃ r ∈ stamped s.interfaces index ticks caplen body, ¬ ClocksReturn r.1) ↔
      20 ≤ body.length ∧ 20 + caplen ≤ body.length ∧
        LateTicks (units.getD index (10 ^ 6)) ticks := by
  unfold stamped
  by_cases h : 20 ≤ body.length ∧ 20 + caplen ≤ body.length
  · rw [if_pos h, hs.divisor, ← and_assoc, and_iff_right h, ← hclock.ticks _ (hs.one_le index)]
    simp only [Option.mem_some_iff, exists_eq_left']
  · rw [if_neg h]
    exact iff_of_false (by rintro ⟨_, ⟨⟩, -⟩) fun hc => h ⟨hc.1, hc.2.1⟩

/-- A block that is no interface block leaves the table alone, and its packet is late if it is. -/
theorem dispatch_packet (hs : s.Declares units) {type : Nat} (body : Bytes) (h : type ≠ btIdb) :
    ∃ packet, dispatch s type body = .ok (s.interfaces, packet) ∧
      ((∃ r ∈ packet, ¬ ClocksReturn r.1) ↔ LateBlock s.endian units type body) := by
  unfold dispatch
  rw [if_neg h]
  by_cases hepb : type = btEpb
  · rw [if_pos hepb, parseEpb_stamped, ok_bind]
    refine ⟨_, rfl, (stamped_late hclock hs).trans ⟨?_, ?_⟩⟩
    · rintro ⟨hhead, hwhole, hlate⟩
      exact ⟨.inl hepb, hhead, hwhole, by rw [if_pos hepb]; exact hlate⟩
    · rintro ⟨-, hhead, hwhole, hlate⟩
      rw [if_pos hepb] at hlate
      exact ⟨hhead, hwhole, hlate⟩
  · rw [if_neg hepb]
    by_cases hspb : type = btSpb
    · have hpb : ¬ (type = btEpb ∨ type = btPb) := by
        rw [hspb]
        decide
      rw [if_pos hspb]
      refine ⟨_, rfl, iff_of_false ?_ fun hl => hpb hl.packet⟩
      -- a Simple Packet Block has no timestamp: its time is 0
      rintro ⟨r, hr, hlate⟩
      unfold parseSpb at hr
      split at hr
      · cases hr
        exact hlate ((clocksReturn_iff le_rfl).mpr (by norm_num [yearTenThousand]))
      · cases hr
    · rw [if_neg hspb]
      by_cases hpb : type = btPb
      · rw [if_pos hpb, parseObsoletePb_stamped, ok_bind]
        refine ⟨_, rfl, (stamped_late hclock hs).trans ⟨?_, ?_⟩⟩
        · rintro ⟨hhead, hwhole, hlate⟩
          exact ⟨.inr hpb, hhead, hwhole, by rw [if_neg hepb]; exact hlate⟩
        · rintro ⟨-, hhead, hwhole, hlate⟩
          rw [if_neg hepb] at hlate
          exact ⟨hhead, hwhole, hlate⟩
      · rw [if_neg hpb]
        exact ⟨none, rfl, iff_of_false (by rintro ⟨_, ⟨⟩, -⟩) fun hl =>
          hl.packet.elim hepb hpb⟩

end Added

/-- An interface block adds an interface of the units it declares, or raises. -/
theorem dispatch_idb [Floats] {s : Section} {body : Bytes} {interfaces : List Interface}
    {packet : Option Record} (h : dispatch s btIdb body = .ok (interfaces, packet)) :
    packet = none ∧ ∃ linktype q, interfaces = s.interfaces ++ [(linktype, float q)] ∧
      InterfaceUnits s.endian body q := by
  unfold dispatch at h
  rw [if_pos rfl] at h
  obtain ⟨⟨linktype, divisor⟩, hi, hpair⟩ := bind_inv h
  cases hpair
  obtain ⟨q, hq, hfloat⟩ := parseIdb_ok hi
  exact ⟨rfl, linktype, q, by rw [← hfloat], hq⟩

/-! ## Late packets -/

/-- Complete blocks, and behind them a late packet: `units` are those the interfaces of the section
declare. -/
inductive Late : (e : Endian) → (units : List ℚ) → Bytes → Prop where
  | packet {e : Endian} {units : List ℚ} (b : Block) (rest : Bytes)
      (hlate : LateBlock e units b.type b.body) : Late e units (b.bytes e ++ rest)
  | shb {e : Endian} {units : List ℚ} (b : Shb) {rest : Bytes} (h : Late b.endian [] rest) :
      Late e units (b.bytes e ++ rest)
  | idb {e : Endian} {units : List ℚ} (b : Block) {q : ℚ} {rest : Bytes} (htype : b.type = btIdb)
      (hq : InterfaceUnits e b.body q) (h : Late e (units ++ [q]) rest) :
      Late e units (b.bytes e ++ rest)
  | other {e : Endian} {units : List ℚ} (b : Block) {rest : Bytes} (htype : b.type ≠ btIdb)
      (h : Late e units rest) : Late e units (b.bytes e ++ rest)

/-- Some record of the outcome has a time that a clock does not show. -/
def Unshown (r : Outcome Raised Record) : Prop := ∃ x ∈ r.items, ¬ ClocksReturn x.1

theorem unshown_prepend {out : List Record} {r : Outcome Raised Record} :
    Unshown (r.prepend out) ↔ (∃ x ∈ out, ¬ ClocksReturn x.1) ∨ Unshown r := by
  simp only [Unshown, Outcome.items_prepend, List.mem_append, or_and_right, exists_or]

theorem Late.unshown [Floats] (hclock : Clocked) {e : Endian} {units : List ℚ} {d : Bytes}
    (h : Late e units d) (s : Section) (hs : s.Declares units) (he : s.endian = e) :
    Unshown (blocks.run s d) := by
  induction h generalizing s with
  | packet b rest hlate =>
    subst he
    have hne : b.type ≠ btIdb := by
      rcases hlate.packet with h | h <;> rw [h] <;> decide
    obtain ⟨packet, hd, hiff⟩ := dispatch_packet hclock hs b.body hne
    have hturn := blockTurn_block s b rest
    rw [hd] at hturn
    rw [Reader.run_next (R := blocks) hturn, unshown_prepend]
    obtain ⟨r, hr, hrlate⟩ := hiff.mpr hlate
    exact .inl ⟨r, Option.mem_toList.mpr hr, hrlate⟩
  | shb b h ih =>
    subst he
    rw [Reader.run_next (R := blocks) (blockTurn_shb s b _), unshown_prepend]
    exact .inr (ih ⟨b.endian, []⟩ (Section.declares_nil _) rfl)
  | idb b htype hq h ih =>
    rename_i q rest
    subst he
    obtain ⟨linktype, hi⟩ := hq.parseIdb
    have hd : dispatch s b.type b.body = .ok (s.interfaces ++ [(linktype, float q)], none) := by
      rw [dispatch, if_pos htype, hi, ok_bind]
    have hturn := blockTurn_block s b rest
    rw [hd] at hturn
    rw [Reader.run_next (R := blocks) hturn, unshown_prepend]
    exact .inr (ih _ (hs.append hq.one_le) rfl)
  | other b htype h ih =>
    rename_i rest
    subst he
    obtain ⟨packet, hd, -⟩ := dispatch_packet hclock hs b.body htype
    have hturn := blockTurn_block s b rest
    rw [hd] at hturn
    rw [Reader.run_next (R := blocks) hturn, unshown_prepend]
    exact .inr (ih _ hs rfl)

theorem late_of_unshown [Floats] (hclock : Clocked) (s : Section) (handle : Bytes) :
    ∀ units, s.Declares units → Unshown (blocks.run s handle) → Late s.endian units handle := by
  refine Reader.run_rule (R := blocks) (P := fun s handle r => ∀ units, s.Declares units →
    Unshown r → Late s.endian units handle) ?_ ?_ ?_ s handle
  · rintro _ _ _ _ _ _ ⟨_, ⟨⟩, _⟩
  · rintro _ _ _ _ _ ⟨_, ⟨⟩, _⟩
  · intro s handle s' handle' out r hturn ih units hs hr
    rw [unshown_prepend] at hr
    replace hturn : blockTurn s handle = .ok (some (s', handle', out)) := hturn
    rcases blockTurn_inv s handle with hstop | ⟨text, hraise⟩ | ⟨b, rest, rfl⟩
    · cases hturn.symm.trans hstop
    · cases hturn.symm.trans hraise
    · cases b with
      | shb b =>
        cases hturn.symm.trans (blockTurn_shb s b rest)
        exact .shb b (ih [] (Section.declares_nil _) (hr.resolve_left (by rintro ⟨_, ⟨⟩, _⟩)))
      | block b =>
        obtain ⟨⟨interfaces, packet⟩, hd, hgo⟩ := bind_inv ((blockTurn_block s b rest).symm.trans hturn)
        cases hgo
        replace hd : dispatch s b.type b.body = .ok (interfaces, packet) := by
          cases hdisp : dispatch s b.type b.body with
          | error kind => rw [hdisp] at hd; cases hd
          | ok x => rw [hdisp] at hd; cases hd; rfl
        by_cases htype : b.type = btIdb
        · rw [htype] at hd
          obtain ⟨rfl, linktype, q, rfl, hq⟩ := dispatch_idb hd
          exact .idb b htype hq (ih _ (hs.append hq.one_le) (hr.resolve_left (by rintro ⟨_, ⟨⟩, _⟩)))
        · obtain ⟨packet', hd', hiff⟩ := dispatch_packet hclock hs b.body htype
          cases hd.symm.trans hd'
          rcases hr with ⟨x, hx, hlate⟩ | hr
          · exact .packet b _ (hiff.mp ⟨x, Option.mem_toList.mp hx, hlate⟩)
          · exact .other b htype (ih _ hs hr)

/-! ## Captures -/

section Classic

variable [Floats] (hclock : Clocked)

include hclock

/-- A classic record is shown: its two fields make a time below `2 ^ 33` seconds. -/
theorem records_shown (g : Global) (hg : ∃ q : ℚ, 1 ≤ q ∧ g.divisor = float q) (handle : Bytes) :
    ¬ Unshown (records.run g handle) := by
  refine Reader.run_rule (R := records)
    (P := fun g _ r => (∃ q : ℚ, 1 ≤ q ∧ g.divisor = float q) → ¬ Unshown r) ?_ ?_ ?_ g handle hg
  · rintro _ _ _ _ _ ⟨_, ⟨⟩, _⟩
  · rintro _ _ _ _ ⟨_, ⟨⟩, _⟩
  · intro g handle g' handle' out r hturn ih hg
    rw [unshown_prepend]
    replace hturn : recordTurn g handle = .ok (some (g', handle', out)) := hturn
    unfold recordTurn at hturn
    dsimp only [handleRead] at hturn
    split at hturn
    · cases hturn
    · rename_i hraw
      have hlen : (handle.take 16).length = 16 := by
        rw [List.length_take] at hraw ⊢
        omega
      have hsec := g.endian.value_lt (slice (handle.take 16) 0 4)
      have hfrac := g.endian.value_lt (slice (handle.take 16) 4 8)
      rw [length_slice_of_le (by omega)] at hsec hfrac
      rw [Endian.unpackIIII_ok hlen, call_ok, ok_bind] at hturn
      dsimp only at hturn
      split at hturn
      · cases hturn
      · split at hturn
        · cases hturn
        · cases hturn
          rintro (⟨x, hx, hlate⟩ | hr)
          · rw [List.mem_singleton] at hx
            subst hx
            obtain ⟨q, hq, hdiv⟩ := hg
            rw [hdiv] at hlate
            exact hlate (hclock.seconds hq hsec hfrac)
          · exact ih hg hr

theorem readPcap_shown {contents : Bytes} (h : contents.take 4 ≠ Endian.little.field 4 btShb) :
    ¬ Unshown (readPcap contents) := by
  have refused : ∀ e : Raised, ¬ Unshown ⟨[], some e⟩ := by
    rintro e ⟨_, ⟨⟩, _⟩
  unfold readPcap
  dsimp only
  split
  · exact refused _
  · rename_i hlen
    have hfour : (contents.take 4).length = 4 := by
      rw [List.length_take] at hlen ⊢
      omega
    split
    · unfold readClassic
      dsimp only
      split
      · exact refused _
      · rename_i hrest
        rw [Endian.unpackI_ok (by rw [length_slice_of_le (by omega)]), call_ok, ok_bind]
        refine records_shown hclock _ ?_ _
        dsimp only
        split
        · exact ⟨10 ^ 9, by norm_num, rfl⟩
        · exact ⟨10 ^ 6, by norm_num, rfl⟩
    · have hne := btShb_ne_value hfour h
      rw [Endian.unpackI_ok hfour, Endian.unpackI_ok hfour, call_ok, call_ok, ok_bind, ok_bind,
        if_neg (by simp [hne])]
      exact refused _

end Classic

/-- A pcapng capture with a late packet. -/
def LateCapture (contents : Bytes) : Prop :=
  contents.take 4 = Endian.little.field 4 btShb ∧ Late .little [] contents

theorem clocks_return_of [Floats] (hclock : Clocked) (contents : Bytes) :
    (∀ r ∈ (readPcap contents).items, ClocksReturn r.1) ↔ ¬ LateCapture contents := by
  have unshown_iff : (∀ r ∈ (readPcap contents).items, ClocksReturn r.1) ↔
      ¬ Unshown (readPcap contents) := by
    simp only [Unshown, not_exists, not_and, not_not]
  rw [unshown_iff]
  apply not_congr
  by_cases hshb : contents.take 4 = Endian.little.field 4 btShb
  · rw [readPcap_pcapng hshb, LateCapture, and_iff_right hshb]
    exact ⟨late_of_unshown hclock _ _ _ (Section.declares_nil _), fun h =>
      h.unshown hclock ⟨.little, []⟩ (Section.declares_nil _) rfl⟩
  · exact iff_of_false (readPcap_shown hclock hshb) fun h => hshb h.1

/-- **Every record's clock returns exactly when** the capture is no pcapng capture with a packet
whose time is, in floats, in the year 10000 or later. -/
theorem clocks_return (contents : Bytes) :
    (∀ r ∈ (@readPcap binary64 contents).items, ClocksReturn r.1) ↔ ¬ LateCapture contents :=
  @clocks_return_of binary64 clocked_binary64 contents

/-- The body of an interface block that counts seconds. -/
def secondsIdb : Bytes := [1, 0, 0, 0, 0xFF, 0xFF, 0, 0, 9, 0, 1, 0, 0, 0, 0, 0, 0, 0, 0, 0]

/-- The body of a packet block in the first second of the year 10000. -/
def secondsEpb : Bytes :=
  [0, 0, 0, 0, 58, 0, 0, 0, 0x80, 0x41, 0xF4, 0xFF, 1, 0, 0, 0, 1, 0, 0, 0, 0, 0, 0, 0]

/-- A section header, and these two blocks. -/
def seconds : Bytes :=
  [0x0A, 0x0D, 0x0D, 0x0A, 28, 0, 0, 0, 0x4D, 0x3C, 0x2B, 0x1A, 1, 0, 0, 0, 0xFF, 0xFF, 0xFF, 0xFF,
      0xFF, 0xFF, 0xFF, 0xFF, 28, 0, 0, 0] ++
    ([1, 0, 0, 0, 32, 0, 0, 0] ++ secondsIdb ++ [32, 0, 0, 0] ++
      ([6, 0, 0, 0, 36, 0, 0, 0] ++ secondsEpb ++ [36, 0, 0, 0]))

theorem dispatch_secondsIdb [Floats] :
    dispatch ⟨.little, []⟩ btIdb secondsIdb = .ok ([(1, float (10 ^ 0))], none) := by
  have hresol : timestampDivisor (secondsIdb.drop 8) .little = .ok (float (10 ^ 0)) :=
    timestampDivisor_resol (e := .little) (by decide : 1 < 2 ^ 16) (Nat.le_refl 1) 0 _
  rw [dispatch, if_pos rfl, parseIdb, if_neg (by decide), hresol]
  rfl

theorem dispatch_secondsEpb [Floats] {interfaces : List Interface} :
    dispatch ⟨.little, interfaces⟩ btEpb secondsEpb = .ok (interfaces,
      some (truediv (float (253402300800 : Nat)) (interface interfaces 0).2, (interface interfaces 0).1,
        [0])) := by
  have hticks : Endian.little.value (slice secondsEpb 4 8) * 2 ^ 32 +
      Endian.little.value (slice secondsEpb 8 12) = 253402300800 := by decide
  have hwhole : 20 ≤ secondsEpb.length ∧
      20 + Endian.little.value (slice secondsEpb 12 16) ≤ secondsEpb.length := by decide
  rw [dispatch, if_neg (by decide), if_pos rfl, parseEpb_stamped, hticks, stamped, if_pos hwhole]
  rfl

theorem seconds_read [Floats] :
    readPcap seconds = ⟨[(truediv (float (253402300800 : Nat)) (float (10 ^ 0)), 1, [0])], none⟩ := by
  have hshb : blocks.turn ⟨.little, []⟩ seconds = .ok (some (⟨.little, []⟩, seconds.drop 28, [])) := rfl
  have hidb : blocks.turn ⟨.little, []⟩ (seconds.drop 28) = (do
      let r ← call (dispatch ⟨.little, []⟩ btIdb secondsIdb)
      .ok (some (⟨.little, r.1⟩, seconds.drop 60, r.2.toList))) := rfl
  have hepb : blocks.turn ⟨.little, [(1, float (10 ^ 0))]⟩ (seconds.drop 60) = (do
      let r ← call (dispatch ⟨.little, [(1, float (10 ^ 0))]⟩ btEpb secondsEpb)
      .ok (some (⟨.little, r.1⟩, [], r.2.toList))) := rfl
  rw [dispatch_secondsIdb] at hidb
  rw [dispatch_secondsEpb] at hepb
  rw [readPcap_pcapng rfl, readPcapng, Reader.run_next hshb, Reader.run_next hidb,
    Reader.run_next hepb, Reader.run_stop rfl]
  rfl

/-- A capture that is read to its end, with a record no clock shows. -/
theorem clock_of_the_year_ten_thousand :
    ¬ ∀ contents, (@readPcap binary64 contents).error = none →
      ∀ r ∈ (@readPcap binary64 contents).items, ClocksReturn r.1 := by
  intro hclocks
  have hclock := hclocks seconds
  rw [@seconds_read binary64] at hclock
  have hshown := hclock rfl _ (List.mem_singleton_self _)
  have hlate : LateTicks (10 ^ 0) 253402300800 := by
    unfold LateTicks
    decide +kernel
  exact (ticks_binary64 253402300800 (by norm_num)).mpr hlate hshown

end Pyscan.Pcapng
