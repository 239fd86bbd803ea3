import Pyscan.Domain.Modbus
import Pyscan.Domain.Iec104

/-!
# The scanner's framing and the detector's

The scanner reads answers with `parseResponse`, the detector reads traffic with
`readFunctionCode` and `parseApdus`. `Modbus.Agree` and `Iec104.Agree` say that
the two accept the same bytes. Each side's acceptance is read off its guards on
a message long enough for its header, and **the two agree exactly when** the
header fields only one of them checks are in order (`framing_agree`).
-/

namespace Pyscan

open Py

namespace Modbus

/-- `d`'s transaction-id field. -/
def transactionId (d : Bytes) : Result Nat := unpackH (slice d 0 2)

/-- `d`'s length field. -/
def lengthField (d : Bytes) : Result Nat := unpackH (slice d 4 6)

/-- The scanner takes `d` for the answer to `tid` if and only if the detector takes it for
Modbus and it carries that transaction id. -/
def Agree (d : Bytes) (tid : Nat) : Prop :=
  (∃ info, parseResponse d tid = .ok (some info)) ↔
    (∃ fc, readFunctionCode d = .ok (some fc)) ∧ transactionId d = .ok tid

/-- A header of protocol 0 answers `tid` and has a length the detector accepts. -/
def HeaderInOrder (d : Bytes) (tid : Nat) : Prop :=
  8 ≤ d.length → slice d 2 4 = [0, 0] →
    transactionId d = .ok tid ∧ ∃ n, lengthField d = .ok n ∧ 1 ≤ n ∧ n ≤ 255

theorem agree_cons (t1 t0 p1 p0 l1 l0 unit code : UInt8) (rest : Bytes) (tid : Nat) :
    Agree (t1 :: t0 :: p1 :: p0 :: l1 :: l0 :: unit :: code :: rest) tid ↔
      (u16 p1 p0 = 0 → u16 t1 t0 = tid ∧ 1 ≤ u16 l1 l0 ∧ u16 l1 l0 ≤ 255) := by
  obtain ⟨r, hr, hsome⟩ := parseResponse_cons t1 t0 p1 p0 l1 l0 unit code rest tid
  have htid : transactionId (t1 :: t0 :: p1 :: p0 :: l1 :: l0 :: unit :: code :: rest) = .ok tid ↔
      u16 t1 t0 = tid := by
    simp [transactionId, slice, unpackH]
  unfold Agree
  rw [ok_some_iff hr, hsome, ok_some_iff (readFunctionCode_cons ..), htid]
  by_cases hp : u16 p1 p0 = 0
  · by_cases hl : 1 ≤ u16 l1 l0 ∧ u16 l1 l0 ≤ 255
    · simp [hp, hl]
    · simp [hp, hl]
  · simp [hp]

theorem agree_iff (d : Bytes) (tid : Nat) : Agree d tid ↔ HeaderInOrder d tid := by
  by_cases h : 8 ≤ d.length
  · obtain ⟨t1, t0, p1, p0, l1, l0, unit, code, rest, rfl⟩ := exists_cons8 h
    rw [agree_cons]
    have hzero : u16 p1 p0 = 0 ↔ p1 = 0 ∧ p0 = 0 :=
      ⟨u16_eq_zero, by rintro ⟨rfl, rfl⟩; rfl⟩
    simp only [HeaderInOrder, h, transactionId, lengthField, slice, List.take_succ_cons,
      List.take_zero, List.drop_succ_cons, List.drop_zero, unpackH, hzero, List.cons.injEq,
      and_true, true_implies, Except.ok.injEq, exists_eq_left']
  · have hlt : d.length < 8 := Nat.lt_of_not_le h
    refine iff_of_true ?_ fun h8 => absurd h8 h
    unfold Agree
    rw [parseResponse_short hlt, readFunctionCode_short hlt]
    simp

end Modbus

namespace Iec104

/-- The scanner takes `d` for an IEC-104 answer if and only if the detector's first APDU of
it is in the U format, and both call it the same. -/
def Agree (d : Bytes) : Prop :=
  ((∃ info, parseResponse d = .ok (some info)) ↔
      ∃ apdu apdus, parseApdus d defaultLimit = .ok (apdu :: apdus) ∧ apdu.format = .U) ∧
    ∀ info apdu apdus, parseResponse d = .ok (some info) →
      parseApdus d defaultLimit = .ok (apdu :: apdus) → info.frame = some apdu.name

/-- A U-format control octet behind a start octet comes with a length octet of at least 4. -/
def LengthInOrder (d : Bytes) : Prop :=
  6 ≤ d.length → d[0]? = some start → (∃ c, d[2]? = some c ∧ c.toNat % 4 = 3) →
    ∃ n, d[1]? = some n ∧ 4 ≤ n.toNat

theorem exists_cons6 {d : Bytes} (h : 6 ≤ d.length) :
    ∃ s l c c2 c3 c4 rest, d = s :: l :: c :: c2 :: c3 :: c4 :: rest := by
  match d, h with
  | s :: l :: c :: c2 :: c3 :: c4 :: rest, _ => exact ⟨s, l, c, c2, c3, c4, rest, rfl⟩

theorem and_three (n : Nat) : n &&& 3 = n % 4 := Nat.and_two_pow_sub_one_eq_mod n 2

theorem parseResponse_cons (s l c c2 c3 c4 : UInt8) (rest : Bytes) :
    parseResponse (s :: l :: c :: c2 :: c3 :: c4 :: rest) =
      .ok (if s = start ∧ c.toNat % 4 = 3 then
          some { isIec104 := true, frame := some ((uFrames.lookup c.toNat).getD "U-frame") }
        else none) := by
  unfold parseResponse
  rw [if_neg (by simp [apciSize])]
  simp only [index_succ, index_zero, ok_bind, and_three]
  by_cases hs : s = start
  · by_cases hc : c.toNat % 4 = 3
    · simp [hs, hc]
    · simp [hs, hc]
  · simp [hs]

/-- What the first APDU of a payload is, by its first control octet. -/
theorem parseApdu_control {apdu : Bytes} {c : UInt8} (h : apciSize ≤ apdu.length)
    (hc : apdu[2]? = some c) :
    Yields (parseApdu apdu) fun a => (a.format = .U ↔ c.toNat % 4 = 3) ∧
      (a.format = .U → a.name = (uFrames.lookup c.toNat).getD "U-frame") := by
  obtain ⟨a, ha, -⟩ := parseApdu_yields h
  refine ⟨a, ha, ?_⟩
  dsimp only
  have hidx : index apdu 2 = .ok c := by simp [index, hc]
  unfold parseApdu at ha
  rw [hidx, ok_bind] at ha
  dsimp only at ha
  rw [and_three, show c.toNat &&& 1 = c.toNat % 2 from Nat.and_two_pow_sub_one_eq_mod _ 1] at ha
  split at ha
  · have hI : a.format = .I := by
      unfold parseIFormat at ha
      split at ha
      · cases ha; rfl
      · obtain ⟨t, -, ha⟩ := bind_inv ha
        obtain ⟨cause, -, ha⟩ := bind_inv ha
        obtain ⟨address, -, ha⟩ := bind_inv ha
        cases ha
        rfl
    rw [hI]
    exact ⟨⟨by rintro ⟨⟩, fun h => by omega⟩, by rintro ⟨⟩⟩
  · split at ha
    · cases ha
      exact ⟨⟨by rintro ⟨⟩, fun h => by omega⟩, by rintro ⟨⟩⟩
    · cases ha
      exact ⟨⟨fun _ => by omega, fun _ => rfl⟩, fun _ => rfl⟩

/-- A payload that does not start like an APDU has none. -/
theorem parseApdus_nil {s l : UInt8} {tail : Bytes}
    (h : ¬ (s = start ∧ apciSize ≤ (slice (s :: l :: tail) 0 (2 + l.toNat)).length)) :
    parseApdus (s :: l :: tail) defaultLimit = .ok [] := by
  unfold parseApdus defaultLimit apduLoop
  rw [if_pos (by simp), index_zero, ok_bind, Nat.zero_add, index_succ, index_zero, ok_bind]
  by_cases hs : s = start
  · rw [if_neg (by simp [hs])]
    simp only [Nat.zero_add]
    rw [if_pos (Nat.lt_of_not_le fun hle => h ⟨hs, hle⟩)]
  · rw [if_pos hs]

/-- A payload that starts with an APDU's bytes has that APDU first. -/
theorem parseApdus_cons {l : UInt8} {tail : Bytes}
    (h : apciSize ≤ (slice (start :: l :: tail) 0 (2 + l.toNat)).length) :
    ∃ apdu apdus, parseApdus (start :: l :: tail) defaultLimit = .ok (apdu :: apdus) ∧
      parseApdu (slice (start :: l :: tail) 0 (2 + l.toNat)) = .ok apdu := by
  obtain ⟨apdu, ha, -⟩ := parseApdu_yields h
  obtain ⟨rest, hrest, -⟩ := apduLoop_yields ((start :: l :: tail).drop (2 + l.toNat)) 63
  refine ⟨apdu, rest, ?_, ha⟩
  unfold parseApdus defaultLimit apduLoop
  rw [if_pos (by simp), index_zero, ok_bind, if_neg (by simp), Nat.zero_add, index_succ, index_zero,
    ok_bind]
  simp only [Nat.zero_add]
  rw [if_neg (Nat.not_lt.mpr h), ha, ok_bind, apduLoop_drop, hrest, ok_bind]

theorem parseApdus_short {d : Bytes} (h : ¬ 6 ≤ d.length) : parseApdus d defaultLimit = .ok [] := by
  match d with
  | [] => rfl
  | [_] => rfl
  | s :: l :: tail =>
    refine parseApdus_nil fun hf => h (hf.2.trans ?_)
    rw [length_slice]
    omega

theorem agree_cons (s l c c2 c3 c4 : UInt8) (rest : Bytes) :
    Agree (s :: l :: c :: c2 :: c3 :: c4 :: rest) ↔
      (s = start → c.toNat % 4 = 3 → 4 ≤ l.toNat) := by
  have hlen : apciSize ≤ (slice (s :: l :: c :: c2 :: c3 :: c4 :: rest) 0 (2 + l.toNat)).length ↔
      4 ≤ l.toNat := by
    rw [length_slice]
    simp only [apciSize, List.length_cons]
    omega
  unfold Agree
  rw [ok_some_iff (parseResponse_cons ..), parseResponse_cons]
  by_cases hs : s = start
  · subst hs
    by_cases hl : 4 ≤ l.toNat
    · obtain ⟨apdu, apdus, he, ha⟩ := parseApdus_cons (hlen.mpr hl)
      obtain ⟨hU, hname⟩ := (parseApdu_control (c := c) (hlen.mpr hl) (by
        simp only [slice, List.drop_zero]
        rw [List.getElem?_take_of_lt (by omega)]
        rfl)).of_eq ha
      refine iff_of_true ?_ fun _ _ => hl
      rw [he]
      by_cases hc : c.toNat % 4 = 3
      · rw [if_pos ⟨rfl, hc⟩]
        refine ⟨iff_of_true rfl ⟨apdu, apdus, rfl, hU.mpr hc⟩, ?_⟩
        rintro info a as h1 h2
        cases h1
        cases h2
        rw [hname (hU.mpr hc)]
      · rw [if_neg fun h => hc h.2]
        refine ⟨iff_of_false (by simp) ?_, by rintro info a as ⟨⟩⟩
        rintro ⟨a, as, h1, h2⟩
        cases h1
        exact hc (hU.mp h2)
    · rw [parseApdus_nil fun h => hl (hlen.mp h.2)]
      by_cases hc : c.toNat % 4 = 3
      · simp [hc, hl]
      · simp [hc]
  · rw [parseApdus_nil fun h => hs h.1]
    simp [hs]

theorem agree_iff (d : Bytes) : Agree d ↔ LengthInOrder d := by
  by_cases h : 6 ≤ d.length
  · obtain ⟨s, l, c, c2, c3, c4, rest, rfl⟩ := exists_cons6 h
    rw [agree_cons]
    simp [LengthInOrder]
  · refine iff_of_true ?_ fun h6 => absurd h6 h
    unfold Agree
    rw [show parseResponse d = .ok none from if_pos (Nat.lt_of_not_le h), parseApdus_short h]
    simp

end Iec104

/-! ## One definition of framing -/

/-- **The scanner and the detector agree on a message exactly when** its header is in order:
on Modbus, a header of protocol 0 carries the transaction id asked for and a length in
`1..255`; on IEC-104, the length octet before a U-format control octet is at least 4. -/
theorem framing_agree (d : Bytes) (tid : Nat) :
    (Modbus.Agree d tid ↔ Modbus.HeaderInOrder d tid) ∧
      (Iec104.Agree d ↔ Iec104.LengthInOrder d) :=
  ⟨Modbus.agree_iff d tid, Iec104.agree_iff d⟩

/-- The answer to another request, and a test frame that declares no octets, divide them. -/
theorem framing_disagrees :
    ¬ ((∀ d tid, Modbus.Agree d tid) ∧ ∀ d, Iec104.Agree d) ∧
      ¬ Modbus.Agree [0, 2, 0, 0, 0, 2, 1, 3] 1 ∧ ¬ Iec104.Agree [0x68, 0, 0x43, 0, 0, 0] := by
  have hm : ¬ Modbus.Agree [0, 2, 0, 0, 0, 2, 1, 3] 1 := by
    rw [Modbus.agree_cons]
    decide
  have hi : ¬ Iec104.Agree [0x68, 0, 0x43, 0, 0, 0] := by
    rw [Iec104.agree_cons]
    decide
  exact ⟨fun h => hm (h.1 _ _), hm, hi⟩

end Pyscan
