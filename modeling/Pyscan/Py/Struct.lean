import Pyscan.Py.Bytes

/-!
# Fields of either byte order

What `struct` reads and writes in a byte order chosen at run time. `field` is
the bytes of a number in a given width, `value` the number that bytes hold;
they are inverse (`value_field`, `field_value`). The `unpack` functions are
named by their format strings.
-/

namespace Pyscan.Py

/-- `"<"` and `">"`. -/
inductive Endian where
  | little
  | big
  deriving DecidableEq, Repr

def leValue : Bytes → Nat
  | [] => 0
  | b :: d => b.toNat + 256 * leValue d

def leField : (width n : Nat) → Bytes
  | 0, _ => []
  | width + 1, n => UInt8.ofNat n :: leField width (n / 256)

@[simp] theorem length_leField (width n : Nat) : (leField width n).length = width := by
  induction width generalizing n with
  | zero => rfl
  | succ width ih => rw [leField, List.length_cons, ih]

theorem leValue_leField {width n : Nat} (h : n < 256 ^ width) : leValue (leField width n) = n := by
  induction width generalizing n with
  | zero =>
    rw [Nat.pow_zero] at h
    exact (Nat.lt_one_iff.mp h).symm
  | succ width ih =>
    have hn : n / 256 < 256 ^ width := by
      rw [Nat.div_lt_iff_lt_mul (by decide), ← Nat.pow_succ]
      exact h
    rw [leField, leValue, ih hn, UInt8.toNat_ofNat']
    omega

theorem leField_leValue (d : Bytes) : leField d.length (leValue d) = d := by
  induction d with
  | nil => rfl
  | cons b d ih =>
    have hb := b.toNat_lt
    have hdiv : (b.toNat + 256 * leValue d) / 256 = leValue d := by omega
    rw [List.length_cons, leField, leValue, hdiv, ih]
    congr 1
    apply UInt8.toNat_inj.mp
    rw [UInt8.toNat_ofNat']
    omega

theorem leValue_lt (d : Bytes) : leValue d < 256 ^ d.length := by
  induction d with
  | nil => exact Nat.one_pos
  | cons b d ih =>
    have hb := b.toNat_lt
    rw [leValue, List.length_cons, Nat.pow_succ]
    omega

namespace Endian

/-- The number a field holds. -/
def value : Endian → Bytes → Nat
  | little, d => leValue d
  | big, d => leValue d.reverse

/-- The field that holds a number. -/
def field : Endian → (width n : Nat) → Bytes
  | little, width, n => leField width n
  | big, width, n => (leField width n).reverse

variable (e : Endian)

@[simp] theorem length_field (width n : Nat) : (e.field width n).length = width := by
  cases e <;> simp [field]

theorem value_field {width n : Nat} (h : n < 256 ^ width) : e.value (e.field width n) = n := by
  cases e <;> simp [field, value, leValue_leField h]

theorem field_value (d : Bytes) : e.field d.length (e.value d) = d := by
  cases e with
  | little => exact leField_leValue d
  | big =>
    have h := leField_leValue d.reverse
    rw [List.length_reverse] at h
    rw [value, field, h, List.reverse_reverse]

theorem value_lt (d : Bytes) : e.value d < 256 ^ d.length := by
  cases e with
  | little => exact leValue_lt d
  | big =>
    rw [value, ← List.length_reverse]
    exact leValue_lt d.reverse

/-! ## Unpacking -/

/-- `struct.unpack(endian + "H", d)`. -/
def unpackH (d : Bytes) : Result Nat := if d.length = 2 then .ok (e.value d) else .error .structError

/-- `struct.unpack(endian + "I", d)`. -/
def unpackI (d : Bytes) : Result Nat := if d.length = 4 then .ok (e.value d) else .error .structError

/-- `struct.unpack(endian + "HH", d)`. -/
def unpackHH (d : Bytes) : Result (Nat × Nat) :=
  if d.length = 4 then .ok (e.value (slice d 0 2), e.value (slice d 2 4)) else .error .structError

/-- `struct.unpack(endian + "IIII", d)`. -/
def unpackIIII (d : Bytes) : Result (Nat × Nat × Nat × Nat) :=
  if d.length = 16 then
    .ok (e.value (slice d 0 4), e.value (slice d 4 8), e.value (slice d 8 12), e.value (slice d 12 16))
  else .error .structError

/-- `struct.unpack(endian + "IIIII", d)`. -/
def unpackIIIII (d : Bytes) : Result (Nat × Nat × Nat × Nat × Nat) :=
  if d.length = 20 then
    .ok (e.value (slice d 0 4), e.value (slice d 4 8), e.value (slice d 8 12),
      e.value (slice d 12 16), e.value (slice d 16 20))
  else .error .structError

/-- `struct.unpack(endian + "HHIIII", d)`. -/
def unpackHHIIII (d : Bytes) : Result (Nat × Nat × Nat × Nat × Nat × Nat) :=
  if d.length = 20 then
    .ok (e.value (slice d 0 2), e.value (slice d 2 4), e.value (slice d 4 8), e.value (slice d 8 12),
      e.value (slice d 12 16), e.value (slice d 16 20))
  else .error .structError

variable {e}

theorem unpackH_ok {d : Bytes} (h : d.length = 2) : e.unpackH d = .ok (e.value d) := if_pos h

theorem unpackI_ok {d : Bytes} (h : d.length = 4) : e.unpackI d = .ok (e.value d) := if_pos h

theorem unpackHH_ok {d : Bytes} (h : d.length = 4) :
    e.unpackHH d = .ok (e.value (slice d 0 2), e.value (slice d 2 4)) := if_pos h

theorem unpackIIII_ok {d : Bytes} (h : d.length = 16) :
    e.unpackIIII d = .ok (e.value (slice d 0 4), e.value (slice d 4 8), e.value (slice d 8 12),
      e.value (slice d 12 16)) := if_pos h

theorem unpackIIIII_ok {d : Bytes} (h : d.length = 20) :
    e.unpackIIIII d = .ok (e.value (slice d 0 4), e.value (slice d 4 8), e.value (slice d 8 12),
      e.value (slice d 12 16), e.value (slice d 16 20)) := if_pos h

theorem unpackHHIIII_ok {d : Bytes} (h : d.length = 20) :
    e.unpackHHIIII d = .ok (e.value (slice d 0 2), e.value (slice d 2 4), e.value (slice d 4 8),
      e.value (slice d 8 12), e.value (slice d 12 16), e.value (slice d 16 20)) := if_pos h

theorem value_field_two {n : Nat} (h : n < 2 ^ 16) : e.value (e.field 2 n) = n := e.value_field h

theorem value_field_four {n : Nat} (h : n < 2 ^ 32) : e.value (e.field 4 n) = n := e.value_field h

theorem unpackH_field {n : Nat} (h : n < 2 ^ 16) : e.unpackH (e.field 2 n) = .ok n := by
  rw [unpackH_ok (by simp), value_field_two h]

theorem unpackI_field {n : Nat} (h : n < 2 ^ 32) : e.unpackI (e.field 4 n) = .ok n := by
  rw [unpackI_ok (by simp), value_field_four h]

section Fields

variable {a b c d f g : Nat}

theorem unpackHH_fields (ha : a < 2 ^ 16) (hb : b < 2 ^ 16) :
    e.unpackHH (e.field 2 a ++ e.field 2 b) = .ok (a, b) := by
  rw [unpackHH_ok (by simp)]
  simp [slice, List.take_of_length_le, value_field_two ha, value_field_two hb]

theorem unpackIIII_fields (ha : a < 2 ^ 32) (hb : b < 2 ^ 32) (hc : c < 2 ^ 32) (hd : d < 2 ^ 32) :
    e.unpackIIII (e.field 4 a ++ (e.field 4 b ++ (e.field 4 c ++ e.field 4 d))) =
      .ok (a, b, c, d) := by
  rw [unpackIIII_ok (by simp)]
  simp [slice, List.take_append, List.drop_append, List.take_of_length_le, List.drop_eq_nil_of_le,
    value_field_four ha, value_field_four hb, value_field_four hc, value_field_four hd]

theorem unpackIIIII_fields (ha : a < 2 ^ 32) (hb : b < 2 ^ 32) (hc : c < 2 ^ 32) (hd : d < 2 ^ 32)
    (hf : f < 2 ^ 32) :
    e.unpackIIIII (e.field 4 a ++ (e.field 4 b ++ (e.field 4 c ++ (e.field 4 d ++ e.field 4 f)))) =
      .ok (a, b, c, d, f) := by
  rw [unpackIIIII_ok (by simp)]
  simp [slice, List.take_append, List.drop_append, List.take_of_length_le, List.drop_eq_nil_of_le,
    value_field_four ha, value_field_four hb, value_field_four hc, value_field_four hd,
    value_field_four hf]

theorem unpackHHIIII_fields (ha : a < 2 ^ 16) (hb : b < 2 ^ 16) (hc : c < 2 ^ 32) (hd : d < 2 ^ 32)
    (hf : f < 2 ^ 32) (hg : g < 2 ^ 32) :
    e.unpackHHIIII (e.field 2 a ++ (e.field 2 b ++ (e.field 4 c ++ (e.field 4 d ++
      (e.field 4 f ++ e.field 4 g))))) = .ok (a, b, c, d, f, g) := by
  rw [unpackHHIIII_ok (by simp)]
  simp [slice, List.take_append, List.drop_append, List.take_of_length_le, List.drop_eq_nil_of_le,
    value_field_two ha, value_field_two hb, value_field_four hc, value_field_four hd,
    value_field_four hf, value_field_four hg]

end Fields

/-! ## Packing -/

variable (e)

/-- `struct.pack(endian + "H", n)`. -/
def packH (n : Int) : Result Bytes :=
  if 0 ≤ n ∧ n < 65536 then .ok (e.field 2 n.toNat) else .error .structError

/-- `struct.pack(endian + "I", n)`. -/
def packI (n : Int) : Result Bytes :=
  if 0 ≤ n ∧ n < 4294967296 then .ok (e.field 4 n.toNat) else .error .structError

end Endian

end Pyscan.Py
