import Mathlib

/-!
# Byte strings, and reads that can raise

`Bytes` is Python's `bytes`. A slice never fails: it shortens. `index` and the
`unpack` family do fail, with the exception Python would raise, so a decoder
written over them is total exactly when every guard in front of a read is
right. `Yields x P` says that `x` returns (raises nothing) a value satisfying
`P`; its rules are the program logic of the decoders.
-/

namespace Pyscan.Py

abbrev Bytes := List UInt8

/-- The exception classes a read can end in. -/
inductive PyErr where
  | indexError
  | structError
  | valueError
  | osError
  deriving DecidableEq, Repr

abbrev Result (α : Type) := Except PyErr α

/-! ## Returning -/

section Yields

variable {α β : Type} {x : Result α} {P Q : α → Prop}

/-- `x` returns a value satisfying `P`. -/
def Yields (x : Result α) (P : α → Prop) : Prop := ∃ a, x = .ok a ∧ P a

@[simp] theorem pure_eq_ok (a : α) : (pure a : Result α) = .ok a := rfl

@[simp] theorem ok_bind {ε : Type} (a : α) (f : α → Except ε β) : (Except.ok a >>= f) = f a := rfl

theorem yields_ok {a : α} (h : P a) : Yields (.ok a) P := ⟨a, rfl, h⟩

theorem Yields.bind {f : α → Result β} {R : β → Prop} (h : Yields x P)
    (k : ∀ a, P a → Yields (f a) R) : Yields (x >>= f) R := by
  obtain ⟨a, rfl, hp⟩ := h
  exact k a hp

theorem Yields.of_eq {a : α} (h : Yields x P) (e : x = .ok a) : P a := by
  obtain ⟨b, e', hp⟩ := h
  cases e.symm.trans e'
  exact hp

theorem ok_some_iff {x : Result (Option α)} {r : Option α} (h : x = .ok r) :
    (∃ a, x = .ok (some a)) ↔ r.isSome = true := by
  subst h
  cases r <;> simp

/-- The returned value, or the default when `x` raises. -/
def value [Inhabited α] (x : Result α) : α :=
  match x with
  | .ok a => a
  | .error _ => default

@[simp] theorem value_ok [Inhabited α] (a : α) : value (.ok a : Result α) = a := rfl

theorem Yields.eq_value [Inhabited α] (h : Yields x P) : x = .ok (value x) := by
  obtain ⟨a, rfl, -⟩ := h
  rfl

theorem Yields.value [Inhabited α] (h : Yields x P) : P (value x) := h.of_eq h.eq_value

end Yields

/-! ## Indexing and slicing -/

/-- `d[i]`. -/
def index (d : Bytes) (i : Nat) : Result UInt8 :=
  match d[i]? with
  | some b => .ok b
  | none => .error .indexError

/-- `d[i:j]`. -/
def slice (d : Bytes) (i j : Nat) : Bytes := (d.take j).drop i

theorem index_ok {d : Bytes} {i : Nat} (h : i < d.length) : index d i = .ok d[i] := by
  simp [index, List.getElem?_eq_getElem h]

theorem index_getD {d : Bytes} {i : Nat} (h : i < d.length) : index d i = .ok (d.getD i 0) := by
  rw [index_ok h, List.getD_eq_getElem?_getD, List.getElem?_eq_getElem h, Option.getD_some]

theorem index_yields {d : Bytes} {i : Nat} (h : i < d.length) :
    Yields (index d i) fun b => d[i]? = some b :=
  ⟨d[i], index_ok h, List.getElem?_eq_getElem h⟩

@[simp] theorem index_zero (b : UInt8) (d : Bytes) : index (b :: d) 0 = .ok b := rfl

@[simp] theorem index_succ (b : UInt8) (d : Bytes) (i : Nat) :
    index (b :: d) (i + 1) = index d i := rfl

theorem index_append {p d : Bytes} {n i : Nat} (h : p.length = n) :
    index (p ++ d) (n + i) = index d i := by
  subst h
  simp [index, List.getElem?_append_right]

theorem length_slice (d : Bytes) (i j : Nat) : (slice d i j).length = min j d.length - i := by
  simp [slice]

theorem length_slice_of_le {d : Bytes} {i j : Nat} (h : j ≤ d.length) :
    (slice d i j).length = j - i := by
  rw [length_slice, Nat.min_eq_left h]

/-- A slice between two seams is the part between them. -/
theorem slice_append {p s t : Bytes} {i j : Nat} (hp : p.length = i) (hs : i + s.length = j) :
    slice (p ++ (s ++ t)) i j = s := by
  subst hp hs
  simp [slice, List.take_append]

theorem drop_append {p s : Bytes} {i : Nat} (hp : p.length = i) : (p ++ s).drop i = s := by
  subst hp
  simp

/-! ## Numbers -/

/-- Two bytes, most significant first. -/
def u16 (hi lo : UInt8) : Nat := hi.toNat * 256 + lo.toNat

theorem u16_lt (hi lo : UInt8) : u16 hi lo < 65536 := by
  have h1 := hi.toNat_lt
  have h2 := lo.toNat_lt
  unfold u16
  omega

/-- The two big-endian bytes of a number below `2 ^ 16`. -/
def be16 (n : Nat) : Bytes := [UInt8.ofNat (n / 256), UInt8.ofNat (n % 256)]

@[simp] theorem length_be16 (n : Nat) : (be16 n).length = 2 := rfl

theorem u16_ofNat {n : Nat} (h : n < 65536) :
    u16 (UInt8.ofNat (n / 256)) (UInt8.ofNat (n % 256)) = n := by
  simp only [u16, UInt8.toNat_ofNat']
  omega

/-- The four big-endian bytes of a number below `2 ^ 32`. -/
def be32 (n : Nat) : Bytes := be16 (n / 65536) ++ be16 (n % 65536)

/-- `struct.unpack(">H", d)`. -/
def unpackH : Bytes → Result Nat
  | [a, b] => .ok (u16 a b)
  | _ => .error .structError

/-- `struct.unpack(">HH", d)`. -/
def unpackHH : Bytes → Result (Nat × Nat)
  | [a, b, c, d] => .ok (u16 a b, u16 c d)
  | _ => .error .structError

/-- `struct.unpack(">HHH", d)`. -/
def unpackHHH : Bytes → Result (Nat × Nat × Nat)
  | [a, b, c, d, e, f] => .ok (u16 a b, u16 c d, u16 e f)
  | _ => .error .structError

/-- `struct.unpack(">HHHB", d)`. -/
def unpackHHHB : Bytes → Result (Nat × Nat × Nat × Nat)
  | [a, b, c, d, e, f, g] => .ok (u16 a b, u16 c d, u16 e f, g.toNat)
  | _ => .error .structError

theorem unpackH_yields {d : Bytes} (h : d.length = 2) : Yields (unpackH d) (· < 65536) := by
  match d, h with
  | [a, b], _ => exact ⟨_, rfl, u16_lt a b⟩

theorem unpackHH_yields {d : Bytes} (h : d.length = 4) : Yields (unpackHH d) fun _ => True := by
  match d, h with
  | [_, _, _, _], _ => exact ⟨_, rfl, trivial⟩

theorem unpackHHH_yields {d : Bytes} (h : d.length = 6) : Yields (unpackHHH d) fun _ => True := by
  match d, h with
  | [_, _, _, _, _, _], _ => exact ⟨_, rfl, trivial⟩

theorem unpackH_be16 {n : Nat} (h : n < 65536) : unpackH (be16 n) = .ok n := by
  simp only [be16, unpackH, u16_ofNat h]

/-- The big-endian 16-bit words of a byte string of even length. -/
def words : Bytes → List Nat
  | hi :: lo :: rest => u16 hi lo :: words rest
  | _ => []

/-- `struct.unpack(f">{n}H", d)`. -/
def unpackWords (n : Nat) (d : Bytes) : Result (List Nat) :=
  if d.length = 2 * n then .ok (words d) else .error .structError

/-- `bytes([n])`. -/
def byte (n : Nat) : Result Bytes :=
  if n < 256 then .ok [UInt8.ofNat n] else .error .valueError

/-- `struct.pack("B", n)`. -/
def packB (n : Nat) : Result Bytes :=
  if n < 256 then .ok [UInt8.ofNat n] else .error .structError

/-- `struct.pack(">H", n)`. -/
def packH (n : Nat) : Result Bytes :=
  if n < 65536 then .ok (be16 n) else .error .structError

/-- `struct.pack("<H", n)`. -/
def packHle (n : Nat) : Result Bytes :=
  if n < 65536 then .ok (be16 n).reverse else .error .structError

/-- `struct.pack("<I", n)`. -/
def packIle (n : Nat) : Result Bytes :=
  if n < 4294967296 then .ok (be32 n).reverse else .error .structError

theorem packH_ok {n : Nat} (h : n < 65536) : packH n = .ok (be16 n) := if_pos h

theorem packB_inv {n : Nat} {b : Bytes} (h : packB n = .ok b) :
    n < 256 ∧ b = [UInt8.ofNat n] := by
  unfold packB at h
  split at h
  · exact ⟨‹_›, by cases h; rfl⟩
  · cases h

theorem byte_inv {n : Nat} {b : Bytes} (h : byte n = .ok b) :
    n < 256 ∧ b = [UInt8.ofNat n] := by
  unfold byte at h
  split at h
  · exact ⟨‹_›, by cases h; rfl⟩
  · cases h

theorem packH_inv {n : Nat} {b : Bytes} (h : packH n = .ok b) : n < 65536 ∧ b = be16 n := by
  unfold packH at h
  split at h
  · exact ⟨‹_›, by cases h; rfl⟩
  · cases h

theorem bind_inv {ε α β : Type} {x : Except ε α} {f : α → Except ε β} {b : β}
    (h : (x >>= f) = .ok b) : ∃ a, x = .ok a ∧ f a = .ok b := by
  cases x with
  | error e => cases h
  | ok a => exact ⟨a, rfl, h⟩

end Pyscan.Py
