import Mathlib

/-!
# Cyclic redundancy checks

The register of a check of width `w`, fed least significant bit first. Up to `w`
bits go in as one word (`feedBits_word`), and nothing is lost in a shift where
the polynomial has its top bit (`shift_injective`). So **messages that differ in
no more than `w` consecutive bits have different checks** (`burst_detected`).
-/

namespace Crc

variable {w : ℕ}

/-- One shift of the register. -/
def shift (p c : BitVec w) : BitVec w := if c.getLsbD 0 then (c >>> 1) ^^^ p else c >>> 1

/-- One bit goes in. -/
def feed (p c : BitVec w) (b : Bool) : BitVec w := shift p (c ^^^ if b then 1#w else 0#w)

def feedBits (p c : BitVec w) (bits : List Bool) : BitVec w := bits.foldl (feed p) c

/-- The word whose lowest bits these are. -/
def word (w : ℕ) (bits : List Bool) : BitVec w := BitVec.ofFnLE fun i : Fin w => bits.getD i false

theorem getLsbD_word {bits : List Bool} {i : ℕ} (hi : i < w) :
    (word w bits).getLsbD i = bits.getD i false := by
  rw [word, BitVec.getLsbD_ofFnLE, dif_pos hi]

/-! ## Shifts -/

section Shift

variable {p c a b : BitVec w}

theorem shift_zero : shift p 0#w = 0#w := by simp [shift]

theorem shift_xor (p a b : BitVec w) : shift p (a ^^^ b) = shift p a ^^^ shift p b := by
  have hcancel : ∀ x y : BitVec w, x ^^^ y = x ^^^ p ^^^ (y ^^^ p) := by
    intro x y
    rw [BitVec.xor_comm y p, BitVec.xor_assoc, ← BitVec.xor_assoc p p y, BitVec.xor_self,
      BitVec.zero_xor]
  unfold shift
  rw [BitVec.getLsbD_xor, BitVec.ushiftRight_xor_distrib]
  cases a.getLsbD 0 <;> cases b.getLsbD 0
  · rfl
  · exact BitVec.xor_assoc _ _ _
  · show a >>> 1 ^^^ b >>> 1 ^^^ p = a >>> 1 ^^^ p ^^^ b >>> 1
    rw [BitVec.xor_assoc, BitVec.xor_comm (b >>> 1) p, ← BitVec.xor_assoc]
  · exact hcancel _ _

/-- A register that a shift empties was empty. -/
theorem eq_zero_of_shift (hp : p.msb = true) (h : shift p c = 0#w) : c = 0#w := by
  rw [BitVec.msb_eq_getLsbD_last] at hp
  unfold shift at h
  split at h
  · -- the top bit is the polynomial's
    have hw : w - 1 < w := by
      by_contra hge
      obtain rfl : w = 0 := by omega
      simp at hp
    have htop := congrArg (fun x : BitVec w => x.getLsbD (w - 1)) h
    simp only [BitVec.getLsbD_xor, BitVec.getLsbD_ushiftRight, hp, BitVec.getLsbD_zero] at htop
    rw [BitVec.getLsbD_of_ge c (1 + (w - 1)) (by omega)] at htop
    cases htop
  · rename_i hlow
    apply BitVec.eq_of_getLsbD_eq
    intro i hi
    rw [BitVec.getLsbD_zero]
    cases i with
    | zero => exact Bool.eq_false_iff.mpr hlow
    | succ i =>
      have hbit := congrArg (fun x : BitVec w => x.getLsbD i) h
      rwa [BitVec.getLsbD_ushiftRight, BitVec.getLsbD_zero, Nat.add_comm] at hbit

theorem shift_injective (hp : p.msb = true) : Function.Injective (shift p) := by
  intro a b h
  have hzero : shift p (a ^^^ b) = 0#w := by rw [shift_xor, h, BitVec.xor_self]
  have hxor := eq_zero_of_shift hp hzero
  calc
    a = a ^^^ (b ^^^ b) := by rw [BitVec.xor_self, BitVec.xor_zero]
    _ = b := by rw [← BitVec.xor_assoc, hxor, BitVec.zero_xor]

theorem shifts_xor (p : BitVec w) (n : ℕ) (a b : BitVec w) :
    (shift p)^[n] (a ^^^ b) = (shift p)^[n] a ^^^ (shift p)^[n] b := by
  induction n generalizing a b with
  | zero => rfl
  | succ n ih => rw [Function.iterate_succ_apply, shift_xor, ih]; rfl

theorem shifts_zero (p : BitVec w) (n : ℕ) : (shift p)^[n] 0#w = 0#w :=
  Function.iterate_fixed shift_zero n

/-- A bit moves down until it is the lowest. -/
theorem shifts_twoPow (p : BitVec w) {i : ℕ} (hi : i < w) :
    (shift p)^[i] (BitVec.twoPow w i) = 1#w := by
  induction i with
  | zero => exact BitVec.twoPow_zero
  | succ i ih =>
    have hdown : shift p (BitVec.twoPow w (i + 1)) = BitVec.twoPow w i := by
      have hlow : (BitVec.twoPow w (i + 1)).getLsbD 0 = false := by simp [BitVec.getLsbD_twoPow]
      rw [shift, hlow, if_neg Bool.false_ne_true]
      apply BitVec.eq_of_getLsbD_eq
      intro j hj
      rw [BitVec.getLsbD_ushiftRight, BitVec.getLsbD_twoPow, BitVec.getLsbD_twoPow]
      have hi' : i < w := by omega
      simp only [hi, hi', decide_true, Bool.true_and]
      exact decide_eq_decide.mpr (by omega)
    rw [Function.iterate_succ_apply, hdown, ih (by omega)]

end Shift

/-! ## Words -/

theorem word_concat {bits : List Bool} (h : bits.length < w) (b : Bool) :
    word w (bits ++ [b]) = word w bits ^^^ if b then BitVec.twoPow w bits.length else 0#w := by
  apply BitVec.eq_of_getLsbD_eq
  intro i hi
  have hbit : (if b then BitVec.twoPow w bits.length else 0#w).getLsbD i =
      (b && decide (bits.length = i)) := by
    cases b <;> simp [BitVec.getLsbD_twoPow, h]
  rw [BitVec.getLsbD_xor, getLsbD_word hi, getLsbD_word hi, hbit]
  rcases Nat.lt_trichotomy i bits.length with hlt | rfl | hgt
  · rw [List.getD_append _ _ _ _ hlt, decide_eq_false (Nat.ne_of_gt hlt), Bool.and_false,
      Bool.xor_false]
  · simp [List.getD_eq_getElem?_getD]
  · rw [List.getD_eq_default _ _ (by simpa using hgt), List.getD_eq_default _ _ hgt.le]
    simp [Nat.ne_of_lt hgt]

theorem word_injective {u v : List Bool} (hlen : u.length = v.length) (hle : u.length ≤ w)
    (h : word w u = word w v) : u = v := by
  refine List.ext_getElem hlen fun i hu hv => ?_
  have hbit := congrArg (fun x : BitVec w => x.getLsbD i) h
  rwa [getLsbD_word (by omega), getLsbD_word (by omega), List.getD_eq_getElem _ _ hu,
    List.getD_eq_getElem _ _ hv] at hbit

/-- Up to `w` bits go in as one word. -/
theorem feedBits_word (p c : BitVec w) {bits : List Bool} (h : bits.length ≤ w) :
    feedBits p c bits = (shift p)^[bits.length] (c ^^^ word w bits) := by
  induction bits using List.reverseRecOn with
  | nil =>
    have hzero : word w [] = 0#w := by
      apply BitVec.eq_of_getLsbD_eq
      intro i hi
      rw [getLsbD_word hi, BitVec.getLsbD_zero]
      rfl
    rw [hzero, BitVec.xor_zero]
    rfl
  | append_singleton bits b ih =>
    rw [List.length_append, List.length_singleton] at h
    have hfeed : feedBits p c (bits ++ [b]) = feed p (feedBits p c bits) b := by
      rw [feedBits, List.foldl_append]
      rfl
    have hbit : (shift p)^[bits.length] (if b then BitVec.twoPow w bits.length else 0#w) =
        if b then 1#w else 0#w := by
      cases b with
      | false => exact shifts_zero p _
      | true => exact shifts_twoPow p (by omega)
    rw [hfeed, ih (by omega), feed, ← hbit, ← shifts_xor, BitVec.xor_assoc,
      ← word_concat (by omega), List.length_append, List.length_singleton,
      Function.iterate_succ_apply']

/-! ## Errors -/

theorem feedBits_append (p c : BitVec w) (xs ys : List Bool) :
    feedBits p c (xs ++ ys) = feedBits p (feedBits p c xs) ys := List.foldl_append

theorem feedBits_injective {p : BitVec w} (hp : p.msb = true) (bits : List Bool) :
    Function.Injective fun c => feedBits p c bits := by
  induction bits with
  | nil => exact fun _ _ h => h
  | cons b bits ih =>
    intro a c h
    have hfeed : shift p (a ^^^ if b then 1#w else 0#w) = shift p (c ^^^ if b then 1#w else 0#w) := ih h
    have hxor := shift_injective hp hfeed
    calc
      a = a ^^^ (if b then 1#w else 0#w) ^^^ if b then 1#w else 0#w := by
        rw [BitVec.xor_assoc, BitVec.xor_self, BitVec.xor_zero]
      _ = c := by rw [hxor, BitVec.xor_assoc, BitVec.xor_self, BitVec.xor_zero]

/-- **Bursts are detected**: messages that differ, and in no more than `w` consecutive bits, leave
different registers. -/
theorem burst_detected {p : BitVec w} (hp : p.msb = true) (c : BitVec w) (before after : List Bool)
    {u v : List Bool} (hlen : u.length = v.length) (hle : u.length ≤ w) (hne : u ≠ v) :
    feedBits p c (before ++ u ++ after) ≠ feedBits p c (before ++ v ++ after) := by
  intro h
  rw [feedBits_append, feedBits_append, feedBits_append, feedBits_append] at h
  have hword := feedBits_injective hp after h
  have hle' : v.length ≤ w := hlen ▸ hle
  rw [feedBits_word p _ hle, feedBits_word p _ hle', hlen] at hword
  have hsum := ((shift_injective hp).iterate v.length) hword
  refine hne (word_injective hlen hle ?_)
  calc
    word w u = feedBits p c before ^^^ (feedBits p c before ^^^ word w u) := by
      rw [← BitVec.xor_assoc, BitVec.xor_self, BitVec.zero_xor]
    _ = word w v := by rw [hsum, ← BitVec.xor_assoc, BitVec.xor_self, BitVec.zero_xor]

/-! ## Bytes -/

/-- The bits of a byte in the order they go in. -/
def bitsOf (byte : UInt8) : List Bool := List.ofFn fun i : Fin 8 => byte.toBitVec.getLsbD i

/-- Eight shifts behind a byte. -/
def feedByte (p c : BitVec w) (byte : UInt8) : BitVec w := (shift p)^[8] (c ^^^ byte.toBitVec.setWidth w)

theorem feedByte_bits (hw : 8 ≤ w) (p c : BitVec w) (byte : UInt8) :
    feedByte p c byte = feedBits p c (bitsOf byte) := by
  have hlen : (bitsOf byte).length = 8 := List.length_ofFn
  have hword : word w (bitsOf byte) = byte.toBitVec.setWidth w := by
    apply BitVec.eq_of_getLsbD_eq
    intro i hi
    rw [getLsbD_word hi, BitVec.getLsbD_setWidth, bitsOf]
    by_cases h8 : i < 8
    · rw [List.getD_eq_getElem _ _ (by simpa using h8), List.getElem_ofFn, decide_eq_true hi,
        Bool.true_and]
    · rw [BitVec.getLsbD_of_ge _ _ (by omega), List.getD_eq_default _ _ (by simpa using h8)]
      simp
  rw [feedBits_word p c (by omega), hlen, hword, feedByte]

theorem feedBytes_bits (hw : 8 ≤ w) (p c : BitVec w) (data : List UInt8) :
    data.foldl (feedByte p) c = feedBits p c (data.flatMap bitsOf) := by
  induction data generalizing c with
  | nil => rfl
  | cons byte data ih =>
    rw [List.foldl_cons, ih, feedByte_bits hw, List.flatMap_cons, feedBits_append]

end Crc
