import Mathlib

/-!
# Netmasks

Numbers of `w` bits. `netmask w p` has its `p` highest bits set; masking a
number clears its `w - p` lowest bits (`and_netmask`). `prefixOf` reads a mask
back: **it finds the prefix length of exactly the netmasks** (`prefixOf_eq_some`),
so a number is a netmask of one length at most, and of the hostmasks, the
netmasks with all bits flipped, only the two without or with all bits are
netmasks too (`prefixOf_hostmask`).
-/

namespace Netmask

def allOnes (w : Nat) : Nat := 2 ^ w - 1

def netmask (w p : Nat) : Nat := allOnes w ^^^ (allOnes w >>> p)

def hostmask (w p : Nat) : Nat := allOnes w >>> p

/-- The zero bits right of the lowest bit that is set; all `w` of them for zero. -/
def trailingZeros : (w n : Nat) → Nat
  | 0, _ => 0
  | w + 1, n => if n % 2 = 1 then 0 else trailingZeros w (n / 2) + 1

theorem trailingZeros_le (w n : Nat) : trailingZeros w n ≤ w := by
  induction w generalizing n with
  | zero => exact le_refl 0
  | succ w ih =>
    rw [trailingZeros]
    split
    · exact Nat.zero_le _
    · exact Nat.succ_le_succ (ih (n / 2))

/-- The length of the run of ones, when the rest is zeros. -/
def prefixOf (w n : Nat) : Option (Fin (w + 1)) :=
  let zeros := trailingZeros w n
  if n >>> zeros = 2 ^ (w - zeros) - 1 then some ⟨w - zeros, by omega⟩ else none

variable {w p n i : Nat}

theorem testBit_allOnes : (allOnes w).testBit i = decide (i < w) := Nat.testBit_two_pow_sub_one w i

theorem testBit_netmask (hp : p ≤ w) : (netmask w p).testBit i = decide (w - p ≤ i ∧ i < w) := by
  rw [netmask, Nat.testBit_xor, Nat.testBit_shiftRight, testBit_allOnes, testBit_allOnes,
    Bool.eq_iff_iff]
  simp only [bne_iff_ne, ne_eq, decide_eq_decide, decide_eq_true_eq]
  omega

theorem testBit_clear (n h i : Nat) : (n / 2 ^ h * 2 ^ h).testBit i = (decide (h ≤ i) && n.testBit i) := by
  rw [← Nat.shiftRight_eq_div_pow, ← Nat.shiftLeft_eq, Nat.testBit_shiftLeft, Nat.testBit_shiftRight]
  by_cases hi : h ≤ i
  · rw [Nat.add_sub_cancel' hi]
  · simp [hi]

/-- **Masking clears the lowest bits.** -/
theorem and_netmask (hp : p ≤ w) (hn : n < 2 ^ w) :
    n &&& netmask w p = n / 2 ^ (w - p) * 2 ^ (w - p) := by
  refine Nat.eq_of_testBit_eq fun i => ?_
  rw [Nat.testBit_and, testBit_netmask hp, testBit_clear, Bool.and_comm]
  by_cases hi : i < w
  · simp [hi]
  · have hzero : n.testBit i = false :=
      Nat.testBit_lt_two_pow (hn.trans_le (Nat.pow_le_pow_right (by decide) (not_lt.mp hi)))
    simp [hzero]

theorem netmask_eq (hp : p ≤ w) : netmask w p = 2 ^ w - 2 ^ (w - p) := by
  have hones : allOnes w < 2 ^ w := Nat.sub_lt (Nat.two_pow_pos w) Nat.one_pos
  have hself : allOnes w &&& netmask w p = netmask w p := by
    refine Nat.eq_of_testBit_eq fun i => ?_
    rw [Nat.testBit_and, testBit_allOnes, testBit_netmask hp, Bool.and_eq_right_iff_imp]
    simp
  have hsplit : 2 ^ w = 2 ^ p * 2 ^ (w - p) := by rw [← pow_add, Nat.add_sub_cancel' hp]
  have hpos := Nat.two_pow_pos (w - p)
  have hdiv : allOnes w / 2 ^ (w - p) = 2 ^ p - 1 := by
    rw [allOnes, hsplit, Nat.div_eq_iff hpos]
    have hle : 2 ^ (w - p) ≤ 2 ^ p * 2 ^ (w - p) := Nat.le_mul_of_pos_left _ (Nat.two_pow_pos p)
    rw [Nat.sub_mul, one_mul]
    omega
  rw [← hself, and_netmask hp hones, hdiv, Nat.sub_mul, one_mul, ← hsplit]

theorem netmask_lt (hp : p ≤ w) : netmask w p < 2 ^ w := by
  have hpos := Nat.two_pow_pos (w - p)
  have hw := Nat.two_pow_pos w
  rw [netmask_eq hp]
  omega

/-- The bits under a netmask are where they belong. -/
theorem dvd_and_netmask (hp : p ≤ w) (n : Nat) : 2 ^ (w - p) ∣ n &&& netmask w p := by
  have hclear : (n &&& netmask w p) / 2 ^ (w - p) * 2 ^ (w - p) = n &&& netmask w p := by
    refine Nat.eq_of_testBit_eq fun i => ?_
    rw [testBit_clear, Nat.testBit_and, testBit_netmask hp]
    by_cases hi : w - p ≤ i <;> simp [hi]
  exact ⟨_, by rw [mul_comm]; exact hclear.symm⟩

theorem and_netmask_lt (hp : p ≤ w) (n : Nat) : n &&& netmask w p < 2 ^ w :=
  Nat.and_lt_two_pow n (netmask_lt hp)

/-! ## Reading masks back -/

theorem two_pow_trailingZeros_dvd (w n : Nat) : 2 ^ trailingZeros w n ∣ n := by
  induction w generalizing n with
  | zero => exact one_dvd n
  | succ w ih =>
    rw [trailingZeros]
    split
    · exact one_dvd n
    · have heven : 2 ∣ n := by omega
      obtain ⟨m, rfl⟩ := heven
      rw [Nat.mul_div_cancel_left m (by decide), pow_succ, mul_comm]
      exact Nat.mul_dvd_mul_left 2 (ih m)

/-- An odd number shifted has as many zeros as it is shifted by. -/
theorem trailingZeros_mul {h m : Nat} (hh : h ≤ w) (hm : m % 2 = 1 ∨ h = w) :
    trailingZeros w (2 ^ h * m) = h := by
  induction h generalizing w with
  | zero =>
    cases w with
    | zero => rfl
    | succ w =>
      have hodd : m % 2 = 1 := hm.resolve_right (by omega)
      rw [pow_zero, one_mul, trailingZeros, if_pos hodd]
  | succ h ih =>
    obtain ⟨w, rfl⟩ : ∃ v, w = v + 1 := ⟨w - 1, by omega⟩
    have hshift : 2 ^ (h + 1) * m = 2 * (2 ^ h * m) := by rw [pow_succ]; ring
    rw [hshift, trailingZeros, if_neg (by omega), Nat.mul_div_cancel_left _ (by decide),
      ih (by omega) (hm.imp_right (by omega))]

theorem netmask_eq_mul (hp : p ≤ w) : netmask w p = 2 ^ (w - p) * (2 ^ p - 1) := by
  rw [netmask_eq hp, Nat.mul_sub, mul_one, ← pow_add, Nat.sub_add_cancel hp]

/-- **The prefix length of exactly the netmasks.** -/
theorem prefixOf_eq_some {p : Fin (w + 1)} : prefixOf w n = some p ↔ n = netmask w p := by
  have hp : (p : Nat) ≤ w := Nat.lt_succ_iff.mp p.isLt
  unfold prefixOf
  constructor
  · intro h
    dsimp only at h
    split at h
    · rename_i hones
      obtain rfl := Option.some.inj h
      have hz := two_pow_trailingZeros_dvd w n
      rw [netmask_eq_mul hp, Nat.sub_sub_self (trailingZeros_le w n), ← hones,
        Nat.shiftRight_eq_div_pow, Nat.mul_div_cancel' hz]
    · cases h
  · rintro rfl
    have hodd : (2 ^ (p : Nat) - 1) % 2 = 1 ∨ w - p = w := by
      rcases Nat.eq_zero_or_pos (p : Nat) with hzero | hpos
      · exact .inr (by omega)
      · obtain ⟨q, hq⟩ : ∃ q, (p : Nat) = q + 1 := ⟨p - 1, by omega⟩
        have hq2 : 2 ^ (p : Nat) = 2 * 2 ^ q := by rw [hq, pow_succ, mul_comm]
        have := Nat.two_pow_pos q
        exact .inl (by omega)
    have hz : trailingZeros w (netmask w p) = w - p := by
      rw [netmask_eq_mul hp]
      exact trailingZeros_mul (Nat.sub_le w p) hodd
    have hlen : w - trailingZeros w (netmask w p) = p := by rw [hz, Nat.sub_sub_self hp]
    have hones : netmask w p >>> trailingZeros w (netmask w p) = 2 ^ (p : Nat) - 1 := by
      rw [hz, Nat.shiftRight_eq_div_pow, netmask_eq_mul hp,
        Nat.mul_div_cancel_left _ (Nat.two_pow_pos _)]
    dsimp only
    rw [if_pos (by rw [hones, hlen])]
    exact congrArg some (Fin.ext hlen)

/-! ## Hostmasks -/

theorem hostmask_eq (hp : p ≤ w) : hostmask w p = 2 ^ (w - p) - 1 := by
  refine Nat.eq_of_testBit_eq fun i => ?_
  rw [hostmask, Nat.testBit_shiftRight, testBit_allOnes, Nat.testBit_two_pow_sub_one, decide_eq_decide]
  omega

/-- A hostmask is a netmask with all bits flipped. -/
theorem hostmask_xor (w p : Nat) : hostmask w p ^^^ allOnes w = netmask w p := Nat.xor_comm _ _

/-- Apart from the two extremes, a hostmask is no netmask. -/
theorem prefixOf_hostmask (h0 : 0 < p) (hp : p < w) : prefixOf w (hostmask w p) = none := by
  refine Option.eq_none_iff_forall_ne_some.mpr fun q hq => ?_
  have hle : (q : Nat) ≤ w := Nat.lt_succ_iff.mp q.isLt
  rw [prefixOf_eq_some, hostmask_eq hp.le, netmask_eq hle] at hq
  obtain ⟨k, hk⟩ : ∃ k, w - p = k + 1 := ⟨w - p - 1, by omega⟩
  obtain ⟨v, hv⟩ : ∃ v, w = v + 1 := ⟨w - 1, by omega⟩
  have hk2 : 2 ^ (w - p) = 2 * 2 ^ k := by rw [hk, pow_succ, mul_comm]
  have hv2 : 2 ^ w = 2 * 2 ^ v := by rw [hv, pow_succ, mul_comm]
  have hkpos := Nat.two_pow_pos k
  rcases Nat.lt_or_eq_of_le hle with hlt | heq
  · -- a netmask with a zero bit is even
    obtain ⟨j, hj⟩ : ∃ j, w - q = j + 1 := ⟨w - q - 1, by omega⟩
    have hj2 : 2 ^ (w - q) = 2 * 2 ^ j := by rw [hj, pow_succ, mul_comm]
    omega
  · -- the netmask of all bits is too large
    rw [heq, Nat.sub_self, pow_zero] at hq
    have hlt : 2 ^ (w - p) < 2 ^ w := Nat.pow_lt_pow_right (by decide) (by omega)
    omega

end Netmask
