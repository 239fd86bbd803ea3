import Pyscan.Adapters.PcapReader

/-!
# Options of an interface block

The options walk of `timestampDivisor`, option by option: it stops at
`opt_endofopt`, reads `if_tsresol`, and skips any other option with its padding
(`timestampDivisor_end`, `_resol`, `_skip`). It raises on one kind of options
only, those that end right behind the header of an `if_tsresol`
(`timestampDivisor_raises`), and reads off any other what `Resolution` says.
-/

namespace Pyscan.Pcapng

open Py PcapReader

/-- The walk at `offset` is the walk from the start of what is left. -/
theorem divisorLoop_drop [Floats] (options : Bytes) (e : Endian) (offset : Nat) :
    divisorLoop options e offset = timestampDivisor (options.drop offset) e := by
  induction hn : options.length - offset using Nat.strongRecOn generalizing options offset with
  | _ n ih =>
    unfold timestampDivisor
    rw [divisorLoop, divisorLoop]
    by_cases h : offset + 4 ≤ options.length
    · have hslice : ∀ i j, slice options (offset + i) (offset + j) = slice (options.drop offset) i j := by
        intro i j
        simp only [slice, List.take_drop, List.drop_drop]
      have hslice4 : slice options offset (offset + 4) = slice (options.drop offset) 0 4 := hslice 0 4
      have hnext : ∀ k, 4 ≤ k → divisorLoop options e (offset + k) =
          divisorLoop (options.drop offset) e k := by
        intro k hk
        rw [ih (options.length - (offset + k)) (by omega) options (offset + k) rfl,
          ih ((options.drop offset).length - k) (by rw [List.length_drop]; omega)
            (options.drop offset) k rfl, List.drop_drop]
      rw [dif_pos h, dif_pos (by rw [List.length_drop]; omega), hslice4, Nat.zero_add]
      congr 1
      funext r
      obtain ⟨code, length⟩ := r
      dsimp only
      rw [Nat.add_assoc, hslice 4 (4 + length), hnext _ (by omega), Nat.zero_add]
    · rw [dif_neg h, dif_neg (by rw [List.length_drop]; omega)]

section Walk

variable {e : Endian}

theorem timestampDivisor_short [Floats] {d : Bytes} (h : d.length < 4) :
    timestampDivisor d e = .ok (float (10 ^ 6)) := by
  rw [timestampDivisor, divisorLoop, dif_neg (by omega)]

/-- The walk at an option header. -/
theorem timestampDivisor_cons [Floats] {code length : Nat} (hcode : code < 2 ^ 16) (hlength : length < 2 ^ 16)
    (rest : Bytes) :
    timestampDivisor (e.field 2 code ++ (e.field 2 length ++ rest)) e =
      if code = 0 then .ok (float (10 ^ 6))
      else if code = 9 ∧ 1 ≤ length then (do
        let raw := (← index (rest.take length) 0).toNat
        .ok (if raw &&& 0x80 ≠ 0 then float (2 ^ (raw &&& 0x7F)) else float (10 ^ raw)))
      else timestampDivisor (rest.drop (length + pad4 length)) e := by
  obtain ⟨head, hhead⟩ : ∃ head, head = e.field 2 code ++ e.field 2 length := ⟨_, rfl⟩
  have hlen : head.length = 4 := by simp [hhead]
  have htake : slice (head ++ rest) 0 (0 + 4) = head := by
    rw [slice, List.drop_zero, List.take_append_of_le_length (by omega),
      List.take_of_length_le (by omega)]
  have hvalue : slice (head ++ rest) (0 + 4) (0 + 4 + length) = rest.take length := by
    rw [slice, ← List.take_drop, Nat.zero_add, drop_append hlen]
  rw [← List.append_assoc, ← hhead, timestampDivisor, divisorLoop, dif_pos (by simp [hlen])]
  rw [htake, hhead, Endian.unpackHH_fields hcode hlength, ok_bind, ← hhead]
  dsimp only
  by_cases h0 : code = 0
  · rw [if_pos h0, if_pos h0]
  · rw [if_neg h0, if_neg h0, hvalue]
    by_cases h9 : code = 9 ∧ 1 ≤ length
    · rw [if_pos h9, if_pos h9]
    · rw [if_neg h9, if_neg h9, divisorLoop_drop, Nat.zero_add, Nat.add_assoc, ← List.drop_drop,
        drop_append hlen]

theorem timestampDivisor_end [Floats] {length : Nat} (hlength : length < 2 ^ 16) (rest : Bytes) :
    timestampDivisor (e.field 2 0 ++ (e.field 2 length ++ rest)) e = .ok (float (10 ^ 6)) := by
  rw [timestampDivisor_cons (by decide) hlength, if_pos rfl]

theorem timestampDivisor_skip [Floats] {code length : Nat} (hcode : code < 2 ^ 16) (hlength : length < 2 ^ 16)
    (h0 : code ≠ 0) (h9 : code = 9 → length = 0) (rest : Bytes) :
    timestampDivisor (e.field 2 code ++ (e.field 2 length ++ rest)) e =
      timestampDivisor (rest.drop (length + pad4 length)) e := by
  rw [timestampDivisor_cons hcode hlength, if_neg h0, if_neg]
  rintro ⟨hc, hl⟩
  have := h9 hc
  omega

/-- The walk at an `if_tsresol` that has a value. -/
theorem timestampDivisor_resol [Floats] {length : Nat} (hlength : length < 2 ^ 16) (h1 : 1 ≤ length)
    (raw : UInt8) (rest : Bytes) :
    timestampDivisor (e.field 2 9 ++ (e.field 2 length ++ (raw :: rest))) e =
      .ok (if raw.toNat &&& 0x80 ≠ 0 then float (2 ^ (raw.toNat &&& 0x7F))
        else float (10 ^ raw.toNat)) := by
  rw [timestampDivisor_cons (by decide) hlength, if_neg (by decide), if_pos ⟨rfl, h1⟩]
  obtain ⟨n, rfl⟩ : ∃ n, length = n + 1 := ⟨length - 1, by omega⟩
  rfl

/-- The walk at an `if_tsresol` cut off behind its header. -/
theorem timestampDivisor_cut [Floats] {length : Nat} (hlength : length < 2 ^ 16) (h1 : 1 ≤ length) :
    timestampDivisor (e.field 2 9 ++ e.field 2 length) e = .error .indexError := by
  have h := timestampDivisor_cons (e := e) (by decide : 9 < 2 ^ 16) hlength []
  rw [List.append_nil, if_neg (by decide), if_pos ⟨rfl, h1⟩, List.take_nil] at h
  exact h

/-! ## The options that raise -/

/-- Complete options, none of them `opt_endofopt` or an `if_tsresol` with a value, and behind them
just the header of an `if_tsresol` that declares one. -/
inductive CutResolution (e : Endian) : Bytes → Prop where
  | cut (length : Nat) (h1 : 1 ≤ length) (hlength : length < 2 ^ 16) :
      CutResolution e (e.field 2 9 ++ e.field 2 length)
  | skip (code : Nat) (value padding rest : Bytes) (hcode : code < 2 ^ 16)
      (hlength : value.length < 2 ^ 16) (h0 : code ≠ 0) (h9 : code = 9 → value = [])
      (hpad : padding.length = pad4 value.length) (hrest : CutResolution e rest) :
      CutResolution e (e.field 2 code ++ (e.field 2 value.length ++ (value ++ (padding ++ rest))))

theorem CutResolution.ne_nil {d : Bytes} (h : CutResolution e d) : d ≠ [] := by
  intro hd
  have hlen := congrArg List.length hd
  cases h <;> simp at hlen

theorem CutResolution.raises [Floats] {d : Bytes} (h : CutResolution e d) :
    timestampDivisor d e = .error .indexError := by
  induction h with
  | cut length h1 hlength => exact timestampDivisor_cut hlength h1
  | skip code value padding rest hcode hlength h0 h9 hpad hrest ih =>
    rw [timestampDivisor_skip hcode hlength h0 (fun hc => by rw [h9 hc]; rfl), ← List.append_assoc,
      drop_append (by rw [List.length_append, hpad]), ih]

/-- Bytes with room for an option header start with one. -/
theorem exists_header {d : Bytes} (h : 4 ≤ d.length) :
    ∃ code length rest, code < 2 ^ 16 ∧ length < 2 ^ 16 ∧
      d = e.field 2 code ++ (e.field 2 length ++ rest) := by
  have h2 : (d.take 2).length = 2 := by
    rw [List.length_take]
    omega
  have h2' : ((d.drop 2).take 2).length = 2 := by
    rw [List.length_take, List.length_drop]
    omega
  have hcode := e.value_lt (d.take 2)
  have hlength := e.value_lt ((d.drop 2).take 2)
  have hf := e.field_value (d.take 2)
  have hf' := e.field_value ((d.drop 2).take 2)
  rw [h2] at hcode hf
  rw [h2'] at hlength hf'
  refine ⟨_, _, (d.drop 2).drop 2, hcode, hlength, ?_⟩
  rw [hf, hf', List.take_append_drop, List.take_append_drop]

theorem cutResolution_of_raises [Floats] {d : Bytes} {kind : PyErr} (h : timestampDivisor d e = .error kind) :
    CutResolution e d ∧ kind = .indexError := by
  induction hn : d.length using Nat.strongRecOn generalizing d with
  | _ n ih =>
    by_cases h4 : 4 ≤ d.length
    · obtain ⟨code, length, rest, hcode, hlength, rfl⟩ := exists_header (e := e) h4
      by_cases h0 : code = 0
      · rw [h0, timestampDivisor_end hlength] at h
        cases h
      · by_cases h9 : code = 9 ∧ 1 ≤ length
        · obtain ⟨rfl, h1⟩ := h9
          cases rest with
          | nil =>
            rw [List.append_nil] at h ⊢
            rw [timestampDivisor_cut hlength h1] at h
            cases h
            exact ⟨.cut length h1 hlength, rfl⟩
          | cons raw rest =>
            rw [timestampDivisor_resol hlength h1] at h
            cases h
        · have h9' : code = 9 → length = 0 := fun hc => by
            by_contra hl
            exact h9 ⟨hc, Nat.one_le_iff_ne_zero.mpr hl⟩
          rw [timestampDivisor_skip hcode hlength h0 h9'] at h
          have hn' : (rest.drop (length + pad4 length)).length < n := by
            rw [← hn, List.length_drop]
            simp only [List.length_append, Endian.length_field]
            omega
          obtain ⟨hcut, hkind⟩ := ih _ hn' h rfl
          -- the walk did not run off the end, so the option is complete
          have hroom : length + pad4 length < rest.length := by
            by_contra hlt
            exact hcut.ne_nil (List.drop_eq_nil_of_le (Nat.le_of_not_lt hlt))
          have hvalue : (rest.take length).length = length := by
            rw [List.length_take]
            omega
          have hskip := CutResolution.skip (e := e) code (rest.take length)
            ((rest.drop length).take (pad4 length)) _ hcode (hvalue.symm ▸ hlength) h0
            (fun hc => by rw [h9' hc, List.take_zero])
            (by rw [hvalue, List.length_take, List.length_drop]; omega) hcut
          rw [hvalue, ← List.drop_drop, List.take_append_drop, List.take_append_drop] at hskip
          exact ⟨hskip, hkind⟩
    · rw [timestampDivisor_short (by omega)] at h
      cases h

/-- **The options walk raises** on options cut off behind the header of an `if_tsresol`, an
`IndexError`, and on no others. -/
theorem timestampDivisor_raises [Floats] {d : Bytes} {kind : PyErr} :
    timestampDivisor d e = .error kind ↔ CutResolution e d ∧ kind = .indexError := by
  constructor
  · exact cutResolution_of_raises
  · rintro ⟨h, rfl⟩
    exact h.raises

/-! ## What the options declare -/

/-- Units per second by the value of an `if_tsresol`, exactly: its high bit chooses powers of two. -/
def unitsPerSecond (raw : UInt8) : ℚ :=
  if 128 ≤ raw.toNat then 2 ^ (raw.toNat - 128) else 10 ^ raw.toNat

theorem one_le_unitsPerSecond (raw : UInt8) : 1 ≤ unitsPerSecond raw := by
  unfold unitsPerSecond
  split <;> exact one_le_pow₀ (by norm_num)

theorem unitsPerSecond_bits [Floats] (raw : UInt8) :
    (if raw.toNat &&& 0x80 ≠ 0 then float (2 ^ (raw.toNat &&& 0x7F)) else float (10 ^ raw.toNat)) =
      float (unitsPerSecond raw) := by
  have hbits : ∀ n < 256, (n &&& 0x80 ≠ 0 ↔ 128 ≤ n) ∧ (128 ≤ n → n &&& 0x7F = n - 128) := by
    decide +kernel
  obtain ⟨hhigh, hlow⟩ := hbits raw.toNat raw.toNat_lt
  unfold unitsPerSecond
  by_cases h : 128 ≤ raw.toNat
  · rw [if_pos (hhigh.mpr h), if_pos h, hlow h]
  · rw [if_neg (fun hb => h (hhigh.mp hb)), if_neg h]

/-- Options that declare `q` units per second: the first `if_tsresol` with a value says so, and
microseconds are meant when there is none in front of `opt_endofopt` or of the end. -/
inductive Resolution (e : Endian) : Bytes → ℚ → Prop where
  | short (d : Bytes) (hshort : d.length < 4) : Resolution e d (10 ^ 6)
  | ends (length : Nat) (rest : Bytes) (hlength : length < 2 ^ 16) :
      Resolution e (e.field 2 0 ++ (e.field 2 length ++ rest)) (10 ^ 6)
  | resol (length : Nat) (raw : UInt8) (rest : Bytes) (h1 : 1 ≤ length) (hlength : length < 2 ^ 16) :
      Resolution e (e.field 2 9 ++ (e.field 2 length ++ (raw :: rest))) (unitsPerSecond raw)
  | skip (code length : Nat) (rest : Bytes) (q : ℚ) (hcode : code < 2 ^ 16)
      (hlength : length < 2 ^ 16) (h0 : code ≠ 0) (h9 : code = 9 → length = 0)
      (hrest : Resolution e (rest.drop (length + pad4 length)) q) :
      Resolution e (e.field 2 code ++ (e.field 2 length ++ rest)) q

theorem Resolution.one_le {d : Bytes} {q : ℚ} (h : Resolution e d q) : 1 ≤ q := by
  induction h with
  | short | ends => norm_num
  | resol _ raw => exact one_le_unitsPerSecond raw
  | skip _ _ _ _ _ _ _ _ _ ih => exact ih

theorem Resolution.read [Floats] {d : Bytes} {q : ℚ} (h : Resolution e d q) :
    timestampDivisor d e = .ok (float q) := by
  induction h with
  | short d hshort => exact timestampDivisor_short hshort
  | ends length rest hlength => exact timestampDivisor_end hlength rest
  | resol length raw rest h1 hlength =>
    rw [timestampDivisor_resol hlength h1, unitsPerSecond_bits]
  | skip code length rest q hcode hlength h0 h9 hrest ih =>
    rw [timestampDivisor_skip hcode hlength h0 h9, ih]

theorem resolution_of_read [Floats] {d : Bytes} {divisor : ℚ}
    (h : timestampDivisor d e = .ok divisor) : ∃ q, Resolution e d q ∧ float q = divisor := by
  induction hn : d.length using Nat.strongRecOn generalizing d with
  | _ n ih =>
    by_cases h4 : 4 ≤ d.length
    · obtain ⟨code, length, rest, hcode, hlength, rfl⟩ := exists_header (e := e) h4
      by_cases h0 : code = 0
      · subst h0
        rw [timestampDivisor_end hlength] at h
        cases h
        exact ⟨_, .ends length rest hlength, rfl⟩
      · by_cases h9 : code = 9 ∧ 1 ≤ length
        · obtain ⟨rfl, h1⟩ := h9
          cases rest with
          | nil =>
            rw [List.append_nil, timestampDivisor_cut hlength h1] at h
            cases h
          | cons raw rest =>
            rw [timestampDivisor_resol hlength h1, unitsPerSecond_bits] at h
            cases h
            exact ⟨_, .resol length raw rest h1 hlength, rfl⟩
        · have h9' : code = 9 → length = 0 := fun hc => by
            by_contra hl
            exact h9 ⟨hc, Nat.one_le_iff_ne_zero.mpr hl⟩
          rw [timestampDivisor_skip hcode hlength h0 h9'] at h
          have hn' : (rest.drop (length + pad4 length)).length < n := by
            rw [← hn, List.length_drop]
            simp only [List.length_append, Endian.length_field]
            omega
          obtain ⟨q, hq, rfl⟩ := ih _ hn' h rfl
          exact ⟨q, .skip code length rest q hcode hlength h0 h9' hq, rfl⟩
    · rw [timestampDivisor_short (by omega)] at h
      cases h
      exact ⟨_, .short d (by omega), rfl⟩

end Walk

end Pyscan.Pcapng
