import Pyscan.Adapters.PcapngBlocks
import Pyscan.Adapters.PcapFile

/-!
# The exceptions of the capture reader

The reader raises a `ValueError` on what it takes for malformed. `CutInterface`
is the one kind of file on which it raises anything else, and **the reader
refuses a file cleanly exactly when** it is not of that kind
(`refused_cleanly`). A run of the reader ends, by its type.
-/

namespace Pyscan.Pcapng

open Py Framed PcapReader

/-! ## Blocks that raise -/

theorem parseEpb_yields (body : Bytes) (e : Endian) (interfaces : List Interface) :
    Yields (parseEpb body e interfaces) fun _ => True := by
  unfold parseEpb
  split
  · exact yields_ok trivial
  · rw [Endian.unpackIIIII_ok (by rw [List.length_take]; omega), ok_bind]
    dsimp only
    split <;> exact yields_ok trivial

theorem parseObsoletePb_yields (body : Bytes) (e : Endian) (interfaces : List Interface) :
    Yields (parseObsoletePb body e interfaces) fun _ => True := by
  unfold parseObsoletePb
  split
  · exact yields_ok trivial
  · rw [Endian.unpackHHIIII_ok (by rw [List.length_take]; omega), ok_bind]
    dsimp only
    split <;> exact yields_ok trivial

/-- An interface block whose options are cut off behind the header of an `if_tsresol`. -/
structure CutOptions (e : Endian) (type : Nat) (body : Bytes) : Prop where
  idb : type = btIdb
  options : 8 ≤ body.length
  cut : CutResolution e (body.drop 8)

theorem parseIdb_raises {body : Bytes} {e : Endian} {kind : PyErr} :
    parseIdb body e = .error kind ↔
      8 ≤ body.length ∧ CutResolution e (body.drop 8) ∧ kind = .indexError := by
  unfold parseIdb
  by_cases h : body.length < 8
  · rw [if_pos h]
    exact iff_of_false (by rintro ⟨⟩) fun hc => absurd hc.1 (by omega)
  · rw [if_neg h, Endian.unpackH_ok (by rw [List.length_take]; omega), ok_bind,
      ← timestampDivisor_raises]
    cases timestampDivisor (body.drop 8) e with
    | ok divisor => exact iff_of_false (by rintro ⟨⟩) (by rintro ⟨-, ⟨⟩⟩)
    | error kind' =>
      rw [and_iff_right (by omega)]
      exact ⟨fun hk => by cases hk; rfl, fun hk => by cases hk; rfl⟩

/-- Only an interface block raises. -/
theorem dispatch_raises {s : Section} {type : Nat} {body : Bytes} {kind : PyErr} :
    dispatch s type body = .error kind ↔ CutOptions s.endian type body ∧ kind = .indexError := by
  have hcut : ∀ h : type ≠ btIdb, ¬ (CutOptions s.endian type body ∧ kind = .indexError) :=
    fun h hc => h hc.1.idb
  obtain ⟨epb, hepb, -⟩ := parseEpb_yields body s.endian s.interfaces
  obtain ⟨pb, hpb, -⟩ := parseObsoletePb_yields body s.endian s.interfaces
  unfold dispatch
  rw [hepb, hpb, ok_bind, ok_bind]
  by_cases h : type = btIdb
  · rw [if_pos h]
    constructor
    · intro hr
      cases hp : parseIdb body s.endian with
      | ok i => rw [hp] at hr; cases hr
      | error kind' =>
        rw [hp] at hr
        cases hr
        obtain ⟨hlen, hcut, hkind⟩ := parseIdb_raises.mp hp
        exact ⟨⟨h, hlen, hcut⟩, hkind⟩
    · rintro ⟨⟨-, hlen, hcut⟩, hkind⟩
      rw [parseIdb_raises.mpr ⟨hlen, hcut, hkind⟩]
      rfl
  · rw [if_neg h]
    refine iff_of_false ?_ (hcut h)
    split
    · rintro ⟨⟩
    · split
      · rintro ⟨⟩
      · split <;> rintro ⟨⟩

/-! ## Runs that raise -/

/-- Complete blocks and, behind them, an interface block with cut options. -/
def Crashes (e : Endian) (d : Bytes) : Prop :=
  ∃ (before : List RawBlock) (b : Block) (rest : Bytes),
    d = layout.stream e before ++ (b.bytes (layout.after e before) ++ rest) ∧
      CutOptions (layout.after e before) b.type b.body

theorem Crashes.cons {e : Endian} (b : RawBlock) {rest : Bytes} (h : Crashes (layout.next e b) rest) :
    Crashes e (layout.bytes e b ++ rest) := by
  obtain ⟨before, b', rest', rfl, hcut⟩ := h
  refine ⟨b :: before, b', rest', ?_, hcut⟩
  rw [Grammar.stream, List.append_assoc]
  rfl

/-- The turn at any block raises on cut options, or goes on behind the block. -/
theorem blockTurn_layout (s : Section) (b : RawBlock) (rest : Bytes) :
    (∃ b' : Block, b = .block b' ∧ CutOptions s.endian b'.type b'.body ∧
        blockTurn s (layout.bytes s.endian b ++ rest) = .error ⟨.indexError, none⟩) ∨
      ∃ interfaces out, blockTurn s (layout.bytes s.endian b ++ rest) =
        .ok (some (⟨layout.next s.endian b, interfaces⟩, rest, out)) := by
  cases b with
  | shb b => exact .inr ⟨_, _, blockTurn_shb s b rest⟩
  | block b =>
    have hturn := blockTurn_block s b rest
    cases hd : dispatch s b.type b.body with
    | ok r =>
      rw [hd] at hturn
      exact .inr ⟨_, _, hturn⟩
    | error kind =>
      obtain ⟨hcut, rfl⟩ := dispatch_raises.mp hd
      rw [hd] at hturn
      exact .inl ⟨b, rfl, hcut, hturn⟩

/-- The pcapng loop ends in anything but a `ValueError` on crashing bytes only. -/
theorem crashes_of_raises (s : Section) (handle : Bytes) :
    ∀ err, (blocks.run s handle).error = some err → err.kind ≠ .valueError →
      Crashes s.endian handle := by
  refine Reader.run_rule (R := blocks) (P := fun s handle r => ∀ err, r.error = some err →
    err.kind ≠ .valueError → Crashes s.endian handle) ?_ ?_ ?_ s handle
  · rintro s handle e hturn err ⟨⟩ hkind
    rcases blockTurn_inv s handle with hstop | ⟨text, hraise⟩ | ⟨b, rest, rfl⟩
    · cases hturn.symm.trans hstop
    · cases hturn.symm.trans hraise
      exact absurd rfl hkind
    · rcases blockTurn_layout s b rest with ⟨b, rfl, hcut, -⟩ | ⟨_, _, hgo⟩
      · exact ⟨[], b, rest, rfl, hcut⟩
      · cases hturn.symm.trans hgo
  · rintro s handle - err ⟨⟩
  · intro s handle s' handle' out r hturn ih err herr hkind
    rcases blockTurn_inv s handle with hstop | ⟨text, hraise⟩ | ⟨b, rest, rfl⟩
    · cases hturn.symm.trans hstop
    · cases hturn.symm.trans hraise
    · rcases blockTurn_layout s b rest with ⟨_, _, _, hraise⟩ | ⟨_, _, hgo⟩
      · cases hturn.symm.trans hraise
      · cases hturn.symm.trans hgo
        exact (ih err herr hkind).cons b

/-- On crashing bytes it ends in an `IndexError`. -/
theorem Crashes.raises {e : Endian} {d : Bytes} (h : Crashes e d) (interfaces : List Interface) :
    (blocks.run ⟨e, interfaces⟩ d).error = some ⟨.indexError, none⟩ := by
  obtain ⟨before, b, rest, rfl, hcut⟩ := h
  induction before generalizing e interfaces with
  | nil =>
    have hd := dispatch_raises (s := ⟨e, interfaces⟩).mpr ⟨hcut, rfl⟩
    have hturn := blockTurn_block ⟨e, interfaces⟩ b rest
    rw [hd] at hturn
    exact congrArg Outcome.error (Reader.run_raise (R := blocks) hturn)
  | cons b' before ih =>
    rw [Grammar.stream, List.append_assoc]
    rcases blockTurn_layout ⟨e, interfaces⟩ b' (layout.stream (layout.next e b') before ++
      (b.bytes (layout.after e (b' :: before)) ++ rest)) with ⟨-, -, -, hraise⟩ | ⟨_, _, hgo⟩
    · exact congrArg Outcome.error (Reader.run_raise (R := blocks) hraise)
    · rw [Reader.run_next (R := blocks) hgo]
      exact ih _ hcut

/-! ## Files -/

/-- A file that starts with a section header has, behind complete blocks, an interface block with
cut options. -/
def CutInterface (contents : Bytes) : Prop :=
  contents.take 4 = Endian.little.field 4 btShb ∧ Crashes .little contents

/-- The classic loop raises on an implausible record length only. -/
theorem records_raises (g : Global) (handle : Bytes) :
    ∀ err, (records.run g handle).error = some err → err.kind = .valueError := by
  refine Reader.run_rule (R := records) (P := fun _ _ r => ∀ err, r.error = some err →
    err.kind = .valueError) ?_ ?_ ?_ g handle
  · rintro g handle e hturn err ⟨⟩
    replace hturn : recordTurn g handle = .error e := hturn
    unfold recordTurn at hturn
    dsimp only at hturn
    split at hturn
    · cases hturn
    · rw [Endian.unpackIIII_ok (by rw [List.length_take] at *; omega), call_ok, ok_bind] at hturn
      dsimp only at hturn
      split at hturn
      · cases hturn
        rfl
      · split at hturn <;> cases hturn
  · rintro _ _ - err ⟨⟩
  · intro _ _ _ _ _ r _ ih err herr
    exact ih err herr

theorem readClassic_raises {handle magic : Bytes} {err : Raised}
    (h : (generator (readClassic handle magic)).error = some err) : err.kind = .valueError := by
  unfold readClassic at h
  dsimp only at h
  split at h
  · cases h
    rfl
  · rename_i hrest
    have hlen : (slice (handle.take 20) 16 20).length = 4 := by
      rw [length_slice_of_le (by omega)]
    rw [Endian.unpackI_ok hlen, call_ok, ok_bind] at h
    exact records_raises _ _ err h

theorem readPcap_other {contents : Bytes} (h : contents.take 4 ≠ Endian.little.field 4 btShb)
    {err : Raised} (he : (readPcap contents).error = some err) : err.kind = .valueError := by
  unfold readPcap at he
  dsimp only at he
  split at he
  · cases he
    rfl
  · rename_i hlen
    have hfour : (contents.take 4).length = 4 := by
      rw [List.length_take] at hlen ⊢
      omega
    split at he
    · exact readClassic_raises he
    · have hne := btShb_ne_value hfour h
      rw [Endian.unpackI_ok hfour, Endian.unpackI_ok hfour, call_ok, call_ok, ok_bind, ok_bind,
        if_neg (by simp [hne])] at he
      cases he
      rfl

/-- **A malformed capture is refused with a `ValueError` exactly when** no interface block that the
reader comes to has its options cut off behind the header of an `if_tsresol`. -/
theorem refused_cleanly (contents : Bytes) :
    (∀ err, (readPcap contents).error = some err → err.kind = .valueError) ↔
      ¬ CutInterface contents := by
  by_cases hshb : contents.take 4 = Endian.little.field 4 btShb
  · rw [readPcap_pcapng hshb, CutInterface, and_iff_right hshb]
    constructor
    · intro hclean hcrash
      cases hclean _ (hcrash.raises [])
    · intro hsafe err herr
      by_contra hkind
      exact hsafe (crashes_of_raises ⟨.little, []⟩ contents err herr hkind)
  · exact iff_of_true (fun err herr => readPcap_other hshb herr) fun h => hshb h.1

/-- A section header, and an interface block whose options are the four bytes of an `if_tsresol`
header that declares one byte: not a `ValueError`. -/
theorem refused_cleanly_cut :
    ¬ ∀ contents err, (readPcap contents).error = some err → err.kind = .valueError := by
  intro hclean
  have hcut : CutInterface ([0x0A, 0x0D, 0x0D, 0x0A, 28, 0, 0, 0, 0x4D, 0x3C, 0x2B, 0x1A,
      1, 0, 0, 0, 255, 255, 255, 255, 255, 255, 255, 255, 28, 0, 0, 0,
      1, 0, 0, 0, 24, 0, 0, 0, 1, 0, 0, 0, 0, 0, 0, 0, 9, 0, 1, 0, 24, 0, 0, 0] : Bytes) := by
    refine ⟨rfl, [.shb ⟨.little, [1, 0, 0, 0, 255, 255, 255, 255, 255, 255, 255, 255],
      [28, 0, 0, 0], by decide, rfl⟩], ⟨btIdb, [1, 0, 0, 0, 0, 0, 0, 0, 9, 0, 1, 0], [24, 0, 0, 0],
      by decide, by decide, by decide, rfl⟩, [], rfl, rfl, by decide, ?_⟩
    exact .cut 1 (by decide) (by decide)
  have herr := hcut.2.raises []
  rw [show blocks.run ⟨.little, []⟩ _ = readPcapng _ from rfl, ← readPcap_pcapng hcut.1] at herr
  cases hclean _ _ herr

end Pyscan.Pcapng
