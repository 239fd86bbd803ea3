import Pyscan.Adapters.PcapReader

/-!
# Captures cut anywhere

Both loops of `readPcap` take a record or a block off the front of a file and
look no further (`steady_records`, `steady_blocks`). So a file cut anywhere, well
formed or not, gives **the records that end before the cut, and no other**
(`readPcap_cut`), whatever the floats do to their times.
-/

namespace Pyscan.PcapReader

open Py Framed

/-- A read that is not short takes its bytes off the front of the file. -/
theorem handleRead_front {handle : Bytes} {n : Nat} (h : ¬ (handle.take n).length < n) (rest : Bytes) :
    (handle.take n ++ rest).take n = handle.take n ∧ (handle.take n ++ rest).drop n = rest := by
  have hlength : (handle.take n).length = n := by
    rw [List.length_take] at h ⊢
    omega
  exact ⟨List.take_left' hlength, List.drop_left' hlength⟩

theorem steady_records [Floats] : records.Steady := by
  intro g g' handle handle' out h
  change recordTurn g handle = _ at h
  unfold recordTurn at h
  dsimp only [handleRead] at h
  split at h
  · cases h
  · rename_i hraw
    obtain ⟨⟨tsSec, tsFrac, inclLen, origLen⟩, hheader, h⟩ := bind_inv h
    dsimp only at h
    split at h
    · cases h
    · rename_i hlen
      split at h
      · cases h
      · rename_i hframe
        cases h
        refine ⟨handle.take 16 ++ (handle.drop 16).take inclLen, ?_, fun rest => ?_⟩
        · rw [List.append_assoc, List.take_append_drop, List.take_append_drop]
        · obtain ⟨htake, hdrop⟩ := handleRead_front hraw ((handle.drop 16).take inclLen ++ rest)
          obtain ⟨htake', hdrop'⟩ := handleRead_front hframe rest
          show recordTurn g _ = _
          unfold recordTurn
          dsimp only [handleRead]
          rw [List.append_assoc, htake, hdrop, if_neg hraw, hheader, ok_bind]
          dsimp only
          rw [if_neg hlen, htake', hdrop', if_neg hframe]

theorem readShbHeader_front {handle head rest : Bytes} {e : Endian} {total : Nat}
    (h : readShbHeader handle head = .ok (e, total, rest)) :
    ∃ front, handle = front ++ rest ∧
      ∀ rest', readShbHeader (front ++ rest') head = .ok (e, total, rest') := by
  unfold readShbHeader at h
  dsimp only [handleRead] at h
  split at h
  · cases h
  · rename_i hmagic
    obtain ⟨guess, hguess, h⟩ := bind_inv h
    obtain ⟨magic, hvalue, h⟩ := bind_inv h
    split at h
    · cases h
    · rename_i hgood
      obtain ⟨length, hlength, h⟩ := bind_inv h
      split at h
      · cases h
      · rename_i hsize
        cases h
        refine ⟨handle.take 4, (List.take_append_drop 4 handle).symm, fun rest' => ?_⟩
        obtain ⟨htake, hdrop⟩ := handleRead_front hmagic rest'
        unfold readShbHeader
        dsimp only [handleRead]
        rw [htake, hdrop, if_neg hmagic, hguess, ok_bind, hvalue, ok_bind, if_neg hgood, hlength,
          ok_bind, if_neg hsize]

/-- A body and its trailer are taken off the front. -/
theorem body_front {handle : Bytes} {n : Nat}
    (h : ¬ ((handle.take n).length < n ∨ ((handle.drop n).take 4).length < 4)) :
    handle = handle.take n ++ (handle.drop n).take 4 ++ (handle.drop n).drop 4 ∧ ∀ rest,
      (handle.take n ++ (handle.drop n).take 4 ++ rest).take n = handle.take n ∧
      ((handle.take n ++ (handle.drop n).take 4 ++ rest).drop n).take 4 = (handle.drop n).take 4 ∧
      ((handle.take n ++ (handle.drop n).take 4 ++ rest).drop n).drop 4 = rest := by
  obtain ⟨hbody, htrailer⟩ := not_or.mp h
  refine ⟨by rw [List.append_assoc, List.take_append_drop, List.take_append_drop], fun rest => ?_⟩
  obtain ⟨htake, hdrop⟩ := handleRead_front hbody ((handle.drop n).take 4 ++ rest)
  rw [List.append_assoc, htake, hdrop]
  exact ⟨rfl, handleRead_front htrailer rest⟩

theorem sectionTurn_front {handle head handle' : Bytes} {s' : Section} {out : List Record}
    (h : sectionTurn handle head = .ok (some (s', handle', out))) :
    ∃ front, handle = front ++ handle' ∧
      ∀ rest, sectionTurn (front ++ rest) head = .ok (some (s', rest, out)) := by
  unfold sectionTurn at h
  obtain ⟨⟨e, total, afterHeader⟩, hhead, h⟩ := bind_inv h
  dsimp only [handleRead] at h
  split at h
  · cases h
  · rename_i hwhole
    cases h
    obtain ⟨front, rfl, hfront⟩ := readShbHeader_front hhead
    obtain ⟨hsplit, hreads⟩ := body_front hwhole
    refine ⟨front ++ (afterHeader.take (total - 16) ++ (afterHeader.drop (total - 16)).take 4), ?_,
      fun rest => ?_⟩
    · rw [List.append_assoc, ← hsplit]
    · obtain ⟨hbody, htrailer, hrest⟩ := hreads rest
      unfold sectionTurn
      rw [List.append_assoc, hfront, ok_bind]
      dsimp only [handleRead]
      rw [hbody, htrailer, hrest, if_neg hwhole]

theorem bodyTurn_front [Floats] {s s' : Section} {handle head handle' : Bytes} {blockType : Nat}
    {out : List Record} (h : bodyTurn s handle head blockType = .ok (some (s', handle', out))) :
    ∃ front, handle = front ++ handle' ∧
      ∀ rest, bodyTurn s (front ++ rest) head blockType = .ok (some (s', rest, out)) := by
  unfold bodyTurn at h
  obtain ⟨total, htotal, h⟩ := bind_inv h
  dsimp only [handleRead] at h
  split at h
  · cases h
  · rename_i hsize
    split at h
    · cases h
    · rename_i hwhole
      obtain ⟨r, hr, h⟩ := bind_inv h
      cases h
      obtain ⟨hsplit, hreads⟩ := body_front hwhole
      refine ⟨_, hsplit, fun rest => ?_⟩
      obtain ⟨hbody, htrailer, hrest⟩ := hreads rest
      unfold bodyTurn
      rw [htotal, ok_bind]
      dsimp only [handleRead]
      rw [if_neg hsize, hbody, htrailer, hrest, if_neg hwhole, hr, ok_bind]

theorem steady_blocks [Floats] : blocks.Steady := by
  intro s s' handle handle' out h
  change blockTurn s handle = _ at h
  unfold blockTurn at h
  dsimp only [handleRead] at h
  split at h
  · cases h
  · rename_i hhead
    obtain ⟨blockType, htype, h⟩ := bind_inv h
    obtain ⟨front, hsplit, hfront⟩ : ∃ front, handle.drop 8 = front ++ handle' ∧ ∀ rest,
        (if blockType = btShb then sectionTurn (front ++ rest) (handle.take 8)
          else bodyTurn s (front ++ rest) (handle.take 8) blockType) = .ok (some (s', rest, out)) := by
      split at h
      · rename_i hshb
        simp only [if_pos hshb]
        exact sectionTurn_front h
      · rename_i hshb
        simp only [if_neg hshb]
        exact bodyTurn_front h
    refine ⟨handle.take 8 ++ front, ?_, fun rest => ?_⟩
    · rw [List.append_assoc, ← hsplit, List.take_append_drop]
    · obtain ⟨htake, hdrop⟩ := handleRead_front hhead (front ++ rest)
      show blockTurn s _ = _
      unfold blockTurn
      dsimp only [handleRead]
      rw [List.append_assoc, htake, hdrop, if_neg hhead, htype, ok_bind]
      exact hfront rest

/-! ## Where the records of a file end -/

/-- The records of a file, each with how many bytes of the file are left behind it. -/
def placedRecords [Floats] (contents : Bytes) : List (ℕ × Record) :=
  match openPcap records.placed.run blocks.placed.run contents with
  | .ok out => out.items
  | .error _ => []

/-- The records that end within the first `n` bytes of a file. -/
def recordsWithin [Floats] (n : ℕ) (contents : Bytes) : List Record :=
  ((placedRecords contents).filter fun p => contents.length ≤ p.1 + n).map Prod.snd

section Open

variable {contents : Bytes}

/-- A file that is no capture has no items. -/
theorem readPcap_short [Floats] (h : contents.length < 4) : (readPcap contents).items = [] := by
  have hshort : (contents.take 4).length < 4 := by
    rw [List.length_take]
    omega
  rw [readPcap_eq, openPcap, if_pos hshort]
  rfl

/-- A classic file is read from behind its global header. -/
theorem openPcap_classic [Floats] (hmagic : contents.take 4 ∈ classicMagics)
    (hlength : 24 ≤ contents.length) :
    ∃ g, ∀ {α : Type} (classic : Global → Bytes → α) (pcapng : Section → Bytes → α) (rest : Bytes),
      openPcap classic pcapng (contents.take 24 ++ rest) = .ok (classic g rest) := by
  have hmagic4 : ¬ (contents.take 4).length < 4 := by
    rw [List.length_take]
    omega
  have hheader : ¬ ((contents.drop 4).take 20).length < 20 := by
    rw [List.length_take, List.length_drop]
    omega
  obtain ⟨endian, hendian⟩ : ∃ endian : Endian, endian =
      if contents.take 4 = magicUsecLe ∨ contents.take 4 = magicNsecLe then .little else .big := ⟨_, rfl⟩
  obtain ⟨linktype, hlinktype⟩ : ∃ linktype,
      endian.unpackI (slice ((contents.drop 4).take 20) 16 20) = .ok linktype := by
    refine ⟨_, endian.unpackI_ok ?_⟩
    simp only [slice, List.length_take, List.length_drop]
    omega
  refine ⟨⟨endian, if contents.take 4 = magicNsecLe ∨ contents.take 4 = magicNsecBe then float (10 ^ 9)
    else float (10 ^ 6), linktype⟩, fun classic pcapng rest => ?_⟩
  obtain ⟨htake, hdrop⟩ := handleRead_front hmagic4 ((contents.drop 4).take 20 ++ rest)
  obtain ⟨htake', hdrop'⟩ := handleRead_front hheader rest
  have hsplit : contents.take 24 = contents.take 4 ++ (contents.drop 4).take 20 := by
    rw [← List.take_add]
  rw [hsplit, List.append_assoc]
  unfold openPcap
  dsimp only [handleRead]
  rw [htake, hdrop, if_neg hmagic4, if_pos hmagic, htake', hdrop', if_neg hheader, ← hendian, hlinktype]
  rfl

/-- A classic file that ends within its global header. -/
theorem openPcap_torn [Floats] (hmagic : contents.take 4 ∈ classicMagics) (hlength : contents.length < 24) :
    ∃ e, ∀ {α : Type} (classic : Global → Bytes → α) (pcapng : Section → Bytes → α),
      openPcap classic pcapng contents = .error e := by
  have hmagic4 : ¬ (contents.take 4).length < 4 := by
    have hall : ∀ magic ∈ classicMagics, ¬ magic.length < 4 := by decide
    exact hall _ hmagic
  have hheader : ((contents.drop 4).take 20).length < 20 := by
    rw [List.length_take, List.length_drop]
    omega
  refine ⟨⟨.valueError, some "Truncated pcap global header."⟩, fun classic pcapng => ?_⟩
  unfold openPcap
  dsimp only [handleRead]
  rw [if_neg hmagic4, if_pos hmagic, if_pos hheader]
  rfl

/-- Any other file is read from its start, or not at all, as its first four bytes say. -/
theorem openPcap_other [Floats] (h4 : 4 ≤ contents.length) (hmagic : contents.take 4 ∉ classicMagics) :
    (∀ {α : Type} (classic : Global → Bytes → α) (pcapng : Section → Bytes → α) (rest : Bytes),
      openPcap classic pcapng (contents.take 4 ++ rest) = .ok (pcapng ⟨.little, []⟩ (contents.take 4 ++ rest))) ∨
    ∃ e, ∀ {α : Type} (classic : Global → Bytes → α) (pcapng : Section → Bytes → α) (rest : Bytes),
      openPcap classic pcapng (contents.take 4 ++ rest) = .error e := by
  have hlength : (contents.take 4).length = 4 := by
    rw [List.length_take]
    omega
  have hopen : ∀ {α : Type} (classic : Global → Bytes → α) (pcapng : Section → Bytes → α) (rest : Bytes),
      openPcap classic pcapng (contents.take 4 ++ rest) =
        if btShb = Endian.little.value (contents.take 4) ∨ btShb = Endian.big.value (contents.take 4) then
          .ok (pcapng ⟨.little, []⟩ (contents.take 4 ++ rest))
        else raiseValueError "Not a pcap or pcapng file (bad magic number)." := by
    intro α classic pcapng rest
    unfold openPcap
    dsimp only [handleRead]
    rw [List.take_left' hlength, if_neg (by omega), if_neg hmagic, Endian.unpackI_ok hlength,
      Endian.unpackI_ok hlength]
    rfl
  by_cases hshb : btShb = Endian.little.value (contents.take 4) ∨
      btShb = Endian.big.value (contents.take 4)
  · exact .inl fun classic pcapng rest => by rw [hopen, if_pos hshb]
  · exact .inr ⟨_, fun classic pcapng rest => by rw [hopen, if_neg hshb]; rfl⟩

/-- A file is not read, or read with one of the two loops. -/
theorem openPcap_cases [Floats] (contents : Bytes) :
    (∃ e, ∀ {α : Type} (classic : Global → Bytes → α) (pcapng : Section → Bytes → α),
      openPcap classic pcapng contents = .error e) ∨
    (∃ g rest, ∀ {α : Type} (classic : Global → Bytes → α) (pcapng : Section → Bytes → α),
      openPcap classic pcapng contents = .ok (classic g rest)) ∨
    ∀ {α : Type} (classic : Global → Bytes → α) (pcapng : Section → Bytes → α),
      openPcap classic pcapng contents = .ok (pcapng ⟨.little, []⟩ contents) := by
  rcases Nat.lt_or_ge contents.length 4 with h4 | h4
  · exact .inl ⟨_, fun classic pcapng => if_pos (by rw [List.length_take]; omega)⟩
  by_cases hmagic : contents.take 4 ∈ classicMagics
  · rcases Nat.lt_or_ge contents.length 24 with h24 | h24
    · exact .inl (openPcap_torn hmagic h24)
    · obtain ⟨g, hopen⟩ := openPcap_classic hmagic h24
      refine .inr (.inl ⟨g, contents.drop 24, fun classic pcapng => ?_⟩)
      have hfile := hopen classic pcapng (contents.drop 24)
      rwa [List.take_append_drop] at hfile
  · rcases openPcap_other h4 hmagic with hopen | ⟨e, hopen⟩
    · refine .inr (.inr fun classic pcapng => ?_)
      have hfile := hopen classic pcapng (contents.drop 4)
      rwa [List.take_append_drop] at hfile
    · refine .inl ⟨e, fun classic pcapng => ?_⟩
      have hfile := hopen classic pcapng (contents.drop 4)
      rwa [List.take_append_drop] at hfile

end Open

theorem items_of_error [Floats] {contents : Bytes} {e : Raised}
    (h : openPcap records.run blocks.run contents = .error e) : (readPcap contents).items = [] := by
  rw [readPcap_eq, h]
  rfl

theorem items_of_ok [Floats] {contents : Bytes} {out : Outcome Raised Record}
    (h : openPcap records.run blocks.run contents = .ok out) : (readPcap contents).items = out.items := by
  rw [readPcap_eq, h]
  rfl

theorem placed_of_error [Floats] {contents : Bytes} {e : Raised}
    (h : openPcap records.placed.run blocks.placed.run contents = .error e) :
    placedRecords contents = [] := by
  rw [placedRecords, h]

theorem placed_of_ok [Floats] {contents : Bytes} {out : Outcome Raised (ℕ × Record)}
    (h : openPcap records.placed.run blocks.placed.run contents = .ok out) :
    placedRecords contents = out.items := by
  rw [placedRecords, h]

/-- A beginning of a classic file that does not reach behind its global header. -/
theorem left_of_torn [Floats] {a b : Bytes} (hmagic : (a ++ b).take 4 ∈ classicMagics) (ha : a.length < 24) :
    (readPcap a).items = [] ∧ ∀ p ∈ placedRecords (a ++ b), p.1 < b.length := by
  constructor
  · rcases Nat.lt_or_ge a.length 4 with h4 | h4
    · exact readPcap_short h4
    · rw [List.take_append_of_le_length h4] at hmagic
      obtain ⟨e, hopen⟩ := openPcap_torn hmagic ha
      exact items_of_error (hopen records.run blocks.run)
  · rcases Nat.lt_or_ge (a ++ b).length 24 with h24 | h24
    · obtain ⟨e, hopen⟩ := openPcap_torn hmagic h24
      rw [placed_of_error (hopen records.placed.run blocks.placed.run)]
      exact List.forall_mem_nil _
    · obtain ⟨g, hopen⟩ := openPcap_classic hmagic h24
      have hplaced := hopen records.placed.run blocks.placed.run ((a ++ b).drop 24)
      rw [List.take_append_drop] at hplaced
      rw [placed_of_ok hplaced]
      intro p hp
      have hleft := (Reader.placed_sorted g _).1 p hp
      rw [List.length_drop, List.length_append] at hleft
      omega

/-- A beginning of any other file that does not reach behind its magic number. -/
theorem left_of_short [Floats] {a b : Bytes} (hmagic : (a ++ b).take 4 ∉ classicMagics) (ha : a.length < 4) :
    (readPcap a).items = [] ∧
      ((placedRecords (a ++ b)).filter fun p => b.length ≤ p.1).map Prod.snd = [] := by
  refine ⟨readPcap_short ha, ?_⟩
  rcases Nat.lt_or_ge (a ++ b).length 4 with h4 | h4
  · rw [placed_of_error (if_pos (by rw [List.length_take]; omega))]
    rfl
  rcases openPcap_other h4 hmagic with hopen | ⟨e, hopen⟩
  all_goals
    have hplaced := hopen records.placed.run blocks.placed.run ((a ++ b).drop 4)
    rw [List.take_append_drop] at hplaced
  · -- the loop over blocks would find nothing in so little
    have hstop : blocks.turn ⟨.little, []⟩ a = .ok none := by
      show blockTurn _ a = _
      unfold blockTurn
      dsimp only [handleRead]
      rw [if_pos (by rw [List.length_take]; omega)]
    have hnone := steady_blocks.run_cut ⟨.little, []⟩ a b
    rw [Reader.run_stop hstop] at hnone
    rw [placed_of_ok hplaced]
    exact hnone.symm
  · rw [placed_of_error hplaced]
    rfl

/-- **A file cut anywhere gives the records that end before the cut**, whatever is in it. -/
theorem readPcap_cut [Floats] (a b : Bytes) : (readPcap a).items = recordsWithin a.length (a ++ b) := by
  have hwithin : recordsWithin a.length (a ++ b) =
      ((placedRecords (a ++ b)).filter fun p => b.length ≤ p.1).map Prod.snd := by
    refine congrArg (List.map Prod.snd) (List.filter_congr fun p _ => decide_eq_decide.mpr ?_)
    rw [List.length_append]
    omega
  rw [hwithin]
  by_cases hmagic : (a ++ b).take 4 ∈ classicMagics
  · rcases Nat.lt_or_ge a.length 24 with h24 | h24
    · obtain ⟨hnone, hleft⟩ := left_of_torn hmagic h24
      rw [hnone, List.filter_eq_nil_iff.mpr fun p hp => by simpa using hleft p hp, List.map_nil]
    · rw [List.take_append_of_le_length (by omega)] at hmagic
      obtain ⟨g, hopen⟩ := openPcap_classic hmagic h24
      have hshort := hopen records.run blocks.run (a.drop 24)
      have hwhole := hopen records.placed.run blocks.placed.run (a.drop 24 ++ b)
      rw [← List.append_assoc] at hwhole
      rw [List.take_append_drop] at hshort hwhole
      rw [items_of_ok hshort, placed_of_ok hwhole]
      exact steady_records.run_cut g (a.drop 24) b
  · rcases Nat.lt_or_ge a.length 4 with h4 | h4
    · obtain ⟨hnone, hleft⟩ := left_of_short hmagic h4
      rw [hnone, hleft]
    · rw [List.take_append_of_le_length h4] at hmagic
      rcases openPcap_other h4 hmagic with hopen | ⟨e, hopen⟩
      all_goals
        have hshort := hopen records.run blocks.run (a.drop 4)
        have hwhole := hopen records.placed.run blocks.placed.run (a.drop 4 ++ b)
        rw [← List.append_assoc] at hwhole
        rw [List.take_append_drop] at hshort hwhole
      · rw [items_of_ok hshort, placed_of_ok hwhole]
        exact steady_blocks.run_cut _ a b
      · rw [items_of_error hshort, placed_of_error hwhole]
        rfl

/-- The records that end within a file's beginning are the first of it. -/
theorem recordsWithin_prefix [Floats] (n : ℕ) (contents : Bytes) :
    recordsWithin n contents <+: (readPcap contents).items := by
  have hbegins {κ : Type} (R : Reader κ UInt8 Raised Record) (k : κ) (handle : Bytes) :
      (((R.placed.run k handle).items.filter fun p => contents.length ≤ p.1 + n).map Prod.snd) <+:
        (R.run k handle).items := by
    have hfilter := (Reader.filter_placed_prefix (R := R) k handle (contents.length - n)).map Prod.snd
    rw [Reader.map_snd_placed] at hfilter
    simpa only [Nat.sub_le_iff_le_add] using hfilter
  rw [recordsWithin]
  rcases openPcap_cases contents with ⟨e, hopen⟩ | ⟨g, rest, hopen⟩ | hopen
  · rw [placed_of_error (hopen _ _)]
    exact List.nil_prefix
  · rw [placed_of_ok (hopen _ _), items_of_ok (hopen _ _)]
    exact hbegins records g rest
  · rw [placed_of_ok (hopen _ _), items_of_ok (hopen _ _)]
    exact hbegins blocks _ contents

/-- A file cut anywhere gives the first of its records. -/
theorem readPcap_prefix [Floats] (a b : Bytes) : (readPcap a).items <+: (readPcap (a ++ b)).items :=
  readPcap_cut a b ▸ recordsWithin_prefix a.length (a ++ b)

end Pyscan.PcapReader
