import Pyscan.Py.Text

/-!
# Port specs

`parsePortSpec` reads specs such as `22,80,443`, `1-1024` and `1-100,8080`. What
a chunk `Denotes` is said without the parser: a port, or the ports between two
ports around its first dash. The parser returns **the union of what the chunks
denote**, in order, and refuses a spec exactly when some chunk denotes nothing
without being blank, or all chunks are blank (`parsePortSpec_denotes`). Specs
whose chunks differ by a `Rewrite` are therefore read alike.

Python's `int` and `repr` enter as `Builtins`, any pair of functions with two
documented properties of `int`.
-/

namespace Pyscan

namespace Py

/-! ## Strings -/

/-- `s.split(sep)`. -/
def split (s : String) (sep : Char) : List String := (s.toList.splitOn sep).map String.ofList

/-- `s.partition(sep)`, without the separator. -/
def partition (s : String) (sep : Char) : String × String :=
  (String.ofList (s.toList.takeWhile (· != sep)),
    String.ofList ((s.toList.dropWhile (· != sep)).drop 1))

/-- The first separator splits a text in one way. -/
theorem partition_append {l r : List Char} {sep : Char} (h : sep ∉ l) :
    partition (String.ofList (l ++ sep :: r)) sep = (String.ofList l, String.ofList r) := by
  have hl : ∀ c ∈ l, (c != sep) = true := by
    rintro c hc
    exact bne_iff_ne.mpr fun heq => h (heq ▸ hc)
  rw [partition, String.toList_ofList, List.takeWhile_append_of_pos hl,
    List.dropWhile_append_of_pos hl, List.takeWhile_cons_of_neg (by simp),
    List.dropWhile_cons_of_neg (by simp), List.append_nil, List.drop_succ_cons, List.drop_zero]

/-- `int` and `repr` of a string. -/
structure Builtins where
  /-- `none` where `int` raises `ValueError` -/
  int : String → Option ℤ
  repr : String → String
  int_empty : int "" = none
  /-- a dash in a numeral is its sign -/
  int_dash : ∀ {s : String} {n : ℤ}, '-' ∈ s.toList → int s = some n → n ≤ 0

/-! ## The built-ins on ASCII text -/

theorem digitsValue_chars {cs : List Char} {acc n : Nat} (h : digitsValue acc cs = some n) :
    ∀ c ∈ cs, c.isDigit = true ∨ c = '_' := by
  fun_induction digitsValue acc cs with
  | case1 => simp
  | case2 acc c cs hdigit ih =>
    exact List.forall_mem_cons.mpr ⟨.inr rfl, List.forall_mem_cons.mpr ⟨.inl hdigit, ih h⟩⟩
  | case3 => cases h
  | case4 acc c cs _ hdigit ih =>
    exact List.forall_mem_cons.mpr ⟨.inl hdigit, ih h⟩
  | case5 => cases h

theorem natValue_no_dash {cs : List Char} {n : Nat} (h : natValue cs = some n) : '-' ∉ cs := by
  intro hdash
  cases cs with
  | nil => cases h
  | cons c cs =>
    rw [natValue] at h
    split at h
    · rcases digitsValue_chars h '-' hdash with hdigit | heq
      · cases hdigit
      · exact absurd heq (by decide)
    · cases h

theorem cast_natValue {cs : List Char} {m : ℤ}
    (h : (do let n ← natValue cs; pure (n : ℤ)) = some m) :
    ∃ n : Nat, natValue cs = some n ∧ m = n := by
  cases hn : natValue cs with
  | none =>
    rw [hn] at h
    cases h
  | some n =>
    rw [hn] at h
    cases h
    exact ⟨n, rfl, rfl⟩

theorem int_dash {cs : List Char} {n : ℤ} (hdash : '-' ∈ cs) (h : int cs = .ok n) : n ≤ 0 := by
  have hstrip : '-' ∈ strip cs := (Strip.mem_strip (p := isSpace) (by decide)).mpr hdash
  unfold int at h
  generalize strip cs = t at h hstrip
  dsimp only at h
  split at h
  · rename_i v hv
    cases h
    split at hv
    all_goals
      obtain ⟨m, hm, rfl⟩ := Option.map_eq_some_iff.mp hv
      obtain ⟨k, hk, rfl⟩ := cast_natValue hm
    · omega
    · refine absurd ?_ (natValue_no_dash hk)
      exact (List.mem_cons.mp hstrip).resolve_left (by decide)
    · exact absurd hstrip (natValue_no_dash hk)
  · cases h

def reprChar (quote c : Char) : List Char :=
  if c = quote ∨ c = '\\' then ['\\', c]
  else if c = '\t' then ['\\', 't']
  else if c = '\n' then ['\\', 'n']
  else if c = '\r' then ['\\', 'r']
  else if isPrintable c then [c]
  else '\\' :: 'x' :: hexPad 2 c.toNat

def reprText (s : String) : String :=
  let single := Char.ofNat 0x27
  let double := Char.ofNat 0x22
  let quote := if single ∈ s.toList ∧ double ∉ s.toList then double else single
  String.ofList (quote :: (s.toList.flatMap (reprChar quote) ++ [quote]))

def Builtins.ascii : Builtins where
  int s := (Py.int s.toList).toOption
  repr := reprText
  int_empty := rfl
  int_dash := by
    intro s n hdash h
    cases hint : Py.int s.toList with
    | error e =>
      rw [hint] at h
      cases h
    | ok m =>
      rw [hint] at h
      cases h
      exact Py.int_dash hdash hint

end Py

namespace PortSpec

open Py

/-! ## The parser -/

abbrev minPort : ℤ := 1
abbrev maxPort : ℤ := 65535

/-- A raised exception: its class and its text. -/
abbrev Raised := PyErr × String

variable (py : Builtins)

def toPort (raw : String) : Except Raised ℤ :=
  let raw := stripWhite raw
  match py.int raw with
  | none => .error (.valueError, "Invalid port: " ++ py.repr raw)
  | some n =>
    if ¬ (minPort ≤ n ∧ n ≤ maxPort) then
      .error (.valueError, "Port out of range (1-65535): " ++ toString n)
    else .ok n

/-- The body of the loop over the chunks. -/
def addChunk (ports : Finset ℤ) (chunk : String) : Except Raised (Finset ℤ) :=
  let chunk := stripWhite chunk
  if chunk = "" then .ok ports
  else if '-' ∈ chunk.toList then do
    let (loS, hiS) := partition chunk '-'
    let lo ← toPort py loS
    let hi ← toPort py hiS
    let (lo, hi) := if lo > hi then (hi, lo) else (lo, hi)
    .ok (ports ∪ (Int.range lo (hi + 1)).toFinset)
  else do
    let n ← toPort py chunk
    .ok (insert n ports)

def parsePortSpec (spec : String) : Except Raised (List ℤ) := do
  let ports ← (split spec ',').foldlM (addChunk py) ∅
  if ports = ∅ then .error (.valueError, "No ports parsed from spec.")
  else .ok ports.sort

example : ((split "80,3-1, 80" ',').foldlM (addChunk Builtins.ascii) ∅).toOption =
    some {1, 2, 3, 80} := by
  decide +kernel

example : parsePortSpec Builtins.ascii "22,ssh" = .error (.valueError, "Invalid port: 'ssh'") := by
  decide +kernel

/-! ## What a chunk denotes -/

def Blank (chunk : String) : Prop := ∀ c ∈ chunk.toList, isWhite c = true

/-- `s` is the number `n`, and that is a port. -/
def IsPort (s : String) (n : ℤ) : Prop := py.int (stripWhite s) = some n ∧ 1 ≤ n ∧ n ≤ 65535

/-- Two ports around the first dash. -/
def IsRange (chunk : String) (a b : ℤ) : Prop :=
  ∃ lo hi, chunk.toList = lo ++ '-' :: hi ∧ '-' ∉ lo ∧
    IsPort py (String.ofList lo) a ∧ IsPort py (String.ofList hi) b

def WellFormed (chunk : String) : Prop := (∃ n, IsPort py chunk n) ∨ ∃ a b, IsRange py chunk a b

/-- `p` is the chunk's port, or lies in its range, whichever way round. -/
def Denotes (chunk : String) (p : ℤ) : Prop :=
  IsPort py chunk p ∨ ∃ a b, IsRange py chunk a b ∧ (a ≤ p ∧ p ≤ b ∨ b ≤ p ∧ p ≤ a)

variable {py} {s chunk : String} {n a b p : ℤ}

theorem dash_not_white : isWhite '-' = false := by decide

theorem blank_iff : Blank chunk ↔ stripWhite chunk = "" := by
  rw [← String.toList_inj, toList_stripWhite]
  exact Strip.strip_eq_nil.symm

theorem IsPort.no_dash (h : IsPort py s n) : '-' ∉ s.toList := by
  intro hdash
  have hstrip : '-' ∈ (stripWhite s).toList := by
    rw [toList_stripWhite]
    exact (Strip.mem_strip dash_not_white).mpr hdash
  have hneg := py.int_dash hstrip h.1
  have hpos := h.2.1
  omega

theorem isPort_congr {t : String} (h : stripWhite s = stripWhite t) :
    IsPort py s n ↔ IsPort py t n := by
  rw [IsPort, IsPort, h]

/-- A chunk with a dash is read at its first one. -/
theorem isRange_iff {lo hi : List Char} (h : '-' ∉ lo) :
    IsRange py (String.ofList (lo ++ '-' :: hi)) a b ↔
      IsPort py (String.ofList lo) a ∧ IsPort py (String.ofList hi) b := by
  constructor
  · rintro ⟨lo', hi', heq, hlo', hports⟩
    have hsplit := congrArg (fun l => partition (String.ofList l) '-') heq
    rw [String.ofList_toList, partition_append h, partition_append hlo', Prod.mk.injEq] at hsplit
    rwa [hsplit.1, hsplit.2]
  · rintro ⟨hlo, hhi⟩
    exact ⟨lo, hi, String.toList_ofList, h, hlo, hhi⟩

theorem not_isRange (h : '-' ∉ chunk.toList) : ¬ IsRange py chunk a b := by
  rintro ⟨lo, hi, heq, -⟩
  exact h (heq ▸ List.mem_append_right lo List.mem_cons_self)

/-- A chunk with a dash is cut in two there, blanks kept. -/
theorem exists_first_dash (h : '-' ∈ chunk.toList) :
    ∃ lo hi, chunk = String.ofList (lo ++ '-' :: hi) ∧ '-' ∉ lo := by
  obtain ⟨lo, hi, heq, hlo⟩ := List.eq_append_cons_of_mem h
  exact ⟨lo, hi, by rw [← heq, String.ofList_toList], hlo⟩

theorem stripWhite_ofList (l : List Char) :
    stripWhite (String.ofList l) = String.ofList (Strip.strip isWhite l) := by
  rw [← String.toList_inj, toList_stripWhite, String.toList_ofList, String.toList_ofList]

theorem stripWhite_dash (lo hi : List Char) :
    stripWhite (String.ofList (lo ++ '-' :: hi)) =
      String.ofList (lo.dropWhile isWhite ++ '-' :: hi.rdropWhile isWhite) := by
  rw [stripWhite_ofList, Strip.strip_append_cons dash_not_white]

theorem isPort_dropWhile (l : List Char) :
    IsPort py (String.ofList (l.dropWhile isWhite)) n ↔ IsPort py (String.ofList l) n :=
  isPort_congr (by rw [stripWhite_ofList, stripWhite_ofList, Strip.strip_dropWhile])

theorem isPort_rdropWhile (l : List Char) :
    IsPort py (String.ofList (l.rdropWhile isWhite)) n ↔ IsPort py (String.ofList l) n :=
  isPort_congr (by rw [stripWhite_ofList, stripWhite_ofList, Strip.strip_rdropWhile])

theorem isPort_stripWhite : IsPort py (stripWhite chunk) n ↔ IsPort py chunk n := by
  refine isPort_congr ?_
  rw [← String.toList_inj, toList_stripWhite, toList_stripWhite, Strip.strip_strip]

theorem dash_mem_stripWhite : '-' ∈ (stripWhite chunk).toList ↔ '-' ∈ chunk.toList := by
  rw [toList_stripWhite, Strip.mem_strip dash_not_white]

theorem isRange_stripWhite : IsRange py (stripWhite chunk) a b ↔ IsRange py chunk a b := by
  by_cases h : '-' ∈ chunk.toList
  · obtain ⟨lo, hi, rfl, hlo⟩ := exists_first_dash h
    have hlo' : '-' ∉ lo.dropWhile isWhite := fun hdash => hlo ((List.dropWhile_suffix _).mem hdash)
    rw [stripWhite_dash, isRange_iff hlo', isRange_iff hlo, isPort_dropWhile, isPort_rdropWhile]
  · exact iff_of_false (not_isRange (dash_mem_stripWhite.not.mpr h)) (not_isRange h)

/-! ## Reading -/

theorem toPort_cases (py : Builtins) (raw : String) :
    (∃ n, IsPort py raw n ∧ toPort py raw = .ok n) ∨
      (∀ n, ¬ IsPort py raw n) ∧ ∃ text, toPort py raw = .error (.valueError, text) := by
  unfold toPort
  dsimp only
  cases hint : py.int (stripWhite raw) with
  | none => exact .inr ⟨fun n hn => (by cases hint.symm.trans hn.1), _, rfl⟩
  | some n =>
    dsimp only
    by_cases hrange : minPort ≤ n ∧ n ≤ maxPort
    · exact .inl ⟨n, ⟨hint, hrange⟩, if_neg (not_not.mpr hrange)⟩
    · refine .inr ⟨fun m hm => ?_, _, if_pos hrange⟩
      cases hint.symm.trans hm.1
      exact hrange hm.2

theorem IsPort.unique {m : ℤ} (hm : IsPort py s m) (hn : IsPort py s n) : m = n :=
  Option.some_inj.mp (hm.1.symm.trans hn.1)

theorem not_isPort_blank (h : Blank chunk) : ¬ IsPort py chunk n := by
  rintro ⟨hint, -⟩
  rw [blank_iff.mp h, py.int_empty] at hint
  cases hint

theorem not_wellFormed_blank (h : Blank chunk) : ¬ WellFormed py chunk := by
  rintro (⟨n, hn⟩ | ⟨a, b, lo, hi, heq, -⟩)
  · exact not_isPort_blank h hn
  · have hdash := h '-' (heq ▸ List.mem_append_right lo List.mem_cons_self)
    rw [dash_not_white] at hdash
    cases hdash

theorem WellFormed.exists_denotes (h : WellFormed py chunk) : ∃ p, Denotes py chunk p := by
  rcases h with ⟨n, hn⟩ | ⟨a, b, hrange⟩
  · exact ⟨n, .inl hn⟩
  · exact ⟨a, .inr ⟨a, b, hrange, by omega⟩⟩

theorem Denotes.wellFormed (h : Denotes py chunk p) : WellFormed py chunk := by
  rcases h with h | ⟨a, b, h, -⟩
  · exact .inl ⟨p, h⟩
  · exact .inr ⟨a, b, h⟩

/-- The ports between two, whichever is the greater. -/
theorem mem_between (ports : Finset ℤ) (a b p : ℤ) :
    (p ∈ match if a > b then (b, a) else (a, b) with
      | (lo, hi) => ports ∪ (Int.range lo (hi + 1)).toFinset) ↔
      p ∈ ports ∨ (a ≤ p ∧ p ≤ b ∨ b ≤ p ∧ p ≤ a) := by
  by_cases hab : a > b
  · rw [if_pos hab]
    simp only [Finset.mem_union, List.mem_toFinset, Int.mem_range_iff]
    refine or_congr_right ?_
    omega
  · rw [if_neg hab]
    simp only [Finset.mem_union, List.mem_toFinset, Int.mem_range_iff]
    refine or_congr_right ?_
    omega

/-- What a turn of the loop is to make of a chunk: it is skipped, it adds what it denotes, or it is
refused. -/
inductive Turn (py : Builtins) (ports : Finset ℤ) (chunk : String) :
    Except Raised (Finset ℤ) → Prop where
  | adds {ports' : Finset ℤ} (h : Blank chunk ∨ WellFormed py chunk)
      (mem : ∀ p, p ∈ ports' ↔ p ∈ ports ∨ Denotes py chunk p) : Turn py ports chunk (.ok ports')
  | refuses {text : String} (not_blank : ¬ Blank chunk) (malformed : ¬ WellFormed py chunk) :
      Turn py ports chunk (.error (.valueError, text))

theorem turn_range {ports : Finset ℤ} {lo hi : List Char} (hblank : ¬ Blank chunk)
    (h : stripWhite chunk = String.ofList (lo ++ '-' :: hi)) (hlo : '-' ∉ lo) :
    Turn py ports chunk (do
      let lo ← toPort py (String.ofList lo)
      let hi ← toPort py (String.ofList hi)
      let (lo, hi) := if lo > hi then (hi, lo) else (lo, hi)
      .ok (ports ∪ (Int.range lo (hi + 1)).toFinset)) := by
  have hport (n : ℤ) : ¬ IsPort py chunk n := by
    intro hn
    refine hn.no_dash (dash_mem_stripWhite.mp ?_)
    rw [h, String.toList_ofList]
    exact List.mem_append_right lo List.mem_cons_self
  have hrange (a b : ℤ) : IsRange py chunk a b ↔
      IsPort py (String.ofList lo) a ∧ IsPort py (String.ofList hi) b := by
    rw [← isRange_stripWhite, h, isRange_iff hlo]
  have hwell : WellFormed py chunk ↔
      ∃ a b, IsPort py (String.ofList lo) a ∧ IsPort py (String.ofList hi) b := by
    simp only [WellFormed, hport, hrange, exists_false, false_or]
  rcases toPort_cases py (String.ofList lo) with ⟨a, ha, hportA⟩ | ⟨hno, text, herror⟩
  · rcases toPort_cases py (String.ofList hi) with ⟨b, hb, hportB⟩ | ⟨hno, text, herror⟩
    · rw [hportA, ok_bind, hportB, ok_bind]
      refine .adds (.inr (hwell.mpr ⟨a, b, ha, hb⟩)) fun p => (mem_between ports a b p).trans ?_
      refine or_congr_right ⟨fun hp => .inr ⟨a, b, (hrange a b).mpr ⟨ha, hb⟩, hp⟩, ?_⟩
      rintro (hp | ⟨a', b', hrange', hp⟩)
      · exact absurd hp (hport p)
      · obtain ⟨ha', hb'⟩ := (hrange a' b').mp hrange'
        rwa [ha.unique ha', hb.unique hb']
    · rw [hportA, ok_bind, herror]
      refine .refuses hblank fun hw => ?_
      obtain ⟨a', b, -, hb⟩ := hwell.mp hw
      exact hno b hb
  · rw [herror]
    refine .refuses hblank fun hw => ?_
    obtain ⟨a, b, ha, -⟩ := hwell.mp hw
    exact hno a ha

theorem turn_number {ports : Finset ℤ} (hblank : ¬ Blank chunk) (hdash : '-' ∉ chunk.toList) :
    Turn py ports chunk (do
      let n ← toPort py (stripWhite chunk)
      .ok (insert n ports)) := by
  have hrange (a b : ℤ) : ¬ IsRange py chunk a b := not_isRange hdash
  have hwell : WellFormed py chunk ↔ ∃ n, IsPort py chunk n := by
    simp only [WellFormed, hrange, exists_false, or_false]
  rcases toPort_cases py (stripWhite chunk) with ⟨n, hn, hport⟩ | ⟨hno, text, herror⟩
  · rw [isPort_stripWhite] at hn
    rw [hport, ok_bind]
    refine .adds (.inr (hwell.mpr ⟨n, hn⟩)) fun p => ?_
    rw [Finset.mem_insert, or_comm]
    refine or_congr_right ⟨?_, ?_⟩
    · rintro rfl
      exact .inl hn
    · rintro (hp | ⟨a, b, hab, -⟩)
      · exact hp.unique hn
      · exact absurd hab (hrange a b)
  · rw [herror]
    refine .refuses hblank fun hw => ?_
    obtain ⟨n, hn⟩ := hwell.mp hw
    exact hno n (isPort_stripWhite.mpr hn)

theorem addChunk_turn (py : Builtins) (ports : Finset ℤ) (chunk : String) :
    Turn py ports chunk (addChunk py ports chunk) := by
  unfold addChunk
  dsimp only
  by_cases hempty : stripWhite chunk = ""
  · have hblank := blank_iff.mpr hempty
    rw [if_pos hempty]
    refine .adds (.inl hblank) fun p => (or_iff_left fun hp => ?_).symm
    exact not_wellFormed_blank hblank hp.wellFormed
  · have hblank : ¬ Blank chunk := fun h => hempty (blank_iff.mp h)
    rw [if_neg hempty]
    by_cases hdash : '-' ∈ (stripWhite chunk).toList
    · obtain ⟨lo, hi, hchunk, hlo⟩ := exists_first_dash hdash
      rw [if_pos hdash, hchunk, partition_append hlo]
      exact turn_range hblank hchunk hlo
    · rw [if_neg hdash]
      exact turn_number hblank (dash_mem_stripWhite.not.mp hdash)

/-- The loop over the chunks adds up what they denote, or ends at a malformed one. -/
theorem foldlM_cases (py : Builtins) (chunks : List String) (ports : Finset ℤ) :
    (∀ c ∈ chunks, Blank c ∨ WellFormed py c) ∧
        (∃ ports', chunks.foldlM (addChunk py) ports = .ok ports' ∧
          ∀ p, p ∈ ports' ↔ p ∈ ports ∨ ∃ c ∈ chunks, Denotes py c p) ∨
      (∃ c ∈ chunks, ¬ Blank c ∧ ¬ WellFormed py c) ∧
        ∃ text, chunks.foldlM (addChunk py) ports = .error (.valueError, text) := by
  induction chunks generalizing ports with
  | nil => exact .inl ⟨by simp, ports, rfl, by simp⟩
  | cons c cs ih =>
    rw [List.foldlM_cons]
    have hturn := addChunk_turn py ports c
    generalize addChunk py ports c = r at hturn
    cases hturn with
    | @adds ports₁ hc hmem =>
      rw [ok_bind]
      rcases ih ports₁ with ⟨hcs, ports₂, hrun, hmem'⟩ | ⟨⟨d, hd, hbad⟩, text, hrun⟩
      · refine .inl ⟨List.forall_mem_cons.mpr ⟨hc, hcs⟩, ports₂, hrun, fun p => ?_⟩
        rw [hmem', hmem, or_assoc, List.exists_mem_cons_iff]
      · exact .inr ⟨⟨d, List.mem_cons_of_mem c hd, hbad⟩, text, hrun⟩
    | @refuses text hb hw => exact .inr ⟨⟨c, List.mem_cons_self, hb, hw⟩, text, rfl⟩

/-- The chunks a spec is refused for. -/
def Refused (py : Builtins) (chunks : List String) : Prop :=
  (∃ c ∈ chunks, ¬ Blank c ∧ ¬ WellFormed py c) ∨ ∀ c ∈ chunks, Blank c

theorem parsePortSpec_cases (py : Builtins) (spec : String) :
    Refused py (split spec ',') ∧ (∃ text, parsePortSpec py spec = .error (.valueError, text)) ∨
      ¬ Refused py (split spec ',') ∧
        ∃ ports : Finset ℤ, ports ≠ ∅ ∧ parsePortSpec py spec = .ok ports.sort ∧
          ∀ p, p ∈ ports ↔ ∃ c ∈ split spec ',', Denotes py c p := by
  unfold parsePortSpec
  rcases foldlM_cases py (split spec ',') ∅ with ⟨hchunks, ports, hrun, hmem⟩ | ⟨hbad, text, hrun⟩
  · rw [hrun, ok_bind]
    have hdenotes (p : ℤ) : p ∈ ports ↔ ∃ c ∈ split spec ',', Denotes py c p := by
      rw [hmem]
      exact or_iff_right (Finset.notMem_empty p)
    by_cases hempty : ports = ∅
    · rw [if_pos hempty]
      refine .inl ⟨.inr fun c hc => (hchunks c hc).resolve_right fun hw => ?_, _, rfl⟩
      obtain ⟨p, hp⟩ := hw.exists_denotes
      exact Finset.notMem_empty p (hempty ▸ (hdenotes p).mpr ⟨c, hc, hp⟩)
    · rw [if_neg hempty]
      refine .inr ⟨?_, ports, hempty, rfl, hdenotes⟩
      rintro (⟨c, hc, hb, hw⟩ | hblank)
      · exact (hchunks c hc).elim hb hw
      · obtain ⟨p, hp⟩ := Finset.nonempty_iff_ne_empty.mpr hempty
        obtain ⟨c, hc, hp⟩ := (hdenotes p).mp hp
        exact not_wellFormed_blank (hblank c hc) hp.wellFormed
  · rw [hrun]
    exact .inl ⟨.inl hbad, text, rfl⟩

/-! ## Specs that are read alike -/

/-- Steps between chunk lists that name the same ports. -/
inductive Rewrite : List String → List String → Prop where
  | reorder {cs ds : List String} (h : cs.Perm ds) : Rewrite cs ds
  | duplicate {c : String} {cs : List String} (h : c ∈ cs) : Rewrite cs (c :: cs)
  | pad {l r : String} (hl : Blank l) (hr : Blank r) (c : String) (cs : List String) :
      Rewrite (c :: cs) ((l ++ c ++ r) :: cs)
  | reverse (lo hi : String) (cs : List String) :
      Rewrite ((lo ++ "-" ++ hi) :: cs) ((hi ++ "-" ++ lo) :: cs)

/-- Chunk lists with the same ports, or refused alike. -/
structure Alike (py : Builtins) (cs ds : List String) : Prop where
  refused : Refused py cs ↔ Refused py ds
  denotes : ∀ p, (∃ c ∈ cs, Denotes py c p) ↔ ∃ d ∈ ds, Denotes py d p

theorem wellFormed_iff : WellFormed py chunk ↔ ∃ p, Denotes py chunk p :=
  ⟨WellFormed.exists_denotes, fun ⟨_, hp⟩ => hp.wellFormed⟩

theorem Alike.of_mem_iff {cs ds : List String} (h : ∀ c, c ∈ cs ↔ c ∈ ds) : Alike py cs ds := by
  refine ⟨?_, fun p => ?_⟩
  · simp only [Refused, h]
  · simp only [h]

/-- One chunk may stand for another. -/
theorem Alike.head {c d : String} (hblank : Blank c ↔ Blank d)
    (hdenotes : ∀ p, Denotes py c p ↔ Denotes py d p) (cs : List String) :
    Alike py (c :: cs) (d :: cs) := by
  have hwell : WellFormed py c ↔ WellFormed py d := by
    simp only [wellFormed_iff, hdenotes]
  refine ⟨?_, fun p => ?_⟩
  · simp only [Refused, List.exists_mem_cons_iff, List.forall_mem_cons, hblank, hwell]
  · rw [List.exists_mem_cons_iff, List.exists_mem_cons_iff, hdenotes]

theorem denotes_congr {t : String} (h : stripWhite s = stripWhite t) :
    Denotes py s p ↔ Denotes py t p := by
  have hrange (a b : ℤ) : IsRange py s a b ↔ IsRange py t a b := by
    rw [← isRange_stripWhite, h, isRange_stripWhite]
  simp only [Denotes, isPort_congr h, hrange]

theorem stripWhite_pad {l r : String} (hl : Blank l) (hr : Blank r) (c : String) :
    stripWhite c = stripWhite (l ++ c ++ r) := by
  rw [← String.toList_inj, toList_stripWhite, toList_stripWhite, String.toList_append,
    String.toList_append, List.append_assoc, Strip.strip_pad hl hr]

theorem toList_dashed (lo hi : String) :
    (lo ++ "-" ++ hi).toList = lo.toList ++ '-' :: hi.toList := by
  rw [String.toList_append, String.toList_append, List.append_assoc]
  rfl

theorem Denotes.reverse {lo hi : String} (h : Denotes py (lo ++ "-" ++ hi) p) :
    Denotes py (hi ++ "-" ++ lo) p := by
  rcases h with h | ⟨a, b, ⟨l, r, heq, hl, ha, hb⟩, hp⟩
  · refine absurd ?_ h.no_dash
    rw [toList_dashed]
    exact List.mem_append_right _ List.mem_cons_self
  · -- the endpoints are ports, so this is the only dash
    have hr : '-' ∉ r := by
      have hdash := hb.no_dash
      rwa [String.toList_ofList] at hdash
    rw [toList_dashed] at heq
    have hcount := congrArg (List.count '-') heq
    rw [List.count_append, List.count_append, List.count_cons_self, List.count_cons_self,
      List.count_eq_zero.mpr hl, List.count_eq_zero.mpr hr] at hcount
    have hlo : '-' ∉ lo.toList := List.count_eq_zero.mp (by omega)
    have hhi : '-' ∉ hi.toList := List.count_eq_zero.mp (by omega)
    have hrange : IsRange py (String.ofList (lo.toList ++ '-' :: hi.toList)) a b := by
      rw [heq]
      exact (isRange_iff hl).mpr ⟨ha, hb⟩
    obtain ⟨ha, hb⟩ := (isRange_iff hlo).mp hrange
    exact .inr ⟨b, a, ⟨hi.toList, lo.toList, toList_dashed hi lo, hhi, hb, ha⟩, hp.symm⟩

theorem not_blank_dashed (lo hi : String) : ¬ Blank (lo ++ "-" ++ hi) := by
  intro hblank
  have hdash := hblank '-' (by rw [toList_dashed]; exact List.mem_append_right _ List.mem_cons_self)
  rw [dash_not_white] at hdash
  cases hdash

theorem Rewrite.alike {cs ds : List String} (h : Rewrite cs ds) : Alike py cs ds := by
  cases h with
  | reorder h => exact Alike.of_mem_iff fun c => h.mem_iff
  | duplicate h =>
    refine Alike.of_mem_iff fun d => ⟨List.mem_cons_of_mem _, fun hd => ?_⟩
    rcases List.mem_cons.mp hd with rfl | hd
    · exact h
    · exact hd
  | pad hl hr c cs =>
    have hstrip := stripWhite_pad hl hr c
    refine Alike.head ?_ (fun p => denotes_congr hstrip) cs
    rw [blank_iff, blank_iff, hstrip]
  | reverse lo hi cs =>
    exact Alike.head (iff_of_false (not_blank_dashed lo hi) (not_blank_dashed hi lo))
      (fun p => ⟨Denotes.reverse, Denotes.reverse⟩) cs

theorem alike_of_eqvGen {cs ds : List String} (h : Relation.EqvGen Rewrite cs ds) :
    Alike py cs ds := by
  induction h with
  | rel cs ds h => exact h.alike
  | refl cs => exact ⟨Iff.rfl, fun _ => Iff.rfl⟩
  | symm cs ds _ ih => exact ⟨ih.refused.symm, fun p => (ih.denotes p).symm⟩
  | trans cs ds es _ _ ih ih' =>
    exact ⟨ih.refused.trans ih'.refused, fun p => (ih.denotes p).trans (ih'.denotes p)⟩

theorem Denotes.port (h : Denotes py chunk p) : 1 ≤ p ∧ p ≤ 65535 := by
  rcases h with ⟨-, hp⟩ | ⟨a, b, ⟨lo, hi, -, -, ⟨-, ha⟩, ⟨-, hb⟩⟩, hp⟩
  · exact hp
  · omega

theorem parse_alike {spec spec' : String} (h : Alike py (split spec ',') (split spec' ',')) :
    (parsePortSpec py spec').toOption = (parsePortSpec py spec).toOption := by
  rcases parsePortSpec_cases py spec with ⟨hr, text, hp⟩ | ⟨hr, ports, -, hp, hmem⟩ <;>
    rcases parsePortSpec_cases py spec' with ⟨hr', text', hp'⟩ | ⟨hr', ports', -, hp', hmem'⟩
  · rw [hp, hp']
    rfl
  · exact absurd (h.refused.mp hr) hr'
  · exact absurd (h.refused.mpr hr') hr
  · have hports : ports' = ports :=
      Finset.ext fun p => (hmem' p).trans ((h.denotes p).symm.trans (hmem p).symm)
    rw [hp, hp', hports]

/-- **A spec denotes the union of its chunks**: it is refused, with `ValueError`, exactly when some
chunk that is not blank is malformed or all are blank, and else gives the ports its chunks denote,
in order. -/
theorem parsePortSpec_denotes (py : Builtins) (spec : String) :
    (∀ e, parsePortSpec py spec = .error e → e.1 = .valueError) ∧
      ((∃ e, parsePortSpec py spec = .error e) ↔
        (∃ c ∈ split spec ',', ¬ Blank c ∧ ¬ WellFormed py c) ∨ ∀ c ∈ split spec ',', Blank c) ∧
      (∀ ports, parsePortSpec py spec = .ok ports →
        ports ≠ [] ∧ ports.Pairwise (· < ·) ∧ (∀ p ∈ ports, 1 ≤ p ∧ p ≤ 65535) ∧
          ∀ p, p ∈ ports ↔ ∃ c ∈ split spec ',', Denotes py c p) ∧
      ∀ spec', Relation.EqvGen Rewrite (split spec ',') (split spec' ',') →
        (parsePortSpec py spec').toOption = (parsePortSpec py spec).toOption := by
  have halike (spec' : String) (h : Relation.EqvGen Rewrite (split spec ',') (split spec' ',')) :
      (parsePortSpec py spec').toOption = (parsePortSpec py spec).toOption :=
    parse_alike (alike_of_eqvGen h)
  rcases parsePortSpec_cases py spec with ⟨hr, text, hp⟩ | ⟨hr, ports, hne, hp, hmem⟩
  · rw [hp] at halike ⊢
    refine ⟨?_, iff_of_true ⟨_, rfl⟩ hr, by rintro ports ⟨⟩, halike⟩
    rintro e ⟨⟩
    rfl
  · rw [hp] at halike ⊢
    refine ⟨by rintro e ⟨⟩, iff_of_false (by rintro ⟨e, ⟨⟩⟩) hr, ?_, halike⟩
    rintro _ ⟨⟩
    have hsort (p : ℤ) : p ∈ ports.sort ↔ ∃ c ∈ split spec ',', Denotes py c p :=
      (Finset.mem_sort _).trans (hmem p)
    refine ⟨?_, ports.sortedLT_sort.pairwise, fun p hp => ?_, hsort⟩
    · intro hnil
      obtain ⟨p, hp⟩ := Finset.nonempty_iff_ne_empty.mpr hne
      rw [← Finset.mem_sort (· ≤ ·), hnil] at hp
      cases hp
    · obtain ⟨c, -, hc⟩ := (hsort p).mp hp
      exact hc.port

end PortSpec

end Pyscan
