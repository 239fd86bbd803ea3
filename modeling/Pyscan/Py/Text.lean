import Pyscan.Py.Bytes
import Pyscan.Lib.Strip

/-!
# Text: numerals and addresses

The standard-library functions that turn numbers and packed addresses into
text and back: `str(n)` and `int(s)` (ASCII numerals), `str.split`,
`socket.inet_ntoa` and `socket.inet_ntop`. `AddrText` is the character set of
rendered addresses: no address reads as `"None"`.
-/

namespace Pyscan.Py

/-! ## Numerals -/

/-- `str(n)`, as characters. -/
def decimal (n : Nat) : List Char := Nat.toDigits 10 n

/-- `f"{n:x}"`, as characters. -/
def hex (n : Nat) : List Char := Nat.toDigits 16 n

/-- `f"{n:0wx}"`, as characters. -/
def hexPad (w n : Nat) : List Char := (hex n).leftpad w '0'

/-- What `int` strips from ASCII text; the separators 28 to 31, white to `str.strip`, it refuses. -/
def isSpace (c : Char) : Bool := decide (c.toNat = 32 ∨ (9 ≤ c.toNat ∧ c.toNat ≤ 13))

def strip (cs : List Char) : List Char :=
  ((cs.dropWhile isSpace).reverse.dropWhile isSpace).reverse

/-- White space to `str.strip`. -/
def isWhite (c : Char) : Bool :=
  decide (isSpace c ∨ (0x1C ≤ c.toNat ∧ c.toNat ≤ 0x1F) ∨ c.toNat = 0x85 ∨ c.toNat = 0xA0 ∨
    c.toNat = 0x1680 ∨ (0x2000 ≤ c.toNat ∧ c.toNat ≤ 0x200A) ∨ c.toNat = 0x2028 ∨
    c.toNat = 0x2029 ∨ c.toNat = 0x202F ∨ c.toNat = 0x205F ∨ c.toNat = 0x3000)

/-- `s.strip()`. -/
def stripWhite (s : String) : String :=
  String.ofList ((s.toList.dropWhile isWhite).reverse.dropWhile isWhite).reverse

theorem toList_stripWhite (s : String) : (stripWhite s).toList = Strip.strip isWhite s.toList := by
  rw [stripWhite, String.toList_ofList]
  rfl

/-- `s.split()`, on characters. -/
def splitWhite (cs : List Char) : List (List Char) :=
  (cs.splitOnP isWhite).filter fun part => decide (part ≠ [])

theorem mem_splitWhite {cs part : List Char} (h : part ∈ splitWhite cs) {c : Char} (hc : c ∈ part) :
    c ∈ cs := by
  have hsplit : ∀ cs : List Char, ∀ part ∈ cs.splitOnP isWhite, ∀ c ∈ part, c ∈ cs := by
    intro cs
    induction cs with
    | nil => simp
    | cons d cs ih =>
      intro part hpart c hc
      rw [List.splitOnP_cons_eq_if_splitOnPPrepend, List.splitOnPPrepend_eq_modifyHead] at hpart
      split at hpart
      · rcases List.mem_cons.mp hpart with rfl | hpart
        · cases hc
        · exact List.mem_cons_of_mem d (ih part hpart c hc)
      · cases hparts : cs.splitOnP isWhite with
        | nil =>
          rw [hparts] at hpart
          cases hpart
        | cons first rest =>
          rw [hparts] at hpart ih
          rcases List.mem_cons.mp hpart with rfl | hpart
          · rcases List.mem_cons.mp hc with rfl | hc
            · exact List.mem_cons_self
            · exact List.mem_cons_of_mem d (ih first List.mem_cons_self c hc)
          · exact List.mem_cons_of_mem d (ih part (List.mem_cons_of_mem _ hpart) c hc)
  exact hsplit cs part (List.mem_filter.mp h).1 c hc

theorem mem_intercalate {sep : List Char} {parts : List (List Char)} {c : Char}
    (h : c ∈ sep.intercalate parts) : c ∈ sep ∨ ∃ part ∈ parts, c ∈ part := by
  induction parts with
  | nil => cases h
  | cons part parts ih =>
    cases parts with
    | nil =>
      rw [List.intercalate_singleton] at h
      exact .inr ⟨part, List.mem_cons_self, h⟩
    | cons next parts =>
      rw [List.intercalate_cons_cons, List.mem_append, List.mem_append] at h
      rcases h with (h | h) | h
      · exact .inr ⟨part, List.mem_cons_self, h⟩
      · exact .inl h
      · refine (ih h).imp_right ?_
        rintro ⟨part', hpart, hc⟩
        exact ⟨part', List.mem_cons_of_mem part hpart, hc⟩

/-- `c.isprintable()`, on Latin-1 text. -/
def isPrintable (c : Char) : Bool :=
  decide ((0x20 ≤ c.toNat ∧ c.toNat ≤ 0x7E) ∨ (0xA1 ≤ c.toNat ∧ c.toNat ≤ 0xFF ∧ c.toNat ≠ 0xAD))

/-- A digit string with single underscores between digits, value `acc` so far. -/
def digitsValue (acc : Nat) : List Char → Option Nat
  | [] => some acc
  | '_' :: c :: cs => if c.isDigit then digitsValue (10 * acc + (c.toNat - '0'.toNat)) cs else none
  | c :: cs => if c.isDigit then digitsValue (10 * acc + (c.toNat - '0'.toNat)) cs else none

def natValue : List Char → Option Nat
  | [] => none
  | c :: cs => if c.isDigit then digitsValue 0 (c :: cs) else none

/-- `int(s)` on ASCII text: white space stripped, an optional sign, then digits. -/
def int (s : List Char) : Result Int :=
  let v : Option Int := match strip s with
    | '-' :: cs => (natValue cs).map fun n => -(n : Int)
    | '+' :: cs => (natValue cs).map fun n => (n : Int)
    | cs => (natValue cs).map fun n => (n : Int)
  match v with
  | some n => .ok n
  | none => .error .valueError

theorem isDigit_of_mem_decimal {n : Nat} {c : Char} (h : c ∈ decimal n) : c.isDigit :=
  Nat.isDigit_of_mem_toDigits (by decide) (by decide) h

theorem decimal_ne_nil (n : Nat) : decimal n ≠ [] := Nat.toDigits_ne_nil

theorem isDigit_not_space {c : Char} (h : c.isDigit = true) : isSpace c = false := by
  have hc : 48 ≤ c.toNat ∧ c.toNat ≤ 57 := by
    simpa [Char.isDigit, UInt32.le_iff_toNat_le] using h
  simp only [isSpace, decide_eq_false_iff_not]
  omega

theorem isDigit_not_white {c : Char} (h : c.isDigit = true) : isWhite c = false := by
  have hc : 48 ≤ c.toNat ∧ c.toNat ≤ 57 := by
    simpa [Char.isDigit, UInt32.le_iff_toNat_le] using h
  simp only [isWhite, isDigit_not_space h, Bool.false_eq_true, false_or, decide_eq_false_iff_not]
  omega

theorem strip_digits {cs : List Char} (h : ∀ c ∈ cs, c.isDigit = true) : strip cs = cs := by
  have hkeep : ∀ l : List Char, (∀ c ∈ l, c.isDigit = true) → l.dropWhile isSpace = l := by
    intro l hl
    cases l with
    | nil => rfl
    | cons c l =>
      rw [List.dropWhile_cons_of_neg (by simp [isDigit_not_space (hl c List.mem_cons_self)])]
  rw [strip, hkeep cs h, hkeep _ (by simpa using h), List.reverse_reverse]

theorem digitsValue_digits {cs : List Char} (h : ∀ c ∈ cs, c.isDigit = true) (acc : Nat) :
    digitsValue acc cs = some (Nat.ofDigitChars 10 cs acc) := by
  induction cs generalizing acc with
  | nil => rfl
  | cons c cs ih =>
    have hc := h c List.mem_cons_self
    have hne : c ≠ '_' := by
      rintro rfl
      exact absurd hc (by decide)
    have hs : digitsValue acc (c :: cs) = digitsValue (10 * acc + (c.toNat - '0'.toNat)) cs := by
      rw [digitsValue.eq_3 _ _ _ (fun _ _ e => absurd e hne), if_pos hc]
    rw [hs, ih fun d hd => h d (List.mem_cons_of_mem _ hd), Nat.ofDigitChars_cons]

/-- `int(str(n)) == n`. -/
theorem int_decimal (n : Nat) : int (decimal n) = .ok (n : Int) := by
  have hd : ∀ c ∈ decimal n, c.isDigit = true := fun c hc => isDigit_of_mem_decimal hc
  obtain ⟨c, cs, e⟩ := List.exists_cons_of_ne_nil (decimal_ne_nil n)
  have hc : c.isDigit = true := hd c (by rw [e]; exact List.mem_cons_self)
  have hv : natValue (decimal n) = some n := by
    rw [e, natValue, if_pos hc, ← e, digitsValue_digits hd]
    exact congrArg some Nat.ofDigitChars_ten_toDigits
  have h1 : c ≠ '-' := by rintro rfl; exact absurd hc (by decide)
  have h2 : c ≠ '+' := by rintro rfl; exact absurd hc (by decide)
  unfold int
  rw [strip_digits hd]
  rw [e] at hv ⊢
  split <;> simp_all

/-- `d.decode("latin-1")`. -/
def latin1 (d : Bytes) : String := String.ofList (d.map fun b => Char.ofNat b.toNat)

theorem toNat_latin1 (b : UInt8) : (Char.ofNat b.toNat).toNat = b.toNat := by
  have hvalid : b.toNat.isValidChar := .inl (by have := b.toNat_lt; omega)
  rw [Char.ofNat, dif_pos hvalid]
  rfl

/-! ## Dotted quads -/

/-- The canonical text of an IPv4 address. -/
def dotted (a b c d : UInt8) : String :=
  String.ofList (['.'].intercalate ([a, b, c, d].map fun x => decimal x.toNat))

/-- `socket.inet_ntoa`. -/
def inetNtoa : Bytes → Result String
  | [a, b, c, d] => .ok (dotted a b c d)
  | _ => .error .osError

/-- `s.split(".")`. -/
def splitDots (s : String) : List (List Char) := s.toList.splitOn '.'

theorem splitDots_dotted (a b c d : UInt8) :
    splitDots (dotted a b c d) = [a, b, c, d].map fun x => decimal x.toNat := by
  unfold splitDots dotted
  rw [String.toList_ofList]
  refine List.splitOn_intercalate '.' (fun l hl hdot => ?_) (by simp)
  obtain ⟨x, -, rfl⟩ := List.mem_map.mp hl
  exact absurd (isDigit_of_mem_decimal hdot) (by decide)

theorem inetNtoa_yields {d : Bytes} (h : d.length = 4) :
    Yields (inetNtoa d) fun s => inetNtoa d = .ok s := by
  match d, h with
  | [_, _, _, _], _ => exact ⟨_, rfl, rfl⟩

/-! ## IPv6 text -/

/-- The leftmost longest run of zero groups, as (start, length). -/
def zeroRun (ws : List Nat) : Nat × Nat :=
  (List.range ws.length).foldl
    (fun best i =>
      let n := ((ws.drop i).takeWhile (· == 0)).length
      if best.2 < n then (i, n) else best)
    (0, 0)

def colons (ws : List Nat) : List Char := [':'].intercalate (ws.map hex)

/-- The last four bytes of an address, as a dotted quad. -/
def quadTail (d : Bytes) : List Char :=
  match d.drop 12 with
  | [a, b, c, e] => (dotted a b c e).toList
  | _ => []

/-- The text the C library's `inet_ntop` gives a packed IPv6 address: the
longest run of at least two zero groups is compressed, and an address whose
first six groups are zero (or `::ffff:`) ends in a dotted quad. -/
def ipv6Text (d : Bytes) : List Char :=
  let ws := words d
  let run := zeroRun ws
  if run.1 = 0 ∧ run.2 = 6 then [':', ':'] ++ quadTail d
  else if run.1 = 0 ∧ run.2 = 5 ∧ ws[5]? = some 0xffff then
    [':', ':', 'f', 'f', 'f', 'f', ':'] ++ quadTail d
  else if 2 ≤ run.2 then
    colons (ws.take run.1) ++ [':', ':'] ++ colons (ws.drop (run.1 + run.2))
  else colons ws

/-- `socket.inet_ntop(socket.AF_INET6, d)`. -/
def inetNtop (d : Bytes) : Result String :=
  if d.length = 16 then .ok (String.ofList (ipv6Text d)) else .error .valueError

theorem inetNtop_ok {d : Bytes} (h : d.length = 16) :
    inetNtop d = .ok (String.ofList (ipv6Text d)) := if_pos h

theorem inetNtop_yields {d : Bytes} (h : d.length = 16) :
    Yields (inetNtop d) fun s => inetNtop d = .ok s :=
  ⟨_, inetNtop_ok h, inetNtop_ok h⟩

example : inetNtop [0x20, 1, 0x0d, 0xb8, 0, 0, 0, 0, 0, 0, 0, 0, 0, 0, 0, 1] = .ok "2001:db8::1" := by
  decide

/-! ## Addresses are not placeholders -/

/-- `str(x)` of an optional string. -/
def str : Option String → String
  | some s => s
  | none => "None"

/-- The characters of a rendered address. -/
def AddrText (cs : List Char) : Prop := ∀ c ∈ cs, c ∈ "0123456789abcdef.:".toList

theorem AddrText.append {s t : List Char} (hs : AddrText s) (ht : AddrText t) : AddrText (s ++ t) := by
  intro c hc
  rcases List.mem_append.mp hc with h | h
  · exact hs c h
  · exact ht c h

theorem AddrText.intercalate {sep : Char} (hsep : sep ∈ "0123456789abcdef.:".toList) :
    ∀ {l : List (List Char)}, (∀ s ∈ l, AddrText s) → AddrText ([sep].intercalate l)
  | [], _ => by intro c hc; simp at hc
  | [s], h => by simpa using h s List.mem_cons_self
  | s :: t :: l, h => by
    have ih := AddrText.intercalate hsep (l := t :: l) fun x hx => h x (List.mem_cons_of_mem _ hx)
    rw [show [sep].intercalate (s :: t :: l) = s ++ ([sep] ++ [sep].intercalate (t :: l)) by
      simp [List.intercalate]]
    refine (h s List.mem_cons_self).append (AddrText.append (fun c hc => ?_) ih)
    rw [List.mem_singleton.mp hc]
    exact hsep

theorem addrText_hex (n : Nat) : AddrText (hex n) := by
  have hdigit : ∀ d < 16, d.digitChar ∈ "0123456789abcdef.:".toList := by decide
  induction n using Nat.strongRecOn with
  | _ n ih =>
    unfold hex
    rw [Nat.toDigits_eq_if (by decide)]
    split
    · intro c hc
      rw [List.mem_singleton.mp hc]
      exact hdigit n ‹_›
    · refine AddrText.append (ih (n / 16) (by omega)) fun c hc => ?_
      rw [List.mem_singleton.mp hc]
      exact hdigit _ (Nat.mod_lt _ (by decide))

theorem addrText_dotted (a b c d : UInt8) : AddrText (dotted a b c d).toList := by
  unfold dotted
  rw [String.toList_ofList]
  refine AddrText.intercalate (by decide) fun s hs ch hch => ?_
  obtain ⟨x, -, rfl⟩ := List.mem_map.mp hs
  have hd := isDigit_of_mem_decimal hch
  have hr : 48 ≤ ch.toNat ∧ ch.toNat ≤ 57 := by
    simpa [Char.isDigit, UInt32.le_iff_toNat_le] using hd
  have hall : ∀ n, 48 ≤ n → n ≤ 57 → Char.ofNat n ∈ "0123456789abcdef.:".toList := by decide
  rw [← Char.ofNat_toNat ch]
  exact hall _ hr.1 hr.2

theorem addrText_colons (ws : List Nat) : AddrText (colons ws) := by
  refine AddrText.intercalate (by decide) fun s hs => ?_
  obtain ⟨n, -, rfl⟩ := List.mem_map.mp hs
  exact addrText_hex n

theorem addrText_quadTail (d : Bytes) : AddrText (quadTail d) := by
  unfold quadTail
  split
  · exact addrText_dotted _ _ _ _
  · intro c hc
    cases hc

theorem addrText_ipv6Text (d : Bytes) : AddrText (ipv6Text d) := by
  have h2 : AddrText [':', ':'] := by simp [AddrText]
  have h7 : AddrText [':', ':', 'f', 'f', 'f', 'f', ':'] := by simp [AddrText]
  simp only [ipv6Text]
  split
  · exact h2.append (addrText_quadTail d)
  · split
    · exact h7.append (addrText_quadTail d)
    · split
      · exact ((addrText_colons _).append h2).append (addrText_colons _)
      · exact addrText_colons _

theorem AddrText.ne_none {s : String} (h : AddrText s.toList) : s ≠ "None" := by
  rintro rfl
  exact absurd (h 'N' (by decide)) (by decide)

theorem inetNtoa_ne_none {d : Bytes} {s : String} (h : inetNtoa d = .ok s) : s ≠ "None" := by
  unfold inetNtoa at h
  split at h
  · cases h; exact (addrText_dotted _ _ _ _).ne_none
  · cases h

theorem inetNtop_ne_none {d : Bytes} {s : String} (h : inetNtop d = .ok s) : s ≠ "None" := by
  unfold inetNtop at h
  split at h
  · cases h
    apply AddrText.ne_none
    rw [String.toList_ofList]
    exact addrText_ipv6Text d
  · cases h

end Pyscan.Py
