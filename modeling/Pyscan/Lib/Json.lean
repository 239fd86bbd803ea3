import Mathlib

/-!
# JSON

A writer that lays a value out over lines, and a reader in two stages: a lexer,
which drops the blanks and undoes the escapes, and a parser with a stack. **What
is written reads back** (`read_write`), however it is indented, with any
characters in its strings. A literal and a number are the word they are written
as.
-/

namespace Json

/-! ## Values -/

/-- A character of a literal or a number. -/
def isWord (c : Char) : Bool := c.isAlphanum || c == '-' || c == '+' || c == '.'

abbrev WordChar := { c : Char // isWord c = true }

structure Word where
  first : WordChar
  rest : List WordChar := []
  deriving DecidableEq

def Word.chars (w : Word) : List Char := (w.first :: w.rest).map Subtype.val

theorem isWord_of_mem_toDigits {c : Char} {n : Nat} (h : c ∈ Nat.toDigits 10 n) : isWord c = true := by
  have hdigit : c.isDigit = true := Nat.isDigit_of_mem_toDigits (by decide) (by decide) h
  simp [isWord, Char.isAlphanum, hdigit]

/-- The word of a number. -/
def Word.nat (n : Nat) : Word :=
  let chars := (Nat.toDigits 10 n).attach.map fun c => (⟨c.1, isWord_of_mem_toDigits c.2⟩ : WordChar)
  { first := chars.headD ⟨'0', by decide⟩, rest := chars.tail }

theorem Word.chars_nat (n : Nat) : (Word.nat n).chars = Nat.toDigits 10 n := by
  have hne : Nat.toDigits 10 n ≠ [] := Nat.toDigits_ne_nil
  have hchars : ((Nat.toDigits 10 n).attach.map fun c =>
      (⟨c.1, isWord_of_mem_toDigits c.2⟩ : WordChar)).map Subtype.val = Nat.toDigits 10 n := by
    rw [List.map_map]
    exact List.attach_map_subtype_val _
  unfold Word.nat Word.chars
  generalize (Nat.toDigits 10 n).attach.map _ = chars at hchars
  cases chars with
  | nil => exact absurd hchars.symm hne
  | cons _ _ => exact hchars

/-- The number that a word of digits is. -/
def Word.toNat (w : Word) : Option Nat :=
  if w.chars.all Char.isDigit then some (Nat.ofDigitChars 10 w.chars 0) else none

theorem Word.toNat_nat (n : Nat) : (Word.nat n).toNat = some n := by
  have hdigits : (Nat.toDigits 10 n).all Char.isDigit = true := by
    rw [List.all_eq_true]
    exact fun c hc => Nat.isDigit_of_mem_toDigits (by decide) (by decide) hc
  rw [Word.toNat, Word.chars_nat, if_pos hdigits, Nat.ofDigitChars_toDigits (by decide) (by decide)]

def Word.null : Word :=
  ⟨⟨'n', by decide⟩, [⟨'u', by decide⟩, ⟨'l', by decide⟩, ⟨'l', by decide⟩]⟩

inductive Value where
  | word (w : Word)
  | str (s : List Char)
  | arr (items : List Value)
  | obj (fields : List (List Char × Value))

namespace Value

/-- The value of a field. -/
def get (key : List Char) : Value → Option Value
  | .obj fields => fields.lookup key
  | _ => none

def items : Value → Option (List Value)
  | .arr items => some items
  | _ => none

def asStr : Value → Option (List Char)
  | .str s => some s
  | _ => none

def asWord : Value → Option Word
  | .word w => some w
  | _ => none

end Value

inductive Token where
  | punct (c : Char)
  | word (w : Word)
  | str (s : List Char)
  deriving DecidableEq

mutual

def Value.tokens : Value → List Token
  | .word w => [.word w]
  | .str s => [.str s]
  | .arr items => .punct '[' :: (itemTokens items ++ [.punct ']'])
  | .obj fields => .punct (Char.ofNat 0x7b) :: (fieldTokens fields ++ [.punct (Char.ofNat 0x7d)])

def itemTokens : List Value → List Token
  | [] => []
  | [v] => v.tokens
  | v :: v' :: items => v.tokens ++ .punct ',' :: itemTokens (v' :: items)

def fieldTokens : List (List Char × Value) → List Token
  | [] => []
  | [(key, v)] => .str key :: .punct ':' :: v.tokens
  | (key, v) :: field :: fields =>
    .str key :: .punct ':' :: (v.tokens ++ .punct ',' :: fieldTokens (field :: fields))

end

/-! ## The writer -/

def hexDigit (n : Nat) : Char := Char.ofNat (if n < 10 then 0x30 + n else 0x57 + n)

/-- A backslash, a `u` and four digits. -/
def unit (n : Nat) : List Char :=
  ['\\', 'u', hexDigit (n / 4096 % 16), hexDigit (n / 256 % 16), hexDigit (n / 16 % 16), hexDigit (n % 16)]

/-- A character of a string: all but printable ASCII is escaped, beyond the first plane as a pair. -/
def escape (c : Char) : List Char :=
  if c = Char.ofNat 0x22 then ['\\', Char.ofNat 0x22]
  else if c = '\\' then ['\\', '\\']
  else if c = '\n' then ['\\', 'n']
  else if c = '\r' then ['\\', 'r']
  else if c = '\t' then ['\\', 't']
  else if c = Char.ofNat 0x0c then ['\\', 'f']
  else if c = Char.ofNat 0x08 then ['\\', 'b']
  else if 0x20 ≤ c.toNat ∧ c.toNat ≤ 0x7e then [c]
  else if c.toNat < 0x10000 then unit c.toNat
  else unit (0xd800 + (c.toNat - 0x10000) / 0x400) ++ unit (0xdc00 + (c.toNat - 0x10000) % 0x400)

def quote (s : List Char) : List Char := Char.ofNat 0x22 :: (s.flatMap escape ++ [Char.ofNat 0x22])

/-- A new line, indented by two for each level. -/
def newline (level : Nat) : List Char := '\n' :: List.replicate (2 * level) ' '

/-- The line of the closing bracket, where there is anything before it. -/
def closing {α : Type*} (level : Nat) : List α → List Char
  | [] => []
  | _ :: _ => newline level

mutual

def Value.text (level : Nat) : Value → List Char
  | .word w => w.chars
  | .str s => quote s
  | .arr items => '[' :: (itemsText (level + 1) items ++ (closing level items ++ [']']))
  | .obj fields =>
    Char.ofNat 0x7b :: (fieldsText (level + 1) fields ++ (closing level fields ++ [Char.ofNat 0x7d]))

def itemsText (level : Nat) : List Value → List Char
  | [] => []
  | [v] => newline level ++ v.text level
  | v :: v' :: items => newline level ++ (v.text level ++ ',' :: itemsText level (v' :: items))

def fieldsText (level : Nat) : List (List Char × Value) → List Char
  | [] => []
  | [(key, v)] => newline level ++ (quote key ++ ':' :: ' ' :: v.text level)
  | (key, v) :: field :: fields =>
    newline level ++ (quote key ++ ':' :: ' ' :: (v.text level ++ ',' :: fieldsText level (field :: fields)))

end

def write (v : Value) : List Char := v.text 0

/-! ## The lexer -/

def hexValue (c : Char) : Option Nat :=
  if 0x30 ≤ c.toNat ∧ c.toNat ≤ 0x39 then some (c.toNat - 0x30)
  else if 0x61 ≤ c.toNat ∧ c.toNat ≤ 0x66 then some (c.toNat - 0x57)
  else if 0x41 ≤ c.toNat ∧ c.toNat ≤ 0x46 then some (c.toNat - 0x37)
  else none

/-- What a character behind a backslash stands for. -/
def unescape (c : Char) : Option Char :=
  if c = Char.ofNat 0x22 ∨ c = '\\' ∨ c = '/' then some c
  else if c = 'n' then some '\n'
  else if c = 'r' then some '\r'
  else if c = 't' then some '\t'
  else if c = 'f' then some (Char.ofNat 0x0c)
  else if c = 'b' then some (Char.ofNat 0x08)
  else none

namespace Lexer

/-- In a string: what is read of it, and the first half of a pair whose second must follow. -/
inductive State where
  | ready
  | word (w : Word)
  | str (s : List Char) (high : Option Nat)
  | escaped (s : List Char) (high : Option Nat)
  /-- `left` more digits follow the next one -/
  | unit (s : List Char) (high : Option Nat) (left n : Nat)

end Lexer

structure Lexer where
  state : Lexer.State := .ready
  tokens : List Token := []

namespace Lexer

/-- A whole unit; half a pair is no character. -/
def addUnit (s : List Char) (high : Option Nat) (n : Nat) : Option State :=
  match high with
  | none =>
    if 0xd800 ≤ n ∧ n < 0xdc00 then some (.str s (some n))
    else if 0xdc00 ≤ n ∧ n < 0xe000 then none
    else some (.str (s ++ [Char.ofNat n]) none)
  | some h =>
    if 0xdc00 ≤ n ∧ n < 0xe000 then
      some (.str (s ++ [Char.ofNat (0x10000 + (h - 0xd800) * 0x400 + (n - 0xdc00))]) none)
    else none

def isBlank (c : Char) : Bool := c == ' ' || c == '\n' || c == '\r' || c == '\t'

def isPunct (c : Char) : Bool :=
  c == '[' || c == ']' || c == Char.ofNat 0x7b || c == Char.ofNat 0x7d || c == ',' || c == ':'

/-- A character between the tokens. -/
def start (tokens : List Token) (c : Char) : Option Lexer :=
  if isBlank c then some { tokens }
  else if isPunct c then some { tokens := tokens ++ [.punct c] }
  else if c = Char.ofNat 0x22 then some { state := .str [] none, tokens }
  else if h : isWord c = true then some { state := .word ⟨⟨c, h⟩, []⟩, tokens }
  else none

def feed (l : Lexer) (c : Char) : Option Lexer :=
  match l.state with
  | .ready => start l.tokens c
  | .word w =>
    if h : isWord c = true then some { l with state := .word { w with rest := w.rest ++ [⟨c, h⟩] } }
    else start (l.tokens ++ [.word w]) c
  | .str s high =>
    if c = '\\' then some { l with state := .escaped s high }
    else if high.isSome then none
    else if c = Char.ofNat 0x22 then some { tokens := l.tokens ++ [.str s] }
    else if c.toNat < 0x20 then none
    else some { l with state := .str (s ++ [c]) none }
  | .escaped s high =>
    if c = 'u' then some { l with state := .unit s high 3 0 }
    else if high.isSome then none
    else (unescape c).map fun c => { l with state := .str (s ++ [c]) none }
  | .unit s high left n =>
    (hexValue c).bind fun d =>
      match left with
      | 0 => (addUnit s high (16 * n + d)).map fun state => { l with state }
      | left + 1 => some { l with state := .unit s high left (16 * n + d) }

def run (l : Lexer) (cs : List Char) : Option Lexer := cs.foldlM feed l

/-- At the end of a text, or where the next token begins. -/
def finish (l : Lexer) : Option (List Token) :=
  match l.state with
  | .ready => some l.tokens
  | .word w => some (l.tokens ++ [.word w])
  | .str .. | .escaped .. | .unit .. => none

end Lexer

def lex (text : List Char) : Option (List Token) := (({} : Lexer).run text).bind Lexer.finish

/-! ## What is written is lexed -/

namespace Lexer

variable {l : Lexer} {c : Char} {cs cs' : List Char} {out out' tokens : List Token} {s : List Char}
  {high : Option Nat}

theorem run_cons (l : Lexer) (c : Char) (cs : List Char) :
    l.run (c :: cs) = (l.feed c).bind fun l => l.run cs := rfl

theorem run_append (l : Lexer) (cs cs' : List Char) :
    l.run (cs ++ cs') = (l.run cs).bind fun l => l.run cs' := List.foldlM_append

theorem not_word_of_isBlank (h : isBlank c = true) : isWord c = false := by
  simp only [isBlank, Bool.or_eq_true, beq_iff_eq] at h
  rcases h with ((rfl | rfl) | rfl) | rfl <;> decide

theorem not_word_of_isPunct (h : isPunct c = true) : isWord c = false ∧ isBlank c = false := by
  simp only [isPunct, Bool.or_eq_true, beq_iff_eq] at h
  rcases h with ((((rfl | rfl) | rfl) | rfl) | rfl) | rfl <;> decide

theorem run_word (tokens : List Token) (w : Word) :
    run { tokens } w.chars = some { state := .word w, tokens } := by
  obtain ⟨⟨c, hc⟩, rest⟩ := w
  have hrest : ∀ before rest : List WordChar,
      run ⟨.word ⟨⟨c, hc⟩, before⟩, tokens⟩ (rest.map Subtype.val) =
        some ⟨.word ⟨⟨c, hc⟩, before ++ rest⟩, tokens⟩ := by
    intro before rest
    induction rest generalizing before with
    | nil => rw [List.append_nil]; rfl
    | cons d rest ih =>
      obtain ⟨d, hd⟩ := d
      rw [List.map_cons, run_cons, feed]
      dsimp only
      rw [dif_pos hd, Option.bind_some, ih, List.append_assoc, List.singleton_append]
  have hstart : feed { tokens } c = some ⟨.word ⟨⟨c, hc⟩, []⟩, tokens⟩ := by
    have hblank : isBlank c = false := by
      rw [Bool.eq_false_iff]
      exact fun h => absurd hc (Bool.eq_false_iff.mp (not_word_of_isBlank h))
    have hpunct : isPunct c = false := by
      rw [Bool.eq_false_iff]
      exact fun h => absurd hc (Bool.eq_false_iff.mp (not_word_of_isPunct h).1)
    have hquote : c ≠ Char.ofNat 0x22 := by
      rintro rfl
      exact absurd hc (by decide)
    simp only [feed, start, hblank, hpunct, Bool.false_eq_true, if_false, if_neg hquote, dif_pos hc]
  rw [Word.chars, List.map_cons, run_cons, hstart, Option.bind_some, hrest, List.nil_append]

theorem hexValue_hexDigit {n : Nat} (h : n < 16) : hexValue (hexDigit n) = some n := by
  have hall : ∀ n : Fin 16, hexValue (hexDigit n) = some n.val := by decide
  exact hall ⟨n, h⟩

theorem run_unit {n : Nat} (h : n < 0x10000) :
    run ⟨.str s high, tokens⟩ (unit n) = (addUnit s high n).map fun state => ⟨state, tokens⟩ := by
  have hdigits : 16 * (16 * (16 * (16 * 0 + n / 4096 % 16) + n / 256 % 16) + n / 16 % 16) + n % 16 = n := by
    omega
  simp only [unit, run_cons, feed, if_true, Option.bind_some, hexValue_hexDigit (Nat.mod_lt _ (by decide : 0 < 16)),
    hdigits]
  cases addUnit s high n <;> rfl

theorem addUnit_pair {n : Nat} (h : 0x10000 ≤ n) (hn : n < 0x110000) :
    run ⟨.str s none, tokens⟩
        (unit (0xd800 + (n - 0x10000) / 0x400) ++ unit (0xdc00 + (n - 0x10000) % 0x400)) =
      some ⟨.str (s ++ [Char.ofNat n]) none, tokens⟩ := by
  have hjoin : 0x10000 + (0xd800 + (n - 0x10000) / 0x400 - 0xd800) * 0x400 +
      (0xdc00 + (n - 0x10000) % 0x400 - 0xdc00) = n := by
    omega
  have hhigh : addUnit s none (0xd800 + (n - 0x10000) / 0x400) =
      some (.str s (some (0xd800 + (n - 0x10000) / 0x400))) := if_pos (by omega)
  have hlow : addUnit s (some (0xd800 + (n - 0x10000) / 0x400)) (0xdc00 + (n - 0x10000) % 0x400) =
      some (.str (s ++ [Char.ofNat n]) none) := by
    rw [addUnit, if_pos (by omega), hjoin]
  rw [run_append, run_unit (by omega), hhigh, Option.map_some, Option.bind_some, run_unit (by omega),
    hlow, Option.map_some]

theorem run_escape (c : Char) :
    run ⟨.str s none, tokens⟩ (escape c) = some ⟨.str (s ++ [c]) none, tokens⟩ := by
  -- a backslash and a letter
  have hshort {e : Char} (he : e ≠ 'u') (hc : unescape e = some c) :
      run ⟨.str s none, tokens⟩ ['\\', e] = some ⟨.str (s ++ [c]) none, tokens⟩ := by
    simp [run, feed, he, hc]
  unfold escape
  split_ifs with hquote hslash hn hr ht hf hb hplain hplane
  · subst hquote
    exact hshort (by decide) (by decide)
  · subst hslash
    exact hshort (by decide) (by decide)
  · subst hn
    exact hshort (by decide) (by decide)
  · subst hr
    exact hshort (by decide) (by decide)
  · subst ht
    exact hshort (by decide) (by decide)
  · subst hf
    exact hshort (by decide) (by decide)
  · subst hb
    exact hshort (by decide) (by decide)
  · have hcontrol : ¬ c.toNat < 0x20 := by omega
    simp [run, feed, hslash, hquote, hcontrol]
  · have hvalid : c.toNat < 0xd800 ∨ 0xdfff < c.toNat ∧ c.toNat < 0x110000 := c.valid
    have hunit : addUnit s none c.toNat = some (.str (s ++ [c]) none) := by
      rw [addUnit, if_neg (by omega), if_neg (by omega), Char.ofNat_toNat]
    rw [run_unit hplane, hunit, Option.map_some]
  · have hvalid : c.toNat < 0xd800 ∨ 0xdfff < c.toNat ∧ c.toNat < 0x110000 := c.valid
    rw [addUnit_pair (by omega) (by omega), Char.ofNat_toNat]

theorem run_quote (tokens : List Token) (s : List Char) :
    run { tokens } (quote s) = some { tokens := tokens ++ [.str s] } := by
  have hbody : ∀ before s : List Char, run ⟨.str before none, tokens⟩ (s.flatMap escape) =
      some ⟨.str (before ++ s) none, tokens⟩ := by
    intro before s
    induction s generalizing before with
    | nil => rw [List.append_nil]; rfl
    | cons c s ih =>
      rw [List.flatMap_cons, run_append, run_escape, Option.bind_some, ih, List.append_assoc,
        List.singleton_append]
  have hopen : feed { tokens } (Char.ofNat 0x22) = some ⟨.str [] none, tokens⟩ := rfl
  have hclose : run ⟨.str s none, tokens⟩ [Char.ofNat 0x22] = some { tokens := tokens ++ [.str s] } := rfl
  rw [quote, run_cons, hopen, Option.bind_some, run_append, hbody, Option.bind_some, List.nil_append, hclose]

/-! Between tokens -/

/-- The lexer is between two tokens, and `tokens` are those so far. -/
def Idle (l : Lexer) (tokens : List Token) : Prop := l.finish = some tokens

theorem idle_ready (tokens : List Token) : Idle { tokens } tokens := rfl

/-- A character that no word goes on with is read from the start. -/
theorem feed_idle (h : l.Idle tokens) (hc : isWord c = false) : l.feed c = start tokens c := by
  obtain ⟨state, before⟩ := l
  unfold Idle finish at h
  unfold feed
  cases state with
  | ready =>
    obtain rfl := Option.some.inj h
    rfl
  | word w =>
    obtain rfl := Option.some.inj h
    dsimp only
    rw [dif_neg (by rw [hc]; decide)]
  | str => cases h
  | escaped => cases h
  | unit => cases h

/-- Begun behind a blank or a bracket, the text is lexed to these tokens. -/
def Starts (cs : List Char) (out : List Token) : Prop :=
  ∀ tokens, ∃ l, run { tokens } cs = some l ∧ l.Idle (tokens ++ out)

/-- Wherever a token may end, the text is lexed to these tokens. -/
def Reads (cs : List Char) (out : List Token) : Prop :=
  ∀ l tokens, Idle l tokens → ∃ l', l.run cs = some l' ∧ l'.Idle (tokens ++ out)

theorem Reads.nil : Reads [] [] := fun l tokens h => ⟨l, rfl, by rwa [List.append_nil]⟩

theorem Reads.append (h : Reads cs out) (h' : Reads cs' out') : Reads (cs ++ cs') (out ++ out') := by
  intro l tokens hl
  obtain ⟨m, hm, hidle⟩ := h l tokens hl
  obtain ⟨n, hn, hidle'⟩ := h' m _ hidle
  refine ⟨n, ?_, by rwa [← List.append_assoc]⟩
  rw [run_append, hm, Option.bind_some, hn]

theorem Starts.append (h : Starts cs out) (h' : Reads cs' out') : Starts (cs ++ cs') (out ++ out') := by
  intro tokens
  obtain ⟨m, hm, hidle⟩ := h tokens
  obtain ⟨n, hn, hidle'⟩ := h' m _ hidle
  refine ⟨n, ?_, by rwa [← List.append_assoc]⟩
  rw [run_append, hm, Option.bind_some, hn]

theorem Reads.starts (h : Reads cs out) : Starts cs out := fun tokens => h _ tokens (idle_ready tokens)

theorem Starts.blank (hc : isBlank c = true) (h : Starts cs out) : Reads (c :: cs) out := by
  intro l tokens hl
  obtain ⟨m, hm, hidle⟩ := h tokens
  refine ⟨m, ?_, hidle⟩
  rw [run_cons, feed_idle hl (not_word_of_isBlank hc), start, if_pos hc, Option.bind_some, hm]

theorem Starts.punct (hc : isPunct c = true) (h : Starts cs out) : Reads (c :: cs) (.punct c :: out) := by
  intro l tokens hl
  obtain ⟨m, hm, hidle⟩ := h (tokens ++ [.punct c])
  obtain ⟨hword, hblank⟩ := not_word_of_isPunct hc
  refine ⟨m, ?_, by rwa [List.append_cons]⟩
  rw [run_cons, feed_idle hl hword, start, if_neg (by rw [hblank]; decide), if_pos hc,
    Option.bind_some, hm]

theorem Starts.blanks {blanks : List Char} (hblanks : ∀ c ∈ blanks, isBlank c = true) (h : Starts cs out) :
    Starts (blanks ++ cs) out := by
  induction blanks with
  | nil => exact h
  | cons c blanks ih =>
    obtain ⟨hc, hblanks⟩ := List.forall_mem_cons.mp hblanks
    exact (Starts.blank hc (ih hblanks)).starts

theorem reads_blanks {blanks : List Char} (hblanks : ∀ c ∈ blanks, isBlank c = true) : Reads blanks [] := by
  cases blanks with
  | nil => exact Reads.nil
  | cons c blanks =>
    obtain ⟨hc, hblanks⟩ := List.forall_mem_cons.mp hblanks
    have h := Starts.blanks hblanks Reads.nil.starts
    rw [List.append_nil] at h
    exact Starts.blank hc h

theorem newline_blank (level : Nat) : ∀ c ∈ newline level, isBlank c = true := by
  intro c hc
  rcases List.mem_cons.mp hc with rfl | hc
  · decide
  · rw [List.eq_of_mem_replicate hc]
    decide

theorem Starts.newline (level : Nat) (h : Starts cs out) : Reads (newline level ++ cs) out := by
  refine Starts.blank (by decide) (Starts.blanks (fun c hc => ?_) h)
  exact newline_blank level c (List.mem_cons_of_mem _ hc)

theorem reads_closing {α : Type*} (level : Nat) (xs : List α) : Reads (closing level xs) [] := by
  cases xs with
  | nil => exact Reads.nil
  | cons _ _ => exact reads_blanks (newline_blank level)

theorem starts_word (w : Word) : Starts w.chars [.word w] := fun tokens => ⟨_, run_word tokens w, rfl⟩

theorem starts_quote (s : List Char) : Starts (quote s) [.str s] := fun tokens => ⟨_, run_quote tokens s, rfl⟩

mutual

theorem starts_text (level : Nat) : (v : Value) → Starts (v.text level) v.tokens
  | .word w => starts_word w
  | .str s => starts_quote s
  | .arr items => (Starts.punct (by decide) ((reads_items (level + 1) items).append
      ((reads_closing level items).append (Starts.punct (by decide) Reads.nil.starts))).starts).starts
  | .obj fields => (Starts.punct (by decide) ((reads_fields (level + 1) fields).append
      ((reads_closing level fields).append (Starts.punct (by decide) Reads.nil.starts))).starts).starts

theorem reads_items (level : Nat) : (items : List Value) → Reads (itemsText level items) (itemTokens items)
  | [] => Reads.nil
  | [v] => Starts.newline level (starts_text level v)
  | v :: v' :: items => Starts.newline level ((starts_text level v).append
      (Starts.punct (by decide) (reads_items level (v' :: items)).starts))

theorem reads_fields (level : Nat) :
    (fields : List (List Char × Value)) → Reads (fieldsText level fields) (fieldTokens fields)
  | [] => Reads.nil
  | [(key, v)] => Starts.newline level ((starts_quote key).append
      (Starts.punct (by decide) (Starts.blank (by decide) (starts_text level v)).starts))
  | (key, v) :: field :: fields => Starts.newline level ((starts_quote key).append
      (Starts.punct (by decide) (Starts.blank (by decide) ((starts_text level v).append
        (Starts.punct (by decide) (reads_fields level (field :: fields)).starts))).starts))

end

end Lexer

/-- Blanks may follow. -/
theorem lex_write (v : Value) {blanks : List Char} (h : ∀ c ∈ blanks, Lexer.isBlank c = true) :
    lex (write v ++ blanks) = some v.tokens := by
  obtain ⟨l, hrun, hidle⟩ := ((Lexer.starts_text 0 v).append (Lexer.reads_blanks h)) []
  rw [lex, write, hrun, Option.bind_some, hidle, List.append_nil]
  rfl

/-! ## The parser -/

namespace Parser

/-- What is open, and what may come next in it. -/
inductive Frame where
  /-- the value of the text -/
  | whole
  | done (v : Value)
  /-- an item, or the end of an array without any -/
  | item (before : List Value)
  | itemEnd (items : List Value)
  /-- a key, or the end of an object without any -/
  | key (before : List (List Char × Value))
  | colon (before : List (List Char × Value)) (key : List Char)
  | field (before : List (List Char × Value)) (key : List Char)
  | fieldEnd (fields : List (List Char × Value))

/-- A value is complete. -/
def deliver (v : Value) : List Frame → Option (List Frame)
  | .whole :: stack => some (.done v :: stack)
  | .item before :: stack => some (.itemEnd (before ++ [v]) :: stack)
  | .field before key :: stack => some (.fieldEnd (before ++ [(key, v)]) :: stack)
  | _ => none

def closeItems : List Frame → Option (List Frame)
  | .item [] :: stack => deliver (.arr []) stack
  | .itemEnd items :: stack => deliver (.arr items) stack
  | _ => none

def closeFields : List Frame → Option (List Frame)
  | .key [] :: stack => deliver (.obj []) stack
  | .fieldEnd fields :: stack => deliver (.obj fields) stack
  | _ => none

def comma : List Frame → Option (List Frame)
  | .itemEnd items :: stack => some (.item items :: stack)
  | .fieldEnd fields :: stack => some (.key fields :: stack)
  | _ => none

def colon : List Frame → Option (List Frame)
  | .colon before key :: stack => some (.field before key :: stack)
  | _ => none

def str (s : List Char) : List Frame → Option (List Frame)
  | .key before :: stack => some (.colon before s :: stack)
  | stack => deliver (.str s) stack

def step (stack : List Frame) : Token → Option (List Frame)
  | .word w => deliver (.word w) stack
  | .str s => str s stack
  | .punct c =>
    if c = '[' then some (.item [] :: stack)
    else if c = ']' then closeItems stack
    else if c = Char.ofNat 0x7b then some (.key [] :: stack)
    else if c = Char.ofNat 0x7d then closeFields stack
    else if c = ',' then comma stack
    else if c = ':' then colon stack
    else none

def run (stack : List Frame) (tokens : List Token) : Option (List Frame) := tokens.foldlM step stack

def finish : List Frame → Option Value
  | [.done v] => some v
  | _ => none

end Parser

def parse (tokens : List Token) : Option Value := (Parser.run [.whole] tokens).bind Parser.finish

def read (text : List Char) : Option Value := (lex text).bind parse

namespace Parser

variable {stack stack' : List Frame}

theorem run_cons (stack : List Frame) (t : Token) (tokens : List Token) :
    run stack (t :: tokens) = (step stack t).bind fun stack => run stack tokens := rfl

theorem run_append (stack : List Frame) (tokens tokens' : List Token) :
    run stack (tokens ++ tokens') = (run stack tokens).bind fun stack => run stack tokens' :=
  List.foldlM_append

/-- Where a value is expected, no key is. -/
theorem str_eq (s : List Char) (h : deliver (.str s) stack = some stack') : str s stack = some stack' := by
  unfold str
  split
  · cases h
  · exact h

/-- The frame of an array behind some of its items. -/
def afterItems (before : List Value) : List Value → Frame
  | [] => .item before
  | v :: items => .itemEnd (before ++ v :: items)

def afterFields (before : List (List Char × Value)) : List (List Char × Value) → Frame
  | [] => .key before
  | field :: fields => .fieldEnd (before ++ field :: fields)

theorem closeItems_after (items : List Value) (stack : List Frame) :
    closeItems (afterItems [] items :: stack) = deliver (.arr items) stack := by
  cases items <;> rfl

theorem closeFields_after (fields : List (List Char × Value)) (stack : List Frame) :
    closeFields (afterFields [] fields :: stack) = deliver (.obj fields) stack := by
  cases fields <;> rfl

mutual

theorem run_tokens : (v : Value) → ∀ {stack stack'}, deliver v stack = some stack' →
    run stack v.tokens = some stack'
  | .word w, stack, stack', h => by
    rw [Value.tokens, run_cons, step, h]
    rfl
  | .str s, stack, stack', h => by
    rw [Value.tokens, run_cons, step, str_eq s h]
    rfl
  | .arr items, stack, stack', h => by
    have hopen : step stack (.punct '[') = some (.item [] :: stack) := rfl
    have hclose : run (afterItems [] items :: stack) [.punct ']'] = some stack' := by
      have hstep : step (afterItems [] items :: stack) (.punct ']') =
          closeItems (afterItems [] items :: stack) := rfl
      rw [run_cons, hstep, closeItems_after, h]
      rfl
    rw [Value.tokens, run_cons, hopen, Option.bind_some, run_append, run_items, Option.bind_some, hclose]
  | .obj fields, stack, stack', h => by
    have hopen : step stack (.punct (Char.ofNat 0x7b)) = some (.key [] :: stack) := rfl
    have hclose : run (afterFields [] fields :: stack) [.punct (Char.ofNat 0x7d)] = some stack' := by
      have hstep : step (afterFields [] fields :: stack) (.punct (Char.ofNat 0x7d)) =
          closeFields (afterFields [] fields :: stack) := rfl
      rw [run_cons, hstep, closeFields_after, h]
      rfl
    rw [Value.tokens, run_cons, hopen, Option.bind_some, run_append, run_fields, Option.bind_some, hclose]

theorem run_items : (items : List Value) → ∀ {before stack},
    run (.item before :: stack) (itemTokens items) = some (afterItems before items :: stack)
  | [], _, _ => rfl
  | [v], before, stack => by
    rw [itemTokens, run_tokens v rfl]
    rfl
  | v :: v' :: items, before, stack => by
    have hcomma : step (.itemEnd (before ++ [v]) :: stack) (.punct ',') =
        some (.item (before ++ [v]) :: stack) := rfl
    rw [itemTokens, run_append, run_tokens v rfl, Option.bind_some, run_cons, hcomma, Option.bind_some,
      run_items (v' :: items), afterItems, afterItems, ← List.append_cons]

theorem run_fields : (fields : List (List Char × Value)) → ∀ {before stack},
    run (.key before :: stack) (fieldTokens fields) = some (afterFields before fields :: stack)
  | [], _, _ => rfl
  | [(key, v)], before, stack => by
    have hkey : step (.key before :: stack) (.str key) = some (.colon before key :: stack) := rfl
    have hcolon : step (.colon before key :: stack) (.punct ':') = some (.field before key :: stack) := rfl
    rw [fieldTokens, run_cons, hkey, Option.bind_some, run_cons, hcolon, Option.bind_some, run_tokens v rfl]
    rfl
  | (key, v) :: field :: fields, before, stack => by
    have hkey : step (.key before :: stack) (.str key) = some (.colon before key :: stack) := rfl
    have hcolon : step (.colon before key :: stack) (.punct ':') = some (.field before key :: stack) := rfl
    have hcomma : step (.fieldEnd (before ++ [(key, v)]) :: stack) (.punct ',') =
        some (.key (before ++ [(key, v)]) :: stack) := rfl
    rw [fieldTokens, run_cons, hkey, Option.bind_some, run_cons, hcolon, Option.bind_some, run_append,
      run_tokens v rfl, Option.bind_some, run_cons, hcomma, Option.bind_some,
      run_fields (field :: fields), afterFields, afterFields, ← List.append_cons]

end

end Parser

theorem parse_tokens (v : Value) : parse v.tokens = some v := by
  rw [parse, Parser.run_tokens v rfl]
  rfl

/-- **What is written reads back**, whatever blanks follow. -/
theorem read_write (v : Value) {blanks : List Char} (h : ∀ c ∈ blanks, Lexer.isBlank c = true) :
    read (write v ++ blanks) = some v := by
  rw [read, lex_write v h, Option.bind_some, parse_tokens]

end Json
