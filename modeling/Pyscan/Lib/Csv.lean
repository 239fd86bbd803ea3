import Mathlib

/-!
# Comma-separated values

A writer that quotes a field only where it must, and a reader of the same
dialect: a machine over the characters of the file and the ends of its lines,
which takes a line break inside quotes as part of the field. **What is written
reads back** (`read_write`), for any rows of any fields, over any alphabet with
four distinct marks.
-/

namespace Csv

variable {α : Type*}

structure Dialect (α : Type*) where
  delimiter : α
  quote : α
  cr : α
  lf : α
  distinct : [delimiter, quote, cr, lf].Nodup

theorem Dialect.delimiter_ne (d : Dialect α) :
    d.delimiter ≠ d.quote ∧ d.delimiter ≠ d.cr ∧ d.delimiter ≠ d.lf := by
  have h := d.distinct
  simp only [List.nodup_cons, List.mem_cons, List.not_mem_nil, or_false, not_or] at h
  exact h.1

theorem Dialect.quote_ne (d : Dialect α) : d.quote ≠ d.cr ∧ d.quote ≠ d.lf := by
  have h := d.distinct
  simp only [List.nodup_cons, List.mem_cons, List.not_mem_nil, or_false, not_or] at h
  exact h.2.1

abbrev Field (α : Type*) := List α

abbrev Row (α : Type*) := List (Field α)

namespace Dialect

variable [DecidableEq α] (d : Dialect α)

/-! ## The writer -/

/-- The character makes its field a quoted one. -/
def special (c : α) : Bool := decide (c = d.delimiter ∨ c = d.quote ∨ c = d.cr ∨ c = d.lf)

/-- The field with its quotes doubled. -/
def doubled (f : Field α) : List α := f.flatMap fun c => if c = d.quote then [d.quote, d.quote] else [c]

def quoted (f : Field α) : List α := d.quote :: (d.doubled f ++ [d.quote])

def writeField (f : Field α) : List α := if f.any d.special then d.quoted f else f

/-- A row of one empty field is quoted: it would be no row. -/
def writeRow (row : Row α) : List α :=
  (if row = [[]] then d.quoted [] else [d.delimiter].intercalate (row.map d.writeField)) ++ [d.cr, d.lf]

def write (rows : List (Row α)) : List α := rows.flatMap d.writeRow

/-! ## The reader -/

/-- `c` ends its line: the file is read with its line breaks kept as they are. -/
def endsLine (c : α) (rest : List α) : Bool :=
  decide (rest = [] ∨ c = d.lf ∨ (c = d.cr ∧ rest.head? ≠ some d.lf))

/-- The characters of a file, and `none` at the end of each line. -/
def events : List α → List (Option α)
  | [] => []
  | c :: rest => some c :: ((if d.endsLine c rest then [none] else []) ++ events rest)

end Dialect

inductive State where
  | startRecord
  | startField
  | inField
  | inQuotedField
  | quoteInQuotedField
  | eatCrnl
  deriving DecidableEq

/-- The field and the fields of the row so far, and the rows so far. -/
structure Reader (α : Type*) where
  state : State := .startRecord
  field : Field α := []
  fields : Row α := []
  rows : List (Row α) := []

namespace Reader

def save (r : Reader α) (state : State) : Reader α :=
  { r with state, field := [], fields := r.fields ++ [r.field] }

def add (r : Reader α) (c : α) (state : State) : Reader α := { r with state, field := r.field ++ [c] }

variable [DecidableEq α] (d : Dialect α)

/-- A character at the start of a field. -/
def start (r : Reader α) (c : α) : Reader α :=
  if c = d.cr ∨ c = d.lf then r.save .eatCrnl
  else if c = d.quote then { r with state := .inQuotedField }
  else if c = d.delimiter then r.save .startField
  else r.add c .inField

/-- A character; none may follow a line break outside quotes on its line. -/
def feed (r : Reader α) (c : α) : Option (Reader α) :=
  match r.state with
  | .startRecord => some (if c = d.cr ∨ c = d.lf then { r with state := .eatCrnl } else r.start d c)
  | .startField => some (r.start d c)
  | .inField =>
    some (if c = d.cr ∨ c = d.lf then r.save .eatCrnl
      else if c = d.delimiter then r.save .startField else r.add c .inField)
  | .inQuotedField =>
    some (if c = d.quote then { r with state := .quoteInQuotedField } else r.add c .inQuotedField)
  | .quoteInQuotedField =>
    some (if c = d.quote then r.add c .inQuotedField
      else if c = d.delimiter then r.save .startField
      else if c = d.cr ∨ c = d.lf then r.save .eatCrnl
      else r.add c .inField)
  | .eatCrnl => if c = d.cr ∨ c = d.lf then some r else none

/-- A row is complete. -/
def emit (r : Reader α) : Reader α := { rows := r.rows ++ [r.fields] }

/-- The end of a line, which is the end of a row outside quotes. -/
def endLine (r : Reader α) : Reader α :=
  match r.state with
  | .startRecord | .eatCrnl => r.emit
  | .startField | .inField | .quoteInQuotedField => (r.save .startRecord).emit
  | .inQuotedField => r

def step (r : Reader α) : Option α → Option (Reader α)
  | some c => r.feed d c
  | none => some r.endLine

def run (r : Reader α) : List (Option α) → Option (Reader α)
  | [] => some r
  | e :: es => (r.step d e).bind fun r => run r es

/-- The end of the file, perhaps inside quotes. -/
def finish (r : Reader α) : List (Row α) :=
  if r.field ≠ [] ∨ r.state = .inQuotedField then (r.save .startRecord).emit.rows else r.rows

end Reader

def read [DecidableEq α] (d : Dialect α) (file : List α) : Option (List (Row α)) :=
  (({} : Reader α).run d (d.events file)).map Reader.finish

/-! ## What is written reads back -/

section Runs

variable [DecidableEq α] {d : Dialect α} {c : α} {rest : List α} {r : Reader α}

theorem Dialect.not_special (h : d.special c = false) :
    c ≠ d.delimiter ∧ c ≠ d.quote ∧ c ≠ d.cr ∧ c ≠ d.lf := by
  simpa only [special, decide_eq_false_iff_not, not_or] using h

/-- A character that does not end its line. -/
theorem run_char (h : d.endsLine c rest = false) :
    r.run d (d.events (c :: rest)) = (r.feed d c).bind fun r => r.run d (d.events rest) := by
  rw [Dialect.events, h]
  rfl

theorem endsLine_eq_false (hrest : rest ≠ []) (hcr : c ≠ d.cr) (hlf : c ≠ d.lf) :
    d.endsLine c rest = false := by
  simp [Dialect.endsLine, hrest, hcr, hlf]

/-- Inside quotes the end of a line is nothing. -/
theorem run_quoted (h : r.feed d c = some { r with field := r.field ++ [c] })
    (hstate : r.state = .inQuotedField) :
    r.run d (d.events (c :: rest)) = ({ r with field := r.field ++ [c] } : Reader α).run d (d.events rest) := by
  rw [Dialect.events, Reader.run, Reader.step, h, Option.bind_some]
  split
  · show Reader.run d _ (none :: d.events rest) = _
    rw [Reader.run, Reader.step, Option.bind_some, Reader.endLine]
    dsimp only
    rw [hstate]
  · rfl

variable {field : Field α} {fields : Row α} {rows : List (Row α)} {state : State}

theorem feed_quote : Reader.feed d ⟨.inQuotedField, field, fields, rows⟩ d.quote =
    some ⟨.quoteInQuotedField, field, fields, rows⟩ := by
  simp [Reader.feed]

theorem run_doubled (f : Field α) (hrest : rest ≠ []) :
    Reader.run d ⟨.inQuotedField, field, fields, rows⟩ (d.events (d.doubled f ++ rest)) =
      Reader.run d ⟨.inQuotedField, field ++ f, fields, rows⟩ (d.events rest) := by
  induction f generalizing field with
  | nil => rw [List.append_nil]; rfl
  | cons c f ih =>
    have hnext : d.doubled f ++ rest ≠ [] := List.append_ne_nil_of_right_ne_nil _ hrest
    rw [Dialect.doubled, List.flatMap_cons, ← Dialect.doubled, List.append_cons field c f, ← ih]
    by_cases hc : c = d.quote
    · rw [if_pos hc, hc]
      show Reader.run d _ (d.events (d.quote :: d.quote :: (d.doubled f ++ rest))) = _
      have hagain : Reader.feed d ⟨.quoteInQuotedField, field, fields, rows⟩ d.quote =
          some ⟨.inQuotedField, field ++ [d.quote], fields, rows⟩ := by simp [Reader.feed, Reader.add]
      rw [run_char (endsLine_eq_false (List.cons_ne_nil _ _) d.quote_ne.1 d.quote_ne.2), feed_quote,
        Option.bind_some, run_char (endsLine_eq_false hnext d.quote_ne.1 d.quote_ne.2), hagain,
        Option.bind_some]
    · rw [if_neg hc]
      have hfeed : Reader.feed d ⟨.inQuotedField, field, fields, rows⟩ c =
          some ⟨.inQuotedField, field ++ [c], fields, rows⟩ := by simp [Reader.feed, Reader.add, hc]
      exact run_quoted hfeed rfl

/-- A quoted field, up to its last quote. -/
theorem run_quotedField (f : Field α) (hstate : state = .startRecord ∨ state = .startField)
    (hrest : rest ≠ []) :
    Reader.run d ⟨state, [], fields, rows⟩ (d.events (d.quoted f ++ rest)) =
      Reader.run d ⟨.quoteInQuotedField, f, fields, rows⟩ (d.events rest) := by
  have hopen : Reader.feed d ⟨state, [], fields, rows⟩ d.quote =
      some ⟨.inQuotedField, [], fields, rows⟩ := by
    rcases hstate with rfl | rfl <;> simp [Reader.feed, Reader.start, d.quote_ne]
  have hclose : [d.quote] ++ rest ≠ [] := List.cons_ne_nil _ _
  have hnext : d.doubled f ++ ([d.quote] ++ rest) ≠ [] := List.append_ne_nil_of_right_ne_nil _ hclose
  rw [Dialect.quoted, List.cons_append, List.append_assoc,
    run_char (endsLine_eq_false hnext d.quote_ne.1 d.quote_ne.2), hopen, Option.bind_some,
    run_doubled f hclose, List.nil_append, List.singleton_append,
    run_char (endsLine_eq_false hrest d.quote_ne.1 d.quote_ne.2), feed_quote, Option.bind_some]

theorem run_plain {f : Field α} (hf : ∀ c ∈ f, d.special c = false) (hrest : rest ≠ []) :
    Reader.run d ⟨.inField, field, fields, rows⟩ (d.events (f ++ rest)) =
      Reader.run d ⟨.inField, field ++ f, fields, rows⟩ (d.events rest) := by
  induction f generalizing field with
  | nil => rw [List.append_nil]; rfl
  | cons c f ih =>
    obtain ⟨hc, hf⟩ := List.forall_mem_cons.mp hf
    obtain ⟨hdelimiter, -, hcr, hlf⟩ := Dialect.not_special hc
    have hnext : f ++ rest ≠ [] := List.append_ne_nil_of_right_ne_nil _ hrest
    have hfeed : Reader.feed d ⟨.inField, field, fields, rows⟩ c =
        some ⟨.inField, field ++ [c], fields, rows⟩ := by
      simp [Reader.feed, Reader.add, hdelimiter, hcr, hlf]
    rw [List.cons_append, run_char (endsLine_eq_false hnext hcr hlf), hfeed, Option.bind_some, ih hf,
      ← List.append_cons]

/-- The reader stands behind a field `f` that it began to read in `state`. -/
def Behind (state : State) (f : Field α) (state' : State) : Prop :=
  state' = .inField ∨ state' = .quoteInQuotedField ∨ (state' = state ∧ f = [])

theorem run_field (fields : Row α) (rows : List (Row α)) (f : Field α)
    (hstate : state = .startRecord ∨ state = .startField) (hrest : rest ≠ []) :
    ∃ state', Behind state f state' ∧
      Reader.run d ⟨state, [], fields, rows⟩ (d.events (d.writeField f ++ rest)) =
        Reader.run d ⟨state', f, fields, rows⟩ (d.events rest) := by
  rw [Dialect.writeField]
  split
  · exact ⟨.quoteInQuotedField, .inr (.inl rfl), run_quotedField f hstate hrest⟩
  · rename_i hany
    cases f with
    | nil => exact ⟨state, .inr (.inr ⟨rfl, rfl⟩), rfl⟩
    | cons c f =>
      have hplain : ∀ c' ∈ c :: f, d.special c' = false := by simpa using hany
      obtain ⟨hc, hf⟩ := List.forall_mem_cons.mp hplain
      obtain ⟨hdelimiter, hquote, hcr, hlf⟩ := Dialect.not_special hc
      refine ⟨.inField, .inl rfl, ?_⟩
      have hfeed : Reader.feed d ⟨state, [], fields, rows⟩ c = some ⟨.inField, [c], fields, rows⟩ := by
        rcases hstate with rfl | rfl <;>
          simp [Reader.feed, Reader.start, Reader.add, hdelimiter, hquote, hcr, hlf]
      rw [List.cons_append, run_char (endsLine_eq_false (by simp [hrest]) hcr hlf), hfeed,
        Option.bind_some, run_plain hf hrest, List.singleton_append]

theorem run_delimiter {f : Field α} {state' : State} (hstate : state = .startRecord ∨ state = .startField)
    (hbehind : Behind state f state') (hrest : rest ≠ []) :
    Reader.run d ⟨state', f, fields, rows⟩ (d.events (d.delimiter :: rest)) =
      Reader.run d ⟨.startField, [], fields ++ [f], rows⟩ (d.events rest) := by
  obtain ⟨hquote, hcr, hlf⟩ := d.delimiter_ne
  have hfeed : Reader.feed d ⟨state', f, fields, rows⟩ d.delimiter =
      some ⟨.startField, [], fields ++ [f], rows⟩ := by
    rcases hbehind with rfl | rfl | ⟨rfl, rfl⟩
    · simp [Reader.feed, Reader.save, hcr, hlf]
    · simp [Reader.feed, Reader.save, hquote]
    · rcases hstate with rfl | rfl <;> simp [Reader.feed, Reader.start, Reader.save, hquote, hcr, hlf]
  rw [run_char (endsLine_eq_false hrest hcr hlf), hfeed, Option.bind_some]

theorem endsLine_cr : d.endsLine d.cr (d.lf :: rest) = false := by
  have h := d.distinct
  simp only [List.nodup_cons, List.mem_cons, List.not_mem_nil, or_false] at h
  simp [Dialect.endsLine, h.2.2.1]

theorem run_lf : Reader.run d ⟨.eatCrnl, [], fields, rows⟩ (d.events (d.lf :: rest)) =
    Reader.run d { rows := rows ++ [fields] } (d.events rest) := by
  have hends : d.endsLine d.lf rest = true := by simp [Dialect.endsLine]
  rw [Dialect.events, hends]
  simp only [if_true, List.singleton_append, Reader.run, Reader.step, Reader.feed, or_true, Option.bind_some]
  rfl

/-- The end of a row that is not an empty line. -/
theorem run_crlf {f : Field α} {state' : State} (hbehind : Behind state f state')
    (hstate : state = .startField ∨ (state = .startRecord ∧ f ≠ [])) :
    Reader.run d ⟨state', f, fields, rows⟩ (d.events (d.cr :: d.lf :: rest)) =
      Reader.run d { rows := rows ++ [fields ++ [f]] } (d.events rest) := by
  have hne : d.cr ≠ d.quote ∧ d.cr ≠ d.delimiter :=
    ⟨d.quote_ne.1.symm, d.delimiter_ne.2.1.symm⟩
  have hfeed : Reader.feed d ⟨state', f, fields, rows⟩ d.cr =
      some ⟨.eatCrnl, [], fields ++ [f], rows⟩ := by
    rcases hbehind with rfl | rfl | ⟨rfl, rfl⟩
    · simp [Reader.feed, Reader.save]
    · simp [Reader.feed, Reader.save, hne]
    · rcases hstate with rfl | ⟨rfl, hf⟩
      · simp [Reader.feed, Reader.start, Reader.save]
      · exact absurd rfl hf
  rw [run_char endsLine_cr, hfeed, Option.bind_some, run_lf]

/-- The fields of a row that is not one empty field. -/
theorem run_fields (f : Field α) (row : Row α) (hstate : state = .startRecord ∨ state = .startField)
    (hrow : state = .startRecord → f :: row ≠ [[]]) :
    Reader.run d ⟨state, [], fields, rows⟩
        (d.events ([d.delimiter].intercalate ((f :: row).map d.writeField) ++ d.cr :: d.lf :: rest)) =
      Reader.run d { rows := rows ++ [fields ++ f :: row] } (d.events rest) := by
  induction row generalizing f state fields with
  | nil =>
    obtain ⟨state', hbehind, hfield⟩ := run_field (d := d) fields rows f hstate
      (show d.cr :: d.lf :: rest ≠ [] from List.cons_ne_nil _ _)
    rw [List.map_singleton, List.intercalate_singleton, hfield]
    refine run_crlf hbehind ?_
    rcases hstate with hstate | hstate
    · exact .inr ⟨hstate, fun hf => hrow hstate (by rw [hf])⟩
    · exact .inl hstate
  | cons g row ih =>
    have hnext : d.delimiter :: ([d.delimiter].intercalate ((g :: row).map d.writeField) ++
        d.cr :: d.lf :: rest) ≠ [] := List.cons_ne_nil _ _
    obtain ⟨state', hbehind, hfield⟩ := run_field (d := d) fields rows f hstate hnext
    have hjoin : [d.delimiter].intercalate ((f :: g :: row).map d.writeField) ++ d.cr :: d.lf :: rest =
        d.writeField f ++ d.delimiter :: ([d.delimiter].intercalate ((g :: row).map d.writeField) ++
          d.cr :: d.lf :: rest) := by
      rw [List.map_cons, List.map_cons, List.intercalate_cons_cons, List.append_assoc, List.append_assoc]
      rfl
    rw [hjoin, hfield, run_delimiter hstate hbehind (by simp), ih g (.inr rfl) (fun h => by cases h),
      List.append_assoc, List.singleton_append]

theorem run_row (row : Row α) :
    Reader.run d { rows } (d.events (d.writeRow row ++ rest)) =
      Reader.run d { rows := rows ++ [row] } (d.events rest) := by
  rw [Dialect.writeRow, List.append_assoc]
  show Reader.run d ⟨.startRecord, [], [], rows⟩ (d.events (_ ++ d.cr :: d.lf :: rest)) = _
  split
  · rename_i hrow
    subst hrow
    rw [run_quotedField [] (.inl rfl) (List.cons_ne_nil _ _)]
    have hbehind : Behind .startField ([] : Field α) .quoteInQuotedField := .inr (.inl rfl)
    exact run_crlf hbehind (.inl rfl)
  · rename_i hrow
    cases row with
    | nil =>
      -- an empty line
      have hfeed : Reader.feed d ⟨.startRecord, [], [], rows⟩ d.cr = some ⟨.eatCrnl, [], [], rows⟩ := by
        simp [Reader.feed]
      rw [List.map_nil, List.intercalate_nil, List.nil_append, run_char endsLine_cr, hfeed,
        Option.bind_some, run_lf]
    | cons f row => exact run_fields f row (.inl rfl) fun _ => hrow

/-- **What is written reads back.** -/
theorem read_write (rows : List (Row α)) : read d (d.write rows) = some rows := by
  have hruns : ∀ rows before : List (Row α), Reader.run d { rows := before } (d.events (d.write rows)) =
      some { rows := before ++ rows } := by
    intro rows
    induction rows with
    | nil =>
      intro before
      rw [List.append_nil]
      rfl
    | cons row rows ih =>
      intro before
      rw [Dialect.write, List.flatMap_cons, ← Dialect.write, run_row, ih, List.append_assoc]
      rfl
  rw [read, hruns rows []]
  rfl

end Runs

end Csv
