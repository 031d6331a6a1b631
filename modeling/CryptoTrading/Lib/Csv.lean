import Mathlib.Data.List.Basic

/-!
# Comma-separated values

A reader of records goes over the lines of a text character by character (`step`), and from line
to line while a quoted field is open (`readRecords`); a field that grows beyond the limit ends the
reading with an error.  A writer puts quotes around the fields that need them.  Lines are without
their ends.

What is written of fields that need no quotes is read back as it was (`read_writeRows`).
-/

namespace CryptoTrading.Lib.Csv

abbrev Line := List Char

abbrev Record := List (List Char)

/-! ## §1 Reading -/

structure Dialect where
  delimiter : Char
  /-- The most characters that a field may have. -/
  fieldLimit : Option ℕ

inductive State where
  | startRecord
  | startField
  | inField
  | inQuotedField
  | quoteInQuotedField
  deriving DecidableEq

/-- A reader in the middle of a record. -/
structure Reader where
  state : State
  field : List Char
  fields : Record
  deriving DecidableEq

namespace Reader

def fresh : Reader := ⟨.startRecord, [], []⟩

def saveField (r : Reader) (state : State) : Reader := ⟨state, [], r.fields ++ [r.field]⟩

end Reader

/-- There is room for one more character. -/
def Dialect.hasRoom (d : Dialect) (length : ℕ) : Bool := d.fieldLimit.all (length < ·)

namespace Reader

variable (d : Dialect)

/-- Add a character to the field, unless it is as long as it may be. -/
def addChar (r : Reader) (state : State) (c : Char) : Option Reader :=
  if d.hasRoom r.field.length then some ⟨state, r.field ++ [c], r.fields⟩ else none

/-- One character; none when the field is too long. -/
def step (r : Reader) (c : Char) : Option Reader :=
  match r.state with
  | .startRecord | .startField =>
    if c = '"' then some { r with state := .inQuotedField }
    else if c = d.delimiter then some (r.saveField .startField)
    else r.addChar d .inField c
  | .inField =>
    if c = d.delimiter then some (r.saveField .startField) else r.addChar d .inField c
  | .inQuotedField =>
    if c = '"' then some { r with state := .quoteInQuotedField }
    else r.addChar d .inQuotedField c
  | .quoteInQuotedField =>
    if c = '"' then r.addChar d .inQuotedField c
    else if c = d.delimiter then some (r.saveField .startField)
    else r.addChar d .inField c

/-- The end of a line, which ends the record unless a quoted field is open. -/
def endLine (r : Reader) : Reader :=
  match r.state with
  | .startRecord | .inQuotedField => r
  | _ => r.saveField .startRecord

def readLine (r : Reader) (line : Line) : Option Reader := (line.foldlM (step d) r).map endLine

/-- The records of the lines, up to the first error, and whether there was one. -/
def readRecords (r : Reader) : List Line → List Record × Bool
  | [] =>
    if r.field ≠ [] ∨ r.state = .inQuotedField then ([r.fields ++ [r.field]], false)
    else ([], false)
  | line :: rest =>
    match readLine d r line with
    | none => ([], true)
    | some r' =>
      if r'.state = .startRecord then
        let later := readRecords fresh rest
        (r'.fields :: later.1, later.2)
      else readRecords r' rest

end Reader

/-! ## §2 Writing -/

section Writing

variable (delimiter : Char)

def needsQuotes (field : List Char) : Bool :=
  field.any fun c => c = delimiter || c = '"' || c = '\r' || c = '\n'

def quoted (field : List Char) : List Char :=
  '"' :: ((field.flatMap fun c => if c = '"' then ['"', '"'] else [c]) ++ ['"'])

def fieldText (field : List Char) : List Char :=
  if needsQuotes delimiter field then quoted field else field

/-- A record on a line; one empty field alone is quoted. -/
def rowText (row : Record) : Line :=
  if row = [[]] then quoted [] else [delimiter].intercalate (row.map (fieldText delimiter))

def writeRows (rows : List Record) : List Char :=
  rows.flatMap fun row => rowText delimiter row ++ ['\r', '\n']

end Writing

/-- The lines of a text, after what was read of the first one. -/
def splitLines (current : List Char) : List Char → List Line
  | [] => if current = [] then [] else [current]
  | '\r' :: '\n' :: rest => current :: splitLines [] rest
  | c :: rest => splitLines (current ++ [c]) rest

/-- The records of a text. -/
def read (d : Dialect) (text : List Char) : List Record × Bool :=
  Reader.fresh.readRecords d (splitLines [] text)

/-! ## §3 Reading what was written -/

/-- A field that is not empty and needs no quotes. -/
structure Plain (delimiter : Char) (field : List Char) : Prop where
  ne_nil : field ≠ []
  ne_delimiter : ∀ c ∈ field, c ≠ delimiter
  ne_quote : ∀ c ∈ field, c ≠ '"'
  ne_return : ∀ c ∈ field, c ≠ '\r'
  ne_newline : ∀ c ∈ field, c ≠ '\n'

namespace Plain

variable {delimiter : Char} {field : List Char} {row : Record}

theorem fieldText_eq (h : Plain delimiter field) : fieldText delimiter field = field := by
  have hplain : needsQuotes delimiter field = false := by
    simp only [needsQuotes, List.any_eq_false, Bool.or_eq_true, decide_eq_true_eq, not_or]
    exact fun c hc => ⟨⟨⟨h.ne_delimiter c hc, h.ne_quote c hc⟩, h.ne_return c hc⟩,
      h.ne_newline c hc⟩
  simp [fieldText, hplain]

theorem rowText_eq (h : ∀ field ∈ row, Plain delimiter field) :
    rowText delimiter row = [delimiter].intercalate row := by
  have hne : row ≠ [[]] := by
    rintro rfl
    exact (h [] List.mem_cons_self).ne_nil rfl
  have hfields : row.map (fieldText delimiter) = row := by
    conv_rhs => rw [← List.map_id row]
    exact List.map_congr_left fun field hfield => (h field hfield).fieldText_eq
  rw [rowText, if_neg hne, hfields]

/-- What a line of plain fields is made of. -/
theorem mem_intercalate {c : Char} (h : c ∈ [delimiter].intercalate row) :
    c = delimiter ∨ ∃ field ∈ row, c ∈ field := by
  induction row with
  | nil => simp at h
  | cons field rest ih =>
    cases rest with
    | nil => exact .inr ⟨field, List.mem_cons_self, by simpa using h⟩
    | cons next rest =>
      rw [List.intercalate_cons_cons, List.append_assoc, List.mem_append] at h
      rcases h with hfield | h
      · exact .inr ⟨field, List.mem_cons_self, hfield⟩
      rcases List.mem_cons.mp h with rfl | h
      · exact .inl rfl
      · rcases ih h with hc | ⟨other, hother, hc⟩
        · exact .inl hc
        · exact .inr ⟨other, List.mem_cons_of_mem _ hother, hc⟩

theorem return_notMem_intercalate (hdelimiter : delimiter ≠ '\r')
    (h : ∀ field ∈ row, Plain delimiter field) : '\r' ∉ [delimiter].intercalate row := by
  intro hmem
  rcases mem_intercalate hmem with heq | ⟨field, hfield, hc⟩
  · exact hdelimiter heq.symm
  · exact (h field hfield).ne_return _ hc rfl

/-- A line of plain fields is one plain field itself, for a delimiter that it does not have. -/
theorem rowText_plain {other : Char} (hne : row ≠ []) (h : ∀ field ∈ row, Plain delimiter field)
    (hother : ∀ field ∈ row, ∀ c ∈ field, c ≠ other)
    (hdelimiter : delimiter ∉ [other, '"', '\r', '\n']) :
    Plain other (rowText delimiter row) := by
  -- a character of the line is the delimiter or one of a field
  have hmark (c : Char) : c ∈ rowText delimiter row →
      c = delimiter ∨ ∃ field ∈ row, c ∈ field := by
    rw [rowText_eq h]
    exact mem_intercalate
  simp only [List.mem_cons, List.not_mem_nil, or_false, not_or] at hdelimiter
  obtain ⟨hd₁, hd₂, hd₃, hd₄⟩ := hdelimiter
  constructor
  · obtain ⟨field, rest, rfl⟩ := List.exists_cons_of_ne_nil hne
    have hfield := (h field List.mem_cons_self).ne_nil
    rw [rowText_eq h]
    cases rest with
    | nil => simpa using hfield
    | cons next rest =>
      rw [List.intercalate_cons_cons]
      simp
  all_goals
    intro c hc
    rcases hmark c hc with rfl | ⟨field, hfield, hc⟩
  · exact hd₁
  · exact hother field hfield c hc
  · exact hd₂
  · exact (h field hfield).ne_quote c hc
  · exact hd₃
  · exact (h field hfield).ne_return c hc
  · exact hd₄
  · exact (h field hfield).ne_newline c hc

end Plain

namespace Reader

variable {d : Dialect} {delimiter : Char}

/-- The field fits into the limit. -/
def Fits (d : Dialect) (field : List Char) : Prop := ∀ n < field.length, d.hasRoom n = true

/-- Inside a field plain characters are added to it. -/
theorem foldlM_inField {chars : List Char} (hdelimiter : ∀ c ∈ chars, c ≠ d.delimiter)
    (field : List Char) (hfits : Fits d (field ++ chars)) (fields : Record) :
    chars.foldlM (step d) ⟨.inField, field, fields⟩ =
      some ⟨.inField, field ++ chars, fields⟩ := by
  induction chars generalizing field with
  | nil => simp
  | cons c rest ih =>
    have hroom : d.hasRoom field.length = true := hfits _ (by simp)
    have hc := hdelimiter c List.mem_cons_self
    have hstep : step d ⟨.inField, field, fields⟩ c = some ⟨.inField, field ++ [c], fields⟩ := by
      simp [step, hc, addChar, hroom]
    have hrest := ih (fun c hc => hdelimiter c (List.mem_cons_of_mem _ hc))
      (field ++ [c]) (by simpa using hfits)
    simpa [List.foldlM_cons, hstep] using hrest

/-- A plain field is read whole. -/
theorem foldlM_field {field : List Char} (hplain : Plain d.delimiter field)
    (hfits : Fits d field) {state : State} (hstate : state = .startRecord ∨ state = .startField)
    (fields : Record) :
    field.foldlM (step d) ⟨state, [], fields⟩ = some ⟨.inField, field, fields⟩ := by
  obtain ⟨c, rest, rfl⟩ := List.exists_cons_of_ne_nil hplain.ne_nil
  have hroom : d.hasRoom 0 = true := hfits 0 (by simp)
  have hc := hplain.ne_delimiter c List.mem_cons_self
  have hquote := hplain.ne_quote c List.mem_cons_self
  have hstep : step d ⟨state, [], fields⟩ c = some ⟨.inField, [c], fields⟩ := by
    rcases hstate with rfl | rfl <;> simp [step, hc, hquote, addChar, hroom]
  have hrest := foldlM_inField (fun c hc => hplain.ne_delimiter c (List.mem_cons_of_mem _ hc))
    [c] hfits fields
  simpa [List.foldlM_cons, hstep] using hrest

/-- A row of plain fields is read field by field, up to the end of its line. -/
theorem readLine_row {field : List Char} {rest : Record}
    (hplain : ∀ f ∈ field :: rest, Plain d.delimiter f) (hfits : ∀ f ∈ field :: rest, Fits d f)
    {state : State} (hstate : state = .startRecord ∨ state = .startField) (fields : Record) :
    readLine d ⟨state, [], fields⟩ ([d.delimiter].intercalate (field :: rest)) =
      some ⟨.startRecord, [], fields ++ field :: rest⟩ := by
  have hfield := foldlM_field (hplain field List.mem_cons_self) (hfits field List.mem_cons_self)
    hstate fields
  induction rest generalizing field fields state with
  | nil => simp [readLine, List.intercalate_singleton, hfield, endLine, saveField]
  | cons next rest ih =>
    have hnext := foldlM_field (hplain next (by simp)) (hfits next (by simp))
      (.inr rfl) (fields ++ [field])
    have hlater := ih (fun f hf => hplain f (List.mem_cons_of_mem _ hf))
      (fun f hf => hfits f (List.mem_cons_of_mem _ hf)) (.inr rfl) (fields ++ [field]) hnext
    have hdelimiter : step d ⟨.inField, field, fields⟩ d.delimiter =
        some ⟨.startField, [], fields ++ [field]⟩ := by simp [step, saveField]
    rw [List.intercalate_cons_cons]
    simp only [readLine, List.foldlM_append, hfield, List.foldlM_cons, List.foldlM_nil,
      hdelimiter, Option.bind_eq_bind, Option.bind_some, Option.pure_def] at hlater ⊢
    simpa using hlater

theorem readRecords_rows {rows : List Record} (hne : ∀ row ∈ rows, row ≠ [])
    (hplain : ∀ row ∈ rows, ∀ f ∈ row, Plain d.delimiter f)
    (hfits : ∀ row ∈ rows, ∀ f ∈ row, Fits d f) :
    fresh.readRecords d (rows.map [d.delimiter].intercalate) = (rows, false) := by
  induction rows with
  | nil => rfl
  | cons row rest ih =>
    obtain ⟨field, more, rfl⟩ := List.exists_cons_of_ne_nil (hne row List.mem_cons_self)
    have hrow : readLine d fresh ([d.delimiter].intercalate (field :: more)) =
        some ⟨.startRecord, [], field :: more⟩ :=
      readLine_row (hplain _ List.mem_cons_self) (hfits _ List.mem_cons_self) (.inl rfl) []
    have hrest := ih (fun row h => hne row (List.mem_cons_of_mem _ h))
      (fun row h => hplain row (List.mem_cons_of_mem _ h))
      (fun row h => hfits row (List.mem_cons_of_mem _ h))
    simp only [List.map_cons, readRecords, hrow, if_true, hrest]

end Reader

theorem splitLines_append {line : List Char} (hline : '\r' ∉ line) (current rest : List Char) :
    splitLines current (line ++ '\r' :: '\n' :: rest) =
      (current ++ line) :: splitLines [] rest := by
  induction line generalizing current with
  | nil => simp [splitLines]
  | cons c line ih =>
    simp only [List.mem_cons, not_or] at hline
    have hc : c ≠ '\r' := fun h => hline.1 h.symm
    rw [List.cons_append, splitLines]
    · rw [ih hline.2, List.append_assoc, List.singleton_append]
    · intro rest' heq
      exact absurd heq hc

section RoundTrip

variable {d : Dialect} {rows : List Record}

theorem splitLines_writeRows (hdelimiter : d.delimiter ≠ '\r')
    (hplain : ∀ row ∈ rows, ∀ f ∈ row, Plain d.delimiter f) :
    splitLines [] (writeRows d.delimiter rows) = rows.map [d.delimiter].intercalate := by
  induction rows with
  | nil => simp [writeRows, splitLines]
  | cons row rest ih =>
    have hrow := hplain row List.mem_cons_self
    have hreturn := Plain.return_notMem_intercalate hdelimiter hrow
    have hrest := ih fun row h => hplain row (List.mem_cons_of_mem _ h)
    rw [writeRows] at hrest ⊢
    rw [List.flatMap_cons, Plain.rowText_eq hrow, List.append_assoc, List.cons_append,
      List.singleton_append, splitLines_append hreturn, hrest, List.nil_append, List.map_cons]

/-- Rows of plain fields are read back from what was written of them. -/
theorem read_writeRows (hdelimiter : d.delimiter ≠ '\r') (hne : ∀ row ∈ rows, row ≠ [])
    (hplain : ∀ row ∈ rows, ∀ f ∈ row, Plain d.delimiter f)
    (hfits : ∀ row ∈ rows, ∀ f ∈ row, Reader.Fits d f) :
    read d (writeRows d.delimiter rows) = (rows, false) := by
  rw [read, splitLines_writeRows hdelimiter hplain, Reader.readRecords_rows hne hplain hfits]

/-- A file of plain lines is also a file of one column, for a delimiter that they do not have. -/
theorem writeRows_lines {delimiter other : Char}
    (h : ∀ row ∈ rows, Plain other (rowText delimiter row)) :
    writeRows other (rows.map fun row => [rowText delimiter row]) = writeRows delimiter rows := by
  rw [writeRows, writeRows, List.flatMap_map]
  refine List.flatMap_congr fun row hrow => ?_
  have hline : rowText other [rowText delimiter row] = rowText delimiter row := by
    rw [Plain.rowText_eq (by simpa using h row hrow), List.intercalate_singleton]
  rw [hline]

end RoundTrip

end CryptoTrading.Lib.Csv
