import CryptoTrading.Datasets.AcceptedRows
import CryptoTrading.Datasets.BacktestDataLoader
import Mathlib.Tactic.IntervalCases

/-!
# Loading what an upload stored

A stored file is plain: a pandas that reads plain files exactly (`Pandas.Exact`) gives back its
cells, and the times and numbers in them are read as they were written.  So `load` makes a data
set of sorted rows of finite numbers, with one data point for each (`load_storedCsv`).

The separator `;` does not occur in a stored file, and the loader goes on to `,`.
-/

namespace CryptoTrading.Datasets

open CryptoTrading.Lib CryptoTrading.Lib.Csv
open CryptoTrading.Retention (Instant digitValue?)

/-! ## §1 Texts of numbers and times -/

/-- A property of the entries of a list is decided along the list; the characters are finitely
    many, and `decide` would otherwise go through all of them. -/
theorem forall_mem_of_all {α : Type} {p : α → Prop} [DecidablePred p] {l : List α}
    (h : l.all (fun a => decide (p a)) = true) : ∀ a ∈ l, p a :=
  fun a ha => of_decide_eq_true (List.all_eq_true.mp h a ha)

theorem mem_of_isDigit {c : Char} (h : c.isDigit = true) :
    c ∈ ['0', '1', '2', '3', '4', '5', '6', '7', '8', '9'] := by
  have hrange : 48 ≤ c.toNat ∧ c.toNat ≤ 57 := by
    simpa [Char.isDigit, UInt32.le_iff_toNat_le] using h
  obtain ⟨hlow, hhigh⟩ := hrange
  rw [← Char.ofNat_toNat c]
  generalize c.toNat = n at hlow hhigh
  interval_cases n <;> decide

/-- What finite numbers are written with. -/
def numeralChars : List Char :=
  ['0', '1', '2', '3', '4', '5', '6', '7', '8', '9', '-', '+', '.', 'E']

/-- What the cells of a stored file are written with. -/
def cellChars : List Char := numeralChars ++ [':', 'T']

theorem mem_numeralChars {d : FiniteDecimal} {c : Char} (h : c ∈ (Decimal.finite d).toText) :
    c ∈ numeralChars := by
  rcases Decimal.mem_toText h with h | h
  · exact List.mem_append_left ['-', '+', '.', 'E'] (mem_of_isDigit h)
  · exact List.mem_append_right ['0', '1', '2', '3', '4', '5', '6', '7', '8', '9'] h

theorem mem_cellChars {t : Instant} {c : Char} (h : c ∈ isoText t) : c ∈ cellChars := by
  have hmarks : ∀ c ∈ ['-', '+', '.', ':', 'T'], c ∈ cellChars := forall_mem_of_all (by decide)
  rcases mem_isoText h with h | h
  · exact List.mem_append_left ['-', '+', '.', 'E', ':', 'T'] (mem_of_isDigit h)
  · exact hmarks c h

theorem strip_of_forall {text : Text}
    (h : ∀ c ∈ text, CryptoTrading.Expressions.isSpace c = false) : strip text = text := by
  have hfront : text.dropWhile CryptoTrading.Expressions.isSpace = text := by
    cases text with
    | nil => rfl
    | cons c rest => rw [List.dropWhile_cons, h c List.mem_cons_self, if_neg Bool.false_ne_true]
  rw [strip, hfront, List.rdropWhile_eq_self_iff]
  intro hne hspace
  rw [h _ (List.getLast_mem hne)] at hspace
  cases hspace

/-- The text of a finite number is read as it is. -/
theorem numericAsAscii_toText (d : FiniteDecimal) :
    numericAsAscii (Decimal.finite d).toText = (Decimal.finite d).toText := by
  have hspace : ∀ c ∈ numeralChars, CryptoTrading.Expressions.isSpace c = false :=
    forall_mem_of_all (by decide)
  have hchar : ∀ c ∈ numeralChars,
      (if c = '_' then none else some ((digitValue? c).elim c Nat.digitChar)) = some c :=
    forall_mem_of_all (by decide)
  rw [numericAsAscii, strip_of_forall fun c hc => hspace c (mem_numeralChars hc)]
  calc (Decimal.finite d).toText.filterMap _
      = (Decimal.finite d).toText.filterMap some :=
        List.filterMap_congr fun c hc => hchar c (mem_numeralChars hc)
    _ = (Decimal.finite d).toText := List.filterMap_some

/-- `Decimal(str(d))` of a finite number. -/
theorem decimal_toText (d : FiniteDecimal) :
    decimal (Decimal.finite d).toText = some (.finite d) := by
  rw [decimal, numericAsAscii_toText, Decimal.ofNumeral_toText]

/-! ## §2 Reading a plain file -/

/-- Printable and not a space. -/
def isVisible (c : Char) : Bool := 0x21 ≤ c.toNat && c.toNat ≤ 0x7e

/-- The cell has the decimal and the text of a field. -/
structure Shows (cell : Cell) (text : Text) : Prop where
  decimal : ∀ number, decimal text = some (.finite number) →
    ∃ d, decimal cell.str = some d ∧ d.Same (.finite number)
  isoText : ∀ t, text = isoText t → cell.isNumber = false ∧ cell.str = text

/-- A table of visible plain fields, with a name for each column. -/
structure PlainTable (separator : Char) (columns : Record) (rows : List Record) : Prop where
  columns_ne_nil : columns ≠ []
  nodup : columns.Nodup
  plain : ∀ row ∈ columns :: rows, ∀ field ∈ row, Plain separator field
  visible : ∀ row ∈ columns :: rows, ∀ field ∈ row, ∀ c ∈ field, isVisible c = true
  length_eq : ∀ row ∈ rows, row.length = columns.length

/-- pandas reads the cells and the times of plain files exactly. -/
structure Pandas.Exact (pandas : Pandas) : Prop where
  readCsv : ∀ {separator columns rows}, isVisible separator = true →
    PlainTable separator columns rows →
      ∃ cells, pandas.readCsv (writeRows separator (columns :: rows)) separator =
        some ⟨columns, cells⟩ ∧ List.Forall₂ (List.Forall₂ Shows) cells rows
  timestamp : ∀ t, pandas.timestamp (isoText t) = some (Datasets.timestamp t)

/-! ## §3 The stored file -/

namespace Ohlcv

structure AllFinite (o : Ohlcv) : Prop where
  «open» : o.open.IsFinite
  high : o.high.IsFinite
  low : o.low.IsFinite
  close : o.close.IsFinite
  volume : o.volume.IsFinite

end Ohlcv

theorem cellChars_plain : ∀ c ∈ cellChars,
    c ≠ ',' ∧ c ≠ ';' ∧ c ≠ '"' ∧ c ≠ '\r' ∧ c ≠ '\n' ∧ isVisible c = true :=
  forall_mem_of_all (by decide)

theorem mem_cellChars_of_isFinite {d : Decimal} (h : d.IsFinite) :
    d.toText ≠ [] ∧ ∀ c ∈ d.toText, c ∈ cellChars := by
  obtain ⟨number, rfl⟩ := d.isFinite_iff.mp h
  exact ⟨Decimal.toText_ne_nil number,
    fun c hc => List.mem_append_left _ (mem_numeralChars hc)⟩

theorem isoText_ne_nil (t : Instant) : isoText t ≠ [] := by
  have hlength := length_clockText (toDatetime t)
  intro hnil
  rw [isoText, isoformat_eq, List.append_eq_nil_iff] at hnil
  rw [hnil.1] at hlength
  cases hlength

/-- The cells of a row of finite numbers. -/
theorem cells_spec {r : ParsedRow} (h : r.values.AllFinite) :
    ∀ field ∈ r.cells, field ≠ [] ∧ ∀ c ∈ field, c ∈ cellChars := by
  intro field hfield
  simp only [ParsedRow.cells, List.mem_cons, List.not_mem_nil, or_false] at hfield
  rcases hfield with rfl | rfl | rfl | rfl | rfl | rfl
  · exact ⟨isoText_ne_nil _, fun c => mem_cellChars⟩
  · exact mem_cellChars_of_isFinite h.open
  · exact mem_cellChars_of_isFinite h.high
  · exact mem_cellChars_of_isFinite h.low
  · exact mem_cellChars_of_isFinite h.close
  · exact mem_cellChars_of_isFinite h.volume

theorem plain_of_cellChars {separator : Char} (hseparator : separator = ',' ∨ separator = ';')
    {field : Text} (hne : field ≠ []) (h : ∀ c ∈ field, c ∈ cellChars) :
    Plain separator field where
  ne_nil := hne
  ne_delimiter c hc := by
    obtain ⟨hcomma, hsemicolon, -⟩ := cellChars_plain c (h c hc)
    rcases hseparator with rfl | rfl
    · exact hcomma
    · exact hsemicolon
  ne_quote c hc := (cellChars_plain c (h c hc)).2.2.1
  ne_return c hc := (cellChars_plain c (h c hc)).2.2.2.1
  ne_newline c hc := (cellChars_plain c (h c hc)).2.2.2.2.1

theorem csvHeader_chars : ∀ c ∈ csvHeader.flatten,
    c ≠ ',' ∧ c ≠ ';' ∧ c ≠ '"' ∧ c ≠ '\r' ∧ c ≠ '\n' ∧ isVisible c = true :=
  forall_mem_of_all (by decide)

theorem plain_csvHeader : ∀ field ∈ csvHeader, Plain ',' field ∧ ∀ c ∈ field, isVisible c := by
  intro field hfield
  have hne : ∀ field ∈ csvHeader, field ≠ [] := by decide
  have hchars := fun c hc => csvHeader_chars c (List.mem_flatten_of_mem hfield hc)
  exact ⟨⟨hne field hfield, fun c hc => (hchars c hc).1, fun c hc => (hchars c hc).2.2.1,
    fun c hc => (hchars c hc).2.2.2.1, fun c hc => (hchars c hc).2.2.2.2.1⟩,
    fun c hc => (hchars c hc).2.2.2.2.2⟩

section StoredRows

variable {rows : List ParsedRow}

theorem plainTable_cells (h : ∀ r ∈ rows, r.values.AllFinite) :
    PlainTable ',' csvHeader (rows.map ParsedRow.cells) where
  columns_ne_nil := by decide
  nodup := by decide
  plain := by
    intro row hrow field hfield
    rcases List.mem_cons.mp hrow with rfl | hrow
    · exact (plain_csvHeader field hfield).1
    · obtain ⟨r, hr, rfl⟩ := List.mem_map.mp hrow
      obtain ⟨hne, hchars⟩ := cells_spec (h r hr) field hfield
      exact plain_of_cellChars (.inl rfl) hne hchars
  visible := by
    intro row hrow field hfield c hc
    rcases List.mem_cons.mp hrow with rfl | hrow
    · exact (plain_csvHeader field hfield).2 c hc
    · obtain ⟨r, hr, rfl⟩ := List.mem_map.mp hrow
      exact (cellChars_plain c ((cells_spec (h r hr) field hfield).2 c hc)).2.2.2.2.2
  length_eq := by
    intro row hrow
    obtain ⟨r, -, rfl⟩ := List.mem_map.mp hrow
    rfl

/-- The stored file as a table of one column, its lines. -/
theorem plainTable_lines (h : ∀ r ∈ rows, r.values.AllFinite) :
    PlainTable ';' [rowText ',' csvHeader] (rows.map fun r => [rowText ',' r.cells]) ∧
      writeRows ';' ([rowText ',' csvHeader] :: rows.map fun r => [rowText ',' r.cells]) =
        storedCsv rows := by
  have htable := plainTable_cells h
  -- no field has a semicolon or a sign to quote, so a line is one plain field
  have hsemicolon : ∀ row ∈ csvHeader :: rows.map ParsedRow.cells, ∀ field ∈ row, ∀ c ∈ field,
      c ≠ ';' := by
    intro row hrow field hfield c hc
    rcases List.mem_cons.mp hrow with rfl | hrow
    · exact (csvHeader_chars c (List.mem_flatten_of_mem hfield hc)).2.1
    · obtain ⟨r, hr, rfl⟩ := List.mem_map.mp hrow
      exact (cellChars_plain c ((cells_spec (h r hr) field hfield).2 c hc)).2.1
  have hline : ∀ row ∈ csvHeader :: rows.map ParsedRow.cells, Plain ';' (rowText ',' row) := by
    intro row hrow
    have hne : row ≠ [] := by
      rcases List.mem_cons.mp hrow with rfl | hrow
      · decide
      · obtain ⟨r, -, rfl⟩ := List.mem_map.mp hrow
        simp [ParsedRow.cells]
    exact Plain.rowText_plain hne (htable.plain row hrow) (hsemicolon row hrow) (by decide)
  have hvisible : ∀ row ∈ csvHeader :: rows.map ParsedRow.cells, ∀ c ∈ rowText ',' row,
      isVisible c = true := by
    intro row hrow c hc
    rw [Plain.rowText_eq (htable.plain row hrow)] at hc
    rcases Plain.mem_intercalate hc with rfl | ⟨field, hfield, hc⟩
    · decide
    · exact htable.visible row hrow field hfield c hc
  have hlines : [rowText ',' csvHeader] :: rows.map (fun r => [rowText ',' r.cells]) =
      (csvHeader :: rows.map ParsedRow.cells).map fun row => [rowText ',' row] := by
    rw [List.map_cons, List.map_map]
    rfl
  refine ⟨⟨by simp, by simp, ?_, ?_, ?_⟩, ?_⟩
  · rw [hlines]
    intro row hrow field hfield
    obtain ⟨row, hmem, rfl⟩ := List.mem_map.mp hrow
    obtain rfl := List.mem_singleton.mp hfield
    exact hline row hmem
  · rw [hlines]
    intro row hrow field hfield
    obtain ⟨row, hmem, rfl⟩ := List.mem_map.mp hrow
    obtain rfl := List.mem_singleton.mp hfield
    exact hvisible row hmem
  · intro row hrow
    obtain ⟨r, -, rfl⟩ := List.mem_map.mp hrow
    rfl
  · rw [hlines, writeRows_lines hline, storedCsv]

/-- The loader reads the stored file with the separator `,`. -/
theorem readFrame_storedCsv {pandas : Pandas} (hexact : pandas.Exact)
    (h : ∀ r ∈ rows, r.values.AllFinite) :
    ∃ cells, readFrame pandas (storedCsv rows) = some ⟨csvHeader, cells⟩ ∧
      List.Forall₂ (List.Forall₂ Shows) cells (rows.map ParsedRow.cells) := by
  obtain ⟨htable, hlines⟩ := plainTable_lines h
  obtain ⟨lines, hread, -⟩ := hexact.readCsv (by decide) htable
  obtain ⟨cells, hcells, hshows⟩ := hexact.readCsv (by decide) (plainTable_cells h)
  rw [hlines] at hread
  refine ⟨cells, ?_, hshows⟩
  simp only [readFrame, hread]
  exact hcells

theorem rowText_csvHeader :
    rowText ',' csvHeader = "timestamp,open,high,low,close,volume".toList := by decide

theorem firstLine_storedCsv (rows : List ParsedRow) :
    firstLine (storedCsv rows) = "timestamp,open,high,low,close,volume".toList := by
  have hheader : storedCsv rows = rowText ',' csvHeader ++
      ('\r' :: '\n' :: writeRows ',' (rows.map ParsedRow.cells)) := by
    rw [storedCsv, writeRows, writeRows, List.flatMap_cons, List.append_assoc, List.cons_append,
      List.singleton_append]
  have hline : ∀ c ∈ "timestamp,open,high,low,close,volume".toList,
      decide (c ≠ '\n' ∧ c ≠ '\r') = true := forall_mem_of_all (by decide)
  rw [firstLine, hheader, rowText_csvHeader, List.takeWhile_append_of_pos hline,
    List.takeWhile_cons_of_neg (by decide), List.append_nil]

theorem isAuditLog_storedCsv (rows : List ParsedRow) : isAuditLog (storedCsv rows) = false := by
  have hheader : ¬ "event_type".toList <:+: firstLine (storedCsv rows) := by
    rw [firstLine_storedCsv]
    decide
  exact decide_eq_false hheader

/-! ## §4 Loading it -/

/-- A data point has the second and the numbers of a row. -/
structure SameData (point : HistoricalDataPoint) (r : ParsedRow) : Prop where
  timestamp : point.timestamp = r.epoch
  «open» : point.values.open.Same r.values.open
  high : point.values.high.Same r.values.high
  low : point.values.low.Same r.values.low
  close : point.values.close.Same r.values.close
  volume : point.values.volume.Same r.values.volume

/-- A cell that shows a finite number is read as one of its value. -/
theorem Shows.of_isFinite {cell : Cell} {d : Decimal} (h : Shows cell d.toText)
    (hd : d.IsFinite) : ∃ e, Datasets.decimal cell.str = some e ∧ e.Same d := by
  obtain ⟨number, rfl⟩ := d.isFinite_iff.mp hd
  exact h.decimal number (decimal_toText number)

/-- The cells of a row are read as a data point with its data. -/
theorem readPoint_cells {pandas : Pandas} (hexact : pandas.Exact) {r : ParsedRow}
    (h : r.values.AllFinite) {cells : List Cell} (hshows : List.Forall₂ Shows cells r.cells) :
    ∃ point, readPoint pandas csvHeader cells = some point ∧ SameData point r := by
  obtain _ | ⟨htime, _ | ⟨hopen, _ | ⟨hhigh, _ | ⟨hlow, _ | ⟨hclose, _ | ⟨hvolume, ⟨⟩⟩⟩⟩⟩⟩⟩ :=
    hshows
  rename_i time openP highP lowP closeP volumeV
  -- each cell is read on its own: the time as a text, the others as the numbers shown
  obtain ⟨hnumber, hstr⟩ := htime.isoText _ rfl
  obtain ⟨o, hopen, hsameOpen⟩ := hopen.of_isFinite h.open
  obtain ⟨hi, hhigh, hsameHigh⟩ := hhigh.of_isFinite h.high
  obtain ⟨lo, hlow, hsameLow⟩ := hlow.of_isFinite h.low
  obtain ⟨cl, hclose, hsameClose⟩ := hclose.of_isFinite h.close
  obtain ⟨vol, hvolume, hsameVolume⟩ := hvolume.of_isFinite h.volume
  have hepoch : readEpoch pandas time = some r.epoch := by
    rw [readEpoch, hnumber, hstr, hexact.timestamp]
    rfl
  have hcell (name : String) (cell : Cell)
      (hname : lookup csvHeader [time, openP, highP, lowP, closeP, volumeV] name = some cell) :
      ((lookup csvHeader [time, openP, highP, lowP, closeP, volumeV] name).map Cell.str) =
        some cell.str := by
    rw [hname, Option.map_some]
  have hvalues : readOhlcv (fun name =>
      (lookup csvHeader [time, openP, highP, lowP, closeP, volumeV] name).map Cell.str) =
        some ⟨o, hi, lo, cl, vol⟩ := by
    simp only [readOhlcv, hcell "open" openP rfl, hcell "high" highP rfl, hcell "low" lowP rfl,
      hcell "close" closeP rfl, hcell "volume" volumeV rfl, Option.bind_some, hopen, hhigh, hlow,
      hclose, hvolume, Option.bind_eq_bind]
  refine ⟨⟨r.epoch, ⟨o, hi, lo, cl, vol⟩, zero⟩, ?_,
    ⟨rfl, hsameOpen, hsameHigh, hsameLow, hsameClose, hsameVolume⟩⟩
  have hlookup : lookup csvHeader [time, openP, highP, lowP, closeP, volumeV] "timestamp" =
      some time := rfl
  have hmarketCap : decimal (((lookup csvHeader [time, openP, highP, lowP, closeP, volumeV]
      "marketCap").map Cell.str).getD ['0']) = some zero := rfl
  simp only [readPoint, hlookup, hepoch, hvalues, hmarketCap, Option.bind_some,
    Option.bind_eq_bind]

theorem readPoints_cells {pandas : Pandas} (hexact : pandas.Exact)
    (h : ∀ r ∈ rows, r.values.AllFinite) {cells : List (List Cell)}
    (hshows : List.Forall₂ (List.Forall₂ Shows) cells (rows.map ParsedRow.cells)) :
    List.Forall₂ SameData (cells.filterMap (readPoint pandas csvHeader)) rows := by
  induction rows generalizing cells with
  | nil =>
    obtain ⟨⟩ := hshows
    exact .nil
  | cons r rest ih =>
    obtain _ | ⟨hrow, hrest⟩ := hshows
    obtain ⟨point, hpoint, hsame⟩ := readPoint_cells hexact (h r List.mem_cons_self) hrow
    have hlater := ih (fun r hr => h r (List.mem_cons_of_mem _ hr)) hrest
    rw [List.filterMap_cons, hpoint]
    exact .cons hsame hlater

theorem SameData.map_timestamp {points : List HistoricalDataPoint}
    (h : List.Forall₂ SameData points rows) :
    points.map HistoricalDataPoint.timestamp = rows.map ParsedRow.epoch := by
  induction h with
  | nil => rfl
  | cons hsame hrest ih => rw [List.map_cons, List.map_cons, hsame.timestamp, ih]

/-- A stored file of finite numbers in strict order is loaded as what it holds. -/
theorem load_storedCsv {pandas : Pandas} (hexact : pandas.Exact)
    (auditLog : Text → Option (List HistoricalDataPoint)) (tickerSymbol : String)
    (hne : rows ≠ []) (h : ∀ r ∈ rows, r.values.AllFinite)
    (hsorted : rows.Pairwise fun r s => r.epoch < s.epoch) :
    ∃ dataset, load pandas auditLog ⟨tickerSymbol, none, none, none⟩ (storedCsv rows) =
        .ok dataset ∧ List.Forall₂ SameData dataset.dataPoints rows := by
  obtain ⟨cells, hframe, hshows⟩ := readFrame_storedCsv hexact h
  have hsame := readPoints_cells hexact h hshows
  have htimestamps := SameData.map_timestamp hsame
  generalize hpoints : cells.filterMap (readPoint pandas csvHeader) = points at hsame htimestamps
  -- the points are in the order of the rows, so sorting them and dropping doubles changes nothing
  have hlt : points.Pairwise fun p q => p.timestamp < q.timestamp := by
    have hmap : (points.map HistoricalDataPoint.timestamp).Pairwise (· < ·) := by
      rw [htimestamps]
      exact List.pairwise_map.mpr hsorted
    exact List.pairwise_map.mp hmap
  have hloaded : loadPoints pandas auditLog (storedCsv rows) = some points := by
    have hle : points.Pairwise fun p q => p.timestamp ≤ q.timestamp := hlt.imp le_of_lt
    simp only [loadPoints, isAuditLog_storedCsv, Bool.false_eq_true, if_false, hframe,
      Option.map_some, hpoints, hle.insertionSort_eq]
  have hperiod : inPeriod none none points = points := by
    simp [inPeriod]
  have hrange (second : ℤ) (hsecond : second ∈ points.map HistoricalDataPoint.timestamp) :
      ∃ time, timeOf second = some time := by
    rw [htimestamps] at hsecond
    obtain ⟨r, -, rfl⟩ := List.mem_map.mp hsecond
    exact fromTimestamp_epochSecond r.time
  have hnil : points.map HistoricalDataPoint.timestamp ≠ [] := by
    rw [htimestamps]
    simpa using hne
  obtain ⟨first, hfirst⟩ := Option.isSome_iff_exists.mp (List.isSome_min?_of_ne_nil hnil)
  obtain ⟨last, hlast⟩ := Option.isSome_iff_exists.mp (List.isSome_max?_of_ne_nil hnil)
  obtain ⟨startTime, hstart⟩ := hrange first (List.min?_mem hfirst)
  obtain ⟨endTime, hend⟩ := hrange last (List.max?_mem hlast)
  have hle : points.Pairwise fun p q => p.timestamp ≤ q.timestamp := hlt.imp le_of_lt
  have hdistinct : points.Pairwise fun p q => p.timestamp ≠ q.timestamp := hlt.imp ne_of_lt
  refine ⟨⟨tickerSymbol, startTime, endTime, points, hlt⟩, ?_, hsame⟩
  simp only [load, hloaded, Option.or_none, hperiod, hfirst, hlast, hstart, hend,
    BacktestDataSet.ofPoints, hle, hdistinct, dif_pos]

end StoredRows

end CryptoTrading.Datasets
