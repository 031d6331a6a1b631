import CryptoTrading.Datasets.AcceptedRows
import CryptoTrading.Datasets.StoredFile

/-!
# Accepted data sets load back

An upload is rejected with a `DatasetValidationError`, or what it stores loads back as its data
rows (`LoadsBack`), for all files but those of five kinds (`Defect`): text that is not UTF-8, a
field of the header or of a row that is longer than the CSV reader takes, a comparison with what
is not a number, and an infinite number in a file that passes.

The first four raise something else than a `DatasetValidationError`; of the last the stored file
has a number that is not finite.
-/

namespace CryptoTrading.Datasets

open CryptoTrading.Lib CryptoTrading.Lib.Csv
open CryptoTrading.Retention (Instant)

/-! ## §1 Files -/

/-- The file is read up to its header, which has the columns, and has these data rows; `failed`
says whether the reader raises after them. -/
def Opens (content : ByteArray) (rows : List Row) (failed : Bool) : Prop :=
  content.size ≠ 0 ∧ ∃ text fieldnames records, decode content = some text ∧
    2 ≤ (dataLines text).length ∧ tableOf (dataLines text) = (fieldnames :: records, failed) ∧
    missingHeaders fieldnames = [] ∧ rows = dataRows fieldnames records

/-- A file is read in one way only. -/
theorem Opens.unique {content : ByteArray} {rows rows' : List Row} {failed failed' : Bool}
    (h : Opens content rows failed) (h' : Opens content rows' failed') :
    rows = rows' ∧ failed = failed' := by
  obtain ⟨-, text, fieldnames, records, hdecode, -, htable, -, rfl⟩ := h
  obtain ⟨-, text', fieldnames', records', hdecode', -, htable', -, rfl⟩ := h'
  obtain rfl : text = text' := Option.some.inj (hdecode.symm.trans hdecode')
  have hsame := htable.symm.trans htable'
  simp only [Prod.mk.injEq, List.cons.injEq] at hsame
  obtain ⟨⟨rfl, rfl⟩, rfl⟩ := hsame
  exact ⟨rfl, rfl⟩

section Uploads

variable (host : Host)

/-- What makes an upload fail otherwise than by a `DatasetValidationError`, or store a number that
is not finite. -/
inductive Defect (content : ByteArray) : Prop
  | undecodable (hsize : content.size ≠ 0) (hdecode : decode content = none)
  | headerTooLong {text : Text} (hsize : content.size ≠ 0) (hdecode : decode content = some text)
      (hlines : 2 ≤ (dataLines text).length) (htable : tableOf (dataLines text) = ([], true))
  | rowTooLong {rows : List Row} {parsed : List ParsedRow} (hopens : Opens content rows true)
      (hpassing : Passing host [] rows parsed)
  | nanCompared {rows : List Row} {failed : Bool} (hopens : Opens content rows failed)
      (hstops : StopsAtNan host [] rows)
  | infinite {rows : List Row} {parsed : List ParsedRow} {r : ParsedRow}
      (hopens : Opens content rows false) (hpassing : Passing host [] rows parsed)
      (hmem : r ∈ parsed) (hinfinite : ¬ r.values.AllFinite)

/-- What the file is when it is not opened. -/
theorem validateCsv_cases (content : ByteArray) :
    (∃ error, validateCsv host content = .error (.validation error)) ∨
      (∃ raised, validateCsv host content = .error raised ∧ Defect host content) ∨
      ∃ rows failed, Opens content rows failed := by
  -- the checks in their order: size, text, number of lines, records, columns
  by_cases hsize : content.size = 0
  · exact .inl ⟨_, by rw [validateCsv, if_pos hsize]⟩
  cases hdecode : decode content with
  | none => exact .inr (.inl ⟨.unicodeDecodeError, by simp only [validateCsv, hsize, hdecode,
      if_false], .undecodable hsize hdecode⟩)
  | some text =>
    by_cases hlines : (dataLines text).length < 2
    · exact .inl ⟨.tooFewLines, by
        simp only [validateCsv, hsize, hdecode, hlines, if_true, if_false]⟩
    obtain ⟨table, htable⟩ : ∃ table, tableOf (dataLines text) = table := ⟨_, rfl⟩
    have hvalidate : validateCsv host content = validateTable host table := by
      simp only [validateCsv, hsize, hdecode, hlines, if_false, htable]
    obtain ⟨records, failed⟩ := table
    cases records with
    | nil =>
      cases failed with
      | false => exact .inl ⟨_, hvalidate⟩
      | true => exact .inr (.inl ⟨.csvError, hvalidate,
          .headerTooLong hsize hdecode (Nat.not_lt.mp hlines) htable⟩)
    | cons fieldnames records =>
      by_cases hheaders : missingHeaders fieldnames = []
      · exact .inr (.inr ⟨_, failed, hsize, text, fieldnames, records, hdecode,
          Nat.not_lt.mp hlines, htable, hheaders, rfl⟩)
      · refine .inl ⟨.missingColumns (missingHeaders fieldnames), ?_⟩
        rw [hvalidate]
        simp only [validateTable, hheaders, if_false]

variable {host}

theorem validateCsv_of_opens {content : ByteArray} {rows : List Row} {failed : Bool}
    (h : Opens content rows failed) :
    validateCsv host content = (validateRows host [] 2 rows).bind fun parsed =>
      if failed then .error .csvError
      else if parsed = [] then .error (.validation .noRows)
      else .ok (sortRows parsed) := by
  obtain ⟨hsize, text, fieldnames, records, hdecode, hlines, htable, hheaders, rfl⟩ := h
  simp only [validateCsv, hsize, hdecode, Nat.not_lt.mpr hlines, htable, validateTable, hheaders,
    if_true, if_false]
  rfl

/-- An upload that raises is rejected, or its file has a defect. -/
theorem validateCsv_eq_error {content : ByteArray} {raised : Raised}
    (h : validateCsv host content = .error raised) :
    (∃ error, raised = .validation error) ∨ Defect host content := by
  rcases validateCsv_cases host content with
    ⟨error, hrejected⟩ | ⟨raised', -, hdefect⟩ | ⟨rows, failed, hopens⟩
  · exact .inl ⟨error, Except.error.inj (h.symm.trans hrejected)⟩
  · exact .inr hdefect
  rw [validateCsv_of_opens hopens] at h
  cases hrows : validateRows host [] 2 rows with
  | error raised' =>
    rw [hrows] at h
    obtain rfl : raised' = raised := Except.error.inj h
    rcases validateRows_eq_error hrows with rfl | hrejected
    · exact .inr (.nanCompared hopens ((validateRows_eq_invalidOperation_iff 2).mp hrows))
    · exact .inl hrejected
  | ok parsed =>
    have hpassing := (validateRows_eq_ok_iff 2).mp hrows
    rw [hrows] at h
    cases failed with
    | true => exact .inr (.rowTooLong hopens hpassing)
    | false =>
      by_cases hnil : parsed = []
      · simp only [Except.bind, Bool.false_eq_true, hnil, if_true, if_false] at h
        exact .inl ⟨.noRows, (Except.error.inj h).symm⟩
      · simp [Except.bind, hnil] at h

/-- An upload that passes has read all its rows, and they are sorted. -/
theorem validateCsv_eq_ok {content : ByteArray} {sorted : List ParsedRow}
    (h : validateCsv host content = .ok sorted) :
    ∃ rows parsed, Opens content rows false ∧ Passing host [] rows parsed ∧ parsed ≠ [] ∧
      sorted = sortRows parsed := by
  rcases validateCsv_cases host content with
    ⟨error, hrejected⟩ | ⟨raised', hraised, -⟩ | ⟨rows, failed, hopens⟩
  · rw [hrejected] at h
    cases h
  · rw [hraised] at h
    cases h
  rw [validateCsv_of_opens hopens] at h
  cases hrows : validateRows host [] 2 rows with
  | error raised' =>
    rw [hrows] at h
    cases h
  | ok parsed =>
    have hpassing := (validateRows_eq_ok_iff 2).mp hrows
    rw [hrows] at h
    cases failed with
    | true => cases h
    | false =>
      by_cases hnil : parsed = []
      · simp [Except.bind, hnil] at h
      · simp only [Except.bind, Bool.false_eq_true, hnil, if_false] at h
        exact ⟨rows, parsed, hopens, hpassing, hnil, (Except.ok.inj h).symm⟩

/-- The upload of a file with a defect raises something that is no `DatasetValidationError`, or
it passes with a number that is not finite. -/
theorem Defect.outcome {content : ByteArray} (h : Defect host content) :
    (∃ raised, validateCsv host content = .error raised ∧
        ∀ error, raised ≠ .validation error) ∨
      ∃ rows parsed, Opens content rows false ∧ Passing host [] rows parsed ∧
        validateCsv host content = .ok (sortRows parsed) ∧
        ∃ r ∈ parsed, ¬ r.values.AllFinite := by
  cases h with
  | undecodable hsize hdecode =>
    refine .inl ⟨.unicodeDecodeError, ?_, by simp⟩
    simp only [validateCsv, hsize, hdecode, if_false]
  | headerTooLong hsize hdecode hlines htable =>
    refine .inl ⟨.csvError, ?_, by simp⟩
    simp only [validateCsv, hsize, hdecode, Nat.not_lt.mpr hlines, htable, validateTable, if_false]
  | rowTooLong hopens hpassing =>
    refine .inl ⟨.csvError, ?_, by simp⟩
    rw [validateCsv_of_opens hopens, (validateRows_eq_ok_iff 2).mpr hpassing]
    rfl
  | nanCompared hopens hstops =>
    refine .inl ⟨.invalidOperation, ?_, by simp⟩
    rw [validateCsv_of_opens hopens, (validateRows_eq_invalidOperation_iff 2).mpr hstops]
    rfl
  | infinite hopens hpassing hmem hinfinite =>
    refine .inr ⟨_, _, hopens, hpassing, ?_, _, hmem, hinfinite⟩
    rw [validateCsv_of_opens hopens, (validateRows_eq_ok_iff 2).mpr hpassing]
    simp only [Except.bind, Bool.false_eq_true, List.ne_nil_of_mem hmem, if_false]

/-! ## §2 Loading what was accepted -/

/-- The data set has the data rows of the file, each with its second and its decimals, in strict
order; its numbers are finite and in order. -/
structure HasData (host : Host) (content : ByteArray) (dataset : BacktestDataSet) : Prop where
  increasing : dataset.dataPoints.Pairwise fun p q => p.timestamp < q.timestamp
  rows : ∃ rows failed readings sorted, Opens content rows failed ∧
    rows.map (readRow host) = List.map some readings ∧ sorted.Perm readings ∧
    List.Forall₂ SameData dataset.dataPoints sorted
  finite : ∀ p ∈ dataset.dataPoints, p.values.AllFinite
  inOrder : ∀ p ∈ dataset.dataPoints, p.values.InOrder

/-- The upload raises a `DatasetValidationError` and changes nothing, or the file that it stores
is loaded, with no period, as the data of the upload. -/
def LoadsBack (host : Host) (pandas : Pandas)
    (auditLog : Text → Option (List HistoricalDataPoint)) (store : DatasetStore)
    (filename tickerSymbol : String) (content : ByteArray) : Prop :=
  match validateAndSaveCsv host store filename content with
  | (store', .error (.validation _)) => store' = store
  | (_, .error _) => False
  | (store', .ok metadata) => ∃ text dataset,
    store'.getDatasetCsv metadata.id = some text ∧
      load pandas auditLog ⟨tickerSymbol, none, none, none⟩ text = .ok dataset ∧
      HasData host content dataset

end Uploads

namespace SameData

variable {points : List HistoricalDataPoint} {rows : List ParsedRow}

theorem allFinite_iff {p : HistoricalDataPoint} {r : ParsedRow} (h : SameData p r) :
    p.values.AllFinite ↔ r.values.AllFinite := by
  constructor
  · intro hp
    exact ⟨h.open.isFinite hp.open, h.high.isFinite hp.high, h.low.isFinite hp.low,
      h.close.isFinite hp.close, h.volume.isFinite hp.volume⟩
  · intro hr
    exact ⟨h.open.symm.isFinite hr.open, h.high.symm.isFinite hr.high,
      h.low.symm.isFinite hr.low, h.close.symm.isFinite hr.close,
      h.volume.symm.isFinite hr.volume⟩

theorem inOrder {p : HistoricalDataPoint} {r : ParsedRow} (h : SameData p r)
    (hr : r.values.InOrder) : p.values.InOrder where
  volume := (Decimal.Same.le_congr ⟨_, rfl, rfl⟩ h.volume).mpr hr.volume
  range := (h.low.le_congr h.high).mpr hr.range
  open_mem := ⟨(h.low.le_congr h.open).mpr hr.open_mem.1,
    (h.open.le_congr h.high).mpr hr.open_mem.2⟩
  close_mem := ⟨(h.low.le_congr h.close).mpr hr.close_mem.1,
    (h.close.le_congr h.high).mpr hr.close_mem.2⟩

/-- Each data point has the data of a row, and each row has a data point. -/
theorem exists_of_mem (h : List.Forall₂ SameData points rows) :
    (∀ p ∈ points, ∃ r ∈ rows, SameData p r) ∧ ∀ r ∈ rows, ∃ p ∈ points, SameData p r := by
  induction h with
  | nil => simp
  | cons hsame hrest ih =>
    obtain ⟨hpoints, hrows⟩ := ih
    constructor
    · intro p hp
      rcases List.mem_cons.mp hp with rfl | hp
      · exact ⟨_, List.mem_cons_self, hsame⟩
      · obtain ⟨r, hr, hpr⟩ := hpoints p hp
        exact ⟨r, List.mem_cons_of_mem _ hr, hpr⟩
    · intro r hr
      rcases List.mem_cons.mp hr with rfl | hr
      · exact ⟨_, List.mem_cons_self, hsame⟩
      · obtain ⟨p, hp, hpr⟩ := hrows r hr
        exact ⟨p, List.mem_cons_of_mem _ hp, hpr⟩

end SameData

/-- Data points of rows that passed have the data of the file, when the numbers are finite. -/
theorem hasData_of_passing {host : Host} {content : ByteArray} {rows : List Row}
    {parsed : List ParsedRow} (hopens : Opens content rows false)
    (hpassing : Passing host [] rows parsed) (hfinite : ∀ r ∈ parsed, r.values.AllFinite)
    {dataset : BacktestDataSet}
    (hsame : List.Forall₂ SameData dataset.dataPoints (sortRows parsed)) :
    HasData host content dataset := by
  have hperm : (sortRows parsed).Perm parsed := List.perm_insertionSort _ parsed
  have hpoints := (SameData.exists_of_mem hsame).1
  refine ⟨dataset.ordered, ⟨rows, false, parsed, sortRows parsed, hopens, hpassing.map_readRow,
    hperm, hsame⟩, fun p hp => ?_, fun p hp => ?_⟩
  · obtain ⟨r, hr, hpr⟩ := hpoints p hp
    exact hpr.allFinite_iff.mpr (hfinite r (hperm.mem_iff.mp hr))
  · obtain ⟨r, hr, hpr⟩ := hpoints p hp
    exact hpr.inOrder (hpassing.inOrder (hperm.mem_iff.mp hr))

/-- Every reading of a row of the file has a data point, so that it is finite. -/
theorem HasData.allFinite {host : Host} {content : ByteArray} {dataset : BacktestDataSet}
    (h : HasData host content dataset) {rows : List Row} {parsed : List ParsedRow}
    (hopens : Opens content rows false) (hpassing : Passing host [] rows parsed)
    {r : ParsedRow} (hr : r ∈ parsed) : r.values.AllFinite := by
  obtain ⟨rows', failed, readings, sorted, hopens', hreadings, hperm, hsame⟩ := h.rows
  obtain ⟨rfl, -⟩ := hopens.unique hopens'
  have hparsed : readings = parsed :=
    List.map_injective_iff.mpr (Option.some_injective _)
      (hreadings.symm.trans hpassing.map_readRow)
  obtain ⟨p, hp, hpr⟩ := (SameData.exists_of_mem hsame).2 r (hperm.mem_iff.mpr (hparsed ▸ hr))
  exact hpr.allFinite_iff.mp (h.finite p hp)

/-- A file whose rows pass with finite numbers has no defect. -/
theorem not_defect_of_passing {host : Host} {content : ByteArray} {rows : List Row}
    {parsed : List ParsedRow} (hopens : Opens content rows false)
    (hpassing : Passing host [] rows parsed) (hfinite : ∀ r ∈ parsed, r.values.AllFinite) :
    ¬ Defect host content := by
  have hok : validateCsv host content = .ok (sortRows parsed) ∨
      validateCsv host content = .error (.validation .noRows) := by
    rw [validateCsv_of_opens hopens, (validateRows_eq_ok_iff 2).mpr hpassing]
    by_cases hnil : parsed = []
    · exact .inr (by simp [Except.bind, hnil])
    · exact .inl (by simp [Except.bind, hnil])
  intro hdefect
  rcases hdefect.outcome with
    ⟨raised, hraised, hother⟩ | ⟨rows', parsed', hopens', hpassing', -, r, hr, hinfinite⟩
  · rw [hraised] at hok
    rcases hok with hok | hok
    · cases hok
    · exact hother .noRows (Except.error.inj hok)
  · obtain ⟨rfl, -⟩ := hopens.unique hopens'
    obtain rfl := hpassing.unique hpassing'
    exact hinfinite (hfinite r hr)

/-! ## §3 Two uploads -/

/-- The cell of a field, which is a number when it is a numeral. -/
def cellOf (field : Text) : Cell where
  isNumber := (Decimal.ofNumeral field).isSome
  toInt :=
    match Decimal.ofNumeral field with
    | some (.finite d) => some (truncate d.toRat)
    | _ => none
  str := field

/-- A pandas that reads files with the CSV reader. -/
def csvPandas : Pandas where
  readCsv text separator :=
    match Csv.read ⟨separator, none⟩ text with
    | (columns :: rows, false) => some ⟨columns, rows.map fun row => row.map cellOf⟩
    | _ => none
  timestamp text := some (readIsoformat text)

theorem ofNumeral_isoText (t : Instant) : Decimal.ofNumeral (isoText t) = none := by
  have hne : Vcs.Hashing.padded 4 (toDatetime t).year ≠ [] := by
    intro hnil
    have hlength := Vcs.Hashing.length_padded 4 (toDatetime t).year
    rw [hnil] at hlength
    cases hlength
  exact Decimal.ofNumeral_eq_none hne (fun _ => isDigit_of_mem_padded) (by decide) (by decide)
    (by decide)

theorem shows_cellOf (field : Text) : Shows (cellOf field) field where
  decimal number hnumber := ⟨.finite number, hnumber, _, rfl, rfl⟩
  isoText t htext := by
    refine ⟨?_, rfl⟩
    rw [cellOf, htext, ofNumeral_isoText, Option.isSome_none]

theorem csvPandas_exact : csvPandas.Exact where
  readCsv := by
    intro separator columns rows hseparator htable
    have hreturn : separator ≠ '\r' := by
      rintro rfl
      exact absurd hseparator (by decide)
    have hne : ∀ row ∈ columns :: rows, row ≠ [] := by
      intro row hrow
      rcases List.mem_cons.mp hrow with rfl | hrow
      · exact htable.columns_ne_nil
      · have hlength := htable.length_eq row hrow
        rw [← List.length_pos_iff, hlength, List.length_pos_iff]
        exact htable.columns_ne_nil
    have hread := read_writeRows (d := ⟨separator, none⟩) hreturn hne htable.plain
      fun _ _ _ _ _ _ => rfl
    refine ⟨rows.map fun row => row.map cellOf, by simp only [csvPandas, hread], ?_⟩
    have hrow (row : Record) : List.Forall₂ Shows (row.map cellOf) row := by
      rw [List.forall₂_map_left_iff]
      exact List.forall₂_same.mpr fun field _ => shows_cellOf field
    rw [List.forall₂_map_left_iff]
    exact List.forall₂_same.mpr fun row _ => hrow row
  timestamp t := congrArg some (readIsoformat_isoText t)

/-- A host at a fixed time, with the hash of one file. -/
def exampleHost (hash : String) : Host where
  fromisoformat _ := none
  sha256 _ := hash
  newId := "0123456789ab"
  now := ⟨63900000000 * 1000000, by decide⟩

def emptyStore : DatasetStore := ⟨Dict.empty, Dict.empty⟩

theorem size_utf8Encode_ne_zero {text : Text} (h : text ≠ []) : text.utf8Encode.size ≠ 0 := by
  intro hsize
  have hdecode := List.utf8Decode?_utf8Encode (l := text)
  rw [ByteArray.size_eq_zero_iff.mp hsize, ByteArray.utf8Decode?_empty] at hdecode
  have hnil := congrArg Array.toList (Option.some.inj hdecode)
  exact h hnil.symm

theorem decode_utf8Encode {text : Text} (h : text.head? ≠ some '\ufeff') :
    decode text.utf8Encode = some text := by
  rw [decode, List.utf8Decode?_utf8Encode, Option.map_some]
  congr 1
  split
  case h_1 rest heq => exact absurd (congrArg List.head? heq) h
  case h_2 => rfl

def one : Decimal := .finite ⟨false, 1, 0, by decide⟩

def two : Decimal := .finite ⟨false, 2, 0, by decide⟩

/-- A row whose prices are the same. -/
def flatRow (timestamp price volume : String) : Row :=
  Dict.ofList [("timestamp".toList, timestamp.toList), ("open".toList, price.toList),
    ("high".toList, price.toList), ("low".toList, price.toList), ("close".toList, price.toList),
    ("volume".toList, volume.toList)]

theorem inOrder_flat (price : FiniteDecimal) {volume : Decimal} (h : zero ≤ volume) :
    Ohlcv.InOrder ⟨.finite price, .finite price, .finite price, .finite price, volume⟩ :=
  ⟨h, Decimal.le_of_toRat_le le_rfl, ⟨Decimal.le_of_toRat_le le_rfl, Decimal.le_of_toRat_le le_rfl⟩,
    ⟨Decimal.le_of_toRat_le le_rfl, Decimal.le_of_toRat_le le_rfl⟩⟩

theorem allFinite_flat (price volume : FiniteDecimal) : Ohlcv.AllFinite
    ⟨.finite price, .finite price, .finite price, .finite price, .finite volume⟩ :=
  ⟨Decimal.isFinite_finite _, Decimal.isFinite_finite _, Decimal.isFinite_finite _,
    Decimal.isFinite_finite _, Decimal.isFinite_finite _⟩

theorem opens_of_table {text : Text} {fieldnames : Record} {records : List Record}
    {failed : Bool} {rows : List Row} (hne : text ≠ []) (hmark : text.head? ≠ some '\ufeff')
    (hlines : 2 ≤ (dataLines text).length)
    (htable : tableOf (dataLines text) = (fieldnames :: records, failed))
    (hheaders : missingHeaders fieldnames = []) (hrows : rows = dataRows fieldnames records) :
    Opens text.utf8Encode rows failed :=
  ⟨size_utf8Encode_ne_zero hne, text, fieldnames, records, decode_utf8Encode hmark, hlines,
    htable, hheaders, hrows⟩

/-- Two minutes, the later one first. -/
def twoMinutes : Text :=
  "timestamp;open;high;low;close;volume\n120;1;1;1;1;0\n60;2;2;2;2;0".toList

def twoMinutesRead : List ParsedRow :=
  [⟨⟨62135596920 * 1000000, by decide⟩, ⟨one, one, one, one, zero⟩⟩,
    ⟨⟨62135596860 * 1000000, by decide⟩, ⟨two, two, two, two, zero⟩⟩]

theorem opens_twoMinutes :
    Opens twoMinutes.utf8Encode [flatRow "120" "1" "0", flatRow "60" "2" "0"] false := by
  have htable : tableOf (dataLines twoMinutes) =
      ([csvHeader, ["120", "1", "1", "1", "1", "0"].map String.toList,
        ["60", "2", "2", "2", "2", "0"].map String.toList], false) := by decide
  exact opens_of_table (by decide) (by decide) (by decide) htable (by decide) (by decide)

def twoMinutesHost : Host :=
  exampleHost "f3d55743d738b0e68ba0a5674ee8a5921a615a48359af7006c39e37d490d8bd8"

theorem passing_twoMinutes :
    Passing twoMinutesHost [] [flatRow "120" "1" "0", flatRow "60" "2" "0"]
      twoMinutesRead := by
  have hzero : zero ≤ zero := Decimal.le_of_toRat_le le_rfl
  refine .cons rfl List.not_mem_nil (inOrder_flat _ hzero)
    (.cons rfl ?_ (inOrder_flat _ hzero) (.nil _))
  have hlater : epochSecond ⟨62135596920 * 1000000, by decide⟩ = 120 :=
    epochSecond_of_micros (by decide)
  have hearlier : epochSecond ⟨62135596860 * 1000000, by decide⟩ = 60 :=
    epochSecond_of_micros (by decide)
  simp only [ParsedRow.epoch, hlater, hearlier]
  decide

theorem sound_twoMinutes : ¬ Defect twoMinutesHost twoMinutes.utf8Encode := by
  refine not_defect_of_passing opens_twoMinutes passing_twoMinutes ?_
  intro r hr
  simp only [twoMinutesRead, List.mem_cons, List.not_mem_nil, or_false] at hr
  rcases hr with rfl | rfl
  · exact allFinite_flat _ _
  · exact allFinite_flat _ _

/-- A minute with an infinite volume. -/
def infiniteVolume : Text :=
  "timestamp,open,high,low,close,volume\n60,1,1,1,1,Infinity".toList

def infiniteVolumeRead : ParsedRow :=
  ⟨⟨62135596860 * 1000000, by decide⟩, ⟨one, one, one, one, .infinite false⟩⟩

def infiniteVolumeHost : Host :=
  exampleHost "3cf2293436c42565e4c4adcefdfb5c3bc9352a9f409142bec98aa0ed2e7e2a9f"

/-! ## §4 The files that load back -/

section LoadsBack

variable {host : Host} {pandas : Pandas} {content : ByteArray}
  (auditLog : Text → Option (List HistoricalDataPoint)) (store : DatasetStore)
  (filename tickerSymbol : String)

/-- A file with a defect is not loaded back, however pandas reads it. -/
theorem Defect.not_loadsBack (h : Defect host content) :
    ¬ LoadsBack host pandas auditLog store filename tickerSymbol content := by
  intro hloads
  rcases h.outcome with
    ⟨raised, hraised, hother⟩ | ⟨rows, parsed, hopens, hpassing, hok, r, hr, hinfinite⟩
  · rw [LoadsBack, validateAndSaveCsv_raises host hraised] at hloads
    cases raised with
    | validation error => exact hother error rfl
    | unicodeDecodeError => exact hloads
    | csvError => exact hloads
    | invalidOperation => exact hloads
  · obtain ⟨store', hsaved, -, -⟩ := validateAndSaveCsv_returns host store filename hok
    rw [LoadsBack, hsaved] at hloads
    obtain ⟨text, dataset, -, -, hdata⟩ := hloads
    exact hinfinite (hdata.allFinite hopens hpassing hr)

/-- A file without a defect is rejected or loaded back. -/
theorem loadsBack_of_not_defect (hexact : pandas.Exact) (h : ¬ Defect host content) :
    LoadsBack host pandas auditLog store filename tickerSymbol content := by
  cases hvalidate : validateCsv host content with
  | error raised =>
    rw [LoadsBack, validateAndSaveCsv_raises host hvalidate]
    rcases validateCsv_eq_error hvalidate with ⟨error, rfl⟩ | hdefect
    · rfl
    · exact absurd hdefect h
  | ok sorted =>
    obtain ⟨rows, parsed, hopens, hpassing, hne, rfl⟩ := validateCsv_eq_ok hvalidate
    have hfinite : ∀ r ∈ parsed, r.values.AllFinite := fun r hr =>
      by_contra fun hinfinite => h (.infinite hopens hpassing hr hinfinite)
    have hperm : (sortRows parsed).Perm parsed := List.perm_insertionSort _ parsed
    obtain ⟨dataset, hload, hsame⟩ := load_storedCsv hexact auditLog tickerSymbol
      (fun hnil => hne (List.nil_perm.mp (hnil ▸ hperm)))
      (fun r hr => hfinite r (hperm.mem_iff.mp hr)) hpassing.sortRows_strict
    obtain ⟨store', hsaved, hfile, -⟩ := validateAndSaveCsv_returns host store filename hvalidate
    rw [LoadsBack, hsaved]
    exact ⟨_, dataset, hfile, hload, hasData_of_passing hopens hpassing hfinite hsame⟩

end LoadsBack

/-- **An upload is rejected or loads back as its data**, exactly when its file has no defect.

    The defects are those of the file alone: bytes that are not UTF-8, a field that is too long for
    the reader, a NaN that a comparison meets before a check does, or an infinite number in an
    accepted row. -/
theorem loadsBack_iff (host : Host) {pandas : Pandas} (hexact : pandas.Exact)
    (auditLog : Text → Option (List HistoricalDataPoint)) (store : DatasetStore)
    (filename tickerSymbol : String) (content : ByteArray) :
    LoadsBack host pandas auditLog store filename tickerSymbol content ↔
      ¬ Defect host content :=
  ⟨fun hloads hdefect => hdefect.not_loadsBack auditLog store filename tickerSymbol hloads,
    loadsBack_of_not_defect auditLog store filename tickerSymbol hexact⟩

/-- The two minutes are uploaded and loaded back in order. -/
theorem loadsBack_twoMinutes :
    LoadsBack twoMinutesHost csvPandas (fun _ => none) emptyStore "minutes.csv" "BTC_USD"
      twoMinutes.utf8Encode :=
  (loadsBack_iff twoMinutesHost csvPandas_exact (fun _ => none) emptyStore "minutes.csv" "BTC_USD"
    twoMinutes.utf8Encode).mpr sound_twoMinutes

/-- An infinite volume passes and is stored. -/
theorem infiniteVolume_not_loadsBack :
    ¬ LoadsBack infiniteVolumeHost csvPandas (fun _ => none) emptyStore "minutes.csv" "BTC_USD"
      infiniteVolume.utf8Encode := by
  have htable : tableOf (dataLines infiniteVolume) =
      ([csvHeader, ["60", "1", "1", "1", "1", "Infinity"].map String.toList], false) := by decide
  have hopens : Opens infiniteVolume.utf8Encode [flatRow "60" "1" "Infinity"] false :=
    opens_of_table (by decide) (by decide) (by decide) htable (by decide) (by decide)
  have hzero : zero ≤ .infinite false := ⟨_, _, rfl, rfl, WithBot.coe_le_coe.mpr le_top⟩
  have hpassing : Passing infiniteVolumeHost [] [flatRow "60" "1" "Infinity"]
      [infiniteVolumeRead] :=
    .cons rfl List.not_mem_nil (inOrder_flat _ hzero) (.nil _)
  refine Defect.not_loadsBack _ _ _ _ (.infinite hopens hpassing List.mem_cons_self ?_)
  intro hfinite
  obtain ⟨number, hnumber⟩ := (Decimal.isFinite_iff _).mp hfinite.volume
  cases hnumber

end CryptoTrading.Datasets
