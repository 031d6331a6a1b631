import CryptoTrading.Datasets.Times
import CryptoTrading.Lib.Csv
import CryptoTrading.Lib.Decimals
import CryptoTrading.Lib.Dict

/-!
# Dataset uploads

Embeds `DatasetService.validate_and_save_csv` of `src/server/services/dataset_service.py`, with
the parts of `str`, `csv` and `decimal` that it reads a file with.

A file is decoded, cut into stripped lines and read as CSV with the delimiter that its header
suggests.  Row after row the timestamp and five decimals are read and checked; the first row that
fails ends the upload.  What passed is sorted and written in a normal form, with its metadata.

Nothing is written before every row has passed, so that an upload that raises leaves the store as
it was (`validateAndSaveCsv_raises`).  Whatever `datetime.fromisoformat` makes of a text is a
parameter.  The division of a millisecond timestamp and the seconds of a time are exact.
-/

namespace CryptoTrading.Datasets

open CryptoTrading.Expressions (isSpace)
open CryptoTrading.Lib CryptoTrading.Lib.Csv
open CryptoTrading.Retention (Instant digitValue? intOfDigits)
open CryptoTrading.Vcs.Hashing (Timestamp)

abbrev Text := List Char

/-! ## §1 Lines -/

/-- `str.strip`. -/
def strip (text : Text) : Text := (text.dropWhile isSpace).rdropWhile isSpace

/-- What `str.splitlines` takes for the end of a line. -/
def isLineEnd (c : Char) : Bool :=
  c.toNat ∈ [0x0a, 0x0b, 0x0c, 0x0d, 0x1c, 0x1d, 0x1e, 0x85, 0x2028, 0x2029]

/-- `str.splitlines`, after what was read of the first line. -/
def splitlines (current : Text) : Text → List Text
  | [] => if current = [] then [] else [current]
  | '\r' :: '\n' :: rest => current :: splitlines [] rest
  | c :: rest =>
    if isLineEnd c then current :: splitlines [] rest else splitlines (current ++ [c]) rest

/-- `content.decode("utf-8-sig")`: a mark at the start is left out. -/
def decode (content : ByteArray) : Option Text :=
  content.utf8Decode?.map fun chars =>
    match chars.toList with
    | '\ufeff' :: rest => rest
    | chars => chars

/-- The lines that are not blank, stripped. -/
def dataLines (text : Text) : List Text :=
  ((splitlines [] (strip text)).map strip).filter (· ≠ [])

/-- The delimiter that the header suggests. -/
def detectDelimiter (header : Text) : Char :=
  if ';' ∈ header ∧ header.count ',' ≤ header.count ';' then ';' else ','

/-- `csv.field_size_limit()`. -/
def fieldSizeLimit : ℕ := 131072

/-- The records of the reader over the lines, and whether it raised after them. -/
def tableOf (lines : List Text) : List Record × Bool :=
  Reader.fresh.readRecords ⟨detectDelimiter (lines.headD []), some fieldSizeLimit⟩ lines

/-! ## §2 Rows -/

/-- `required_headers`, sorted. -/
def requiredHeaders : List String := ["close", "high", "low", "open", "timestamp", "volume"]

/-- A column's name as the rows are looked up by. -/
def normalize (name : Text) : Text := (strip name).map lowerChar

/-- `missing_headers`, sorted. -/
def missingHeaders (fieldnames : Record) : List String :=
  let names := (fieldnames.filter (· ≠ [])).map normalize
  requiredHeaders.filter fun name => name.toList ∉ names

/-- A row of the `csv.DictReader`, without the surplus cells, which have no name. -/
def rowDict (fieldnames row : Record) : Dict Text (Option Text) :=
  (fieldnames.drop row.length).foldl (fun d name => d.set name none)
    (Dict.ofList (fieldnames.zip (row.map some)))

abbrev Row := Dict Text Text

/-- `norm_row`. -/
def normRow (row : Dict Text (Option Text)) : Row :=
  Dict.ofList (row.entries.filterMap fun e =>
    if e.1 = [] then none else e.2.map fun value => (normalize e.1, strip value))

/-- The data rows below the header; the reader skips empty ones. -/
def dataRows (fieldnames : Record) (records : List Record) : List Row :=
  (records.filter (· ≠ [])).map fun record => normRow (rowDict fieldnames record)

/-! ## §3 Values -/

/-- The digits that are not decimal digits, as the first and the last of each range. -/
def otherDigits : List (ℕ × ℕ) :=
  [(0xb2, 0xb3), (0xb9, 0xb9), (0x1369, 0x1371), (0x19da, 0x19da), (0x2070, 0x2070),
    (0x2074, 0x2079), (0x2080, 0x2089), (0x2460, 0x2468), (0x2474, 0x247c), (0x2488, 0x2490),
    (0x24ea, 0x24ea), (0x24f5, 0x24fd), (0x24ff, 0x24ff), (0x2776, 0x277e), (0x2780, 0x2788),
    (0x278a, 0x2792), (0x10a40, 0x10a43), (0x10e60, 0x10e68), (0x11052, 0x1105a),
    (0x1f100, 0x1f10a)]

/-- `str.isdigit` of a character. -/
def isDigit (c : Char) : Bool :=
  (digitValue? c).isSome || otherDigits.any fun r => r.1 ≤ c.toNat && c.toNat ≤ r.2

/-- `int(text)` of a text of digits. -/
def readInt (text : Text) : Option ℕ := do
  let digits ← text.mapM digitValue?
  (intOfDigits digits).toOption

/-- `text.replace("Z", "+00:00")`. -/
def replaceZ (text : Text) : Text :=
  text.flatMap fun c => if c = 'Z' then ['+', '0', '0', ':', '0', '0'] else [c]

/-- What the text of a number is made of: ASCII digits, and no `_`. -/
def numericAsAscii (text : Text) : Text :=
  (strip text).filterMap fun c =>
    if c = '_' then none else some ((digitValue? c).elim c Nat.digitChar)

/-- `Decimal(text)`. -/
def decimal (text : Text) : Option Decimal := Decimal.ofNumeral (numericAsAscii text)

structure Ohlcv where
  «open» : Decimal
  high : Decimal
  low : Decimal
  close : Decimal
  volume : Decimal
  deriving DecidableEq

/-- The five decimals of a row. -/
def readOhlcv (cells : String → Option Text) : Option Ohlcv := do
  let openP ← (cells "open").bind decimal
  let highP ← (cells "high").bind decimal
  let lowP ← (cells "low").bind decimal
  let closeP ← (cells "close").bind decimal
  let volumeV ← (cells "volume").bind decimal
  some ⟨openP, highP, lowP, closeP, volumeV⟩

/-- A row of the file: its time and its decimals. -/
structure ParsedRow where
  time : Instant
  values : Ohlcv
  deriving DecidableEq

namespace ParsedRow

/-- `ts_epoch`. -/
def epoch (r : ParsedRow) : ℤ := epochSecond r.time

end ParsedRow

/-! ## §4 Errors -/

inductive DatasetValidationError where
  | fileEmpty
  | tooFewLines
  | missingColumns (missing : List String)
  | missingTimestamp (row : ℕ)
  | invalidTimestamp (row : ℕ) (text : Text)
  | duplicateTimestamp (row : ℕ) (time : Instant)
  | invalidValues (row : ℕ)
  | negativeVolume (row : ℕ)
  | highBelowLow (row : ℕ) (high low : Decimal)
  | openOutside (row : ℕ) («open» : Decimal)
  | closeOutside (row : ℕ) (close : Decimal)
  | noRows
  deriving DecidableEq

def DatasetValidationError.message : DatasetValidationError → String
  | fileEmpty => "Dataset file is empty."
  | tooFewLines => "CSV must contain a header row and at least one data row."
  | missingColumns missing =>
    "Missing required CSV columns: [" ++
      ", ".intercalate (missing.map fun name => "'" ++ name ++ "'") ++ "]"
  | missingTimestamp row => s!"Row {row}: Missing timestamp."
  | invalidTimestamp row text =>
    s!"Row {row}: Invalid timestamp format '" ++ String.ofList text ++ "'."
  | duplicateTimestamp row time =>
    s!"Row {row}: Duplicate timestamp detected (" ++ String.ofList (isoText time) ++ ")."
  | invalidValues row => s!"Row {row}: Invalid numeric OHLCV values."
  | negativeVolume row => s!"Row {row}: Volume cannot be negative."
  | highBelowLow row high low =>
    s!"Row {row}: High price (" ++ String.ofList high.toText ++ ") cannot be lower than Low (" ++
      String.ofList low.toText ++ ")."
  | openOutside row openP =>
    s!"Row {row}: Open price (" ++ String.ofList openP.toText ++
      ") is outside [Low, High] range."
  | closeOutside row close =>
    s!"Row {row}: Close price (" ++ String.ofList close.toText ++
      ") is outside [Low, High] range."
  | noRows => "Dataset contains no valid data rows."

/-- What an upload raises. -/
inductive Raised where
  | validation (error : DatasetValidationError)
  | unicodeDecodeError
  /-- `csv.Error`. -/
  | csvError
  /-- `decimal.InvalidOperation`. -/
  | invalidOperation
  deriving DecidableEq

/-! ## §5 Checks -/

/-- `if condition: raise DatasetValidationError`. -/
def rejectIf (condition : Except Raised Bool) (error : DatasetValidationError) :
    Except Raised Unit :=
  match condition with
  | .ok true => .error (.validation error)
  | .ok false => .ok ()
  | .error raised => .error raised

/-- `or`, whose second side is not looked at when the first holds. -/
def either (p q : Except Raised Bool) : Except Raised Bool :=
  match p with
  | .ok false => q
  | r => r

/-- `d < e`. -/
def less (d e : Decimal) : Except Raised Bool := Decimal.less .invalidOperation d e

def zero : Decimal := .finite ⟨false, 0, 0, by decide⟩

/-- The checks of the decimals of a row. -/
def Ohlcv.check (row : ℕ) (o : Ohlcv) : Except Raised Unit := do
  rejectIf (less o.volume zero) (.negativeVolume row)
  rejectIf (less o.high o.low) (.highBelowLow row o.high o.low)
  rejectIf (either (less o.open o.low) (less o.high o.open)) (.openOutside row o.open)
  rejectIf (either (less o.close o.low) (less o.high o.close)) (.closeOutside row o.close)

section Host

/-- What the service calls. -/
structure Host where
  /-- `datetime.fromisoformat`; none when it raises. -/
  fromisoformat : Text → Option Timestamp
  /-- `hashlib.sha256(content).hexdigest()`. -/
  sha256 : ByteArray → String
  /-- `uuid.uuid4().hex[:12]`. -/
  newId : String
  /-- `datetime.now(timezone.utc)`. -/
  now : Instant

variable (host : Host)

/-- The time of a timestamp in seconds or milliseconds, or in ISO form. -/
def readTime (text : Text) : Option Instant :=
  if text.all isDigit then
    (readInt text).bind fun n =>
      fromTimestamp (if 10 ^ 11 < n then n * 1000 else n * 1000000)
  else (host.fromisoformat (replaceZ text)).bind toUtc

/-- One round of the loop: a row after those of the epochs in `seen`. -/
def validateRow (seen : List ℤ) (index : ℕ) (row : Row) : Except Raised ParsedRow :=
  match (row.get? "timestamp".toList).getD [] with
  | [] => .error (.validation (.missingTimestamp index))
  | text =>
    match readTime host text with
    | none => .error (.validation (.invalidTimestamp index text))
    | some time =>
      if epochSecond time ∈ seen then .error (.validation (.duplicateTimestamp index time))
      else
        match readOhlcv fun name => row.get? name.toList with
        | none => .error (.validation (.invalidValues index))
        | some values => (values.check index).map fun _ => ⟨time, values⟩

/-- The loop over the rows. -/
def validateRows (seen : List ℤ) (index : ℕ) : List Row → Except Raised (List ParsedRow)
  | [] => .ok []
  | row :: rest => do
    let parsed ← validateRow host seen index row
    let later ← validateRows (parsed.epoch :: seen) (index + 1) rest
    .ok (parsed :: later)

/-- `parsed_rows.sort`. -/
def sortRows (rows : List ParsedRow) : List ParsedRow :=
  rows.insertionSort fun r s => r.time.micros ≤ s.time.micros

/-- The rows below a header, up to the sort. -/
def validateTable (table : List Record × Bool) : Except Raised (List ParsedRow) :=
  match table with
  | ([], true) => .error .csvError
  | ([], false) => .error (.validation (.missingColumns requiredHeaders))
  | (fieldnames :: records, failed) =>
    if missingHeaders fieldnames = [] then do
      let parsed ← validateRows host [] 2 (dataRows fieldnames records)
      if failed then .error .csvError
      else if parsed = [] then .error (.validation .noRows)
      else .ok (sortRows parsed)
    else .error (.validation (.missingColumns (missingHeaders fieldnames)))

/-- The part of `validate_and_save_csv` that reads and checks the file. -/
def validateCsv (content : ByteArray) : Except Raised (List ParsedRow) :=
  if content.size = 0 then .error (.validation .fileEmpty)
  else
    match decode content with
    | none => .error .unicodeDecodeError
    | some text =>
      if (dataLines text).length < 2 then .error (.validation .tooFewLines)
      else validateTable host (tableOf (dataLines text))

/-! ## §6 Storage -/

structure DatasetMetadata where
  id : String
  filename : String
  rowCount : ℕ
  startTime : Text
  endTime : Text
  fileSizeBytes : ℕ
  sha256 : String
  createdAt : Text
  deriving DecidableEq

/-- The storage directory: the data files and the metadata files, by dataset id. -/
structure DatasetStore where
  csvFiles : Dict String Text
  metaFiles : Dict String DatasetMetadata

namespace DatasetStore

/-- `get_dataset`. -/
def getDataset (store : DatasetStore) (id : String) : Option DatasetMetadata :=
  store.metaFiles.get? id

/-- The file at `get_dataset_csv_path`. -/
def getDatasetCsv (store : DatasetStore) (id : String) : Option Text := store.csvFiles.get? id

end DatasetStore

def csvHeader : Record :=
  ["timestamp", "open", "high", "low", "close", "volume"].map String.toList

/-- The cells that a row is stored as. -/
def ParsedRow.cells (r : ParsedRow) : Record :=
  [isoText r.time, r.values.open.toText, r.values.high.toText, r.values.low.toText,
    r.values.close.toText, r.values.volume.toText]

/-- The file that sorted rows are stored as. -/
def storedCsv (rows : List ParsedRow) : Text :=
  writeRows ',' (csvHeader :: rows.map ParsedRow.cells)

def metadataOf (filename : String) (rows : List ParsedRow) : DatasetMetadata where
  id := host.newId
  filename := filename
  rowCount := rows.length
  startTime := (rows.head?.map fun r => isoText r.time).getD []
  endTime := (rows.getLast?.map fun r => isoText r.time).getD []
  fileSizeBytes := (String.ofList (storedCsv rows)).toUTF8.size
  sha256 := host.sha256 (String.ofList (storedCsv rows)).toUTF8
  createdAt := isoText host.now

/-- `DatasetService.validate_and_save_csv`, with the store it leaves. -/
def validateAndSaveCsv (store : DatasetStore) (filename : String) (content : ByteArray) :
    DatasetStore × Except Raised DatasetMetadata :=
  match validateCsv host content with
  | .error raised => (store, .error raised)
  | .ok rows =>
    let metadata := metadataOf host filename rows
    (⟨store.csvFiles.set metadata.id (storedCsv rows), store.metaFiles.set metadata.id metadata⟩,
      .ok metadata)

/-- An upload that raises leaves the store as it was. -/
theorem validateAndSaveCsv_raises {store : DatasetStore} {filename : String}
    {content : ByteArray} {raised : Raised} (h : validateCsv host content = .error raised) :
    validateAndSaveCsv host store filename content = (store, .error raised) := by
  rw [validateAndSaveCsv, h]

/-- An upload that passes stores the file, which is found under the id of its metadata. -/
theorem validateAndSaveCsv_returns (store : DatasetStore) (filename : String)
    {content : ByteArray} {rows : List ParsedRow} (h : validateCsv host content = .ok rows) :
    ∃ store', validateAndSaveCsv host store filename content =
        (store', .ok (metadataOf host filename rows)) ∧
      store'.getDatasetCsv host.newId = some (storedCsv rows) ∧
      store'.getDataset host.newId = some (metadataOf host filename rows) := by
  refine ⟨⟨store.csvFiles.set host.newId (storedCsv rows),
    store.metaFiles.set host.newId (metadataOf host filename rows)⟩, ?_, ?_, ?_⟩
  · rw [validateAndSaveCsv, h]
    rfl
  · simp [DatasetStore.getDatasetCsv]
  · simp [DatasetStore.getDataset]

end Host

end CryptoTrading.Datasets
