import CryptoTrading.Vcs.JsonText

/-!
# What a commit hash is computed from

Embeds `Hashing.compute_commit_hash` in `src/vcs/core/hashing.py` up to the call of SHA-256: the
fields of a commit are written one below the other, after a header with the length of the text.

The hashes that a commit points to are digests, the time is a `datetime` with the fields that
`isoformat` writes, and the metadata is a dictionary.  None of their texts has a line break, so
they are read back from the lines around the author and the message (`body_inj`).  The author
and the message are any strings, and nothing escapes what separates them.
-/

namespace CryptoTrading.Vcs.Hashing

open CryptoTrading.Lib
open CryptoTrading.Agent.Configuration (Json Fields)

/-! ## §1 Times -/

/-- `%0wd`: the decimal digits of a number, with zeros in front up to the width. -/
def padded : ℕ → ℕ → List Char
  | 0, _ => []
  | width + 1, n => padded width (n / 10) ++ [Nat.digitChar (n % 10)]

def isLeapYear (year : ℕ) : Bool := year % 4 = 0 && (year % 100 ≠ 0 || year % 400 = 0)

def daysInMonth (year month : ℕ) : ℕ :=
  if month = 2 then if isLeapYear year then 29 else 28
  else if month ∈ [4, 6, 9, 11] then 30
  else 31

/-- A `datetime`, with the offset of its zone from UTC in microseconds when it has a zone. -/
@[ext] structure Timestamp where
  year : ℕ
  month : ℕ
  day : ℕ
  hour : ℕ
  minute : ℕ
  second : ℕ
  microsecond : ℕ
  utcoffset : Option ℤ
  year_mem : 1 ≤ year ∧ year ≤ 9999
  month_mem : 1 ≤ month ∧ month ≤ 12
  day_mem : 1 ≤ day ∧ day ≤ daysInMonth year month
  hour_lt : hour < 24
  minute_lt : minute < 60
  second_lt : second < 60
  microsecond_lt : microsecond < 1000000
  utcoffset_lt : ∀ offset ∈ utcoffset, offset.natAbs < 86400000000

/-- The fraction of a second, which is left out when it is zero. -/
def fractionText (microsecond : ℕ) : List Char :=
  if microsecond = 0 then [] else '.' :: padded 6 microsecond

/-- The seconds of an offset, which are left out when there are none. -/
def offsetSeconds (offset : ℕ) : List Char :=
  if offset % 60000000 = 0 then []
  else ':' :: (padded 2 (offset / 1000000 % 60) ++ fractionText (offset % 1000000))

/-- The zone as its offset from UTC. -/
def offsetText : Option ℤ → List Char
  | none => []
  | some offset =>
    (if offset < 0 then '-' else '+') ::
      (padded 2 (offset.natAbs / 3600000000) ++
        ':' :: (padded 2 (offset.natAbs / 60000000 % 60) ++ offsetSeconds offset.natAbs))

/-- `datetime.isoformat`. -/
def isoformat (t : Timestamp) : List Char :=
  padded 4 t.year ++ '-' :: (padded 2 t.month ++ '-' :: (padded 2 t.day ++
    'T' :: (padded 2 t.hour ++ ':' :: (padded 2 t.minute ++ ':' :: (padded 2 t.second ++
      (fractionText t.microsecond ++ offsetText t.utcoffset))))))

@[simp] theorem length_padded (width n : ℕ) : (padded width n).length = width := by
  induction width generalizing n with
  | zero => rfl
  | succ width ih => simp [padded, ih]

/-- Numbers below the bound of the width have different digits. -/
theorem padded_inj {width m n : ℕ} (hm : m < 10 ^ width) (hn : n < 10 ^ width)
    (h : padded width m = padded width n) : m = n := by
  induction width generalizing m n with
  | zero => simp_all
  | succ width ih =>
    obtain ⟨hhigh, hlow⟩ := List.append_inj h (by simp)
    have hquot : m / 10 = n / 10 := ih (by omega) (by omega) hhigh
    have hrem : m % 10 = n % 10 :=
      digitChar_injective_below_16 _ (by omega) _ (by omega) (List.cons.inj hlow).1
    omega

theorem padded_append_inj {width m n : ℕ} (hm : m < 10 ^ width) (hn : n < 10 ^ width)
    {rest rest' : List Char} (h : padded width m ++ rest = padded width n ++ rest') :
    m = n ∧ rest = rest' := by
  obtain ⟨hdigits, hr⟩ := List.append_inj h (by simp)
  exact ⟨padded_inj hm hn hdigits, hr⟩

/-- A field of fixed width and the mark after it. -/
theorem padded_mark_inj {width m n : ℕ} (hm : m < 10 ^ width) (hn : n < 10 ^ width)
    {mark : Char} {rest rest' : List Char}
    (h : padded width m ++ mark :: rest = padded width n ++ mark :: rest') :
    m = n ∧ rest = rest' := by
  obtain ⟨hmn, hr⟩ := padded_append_inj hm hn h
  exact ⟨hmn, (List.cons.inj hr).2⟩

/-- What follows a fraction does not start with the mark of one. -/
abbrev AfterFraction : List Char → Prop := StopsAt fun c => c = '.'

theorem fractionText_append_inj {m n : ℕ} (hm : m < 1000000) (hn : n < 1000000)
    {rest rest' : List Char} (hrest : AfterFraction rest) (hrest' : AfterFraction rest')
    (h : fractionText m ++ rest = fractionText n ++ rest') : m = n ∧ rest = rest' := by
  by_cases hm₀ : m = 0 <;> by_cases hn₀ : n = 0 <;>
    simp only [fractionText, hm₀, hn₀, if_true, if_false, List.nil_append,
      List.cons_append] at h
  · exact ⟨by omega, h⟩
  · rw [h] at hrest
    simp at hrest
  · rw [← h] at hrest'
    simp at hrest'
  · exact padded_append_inj (by omega) (by omega) (List.cons.inj h).2

theorem offsetSeconds_inj {m n : ℕ} (h : offsetSeconds m = offsetSeconds n) :
    m % 60000000 = n % 60000000 := by
  by_cases hm : m % 60000000 = 0 <;> by_cases hn : n % 60000000 = 0 <;>
    simp only [offsetSeconds, hm, hn, if_true, if_false] at h
  · omega
  · exact absurd h (List.cons_ne_nil _ _).symm
  · exact absurd h (List.cons_ne_nil _ _)
  · obtain ⟨hseconds, hfraction⟩ :=
      padded_append_inj (by omega) (by omega) (List.cons.inj h).2
    have hmicro := (fractionText_append_inj (by omega) (by omega) (by simp) (by simp)
      (congrArg (· ++ []) hfraction)).1
    omega

theorem offsetText_inj {o o' : Option ℤ} (ho : ∀ offset ∈ o, offset.natAbs < 86400000000)
    (ho' : ∀ offset ∈ o', offset.natAbs < 86400000000) (h : offsetText o = offsetText o') :
    o = o' := by
  cases o with
  | none =>
    cases o' with
    | none => rfl
    | some n => exact absurd h (List.cons_ne_nil _ _).symm
  | some m =>
    cases o' with
    | none => exact absurd h (List.cons_ne_nil _ _)
    | some n =>
      have hm := ho m rfl
      have hn := ho' n rfl
      obtain ⟨hsign, h⟩ := List.cons.inj h
      obtain ⟨hhours, h⟩ := padded_mark_inj (by omega) (by omega) h
      obtain ⟨hminutes, h⟩ := padded_append_inj (by omega) (by omega) h
      have hseconds := offsetSeconds_inj h
      -- hours, minutes and the rest make up the offset without its sign
      have habs : m.natAbs = n.natAbs := by omega
      by_cases hm₀ : m < 0 <;> by_cases hn₀ : n < 0
      · exact congrArg some (by omega)
      · simp [hm₀, hn₀] at hsign
      · simp [hm₀, hn₀] at hsign
      · exact congrArg some (by omega)

theorem afterFraction_offsetText (o : Option ℤ) : AfterFraction (offsetText o) := by
  cases o with
  | none => simp [offsetText, AfterFraction]
  | some offset =>
    by_cases h : offset < 0 <;> simp [offsetText, AfterFraction, h]

theorem daysInMonth_le (year month : ℕ) : daysInMonth year month ≤ 31 := by
  unfold daysInMonth
  split
  · split <;> omega
  · split <;> omega

/-- No two times have one text. -/
theorem isoformat_injective : Function.Injective isoformat := by
  intro t t' h
  have hyear := t.year_mem
  have hyear' := t'.year_mem
  have hmonth := t.month_mem
  have hmonth' := t'.month_mem
  have hday := t.day_mem.2.trans (daysInMonth_le _ _)
  have hday' := t'.day_mem.2.trans (daysInMonth_le _ _)
  have hhour := t.hour_lt
  have hhour' := t'.hour_lt
  have hminute := t.minute_lt
  have hminute' := t'.minute_lt
  have hsecond := t.second_lt
  have hsecond' := t'.second_lt
  simp only [isoformat] at h
  -- one field after the other, each as wide as its bound allows
  obtain ⟨e₁, h⟩ := padded_mark_inj (by omega) (by omega) h
  obtain ⟨e₂, h⟩ := padded_mark_inj (by omega) (by omega) h
  obtain ⟨e₃, h⟩ := padded_mark_inj (by omega) (by omega) h
  obtain ⟨e₄, h⟩ := padded_mark_inj (by omega) (by omega) h
  obtain ⟨e₅, h⟩ := padded_mark_inj (by omega) (by omega) h
  obtain ⟨e₆, h⟩ := padded_append_inj (by omega) (by omega) h
  obtain ⟨e₇, h⟩ := fractionText_append_inj t.microsecond_lt t'.microsecond_lt
    (afterFraction_offsetText _) (afterFraction_offsetText _) h
  have e₈ := offsetText_inj t.utcoffset_lt t'.utcoffset_lt h
  exact Timestamp.ext e₁ e₂ e₃ e₄ e₅ e₆ e₇ e₈

theorem newline_not_mem_padded (width n : ℕ) : '\n' ∉ padded width n := by
  induction width generalizing n with
  | zero => simp [padded]
  | succ width ih =>
    have hdigit := digitChar_ne_newline (n % 10) (by omega)
    simp [padded, ih, hdigit.symm]

theorem newline_not_mem_fractionText (microsecond : ℕ) : '\n' ∉ fractionText microsecond := by
  by_cases h : microsecond = 0 <;> simp [fractionText, h, newline_not_mem_padded]

theorem newline_not_mem_offsetText (o : Option ℤ) : '\n' ∉ offsetText o := by
  cases o with
  | none => simp [offsetText]
  | some offset =>
    have hseconds : '\n' ∉ offsetSeconds offset.natAbs := by
      by_cases h : offset.natAbs % 60000000 = 0 <;>
        simp [offsetSeconds, h, newline_not_mem_padded, newline_not_mem_fractionText]
    by_cases h : offset < 0 <;> simp [offsetText, h, newline_not_mem_padded, hseconds]

theorem newline_not_mem_isoformat (t : Timestamp) : '\n' ∉ isoformat t := by
  simp [isoformat, newline_not_mem_padded, newline_not_mem_fractionText,
    newline_not_mem_offsetText]

/-! ## §2 Commits -/

/-- The digits of `hexdigest`. -/
def hexDigits : List Char := "0123456789abcdef".toList

/-- A hash as `hexdigest` writes it. -/
@[ext] structure Digest where
  text : List Char
  length_eq : text.length = 64
  hex : ∀ c ∈ text, c ∈ hexDigits

/-- A dictionary of metadata.  Python compares dictionaries without the order of their keys, so
    each is held in the order that `sort_keys` makes. -/
@[ext] structure MetadataDict (N : Type) where
  fields : Fields N
  keysInOrder : KeysInOrder (.object fields)

/-- The arguments of `compute_commit_hash`. -/
@[ext] structure CommitFields (N : Type) where
  blobHash : Digest
  parentHash : Option Digest
  author : String
  message : String
  metadata : MetadataDict N
  timestamp : Timestamp

variable {N : Type} (T : NumberText N)

/-- `parent_hash or ''`. -/
def parentText : Option Digest → List Char
  | some digest => digest.text
  | none => []

/-- What stands between the author and the message. -/
def messageMark : List Char := "\nmessage=".toList

/-- `raw_body`. -/
def rawBody (c : CommitFields N) : List Char :=
  "parent=".toList ++ parentText c.parentHash ++ "\nblob=".toList ++ c.blobHash.text ++
    "\nauthor=".toList ++ c.author.toList ++ messageMark ++ c.message.toList ++
    "\nmetadata=".toList ++ dumps T (sortKeys (.object c.metadata.fields)) ++
    "\ntimestamp=".toList ++ isoformat c.timestamp

/-- `str.encode("utf-8")`. -/
def encodeUtf8 (text : List Char) : ByteArray := (String.ofList text).toUTF8

/-- The header, with the length of the body in bytes. -/
def header (body : List Char) : List Char :=
  "commit ".toList ++ Nat.toDigits 10 (encodeUtf8 body).size ++ ['\x00']

/-- The bytes that `compute_commit_hash` gives to SHA-256. -/
def payload (c : CommitFields N) : ByteArray :=
  encodeUtf8 (header (rawBody T c) ++ rawBody T c)

theorem encodeUtf8_injective : Function.Injective encodeUtf8 := by
  intro text text' h
  have hstring : String.ofList text = String.ofList text' := String.toByteArray_inj.mp h
  simpa using congrArg String.toList hstring

theorem null_not_mem_header (n : ℕ) : '\x00' ∉ "commit ".toList ++ Nat.toDigits 10 n := by
  rw [List.mem_append, not_or]
  refine ⟨by simp, fun hmem => ?_⟩
  have hdigit := isDigit_of_mem_toDigits hmem
  revert hdigit
  decide

theorem header_append (body : List Char) :
    header body ++ body =
      ("commit ".toList ++ Nat.toDigits 10 (encodeUtf8 body).size) ++ '\x00' :: body := by
  unfold header
  rw [List.append_assoc, List.singleton_append]

/-- The header ends at the first null character, whatever the body holds. -/
theorem header_append_inj {body body' : List Char}
    (h : header body ++ body = header body' ++ body') : body = body' := by
  rw [header_append, header_append] at h
  exact (eq_of_split_first (null_not_mem_header _) (null_not_mem_header _) h).2

/-- Two commits give SHA-256 the same bytes exactly when they have the same body. -/
theorem payload_eq_iff {c c' : CommitFields N} :
    payload T c' = payload T c ↔ rawBody T c' = rawBody T c := by
  constructor
  · intro h
    exact header_append_inj (encodeUtf8_injective h)
  · intro h
    rw [payload, payload, h]

theorem Digest.newline_not_mem (digest : Digest) : '\n' ∉ digest.text := by
  intro h
  have hhex := digest.hex '\n' h
  revert hhex
  decide

theorem newline_not_mem_parentText (parent : Option Digest) : '\n' ∉ parentText parent := by
  cases parent with
  | none => simp [parentText]
  | some digest => exact digest.newline_not_mem

theorem Digest.text_ne_nil (digest : Digest) : digest.text ≠ [] := by
  intro h
  have hlength := digest.length_eq
  rw [h] at hlength
  simp at hlength

/-- A commit without a parent is not written as one with a parent. -/
theorem parentText_injective : Function.Injective parentText := by
  intro p p' h
  cases p with
  | none =>
    cases p' with
    | none => rfl
    | some d' => exact absurd h.symm d'.text_ne_nil
  | some d =>
    cases p' with
    | none => exact absurd h d.text_ne_nil
    | some d' => exact congrArg some (Digest.ext h)

/-- The author and the message with what stands between them. -/
def authorAndMessage (c : CommitFields N) : List Char :=
  c.author.toList ++ messageMark ++ c.message.toList

/-- The body as lines, of which only the one of the author and the message can break. -/
theorem rawBody_eq (c : CommitFields N) :
    rawBody T c = "parent=".toList ++ (parentText c.parentHash ++ '\n' :: ("blob=".toList ++
      (c.blobHash.text ++ '\n' :: ("author=".toList ++ authorAndMessage c ++ '\n' ::
        ("metadata=".toList ++ dumps T (.object c.metadata.fields)) ++ '\n' ::
          ("timestamp=".toList ++ isoformat c.timestamp))))) := by
  have hblob : "\nblob=".toList = '\n' :: "blob=".toList := by simp
  have hauthor : "\nauthor=".toList = '\n' :: "author=".toList := by simp
  have hmetadata : "\nmetadata=".toList = '\n' :: "metadata=".toList := by simp
  have htimestamp : "\ntimestamp=".toList = '\n' :: "timestamp=".toList := by simp
  unfold rawBody authorAndMessage
  rw [c.metadata.keysInOrder.sortKeys_eq, hblob, hauthor, hmetadata, htimestamp]
  simp only [List.append_assoc, List.cons_append]

/-- Every field can be read back but for where the author ends and the message starts. -/
theorem body_inj {c c' : CommitFields N} (h : rawBody T c' = rawBody T c) :
    c'.parentHash = c.parentHash ∧ c'.blobHash = c.blobHash ∧
      authorAndMessage c' = authorAndMessage c ∧ c'.metadata = c.metadata ∧
        c'.timestamp = c.timestamp := by
  rw [rawBody_eq, rawBody_eq] at h
  -- the lines above the author are split off from the front
  obtain ⟨hparent, h⟩ := eq_of_split_first (newline_not_mem_parentText _)
    (newline_not_mem_parentText _) (List.append_cancel_left h)
  obtain ⟨hblob, h⟩ := eq_of_split_first c'.blobHash.newline_not_mem c.blobHash.newline_not_mem
    (List.append_cancel_left h)
  -- the lines below the message are split off from the end
  have hiso (t : Timestamp) : '\n' ∉ "timestamp=".toList ++ isoformat t := by
    rw [List.mem_append, not_or]
    exact ⟨by simp, newline_not_mem_isoformat t⟩
  have hdumps (j : Json N) : '\n' ∉ "metadata=".toList ++ dumps T j := by
    rw [List.mem_append, not_or]
    exact ⟨by simp, newline_not_mem_dumps j⟩
  obtain ⟨h, htimestamp⟩ := eq_of_split_last (hiso _) (hiso _) h
  obtain ⟨h, hmetadata⟩ := eq_of_split_last (hdumps _) (hdumps _) h
  have hobject := readable_dumps.injective (stopsAt_nil _) (List.append_cancel_left hmetadata)
  exact ⟨parentText_injective hparent, Digest.ext hblob, List.append_cancel_left h,
    MetadataDict.ext (Json.object.inj hobject),
    isoformat_injective (List.append_cancel_left htimestamp)⟩

theorem rawBody_congr {c c' : CommitFields N} (hparent : c'.parentHash = c.parentHash)
    (hblob : c'.blobHash = c.blobHash) (hmiddle : authorAndMessage c' = authorAndMessage c)
    (hmetadata : c'.metadata = c.metadata) (htimestamp : c'.timestamp = c.timestamp) :
    rawBody T c' = rawBody T c := by
  rw [rawBody_eq, rawBody_eq, hparent, hblob, hmiddle, hmetadata, htimestamp]

/-- **The bytes that are hashed identify a commit** exactly when neither its author nor its message
    holds the mark that separates them.

    The metadata are escaped by their dump, and the other parts are of a shape in which the marks
    cannot occur; author and message are written as they are. -/
theorem payload_identifies_iff (c : CommitFields N) :
    (∀ c' : CommitFields N, payload T c' = payload T c → c' = c) ↔
      ¬ messageMark <:+: c.author.toList ∧ ¬ messageMark <:+: c.message.toList := by
  have hmark : messageMark = '\n' :: "message=".toList := by
    unfold messageMark
    simp
  rw [hmark, ← split_unique_iff (by simp)]
  constructor
  · intro hidentifies author message hsplit
    -- the commit that has the other reading as its author and message
    have h := hidentifies { c with
      author := String.ofList author, message := String.ofList message } (by
        rw [payload_eq_iff]
        refine rawBody_congr T rfl rfl ?_ rfl rfl
        simpa [authorAndMessage, hmark] using hsplit)
    have hauthor := congrArg (fun c => c.author.toList) h
    have hmessage := congrArg (fun c => c.message.toList) h
    simp only [String.toList_ofList] at hauthor hmessage
    exact ⟨hauthor, hmessage⟩
  · intro hunique c' h
    obtain ⟨hparent, hblob, hmiddle, hmetadata, htimestamp⟩ :=
      body_inj T ((payload_eq_iff T).mp h)
    obtain ⟨hauthor, hmessage⟩ := hunique _ _ hmiddle
    exact CommitFields.ext hblob hparent (String.toList_injective hauthor)
      (String.toList_injective hmessage) hmetadata htimestamp

theorem zeros_length : (List.replicate 64 '0').length = 64 := List.length_replicate ..

theorem zeros_hex : ∀ c ∈ List.replicate 64 '0', c ∈ hexDigits := by
  intro c hc
  rw [List.eq_of_mem_replicate hc]
  decide

theorem noon_fields :
    (1 ≤ 2026 ∧ 2026 ≤ 9999) ∧ (1 ≤ 7 ∧ 7 ≤ 12) ∧ (1 ≤ 31 ∧ 31 ≤ daysInMonth 2026 7) ∧
      12 < 24 ∧ 0 < 60 ∧ 0 < 1000000 := by
  decide

theorem utc_lt : ∀ offset ∈ some (0 : ℤ), offset.natAbs < 86400000000 := by
  simp

/-- Noon of the last day of July 2026, in UTC. -/
def noon : Timestamp :=
  ⟨2026, 7, 31, 12, 0, 0, 0, some 0, noon_fields.1, noon_fields.2.1, noon_fields.2.2.1,
    noon_fields.2.2.2.1, noon_fields.2.2.2.2.1, noon_fields.2.2.2.2.1, noon_fields.2.2.2.2.2,
    utc_lt⟩

theorem keysInOrder_empty : KeysInOrder (.object ([] : Fields ℤ)) := by
  refine .object .nil ?_
  simp

/-- A first commit without metadata. -/
def firstCommit (author message : String) : CommitFields ℤ where
  blobHash := ⟨List.replicate 64 '0', zeros_length, zeros_hex⟩
  parentHash := none
  author := author
  message := message
  metadata := ⟨[], keysInOrder_empty⟩
  timestamp := noon

/-- A message with the mark, and an author with it. -/
theorem payload_not_injective :
    ¬ ∀ c c' : CommitFields ℤ, payload integerText c = payload integerText c' → c = c' := by
  intro h
  have hmiddle : authorAndMessage (firstCommit "a" "b\nmessage=c") =
      authorAndMessage (firstCommit "a\nmessage=b" "c") := by decide +kernel
  have hbody : rawBody integerText (firstCommit "a" "b\nmessage=c") =
      rawBody integerText (firstCommit "a\nmessage=b" "c") :=
    rawBody_congr integerText rfl rfl hmiddle rfl rfl
  have heq := h _ _ ((payload_eq_iff integerText).mpr hbody)
  have hauthor : "a" = "a\nmessage=b" := congrArg CommitFields.author heq
  simp at hauthor

end CryptoTrading.Vcs.Hashing
