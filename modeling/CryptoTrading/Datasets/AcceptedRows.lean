import CryptoTrading.Datasets.DatasetService
import CryptoTrading.Lib.Run

/-!
# The rows that an upload accepts

What the checks of `Datasets.DatasetService` say of the decimals of a row: they let it pass
(`InOrder`), they come upon a comparison with what is not a number, which raises (`MeetsNan`), or
they reject it.  A file is accepted as far as all its rows pass one after the other (`Passing`),
and the loop raises `InvalidOperation` when the first row that does not pass is one that meets such
a comparison (`StopsAtNan`).
-/

namespace CryptoTrading.Datasets

open CryptoTrading.Lib CryptoTrading.Lib.Csv
open CryptoTrading.Retention (Instant)

/-! ## §1 Conditions -/

theorem rejectIf_eq_ok {condition : Except Raised Bool} {error : DatasetValidationError} :
    rejectIf condition error = .ok () ↔ condition = .ok false := by
  unfold rejectIf
  split <;> simp

theorem rejectIf_eq_error {condition : Except Raised Bool} {error : DatasetValidationError}
    {raised : Raised} : rejectIf condition error = .error raised ↔
      condition = .error raised ∨ condition = .ok true ∧ raised = .validation error := by
  unfold rejectIf
  split <;> simp [eq_comm]

theorem either_eq_ok_false {p q : Except Raised Bool} :
    either p q = .ok false ↔ p = .ok false ∧ q = .ok false := by
  match p with
  | .ok false => simp [either]
  | .ok true => simp [either]
  | .error raised => simp [either]

theorem either_eq_error {p q : Except Raised Bool} {raised : Raised} :
    either p q = .error raised ↔
      p = .error raised ∨ p = .ok false ∧ q = .error raised := by
  match p with
  | .ok false => simp [either]
  | .ok true => simp [either]
  | .error raised => simp [either]

theorem then_eq_ok {p q : Except Raised Unit} :
    (p >>= fun _ => q) = .ok () ↔ p = .ok () ∧ q = .ok () := by
  cases p <;> simp [bind, Except.bind]

theorem then_eq_error {p q : Except Raised Unit} {raised : Raised} :
    (p >>= fun _ => q) = .error raised ↔
      p = .error raised ∨ p = .ok () ∧ q = .error raised := by
  cases p <;> simp [bind, Except.bind]

theorem less_eq_ok_false {d e : Decimal} : less d e = .ok false ↔ e ≤ d :=
  Decimal.less_eq_ok_false

theorem less_eq_error {d e : Decimal} {raised : Raised} :
    less d e = .error raised ↔ (d.IsNan ∨ e.IsNan) ∧ raised = .invalidOperation :=
  Decimal.less_eq_error

/-! ## §2 The decimals of a row -/

namespace Ohlcv

/-- What the checks ask for. -/
structure InOrder (o : Ohlcv) : Prop where
  volume : zero ≤ o.volume
  range : o.low ≤ o.high
  open_mem : o.low ≤ o.open ∧ o.open ≤ o.high
  close_mem : o.low ≤ o.close ∧ o.close ≤ o.high

/-- The checks come upon what is not a number before they reject the row. -/
def MeetsNan (o : Ohlcv) : Prop :=
  o.volume.IsNan ∨ zero ≤ o.volume ∧
    ((o.high.IsNan ∨ o.low.IsNan) ∨ o.low ≤ o.high ∧
      (o.open.IsNan ∨ (o.low ≤ o.open ∧ o.open ≤ o.high) ∧ o.close.IsNan))

theorem check_eq_ok (row : ℕ) {o : Ohlcv} : o.check row = .ok () ↔ o.InOrder := by
  simp only [check, then_eq_ok, rejectIf_eq_ok, either_eq_ok_false, less_eq_ok_false]
  constructor
  · rintro ⟨hvolume, hrange, hopen, hclose⟩
    exact ⟨hvolume, hrange, hopen, hclose⟩
  · rintro ⟨hvolume, hrange, hopen, hclose⟩
    exact ⟨hvolume, hrange, hopen, hclose⟩

theorem zero_not_isNan : ¬ zero.IsNan := by decide

theorem not_isNan_of_le {d e : Decimal} (h : d ≤ e) : ¬ d.IsNan ∧ ¬ e.IsNan := by
  obtain ⟨x, y, hx, hy, -⟩ := Decimal.le_iff.mp h
  simp [Decimal.IsNan, hx, hy]

/-- A price is compared with both ends of a range. -/
theorem outside_eq_invalidOperation {price low high : Decimal} (h : low ≤ high) :
    either (less price low) (less high price) = .error .invalidOperation ↔ price.IsNan := by
  obtain ⟨hlow, hhigh⟩ := not_isNan_of_le h
  rw [either_eq_error, less_eq_error, less_eq_ok_false, less_eq_error]
  simp only [hlow, hhigh, or_false, false_or, and_true]
  constructor
  · rintro (hprice | ⟨-, hprice⟩)
    · exact hprice
    · exact hprice
  · exact Or.inl

theorem check_eq_invalidOperation {o : Ohlcv} {row : ℕ} :
    o.check row = .error .invalidOperation ↔ o.MeetsNan := by
  simp only [check, then_eq_error, rejectIf_eq_error, rejectIf_eq_ok, less_eq_error,
    less_eq_ok_false, either_eq_ok_false, reduceCtorEq, and_false, or_false, and_true,
    zero_not_isNan, MeetsNan]
  refine or_congr_right (and_congr_right fun _ => or_congr_right (and_congr_right fun hrange => ?_))
  rw [outside_eq_invalidOperation hrange, outside_eq_invalidOperation hrange]

/-- The checks raise nothing else. -/
theorem check_eq_error {o : Ohlcv} {row : ℕ} {raised : Raised}
    (h : o.check row = .error raised) :
    raised = .invalidOperation ∨ ∃ error, raised = .validation error := by
  simp only [check, then_eq_error, rejectIf_eq_error, either_eq_error, less_eq_error] at h
  cases raised with
  | validation error => exact .inr ⟨error, rfl⟩
  | invalidOperation => exact .inl rfl
  | unicodeDecodeError => simp at h
  | csvError => simp at h

end Ohlcv

/-! ## §3 Rows -/

section Rows

variable (host : Host)

/-- The time and the decimals of a row; none when one of them cannot be read. -/
def readRow (row : Row) : Option ParsedRow :=
  match (row.get? "timestamp".toList).getD [] with
  | [] => none
  | text => do
    let time ← readTime host text
    let values ← readOhlcv fun name => row.get? name.toList
    some ⟨time, values⟩

/-- Rows that pass one after the other, behind rows of the epochs in `seen`. -/
inductive Passing : List ℤ → List Row → List ParsedRow → Prop
  | nil (seen : List ℤ) : Passing seen [] []
  | cons {seen : List ℤ} {row : Row} {rest : List Row} {parsed : ParsedRow}
      {later : List ParsedRow} (hread : readRow host row = some parsed)
      (hnew : parsed.epoch ∉ seen) (horder : parsed.values.InOrder)
      (hrest : Passing (parsed.epoch :: seen) rest later) :
      Passing seen (row :: rest) (parsed :: later)

/-- The first row that does not pass meets a comparison with what is not a number. -/
inductive StopsAtNan : List ℤ → List Row → Prop
  | here {seen : List ℤ} {row : Row} {rest : List Row} {parsed : ParsedRow}
      (hread : readRow host row = some parsed) (hnew : parsed.epoch ∉ seen)
      (hnan : parsed.values.MeetsNan) : StopsAtNan seen (row :: rest)
  | later {seen : List ℤ} {row : Row} {rest : List Row} {parsed : ParsedRow}
      (hread : readRow host row = some parsed) (hnew : parsed.epoch ∉ seen)
      (horder : parsed.values.InOrder) (hrest : StopsAtNan (parsed.epoch :: seen) rest) :
      StopsAtNan seen (row :: rest)

/-- What a round of the loop does: the row is rejected, or it is read and its decimals are
checked. -/
theorem validateRow_cases (seen : List ℤ) (index : ℕ) (row : Row) :
    (∃ error, validateRow host seen index row = .error (.validation error) ∧
        ∀ parsed, readRow host row = some parsed → parsed.epoch ∈ seen) ∨
      ∃ parsed, readRow host row = some parsed ∧ parsed.epoch ∉ seen ∧
        validateRow host seen index row = (parsed.values.check index).map fun _ => parsed := by
  unfold validateRow readRow
  cases (row.get? "timestamp".toList).getD [] with
  | nil => exact .inl ⟨_, rfl, by simp⟩
  | cons c text =>
    cases htime : readTime host (c :: text) with
    | none =>
      exact .inl ⟨.invalidTimestamp index (c :: text), by simp only [htime], by simp [htime]⟩
    | some time =>
      by_cases hseen : epochSecond time ∈ seen
      · refine .inl ⟨.duplicateTimestamp index time, by simp only [htime, hseen, if_true], ?_⟩
        intro parsed hparsed
        simp only [htime, Option.bind_eq_bind, Option.bind_some, Option.bind_eq_some_iff,
          Option.some.injEq] at hparsed
        obtain ⟨values, -, rfl⟩ := hparsed
        exact hseen
      · cases hvalues : readOhlcv fun name => row.get? name.toList with
        | none =>
          exact .inl ⟨.invalidValues index, by simp only [htime, hseen, if_false],
            by simp [htime]⟩
        | some values =>
          exact .inr ⟨⟨time, values⟩, by simp [htime], hseen,
            by simp only [htime, hseen, if_false]⟩

variable {host}

theorem validateRow_eq_ok_iff (index : ℕ) {seen : List ℤ} {row : Row} {parsed : ParsedRow} :
    validateRow host seen index row = .ok parsed ↔
      readRow host row = some parsed ∧ parsed.epoch ∉ seen ∧ parsed.values.InOrder := by
  -- a row is refused when it is read or as a duplicate, or is left to the check of its prices
  rcases validateRow_cases host seen index row with
    ⟨error, hrow, hseen⟩ | ⟨read, hread, hnew, hrow⟩
  · rw [hrow]
    constructor
    · intro h
      cases h
    · rintro ⟨hread, hnew, -⟩
      exact absurd (hseen parsed hread) hnew
  · rw [hrow, hread, ← Ohlcv.check_eq_ok index]
    cases hcheck : read.values.check index with
    | error raised =>
      constructor
      · intro h
        cases h
      · rintro ⟨heq, -, hok⟩
        obtain rfl := Option.some.inj heq
        rw [hcheck] at hok
        cases hok
    | ok value =>
      constructor
      · intro h
        obtain rfl := Except.ok.inj h
        exact ⟨rfl, hnew, hcheck⟩
      · rintro ⟨heq, -⟩
        rw [Option.some.inj heq]
        rfl

theorem validateRow_eq_invalidOperation_iff (index : ℕ) {seen : List ℤ} {row : Row} :
    validateRow host seen index row = .error .invalidOperation ↔
      ∃ parsed, readRow host row = some parsed ∧ parsed.epoch ∉ seen ∧
        parsed.values.MeetsNan := by
  rcases validateRow_cases host seen index row with
    ⟨error, hrow, hseen⟩ | ⟨read, hread, hnew, hrow⟩
  · rw [hrow]
    constructor
    · intro h
      cases h
    · rintro ⟨parsed, hread, hnew, -⟩
      exact absurd (hseen parsed hread) hnew
  · have hcheck : validateRow host seen index row = .error .invalidOperation ↔
        read.values.check index = .error .invalidOperation := by
      rw [hrow]
      cases read.values.check index <;> simp [Except.map]
    rw [hcheck, Ohlcv.check_eq_invalidOperation]
    constructor
    · exact fun hnan => ⟨read, hread, hnew, hnan⟩
    · rintro ⟨parsed, hparsed, -, hnan⟩
      rw [Option.some.inj (hread.symm.trans hparsed)]
      exact hnan

theorem validateRow_eq_error {seen : List ℤ} {index : ℕ} {row : Row} {raised : Raised}
    (h : validateRow host seen index row = .error raised) :
    raised = .invalidOperation ∨ ∃ error, raised = .validation error := by
  rcases validateRow_cases host seen index row with
    ⟨error, hrow, -⟩ | ⟨read, -, -, hrow⟩
  · exact .inr ⟨error, Except.error.inj (h.symm.trans hrow)⟩
  · rw [hrow] at h
    cases hcheck : read.values.check index with
    | ok value =>
      rw [hcheck] at h
      cases h
    | error raised' =>
      rw [hcheck] at h
      obtain rfl : raised' = raised := Except.error.inj h
      exact Ohlcv.check_eq_error hcheck

/-! ## §4 The loop -/

/-- The loop returns what the rows are read as, when they all pass. -/
theorem validateRows_eq_ok_iff (index : ℕ) {seen : List ℤ} {rows : List Row}
    {parsed : List ParsedRow} :
    validateRows host seen index rows = .ok parsed ↔ Passing host seen rows parsed := by
  induction rows generalizing seen index parsed with
  | nil =>
    constructor
    · intro h
      obtain rfl : [] = parsed := Except.ok.inj h
      exact .nil seen
    · rintro ⟨⟩
      rfl
  | cons row rest ih =>
    constructor
    · intro h
      rw [validateRows] at h
      obtain ⟨first, hfirst, h⟩ := bind_eq_ok.mp h
      obtain ⟨later, hlater, h⟩ := bind_eq_ok.mp h
      obtain rfl := Except.ok.inj h
      obtain ⟨hread, hnew, horder⟩ := (validateRow_eq_ok_iff index).mp hfirst
      exact .cons hread hnew horder ((ih (index + 1)).mp hlater)
    · rintro (_ | ⟨hread, hnew, horder, hrest⟩)
      have hrow := (validateRow_eq_ok_iff index).mpr ⟨hread, hnew, horder⟩
      have hlater := (ih (index + 1)).mpr hrest
      simp only [validateRows, hrow, hlater, bind, Except.bind]

theorem validateRows_cons (seen : List ℤ) (index : ℕ) (row : Row) (rest : List Row) :
    validateRows host seen index (row :: rest) =
      (validateRow host seen index row).bind fun parsed =>
        (validateRows host (parsed.epoch :: seen) (index + 1) rest).map fun later =>
          parsed :: later := by
  rw [validateRows]
  cases validateRow host seen index row with
  | error raised => rfl
  | ok parsed =>
    simp only [bind, Except.bind]
    cases validateRows host (parsed.epoch :: seen) (index + 1) rest <;> rfl

/-- The loop raises `InvalidOperation` when it stops at what is not a number. -/
theorem validateRows_eq_invalidOperation_iff (index : ℕ) {seen : List ℤ} {rows : List Row} :
    validateRows host seen index rows = .error .invalidOperation ↔ StopsAtNan host seen rows := by
  -- along the rows: the first that is not accepted decides, all before it are in the seen epochs
  induction rows generalizing seen index with
  | nil =>
    constructor
    · intro h
      cases h
    · rintro ⟨⟩
  | cons row rest ih =>
    rw [validateRows_cons]
    constructor
    · intro h
      cases hrow : validateRow host seen index row with
      | error raised =>
        rw [hrow] at h
        obtain rfl : raised = .invalidOperation := Except.error.inj h
        obtain ⟨parsed, hread, hnew, hnan⟩ := (validateRow_eq_invalidOperation_iff index).mp hrow
        exact .here hread hnew hnan
      | ok parsed =>
        obtain ⟨hread, hnew, horder⟩ := (validateRow_eq_ok_iff index).mp hrow
        rw [hrow] at h
        refine .later hread hnew horder ((ih (index + 1)).mp ?_)
        cases hrest : validateRows host (parsed.epoch :: seen) (index + 1) rest with
        | error raised =>
          simp only [Except.bind, hrest, Except.map] at h
          rw [Except.error.inj h]
        | ok later => simp [Except.bind, hrest, Except.map] at h
    · rintro (⟨hread, hnew, hnan⟩ | ⟨hread, hnew, horder, hrest⟩)
      · have hrow := (validateRow_eq_invalidOperation_iff index).mpr
          ⟨_, hread, hnew, hnan⟩
        rw [hrow]
        rfl
      · have hrow := (validateRow_eq_ok_iff index).mpr ⟨hread, hnew, horder⟩
        have hlater := (ih (index + 1)).mpr hrest
        rw [hrow]
        simp only [Except.bind, hlater, Except.map]

/-- The loop raises nothing but validation errors and `InvalidOperation`. -/
theorem validateRows_eq_error {seen : List ℤ} {index : ℕ} {rows : List Row} {raised : Raised}
    (h : validateRows host seen index rows = .error raised) :
    raised = .invalidOperation ∨ ∃ error, raised = .validation error := by
  induction rows generalizing seen index with
  | nil => cases h
  | cons row rest ih =>
    rw [validateRows_cons] at h
    cases hrow : validateRow host seen index row with
    | error raised' =>
      rw [hrow] at h
      obtain rfl : raised' = raised := Except.error.inj h
      exact validateRow_eq_error hrow
    | ok parsed =>
      rw [hrow] at h
      cases hrest : validateRows host (parsed.epoch :: seen) (index + 1) rest with
      | error raised' =>
        simp only [Except.bind, hrest, Except.map] at h
        obtain rfl : raised' = raised := Except.error.inj h
        exact ih hrest
      | ok later => simp [Except.bind, hrest, Except.map] at h

/-! ## §5 What passed -/

namespace Passing

variable {seen : List ℤ} {rows : List Row} {parsed : List ParsedRow}

/-- One parsed row for each row. -/
theorem map_readRow (h : Passing host seen rows parsed) :
    rows.map (readRow host) = parsed.map some := by
  induction h with
  | nil => rfl
  | cons hread hnew horder hrest ih => rw [List.map_cons, List.map_cons, hread, ih]

theorem inOrder (h : Passing host seen rows parsed) {p : ParsedRow} (hp : p ∈ parsed) :
    p.values.InOrder := by
  induction h with
  | nil => cases hp
  | cons hread hnew horder hrest ih =>
    rcases List.mem_cons.mp hp with rfl | hp
    · exact horder
    · exact ih hp

/-- No epoch is read twice, nor one of the rows before. -/
theorem epoch_nodup (h : Passing host seen rows parsed) :
    (∀ p ∈ parsed, p.epoch ∉ seen) ∧ (parsed.map ParsedRow.epoch).Nodup := by
  induction h with
  | nil => simp
  | cons hread hnew horder hrest ih =>
    obtain ⟨hseen, hnodup⟩ := ih
    constructor
    · intro p hp
      rcases List.mem_cons.mp hp with rfl | hp
      · exact hnew
      · exact fun hmem => hseen p hp (List.mem_cons_of_mem _ hmem)
    · rw [List.map_cons, List.nodup_cons]
      refine ⟨fun hmem => ?_, hnodup⟩
      obtain ⟨p, hp, hepoch⟩ := List.mem_map.mp hmem
      exact hseen p hp (hepoch ▸ List.mem_cons_self)

/-- Rows pass in one way only. -/
theorem unique (h : Passing host seen rows parsed) {parsed' : List ParsedRow}
    (h' : Passing host seen rows parsed') : parsed = parsed' := by
  have hsame := h.map_readRow.symm.trans h'.map_readRow
  exact List.map_injective_iff.mpr (Option.some_injective _) hsame

/-- Sorted by time, what passed is in strict order of its seconds. -/
theorem sortRows_strict (h : Passing host seen rows parsed) :
    (sortRows parsed).Pairwise fun p q => p.epoch < q.epoch := by
  have hsorted : (sortRows parsed).Pairwise fun p q => p.time.micros ≤ q.time.micros :=
    List.pairwise_insertionSort _ _
  have hnodup : ((sortRows parsed).map ParsedRow.epoch).Nodup :=
    ((List.perm_insertionSort _ parsed).map _).nodup_iff.mpr h.epoch_nodup.2
  have hne : (sortRows parsed).Pairwise fun p q => p.epoch ≠ q.epoch := List.pairwise_map.mp hnodup
  exact (hsorted.and hne).imp fun hpq => lt_of_le_of_ne (epochSecond_mono hpq.1) hpq.2

end Passing

end Rows

end CryptoTrading.Datasets
