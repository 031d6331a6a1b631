import CryptoTrading.Lib.Record
import CryptoTrading.Expressions.Inspection

/-!
# Strict validation of a formula

`ExpressionParser.validate` raises at the first thing a formula may not contain.  It is written
next to `inspect_semantics`, which reports everything it finds, and the two are meant to let
the same formulas pass.

Both walks are compared with `Formula`, the trees that may be evaluated: one raises and the
other reports an error exactly outside of this grammar (`validateNode_eq_ok`,
`clean_collect`).  The texts are another matter, since only the inspection trims the text first.
-/

namespace CryptoTrading.Expressions

/-! ## §1 The strict walk -/

/-- `raise ValueError(message)` under a guard. -/
def raiseIf (guard : Prop) [Decidable guard] (message : String) : Except String Unit :=
  if guard then .error message else .ok ()

/-- The check of the series in `_validate_rolling_call_strict`. -/
def validateSeries (funcName : String) (first : Expr) : Except String Unit :=
  let supported := ", ".intercalate (Lib.sortedElements validRollingSeries)
  let message := s!"First argument to '{funcName}' must be a valid series name ({supported})"
  match extractSeriesName first with
  | some series => raiseIf (series ∉ validRollingSeries) message
  | none => .error message

/-- The check of the period in `_validate_rolling_call_strict`: only a literal is looked at. -/
def validatePeriod (funcName : String) (period : Expr) : Except String Unit :=
  let message := s!"Period for '{funcName}' must be a positive integer"
  match period with
  | .constant _ (.int value) => raiseIf (value ≤ 0) message
  | .constant _ _ => .error message
  | _ => .ok ()

/-- `_validate_rolling_call_strict`. -/
def validateRollingCallStrict (funcName : String) (args : List Expr) : Except String Unit :=
  match args with
  | [first, period] => do
    validateSeries funcName first
    validatePeriod funcName period
  | _ => .error s!"Function '{funcName}' expects 2 arguments: (series, period)"

mutual

/-- `_validate_node`. -/
def validateNode : Expr → Except String Unit
  | .constant _ _ => .ok ()
  | .name _ _ => .ok ()
  | .binOp _ left op right => do
    raiseIf (op ∉ supportedOperators) "Unsupported expression node: BinOp"
    validateNode left
    validateNode right
  | .compare _ left ops comparators => do
    validateNode left
    validateComparisons ops comparators
  | .ifExp _ test body orelse => do
    validateNode test
    validateNode body
    validateNode orelse
  | .boolOp _ op values => do
    raiseIf (op ∉ [BoolOp.and, BoolOp.or]) "Unsupported expression node: BoolOp"
    validateList values
  | .unaryOp _ op operand => do
    raiseIf (op ∉ supportedUnaryOps) "Unsupported expression node: UnaryOp"
    validateNode operand
  | .call _ (.name _ funcName) args keywords => do
    raiseIf (keywords ≠ []) "Keyword arguments are not supported"
    -- here the series of a rolling call is visited as well
    if funcName ∈ rollingFunctions then do
      validateRollingCallStrict funcName args
      validateList args
    else
      validateList args
  | .call _ _ _ _ => .error "Only simple function calls are supported"
  | .other _ kind => .error s!"Unsupported expression node: {kind.typeName}"

/-- The loop over a list of nodes. -/
def validateList : List Expr → Except String Unit
  | [] => .ok ()
  | first :: rest => do
    validateNode first
    validateList rest

/-- The loop over `zip(node.ops, node.comparators)`. -/
def validateComparisons : List CmpOp → List Expr → Except String Unit
  | op :: ops, comparator :: comparators => do
    raiseIf (op ∉ supportedComparisons) "Unsupported expression node: Compare"
    validateNode comparator
    validateComparisons ops comparators
  | _, _ => .ok ()

end

/-- `str(exc)`; the text has no file name of its own. -/
def SyntaxError.toText (exc : SyntaxError) : String :=
  match exc.lineno with
  | some line => s!"{exc.msg} (<unknown>, line {line})"
  | none => s!"{exc.msg} (<unknown>)"

/-- `ExpressionParser.validate`. -/
def validate (astParse : String → Except SyntaxError Expr) (expression : String) :
    Except String Unit :=
  if strip expression = "" then .ok ()
  else if maxFormulaLength < expression.length then
    .error (s!"Formula must be at most {maxFormulaLength} characters. " ++
      s!"ExpressionParser validate method got {expression.length}.")
  else
    match astParse expression with
    | .error exc => .error s!"Invalid formula syntax: {exc.toText}"
    | .ok tree => validateNode tree

/-! ## §2 The grammar -/

/-- The name of a series, as a variable or as a text. -/
def NamesSeries (first : Expr) : Prop :=
  ∃ series ∈ validRollingSeries, extractSeriesName first = some series

/-- A period that is a literal is a positive integer. -/
def PositivePeriod : Expr → Prop
  | .constant _ (.int value) => 0 < value
  | .constant _ _ => False
  | _ => True

/-- The trees that may be evaluated. -/
inductive Formula : Expr → Prop where
  | constant (span : Span) (value : Constant) : Formula (.constant span value)
  | name (span : Span) (id : String) : Formula (.name span id)
  | binOp (span : Span) {left right : Expr} {op : Operator} (hop : op ∈ supportedOperators)
      (hleft : Formula left) (hright : Formula right) : Formula (.binOp span left op right)
  | compare (span : Span) {left : Expr} {ops : List CmpOp} {comparators : List Expr}
      (hleft : Formula left)
      (hops : ∀ p ∈ ops.zip comparators, p.1 ∈ supportedComparisons)
      (hcomparators : ∀ p ∈ ops.zip comparators, Formula p.2) :
      Formula (.compare span left ops comparators)
  | ifExp (span : Span) {test body orelse : Expr} (htest : Formula test) (hbody : Formula body)
      (horelse : Formula orelse) : Formula (.ifExp span test body orelse)
  | boolOp (span : Span) (op : BoolOp) {values : List Expr} (hvalues : ∀ e ∈ values, Formula e) :
      Formula (.boolOp span op values)
  | unaryOp (span : Span) {op : UnaryOp} {operand : Expr} (hop : op ∈ supportedUnaryOps)
      (hoperand : Formula operand) : Formula (.unaryOp span op operand)
  | call (span funcSpan : Span) {funcName : String} {args : List Expr}
      (hplain : funcName ∉ rollingFunctions) (hargs : ∀ e ∈ args, Formula e) :
      Formula (.call span (.name funcSpan funcName) args [])
  | rolling (span funcSpan : Span) {funcName : String} {first period : Expr}
      (hrolling : funcName ∈ rollingFunctions) (hfirst : NamesSeries first)
      (hpositive : PositivePeriod period) (hperiod : Formula period) :
      Formula (.call span (.name funcSpan funcName) [first, period] [])

/-- The arguments that a function takes. -/
def ArgsFit (funcName : String) (args : List Expr) : Prop :=
  if funcName ∈ rollingFunctions then
    ∃ first period, args = [first, period] ∧ NamesSeries first ∧ PositivePeriod period ∧
      Formula period
  else ∀ e ∈ args, Formula e

section Inversion

variable {span funcSpan : Span} {left right test body orelse operand : Expr}

@[simp]
theorem formula_constant {value : Constant} : Formula (.constant span value) :=
  .constant span value

@[simp]
theorem formula_name {id : String} : Formula (.name span id) := .name span id

@[simp]
theorem formula_binOp {op : Operator} : Formula (.binOp span left op right) ↔
    op ∈ supportedOperators ∧ Formula left ∧ Formula right := by
  constructor
  · intro h
    cases h with
    | binOp _ hop hleft hright => exact ⟨hop, hleft, hright⟩
  · intro h
    exact .binOp span h.1 h.2.1 h.2.2

@[simp]
theorem formula_compare {ops : List CmpOp} {comparators : List Expr} :
    Formula (.compare span left ops comparators) ↔
      Formula left ∧ ∀ p ∈ ops.zip comparators, p.1 ∈ supportedComparisons ∧ Formula p.2 := by
  constructor
  · intro h
    cases h with
    | compare _ hleft hops hcomparators =>
      exact ⟨hleft, fun p hp => ⟨hops p hp, hcomparators p hp⟩⟩
  · intro h
    exact .compare span h.1 (fun p hp => (h.2 p hp).1) (fun p hp => (h.2 p hp).2)

@[simp]
theorem formula_ifExp : Formula (.ifExp span test body orelse) ↔
    Formula test ∧ Formula body ∧ Formula orelse := by
  constructor
  · intro h
    cases h with
    | ifExp _ htest hbody horelse => exact ⟨htest, hbody, horelse⟩
  · intro h
    exact .ifExp span h.1 h.2.1 h.2.2

@[simp]
theorem formula_boolOp {op : BoolOp} {values : List Expr} :
    Formula (.boolOp span op values) ↔ ∀ e ∈ values, Formula e := by
  constructor
  · intro h
    cases h with
    | boolOp _ _ hvalues => exact hvalues
  · exact .boolOp span op

@[simp]
theorem formula_unaryOp {op : UnaryOp} : Formula (.unaryOp span op operand) ↔
    op ∈ supportedUnaryOps ∧ Formula operand := by
  constructor
  · intro h
    cases h with
    | unaryOp _ hop hoperand => exact ⟨hop, hoperand⟩
  · intro h
    exact .unaryOp span h.1 h.2

@[simp]
theorem formula_call {funcName : String} {args : List Expr} {keywords : List (Option String)} :
    Formula (.call span (.name funcSpan funcName) args keywords) ↔
      keywords = [] ∧ ArgsFit funcName args := by
  constructor
  · intro h
    cases h with
    | call _ _ hplain hargs => exact ⟨rfl, by simpa [ArgsFit, hplain] using hargs⟩
    | rolling _ _ hrolling hfirst hpositive hperiod =>
      refine ⟨rfl, ?_⟩
      rw [ArgsFit, if_pos hrolling]
      exact ⟨_, _, rfl, hfirst, hpositive, hperiod⟩
  · rintro ⟨rfl, hargs⟩
    by_cases hrolling : funcName ∈ rollingFunctions
    · rw [ArgsFit, if_pos hrolling] at hargs
      obtain ⟨first, period, rfl, hfirst, hpositive, hperiod⟩ := hargs
      exact .rolling span funcSpan hrolling hfirst hpositive hperiod
    · rw [ArgsFit, if_neg hrolling] at hargs
      exact .call span funcSpan hrolling hargs

@[simp]
theorem not_formula_other {kind : OtherNode} : ¬ Formula (.other span kind) := nofun

end Inversion

/-- Only a name can be called. -/
theorem not_formula_call {span : Span} {func : Expr} {args : List Expr}
    {keywords : List (Option String)} (hfunc : ∀ funcSpan id, func ≠ .name funcSpan id) :
    ¬ Formula (.call span func args keywords) := by
  intro h
  cases h with
  | call _ funcSpan _ _ => exact hfunc funcSpan _ rfl
  | rolling _ funcSpan _ _ _ _ => exact hfunc funcSpan _ rfl

/-- The name of a series is a formula of its own. -/
theorem NamesSeries.formula {first : Expr} (h : NamesSeries first) : Formula first := by
  obtain ⟨series, -, hname⟩ := h
  unfold extractSeriesName at hname
  split at hname
  · exact formula_name
  · exact formula_constant
  · cases hname

/-! ## §3 The strict walk raises outside of the grammar -/

@[simp]
theorem raiseIf_eq_ok {guard : Prop} [Decidable guard] {message : String} :
    raiseIf guard message = .ok () ↔ ¬ guard := by
  by_cases h : guard <;> simp [raiseIf, h]

/-- One check after the other. -/
@[simp]
theorem checks_eq_ok {first second : Except String Unit} :
    (do first; second) = .ok () ↔ first = .ok () ∧ second = .ok () := by
  cases first with
  | error message => simp [bind, Except.bind]
  | ok value => simp [bind, Except.bind]

theorem validateSeries_eq_ok {funcName : String} {first : Expr} :
    validateSeries funcName first = .ok () ↔ NamesSeries first := by
  unfold validateSeries NamesSeries
  cases hname : extractSeriesName first with
  | none => simp
  | some series => simp

theorem validatePeriod_eq_ok {funcName : String} {period : Expr} :
    validatePeriod funcName period = .ok () ↔ PositivePeriod period := by
  cases period with
  | constant span value => cases value <;> simp [validatePeriod, PositivePeriod]
  | name | binOp | compare | ifExp | boolOp | unaryOp | call | other =>
    simp [validatePeriod, PositivePeriod]

theorem validateRollingCallStrict_eq_ok {funcName : String} {args : List Expr} :
    validateRollingCallStrict funcName args = .ok () ↔
      ∃ first period, args = [first, period] ∧ NamesSeries first ∧ PositivePeriod period := by
  unfold validateRollingCallStrict
  split
  · simp [validateSeries_eq_ok, validatePeriod_eq_ok]
  · rename_i hargs
    simp only [reduceCtorEq, false_iff]
    rintro ⟨first, period, rfl, -, -⟩
    exact hargs first period rfl

theorem validateList_eq_ok {es : List Expr}
    (h : ∀ e ∈ es, (validateNode e = .ok () ↔ Formula e)) :
    validateList es = .ok () ↔ ∀ e ∈ es, Formula e := by
  induction es with
  | nil => simp [validateList]
  | cons first rest ih =>
    obtain ⟨hfirst, hrest⟩ := List.forall_mem_cons.mp h
    simp [validateList, hfirst, ih hrest]

theorem validateComparisons_eq_ok {ops : List CmpOp} {comparators : List Expr}
    (h : ∀ e ∈ comparators, (validateNode e = .ok () ↔ Formula e)) :
    validateComparisons ops comparators = .ok () ↔
      ∀ p ∈ ops.zip comparators, p.1 ∈ supportedComparisons ∧ Formula p.2 := by
  induction ops generalizing comparators with
  | nil => simp [validateComparisons]
  | cons op ops ih =>
    cases comparators with
    | nil => simp [validateComparisons]
    | cons comparator comparators =>
      obtain ⟨hfirst, hrest⟩ := List.forall_mem_cons.mp h
      simp [validateComparisons, hfirst, ih hrest, and_assoc]

/-- The series of a rolling call is visited to no effect: its name always passes. -/
theorem validateArgs_eq_ok {funcName : String} {args : List Expr}
    (h : ∀ e ∈ args, (validateNode e = .ok () ↔ Formula e)) :
    (if funcName ∈ rollingFunctions then do
      validateRollingCallStrict funcName args
      validateList args
    else validateList args) = .ok () ↔ ArgsFit funcName args := by
  unfold ArgsFit
  split
  · rw [checks_eq_ok, validateRollingCallStrict_eq_ok, validateList_eq_ok h]
    constructor
    · rintro ⟨⟨first, period, rfl, hfirst, hpositive⟩, hargs⟩
      exact ⟨first, period, rfl, hfirst, hpositive, hargs period (by simp)⟩
    · rintro ⟨first, period, rfl, hfirst, hpositive, hperiod⟩
      refine ⟨⟨first, period, rfl, hfirst, hpositive⟩, ?_⟩
      simp [hfirst.formula, hperiod]
  · exact validateList_eq_ok h

/-- **The strict walk passes exactly on the formulas.** -/
theorem validateNode_eq_ok (e : Expr) : validateNode e = .ok () ↔ Formula e := by
  induction e using Expr.induction with
  | constant span value => simp [validateNode]
  | name span id => simp [validateNode]
  | binOp span left op right hleft hright => simp [validateNode, hleft, hright]
  | compare span left ops comparators hleft hcomparators =>
    simp [validateNode, hleft, validateComparisons_eq_ok hcomparators]
  | ifExp span test body orelse htest hbody horelse =>
    simp [validateNode, htest, hbody, horelse]
  | boolOp span op values hvalues =>
    -- there is no third boolean operator
    cases op <;> simp [validateNode, validateList_eq_ok hvalues]
  | unaryOp span op operand hoperand => simp [validateNode, hoperand]
  | call span func args keywords _ hargs =>
    cases func with
    | name funcSpan funcName => simp [validateNode, validateArgs_eq_ok hargs]
    | constant | binOp | compare | ifExp | boolOp | unaryOp | call | other =>
      simp only [validateNode, reduceCtorEq, false_iff]
      exact not_formula_call (by simp)
  | other span kind => simp [validateNode]

/-! ## §4 The reporting walk records an error outside of the grammar -/

namespace Findings

variable {s : Findings}

@[simp]
theorem clean_addVariable {name : String} : (s.addVariable name).Clean ↔ s.Clean := Iff.rfl

@[simp]
theorem clean_addFunction {name : String} : (s.addFunction name).Clean ↔ s.Clean := Iff.rfl

@[simp]
theorem not_clean_addNodeError {span : Span} {message : String} :
    ¬ (s.addNodeError span message).Clean := by
  simp [Clean, addNodeError, addError]

@[simp]
theorem clean_addNodeErrorIf {guard : Prop} [Decidable guard] {span : Span} {message : String} :
    (s.addNodeErrorIf guard span message).Clean ↔ s.Clean ∧ ¬ guard := by
  by_cases h : guard <;> simp [addNodeErrorIf, h]

/-- Without a list every name is allowed. -/
@[simp]
theorem checkName_none {span : Span} {name message : String} :
    s.checkName none span name message = s := by
  simp [checkName, Allows]

end Findings

section Reports

variable {s : Findings}

theorem clean_checkSeries {funcName : String} {first : Expr} :
    (checkSeries funcName first s).Clean ↔ s.Clean ∧ NamesSeries first := by
  unfold checkSeries NamesSeries
  cases hname : extractSeriesName first with
  | none => simp
  | some series => simp

theorem clean_checkPeriod {funcName : String} {period : Expr} :
    (checkPeriod funcName period s).Clean ↔ s.Clean ∧ PositivePeriod period := by
  cases period with
  | constant span value => cases value <;> simp [checkPeriod, PositivePeriod]
  | name | binOp | compare | ifExp | boolOp | unaryOp | call | other =>
    simp [checkPeriod, PositivePeriod]

theorem clean_validateRollingCall {span : Span} {funcName : String} {args : List Expr} :
    (validateRollingCall span funcName args s).Clean ↔
      s.Clean ∧ ∃ first period, args = [first, period] ∧ NamesSeries first ∧
        PositivePeriod period := by
  unfold validateRollingCall
  split
  · simp [clean_checkSeries, clean_checkPeriod, and_assoc]
  · rename_i hargs
    simp only [Findings.not_clean_addNodeError, false_iff]
    rintro ⟨-, first, period, rfl, -, -⟩
    exact hargs first period rfl

@[simp]
theorem clean_addSeriesVariable {args : List Expr} :
    (addSeriesVariable args s).Clean ↔ s.Clean := by
  unfold addSeriesVariable
  split <;> simp

theorem clean_collectList {es : List Expr}
    (h : ∀ e ∈ es, ∀ s, (collectAndValidateNodes none none e s).Clean ↔ s.Clean ∧ Formula e) :
    (collectList none none es s).Clean ↔ s.Clean ∧ ∀ e ∈ es, Formula e := by
  induction es generalizing s with
  | nil => simp [collectList]
  | cons first rest ih =>
    obtain ⟨hfirst, hrest⟩ := List.forall_mem_cons.mp h
    simp [collectList, ih hrest, hfirst, and_assoc]

theorem clean_collectComparisons {span : Span} {ops : List CmpOp} {comparators : List Expr}
    (h : ∀ e ∈ comparators, ∀ s,
      (collectAndValidateNodes none none e s).Clean ↔ s.Clean ∧ Formula e) :
    (collectComparisons none none span ops comparators s).Clean ↔
      s.Clean ∧ ∀ p ∈ ops.zip comparators, p.1 ∈ supportedComparisons ∧ Formula p.2 := by
  induction ops generalizing comparators s with
  | nil => simp [collectComparisons]
  | cons op ops ih =>
    cases comparators with
    | nil => simp [collectComparisons]
    | cons comparator comparators =>
      obtain ⟨hfirst, hrest⟩ := List.forall_mem_cons.mp h
      simp [collectComparisons, ih hrest, hfirst, and_assoc]

/-- The arguments of a call, of which a rolling call skips the first. -/
theorem clean_collectArgs {span : Span} {funcName : String} {args : List Expr}
    (h : ∀ e ∈ args, ∀ s, (collectAndValidateNodes none none e s).Clean ↔ s.Clean ∧ Formula e) :
    (if funcName ∈ rollingFunctions then
      collectAfterFirst none none args
        (addSeriesVariable args (validateRollingCall span funcName args s))
    else collectList none none args s).Clean ↔ s.Clean ∧ ArgsFit funcName args := by
  unfold ArgsFit
  split
  · cases args with
    | nil => simp [collectAfterFirst, clean_validateRollingCall]
    | cons first rest =>
      rw [collectAfterFirst, clean_collectList (List.forall_mem_cons.mp h).2,
        clean_addSeriesVariable, clean_validateRollingCall, and_assoc]
      apply and_congr_right
      intro _
      constructor
      · rintro ⟨⟨first, period, hargs, hfirst, hpositive⟩, hrest⟩
        obtain ⟨rfl, rfl⟩ := List.cons.inj hargs
        exact ⟨_, period, rfl, hfirst, hpositive, hrest period (by simp)⟩
      · rintro ⟨first, period, hargs, hfirst, hpositive, hperiod⟩
        obtain ⟨rfl, rfl⟩ := List.cons.inj hargs
        exact ⟨⟨_, period, rfl, hfirst, hpositive⟩, by simpa using hperiod⟩
  · exact clean_collectList h

/-- **Without lists of names, the reporting walk finds no error exactly on the formulas.** -/
theorem clean_collect (e : Expr) (s : Findings) :
    (collectAndValidateNodes none none e s).Clean ↔ s.Clean ∧ Formula e := by
  induction e using Expr.induction generalizing s with
  | constant span value => simp [collectAndValidateNodes]
  | name span id => simp [collectAndValidateNodes]
  | binOp span left op right hleft hright =>
    simp [collectAndValidateNodes, hleft, hright, and_assoc]
  | compare span left ops comparators hleft hcomparators =>
    simp [collectAndValidateNodes, hleft, clean_collectComparisons hcomparators, and_assoc]
  | ifExp span test body orelse htest hbody horelse =>
    simp [collectAndValidateNodes, htest, hbody, horelse, and_assoc]
  | boolOp span op values hvalues =>
    cases op <;> simp [collectAndValidateNodes, clean_collectList hvalues]
  | unaryOp span op operand hoperand =>
    simp [collectAndValidateNodes, hoperand, and_assoc]
  | call span func args keywords _ hargs =>
    cases func with
    | name funcSpan funcName =>
      simp [collectAndValidateNodes, clean_collectArgs hargs, and_assoc]
    | constant | binOp | compare | ifExp | boolOp | unaryOp | call | other =>
      simp only [collectAndValidateNodes, Findings.not_clean_addNodeError, false_iff, not_and]
      exact fun _ => not_formula_call (by simp)
  | other span kind => simp [collectAndValidateNodes]

end Reports

/-! ## §5 Positions do not matter -/

mutual

/-- The tree without the places of its nodes. -/
def unplaced : Expr → Expr
  | .constant _ value => .constant ⟨none, none, none, none⟩ value
  | .name _ id => .name ⟨none, none, none, none⟩ id
  | .binOp _ left op right => .binOp ⟨none, none, none, none⟩ (unplaced left) op (unplaced right)
  | .compare _ left ops comparators =>
    .compare ⟨none, none, none, none⟩ (unplaced left) ops (unplacedList comparators)
  | .ifExp _ test body orelse =>
    .ifExp ⟨none, none, none, none⟩ (unplaced test) (unplaced body) (unplaced orelse)
  | .boolOp _ op values => .boolOp ⟨none, none, none, none⟩ op (unplacedList values)
  | .unaryOp _ op operand => .unaryOp ⟨none, none, none, none⟩ op (unplaced operand)
  | .call _ func args keywords =>
    .call ⟨none, none, none, none⟩ (unplaced func) (unplacedList args) keywords
  | .other _ kind => .other ⟨none, none, none, none⟩ kind

def unplacedList : List Expr → List Expr
  | [] => []
  | first :: rest => unplaced first :: unplacedList rest

end

theorem unplacedList_eq_map (es : List Expr) : unplacedList es = es.map unplaced := by
  induction es with
  | nil => rfl
  | cons first rest ih => rw [unplacedList, ih, List.map_cons]

theorem namesSeries_unplaced {first : Expr} : NamesSeries (unplaced first) ↔ NamesSeries first := by
  cases first with
  | constant span value => cases value <;> rfl
  | name | binOp | compare | ifExp | boolOp | unaryOp | call | other => rfl

theorem positivePeriod_unplaced {period : Expr} :
    PositivePeriod (unplaced period) ↔ PositivePeriod period := by
  cases period with
  | constant span value => cases value <;> rfl
  | name | binOp | compare | ifExp | boolOp | unaryOp | call | other => rfl

theorem argsFit_unplaced {funcName : String} {args : List Expr}
    (h : ∀ e ∈ args, (Formula (unplaced e) ↔ Formula e)) :
    ArgsFit funcName (args.map unplaced) ↔ ArgsFit funcName args := by
  unfold ArgsFit
  split
  · constructor
    · rintro ⟨first, period, hargs, hfirst, hpositive, hperiod⟩
      obtain ⟨first, rest, rfl, rfl, hrest⟩ := List.map_eq_cons_iff.mp hargs
      obtain ⟨period, rfl, rfl⟩ := List.map_eq_singleton_iff.mp hrest
      exact ⟨first, period, rfl, namesSeries_unplaced.mp hfirst,
        positivePeriod_unplaced.mp hpositive, (h period (by simp)).mp hperiod⟩
    · rintro ⟨first, period, rfl, hfirst, hpositive, hperiod⟩
      exact ⟨unplaced first, unplaced period, rfl, namesSeries_unplaced.mpr hfirst,
        positivePeriod_unplaced.mpr hpositive, (h period (by simp)).mpr hperiod⟩
  · rw [List.forall_mem_map]
    exact forall₂_congr h

/-- Whether a tree is a formula does not depend on where its nodes stand. -/
theorem formula_unplaced (e : Expr) : Formula (unplaced e) ↔ Formula e := by
  induction e using Expr.induction with
  | constant span value => simp [unplaced]
  | name span id => simp [unplaced]
  | binOp span left op right hleft hright => simp [unplaced, hleft, hright]
  | compare span left ops comparators hleft hcomparators =>
    simp only [unplaced, unplacedList_eq_map, formula_compare, hleft, List.zip_map_right,
      List.forall_mem_map, Prod.map_fst, Prod.map_snd, id]
    apply and_congr_right
    intro _
    apply forall₂_congr
    intro p hp
    rw [hcomparators p.2 (List.of_mem_zip hp).2]
  | ifExp span test body orelse htest hbody horelse => simp [unplaced, htest, hbody, horelse]
  | boolOp span op values hvalues =>
    simp only [unplaced, unplacedList_eq_map, formula_boolOp, List.forall_mem_map]
    exact forall₂_congr hvalues
  | unaryOp span op operand hoperand => simp [unplaced, hoperand]
  | call span func args keywords _ hargs =>
    cases func with
    | name funcSpan funcName =>
      simp [unplaced, unplacedList_eq_map, argsFit_unplaced hargs]
    | constant | binOp | compare | ifExp | boolOp | unaryOp | call | other =>
      simp only [unplaced]
      exact iff_of_false (not_formula_call (by simp)) (not_formula_call (by simp))
  | other span kind => simp [unplaced]

/-! ## §6 Texts -/

section Texts

variable {astParse : String → Except SyntaxError Expr}

/-- The tree that a validator gets to see of a text. -/
def readTree (astParse : String → Except SyntaxError Expr) (text : String) : Option Expr :=
  if maxFormulaLength < text.length then none else (astParse text).toOption

/-- `validate` reads the text as it is. -/
theorem validate_eq_ok {text : String} :
    validate astParse text = .ok () ↔
      strip text = "" ∨ ∃ tree, readTree astParse text = some tree ∧ Formula tree := by
  unfold validate readTree
  by_cases hblank : strip text = ""
  · simp [hblank]
  · by_cases hlong : maxFormulaLength < text.length
    · simp [hblank, hlong]
    · cases hparse : astParse text with
      | error exc => simp [hblank, hlong, Except.toOption]
      | ok tree => simp [hblank, hlong, Except.toOption, validateNode_eq_ok]

theorem inspectTree_isValid {tree : Expr} :
    (inspectTree none none tree).isValid = true ↔ Formula tree := by
  have hclean := clean_collect tree Findings.empty
  simpa [inspectTree, Findings.Clean, Findings.empty] using hclean

/-- `inspect_semantics` reads the trimmed text. -/
theorem inspectSemantics_isValid {text : String} :
    (inspectSemantics astParse text none none).isValid = true ↔
      strip text = "" ∨ ∃ tree, readTree astParse (strip text) = some tree ∧ Formula tree := by
  unfold inspectSemantics readTree
  by_cases hblank : strip text = ""
  · simp [hblank]
  · by_cases hlong : maxFormulaLength < (strip text).length
    · simp [hblank, hlong, rejected]
    · cases hparse : astParse (strip text) with
      | error exc => simp [hblank, hlong, hparse, Except.toOption, rejected]
      | ok tree => simp [hblank, hlong, hparse, Except.toOption, inspectTree_isValid]

/-- What is known of `ast.parse`: positions apart, a text and the trimmed text have the same
    tree, if they have one. -/
def IgnoresMargins (astParse : String → Except SyntaxError Expr) : Prop :=
  ∀ text tree trimmed, astParse text = .ok tree → astParse (strip text) = .ok trimmed →
    unplaced tree = unplaced trimmed

/-- The white space around the text decides nothing: it makes no difference for the length
    limit and for `ast.parse`, or the one tree that there is is not a formula. -/
def MarginsDecideNothing (astParse : String → Except SyntaxError Expr) (text : String) : Prop :=
  strip text = "" ∨
    ((readTree astParse text).isSome ↔ (readTree astParse (strip text)).isSome) ∨
    ∀ tree, readTree astParse text = some tree ∨ readTree astParse (strip text) = some tree →
      ¬ Formula tree

theorem astParse_of_readTree {text : String} {tree : Expr}
    (h : readTree astParse text = some tree) : astParse text = .ok tree := by
  unfold readTree at h
  split at h
  · cases h
  · cases hparse : astParse text with
    | error exc => simp [hparse, Except.toOption] at h
    | ok parsed =>
      rw [hparse] at h
      exact congrArg _ (Option.some.inj h)

/-- Two trees of one text are formulas together. -/
theorem formula_iff_of_readTree (hparse : IgnoresMargins astParse) {text : String}
    {tree trimmed : Expr} (htree : readTree astParse text = some tree)
    (htrimmed : readTree astParse (strip text) = some trimmed) :
    Formula tree ↔ Formula trimmed := by
  rw [← formula_unplaced tree, ← formula_unplaced trimmed,
    hparse text tree trimmed (astParse_of_readTree htree) (astParse_of_readTree htrimmed)]

/-- The texts that pass are the same with and without trimming exactly when the margins decide
    nothing. -/
theorem readTree_formula_iff (hparse : IgnoresMargins astParse) {text : String}
    (hblank : strip text ≠ "") :
    ((∃ tree, readTree astParse text = some tree ∧ Formula tree) ↔
      ∃ tree, readTree astParse (strip text) = some tree ∧ Formula tree) ↔
      MarginsDecideNothing astParse text := by
  unfold MarginsDecideNothing
  cases htree : readTree astParse text with
  | none =>
    cases htrimmed : readTree astParse (strip text) with
    | none => simp
    | some trimmed => simp [hblank]
  | some tree =>
    cases htrimmed : readTree astParse (strip text) with
    | none => simp [hblank]
    | some trimmed => simp [formula_iff_of_readTree hparse htree htrimmed]

/-- `ValueError` is raised. -/
def Raises (outcome : Except String Unit) : Prop := outcome ≠ .ok ()

/-- **The two validators agree on trees, and on the texts whose margins decide nothing.**

    The walks over a tree always agree.  On a text the inspection trims first, while the strict
    validation measures and parses the text as it stands: they agree exactly when the text is blank,
    when both readings get through to a tree or neither does, or when the only one that gets through
    is no formula. -/
theorem validators_agree_iff (hparse : IgnoresMargins astParse) :
    (∀ tree s, s.Clean → (Raises (validateNode tree) ↔
      ∃ d ∈ (collectAndValidateNodes none none tree s).diagnostics, d.severity = .error)) ∧
    ∀ text, (Raises (validate astParse text) ↔
      (inspectSemantics astParse text none none).isValid = false) ↔
        MarginsDecideNothing astParse text := by
  constructor
  · intro tree s hclean
    have hcollect := clean_collect tree s
    rw [and_iff_right hclean, ← validateNode_eq_ok] at hcollect
    rw [Raises, ne_eq, ← hcollect]
    simp [Findings.Clean]
  · intro text
    rw [Raises, ← Bool.not_eq_true, not_iff_not, validate_eq_ok, inspectSemantics_isValid]
    by_cases hblank : strip text = ""
    · simp [hblank, MarginsDecideNothing]
    · simpa [hblank] using readTree_formula_iff hparse hblank

end Texts

/-- Where `close` stands when it is the whole text. -/
def closeTree : Expr := .name ⟨some 1, some 0, some 1, some 5⟩ "close"

/-- `ast.parse` on three texts: a line may be ended, but not indented. -/
def closeParse (text : String) : Except SyntaxError Expr :=
  if text = "close" ∨ text = "close\n" then .ok closeTree
  else if text = " close" then .error ⟨"unexpected indent", some 1, some 1⟩
  else .error ⟨"invalid syntax", some 1, some 1⟩

theorem closeParse_ok {text : String} {tree : Expr} (h : closeParse text = .ok tree) :
    tree = closeTree := by
  unfold closeParse at h
  split at h
  · exact (Except.ok.inj h).symm
  · split at h <;> cases h

/-- A line end is no matter, an indentation is. -/
theorem validators_agree_on_close :
    (Raises (validate closeParse "close\n") ↔
      (inspectSemantics closeParse "close\n" none none).isValid = false) ∧
    (∀ tree, Raises (validateNode tree) ↔
      ∃ d ∈ (collectAndValidateNodes none none tree Findings.empty).diagnostics,
        d.severity = .error) := by
  have hparse : IgnoresMargins closeParse := by
    intro text tree trimmed htree htrimmed
    rw [closeParse_ok htree, closeParse_ok htrimmed]
  have hagree := validators_agree_iff hparse
  refine ⟨(hagree.2 "close\n").mpr (.inr (.inl ?_)), ?_⟩
  · decide +kernel
  · intro tree
    exact hagree.1 tree Findings.empty (by simp [Findings.Clean, Findings.empty])

/-- The indented formula is valid for the editor and refused by the strict validator. -/
theorem indented_close_disagrees :
    validate closeParse " close" =
      .error "Invalid formula syntax: unexpected indent (<unknown>, line 1)" ∧
    (inspectSemantics closeParse " close" none none).isValid = true ∧
    ¬ (Raises (validate closeParse " close") ↔
      (inspectSemantics closeParse " close" none none).isValid = false) := by
  have hstrict : validate closeParse " close" =
      .error "Invalid formula syntax: unexpected indent (<unknown>, line 1)" := by rfl
  have hvalid : (inspectSemantics closeParse " close" none none).isValid = true := by
    decide +kernel
  refine ⟨hstrict, hvalid, ?_⟩
  rw [Raises, hstrict, hvalid]
  simp

end CryptoTrading.Expressions
