import Mathlib.Data.Finset.Sort
import Mathlib.Data.String.Basic
import Mathlib.Data.List.DropRight
import CryptoTrading.Expressions.Ast

/-!
# Inspection of a formula

`ExpressionParser.inspect_semantics` walks over the syntax tree of a formula once.  On the way
it collects the names that the formula uses and reports what a formula may not contain.

What passes is described without the walk by `Accepted`: the grammar of the formulas that may
be evaluated.  The walk reports no error only on trees of this grammar, with variables and
functions that are allowed and that it has collected (`accepted_of_isValid`).
-/

namespace CryptoTrading.Expressions

/-! ## §1 Reports -/

inductive DiagnosticSeverity where
  | error | warning | info
  deriving DecidableEq, Repr

structure ExpressionDiagnostic where
  message : String
  severity : DiagnosticSeverity
  startOffset : ℤ
  endOffset : ℤ
  startLine : ℤ
  startColumn : ℤ
  endLine : ℤ
  endColumn : ℤ
  deriving DecidableEq, Repr

inductive ExpressionValueType where
  | number | boolean | string | series | any
  deriving DecidableEq, Repr

structure ExpressionValidationResponse where
  isValid : Bool
  inferredType : Option ExpressionValueType
  diagnostics : List ExpressionDiagnostic
  referencedVariables : List String
  referencedFunctions : List String
  deriving DecidableEq, Repr

/-- What the walk has collected so far. -/
structure Findings where
  diagnostics : List ExpressionDiagnostic
  referencedVariables : Finset String
  referencedFunctions : Finset String

namespace Findings

/-- Nothing collected yet. -/
def empty : Findings := ⟨[], ∅, ∅⟩

/-- `referenced_variables.add`. -/
def addVariable (s : Findings) (name : String) : Findings :=
  { s with referencedVariables := insert name s.referencedVariables }

/-- `referenced_functions.add`. -/
def addFunction (s : Findings) (name : String) : Findings :=
  { s with referencedFunctions := insert name s.referencedFunctions }

/-- An error at a node; `width` is how far it reaches when the node does not know its end. -/
def addError (s : Findings) (span : Span) (width : ℕ) (message : String) : Findings :=
  let start := span.colOffset.getD 0
  let line := span.lineno.getD 1
  { s with diagnostics := s.diagnostics ++ [{
      message
      severity := .error
      startOffset := start
      endOffset := span.endColOffset.getD (start + width)
      startLine := line
      startColumn := start + 1
      endLine := span.endLineno.getD line
      endColumn := span.endColOffset.getD (start + 1 + width) + 1 }] }

/-- `_add_node_error`. -/
def addNodeError (s : Findings) (span : Span) (message : String) : Findings :=
  s.addError span 1 message

/-- An error when the condition of the source's guard holds. -/
def addNodeErrorIf (s : Findings) (guard : Prop) [Decidable guard] (span : Span)
    (message : String) : Findings :=
  if guard then s.addNodeError span message else s

/-- No list of names, or one with the name in it. -/
def Allows (allowed : Option (Finset String)) (name : String) : Prop :=
  ∀ names ∈ allowed, name ∈ names

instance (allowed : Option (Finset String)) (name : String) : Decidable (Allows allowed name) :=
  match allowed with
  | none => isTrue (by simp [Allows])
  | some names => decidable_of_iff (name ∈ names) (by simp [Allows])

/-- An error at the name when it is not on the list. -/
def checkName (s : Findings) (allowed : Option (Finset String)) (span : Span) (name : String)
    (message : String) : Findings :=
  if Allows allowed name then s else s.addError span name.length message

end Findings

/-! ## §2 The walk -/

/-- `_VALID_ROLLING_SERIES`. -/
def validRollingSeries : Finset String := {"high", "low", "close", "open", "volume"}

/-- The functions over a window of a series. -/
def rollingFunctions : List String := ["highest", "lowest"]

def supportedOperators : List Operator := [.add, .mult, .sub, .div]

def supportedComparisons : List CmpOp := [.gt, .lt, .gtE, .ltE, .eq, .notEq]

def supportedUnaryOps : List UnaryOp := [.uSub, .not]

/-- `_extract_series_name`. -/
def extractSeriesName : Expr → Option String
  | .name _ id => some id
  | .constant _ (.str text) => some text
  | _ => none

/-- The check of the series in `_validate_rolling_call`. -/
def checkSeries (funcName : String) (first : Expr) (s : Findings) : Findings :=
  let supported := ", ".intercalate validRollingSeries.sort
  let message :=
    s!"First argument to '{funcName}' must be a valid series name ({supported})."
  match extractSeriesName first with
  | some series => s.addNodeErrorIf (series ∉ validRollingSeries) first.span message
  | none => s.addNodeError first.span message

/-- The check of the period in `_validate_rolling_call`: only a literal is looked at. -/
def checkPeriod (funcName : String) (period : Expr) (s : Findings) : Findings :=
  match period with
  | .constant span (.int value) =>
    s.addNodeErrorIf (value ≤ 0) span s!"Period for '{funcName}' must be greater than 0."
  | .constant span _ => s.addNodeError span s!"Period for '{funcName}' must be an integer."
  | _ => s

/-- `_validate_rolling_call`. -/
def validateRollingCall (span : Span) (funcName : String) (args : List Expr) (s : Findings) :
    Findings :=
  match args with
  | [first, period] => checkPeriod funcName period (checkSeries funcName first s)
  | _ => s.addNodeError span s!"Function '{funcName}' expects 2 arguments: (series, period)."

/-- The first argument of a rolling call counts as a variable when it is a name. -/
def addSeriesVariable (args : List Expr) (s : Findings) : Findings :=
  match args with
  | .name _ id :: _ => s.addVariable id
  | _ => s

section Walk

variable (allowedVariables allowedFunctions : Option (Finset String))

mutual

/-- `_collect_and_validate_nodes`. -/
def collectAndValidateNodes : Expr → Findings → Findings
  | .constant _ _, s => s
  | .name span id, s =>
    (s.addVariable id).checkName allowedVariables span id
      s!"Unknown variable '{id}' in this context."
  | .call span (.name funcSpan funcName) args keywords, s =>
    let s := s.addNodeErrorIf (keywords ≠ []) span
      "Keyword arguments are not supported in formula expressions."
    let s := (s.addFunction funcName).checkName allowedFunctions funcSpan funcName
      s!"Unknown function '{funcName}'."
    if funcName ∈ rollingFunctions then
      -- the first argument names a series and is not visited
      collectAfterFirst args (addSeriesVariable args (validateRollingCall span funcName args s))
    else
      collectList args s
  | .call span _ _ _, s =>
    s.addNodeError span "Only simple function calls (e.g. 'rsi(14)') are supported."
  | .binOp span left op right, s =>
    let s := s.addNodeErrorIf (op ∉ supportedOperators) span
      s!"Unsupported binary operator: {op.typeName}"
    collectAndValidateNodes right (collectAndValidateNodes left s)
  | .compare span left ops comparators, s =>
    collectComparisons span ops comparators (collectAndValidateNodes left s)
  | .ifExp _ test body orelse, s =>
    collectAndValidateNodes orelse (collectAndValidateNodes body (collectAndValidateNodes test s))
  | .boolOp span op values, s =>
    let s := s.addNodeErrorIf (op ∉ [BoolOp.and, BoolOp.or]) span
      s!"Unsupported boolean operator: {op.typeName}"
    collectList values s
  | .unaryOp span op operand, s =>
    let s := s.addNodeErrorIf (op ∉ supportedUnaryOps) span
      s!"Unsupported unary operator: {op.typeName}"
    collectAndValidateNodes operand s
  | .other span kind, s =>
    s.addNodeError span s!"Unsupported expression node: {kind.typeName}"

/-- The loop over a list of nodes. -/
def collectList : List Expr → Findings → Findings
  | [], s => s
  | first :: rest, s => collectList rest (collectAndValidateNodes first s)

/-- The loop over `node.args[1:]`. -/
def collectAfterFirst : List Expr → Findings → Findings
  | [], s => s
  | _ :: rest, s => collectList rest s

/-- The loop over `zip(node.ops, node.comparators)`. -/
def collectComparisons (span : Span) : List CmpOp → List Expr → Findings → Findings
  | op :: ops, comparator :: comparators, s =>
    let s := s.addNodeErrorIf (op ∉ supportedComparisons) span
      s!"Unsupported comparison operator: {op.typeName}"
    collectComparisons span ops comparators (collectAndValidateNodes comparator s)
  | _, _, s => s

end

end Walk

/-! ## §3 The inspection -/

/-- `_infer_node_type`. -/
def inferNodeType : Expr → ExpressionValueType
  | .compare .. => .boolean
  | .boolOp .. => .boolean
  | .unaryOp _ .not _ => .boolean
  | .constant _ (.bool _) => .boolean
  | .constant _ (.str _) => .string
  | .ifExp _ _ body _ => inferNodeType body
  | _ => .number

/-- Whitespace, as `str.strip` has it. -/
def isSpace (c : Char) : Bool :=
  c.toNat ∈ [0x20, 0x85, 0xa0, 0x1680, 0x2028, 0x2029, 0x202f, 0x205f, 0x3000] ||
    (0x09 ≤ c.toNat && c.toNat ≤ 0x0d) || (0x1c ≤ c.toNat && c.toNat ≤ 0x1f) ||
    (0x2000 ≤ c.toNat && c.toNat ≤ 0x200a)

/-- `str.strip`. -/
def strip (text : String) : String :=
  String.ofList ((text.toList.dropWhile isSpace).rdropWhile isSpace)

/-- `SyntaxError`. -/
structure SyntaxError where
  msg : String
  offset : Option ℤ
  lineno : Option ℤ

/-- `_MAX_FORMULA_LENGTH`. -/
def maxFormulaLength : ℕ := 1000

/-- `value or 1`. -/
def orOne (value : Option ℤ) : ℤ :=
  (value.filter fun v => v ≠ 0).getD 1

/-- The answer when there is no tree to look at. -/
def rejected (diagnostic : ExpressionDiagnostic) : ExpressionValidationResponse :=
  ⟨false, none, [diagnostic], [], []⟩

/-- The part of `inspect_semantics` from the syntax tree on. -/
def inspectTree (allowedVariables allowedFunctions : Option (Finset String)) (tree : Expr) :
    ExpressionValidationResponse :=
  let s := collectAndValidateNodes allowedVariables allowedFunctions tree Findings.empty
  { isValid := !s.diagnostics.any fun d => d.severity = .error
    inferredType := some (inferNodeType tree)
    diagnostics := s.diagnostics
    referencedVariables := s.referencedVariables.sort
    referencedFunctions := s.referencedFunctions.sort }

/-- `inspect_semantics`. -/
def inspectSemantics (astParse : String → Except SyntaxError Expr) (expression : String)
    (allowedVariables allowedFunctions : Option (Finset String)) : ExpressionValidationResponse :=
  let cleanExpr := strip expression
  -- a blank formula is valid
  if cleanExpr = "" then ⟨true, none, [], [], []⟩
  else if maxFormulaLength < cleanExpr.length then
    rejected {
      message := s!"Formula exceeds maximum length of {maxFormulaLength} characters " ++
        s!"(got {cleanExpr.length})."
      severity := .error
      startOffset := 0
      endOffset := cleanExpr.length
      startLine := 1
      startColumn := 1
      endLine := 1
      endColumn := cleanExpr.length + 1 }
  else
    match astParse cleanExpr with
    | .error exc =>
      -- the position of the error, as far as the parser knows it
      let col := orOne exc.offset
      let line := orOne exc.lineno
      rejected {
        message := s!"Syntax Error: {exc.msg}"
        severity := .error
        startOffset := max 0 (col - 1)
        endOffset := col
        startLine := line
        startColumn := col
        endLine := line
        endColumn := col + 1 }
    | .ok tree => inspectTree allowedVariables allowedFunctions tree

/-- The syntax tree of a formula; a blank formula has none. -/
def formulaTree (astParse : String → Except SyntaxError Expr) (expression : String) :
    Option Expr :=
  if strip expression = "" then none else (astParse (strip expression)).toOption

/-- A valid formula is valid by its tree. -/
theorem inspectSemantics_of_isValid {astParse : String → Except SyntaxError Expr}
    {expression : String} {allowedVariables allowedFunctions : Option (Finset String)}
    {tree : Expr} (htree : formulaTree astParse expression = some tree)
    (hvalid : (inspectSemantics astParse expression allowedVariables allowedFunctions).isValid) :
    inspectSemantics astParse expression allowedVariables allowedFunctions =
      inspectTree allowedVariables allowedFunctions tree := by
  simp only [formulaTree] at htree
  split at htree
  · cases htree
  · rename_i hblank
    simp only [inspectSemantics, hblank, if_false] at hvalid ⊢
    split
    · rename_i hlong
      simp [hlong, rejected] at hvalid
    · cases hparse : astParse (strip expression) with
      | error exc =>
        rw [hparse] at htree
        cases htree
      | ok parsed =>
        rw [hparse] at htree
        obtain rfl := Option.some.inj htree
        rfl

/-! ## §4 The grammar of formulas -/

/-- A formula over variables with `V` and functions with `F`.  The first argument of a rolling
    function is the name of a series and no subformula. -/
inductive Accepted (V F : String → Prop) : Expr → Prop where
  | constant (span : Span) (value : Constant) : Accepted V F (.constant span value)
  | name (span : Span) {id : String} (hvar : V id) : Accepted V F (.name span id)
  | binOp (span : Span) {left right : Expr} {op : Operator} (hop : op ∈ supportedOperators)
      (hleft : Accepted V F left) (hright : Accepted V F right) :
      Accepted V F (.binOp span left op right)
  | compare (span : Span) {left : Expr} {ops : List CmpOp} {comparators : List Expr}
      (hleft : Accepted V F left)
      (hops : ∀ p ∈ ops.zip comparators, p.1 ∈ supportedComparisons)
      (hcomparators : ∀ p ∈ ops.zip comparators, Accepted V F p.2) :
      Accepted V F (.compare span left ops comparators)
  | ifExp (span : Span) {test body orelse : Expr} (htest : Accepted V F test)
      (hbody : Accepted V F body) (horelse : Accepted V F orelse) :
      Accepted V F (.ifExp span test body orelse)
  | boolOp (span : Span) (op : BoolOp) {values : List Expr}
      (hvalues : ∀ e ∈ values, Accepted V F e) : Accepted V F (.boolOp span op values)
  | unaryOp (span : Span) {op : UnaryOp} {operand : Expr} (hop : op ∈ supportedUnaryOps)
      (hoperand : Accepted V F operand) : Accepted V F (.unaryOp span op operand)
  | call (span funcSpan : Span) {funcName : String} {args : List Expr} (hfunc : F funcName)
      (hplain : funcName ∉ rollingFunctions) (hargs : ∀ e ∈ args, Accepted V F e) :
      Accepted V F (.call span (.name funcSpan funcName) args [])
  | rolling (span funcSpan : Span) {funcName series : String} {first period : Expr}
      (hfunc : F funcName) (hrolling : funcName ∈ rollingFunctions)
      (hfirst : extractSeriesName first = some series) (hseries : series ∈ validRollingSeries)
      (hperiod : Accepted V F period) :
      Accepted V F (.call span (.name funcSpan funcName) [first, period] [])

theorem Accepted.mono {V V' F F' : String → Prop} (hV : ∀ name, V name → V' name)
    (hF : ∀ name, F name → F' name) {e : Expr} (h : Accepted V F e) : Accepted V' F' e := by
  induction h with
  | constant span value => exact .constant span value
  | name span hvar => exact .name span (hV _ hvar)
  | binOp span hop _ _ hleft hright => exact .binOp span hop hleft hright
  | compare span _ hops _ hleft hcomparators => exact .compare span hleft hops hcomparators
  | ifExp span _ _ _ htest hbody horelse => exact .ifExp span htest hbody horelse
  | boolOp span op _ hvalues => exact .boolOp span op hvalues
  | unaryOp span hop _ hoperand => exact .unaryOp span hop hoperand
  | call span funcSpan hfunc hplain _ hargs =>
    exact .call span funcSpan (hF _ hfunc) hplain hargs
  | rolling span funcSpan hfunc hrolling hfirst hseries _ hperiod =>
    exact .rolling span funcSpan (hF _ hfunc) hrolling hfirst hseries hperiod

/-! ## §5 What the walk has collected -/

namespace Findings

/-- No error has been reported. -/
def Clean (s : Findings) : Prop := ∀ d ∈ s.diagnostics, d.severity ≠ .error

/-- The walk has gone on from `s` to `s'`. -/
structure Extends (s s' : Findings) : Prop where
  diagnostics : s.diagnostics ⊆ s'.diagnostics
  referencedVariables : s.referencedVariables ⊆ s'.referencedVariables
  referencedFunctions : s.referencedFunctions ⊆ s'.referencedFunctions

variable {s s' s'' : Findings}

theorem Extends.refl (s : Findings) : s.Extends s :=
  ⟨List.Subset.refl _, Finset.Subset.refl _, Finset.Subset.refl _⟩

theorem Extends.trans (h : s.Extends s') (h' : s'.Extends s'') : s.Extends s'' :=
  ⟨List.Subset.trans h.diagnostics h'.diagnostics,
    Finset.Subset.trans h.referencedVariables h'.referencedVariables,
    Finset.Subset.trans h.referencedFunctions h'.referencedFunctions⟩

theorem Extends.clean (h : s.Extends s') (hclean : s'.Clean) : s.Clean :=
  fun d hd => hclean d (h.diagnostics hd)

/-- A fact about the findings that outlives every further step of the walk. -/
def Stable (Q : Findings → Prop) : Prop := ∀ s s', Extends s s' → Q s → Q s'

/-- A part of the walk that only adds to the findings, and after which `Q` holds unless an
    error has been reported. -/
def Establishes (walk : Findings → Findings) (Q : Findings → Prop) : Prop :=
  ∀ s, s.Extends (walk s) ∧ ((walk s).Clean → Q (walk s))

variable {walk walk' : Findings → Findings} {Q Q' : Findings → Prop}

theorem Establishes.imp (h : Establishes walk Q) (himp : ∀ s, Q s → Q' s) :
    Establishes walk Q' :=
  fun s => ⟨(h s).1, fun hclean => himp _ ((h s).2 hclean)⟩

/-- One part after the other: the first fact outlives the second part. -/
theorem Establishes.andThen (h : Establishes walk Q) (hstable : Stable Q)
    (h' : Establishes walk' Q') :
    Establishes (fun s => walk' (walk s)) (fun s => Q s ∧ Q' s) := by
  intro s
  obtain ⟨hextends, hfirst⟩ := h s
  obtain ⟨hextends', hsecond⟩ := h' (walk s)
  refine ⟨hextends.trans hextends', ?_⟩
  intro hclean
  exact ⟨hstable _ _ hextends' (hfirst (hextends'.clean hclean)), hsecond hclean⟩

theorem stable_const (p : Prop) : Stable fun _ => p := fun _ _ _ h => h

theorem Stable.and (h : Stable Q) (h' : Stable Q') : Stable fun s => Q s ∧ Q' s :=
  fun s s' hextends hboth => ⟨h s s' hextends hboth.1, h' s s' hextends hboth.2⟩

theorem establishes_id : Establishes id fun _ => True := fun s => ⟨Extends.refl s, fun _ => trivial⟩

theorem establishes_addVariable (name : String) :
    Establishes (fun s => s.addVariable name) fun s => name ∈ s.referencedVariables :=
  fun _ => ⟨⟨List.Subset.refl _, Finset.subset_insert _ _, Finset.Subset.refl _⟩,
    fun _ => Finset.mem_insert_self _ _⟩

theorem establishes_addFunction (name : String) :
    Establishes (fun s => s.addFunction name) fun s => name ∈ s.referencedFunctions :=
  fun _ => ⟨⟨List.Subset.refl _, Finset.Subset.refl _, Finset.subset_insert _ _⟩,
    fun _ => Finset.mem_insert_self _ _⟩

theorem stable_mem_variables (name : String) : Stable fun s => name ∈ s.referencedVariables :=
  fun _ _ hextends hname => hextends.referencedVariables hname

theorem stable_mem_functions (name : String) : Stable fun s => name ∈ s.referencedFunctions :=
  fun _ _ hextends hname => hextends.referencedFunctions hname

/-- After an error there is nothing left to establish. -/
theorem establishes_addError (span : Span) (width : ℕ) (message : String) :
    Establishes (fun s => s.addError span width message) Q := by
  intro s
  refine ⟨⟨List.subset_append_left _ _, Finset.Subset.refl _, Finset.Subset.refl _⟩, ?_⟩
  intro hclean
  exfalso
  apply hclean _ (List.mem_append_right _ List.mem_cons_self)
  rfl

/-- A guard that reports an error has not held. -/
theorem establishes_addNodeErrorIf (guard : Prop) [Decidable guard] (span : Span)
    (message : String) :
    Establishes (fun s => s.addNodeErrorIf guard span message) fun _ => ¬ guard := by
  by_cases hguard : guard
  · simp only [addNodeErrorIf, if_pos hguard]
    exact establishes_addError span 1 message
  · simp only [addNodeErrorIf, if_neg hguard]
    exact establishes_id.imp fun _ _ => hguard

theorem establishes_checkName (allowed : Option (Finset String)) (span : Span)
    (name message : String) :
    Establishes (fun s => s.checkName allowed span name message) fun _ => Allows allowed name := by
  by_cases hname : Allows allowed name
  · simp only [checkName, if_pos hname]
    exact establishes_id.imp fun _ _ => hname
  · simp only [checkName, if_neg hname]
    exact establishes_addError span name.length message

end Findings

/-! ## §6 The walk accepts formulas only -/

section Acceptance

open Findings

/-- What a rolling call must look like. -/
theorem establishes_validateRollingCall (span : Span) (funcName : String) (args : List Expr) :
    Establishes (validateRollingCall span funcName args) fun _ =>
      ∃ first period series, args = [first, period] ∧ extractSeriesName first = some series ∧
        series ∈ validRollingSeries := by
  unfold validateRollingCall
  split
  · rename_i first period
    have hperiod : Establishes (checkPeriod funcName period) fun _ => True := by
      unfold checkPeriod
      split
      · exact (establishes_addNodeErrorIf _ _ _).imp fun _ _ => trivial
      · exact establishes_addError _ 1 _
      · exact establishes_id
    have hseries : Establishes (checkSeries funcName first) fun _ =>
        ∃ series, extractSeriesName first = some series ∧ series ∈ validRollingSeries := by
      unfold checkSeries
      split
      · rename_i series hname
        exact (establishes_addNodeErrorIf _ _ _).imp fun _ h => ⟨series, hname, not_not.mp h⟩
      · exact establishes_addError _ 1 _
    apply (hseries.andThen (stable_const _) hperiod).imp
    rintro s ⟨⟨series, hname, hmem⟩, -⟩
    exact ⟨first, period, series, rfl, hname, hmem⟩
  · exact establishes_addError _ 1 _

theorem establishes_addSeriesVariable (args : List Expr) :
    Establishes (addSeriesVariable args) fun _ => True := by
  unfold addSeriesVariable
  split
  · exact (establishes_addVariable _).imp fun _ _ => trivial
  · exact establishes_id

variable (allowedVariables allowedFunctions : Option (Finset String))

/-- A formula whose names are allowed and collected. -/
def AcceptedIn (e : Expr) (s : Findings) : Prop :=
  Accepted (fun name => Allows allowedVariables name ∧ name ∈ s.referencedVariables)
    (fun name => Allows allowedFunctions name ∧ name ∈ s.referencedFunctions) e

variable {allowedVariables allowedFunctions}

theorem stable_acceptedIn (e : Expr) :
    Stable (AcceptedIn allowedVariables allowedFunctions e) := by
  intro s s' hextends h
  apply h.mono
  · exact fun name hname => ⟨hname.1, hextends.referencedVariables hname.2⟩
  · exact fun name hname => ⟨hname.1, hextends.referencedFunctions hname.2⟩

theorem establishes_collectList {es : List Expr}
    (h : ∀ e ∈ es, Establishes (collectAndValidateNodes allowedVariables allowedFunctions e)
      (AcceptedIn allowedVariables allowedFunctions e)) :
    Establishes (collectList allowedVariables allowedFunctions es) fun s =>
      ∀ e ∈ es, AcceptedIn allowedVariables allowedFunctions e s := by
  induction es with
  | nil => exact establishes_id.imp (by simp)
  | cons first rest ih =>
    obtain ⟨hfirst, hrest⟩ := List.forall_mem_cons.mp h
    simp only [collectList]
    apply (hfirst.andThen (stable_acceptedIn first) (ih hrest)).imp
    intro s hboth
    exact List.forall_mem_cons.mpr hboth

theorem establishes_collectComparisons (span : Span) {ops : List CmpOp} {comparators : List Expr}
    (h : ∀ e ∈ comparators,
      Establishes (collectAndValidateNodes allowedVariables allowedFunctions e)
        (AcceptedIn allowedVariables allowedFunctions e)) :
    Establishes (collectComparisons allowedVariables allowedFunctions span ops comparators)
      fun s => ∀ p ∈ ops.zip comparators, p.1 ∈ supportedComparisons ∧
        AcceptedIn allowedVariables allowedFunctions p.2 s := by
  induction ops generalizing comparators with
  | nil =>
    have hid : collectComparisons allowedVariables allowedFunctions span [] comparators = id := by
      cases comparators <;> rfl
    rw [hid]
    exact establishes_id.imp (by simp)
  | cons op ops ih =>
    cases comparators with
    | nil => exact establishes_id.imp (by simp)
    | cons comparator comparators =>
      obtain ⟨hfirst, hrest⟩ := List.forall_mem_cons.mp h
      simp only [collectComparisons, List.zip_cons_cons]
      have hop := establishes_addNodeErrorIf (op ∉ supportedComparisons) span
        s!"Unsupported comparison operator: {op.typeName}"
      have hstep := hop.andThen (stable_const _) hfirst
      apply (hstep.andThen ((stable_const _).and (stable_acceptedIn comparator)) (ih hrest)).imp
      rintro s ⟨⟨hop, haccepted⟩, htail⟩
      exact List.forall_mem_cons.mpr ⟨⟨not_not.mp hop, haccepted⟩, htail⟩

theorem establishes_call (span funcSpan : Span) (funcName : String)
    (keywords : List (Option String)) {args : List Expr}
    (hargs : ∀ e ∈ args,
      Establishes (collectAndValidateNodes allowedVariables allowedFunctions e)
        (AcceptedIn allowedVariables allowedFunctions e)) :
    Establishes (collectAndValidateNodes allowedVariables allowedFunctions
        (.call span (.name funcSpan funcName) args keywords))
      (AcceptedIn allowedVariables allowedFunctions
        (.call span (.name funcSpan funcName) args keywords)) := by
  have hkeywords := establishes_addNodeErrorIf (keywords ≠ []) span
    "Keyword arguments are not supported in formula expressions."
  have hname := (establishes_addFunction funcName).andThen (stable_mem_functions funcName)
    (establishes_checkName allowedFunctions funcSpan funcName s!"Unknown function '{funcName}'.")
  have hhead := hkeywords.andThen (stable_const _) hname
  have hstable := (stable_const (¬ keywords ≠ [])).and
    ((stable_mem_functions funcName).and (stable_const (Allows allowedFunctions funcName)))
  simp only [collectAndValidateNodes]
  split
  · -- a rolling call, of which only the period is visited
    rename_i hrolling
    have hrest : Establishes (collectAfterFirst allowedVariables allowedFunctions args) fun s =>
        ∀ e ∈ args.tail, AcceptedIn allowedVariables allowedFunctions e s := by
      cases args with
      | nil => exact establishes_id.imp (by simp)
      | cons first rest => exact establishes_collectList (List.forall_mem_cons.mp hargs).2
    have htail := ((establishes_validateRollingCall span funcName args).andThen (stable_const _)
      (establishes_addSeriesVariable args)).andThen ((stable_const _).and (stable_const _)) hrest
    apply (hhead.andThen hstable htail).imp
    rintro s ⟨⟨hkeywords, hmem, hallowed⟩,
      ⟨⟨first, period, series, rfl, hfirst, hseries⟩, -⟩, hperiod⟩
    rw [not_not.mp hkeywords]
    exact .rolling span funcSpan ⟨hallowed, hmem⟩ hrolling hfirst hseries
      (hperiod period List.mem_cons_self)
  · rename_i hplain
    apply (hhead.andThen hstable (establishes_collectList hargs)).imp
    rintro s ⟨⟨hkeywords, hmem, hallowed⟩, haccepted⟩
    rw [not_not.mp hkeywords]
    exact .call span funcSpan ⟨hallowed, hmem⟩ hplain haccepted

/-- **The walk accepts formulas only.** -/
theorem establishes_collect (e : Expr) :
    Establishes (collectAndValidateNodes allowedVariables allowedFunctions e)
      (AcceptedIn allowedVariables allowedFunctions e) := by
  -- along the tree; each part must hold of the final state, so parts must be stable
  induction e using Expr.induction with
  | constant span value => exact establishes_id.imp fun _ _ => .constant span value
  | name span id =>
    simp only [collectAndValidateNodes]
    apply ((establishes_addVariable id).andThen (stable_mem_variables id)
      (establishes_checkName allowedVariables span id _)).imp
    rintro s ⟨hmem, hallowed⟩
    exact .name span ⟨hallowed, hmem⟩
  | binOp span left op right hleft hright =>
    simp only [collectAndValidateNodes]
    have hop := establishes_addNodeErrorIf (op ∉ supportedOperators) span
      s!"Unsupported binary operator: {op.typeName}"
    have hboth := hleft.andThen (stable_acceptedIn left) hright
    apply (hop.andThen (stable_const _) hboth).imp
    rintro s ⟨hop, hleft, hright⟩
    exact .binOp span (not_not.mp hop) hleft hright
  | compare span left ops comparators hleft hcomparators =>
    simp only [collectAndValidateNodes]
    apply (hleft.andThen (stable_acceptedIn left)
      (establishes_collectComparisons span hcomparators)).imp
    rintro s ⟨hleft, hpairs⟩
    exact .compare span hleft (fun p hp => (hpairs p hp).1) (fun p hp => (hpairs p hp).2)
  | ifExp span test body orelse htest hbody horelse =>
    simp only [collectAndValidateNodes]
    have hbranches := hbody.andThen (stable_acceptedIn body) horelse
    apply (htest.andThen (stable_acceptedIn test) hbranches).imp
    rintro s ⟨htest, hbody, horelse⟩
    exact .ifExp span htest hbody horelse
  | boolOp span op values hvalues =>
    simp only [collectAndValidateNodes]
    have hop := establishes_addNodeErrorIf (op ∉ [BoolOp.and, BoolOp.or]) span
      s!"Unsupported boolean operator: {op.typeName}"
    apply (hop.andThen (stable_const _) (establishes_collectList hvalues)).imp
    rintro s ⟨-, hvalues⟩
    exact .boolOp span op hvalues
  | unaryOp span op operand hoperand =>
    simp only [collectAndValidateNodes]
    have hop := establishes_addNodeErrorIf (op ∉ supportedUnaryOps) span
      s!"Unsupported unary operator: {op.typeName}"
    apply (hop.andThen (stable_const _) hoperand).imp
    rintro s ⟨hop, hoperand⟩
    exact .unaryOp span (not_not.mp hop) hoperand
  | call span func args keywords _ hargs =>
    -- only a name can be called
    cases func with
    | name funcSpan funcName =>
      exact establishes_call span funcSpan funcName keywords hargs
    | constant | binOp | compare | ifExp | boolOp | unaryOp | call | other =>
      exact establishes_addError span 1 _
  | other span kind => exact establishes_addError span 1 _

end Acceptance

/-- A valid tree is a formula over allowed names that the answer lists. -/
theorem accepted_of_isValid {allowedVariables allowedFunctions : Option (Finset String)}
    {tree : Expr} (hvalid : (inspectTree allowedVariables allowedFunctions tree).isValid) :
    let response := inspectTree allowedVariables allowedFunctions tree
    Accepted
      (fun name => Findings.Allows allowedVariables name ∧ name ∈ response.referencedVariables)
      (fun name => Findings.Allows allowedFunctions name ∧ name ∈ response.referencedFunctions)
      tree := by
  have hclean :
      (collectAndValidateNodes allowedVariables allowedFunctions tree Findings.empty).Clean := by
    simpa [inspectTree, Findings.Clean] using hvalid
  simpa [inspectTree, AcceptedIn] using (establishes_collect tree Findings.empty).2 hclean

end CryptoTrading.Expressions
