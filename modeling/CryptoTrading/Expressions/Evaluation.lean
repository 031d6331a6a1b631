import CryptoTrading.Lib.Traced
import CryptoTrading.Expressions.Inspection

/-!
# Evaluation of a formula

`ExpressionParser._evaluate` walks over the syntax tree by itself; it neither asks whether the
formula has been inspected nor which names are allowed.  It hands every name to the context and
every operator to the values, and both are code from outside: they may fail, and they may change
a state between one call and the next.

A formula that has passed the inspection is sandboxed all the same.  The evaluator never runs
into a node of its own that it cannot evaluate, it asks the context only for names that are
allowed and listed in the answer of the inspection, and a rolling function gets the name of a
series first.
-/

namespace CryptoTrading.Expressions

open CryptoTrading.Lib

/-! ## §1 The code outside -/

/-- `ExpressionContext`, over a state `σ`, values `V` and exceptions `E`. -/
structure ExpressionContext (σ V E : Type) where
  resolveVariable : String → σ → Except E V × σ
  callFunction : String → List V → σ → Except E V × σ

/-- What Python does with values; the operators run the code of the values' classes. -/
structure PythonValues (σ V E : Type) where
  literal : Constant → V
  isNone : V → Bool
  arithmetic : Operator → V → V → σ → Except E V × σ
  negative : V → σ → Except E V × σ
  comparison : CmpOp → V → V → σ → Except E V × σ
  truth : V → σ → Except E Bool × σ
  str : V → σ → Except E String × σ

/-- What is done with values. -/
inductive Operation where
  | arithmetic (op : Operator)
  | negative
  | comparison (op : CmpOp)
  /-- The truth value of `if`, `not`, `and`, `or` and of a comparison in a chain. -/
  | truth
  | str
  deriving DecidableEq, Repr

/-- Why an evaluation ends without a value. -/
inductive EvalError (E : Type) where
  /-- The evaluator raises `ValueError` itself. -/
  | valueError (message : String)
  /-- A function of the context raises. -/
  | context (exc : E)
  /-- An operation on values raises. -/
  | operation (op : Operation) (exc : E)
  deriving DecidableEq, Repr

/-- A call that the evaluator makes to the context. -/
inductive ContextCall (V : Type) where
  | resolveVariable (name : String)
  | callFunction (name : String) (args : List V)
  deriving DecidableEq, Repr

/-! ## §2 The evaluator -/

/-- What an evaluation does: its calls to the context, and its value or its error. -/
abbrev Evaluation (σ V E α : Type) : Type := Traced σ (ContextCall V) (EvalError E) α

section Evaluator

variable {σ V E : Type} (context : ExpressionContext σ V E) (values : PythonValues σ V E)

def resolveVariable (name : String) : Evaluation σ V E V := do
  Traced.record (.resolveVariable name)
  Traced.foreign .context (context.resolveVariable name)

def callFunction (name : String) (args : List V) : Evaluation σ V E V := do
  Traced.record (.callFunction name args)
  Traced.foreign .context (context.callFunction name args)

/-- `bool(value)`. -/
def truth (value : V) : Evaluation σ V E Bool :=
  Traced.foreign (.operation .truth) (values.truth value)

/-- A boolean as a value. -/
def ofBool (b : Bool) : V := values.literal (.bool b)

/-- The operators of `_evaluate_binop`. -/
def applyBinop (left : V) (op : Operator) (right : V) : Evaluation σ V E V :=
  if op ∈ supportedOperators then
    Traced.foreign (.operation (.arithmetic op)) (values.arithmetic op left right)
  else Traced.raise (.valueError "Unsupported expression node: BinOp")

/-- `_apply_comparison`. -/
def applyComparison (left : V) (op : CmpOp) (right : V) : Evaluation σ V E V :=
  -- None is compared by identity only
  if values.isNone left || values.isNone right then
    match op with
    | .eq => pure (ofBool values (values.isNone left && values.isNone right))
    | .notEq => pure (ofBool values !(values.isNone left && values.isNone right))
    | _ => pure (ofBool values false)
  else if op ∈ supportedComparisons then
    Traced.foreign (.operation (.comparison op)) (values.comparison op left right)
  else pure (ofBool values false)

/-- `all`. -/
def all : List V → Evaluation σ V E Bool
  | [] => pure true
  | first :: rest => do if ← truth values first then all rest else pure false

/-- `any`. -/
def any : List V → Evaluation σ V E Bool
  | [] => pure false
  | first :: rest => do if ← truth values first then pure true else any rest

/-- The operators of `_evaluate_boolop`. -/
def applyBoolop (op : BoolOp) (operands : List V) : Evaluation σ V E V :=
  match op with
  | .and => do return ofBool values (← all values operands)
  | .or => do return ofBool values (← any values operands)

/-- The operators of `_evaluate_unaryop`. -/
def applyUnaryop (op : UnaryOp) (operand : V) : Evaluation σ V E V :=
  match op with
  | .uSub => Traced.foreign (.operation .negative) (values.negative operand)
  | .not => do return ofBool values !(← truth values operand)
  | _ => pure (values.literal .none)

mutual

/-- `_evaluate`. -/
def evaluate : Expr → Evaluation σ V E V
  | .constant _ value => pure (values.literal value)
  | .name _ id => resolveVariable context id
  | .binOp _ left op right => do
    let left ← evaluate left
    let right ← evaluate right
    applyBinop values left op right
  | .compare _ left ops comparators => do
    let left ← evaluate left
    evaluateComparisons ops comparators left
  | .ifExp _ test body orelse => do
    let test ← evaluate test
    if ← truth values test then evaluate body else evaluate orelse
  | .boolOp _ op operands => do
    -- all operands are evaluated before the first one is tested
    let operands ← evaluateList operands
    applyBoolop values op operands
  | .unaryOp _ op operand => do
    let operand ← evaluate operand
    applyUnaryop values op operand
  | .call _ (.name _ funcName) args keywords =>
    if keywords ≠ [] then Traced.raise (.valueError "Keyword arguments are not supported")
    else if funcName ∈ rollingFunctions then evaluateRolling funcName args
    else do
      let args ← evaluateList args
      callFunction context funcName args
  | .call .. => Traced.raise (.valueError "Only simple function calls are supported")
  | .other _ kind =>
    Traced.raise (.valueError s!"Unsupported expression node: {kind.typeName}")

/-- `[self._evaluate(e, context) for e in es]`. -/
def evaluateList : List Expr → Evaluation σ V E (List V)
  | [] => pure []
  | first :: rest => do
    let value ← evaluate first
    let others ← evaluateList rest
    return value :: others

/-- The part of `_evaluate_call` for `highest` and `lowest`; without arguments it is as for
    every other function. -/
def evaluateRolling (funcName : String) : List Expr → Evaluation σ V E V
  | [] => callFunction context funcName []
  | first :: rest => do
    let seriesName ← match extractSeriesName first with
      | some name => pure name
      | none => do
        -- only for formulas that do not pass the inspection
        let series ← evaluate first
        Traced.foreign (.operation .str) (values.str series)
    let restArgs ← evaluateList rest
    callFunction context funcName (values.literal (.str seriesName) :: restArgs)

/-- The loop of `_evaluate_compare`. -/
def evaluateComparisons : List CmpOp → List Expr → V → Evaluation σ V E V
  | op :: ops, comparator :: comparators, left => do
    let right ← evaluate comparator
    let holds ← applyComparison values left op right
    if ← truth values holds then evaluateComparisons ops comparators right
    else pure (ofBool values false)
  | _, _, _ => pure (ofBool values true)

end

end Evaluator

/-! ## §3 The sandbox -/

/-- The error comes from the context or from an operation on values, and not from the
    evaluator. -/
def EvalError.FromOutside {E : Type} : EvalError E → Prop
  | .valueError _ => False
  | .context _ => True
  | .operation _ _ => True

section Safety

variable {σ V E : Type} (values : PythonValues σ V E) (Var Fun : String → Prop)

/-- A call to the context that a formula over variables with `Var` and functions with `Fun` may
    make. -/
def ContextCall.Permitted : ContextCall V → Prop
  | .resolveVariable name => Var name
  | .callFunction name args => Fun name ∧ (name ∈ rollingFunctions →
      ∃ series ∈ validRollingSeries, ∃ rest, args = values.literal (.str series) :: rest)

variable {values Var Fun} {context : ExpressionContext σ V E}

/-- Only permitted calls, and no error of its own. -/
def SafeEvaluation (values : PythonValues σ V E) (Var Fun : String → Prop) {α : Type}
    (m : Evaluation σ V E α) : Prop :=
  Traced.Safe (ContextCall.Permitted values Var Fun) EvalError.FromOutside m

theorem safe_resolveVariable {name : String} (hname : Var name) :
    SafeEvaluation values Var Fun (resolveVariable context name) := by
  have hcall : ContextCall.Permitted values Var Fun (.resolveVariable name) := hname
  apply Traced.Safe.bind (Traced.Safe.record hcall)
  intro _
  exact Traced.Safe.foreign (fun _ => trivial) _

theorem safe_callFunction {name : String} {args : List V}
    (hcall : ContextCall.Permitted values Var Fun (.callFunction name args)) :
    SafeEvaluation values Var Fun (callFunction context name args) := by
  apply Traced.Safe.bind (Traced.Safe.record hcall)
  intro _
  exact Traced.Safe.foreign (fun _ => trivial) _

theorem safe_truth (value : V) : SafeEvaluation values Var Fun (truth values value) :=
  Traced.Safe.foreign (fun _ => trivial) _

/-- A test for truth with safe branches. -/
theorem safe_ite_truth {α : Type} (value : V) {onTrue onFalse : Evaluation σ V E α}
    (htrue : SafeEvaluation values Var Fun onTrue)
    (hfalse : SafeEvaluation values Var Fun onFalse) :
    SafeEvaluation values Var Fun
      (truth values value >>= fun b => if b then onTrue else onFalse) := by
  apply Traced.Safe.bind (safe_truth value)
  intro b
  cases b with
  | true => exact htrue
  | false => exact hfalse

theorem safe_applyBinop {op : Operator} (hop : op ∈ supportedOperators) (left right : V) :
    SafeEvaluation values Var Fun (applyBinop values left op right) := by
  rw [applyBinop, if_pos hop]
  exact Traced.Safe.foreign (fun _ => trivial) _

/-- A comparison raises nothing of its own, whatever the operator is. -/
theorem safe_applyComparison (left : V) (op : CmpOp) (right : V) :
    SafeEvaluation values Var Fun (applyComparison values left op right) := by
  unfold applyComparison
  split
  · split <;> exact Traced.Safe.pure _
  · split
    · exact Traced.Safe.foreign (fun _ => trivial) _
    · exact Traced.Safe.pure _

theorem safe_all (operands : List V) : SafeEvaluation values Var Fun (all values operands) := by
  induction operands with
  | nil => exact Traced.Safe.pure _
  | cons first rest ih => exact safe_ite_truth first ih (Traced.Safe.pure _)

theorem safe_any (operands : List V) : SafeEvaluation values Var Fun (any values operands) := by
  induction operands with
  | nil => exact Traced.Safe.pure _
  | cons first rest ih => exact safe_ite_truth first (Traced.Safe.pure _) ih

theorem safe_applyBoolop (op : BoolOp) (operands : List V) :
    SafeEvaluation values Var Fun (applyBoolop values op operands) := by
  cases op with
  | and => exact Traced.Safe.bind (safe_all operands) fun _ => Traced.Safe.pure _
  | or => exact Traced.Safe.bind (safe_any operands) fun _ => Traced.Safe.pure _

theorem safe_applyUnaryop (op : UnaryOp) (operand : V) :
    SafeEvaluation values Var Fun (applyUnaryop values op operand) := by
  cases op with
  | uSub => exact Traced.Safe.foreign (fun _ => trivial) _
  | not => exact Traced.Safe.bind (safe_truth operand) fun _ => Traced.Safe.pure _
  | invert | uAdd => exact Traced.Safe.pure _

theorem safe_evaluateList {es : List Expr}
    (h : ∀ e ∈ es, SafeEvaluation values Var Fun (evaluate context values e)) :
    SafeEvaluation values Var Fun (evaluateList context values es) := by
  induction es with
  | nil => exact Traced.Safe.pure _
  | cons first rest ih =>
    obtain ⟨hfirst, hrest⟩ := List.forall_mem_cons.mp h
    simp only [evaluateList]
    apply Traced.Safe.bind hfirst
    intro value
    apply Traced.Safe.bind (ih hrest)
    intro others
    exact Traced.Safe.pure _

theorem safe_evaluateComparisons {ops : List CmpOp} {comparators : List Expr} (left : V)
    (h : ∀ p ∈ ops.zip comparators, SafeEvaluation values Var Fun (evaluate context values p.2)) :
    SafeEvaluation values Var Fun (evaluateComparisons context values ops comparators left) := by
  induction ops generalizing comparators left with
  | nil =>
    simp only [evaluateComparisons]
    exact Traced.Safe.pure _
  | cons op ops ih =>
    cases comparators with
    | nil =>
      simp only [evaluateComparisons]
      exact Traced.Safe.pure _
    | cons comparator comparators =>
      obtain ⟨hfirst, hrest⟩ := List.forall_mem_cons.mp h
      simp only [evaluateComparisons]
      apply Traced.Safe.bind hfirst
      intro right
      apply Traced.Safe.bind (safe_applyComparison left op right)
      intro holds
      exact safe_ite_truth holds (ih right hrest) (Traced.Safe.pure _)

/-- The name of the series is taken from the tree, and the first argument is not evaluated. -/
theorem safe_evaluateRolling {funcName series : String} {first period : Expr}
    (hfunc : Fun funcName) (hfirst : extractSeriesName first = some series)
    (hseries : series ∈ validRollingSeries)
    (hperiod : SafeEvaluation values Var Fun (evaluate context values period)) :
    SafeEvaluation values Var Fun (evaluateRolling context values funcName [first, period]) := by
  simp only [evaluateRolling, hfirst, Traced.pure_bind]
  apply Traced.Safe.bind (safe_evaluateList (by simpa using hperiod))
  intro restArgs
  apply safe_callFunction
  exact ⟨hfunc, fun _ => ⟨series, hseries, restArgs, rfl⟩⟩

/-- **Formulas are safe to evaluate**, in every context and with every kind of values. -/
theorem safe_evaluate {e : Expr} (h : Accepted Var Fun e) :
    SafeEvaluation values Var Fun (evaluate context values e) := by
  induction h with
  | constant span value =>
    simp only [evaluate]
    exact Traced.Safe.pure _
  | name span hvar =>
    simp only [evaluate]
    exact safe_resolveVariable hvar
  | binOp span hop _ _ hleft hright =>
    simp only [evaluate]
    apply Traced.Safe.bind hleft
    intro left
    apply Traced.Safe.bind hright
    intro right
    exact safe_applyBinop hop left right
  | compare span _ _ _ hleft hcomparators =>
    simp only [evaluate]
    apply Traced.Safe.bind hleft
    intro left
    exact safe_evaluateComparisons left hcomparators
  | ifExp span _ _ _ htest hbody horelse =>
    simp only [evaluate]
    apply Traced.Safe.bind htest
    intro test
    exact safe_ite_truth test hbody horelse
  | boolOp span op _ hvalues =>
    simp only [evaluate]
    apply Traced.Safe.bind (safe_evaluateList hvalues)
    intro operands
    exact safe_applyBoolop op operands
  | @unaryOp span op operand _ _ hoperand =>
    simp only [evaluate]
    apply Traced.Safe.bind hoperand
    intro value
    exact safe_applyUnaryop op value
  | call span funcSpan hfunc hplain _ hargs =>
    -- no keywords, and not a rolling function
    simp only [evaluate, ne_eq, not_true, if_false, hplain]
    apply Traced.Safe.bind (safe_evaluateList hargs)
    intro args
    apply safe_callFunction
    exact ⟨hfunc, fun hrolling => absurd hrolling hplain⟩
  | rolling span funcSpan hfunc hrolling hfirst hseries _ hperiod =>
    simp only [evaluate, ne_eq, not_true, if_false, hrolling, if_true]
    exact safe_evaluateRolling hfunc hfirst hseries hperiod

end Safety

/-! ## §4 Inspected formulas -/

section Inspected

variable {σ V E : Type}

/-- The evaluation of a formula keeps within the allowed names and the answer of the inspection,
    and fails with errors that have `Fails` only. -/
structure Sandboxed (values : PythonValues σ V E) (Fails : EvalError E → Prop)
    (allowedVariables allowedFunctions : Finset String) (response : ExpressionValidationResponse)
    (calls : List (ContextCall V)) (result : Except (EvalError E) V) : Prop where
  errors : ∀ e, result = .error e → Fails e
  resolves : ∀ name, .resolveVariable name ∈ calls →
    name ∈ allowedVariables ∧ name ∈ response.referencedVariables
  invokes : ∀ name args, .callFunction name args ∈ calls →
    name ∈ allowedFunctions ∧ name ∈ response.referencedFunctions
  series : ∀ name args, .callFunction name args ∈ calls → name ∈ rollingFunctions →
    ∃ series ∈ validRollingSeries, ∃ rest, args = values.literal (.str series) :: rest

variable (astParse : String → Except SyntaxError Expr) (expression : String)
  (allowedVariables allowedFunctions : Finset String)

/-- **Accepted formulas are sandboxed.**

    Take a tree that the validation accepts, and any context.  The evaluation raises none of its own
    errors about the shape of the tree, looks up allowed and reported names only, calls allowed and
    reported functions only, and gives each rolling function the name of a series.  What may still
    fail are the functions of the context and Python's operations on its values. -/
theorem evaluate_sandboxed {tree : Expr} (htree : formulaTree astParse expression = some tree)
    (hvalid : (inspectSemantics astParse expression (some allowedVariables)
      (some allowedFunctions)).isValid) (context : ExpressionContext σ V E)
    (values : PythonValues σ V E) (state : σ) :
    Sandboxed values EvalError.FromOutside allowedVariables allowedFunctions
      (inspectSemantics astParse expression (some allowedVariables) (some allowedFunctions))
      (evaluate context values tree state).1 (evaluate context values tree state).2.1 := by
  have hinspected := inspectSemantics_of_isValid htree hvalid
  rw [hinspected] at hvalid ⊢
  obtain ⟨hcalls, herrors⟩ := @safe_evaluate σ V E values _ _ context tree
    (accepted_of_isValid hvalid) state
  refine ⟨herrors, ?_, ?_, ?_⟩
  · intro name hname
    obtain ⟨hallowed, hlisted⟩ := hcalls _ hname
    exact ⟨hallowed allowedVariables rfl, hlisted⟩
  · intro name args hcall
    obtain ⟨⟨hallowed, hlisted⟩, -⟩ := hcalls _ hcall
    exact ⟨hallowed allowedFunctions rfl, hlisted⟩
  · intro name args hcall
    exact (hcalls _ hcall).2

end Inspected

/-! ## §5 Two formulas -/

/-- A place in the first line. -/
def columns (start stop : ℤ) : Span := ⟨some 1, some start, some 1, some stop⟩

/-- `close > highest(high, 20)` -/
def breakout : Expr :=
  .compare (columns 0 25) (.name (columns 0 5) "close") [.gt]
    [.call (columns 8 25) (.name (columns 8 15) "highest")
      [.name (columns 16 20) "high", .constant (columns 22 24) (.int 20)] []]

/-- `1 < 'a'` -/
def mixedComparison : Expr :=
  .compare (columns 0 7) (.constant (columns 0 1) (.int 1)) [.lt]
    [.constant (columns 4 7) (.str "a")]

/-- `ast.parse` on the two formulas. -/
def sampleParse (text : String) : Except SyntaxError Expr :=
  if text = "close > highest(high, 20)" then .ok breakout
  else if text = "1 < 'a'" then .ok mixedComparison
  else .error ⟨"invalid syntax", some 1, some 1⟩

/-- Integers and texts; only integers can be compared. -/
def sampleValues : PythonValues Unit Constant String where
  literal := id
  isNone value := value = .none
  arithmetic _ _ _ s := (.error "TypeError: unsupported operand type(s)", s)
  negative _ s := (.error "TypeError: bad operand type for unary -", s)
  comparison op left right s :=
    match op, left, right with
    | .gt, .int a, .int b => (.ok (.bool (b < a)), s)
    | .lt, .int a, .int b => (.ok (.bool (a < b)), s)
    | _, _, _ => (.error "TypeError: not supported between instances", s)
  truth value s := (.ok (value ∉ [.none, .bool false, .int 0, .str ""]), s)
  str _ s := (.error "TypeError: not a text", s)

/-- Every variable is 10, and every function returns 9. -/
def sampleContext : ExpressionContext Unit Constant String where
  resolveVariable _ s := (.ok (.int 10), s)
  callFunction _ _ s := (.ok (.int 9), s)

/-- The calls of `close > highest(high, 20)`. -/
theorem breakout_sandboxed :
    let response := inspectSemantics sampleParse " close > highest(high, 20)" (some {"close"})
      (some {"highest", "sma"})
    response.isValid = true ∧ Sandboxed sampleValues EvalError.FromOutside {"close"}
      {"highest", "sma"} response
      (evaluate sampleContext sampleValues breakout ()).1
      (evaluate sampleContext sampleValues breakout ()).2.1 := by
  have hvalid : (inspectSemantics sampleParse " close > highest(high, 20)" (some {"close"})
      (some {"highest", "sma"})).isValid = true := by decide +kernel
  exact ⟨hvalid, evaluate_sandboxed sampleParse " close > highest(high, 20)" {"close"}
    {"highest", "sma"} (by rfl) hvalid sampleContext sampleValues ()⟩

/-- The error comes from the context or from arithmetic. -/
def EvalError.FromContextOrArithmetic {E : Type} : EvalError E → Prop
  | .context _ => True
  | .operation (.arithmetic _) _ => True
  | .operation .negative _ => True
  | _ => False

/-- The comparison of a number and a text is valid, and it raises. -/
theorem mixedComparison_raises :
    let response := inspectSemantics sampleParse "1 < 'a'" (some ∅) (some ∅)
    let outcome := evaluate sampleContext sampleValues mixedComparison ()
    formulaTree sampleParse "1 < 'a'" = some mixedComparison ∧ response.isValid = true ∧
      outcome.2.1 = .error (.operation (.comparison .lt)
        "TypeError: not supported between instances") ∧
      ¬ Sandboxed sampleValues EvalError.FromContextOrArithmetic ∅ ∅ response outcome.1
        outcome.2.1 := by
  intro response outcome
  have hraises : outcome.2.1 = .error (.operation (.comparison .lt)
      "TypeError: not supported between instances") := by rfl
  refine ⟨by rfl, by decide +kernel, hraises, ?_⟩
  intro hsandboxed
  exact hsandboxed.errors _ hraises

end CryptoTrading.Expressions
