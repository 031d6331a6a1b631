import CryptoTrading.Expressions.Evaluation
import CryptoTrading.Expressions.StrictValidation

/-!
# Inferred and returned types

`_infer_node_type` announces the type of a formula from its syntax tree, and
`ExpressionParser.parse` computes its value.  A comparison, `and`, `or`, `not` and the two
boolean literals always give a boolean.  Of a conditional expression the inference reads the
branch for a true condition only, so the announced boolean arrives exactly when the branch that
is taken ends in one (`EndsBoolean`).
-/

namespace CryptoTrading.Expressions

open CryptoTrading.Lib Traced

variable {σ V E : Type}

/-! ## §1 Booleans among the values -/

/-- `isinstance(value, bool)`: the value is `True` or `False`. -/
def IsBool (values : PythonValues σ V E) (v : V) : Prop := ∃ b, v = ofBool values b

/-- Python's literals and numbers: no other literal is a boolean, and arithmetic gives none. -/
structure BoolLaws (values : PythonValues σ V E) : Prop where
  literal : ∀ c, IsBool values (values.literal c) → ∃ b, c = .bool b
  arithmetic : ∀ op left right s v s', values.arithmetic op left right s = (.ok v, s') →
    ¬ IsBool values v
  negative : ∀ operand s v s', values.negative operand s = (.ok v, s') → ¬ IsBool values v

section Values

variable (values : PythonValues σ V E)

theorem isBool_ofBool (b : Bool) : IsBool values (ofBool values b) := ⟨b, rfl⟩

variable {values}

/-- `all` and `any` are made booleans, whatever the operands are. -/
theorem isBool_of_applyBoolop {op : BoolOp} {operands : List V} {s s' : σ} {v : V}
    (h : Returns (applyBoolop values op operands) s v s') : IsBool values v := by
  cases op with
  | and =>
    obtain ⟨b, s₁, -, hv⟩ := returns_bind.mp h
    exact ⟨b, (returns_pure.mp hv).1.symm⟩
  | or =>
    obtain ⟨b, s₁, -, hv⟩ := returns_bind.mp h
    exact ⟨b, (returns_pure.mp hv).1.symm⟩

theorem isBool_of_applyUnaryop_not {operand v : V} {s s' : σ}
    (h : Returns (applyUnaryop values .not operand) s v s') : IsBool values v := by
  obtain ⟨b, s₁, -, hv⟩ := returns_bind.mp h
  exact ⟨!b, (returns_pure.mp hv).1.symm⟩

/-- The loop over the comparisons returns `True` or `False` itself. -/
theorem isBool_of_evaluateComparisons {context : ExpressionContext σ V E} {ops : List CmpOp}
    {comparators : List Expr} {left v : V} {s s' : σ}
    (h : Returns (evaluateComparisons context values ops comparators left) s v s') :
    IsBool values v := by
  induction ops generalizing comparators left s with
  | nil =>
    simp only [evaluateComparisons, returns_pure] at h
    exact ⟨true, h.1.symm⟩
  | cons op ops ih =>
    cases comparators with
    | nil =>
      simp only [evaluateComparisons, returns_pure] at h
      exact ⟨true, h.1.symm⟩
    | cons comparator comparators =>
      simp only [evaluateComparisons] at h
      obtain ⟨right, s₁, -, h⟩ := returns_bind.mp h
      obtain ⟨holds, s₂, -, h⟩ := returns_bind.mp h
      obtain ⟨b, s₃, -, h⟩ := returns_bind.mp h
      cases b with
      | true => exact ih h
      | false => exact ⟨false, (returns_pure.mp h).1.symm⟩

variable (laws : BoolLaws values)
include laws

/-- Every operator of a formula is one of numbers or texts. -/
theorem not_isBool_of_applyBinop {op : Operator} {left right v : V} {s s' : σ}
    (h : Returns (applyBinop values left op right) s v s') : ¬ IsBool values v := by
  unfold applyBinop at h
  split at h
  · exact laws.arithmetic op left right s v s' (returns_foreign.mp h)
  · exact absurd h returns_raise

theorem not_isBool_of_applyUnaryop {op : UnaryOp} (hop : op ≠ .not) {operand v : V} {s s' : σ}
    (h : Returns (applyUnaryop values op operand) s v s') : ¬ IsBool values v := by
  cases op with
  | not => exact absurd rfl hop
  | uSub => exact laws.negative operand s v s' (returns_foreign.mp h)
  | invert | uAdd =>
    rw [← (returns_pure.mp h).1]
    intro hbool
    obtain ⟨b, hb⟩ := laws.literal _ hbool
    cases hb

end Values

/-! ## §2 Where the taken branches end -/

section Branches

variable (context : ExpressionContext σ V E) (values : PythonValues σ V E)

/-- The values that a call hands to the context. -/
def callArguments (funcName : String) (args : List Expr) : Evaluation σ V E (List V) :=
  if funcName ∈ rollingFunctions then
    match args with
    | [] => pure []
    | first :: rest => do
      let seriesName ← match extractSeriesName first with
        | some name => pure name
        | none => do
          let series ← evaluate context values first
          Traced.foreign (.operation .str) (values.str series)
      let restArgs ← evaluateList context values rest
      return values.literal (.str seriesName) :: restArgs
  else evaluateList context values args

/-- The branches that the conditionals take from the state `s` on end in an expression that is
    inferred to be a boolean, or in a variable or a call for which the context has one. -/
def EndsBoolean : Expr → σ → Prop
  | .ifExp _ test body orelse, s =>
    ∃ v s₁ b s₂, Returns (evaluate context values test) s v s₁ ∧
      Returns (truth values v : Evaluation σ V E Bool) s₁ b s₂ ∧
      if b then EndsBoolean body s₂ else EndsBoolean orelse s₂
  | .name _ id, s => ∃ b s', context.resolveVariable id s = (.ok (ofBool values b), s')
  | .call _ (.name _ funcName) args _, s =>
    ∃ arguments s₁ b s₂, Returns (callArguments context values funcName args) s arguments s₁ ∧
      context.callFunction funcName arguments s₁ = (.ok (ofBool values b), s₂)
  | e, _ => inferNodeType e = .boolean

variable {context values}

theorem returns_callFunction {name : String} {args : List V} {s s' : σ} {v : V} :
    Returns (callFunction context name args : Evaluation σ V E V) s v s' ↔
      context.callFunction name args s = (.ok v, s') := by
  unfold callFunction
  rw [returns_bind]
  simp only [returns_record, returns_foreign]
  constructor
  · rintro ⟨u, s₁, rfl, h⟩
    exact h
  · intro h
    exact ⟨(), s, rfl, h⟩

theorem returns_resolveVariable {name : String} {s s' : σ} {v : V} :
    Returns (resolveVariable context name : Evaluation σ V E V) s v s' ↔
      context.resolveVariable name s = (.ok v, s') := by
  unfold resolveVariable
  rw [returns_bind]
  simp only [returns_record, returns_foreign]
  constructor
  · rintro ⟨u, s₁, rfl, h⟩
    exact h
  · intro h
    exact ⟨(), s, rfl, h⟩

/-- A call evaluates its arguments and asks the context. -/
theorem returns_call {span funcSpan : Span} {funcName : String} {args : List Expr}
    {keywords : List (Option String)} {s s' : σ} {v : V}
    (h : Returns (evaluate context values (.call span (.name funcSpan funcName) args keywords))
      s v s') :
    ∃ arguments s₁, Returns (callArguments context values funcName args) s arguments s₁ ∧
      context.callFunction funcName arguments s₁ = (.ok v, s') := by
  simp only [evaluate] at h
  split at h
  · exact absurd h returns_raise
  · unfold callArguments
    -- a rolling function takes its first argument as the name of a series if it is one
    by_cases hrolling : funcName ∈ rollingFunctions
    · simp only [hrolling, if_true] at h ⊢
      cases args with
      | nil =>
        simp only [evaluateRolling] at h
        exact ⟨[], s, returns_pure.mpr ⟨rfl, rfl⟩, returns_callFunction.mp h⟩
      | cons first rest =>
        simp only [evaluateRolling] at h
        cases hname : extractSeriesName first with
        | some name =>
          simp only [hname, pure_bind] at h ⊢
          obtain ⟨restArgs, s₁, hrest, h⟩ := returns_bind.mp h
          refine ⟨_, s₁, ?_, returns_callFunction.mp h⟩
          exact returns_bind.mpr ⟨restArgs, s₁, hrest, returns_pure.mpr ⟨rfl, rfl⟩⟩
        | none =>
          simp only [hname] at h ⊢
          obtain ⟨series, s₁, hseries, h⟩ := returns_bind.mp h
          obtain ⟨seriesName, s₂, hstr, h⟩ := returns_bind.mp h
          obtain ⟨restArgs, s₃, hrest, h⟩ := returns_bind.mp h
          refine ⟨_, s₃, ?_, returns_callFunction.mp h⟩
          exact returns_bind.mpr ⟨series, s₁, hseries, returns_bind.mpr ⟨seriesName, s₂, hstr,
            returns_bind.mpr ⟨restArgs, s₃, hrest, returns_pure.mpr ⟨rfl, rfl⟩⟩⟩⟩
    · simp only [hrolling, if_false] at h ⊢
      obtain ⟨arguments, s₁, hargs, h⟩ := returns_bind.mp h
      exact ⟨arguments, s₁, hargs, returns_callFunction.mp h⟩

/-- What a computation returns is a boolean when it can return one. -/
theorem isBool_iff_of_eq {code : Except E V × σ} {v : V} {s' : σ} (h : code = (.ok v, s')) :
    IsBool values v ↔ ∃ b s'', code = (.ok (ofBool values b), s'') := by
  constructor
  · rintro ⟨b, rfl⟩
    exact ⟨b, s', h⟩
  · rintro ⟨b, s'', hb⟩
    obtain ⟨hvalue, -⟩ := Prod.mk.inj (h.symm.trans hb)
    exact ⟨b, Except.ok.inj hvalue⟩

/-- The condition is evaluated once, so it decides which branch has to end in a boolean. -/
theorem endsBoolean_ifExp_iff {span : Span} {test body orelse : Expr} {s s₁ s₂ : σ} {t : V}
    {b : Bool} (htest : Returns (evaluate context values test) s t s₁)
    (htruth : Returns (truth values t) s₁ b s₂) :
    EndsBoolean context values (.ifExp span test body orelse) s ↔
      if b then EndsBoolean context values body s₂ else EndsBoolean context values orelse s₂ := by
  constructor
  · rintro ⟨t', s₁', b', s₂', htest', htruth', hends⟩
    obtain ⟨rfl, rfl⟩ := htest.unique htest'
    obtain ⟨rfl, rfl⟩ := htruth.unique htruth'
    exact hends
  · intro hends
    exact ⟨t, s₁, b, s₂, htest, htruth, hends⟩

/-- **The value of an evaluation is a boolean exactly when the taken branches end in one.** -/
theorem isBool_iff_endsBoolean (laws : BoolLaws values) {e : Expr} {s s' : σ} {v : V}
    (h : Returns (evaluate context values e) s v s') :
    IsBool values v ↔ EndsBoolean context values e s := by
  -- on the tree; only conditionals need the hypotheses for the parts
  induction e using Expr.induction generalizing s with
  | constant span value =>
    simp only [evaluate, returns_pure] at h
    rw [← h.1]
    constructor
    · intro hbool
      obtain ⟨b, rfl⟩ := laws.literal value hbool
      rfl
    · intro hends
      cases value with
      | bool b => exact isBool_ofBool values b
      | none | int _ | float _ | complex _ | str _ | bytes _ | ellipsis => cases hends
  | name span id =>
    -- `EndsBoolean` looks the name up as the evaluation does
    simp only [evaluate] at h
    exact isBool_iff_of_eq (returns_resolveVariable.mp h)
  | binOp span left op right =>
    -- arithmetic never gives a boolean, and none is announced
    simp only [evaluate] at h
    obtain ⟨l, s₁, -, h⟩ := returns_bind.mp h
    obtain ⟨r, s₂, -, h⟩ := returns_bind.mp h
    exact iff_of_false (not_isBool_of_applyBinop laws h) (by simp [EndsBoolean, inferNodeType])
  | compare span left ops comparators =>
    -- a chain of comparisons ends in a boolean
    simp only [evaluate] at h
    obtain ⟨l, s₁, -, h⟩ := returns_bind.mp h
    exact iff_of_true (isBool_of_evaluateComparisons h) rfl
  | ifExp span test body orelse _ ihbody ihorelse =>
    -- the branch that is taken decides
    simp only [evaluate] at h
    obtain ⟨t, s₁, htest, h⟩ := returns_bind.mp h
    obtain ⟨b, s₂, htruth, h⟩ := returns_bind.mp h
    rw [endsBoolean_ifExp_iff htest htruth]
    cases b with
    | true => exact ihbody h
    | false => exact ihorelse h
  | boolOp span op operands =>
    simp only [evaluate] at h
    obtain ⟨operands', s₁, -, h⟩ := returns_bind.mp h
    exact iff_of_true (isBool_of_applyBoolop h) rfl
  | unaryOp span op operand =>
    simp only [evaluate] at h
    obtain ⟨o, s₁, -, h⟩ := returns_bind.mp h
    cases op with
    | not => exact iff_of_true (isBool_of_applyUnaryop_not h) rfl
    | uSub | invert | uAdd =>
      refine iff_of_false (not_isBool_of_applyUnaryop laws ?_ h) ?_
      · intro hop
        cases hop
      · intro hends
        cases hends
  | call span func args keywords =>
    -- a call ends in what its function returns on these arguments
    cases func with
    | name funcSpan funcName =>
      obtain ⟨arguments, s₁, hargs, hcall⟩ := returns_call h
      rw [isBool_iff_of_eq hcall]
      constructor
      · rintro ⟨b, s₂, hb⟩
        exact ⟨arguments, s₁, b, s₂, hargs, hb⟩
      · rintro ⟨arguments', s₁', b, s₂, hargs', hb⟩
        obtain ⟨rfl, rfl⟩ := hargs.unique hargs'
        exact ⟨b, s₂, hb⟩
    -- anything else than a name is not callable
    | constant _ _ | binOp _ _ _ _ | compare _ _ _ _ | ifExp _ _ _ _ | boolOp _ _ _
    | unaryOp _ _ _ | call _ _ _ _ | other _ _ =>
      simp only [evaluate] at h
      exact absurd h returns_raise
  | other span kind =>
    simp only [evaluate] at h
    exact absurd h returns_raise

/-- Every branch of the conditionals ends in an expression inferred to be a boolean. -/
def EveryBranchBoolean : Expr → Prop
  | .ifExp _ _ body orelse => EveryBranchBoolean body ∧ EveryBranchBoolean orelse
  | e => inferNodeType e = .boolean

/-- Reading both branches is enough, whatever the context is. -/
theorem endsBoolean_of_everyBranchBoolean {e : Expr} (hbranches : EveryBranchBoolean e)
    {s s' : σ} {v : V} (h : Returns (evaluate context values e) s v s') :
    EndsBoolean context values e s := by
  induction e using Expr.induction generalizing s with
  | ifExp span test body orelse _ ihbody ihorelse =>
    simp only [evaluate] at h
    obtain ⟨t, s₁, htest, h⟩ := returns_bind.mp h
    obtain ⟨b, s₂, htruth, h⟩ := returns_bind.mp h
    refine ⟨t, s₁, b, s₂, htest, htruth, ?_⟩
    cases b with
    | true => exact ihbody hbranches.1 h
    | false => exact ihorelse hbranches.2 h
  | constant span value => exact hbranches
  | compare span left ops comparators => exact hbranches
  | boolOp span op operands => exact hbranches
  | unaryOp span op operand => exact hbranches
  -- no variable, call or arithmetic is inferred to be a boolean
  | name span id => cases hbranches
  | binOp span left op right => cases hbranches
  | call span func args keywords => cases hbranches
  | other span kind => cases hbranches

end Branches

/-! ## §3 The announced type -/

section Announced

variable (context : ExpressionContext σ V E) (values : PythonValues σ V E)

/-- `ExpressionParser.parse`. -/
def parse : Option Expr → Evaluation σ V E V
  | none => pure (values.literal .none)
  | some tree => evaluate context values tree

/-- A formula announced as a boolean returns one, if it returns. -/
def AnnouncedBoolean (tree : Expr) (s : σ) : Prop :=
  inferNodeType tree = .boolean →
    ∀ v s', Returns (parse context values (some tree)) s v s' → IsBool values v

variable {context values}

/-- **Where the announced type is right**: a formula announced as a boolean that can be evaluated
    returns one exactly when the branches its conditionals take end in one.

    The inference looks at the first branch of a conditional only; the second one may end in a
    number. -/
theorem announcedBoolean_iff (laws : BoolLaws values) {tree : Expr} {s : σ}
    (hruns : ∃ v s', Returns (parse context values (some tree)) s v s') :
    AnnouncedBoolean context values tree s ↔
      (inferNodeType tree = .boolean → EndsBoolean context values tree s) := by
  obtain ⟨v, s', hrun⟩ := hruns
  constructor
  · intro h hinferred
    exact (isBool_iff_endsBoolean laws hrun).mp (h hinferred v s' hrun)
  · intro h hinferred w t hrun'
    exact (isBool_iff_endsBoolean laws hrun').mpr (h hinferred)

end Announced

/-- `1 > 0 if x else 5` -/
def comparisonOrNumber : Expr :=
  .ifExp (columns 0 17) (.name (columns 9 10) "x")
    (.compare (columns 0 5) (.constant (columns 0 1) (.int 1)) [.gt]
      [.constant (columns 4 5) (.int 0)])
    (.constant (columns 16 17) (.int 5))

theorem boolLaws_sampleValues : BoolLaws sampleValues := by
  refine ⟨?_, ?_, ?_⟩
  · rintro c ⟨b, hb⟩
    exact ⟨b, hb⟩
  · intro op left right s v s' h
    cases h
  · intro operand s v s' h
    cases h

/-- With `x = 10` the formula ends in its comparison. -/
theorem comparisonOrNumber_announced :
    AnnouncedBoolean sampleContext sampleValues comparisonOrNumber () ↔
      (inferNodeType comparisonOrNumber = .boolean →
        EndsBoolean sampleContext sampleValues comparisonOrNumber ()) := by
  apply announcedBoolean_iff boolLaws_sampleValues
  exact ⟨.bool true, (), by rfl⟩

/-- Every variable is 0. -/
def zeroContext : ExpressionContext Unit Constant String where
  resolveVariable _ s := (.ok (.int 0), s)
  callFunction _ _ s := (.ok (.int 9), s)

/-- With `x = 0` the valid formula returns 5, and it is announced as a boolean. -/
theorem comparisonOrNumber_returns_number :
    let response := inspectTree (some {"x"}) (some ∅) comparisonOrNumber
    validateNode comparisonOrNumber = .ok () ∧ response.isValid = true ∧
      response.inferredType = some .boolean ∧
      Returns (parse zeroContext sampleValues (some comparisonOrNumber)) () (.int 5) () ∧
      ¬ AnnouncedBoolean zeroContext sampleValues comparisonOrNumber () := by
  have hrun :
      Returns (parse zeroContext sampleValues (some comparisonOrNumber)) () (.int 5) () := by
    rfl
  refine ⟨by rfl, by decide +kernel, by rfl, hrun, ?_⟩
  intro h
  obtain ⟨b, hb⟩ := h rfl _ _ hrun
  cases hb

end CryptoTrading.Expressions
