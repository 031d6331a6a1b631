import Mathlib.Data.Int.Notation
import Mathlib.Data.Finset.Basic

/-!
# Syntax trees of formulas

The expressions of Python's `ast` module, as far as `ExpressionParser` looks at them: it tells
eight kinds of nodes apart by their fields, and names every other kind in a message only.
-/

namespace CryptoTrading.Expressions

/-! ## §1 Leaves -/

/-- Where a node stands in the text; an attribute may be missing. -/
structure Span where
  lineno : Option ℤ
  colOffset : Option ℤ
  endLineno : Option ℤ
  endColOffset : Option ℤ
  deriving DecidableEq, Repr

/-- The value of a literal.  A floating-point number stands for itself by its bits. -/
inductive Constant where
  | none
  | bool (value : Bool)
  | int (value : ℤ)
  | float (bits : BitVec 64)
  | complex (imaginary : BitVec 64)
  | str (text : String)
  | bytes (data : List UInt8)
  | ellipsis
  deriving DecidableEq, Repr

/-- `ast.operator`. -/
inductive Operator where
  | add | sub | mult | matMult | div | mod | pow | lShift | rShift | bitOr | bitXor | bitAnd
  | floorDiv
  deriving DecidableEq, Repr

/-- `ast.cmpop`. -/
inductive CmpOp where
  | eq | notEq | lt | ltE | gt | gtE | is | isNot | in | notIn
  deriving DecidableEq, Repr

/-- `ast.boolop`. -/
inductive BoolOp where
  | and | or
  deriving DecidableEq, Repr

/-- `ast.unaryop`. -/
inductive UnaryOp where
  | invert | not | uAdd | uSub
  deriving DecidableEq, Repr

/-- The kinds of expressions that no formula may contain. -/
inductive OtherNode where
  | namedExpr | lambda | dict | set | listComp | setComp | dictComp | generatorExp | await
  | yield | yieldFrom | formattedValue | joinedStr | attribute | subscript | starred | list
  | tuple | slice
  deriving DecidableEq, Repr

/-- `type(op).__name__`. -/
def Operator.typeName : Operator → String
  | .add => "Add"
  | .sub => "Sub"
  | .mult => "Mult"
  | .matMult => "MatMult"
  | .div => "Div"
  | .mod => "Mod"
  | .pow => "Pow"
  | .lShift => "LShift"
  | .rShift => "RShift"
  | .bitOr => "BitOr"
  | .bitXor => "BitXor"
  | .bitAnd => "BitAnd"
  | .floorDiv => "FloorDiv"

/-- `type(op).__name__`. -/
def CmpOp.typeName : CmpOp → String
  | .eq => "Eq"
  | .notEq => "NotEq"
  | .lt => "Lt"
  | .ltE => "LtE"
  | .gt => "Gt"
  | .gtE => "GtE"
  | .is => "Is"
  | .isNot => "IsNot"
  | .in => "In"
  | .notIn => "NotIn"

/-- `type(op).__name__`. -/
def BoolOp.typeName : BoolOp → String
  | .and => "And"
  | .or => "Or"

/-- `type(op).__name__`. -/
def UnaryOp.typeName : UnaryOp → String
  | .invert => "Invert"
  | .not => "Not"
  | .uAdd => "UAdd"
  | .uSub => "USub"

/-- `type(node).__name__`. -/
def OtherNode.typeName : OtherNode → String
  | .namedExpr => "NamedExpr"
  | .lambda => "Lambda"
  | .dict => "Dict"
  | .set => "Set"
  | .listComp => "ListComp"
  | .setComp => "SetComp"
  | .dictComp => "DictComp"
  | .generatorExp => "GeneratorExp"
  | .await => "Await"
  | .yield => "Yield"
  | .yieldFrom => "YieldFrom"
  | .formattedValue => "FormattedValue"
  | .joinedStr => "JoinedStr"
  | .attribute => "Attribute"
  | .subscript => "Subscript"
  | .starred => "Starred"
  | .list => "List"
  | .tuple => "Tuple"
  | .slice => "Slice"

/-! ## §2 Trees -/

/-- `ast.expr`.  A keyword argument is its name, which is missing in `**kwargs`; what is below
    a keyword or a node of another kind is never looked at. -/
inductive Expr where
  | constant (span : Span) (value : Constant)
  | name (span : Span) (id : String)
  | binOp (span : Span) (left : Expr) (op : Operator) (right : Expr)
  | compare (span : Span) (left : Expr) (ops : List CmpOp) (comparators : List Expr)
  | ifExp (span : Span) (test body orelse : Expr)
  | boolOp (span : Span) (op : BoolOp) (values : List Expr)
  | unaryOp (span : Span) (op : UnaryOp) (operand : Expr)
  | call (span : Span) (func : Expr) (args : List Expr) (keywords : List (Option String))
  | other (span : Span) (kind : OtherNode)

/-- The place of a node. -/
def Expr.span : Expr → Span
  | .constant span _ => span
  | .name span _ => span
  | .binOp span _ _ _ => span
  | .compare span _ _ _ => span
  | .ifExp span _ _ _ => span
  | .boolOp span _ _ => span
  | .unaryOp span _ _ => span
  | .call span _ _ _ => span
  | .other span _ => span

/-- Induction over a tree, with the hypothesis for every member of a list of subtrees. -/
@[elab_as_elim]
theorem Expr.induction {P : Expr → Prop}
    (constant : ∀ span value, P (.constant span value))
    (name : ∀ span id, P (.name span id))
    (binOp : ∀ span left op right, P left → P right → P (.binOp span left op right))
    (compare : ∀ span left ops comparators, P left → (∀ e ∈ comparators, P e) →
      P (.compare span left ops comparators))
    (ifExp : ∀ span test body orelse, P test → P body → P orelse →
      P (.ifExp span test body orelse))
    (boolOp : ∀ span op values, (∀ e ∈ values, P e) → P (.boolOp span op values))
    (unaryOp : ∀ span op operand, P operand → P (.unaryOp span op operand))
    (call : ∀ span func args keywords, P func → (∀ e ∈ args, P e) →
      P (.call span func args keywords))
    (other : ∀ span kind, P (.other span kind)) (e : Expr) : P e := by
  have hcons : ∀ first rest, P first → (∀ e ∈ rest, P e) → ∀ e ∈ first :: rest, P e := by
    intro first rest hfirst hrest
    exact List.forall_mem_cons.mpr ⟨hfirst, hrest⟩
  exact @Expr.rec P (fun es => ∀ e ∈ es, P e) constant name binOp compare ifExp boolOp unaryOp
    call other (List.forall_mem_nil P) hcons e

end CryptoTrading.Expressions
