import TypedQuery.Columnar.Function
import TypedQuery.Columnar.Operator
import TypedQuery.Columnar.Reduction
import TypedQuery.Value.Basic

/-!
# Column expressions

What a plan computes from the columns of a batch: columns, constants, operators, choices,
functions and reductions. `Expr.outputName` is the name that a computed column gets, and
`Expr.reduces` tells whether rows are counted or gathered anywhere in an expression.
-/

namespace TypedQuery

inductive BinaryOp where
  | arithmetic (op : Column.Arithmetic)
  | power
  | compare (op : Column.Comparison)
  | logic (op : Column.Logic)
  | bitwise (op : Column.Bitwise)
  deriving DecidableEq

namespace BinaryOp

def symbol : BinaryOp → String
  | arithmetic .add => "+"
  | arithmetic .subtract => "-"
  | arithmetic .multiply => "*"
  | arithmetic .divide => "/"
  | arithmetic .remainder => "%"
  | power => "**"
  | compare .equal => "=="
  | compare .notEqual => "!="
  | compare .less => "<"
  | compare .lessEqual => "<="
  | compare .greater => ">"
  | compare .greaterEqual => ">="
  | logic .and => "&"
  | logic .or => "|"
  | logic .xor => "^"
  | bitwise .and => "bitand"
  | bitwise .or => "bitor"
  | bitwise .xor => "bitxor"
  | bitwise .shiftLeft => "<<"
  | bitwise .shiftRight => ">>"

end BinaryOp

inductive UnaryOp where
  | negate
  | not
  | complement
  | isNull
  | isNotNull
  | isNan
  | isInfinite
  | abs
  | ceil
  | floor
  /-- Halves go away from zero. -/
  | round
  | exp
  | ln
  | log2
  | log10
  | sqrt
  | sign
  | acos
  | asin
  | atan
  | cos
  | sin
  | tan
  deriving DecidableEq

def UnaryOp.name : UnaryOp → String
  | negate => "Negate"
  | not => "Not"
  | complement => "BitNot"
  | isNull => "IsNull"
  | isNotNull => "IsNotNull"
  | isNan => "IsNan"
  | isInfinite => "IsInfinite"
  | abs => "Abs"
  | ceil => "Ceil"
  | floor => "Floor"
  | round => "Round"
  | exp => "Exp"
  | ln => "Ln"
  | log2 => "Log2"
  | log10 => "Log10"
  | sqrt => "Sqrt"
  | sign => "Sign"
  | acos => "Acos"
  | asin => "Asin"
  | atan => "Atan"
  | cos => "Cos"
  | sin => "Sin"
  | tan => "Tan"

inductive Expr where
  | column (name : String)
  | literal (value : Value) (type : DataType)
  | named (e : Expr) (name : String)
  | cast (e : Expr) (type : DataType)
  | binary (left : Expr) (op : BinaryOp) (right : Expr)
  | unary (op : UnaryOp) (e : Expr)
  | choose (predicate thenExpr otherwise : Expr)
  | fillNull (e fill : Expr)
  | fillNan (e fill : Expr)
  | isIn (e : Expr) (options : List Expr)
  | between (e low high : Expr)
  | coalesce (items : List Expr)
  | least (items : List Expr)
  | greatest (items : List Expr)
  | call (f : Function) (arguments : List Expr)
  | reduce (f : Reduction) (e : Expr) (filter : Option Expr)
  /-- Number of rows, or of those where the filter holds. -/
  | countRows (filter : Option Expr)

namespace Expr

/-! ## Building -/

/-- A constant of its own type. -/
def constant (v : Value) : Expr := literal v v.dataType

def ofInt (n : Int) : Expr := constant (.int64 (Int64.ofInt n))

def add (a b : Expr) : Expr := binary a (.arithmetic .add) b

def subtract (a b : Expr) : Expr := binary a (.arithmetic .subtract) b

def multiply (a b : Expr) : Expr := binary a (.arithmetic .multiply) b

def divide (a b : Expr) : Expr := binary a (.arithmetic .divide) b

def equals (a b : Expr) : Expr := binary a (.compare .equal) b

def less (a b : Expr) : Expr := binary a (.compare .less) b

def greater (a b : Expr) : Expr := binary a (.compare .greater) b

def both (a b : Expr) : Expr := binary a (.logic .and) b

/-- A function of one expression. -/
def callOne (e : Expr) (f : Function) : Expr := call f [e]

/-! ## Names -/

/-- The name of an expression whose parts bear no name. -/
def unnamed : String := "literal"

/-- The first name that is not that of a constant. -/
def firstName : List String → String
  | [] => unnamed
  | name :: rest => if name = unnamed then firstName rest else name

mutual

/-- The name of a computed column: the outermost one given, else that of the first column
in it. -/
def outputName : Expr → String
  | column name | named _ name => name
  | literal .. => unnamed
  | countRows _ => "len"
  | cast e _ | unary _ e => firstName [outputName e]
  | binary a _ b | fillNull a b | fillNan a b => firstName [outputName a, outputName b]
  | choose a b c | between a b c => firstName [outputName a, outputName b, outputName c]
  | isIn e items => firstName (outputName e :: outputNames items)
  | coalesce items | least items | greatest items | call _ items =>
    firstName (outputNames items)
  | reduce _ e none => firstName [outputName e]
  | reduce _ e (some filter) => firstName [outputName e, outputName filter]

def outputNames : List Expr → List String
  | [] => []
  | e :: rest => outputName e :: outputNames rest

end

/-! ## Reductions inside -/

mutual

/-- Whether many rows become one somewhere in the expression. -/
def reduces : Expr → Bool
  | column _ | literal .. => false
  | named e _ | cast e _ | unary _ e => reduces e
  | binary a _ b | fillNull a b | fillNan a b => reduces a || reduces b
  | choose a b c | between a b c => reduces a || reduces b || reduces c
  | isIn e items => reduces e || anyReduces items
  | coalesce items | least items | greatest items | call _ items => anyReduces items
  | reduce .. | countRows _ => true

def anyReduces : List Expr → Bool
  | [] => false
  | e :: rest => reduces e || anyReduces rest

end

/-! ## Text -/

mutual

def render : Expr → String
  | column name => "col(" ++ Text.quote name ++ ")"
  | literal v _ => "lit(" ++ v.render ++ ")"
  | named e name => render e ++ ".alias(" ++ Text.quote name ++ ")"
  | cast e type => render e ++ ".cast(" ++ type.name ++ ")"
  | binary a op b => "(" ++ render a ++ " " ++ op.symbol ++ " " ++ render b ++ ")"
  | unary op e => render e ++ "." ++ op.name ++ "()"
  | choose p a b =>
    "when(" ++ render p ++ ").then(" ++ render a ++ ").otherwise(" ++ render b ++ ")"
  | fillNull e fill => render e ++ ".fill_null(" ++ render fill ++ ")"
  | fillNan e fill => render e ++ ".fill_nan(" ++ render fill ++ ")"
  | isIn e items => render e ++ ".is_in([" ++ renderList items ++ "])"
  | between e low high => render e ++ ".is_between(" ++ render low ++ ", "
    ++ render high ++ ")"
  | coalesce items => "coalesce(" ++ renderList items ++ ")"
  | least items => "min_horizontal(" ++ renderList items ++ ")"
  | greatest items => "max_horizontal(" ++ renderList items ++ ")"
  | call f items => f.name ++ "(" ++ renderList items ++ ")"
  | reduce f e (some filter) => render e ++ ".filter(" ++ render filter ++ ")."
    ++ f.name ++ "()"
  | reduce f e none => render e ++ "." ++ f.name ++ "()"
  | countRows (some filter) => "len().filter(" ++ render filter ++ ")"
  | countRows none => "len()"

def renderList : List Expr → String
  | [] => ""
  | [e] => render e
  | e :: rest => render e ++ ", " ++ renderList rest

end

end Expr

end TypedQuery
