/-!
# Errors

What can go wrong when an expression is built, compiled or executed. `Error.message`
is the only place that words an error as a whole; the texts carried by the
constructors say what happened.
-/

namespace TypedQuery

/-- Why a column computation failed. -/
inductive ComputeFailure where
  | divideByZero
  | arithmeticOverflow
  | cast
  | invalidArgument
  | unsupported
  deriving DecidableEq

inductive Error where
  /-- A field was refused when a node was built. -/
  | validation (node field reason : String)
  /-- No rule of the target takes this kind of node. -/
  | dispatch (node backend : String)
  /-- A field that a target needs as a constant was given an expression. -/
  | unsupportedArgument (node field backend : String)
  | inexpressible (text : String)
  | type (text : String)
  | value (text : String)
  | schema (text : String)
  | execution (text : String)
  | notImplemented (text : String)
  | internal (text : String)
  | compute (failure : ComputeFailure)
  deriving DecidableEq

namespace ComputeFailure

def text : ComputeFailure → String
  | divideByZero => "division by zero"
  | arithmeticOverflow => "arithmetic overflow"
  | cast => "no conversion between the types"
  | invalidArgument => "invalid argument"
  | unsupported => "unsupported type"

end ComputeFailure

namespace Error

def message : Error → String
  | validation node field reason => "ValidationError: " ++ node ++ "." ++ field
    ++ ": " ++ reason
  | dispatch node backend =>
    "DispatchError: operation " ++ node ++ " is not defined for the "
      ++ backend ++ " backend"
  | unsupportedArgument node field backend =>
    "UnsupportedArgumentError: " ++ node ++ "." ++ field
      ++ " must be a literal for the " ++ backend
      ++ " backend"
  | inexpressible text => "TranslationError: " ++ text
  | type text => "TypeError: " ++ text
  | value text => "ValueError: " ++ text
  | schema text => "SchemaError: " ++ text
  | execution text => "ExecutionError: " ++ text
  | notImplemented text => "NotImplemented: " ++ text
  | internal text => "InternalError: " ++ text
  | compute failure => "ComputeError: " ++ failure.text

/-- Names the node that a refused field belongs to. -/
def withNode (owner : String) : Error → Error
  | validation _ field reason => validation owner field reason
  | e => e

def isValidation : Error → Bool
  | validation .. => true
  | _ => false

end Error

end TypedQuery
