import TypedQuery.Error
import TypedQuery.Node.Validator

/-!
# Signatures

The fields of a kind of node are the parameters of its signature. A call gives arguments by
position and by keyword; `Signature.validate` binds them to the parameters, fills in
defaults and validates every field in order, so that a default and a validator may look at
the fields before it. `Signature.unbind` gives back a call.
-/

namespace TypedQuery

/-- How a parameter takes arguments. -/
inductive Binding where
  /-- By position or by keyword. -/
  | positional
  | keyword
  /-- All remaining arguments given by position, as a sequence. -/
  | variadic
  deriving DecidableEq

/-- What a parameter holds when the call does not say. -/
inductive Default where
  | required
  /-- Made from the fields before it. -/
  | produced (make : Fields → Arg)

structure Parameter where
  name : String
  binding : Binding
  default : Default
  validator : Validator

namespace Parameter

def required (name : String) (validator : Validator) : Parameter :=
  ⟨name, .positional, .required, validator⟩

def produced (name : String) (make : Fields → Arg) (validator : Validator) : Parameter :=
  ⟨name, .positional, .produced make, validator⟩

def defaulted (name : String) (a : Arg) (validator : Validator) : Parameter :=
  produced name (fun _ => a) validator

def optional (name : String) (validator : Validator) : Parameter :=
  defaulted name .none (.optional validator)

def variadic (name : String) (validator : Validator) : Parameter :=
  ⟨name, .variadic, .required, .tupleOf validator⟩

/-- The parameter without its position; a variadic one stays as it is. -/
def keywordOnly (p : Parameter) : Parameter :=
  match p.binding with
  | .positional => { p with binding := .keyword }
  | _ => p

def isMandatory (p : Parameter) : Bool :=
  match p.default with
  | .required => true
  | .produced _ => false

def isVariadic (p : Parameter) : Bool := decide (p.binding = .variadic)

end Parameter

structure Signature where
  params : List Parameter

namespace Signature

def names (s : Signature) : List String := s.params.map (·.name)

def param? (s : Signature) (name : String) : Option Parameter :=
  s.params.find? (·.name == name)

/-! ## Merging -/

/-- Replaces the parameter of that name where it stands, or adds it at the end. -/
def insert (p : Parameter) : List Parameter → List Parameter
  | [] => [p]
  | q :: rest => if q.name = p.name then p :: rest else q :: insert p rest

def insertAll (params more : List Parameter) : List Parameter :=
  more.foldl (fun params p => insert p params) params

/-- Nothing takes a position after a variadic parameter. -/
def closeAfterVariadic (after : Bool) : List Parameter → List Parameter
  | [] => []
  | p :: rest =>
    (if after then p.keywordOnly else p) :: closeAfterVariadic (after || p.isVariadic) rest

/-- The signature with the parameters of `parents` and those declared besides. A
declared parameter takes the place of an inherited one of its name. Mandatory ones come
first, the inherited before the declared, and then the optional ones, the declared
before the inherited. -/
def merge (parents : List Signature) (declared : Signature) : Signature :=
  let inherited := insertAll [] (parents.flatMap (·.params))
  let declaredParams :=
    if inherited.any Parameter.isVariadic then declared.params.map Parameter.keywordOnly
      else declared.params
  let params := insertAll inherited declaredParams
  let isInherited (p : Parameter) : Bool := inherited.any (·.name == p.name)
  ⟨closeAfterVariadic false
    (params.filter (fun p => isInherited p && p.isMandatory)
      ++ params.filter (fun p => !isInherited p && p.isMandatory)
      ++ params.filter (fun p => !isInherited p && !p.isMandatory)
      ++ params.filter (fun p => isInherited p && !p.isMandatory))⟩

/-! ## Calls -/

/-- What each parameter gets by position, and the arguments left over. -/
def takePositional : List Parameter → List Arg → List (Parameter × Option Arg) × List Arg
  | [], args => ([], args)
  | p :: rest, args =>
    match p.binding with
    | .positional =>
      let (slots, left) := takePositional rest args.tail
      ((p, args.head?) :: slots, left)
    | .variadic =>
      let (slots, left) := takePositional rest []
      ((p, if args.isEmpty then none else some (.seq args)) :: slots, left)
    | .keyword =>
      let (slots, left) := takePositional rest args
      ((p, none) :: slots, left)

/-- Gives an argument to the parameter of a name. -/
def giveKeyword (owner name : String) (a : Arg) :
    List (Parameter × Option Arg) → Except Error (List (Parameter × Option Arg))
  | [] => .error (.validation owner name "unexpected keyword argument")
  | (p, slot) :: rest =>
    if p.name = name then
      match slot with
      | none => .ok ((p, some a) :: rest)
      | some _ => .error (.validation owner name "got multiple values for argument")
    else do .ok ((p, slot) :: (← giveKeyword owner name a rest))

def giveKeywords (owner : String) (slots : List (Parameter × Option Arg)) :
    List (String × Arg) → Except Error (List (Parameter × Option Arg))
  | [] => .ok slots
  | (name, a) :: rest => do giveKeywords owner (← giveKeyword owner name a slots) rest

/-- The argument of a parameter that was given one or has a default. -/
def argument (owner : String) (bound : Fields) (p : Parameter) :
    Option Arg → Except Error Arg
  | some a => .ok a
  | none =>
    match p.default with
    | .produced make => .ok (make bound)
    | .required =>
      if p.isVariadic then .ok (.seq [])
      else .error (.validation owner p.name "missing required argument")

def bindSlots (owner : String) (bound : Fields) :
    List (Parameter × Option Arg) → Except Error Fields
  | [] => .ok bound
  | (p, slot) :: rest => do
    let a ← argument owner bound p slot
    match p.validator.validate a bound with
    | .ok a => bindSlots owner (Fields.insert bound p.name a) rest
    | .error reason => .error (.validation owner p.name reason)

/-- The fields that a call makes; `owner` names the kind of node in messages. -/
def validate (s : Signature) (owner : String) (args : List Arg)
    (kwargs : List (String × Arg)) :
    Except Error Fields := do
  let (slots, left) := takePositional s.params args
  if left.isEmpty then
    bindSlots owner [] (← giveKeywords owner slots kwargs)
  else
    .error (.validation owner "*args"
      ("got " ++ toString left.length ++ " unexpected positional argument(s)"))

/-- The arguments by position of a call that makes these fields. -/
def positionalOf (fields : Fields) : List Parameter → List Arg
  | [] => []
  | p :: rest =>
    let a := (Fields.field? fields p.name).getD .none
    match p.binding, a with
    | .positional, a => a :: positionalOf fields rest
    | .variadic, .seq items => items ++ positionalOf fields rest
    | .variadic, a => a :: positionalOf fields rest
    | .keyword, _ => positionalOf fields rest

def keywordsOf (fields : Fields) (params : List Parameter) : List (String × Arg) :=
  (params.filter fun p => decide (p.binding = .keyword)).map fun p =>
    (p.name, (Fields.field? fields p.name).getD .none)

/-- A call that makes these fields. -/
def unbind (s : Signature) (fields : Fields) : List Arg × List (String × Arg) :=
  (positionalOf fields s.params, keywordsOf fields s.params)

end Signature

end TypedQuery
