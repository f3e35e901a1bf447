import TypedQuery.Json.Decode

/-!
# Configuration

Settings of the compiler, of the SQL target and of the engine. In JSON every section and
every setting may be missing and then has its default.
-/

namespace TypedQuery

/-- Where a target starts to count positions inside a text. -/
inductive IndexOrigin where
  | zero
  | one
  deriving DecidableEq

/-- What is added to a position that counts from zero. -/
def IndexOrigin.offset : IndexOrigin → Int
  | zero => 0
  | one => 1

def IndexOrigin.name : IndexOrigin → String
  | zero => "Zero"
  | one => "One"

def IndexOrigin.ofName? : String → Option IndexOrigin
  | "Zero" => some zero
  | "One" => some one
  | _ => none

structure CompilerConfig where
  /-- Keep the output of each node for equal nodes met later. -/
  memoize : Bool := true
  deriving DecidableEq

structure SqlConfig where
  identifierQuote : Char := '\x60'
  indexOrigin : IndexOrigin := .one
  deriving DecidableEq

structure EngineConfig where
  nullJoinKeysMatch : Bool := false
  deriving DecidableEq

structure Config where
  compiler : CompilerConfig := {}
  sql : SqlConfig := {}
  engine : EngineConfig := {}
  deriving DecidableEq

namespace Config

def toJson (c : Config) : Json :=
  .object [
    ("compiler", .object [("memoize", .bool c.compiler.memoize)]),
    ("sql", .object [
      ("identifier_quote", .string c.sql.identifierQuote.toString),
      ("index_origin", .string c.sql.indexOrigin.name)]),
    ("engine", .object [("null_join_keys_match", .bool c.engine.nullJoinKeysMatch)])]

/-- A setting that keeps its default when it is missing. -/
def setting (default : α) (read : Json → Option α) : Option Json → Option α
  | none => some default
  | some j => read j

def compilerOfJson? (j : Json) : Option CompilerConfig :=
  match j.record? ["memoize"] with
  | some [memoize] => do some ⟨← setting true Json.bool? memoize⟩
  | _ => none

def sqlOfJson? (j : Json) : Option SqlConfig :=
  match j.record? ["identifier_quote", "index_origin"] with
  | some [quote, origin] => do
    some ⟨← setting '\x60' Json.char? quote,
      ← setting .one (fun j => j.unitVariant?.bind IndexOrigin.ofName?) origin⟩
  | _ => none

def engineOfJson? (j : Json) : Option EngineConfig :=
  match j.record? ["null_join_keys_match"] with
  | some [nulls] => do some ⟨← setting false Json.bool? nulls⟩
  | _ => none

def ofJson? (j : Json) : Option Config :=
  match j.record? ["compiler", "sql", "engine"] with
  | some [compiler, sql, engine] => do
    some ⟨← setting {} compilerOfJson? compiler, ← setting {} sqlOfJson? sql,
      ← setting {} engineOfJson? engine⟩
  | _ => none

def parse? (text : String) : Option Config := (Json.parse? text).bind ofJson?

end Config

end TypedQuery
