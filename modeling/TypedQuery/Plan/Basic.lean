import TypedQuery.Expr.Basic
import TypedQuery.Outline

/-!
# Plans

A plan says how a batch is computed from tables, one step on top of the other. Nothing is
computed before the plan is executed.
-/

namespace TypedQuery

inductive JoinKind where
  | inner
  | left
  | outer
  | semi
  | anti
  deriving DecidableEq

def JoinKind.name : JoinKind → String
  | inner => "inner"
  | left => "left"
  | outer => "outer"
  | semi => "semi"
  | anti => "anti"

inductive Plan where
  | scan (table : String)
  /-- Rows that the plan brings along. -/
  | rows (name : String) (batch : Batch)
  | filter (input : Plan) (predicate : Expr)
  | select (input : Plan) (items : List Expr)
  /-- Adds columns, or puts them in place of those with their names. -/
  | extend (input : Plan) (items : List Expr)
  | sort (input : Plan) (keys : List Expr) (descending : List Bool)
  | slice (input : Plan) (offset : Nat) (length : Option Nat)
  /-- One row for each group; without keys, one for all rows. -/
  | aggregate (input : Plan) (keys metrics : List Expr)
  /-- Columns of the right side whose names the left side has get a suffix. -/
  | join (left right : Plan) (leftKeys rightKeys : List Expr) (kind : JoinKind)
    (suffix : String)
  /-- Drops rows with a null in one of the columns, by default in any. -/
  | dropNulls (input : Plan) (columns : Option (List String))
  | unique (input : Plan)

namespace Plan

def sortKeyText (key : Expr) (descending : Bool) : String :=
  key.render ++ if descending then " desc" else ""

/-- The plan as a tree of its steps. -/
def outline : Plan → Outline
  | scan table => .node "Scan" (some table) []
  | rows name batch =>
    .node "Values" (some (name ++ ", " ++ toString batch.rows ++ " rows")) []
  | filter input predicate => .node "Filter" (some predicate.render) [outline input]
  | select input items => .node "Select" (some (Expr.renderList items)) [outline input]
  | extend input items => .node "WithColumns" (some (Expr.renderList items)) [outline input]
  | sort input keys descending =>
    .node "Sort" (some (", ".intercalate (List.zipWith sortKeyText keys descending)))
      [outline input]
  | slice input offset length =>
    .node "Slice" (some ("offset=" ++ toString offset ++ (match length with
      | some n => ", len=" ++ toString n
      | none => ""))) [outline input]
  | aggregate input keys metrics =>
    .node "Aggregate"
      (some ("by=[" ++ Expr.renderList keys ++ "], aggs=["
        ++ Expr.renderList metrics ++ "]"))
      [outline input]
  | join left right leftKeys rightKeys kind _ =>
    .node "Join"
      (some (kind.name ++ ", left_on=[" ++ Expr.renderList leftKeys ++ "], right_on=["
        ++ Expr.renderList rightKeys ++ "]"))
      [outline left, outline right]
  | dropNulls input columns =>
    .node "DropNulls" (columns.map (", ".intercalate ·)) [outline input]
  | unique input => .node "Unique" none [outline input]

/-- Longer descriptions of a step are cut. -/
def detailWidth : Nat := 120

def explain (p : Plan) : String := p.outline.render (some detailWidth)

end Plan

end TypedQuery
