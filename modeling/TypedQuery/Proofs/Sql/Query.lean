import TypedQuery.Proofs.Emission.Memo
import TypedQuery.Proofs.Join.Names
import TypedQuery.Proofs.Node.Equality
import TypedQuery.Sql.Compile

/-!
# Statements as trees

An entry of the select list of a join is a column of one of its two sides, under a name.
`joinItems` lists the entries as data, and `joinRule_eq_ok` proves that the text of a join
is a `SELECT` of exactly these entries.

The text of a table is a `SELECT`, and the items of its `FROM` clause hold further ones.
`Query` keeps apart what the text runs together: the labels, the entries of the select
lists and, within the clauses, the references to columns of items. Its other pieces can't
be mistaken for references or labels: a word has no dot and no quote in it and begins no
label, a constant is a literal and a name is quoted.
-/

namespace TypedQuery.Sql

open Emission

/-! ## Words -/

/-- The characters of words: letters, digits and the signs around them. A quote, which
begins a name or a constant, is none of them, and neither is the dot of a reference. -/
def isWordChar (c : Char) : Bool := c.isAlphanum || "_ (),<>=+-*/%&|^~!".toList.contains c

def wordsOf (text : String) : List (List Char) :=
  text.toList.splitOnP fun c => !(c.isAlphanum || c == '_')

/-- A label is a `t` with a number, the digits of which may be yet to come. -/
def beginsLabel : List Char → Bool
  | 't' :: digits => digits.all Char.isDigit
  | _ => false

/-- The text is made of words, none of which is a label or becomes one by what follows. -/
def IsPlain (text : String) : Prop :=
  (∀ c ∈ text.toList, isWordChar c = true) ∧ ∀ word ∈ wordsOf text, beginsLabel word = false

instance (text : String) : Decidable (IsPlain text) :=
  @instDecidableAnd _ _ (List.decidableBAll _ _) (List.decidableBAll _ _)

/-! ## Select lists of joins -/

/-- The items of a `FROM` clause: the only one, or the two sides of a join. -/
inductive Side where
  | only
  | left
  | right
  deriving DecidableEq

/-- A column of an item of the `FROM` clause, under a name. -/
structure Item where
  side : Side
  column : String
  name : String
  deriving DecidableEq

/-- The entry as it is written; a name is only given where it differs. -/
def Item.render (s : Statement) (labels : Side → String) (i : Item) : String :=
  let text := s.qualified (labels i.side) i.column
  if i.column = i.name then text else text ++ " AS " ++ s.quote i.name

/-- The select list of a join of tables with these columns. -/
def joinItems (left right : List String) : List Item :=
  left.map (fun name => ⟨.left, name, name⟩)
    ++ right.map fun name => ⟨.right, name, Rules.markedName left name⟩

theorem joinItems_names (left right : List String) :
    (joinItems left right).map Item.name = Rules.markedNames left right := by
  simp [joinItems, Rules.markedNames, Function.comp_def]

def sideLabels (left right : String) : Side → String
  | .right => right
  | _ => left

theorem render_joinItems (s : Statement) (leftLabel rightLabel : String) (l r : Schema) :
    (joinItems l.names r.names).map (Item.render s (sideLabels leftLabel rightLabel))
      = l.names.map (s.qualified leftLabel) ++ r.columns.map (rightItem s rightLabel l) := by
  rw [joinItems, List.map_append]
  congr 1
  · simp [Item.render, sideLabels]
  · have hright : r.names = r.columns.map (·.name) := rfl
    rw [hright, List.map_map, List.map_map]
    refine List.map_congr_left fun column _ => ?_
    simp only [Function.comp, Item.render, sideLabels, rightItem, Rules.markedName]
    by_cases hleft : column.name ∈ l.names
    · have hne := Rules.append_rightMark_ne column.name
      rw [if_pos hleft, if_neg hne.symm, if_pos (Schema.contains_iff.2 hleft)]
    · rw [if_neg hleft, if_pos rfl, if_neg (by rw [Schema.contains_iff]; exact hleft)]

/-- What the rule for a join writes, and what it makes of the statement at the end. -/
theorem joinRule_eq_ok {kind : NodeKind} {keyword text : String} {n : Node}
    {emit : Node → Writing String} {s after : Session Statement String}
    (hkind : kind ∈ NodeKind.wideJoins)
    (h : (joinRule kind keyword emit n).run s = (.ok text, after)) :
    ∃ left right leftItem rightItem predicates l r s₁ s₂ s₃,
      n.child "left" = .ok left ∧ n.child "right" = .ok right
        ∧ (fromItem emit left).run s = (.ok leftItem, s₁)
        ∧ (fromItem emit right).run s₁ = (.ok rightItem, s₂)
        ∧ (sequence emit n "predicates").run s₂ = (.ok predicates, s₃)
        ∧ left.outputSchema = .ok l ∧ right.outputSchema = .ok r
        ∧ text = Select.render {
            source := joinSource kind keyword leftItem.1 rightItem.1 predicates
            items := (joinItems l.names r.names).map
              (Item.render s₃.target (sideLabels leftItem.2 rightItem.2)) }
        ∧ after = { s₃ with target := s₃.target.rename rightItem.2 (rightRenames l r) } := by
  obtain ⟨left, hleft, h⟩ := run_lift_bind_eq_ok h
  obtain ⟨right, hright, h⟩ := run_lift_bind_eq_ok h
  obtain ⟨leftItem, s₁, hleftItem, h⟩ := run_bind_eq_ok h
  obtain ⟨rightItem, s₂, hrightItem, h⟩ := run_bind_eq_ok h
  obtain ⟨predicates, s₃, hpredicates, h⟩ := run_bind_eq_ok h
  have hwide : (kind = .leftSemiJoin || kind = .leftAntiJoin) = false := by
    rcases NodeKind.mem_wideJoins.1 hkind with rfl | rfl | rfl | rfl <;> rfl
  simp only [] at h
  rw [if_neg (by rw [hwide]; exact Bool.false_ne_true)] at h
  obtain ⟨l, hl, h⟩ := run_lift_bind_eq_ok h
  obtain ⟨r, hr, h⟩ := run_lift_bind_eq_ok h
  rw [run_target_bind, ← render_joinItems] at h
  obtain ⟨_, s₄, hupdate, h⟩ := run_bind_eq_ok h
  obtain ⟨htext, hafter⟩ := run_pure_eq_ok h
  refine ⟨left, right, leftItem, rightItem, predicates, l, r, s₁, s₂, s₃, hleft,
    hright, hleftItem, hrightItem, hpredicates, hl, hr, htext, ?_⟩
  rw [hafter]
  cases hupdate
  rfl

theorem resolve_wideJoin {kind : NodeKind} (h : kind ∈ NodeKind.wideJoins) :
    ∃ keyword, IsPlain keyword ∧ rules.resolve kind = .ok (kind, joinRule kind keyword) := by
  rcases NodeKind.mem_wideJoins.1 h with rfl | rfl | rfl | rfl <;> exact ⟨_, by decide, rfl⟩

/-! ## Stored rows -/

section

variable {s : Statement} {text : String}

/-- A cell is a constant or a null, converted to the type of its column and under
the name of the column. -/
theorem cell_eq_ok {column : ColumnInfo} {value : Option Value}
    (h : cell s column value = .ok text) :
    ∃ written type,
      (value = none ∧ written = "NULL" ∨ ∃ v, value = some v ∧ literal v = .ok written)
      ∧ typeName column.dataType = .ok type
      ∧ text = "CAST(" ++ written ++ " AS " ++ type ++ ") AS " ++ s.quote column.name := by
  cases value with
  | none =>
      obtain ⟨written, hwritten, h⟩ := bind_eq_ok.1 h
      obtain ⟨type, htype, h⟩ := bind_eq_ok.1 h
      cases hwritten
      cases h
      exact ⟨_, type, .inl ⟨rfl, rfl⟩, htype, rfl⟩
  | some v =>
      obtain ⟨written, hwritten, h⟩ := bind_eq_ok.1 h
      obtain ⟨type, htype, h⟩ := bind_eq_ok.1 h
      cases h
      exact ⟨written, type, .inr ⟨v, rfl, hwritten⟩, htype, rfl⟩

/-- The text selects one cell for each of the columns. -/
def IsRow (s : Statement) (columns : List ColumnInfo) (text : String) : Prop :=
  ∃ texts, text = "SELECT " ++ ", ".intercalate texts
    ∧ List.Forall₂ (fun column text => ∃ value, cell s column value = .ok text) columns texts

theorem isRow_of_rowText {columns : List ColumnInfo} {values : List (Option Value)}
    (hlength : values.length = columns.length) (h : rowText s columns values = .ok text) :
    IsRow s columns text := by
  obtain ⟨texts, htexts, htext⟩ := bind_eq_ok.1 h
  cases htext
  refine ⟨texts, rfl, ?_⟩
  clear h
  induction columns generalizing values texts with
  | nil =>
      cases htexts
      exact .nil
  | cons column columns ih =>
      cases values with
      | nil => cases hlength
      | cons value values =>
          obtain ⟨text, htext, h⟩ := bind_eq_ok.1 htexts
          obtain ⟨more, hmore, h⟩ := bind_eq_ok.1 h
          cases h
          exact .cons ⟨value, htext⟩ (ih (Nat.succ.inj hlength) more hmore)

/-- A stored table is written row by row. Without rows, a row is written all the
same, and then dropped. -/
theorem storedRows_eq_ok {n : Node} (hn : n.Built) (hkind : n.kind = .inMemoryTable)
    (h : storedRows s n = .ok text) :
    ∃ schema first, n.outputSchema = .ok schema ∧ IsRow s schema.columns first
      ∧ (text = first ++ " LIMIT 0"
        ∨ ∃ rest, text = " UNION ALL ".intercalate (first :: rest)
          ∧ ∀ t ∈ rest, IsRow s schema.columns t) := by
  obtain ⟨schema, hschema, h⟩ := bind_eq_ok.1 h
  obtain ⟨data, hdata, h⟩ := bind_eq_ok.1 h
  split at h
  · cases h
  · obtain ⟨row, hrow, h⟩ := bind_eq_ok.1 h
    cases h
    exact ⟨schema, row, hschema, isRow_of_rowText (List.length_map _) hrow, .inl rfl⟩
  · next rows hnonempty hdata' =>
      obtain ⟨texts, htexts, h⟩ := bind_eq_ok.1 h
      cases h
      have hall : ∀ t ∈ texts, IsRow s schema.columns t := by
        intro t ht
        obtain ⟨row, hrow, ht⟩ := exists_of_forall₂_right (mapM_eq_ok.1 htexts) ht
        obtain ⟨cells, hcells, hlength⟩ :=
          hn.length_of_row hkind hschema hdata hdata' row hrow
        exact isRow_of_rowText (by rw [List.length_map, hcells]; exact hlength) ht
      cases mapM_eq_ok.1 htexts with
      | nil => exact absurd rfl hnonempty
      | cons _ _ =>
          obtain ⟨hfirst, hrest⟩ := List.forall_mem_cons.1 hall
          exact ⟨schema, _, hschema, hfirst, .inr ⟨_, rfl, hrest⟩⟩

end

/-! ## Clauses -/

inductive Token where
  | word (text : String) (plain : IsPlain text)
  | constant (value : Value) (text : String) (written : literal value = .ok text)
  | name (name : String)
  /-- A column of an item of the `FROM` clause. -/
  | reference (label column : String)

namespace Token

def text (quote : Char) : Token → String
  | word text _ => text
  | constant _ text _ => text
  | name n => quoted quote n
  | reference label column => label ++ "." ++ quoted quote column

def label? : Token → Option String
  | reference label _ => some label
  | _ => none

end Token

abbrev Fragment := List Token

namespace Fragment

def text (quote : Char) : Fragment → String
  | [] => ""
  | token :: rest => token.text quote ++ text quote rest

def labels (f : Fragment) : List String := f.filterMap Token.label?

theorem text_append (quote : Char) (f g : Fragment) :
    text quote (f ++ g) = text quote f ++ text quote g := by
  induction f with
  | nil => simp [text]
  | cons token rest ih => simp [text, ih, String.append_assoc]

theorem labels_append (f g : Fragment) : labels (f ++ g) = labels f ++ labels g :=
  List.filterMap_append

end Fragment

/-- An entry of a select list. -/
inductive Entry where
  /-- All columns of an item. -/
  | all (label : String)
  | column (label column name : String)
  /-- A column of an item with a value in place of its nulls. -/
  | filled (label column : String) (replacement : Fragment)
  /-- A value, which is given its name unless it goes by that name anyway. -/
  | value (f : Fragment) (name : String) (keepsName : Bool)

namespace Entry

def text (quote : Char) : Entry → String
  | all label => label ++ ".*"
  | column label c name =>
    let item := label ++ "." ++ quoted quote c
    if c = name then item else item ++ " AS " ++ quoted quote name
  | filled label c replacement => "coalesce(" ++ (label ++ "." ++ quoted quote c) ++ ", "
    ++ replacement.text quote ++ ") AS " ++ quoted quote c
  | value f name keepsName => if keepsName then f.text quote else f.text quote ++ " AS "
    ++ quoted quote name

def labels : Entry → List String
  | all label | column label _ _ => [label]
  | filled label _ replacement => label :: replacement.labels
  | value f _ _ => f.labels

/-- `e.Passes label column name`: the entry hands on a column of the item under
the name, up to nulls. -/
inductive Passes : Entry → String → String → String → Prop where
  | all (label c : String) : Passes (.all label) label c c
  | column (label c name : String) : Passes (.column label c name) label c name
  | filled (label c : String) (replacement : Fragment) :
    Passes (.filled label c replacement) label c c

end Entry

/-- The clauses of a `SELECT`, except for `FROM`. -/
structure Clauses where
  distinct : Bool := false
  entries : List Entry
  filters : List Fragment := []
  /-- Positions of entries. -/
  groupBy : List Nat := []
  orderBy : List Fragment := []
  limit : Option Int := none
  offset : Int := 0

namespace Clauses

def select (quote : Char) (c : Clauses) (source : String) : Select where
  distinct := c.distinct
  items := c.entries.map (Entry.text quote)
  source := source
  filters := c.filters.map (Fragment.text quote)
  groupBy := c.groupBy.map toString
  orderBy := c.orderBy.map (Fragment.text quote)
  limit := c.limit
  offset := c.offset

/-- Every label that is referred to. -/
def labels (c : Clauses) : List String :=
  c.entries.flatMap Entry.labels ++ c.filters.flatMap Fragment.labels
    ++ c.orderBy.flatMap Fragment.labels

end Clauses

/-! ## Queries -/

/-- The text of a table, with the tables that stand in its `FROM` clause. -/
inductive Query where
  /-- A table of the database, which has its name as an item and is selected from as a
  statement. -/
  | stored (table : Node) (name : String)
  /-- Rows of constants, selected one by one. The first row names the columns. -/
  | rows (table : Node) (first : List Entry) (rest : Fragment)
  /-- A `SELECT` from one item. When `renames`, it names its columns itself. -/
  | single (table : Node) (clauses : Clauses) (label : String) (source : Query)
    (renames : Bool)
  | joined (table : Node) (clauses : Clauses) (keyword : String)
      (predicates : List Fragment) (leftLabel : String)
      (left : Query) (rightLabel : String) (right : Query) (changes : Renames)

/-- The tables of a subquery are reached through its label, and the table itself directly. -/
def Scope.withItem (scope : Scope) (label : String) (table : Node)
    (inside : Scope) : Scope :=
  inside.foldl (fun scope (table, reach) => scope.bringIn label table reach)
    (scope.insert table (.through label true []))

namespace Query

def table : Query → Node
  | stored table _ | rows table _ _ | single table _ _ _ _
  | joined table _ _ _ _ _ _ _ _ => table

/-- As an item of a `FROM` clause, when `text` is the text of the query. -/
def itemText (quote : Char) (label text : String) : Query → String
  | stored _ name => quoted quote name ++ " " ++ label
  | _ => "(" ++ text ++ ") " ++ label

def text (quote : Char) : Query → String
  | stored _ name => "SELECT * FROM " ++ quoted quote name
  | rows _ first rest => "SELECT " ++ ", ".intercalate (first.map (Entry.text quote))
    ++ rest.text quote
  | single _ clauses label source _ =>
    (clauses.select quote (source.itemText quote label (source.text quote))).render
  | joined table clauses keyword predicates leftLabel left rightLabel right _ =>
    (clauses.select quote
      (joinSource table.kind keyword (left.itemText quote leftLabel (left.text quote))
      (right.itemText quote rightLabel (right.text quote))
        (predicates.map (Fragment.text quote)))).render

def item (quote : Char) (q : Query) (label : String) : String :=
  q.itemText quote label (q.text quote)

/-- What remains reachable of the scope of the query: behind an aggregation nothing does. -/
def exported (scope : Scope) (q : Query) : Scope :=
  if q.table.kind = .aggregation then [] else scope

/-- Every label that is introduced in a `FROM` clause, as often as it is. -/
def labels : Query → List String
  | stored _ _ | rows _ _ _ => []
  | single _ _ label source _ => source.labels ++ [label]
  | joined _ _ _ _ leftLabel left rightLabel right _ =>
    (left.labels ++ [leftLabel]) ++ (right.labels ++ [rightLabel])

/-- Every reference is to a label that is introduced in the `FROM` clause of the same
`SELECT`. -/
def WellScoped : Query → Prop
  | stored _ _ => True
  | rows _ first rest => first.flatMap Entry.labels ++ rest.labels = []
  | single _ clauses label source _ => (∀ l ∈ clauses.labels, l = label) ∧ source.WellScoped
  | joined _ clauses _ predicates leftLabel left rightLabel right _ =>
    (∀ l ∈ clauses.labels ++ predicates.flatMap Fragment.labels, l = leftLabel
      ∨ l = rightLabel)
      ∧ left.WellScoped ∧ right.WellScoped

/-- The names of the columns that the statement gives. -/
def outputs : Query → List String
  | stored table _ => (table.schema?.map Schema.names).getD []
  | rows _ first _ => first.flatMap (entryOutputs fun _ => [])
  | single _ clauses _ source _ =>
    clauses.entries.flatMap (entryOutputs fun _ => source.outputs)
  | joined _ clauses _ _ leftLabel left _ right _ =>
    clauses.entries.flatMap (entryOutputs fun label => if label = leftLabel then
      left.outputs else right.outputs)
where
  entryOutputs (item : String → List String) : Entry → List String
    | .all label => item label
    | .column _ _ name | .value _ name _ => [name]
    | .filled _ column _ => [column]

/-- The scope of the statement when it is complete. -/
def scope : Query → Scope
  | stored _ _ | rows _ _ _ => []
  | single _ _ label source renames =>
    let scope := Scope.withItem [] label source.table (source.exported source.scope)
    if renames then scope.map fun (table, reach) => (table, reach.forgetRenames) else scope
  | joined _ _ _ _ leftLabel left rightLabel right changes =>
    let scope :=
      (Scope.withItem [] leftLabel left.table (left.exported left.scope)).withItem
        rightLabel right.table
      (right.exported right.scope)
    scope.map fun (table, reach) => (table, reach.rename rightLabel changes)

/-- The tables of the query that remain reachable. -/
def inside (q : Query) : Scope := q.exported q.scope

end Query

end TypedQuery.Sql

/-!
## Lookups in scopes

The scope of a query is put together from its items, each of which adds its own
table and those inside it. A lookup follows the steps: an item is found as itself, a
table inside it with the label of the item, and one that was there before is found
as an item or is ambiguous.
-/

namespace TypedQuery.Sql

/-- What is known of a table when a subquery with the label brings it in. -/
def Reach.beside (label : String) : Option Reach → Reach → Reach
  | none, inside => inside.exported label
  | some known, _ => if known.isDirect then known else .ambiguous

namespace Scope

variable {scope inside : Scope} {t table : Node}

/-- Each table is there once. -/
def Distinct (scope : Scope) : Prop := scope.Pairwise fun x y => (x.1 == y.1) = false

theorem Distinct.nil : Distinct [] := List.Pairwise.nil

theorem reach?_cons (t table : Node) (reach : Reach) (rest : Scope) :
    Scope.reach? ((t, reach) :: rest) table = if t == table then some reach
      else rest.reach? table := by
  cases heq : t == table <;> simp [reach?, heq]

theorem reach?_eq_none :
    scope.reach? table = none ↔ ∀ x ∈ scope, (x.1 == table) = false := by
  simp [reach?]

theorem reach?_insert (scope : Scope) (t table : Node) (reach : Reach) :
    (scope.insert t reach).reach? table = if t == table then some reach
      else scope.reach? table := by
  induction scope with
  | nil => exact reach?_cons t table reach []
  | cons x rest ih =>
      obtain ⟨u, known⟩ := x
      rw [insert, reach?_cons]
      split
      · next heq =>
          rw [reach?_cons, BEq.congr_left heq]
          split <;> rfl
      · next hne =>
          rw [reach?_cons, ih]
          by_cases hu : u == table
          · have hother : ¬ (t == table) = true := fun ht => hne (BEq.trans hu (BEq.symm ht))
            rw [if_pos hu, if_neg hother, if_pos hu]
          · rw [if_neg hu, if_neg hu]

/-- A table takes its place at the end unless it has one. -/
theorem insert_eq (scope : Scope) (t : Node) (reach : Reach) :
    (scope.insert t reach).map Prod.fst = scope.map Prod.fst
      ∨ (∀ x ∈ scope, (x.1 == t) = false)
        ∧ scope.insert t reach = scope ++ [(t, reach)] := by
  induction scope with
  | nil => exact Or.inr ⟨fun _ hx => absurd hx List.not_mem_nil, rfl⟩
  | cons x rest ih =>
      obtain ⟨u, known⟩ := x
      rw [insert]
      split
      · exact Or.inl rfl
      · next hne =>
          rcases ih with hsame | ⟨hnew, hlast⟩
          · exact Or.inl (congrArg (u :: ·) hsame)
          · exact Or.inr ⟨List.forall_mem_cons.2 ⟨by simpa using hne, hnew⟩,
              congrArg ((u, known) :: ·) hlast⟩

theorem distinct_iff :
    Distinct scope ↔ (scope.map Prod.fst).Pairwise fun a b => (a == b) = false := by
  rw [List.pairwise_map, Distinct]

theorem Distinct.insert (h : Distinct scope) (t : Node) (reach : Reach) :
    Distinct (scope.insert t reach) := by
  rcases insert_eq scope t reach with hsame | ⟨hnew, hlast⟩
  · rw [distinct_iff, hsame, ← distinct_iff]
    exact h
  · rw [hlast]
    refine List.pairwise_append.2 ⟨h, List.pairwise_singleton _ _, fun x hx y hy => ?_⟩
    rw [List.mem_singleton.1 hy]
    exact hnew x hx

theorem Distinct.bringIn (h : Distinct scope) (label : String) (t : Node) (reach : Reach) :
    Distinct (scope.bringIn label t reach) := by
  unfold Scope.bringIn
  split
  · exact h.insert t _
  · split
    · exact h
    · exact h.insert t _

theorem reach?_bringIn (scope : Scope) (label : String) (t table : Node) (reach : Reach) :
    (scope.bringIn label t reach).reach? table
      = if t == table then some (Reach.beside label (scope.reach? table) reach)
        else scope.reach? table := by
  have hsame : t == table → scope.reach? t = scope.reach? table := by
    intro heq
    have hkeys : (fun x : Node × Reach => x.1 == t) = fun x => x.1 == table :=
      funext fun x => BEq.congr_right heq
    rw [reach?, reach?, hkeys]
  unfold Scope.bringIn
  split
  · next hnone =>
      rw [reach?_insert]
      split
      · next heq => rw [← hsame heq, hnone, Reach.beside]
      · rfl
  · next known hknown =>
      split
      · next hdirect =>
          split
          · next heq => rw [← hsame heq, hknown, Reach.beside, if_pos hdirect]
          · rfl
      · next hindirect =>
          rw [reach?_insert]
          split
          · next heq => rw [← hsame heq, hknown, Reach.beside, if_neg hindirect]
          · rfl

/-- Bringing in all tables of a subquery. -/
theorem Distinct.foldl_bringIn (h : Distinct scope) (inside : Scope) (label : String) :
    Distinct (inside.foldl (fun scope (t, reach) => scope.bringIn label t reach) scope) := by
  induction inside generalizing scope with
  | nil => exact h
  | cons x rest ih => exact ih (h.bringIn label x.1 x.2)

theorem reach?_foldl_bringIn (scope : Scope) (hinside : Distinct inside) (label : String)
    (table : Node) :
    (inside.foldl (fun scope (t, reach) => scope.bringIn label t reach) scope).reach? table
      = match inside.reach? table with
        | none => scope.reach? table
        | some reach => some (Reach.beside label (scope.reach? table) reach) := by
  induction inside generalizing scope with
  | nil => rfl
  | cons x rest ih =>
      obtain ⟨t, reach⟩ := x
      obtain ⟨hnew, hdistinct⟩ := List.pairwise_cons.1 hinside
      rw [List.foldl_cons, ih _ hdistinct, reach?_bringIn, reach?_cons]
      by_cases heq : t == table
      · -- The table is not brought in a second time.
        have hrest : Scope.reach? rest table = none :=
          reach?_eq_none.2 fun y hy =>
            by rw [BEq.comm, ← BEq.congr_left heq]; exact hnew y hy
        rw [hrest, if_pos heq, if_pos heq]
      · rw [if_neg heq, if_neg heq]

theorem Distinct.withItem (h : Distinct scope) (label : String) (t : Node) (inside : Scope) :
    Distinct (scope.withItem label t inside) :=
  (h.insert t _).foldl_bringIn inside label

/-- The table of an item is reached directly, whatever the item brings in. -/
theorem reach?_withItem (scope : Scope) (label : String) (t : Node)
    (hinside : Distinct inside) (table : Node) :
    (scope.withItem label t inside).reach? table
      = if t == table then some (.through label true [])
        else match inside.reach? table with
          | none => scope.reach? table
          | some reach => some (Reach.beside label (scope.reach? table) reach) := by
  rw [Scope.withItem, reach?_foldl_bringIn _ hinside, reach?_insert]
  cases t == table
  · rfl
  · cases inside.reach? table <;> rfl

theorem reach?_map (scope : Scope) (f : Reach → Reach) (table : Node) :
    Scope.reach? (scope.map fun (t, reach) => (t, f reach)) table
      = (scope.reach? table).map f := by
  induction scope with
  | nil => rfl
  | cons x rest ih =>
      cases heq : x.1 == table
      · simpa [reach?, heq] using ih
      · simp [reach?, heq]

theorem Distinct.map (h : Distinct scope) (f : Reach → Reach) :
    Distinct (scope.map fun (t, reach) => (t, f reach)) := by
  rw [distinct_iff, List.map_map]
  exact distinct_iff.1 h

end Scope

/-! ### Scopes of queries -/

namespace Query

variable {q : Query}

theorem distinct_inside (h : q.scope.Distinct) : q.inside.Distinct := by
  unfold inside exported
  split
  · exact .nil
  · exact h

theorem distinct_scope (q : Query) : q.scope.Distinct := by
  induction q with
  | stored _ _ => exact .nil
  | rows _ _ _ => exact .nil
  | single _ _ label source renames _ =>
      have h := Scope.Distinct.nil.withItem label source.table source.inside
      cases renames
      · exact h
      · exact h.map _
  | joined _ _ _ _ leftLabel left rightLabel right _ _ _ =>
      have h := Scope.Distinct.nil.withItem leftLabel left.table left.inside
      exact (h.withItem rightLabel right.table right.inside).map _

end Query

end TypedQuery.Sql
