import TypedQuery.Proofs.Node.Under
import TypedQuery.Proofs.Sql.Written

/-!
# Lists and counts in a statement

`Layout` keeps apart what the text of a statement runs together: its lists, which are the
select lists, the options of a test for membership, the branches of a condition and the
arguments of a function that needs some, and the counts of rows. Each is marked with the
node that it was written for. The words between them begin none of these, and no quote
stands in them that could hide one, so that no list and no count goes unmarked.
-/

namespace TypedQuery

/-! ## What is left empty -/

namespace Node

/-- The node lists what it has none of: columns, options, branches or arguments. -/
def LeavesEmpty (n : Node) : Prop :=
  match n.kind with
  | .aggregation | .inMemoryTable | .fillNa | .innerJoin | .leftJoin | .rightJoin
  | .outerJoin =>
    ∃ s, n.outputSchema = .ok s ∧ s.columns = []
  | .contains | .notContains => n.childList "options" = .ok []
  | .simpleCase | .searchedCase => n.childList "cases" = .ok []
  | .coalesce | .greatest | .least => n.childList "arg" = .ok []
  | _ => False

/-- The kinds that may leave a list empty. -/
def listingKinds : List NodeKind :=
  [.aggregation, .inMemoryTable, .fillNa, .innerJoin, .leftJoin, .rightJoin, .outerJoin,
    .contains, .notContains, .simpleCase, .searchedCase, .coalesce, .greatest, .least]

variable {n : Node}

theorem LeavesEmpty.mem_kinds (h : n.LeavesEmpty) : n.kind ∈ listingKinds := by
  unfold LeavesEmpty at h
  split at h <;> first | exact absurd h id | (simp only [*]; decide)

theorem leavesEmpty_table
    (hk : n.kind ∈ [.aggregation, .inMemoryTable, .fillNa] ++ NodeKind.wideJoins)
    {schema : Schema} (hschema : n.outputSchema = .ok schema) :
    n.LeavesEmpty ↔ schema.columns.length = 0 := by
  have hempty : n.LeavesEmpty ↔ ∃ s, n.outputSchema = .ok s ∧ s.columns = [] := by
    simp only [NodeKind.wideJoins, List.mem_append, List.mem_cons,
      List.not_mem_nil, or_false] at hk
    rcases hk with (hk | hk | hk) | (hk | hk | hk | hk) <;> rw [LeavesEmpty, hk]
  rw [hempty, hschema, List.length_eq_zero_iff]
  constructor
  · rintro ⟨_, heq, hnone⟩
    exact Except.ok.inj heq ▸ hnone
  · intro hnone
    exact ⟨schema, rfl, hnone⟩

theorem leavesEmpty_membership (hk : n.kind ∈ [.contains, .notContains]) :
    n.LeavesEmpty ↔ n.childList "options" = .ok [] := by
  simp only [List.mem_cons, List.not_mem_nil, or_false] at hk
  rcases hk with hk | hk <;> rw [LeavesEmpty, hk]

theorem leavesEmpty_condition (hk : n.kind ∈ [.simpleCase, .searchedCase]) :
    n.LeavesEmpty ↔ n.childList "cases" = .ok [] := by
  simp only [List.mem_cons, List.not_mem_nil, or_false] at hk
  rcases hk with hk | hk <;> rw [LeavesEmpty, hk]

theorem leavesEmpty_variadic (hk : n.kind ∈ [.coalesce, .greatest, .least]) :
    n.LeavesEmpty ↔ n.childList "arg" = .ok [] := by
  simp only [List.mem_cons, List.not_mem_nil, or_false] at hk
  rcases hk with hk | hk | hk <;> rw [LeavesEmpty, hk]

end Node

namespace Sql

/-- The clause that a count of rows stands in. -/
inductive CountClause where
  | limit
  | offset

namespace CountClause

def opening : CountClause → String
  | limit => " LIMIT "
  | offset => " OFFSET "

/-- The field of the node that gives the count. -/
def field : CountClause → String
  | limit => "n"
  | offset => "offset"

end CountClause

/-- The count of rows that a node gives for a clause. -/
def rowCount (n : Node) (clause : CountClause) : Int :=
  if n.kind = .limit then
    match n.intField clause.field with
    | .ok k => k.toInt
    | .error _ => 0
  else 0

/-! ## Layouts -/

/-- The words that begin a list or a count. -/
def reserved : List String :=
  ["SELECT", "IN", "CASE", "LIMIT", "OFFSET", "coalesce", "greatest", "least"]

def beginsReserved (word : List Char) : Bool :=
  !word.isEmpty && reserved.any fun r => word.isPrefixOf r.toList

/-- The text is made of words and dots. None of the words is reserved or
becomes so by what follows. -/
def Unreserved (text : String) : Prop :=
  (∀ c ∈ text.toList, isWordChar c = true ∨ c = '.')
    ∧ ∀ word ∈ wordsOf text, beginsReserved word = false

instance (text : String) : Decidable (Unreserved text) :=
  @instDecidableAnd _ _ (List.decidableBAll _ _) (List.decidableBAll _ _)

/-- What is listed. -/
inductive Listing where
  | items
  | options (keyword : String) (plain : IsPlain keyword)
  | branches
  | arguments (function : String) (plain : IsPlain function)

namespace Listing

def opening : Listing → String
  | items => "SELECT "
  | options keyword _ => keyword ++ " ("
  | branches => "CASE"
  | arguments function _ => function ++ "("

def separator : Listing → String
  | branches => ""
  | _ => ", "

def closing : Listing → String
  | items | branches => ""
  | options _ _ | arguments _ _ => ")"

end Listing

inductive Layout where
  | words (text : String) (unreserved : Unreserved text)
  | constant (value : Value) (text : String) (written : literal value = .ok text)
  | name (name : String)
  /-- The label of an item of a `FROM` clause. -/
  | label (number : Nat)
  /-- The position of an item of a select list. -/
  | position (number : Nat)
  | beside (first second : Layout)
  /-- The list that was written for a node. The head stands before the entries. -/
  | list (listing : Listing) (owner : Node) (head : Layout) (entries : List Layout)
  | count (clause : CountClause) (owner : Node) (rows : Int)

/-- A list or a count in a statement, with the node that it was written for. -/
inductive Mark where
  | list (listing : Listing) (owner : Node) (entries : Nat)
  | count (clause : CountClause) (owner : Node) (rows : Int)

namespace Mark

def owner : Mark → Node
  | list _ owner _ | count _ owner _ => owner

/-- The list is empty if its node has nothing to list, and only then; the count is that of
its node. -/
def Faithful : Mark → Prop
  | list _ owner entries => entries = 0 ↔ owner.LeavesEmpty
  | count clause owner rows => rows = rowCount owner clause

end Mark

namespace Layout

mutual

def text (quote : Char) : Layout → String
  | words text _ => text
  | constant _ text _ => text
  | name n => quoted quote n
  | label number => Statement.label number
  | position number => toString number
  | beside first second => text quote first ++ text quote second
  | list listing _ head entries =>
    listing.opening ++ text quote head
      ++ listing.separator.intercalate (texts quote entries) ++ listing.closing
  | count clause _ rows => clause.opening ++ toString rows

def texts (quote : Char) : List Layout → List String
  | [] => []
  | layout :: rest => text quote layout :: texts quote rest

end

mutual

/-- All lists and counts, also those inside lists. -/
def marks : Layout → List Mark
  | beside first second => marks first ++ marks second
  | list listing owner head entries =>
    .list listing owner entries.length :: (marks head ++ marksOfAll entries)
  | count clause owner rows => [.count clause owner rows]
  | words _ _ | constant _ _ _ | name _ | label _ | position _ => []

def marksOfAll : List Layout → List Mark
  | [] => []
  | layout :: rest => marks layout ++ marksOfAll rest

end

/-- Every list and every count is that of the node or of one below it. -/
def Faithful (n : Node) (layout : Layout) : Prop :=
  ∀ mark ∈ layout.marks, mark.owner.Within n ∧ mark.Faithful

theorem mem_marksOfAll {mark : Mark} {layouts : List Layout} :
    mark ∈ marksOfAll layouts ↔ ∃ layout ∈ layouts, mark ∈ layout.marks := by
  induction layouts with
  | nil => simp [marksOfAll]
  | cons layout rest ih => simp [marksOfAll, ih]

end Layout

/-! ## Texts with a layout -/

/-- The text has a layout that is faithful to the node and shows the marks. -/
def LaidOut (quote : Char) (n : Node) (shown : List Mark) (text : String) : Prop :=
  ∃ layout : Layout, layout.text quote = text ∧ layout.Faithful n
    ∧ ∀ mark ∈ shown, mark ∈ layout.marks

namespace LaidOut

variable {quote : Char} {n : Node} {shown more : List Mark} {a b : String}

theorem of_child {m : Node} (hm : m ∈ n.children) (h : LaidOut quote m shown a) :
    LaidOut quote n shown a := by
  obtain ⟨layout, htext, hfaithful, hshown⟩ := h
  exact ⟨layout, htext,
    fun mark hmark => (hfaithful mark hmark).imp_left fun h => Or.inr (h.under hm), hshown⟩

theorem hide (h : LaidOut quote n shown a) : LaidOut quote n [] a := by
  obtain ⟨layout, htext, hfaithful, -⟩ := h
  exact ⟨layout, htext, hfaithful, fun _ hmark => absurd hmark List.not_mem_nil⟩

theorem of_unmarked (layout : Layout) (htext : layout.text quote = a)
    (hmarks : layout.marks = []) : LaidOut quote n [] a :=
  ⟨layout, htext, fun _ hmark => absurd (hmarks ▸ hmark) List.not_mem_nil,
    fun _ hmark => absurd hmark List.not_mem_nil⟩

theorem words (h : Unreserved a) : LaidOut quote n [] a :=
  of_unmarked (.words a h) rfl rfl

theorem constant {v : Value} (h : literal v = .ok a) : LaidOut quote n [] a :=
  of_unmarked (.constant v a h) rfl rfl

theorem quotedText (s : String) : LaidOut quote n [] (quotedText s) :=
  constant (v := .string s) rfl

theorem name (s : String) : LaidOut quote n [] (quoted quote s) :=
  of_unmarked (.name s) rfl rfl

theorem label (number : Nat) : LaidOut quote n [] (Statement.label number) :=
  of_unmarked (.label number) rfl rfl

theorem position (number : Nat) : LaidOut quote n [] (toString number) :=
  of_unmarked (.position number) rfl rfl

theorem append (ha : LaidOut quote n shown a) (hb : LaidOut quote n more b) :
    LaidOut quote n (shown ++ more) (a ++ b) := by
  obtain ⟨first, rfl, hfirst, hshown⟩ := ha
  obtain ⟨second, rfl, hsecond, hmore⟩ := hb
  refine ⟨.beside first second, by rw [Layout.text], ?_, ?_⟩
  · rw [Layout.Faithful, Layout.marks]
    exact List.forall_mem_append.2 ⟨hfirst, hsecond⟩
  · rw [Layout.marks]
    exact List.forall_mem_append.2
      ⟨fun mark h => List.mem_append_left _ (hshown mark h),
        fun mark h => List.mem_append_right _ (hmore mark h)⟩

/-- A text between two others that are made of words. -/
theorem between {before after : String} (hbefore : Unreserved before)
    (h : LaidOut quote n [] a) (hafter : Unreserved after) :
    LaidOut quote n [] (before ++ a ++ after) :=
  ((words hbefore).append h).append (words hafter)

/-- Two texts with words between them. -/
theorem beside {middle : String} (ha : LaidOut quote n [] a) (hmiddle : Unreserved middle)
    (hb : LaidOut quote n [] b) :
    LaidOut quote n [] (a ++ middle ++ b) :=
  (ha.append (words hmiddle)).append hb

theorem intercalate {separator : String} (hseparator : Unreserved separator)
    {texts : List String} (h : ∀ t ∈ texts, LaidOut quote n [] t) :
    LaidOut quote n [] (separator.intercalate texts) := by
  induction texts with
  | nil => exact words (show Unreserved "" by decide)
  | cons t rest ih =>
      obtain ⟨ht, hrest⟩ := List.forall_mem_cons.1 h
      cases rest with
      | nil => simpa using ht
      | cons u more =>
          rw [String.intercalate_cons_cons]
          exact (ht.append (words hseparator)).append (ih hrest)

/-! ### Lists and counts -/

theorem exists_layouts {texts : List String} (h : ∀ t ∈ texts, LaidOut quote n [] t) :
    ∃ layouts, Layout.texts quote layouts = texts ∧ layouts.length = texts.length
      ∧ ∀ l ∈ layouts, l.Faithful n := by
  induction texts with
  | nil => exact ⟨[], by rw [Layout.texts], rfl, fun _ hl => absurd hl List.not_mem_nil⟩
  | cons t rest ih =>
      obtain ⟨⟨layout, rfl, hlayout, -⟩, hrest⟩ := List.forall_mem_cons.1 h
      obtain ⟨layouts, rfl, hlength, hlayouts⟩ := ih hrest
      exact ⟨layout :: layouts, by rw [Layout.texts], congrArg (· + 1) hlength,
        List.forall_mem_cons.2 ⟨hlayout, hlayouts⟩⟩

/-- A list of texts, which is empty only if it has to be. -/
theorem list (listing : Listing) {head : String} (hhead : LaidOut quote n [] head)
    {texts : List String} (htexts : ∀ t ∈ texts, LaidOut quote n [] t)
    (hempty : texts.length = 0 ↔ n.LeavesEmpty) :
    LaidOut quote n [.list listing n texts.length]
      (listing.opening ++ head ++ listing.separator.intercalate texts
        ++ listing.closing) := by
  obtain ⟨layout, rfl, hlayout, -⟩ := hhead
  obtain ⟨layouts, rfl, hlength, hlayouts⟩ := exists_layouts htexts
  refine ⟨.list listing n layout layouts, by rw [Layout.text], ?_, ?_⟩
  · rw [Layout.Faithful, Layout.marks]
    refine List.forall_mem_cons.2
      ⟨⟨.refl n, by rw [Mark.Faithful, hlength]; exact hempty⟩, ?_⟩
    refine List.forall_mem_append.2 ⟨hlayout, fun mark hmark => ?_⟩
    obtain ⟨l, hl, hmark⟩ := Layout.mem_marksOfAll.1 hmark
    exact hlayouts l hl mark hmark
  · rw [Layout.marks, ← hlength]
    exact List.forall_mem_singleton.2 List.mem_cons_self

/-- A list for a node that has something to list. -/
theorem nonempty (listing : Listing) {head : String} (hhead : LaidOut quote n [] head)
    {texts : List String} (htexts : ∀ t ∈ texts, LaidOut quote n [] t) (hne : texts ≠ [])
    (hn : ¬ n.LeavesEmpty) :
    LaidOut quote n [] (listing.opening ++ head ++ listing.separator.intercalate texts
      ++ listing.closing) :=
  (list listing hhead htexts
    ⟨fun h => absurd (List.length_eq_zero_iff.1 h) hne, fun h => absurd h hn⟩).hide

theorem count (clause : CountClause) {rows : Int} (h : rows = rowCount n clause) :
    LaidOut quote n [.count clause n rows] (clause.opening ++ toString rows) := by
  refine ⟨.count clause n rows, by rw [Layout.text], ?_, ?_⟩
  · rw [Layout.Faithful, Layout.marks]
    exact List.forall_mem_singleton.2 ⟨.refl n, h⟩
  · rw [Layout.marks]
    exact fun _ hmark => hmark

/-! ### Calls -/

theorem call {name : String} (hname : Unreserved name) {args : List String}
    (h : ∀ arg ∈ args, LaidOut quote n [] arg) :
    LaidOut quote n [] (call name args) :=
  (((words hname).append (words (by decide))).append (intercalate (by decide) h)).append
    (words (by decide))

/-- A call of a function that needs arguments. -/
theorem arguments {name : String} (hname : IsPlain name) {args : List String}
    (h : ∀ arg ∈ args, LaidOut quote n [] arg) (hne : args ≠ []) (hn : ¬ n.LeavesEmpty) :
    LaidOut quote n [] (Sql.call name args) := by
  have hlist :=
    nonempty (.arguments name hname) (words (show Unreserved "" by decide)) h hne hn
  simpa [Listing.opening, Listing.separator, Listing.closing, Sql.call] using hlist

end LaidOut

end Sql

end TypedQuery
