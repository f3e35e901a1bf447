import TypedQuery.Proofs.DataType.Supertypes
import TypedQuery.Proofs.Node.Rebound
import TypedQuery.Proofs.Node.Schema

/-!
# The type of several operands

Every expression over operands of different types has their common supertype, and an array
has that of its items. Neither the order in which they come, nor how often one of them
does, nor which of them are put together first makes a difference: the common supertype is
a join, and where there is none, none comes about by joining more.

A type coerces to those above it but for timestamps, which keep their unit, and coercion is
an order too. So rows that were accepted for the columns of a table are accepted for
columns that these coerce to.
-/

namespace TypedQuery.DataType

/-- The common supertype of two types, if there are two and they have one. -/
def join (a b : Option DataType) : Option DataType :=
  a.bind fun t => b.bind t.commonSupertype

theorem join_none (a : Option DataType) : join a none = none := by
  cases a <;> rfl

theorem join_comm (a b : Option DataType) : join a b = join b a := by
  cases a with
  | none => rw [join_none]; rfl
  | some t =>
      cases b with
      | none => rfl
      | some u => exact commonSupertype_comm t u

theorem join_assoc (a b c : Option DataType) : join (join a b) c = join a (join b c) := by
  cases a with
  | none => rfl
  | some t =>
      cases b with
      | none => rfl
      | some u =>
          cases c with
          | none => rw [join_none]; exact (join_none _).symm
          | some v => exact commonSupertype_assoc t u v

theorem isComparableWith_comm (a b : DataType) :
    a.isComparableWith b = b.isComparableWith a := by
  rw [isComparableWith, isComparableWith, commonSupertype_comm, Bool.or_assoc, Bool.or_assoc]
  exact congrArg _
    ((Bool.or_comm _ _).trans (congrArg₂ or (Bool.and_comm _ _) (Bool.and_comm _ _)))

/-! ## The same types in another order -/

theorem highestPrecedence_append_comm (ts us : List DataType) :
    highestPrecedence (ts ++ us) = highestPrecedence (us ++ ts) := by
  rw [highestPrecedence_append, highestPrecedence_append]
  exact join_comm _ _

theorem highestPrecedence_append_of_subset {ts us : List DataType} (h : us ⊆ ts) :
    highestPrecedence (us ++ ts) = highestPrecedence ts := by
  induction us with
  | nil => rfl
  | cons u rest ih =>
      obtain ⟨hu, hrest⟩ := List.cons_subset.1 h
      rw [List.cons_append, highestPrecedence_cons_of_mem (List.mem_append_right _ hu),
        ih hrest]

/-! ## The same types in groups -/

/-- Types put together in groups, of which some are groups of groups. -/
inductive Grouping where
  | type (t : DataType)
  | group (parts : List Grouping)

namespace Grouping

mutual

/-- The common supertype of a group is that of its parts' common supertypes. -/
def supertype : Grouping → Option DataType
  | type t => some t
  | group parts => (supertypes parts).bind highestPrecedence

def supertypes : List Grouping → Option (List DataType)
  | [] => some []
  | g :: rest => g.supertype.bind fun t => (supertypes rest).map (t :: ·)

end

mutual

/-- All types of a group, from left to right. -/
def types : Grouping → List DataType
  | type t => [t]
  | group parts => typesOf parts

def typesOf : List Grouping → List DataType
  | [] => []
  | g :: rest => g.types ++ typesOf rest

end

mutual

theorem supertype_eq : ∀ g : Grouping, g.supertype = highestPrecedence g.types
  | type t => by simp [supertype, types, highestPrecedence]
  | group parts => by rw [supertype, types, supertypes_eq parts]

theorem supertypes_eq : ∀ gs : List Grouping,
    (supertypes gs).bind highestPrecedence = highestPrecedence (typesOf gs)
  | [] => rfl
  | g :: rest => by
      rw [supertypes, typesOf, highestPrecedence_append, ← supertype_eq g,
        ← supertypes_eq rest, Option.bind_assoc]
      refine congrArg _ (funext fun t => ?_)
      -- The others may already have none, so their list is opened first.
      cases supertypes rest with
      | none => rfl
      | some ts => exact highestPrecedence_cons t ts

end

end Grouping

/-- The common supertype is a join with null as its unit, so that the type of
several operands depends only on which types there are, and what is comparable
is so from both sides. -/
theorem inference_orderless :
    (∀ a b : DataType, a.commonSupertype b = b.commonSupertype a)
      ∧ (∀ a : DataType, a.commonSupertype a = some a)
      ∧ (∀ a : DataType, null.commonSupertype a = some a ∧ a.commonSupertype null = some a)
      ∧ (∀ a b c : Option DataType, join (join a b) c = join a (join b c))
      ∧ (∀ ts us : List DataType, (∀ t, t ∈ ts ↔ t ∈ us) →
        highestPrecedence ts = highestPrecedence us)
      ∧ (∀ g : Grouping, g.supertype = highestPrecedence g.types)
      ∧ ∀ a b : DataType, a.isComparableWith b = b.isComparableWith a := by
  refine ⟨commonSupertype_comm, commonSupertype_self,
    fun a => ⟨null_commonSupertype a, commonSupertype_null a⟩, join_assoc,
    fun ts us h => ?_, Grouping.supertype_eq, isComparableWith_comm⟩
  calc highestPrecedence ts
      = highestPrecedence (us ++ ts) :=
        (highestPrecedence_append_of_subset fun t ht => (h t).2 ht).symm
    _ = highestPrecedence (ts ++ us) := highestPrecedence_append_comm us ts
    _ = highestPrecedence us := highestPrecedence_append_of_subset fun t ht => (h t).1 ht

/-- Arrays of days and of timestamps make an array of the finest timestamps,
however they are listed. -/
theorem inference_orderless_of_arrays :
    (∀ t, t ∈ [array null, array date, null, array (timestamp .microsecond),
      array (timestamp .second)]
        ↔ t ∈ [array (timestamp .second), null, array (timestamp .microsecond), array date,
          array null, array date])
      ∧ highestPrecedence [array null, array date, null, array (timestamp .microsecond),
        array (timestamp .second)]
        = some (array (timestamp .microsecond))
      ∧ highestPrecedence [array (timestamp .second), null, array (timestamp .microsecond),
        array date, array null, array date]
        = some (array (timestamp .microsecond)) := by
  have hmem : ∀ t, t ∈ [array null, array date, null, array (timestamp .microsecond),
    array (timestamp .second)]
      ↔ t ∈ [array (timestamp .second), null, array (timestamp .microsecond), array date,
        array null, array date] := by
    intro t
    simp only [List.mem_cons, List.not_mem_nil, or_false]
    tauto
  obtain ⟨-, -, -, -, hsame, -, -⟩ := inference_orderless
  have hfirst : highestPrecedence [array null, array date, null,
    array (timestamp .microsecond), array (timestamp .second)]
      = some (array (timestamp .microsecond)) := rfl
  exact ⟨hmem, hfirst, (hsame _ _ hmem).symm.trans hfirst⟩

end TypedQuery.DataType

/-!
## Coercion

A type that coerces to another has it as their common supertype, so coercion inherits the
order of supertypes, and a cell that was accepted for a column is accepted for every
column that the first one coerces to. The other way round there is one exception: between
timestamps the finer unit is the supertype, but no timestamp coerces to another unit.
Arrays coerce item by item, so the exception is theirs too as soon as there are
timestamps at the innermost level.
-/

namespace TypedQuery

namespace DataType

variable {a b s t : DataType} {u : TimeUnit}

/-- What is left of a type without its arrays. -/
def innermost : DataType → DataType
  | array element => element.innermost
  | t => t

theorem isTemporal_innermost_of_unit? (h : t.unit? = some u) :
    t.innermost.isTemporal = true := by
  induction t with
  | array element ih => exact ih h
  | timestamp => rfl
  | _ => cases h

theorem unit?_of_canCoerceTo (h : a.canCoerceTo b = true) (hu : a.unit? = some u) :
    b.unit? = some u := by
  induction a generalizing b with
  | array a ih =>
      cases b with
      | array b =>
          rw [canCoerceTo] at h
          rw [unit?] at hu ⊢
          exact ih h hu
      | _ => cases h
  | timestamp v =>
      cases b with
      | timestamp w =>
          simp only [canCoerceTo, beq_iff_eq] at h
          rw [← h]
          exact hu
      | _ => cases h
  | _ => cases hu

/-- Of what widens to a type, that coerces to it whose timestamps have its unit already. -/
theorem canCoerceTo_iff_of_widens (h : a.Widens s) :
    a.canCoerceTo s = true ↔ a.unit? = none ∨ a.unit? = s.unit? := by
  constructor
  · intro hcoerces
    cases hu : a.unit? with
    | none => exact .inl rfl
    | some u => exact .inr (unit?_of_canCoerceTo hcoerces hu).symm
  · rintro (hu | hu)
    · exact canCoerceTo_of_widens h fun v w hv _ => by rw [hu] at hv; cases hv
    · exact canCoerceTo_of_widens h fun v w hv hw =>
        by rw [hu, hw] at hv; exact (Option.some.inj hv).symm

theorem canCoerceTo_or_isTemporal (h : a.Widens s) :
    a.canCoerceTo s = true ∨ a.innermost.isTemporal = true := by
  cases hu : a.unit? with
  | none => exact .inl ((canCoerceTo_iff_of_widens h).2 (.inl hu))
  | some u => exact .inr (isTemporal_innermost_of_unit? hu)

theorem canCoerceTo_antisymm (hab : a.canCoerceTo b = true)
    (hba : b.canCoerceTo a = true) : a = b := by
  have h := commonSupertype_comm a b
  rw [show a.commonSupertype b = some b from widens_of_canCoerceTo hab,
    show b.commonSupertype a = some a from widens_of_canCoerceTo hba] at h
  exact (Option.some.inj h).symm

/-- Both types coerce to their common supertype, unless they are timestamps or
arrays of them, to any depth. They do so but for timestamps of another unit
than the supertype has. -/
theorem operands_coerce (h : a.commonSupertype b = some s) :
    (a.canCoerceTo s = true ∨ a.innermost.isTemporal = true)
      ∧ (b.canCoerceTo s = true ∨ b.innermost.isTemporal = true)
      ∧ (a.canCoerceTo s = true ↔ a.unit? = none ∨ a.unit? = s.unit?)
      ∧ (b.canCoerceTo s = true ↔ b.unit? = none ∨ b.unit? = s.unit?) :=
  ⟨canCoerceTo_or_isTemporal (widens_left h), canCoerceTo_or_isTemporal (widens_right h),
    canCoerceTo_iff_of_widens (widens_left h), canCoerceTo_iff_of_widens (widens_right h)⟩

/-- Days in arrays coerce to the timestamps that they are compared with. -/
theorem operands_coerce_days :
    (array (array date)).commonSupertype (array (array (timestamp .millisecond)))
      = some (array (array (timestamp .millisecond)))
      ∧ (array (array date)).canCoerceTo (array (array (timestamp .millisecond))) = true :=
  have h : (array (array date)).commonSupertype (array (array (timestamp .millisecond)))
      = some (array (array (timestamp .millisecond))) := rfl
  ⟨h, (operands_coerce h).2.2.1.2 (.inl rfl)⟩

/-- An array of seconds doesn't coerce to the array of nanoseconds that is the supertype,
and isn't temporal itself. -/
theorem seconds_not_canCoerceTo_nanoseconds :
    (array (timestamp .second)).commonSupertype (array (timestamp .nanosecond))
      = some (array (timestamp .nanosecond))
      ∧ ¬ ((array (timestamp .second)).canCoerceTo (array (timestamp .nanosecond)) = true
        ∨ (array (timestamp .second)).isTemporal = true) := by
  decide

end DataType

/-! ## Columns that are widened -/

/-- The columns of a schema coerce to those of another, one by one. -/
def Schema.CoercesTo (s w : Schema) : Prop :=
  List.Forall₂ (fun c d => c.dataType.canCoerceTo d.dataType = true) s.columns w.columns

namespace Validator

variable {t c d : DataType} {s w : Schema} {field : String}

/-- An integer fits every column of integers, and those coerce to numbers only. -/
theorem fits_of_canCoerceTo (h : fits t c = true) (hcd : c.canCoerceTo d = true) :
    fits t d = true := by
  rw [fits, Bool.or_eq_true, Bool.and_eq_true] at h ⊢
  rcases h with h | ⟨ht, hc⟩
  · exact .inl (DataType.canCoerceTo_trans h hcd)
  · cases c with
    | int32 | int64 =>
        cases d with
        | int32 | int64 => exact .inr ⟨ht, rfl⟩
        | float64 => cases t <;> first | exact .inl rfl | cases ht
        | _ => cases hcd
    | _ => cases hc

theorem checkCells_of_fits {row : Nat} {columns : List ColumnInfo} {values : List Value}
    (h : List.Forall₂ (fun v column => fits v.dataType column.dataType = true)
      values columns) :
    checkCells row columns (values.map .value) = .ok () := by
  induction h with
  | nil => rfl
  | cons hfits _ ih =>
      rw [List.map_cons, checkCells, checkCell]
      simp only [Arg.value?]
      rw [if_pos hfits]
      exact ih

/-- Rows of values that fit their columns pass. -/
theorem checkRows_of_fits {columns : List ColumnInfo} {i : Nat} {rows : List (List Value)}
    (h : ∀ row ∈ rows,
      List.Forall₂ (fun v column => fits v.dataType column.dataType = true) row columns) :
    checkRows columns i (rows.map fun row => .seq (row.map .value)) = .ok () := by
  induction rows generalizing i with
  | nil => rfl
  | cons row rest ih =>
      obtain ⟨hrow, hrest⟩ := List.forall_mem_cons.1 h
      rw [List.map_cons, checkRows]
      simp only [Arg.seq?]
      rw [if_pos ((List.length_map _).trans hrow.length_eq), checkCells_of_fits hrow]
      exact ih hrest

theorem fits_row {row : List Value} {cs ds : List ColumnInfo}
    (hrow : List.Forall₂ (fun v column => fits v.dataType column.dataType = true) row cs)
    (hcoerce : List.Forall₂ (fun c d => c.dataType.canCoerceTo d.dataType = true) cs ds) :
    List.Forall₂ (fun v column => fits v.dataType column.dataType = true) row ds := by
  induction hrow generalizing ds with
  | nil => cases hcoerce; exact .nil
  | cons hfits _ ih =>
      cases hcoerce with
      | cons hcd hrest => exact .cons (fits_of_canCoerceTo hfits hcd) (ih hrest)

theorem checkRows_of_coerce {i : Nat} {items : List Arg} (hcoerce : s.CoercesTo w)
    (h : checkRows s.columns i items = .ok ()) : checkRows w.columns i items = .ok () := by
  obtain ⟨rows, hrows, hfits⟩ := checkRows_eq_ok h
  cases hrows
  exact checkRows_of_fits fun row hrow => fits_row (hfits row hrow) hcoerce

theorem rows_of_coerce {a b : Arg} {bound bound' : Fields}
    (hs : (Fields.field? bound field).bind Arg.schema? = some s)
    (hw : (Fields.field? bound' field).bind Arg.schema? = some w) (hcoerce : s.CoercesTo w)
    (h : rows field a bound = .ok b) : rows field a bound' = .ok b := by
  simp only [rows, hs] at h
  simp only [rows, hw]
  split at h
  · exact absurd h expected_ne_ok
  · next items hitems =>
      obtain ⟨_, hcheck, h⟩ := bind_eq_ok.1 h
      exact bind_eq_ok.2 ⟨(), checkRows_of_coerce hcoerce hcheck, h⟩

end Validator

/-! ### Tables of given rows -/

theorem Signature.bindSlots_some {owner : String} {bound fields : Fields}
    {p : Parameter} {a : Arg} {slots : List (Parameter × Option Arg)} :
    bindSlots owner bound ((p, some a) :: slots) = .ok fields
      ↔ ∃ b, p.validator.validate a bound = .ok b
        ∧ bindSlots owner (Fields.insert bound p.name b) slots = .ok fields := by
  rw [bindSlots_eq_bind, bind_eq_ok]
  exact exists_congr fun b => and_congr_left fun _ => settle_some

namespace Node

variable {name : String} {s w : Schema} {rows : List (List Value)} {n : Node}

/-- A table of given rows builds if its columns have different names and its rows fit them.
-/
theorem inMemoryTable_eq_ok : inMemoryTable name s rows = .ok n
    ↔ s.duplicateNames.isEmpty = true
    ∧ Validator.checkRows s.columns 0 (rows.map fun row => .seq (row.map .value)) = .ok ()
    ∧ n = .mk .inMemoryTable [("name", .text name), ("schema", .schema s),
      ("data", .ofRows rows)] [("schema", .schema s)] := by
  have hbuild : inMemoryTable name s rows = (Signature.bindSlots "InMemoryTable" []
      [(.required "name" .string, some (.text name)),
        (.required "schema" .schema, some (.schema s)),
        (.required "data" (.rowsOf "schema"), some (.ofRows rows))]
    >>= fun fields =>
      derive .inMemoryTable fields [] NodeKind.inMemoryTable.definition.attributes
    >>= fun attributes => .ok (.mk .inMemoryTable fields attributes)) := rfl
  rw [hbuild]
  constructor
  · intro h
    obtain ⟨fields, hfields, h⟩ := bind_eq_ok.1 h
    obtain ⟨_, hname, hfields⟩ := Signature.bindSlots_some.1 hfields
    cases hname
    obtain ⟨_, hschema, hfields⟩ := Signature.bindSlots_some.1 hfields
    simp only [Parameter.required, Validator.validate, Arg.schema?] at hschema
    split at hschema
    · next hnames =>
        cases hschema
        obtain ⟨_, hdata, hfields⟩ := Signature.bindSlots_some.1 hfields
        obtain ⟨_, hrows, hdata⟩ := bind_eq_ok.1 hdata
        cases hdata
        cases hfields
        obtain ⟨attributes, hattributes, h⟩ := bind_eq_ok.1 h
        cases hattributes
        cases h
        exact ⟨hnames, hrows, rfl⟩
    · cases hschema
  · rintro ⟨hnames, hrows, rfl⟩
    refine bind_eq_ok.2
      ⟨[("name", .text name), ("schema", .schema s), ("data", .ofRows rows)], ?_, rfl⟩
    refine Signature.bindSlots_some.2 ⟨.text name, rfl, ?_⟩
    refine Signature.bindSlots_some.2 ⟨.schema s, if_pos hnames, ?_⟩
    exact Signature.bindSlots_some.2 ⟨.ofRows rows, bind_eq_ok.2 ⟨(), hrows, rfl⟩, rfl⟩

/-- The same rows make a table under columns that theirs coerce to. -/
theorem inMemoryTable_of_coerce (h : inMemoryTable name s rows = .ok n)
    (hnames : w.names = s.names) (hcoerce : s.CoercesTo w) :
    ∃ m, inMemoryTable name w rows = .ok m ∧ m.field "data" = n.field "data" := by
  obtain ⟨hdistinct, hrows, rfl⟩ := inMemoryTable_eq_ok.1 h
  refine ⟨_, inMemoryTable_eq_ok.2
    ⟨?_, Validator.checkRows_of_coerce hcoerce hrows, rfl⟩, rfl⟩
  rw [Schema.duplicateNames, hnames]
  exact hdistinct

end Node

/-! ## The order -/

open DataType in
/-- Coercion is a partial order, and what coerces to another type has it as the common
supertype with it. Rows that were accepted for a schema are accepted, and stored as they
are, for every schema that its columns coerce to. -/
theorem coercion_order :
    (∀ a : DataType, a.canCoerceTo a = true)
      ∧ (∀ a b c : DataType, a.canCoerceTo b = true → b.canCoerceTo c = true →
        a.canCoerceTo c = true)
      ∧ (∀ a b : DataType, a.canCoerceTo b = true → b.canCoerceTo a = true → a = b)
      ∧ (∀ a b : DataType, a.canCoerceTo b = true → a.commonSupertype b = some b)
      ∧ (∀ (field : String) (s w : Schema) (bound bound' : Fields) (a b : Arg),
        (Fields.field? bound field).bind Arg.schema? = some s →
          (Fields.field? bound' field).bind Arg.schema? = some w →
        s.CoercesTo w → (Validator.rowsOf field).validate a bound = .ok b →
        (Validator.rowsOf field).validate a bound' = .ok b)
      ∧ ∀ (name : String) (s w : Schema) (rows : List (List Value)) (n : Node),
        Node.inMemoryTable name s rows = .ok n → w.names = s.names → s.CoercesTo w →
        ∃ m, Node.inMemoryTable name w rows = .ok m ∧ m.field "data" = n.field "data" :=
  ⟨canCoerceTo_refl, fun _ _ _ => canCoerceTo_trans, fun _ _ => canCoerceTo_antisymm,
    fun _ _ => widens_of_canCoerceTo, fun _ _ _ _ _ _ _ => Validator.rows_of_coerce,
    fun _ _ _ _ _ => Node.inMemoryTable_of_coerce⟩

/-- Null coerces to arrays of timestamps by way of arrays of nulls. A 64-bit integer in a
column of 32-bit integers may stand in one of doubles, and an array of days and nulls in a
column of arrays of timestamps. -/
theorem coercion_order_of_columns :
    DataType.null.canCoerceTo (.array (.timestamp .second)) = true
      ∧ (DataType.array .date).commonSupertype (.array (.timestamp .second))
        = some (.array (.timestamp .second))
      ∧ ∃ n m : Node,
        Node.inMemoryTable "t" ⟨[⟨"i", .int32, true⟩, ⟨"a", .array .date, true⟩]⟩
            [[.int64 7000000000, .array [.date 0, .null]]] = .ok n
          ∧ Node.inMemoryTable "t"
            ⟨[⟨"i", .float64, true⟩, ⟨"a", .array (.timestamp .second), false⟩]⟩
            [[.int64 7000000000, .array [.date 0, .null]]] = .ok m
          ∧ m.field "data" = n.field "data" := by
  obtain ⟨-, htrans, -, hsupertype, -, htable⟩ := coercion_order
  have hnulls : DataType.null.canCoerceTo (.array .null) = true := rfl
  have hdays : (DataType.array .date).canCoerceTo (.array (.timestamp .second)) = true := rfl
  obtain ⟨n, hn⟩ :
      ∃ n, Node.inMemoryTable "t" ⟨[⟨"i", .int32, true⟩, ⟨"a", .array .date, true⟩]⟩
      [[.int64 7000000000, .array [.date 0, .null]]] = .ok n := ⟨_, rfl⟩
  obtain ⟨m, hm, hdata⟩ :=
    htable "t" _
      ⟨[⟨"i", .float64, true⟩, ⟨"a", .array (.timestamp .second), false⟩]⟩ _ n hn rfl
    (.cons rfl (.cons rfl .nil))
  exact ⟨htrans _ _ _ hnulls rfl, hsupertype _ _ hdays, n, m, hn, hm, hdata⟩

end TypedQuery
