import TypedQuery.Proofs.Engine.OwnTypes
import TypedQuery.Proofs.Plan.Types

/-!
# Types of compiled values

What is computed for a value has the type that the value is declared with, if what is
computed for its operands has theirs. There are six exceptions (`Node.executedType`):
constants that are declared null, columns whose name means something else in the table that
they are read from, replacements of nulls, which take the type of the first operand,
operators on bits, which give 64 bits, and magnitudes of null.
-/

namespace TypedQuery

/-- Operators on the bits of whole numbers. -/
def NodeKind.bitwise : List NodeKind :=
  [bitwiseAnd, bitwiseOr, bitwiseXor, bitwiseLeftShift, bitwiseRightShift, bitwiseNot]

/-- The kinds whose values need not have the type that they are declared with. -/
def NodeKind.retyped : List NodeKind :=
  [literal, tableColumn, ifNull, coalesce, bitwiseAnd, bitwiseOr, bitwiseXor,
    bitwiseLeftShift, bitwiseRightShift, bitwiseNot, abs]

/-- The type that a constant is stored with. -/
def Literal.storedType? (v : Value) : Option Physical := (stored v).toOption.map (·.1)

namespace Node

/-- The type of what is computed for a value from a table with the schema, as long as its
operands have the types that they are declared with. -/
def executedType (s : Schema) (n : Node) : Option Physical :=
  match n.kind with
  | .tableColumn => (n.stringField "name").toOption.bind fun name =>
    (s.dataType? name).map .ofLogical
  | .literal => n.literal?.bind fun v =>
    if v.isNull = false ∧ n.dataType? = some .null then Literal.storedType? v
      else n.dataType?.map .ofLogical
  | .ifNull | .coalesce =>
    ((Rules.nodesIn "arg" n.fields).head?.bind dataType?).map .ofLogical
  | .bitwiseAnd | .bitwiseOr | .bitwiseXor | .bitwiseLeftShift | .bitwiseRightShift
  | .bitwiseNot => some .int64
  | .abs => n.dataType?.map fun t => if (Physical.ofLogical t).isInteger then
    .ofLogical t else .float64
  | _ => n.dataType?.map .ofLogical

/-- Whether what is computed for the value has the type that it is declared with, as far as
that is up to the value itself. -/
def agrees (s : Schema) (n : Node) : Bool := n.executedType s = n.dataType?.map .ofLogical

/-- What is computed for the value over the batch has the type that it is declared with. -/
def KeepsType (clock : Engine.Clock) (b : Batch) (m : Node) : Prop :=
  ∀ e t, Engine.Compiled clock m e → m.dataType? = some t → e.HasType b (.ofLogical t)

end Node

/-! ## Parts of values -/

mutual

/-- Whether the value and all values that it is made of agree. The tables that it is
about are no part of it. -/
def Node.agreesThroughout (s : Schema) : Node → Bool
  | .mk kind fields attributes =>
    (Node.mk kind fields attributes).agrees s && Arg.agreesInFields s fields

def Arg.agreesThroughout (s : Schema) : Arg → Bool
  | .node n => !n.kind.isValue || n.agreesThroughout s
  | .seq items => Arg.agreesInItems s items
  | .map entries => Arg.agreesInFields s entries
  | _ => true

def Arg.agreesInItems (s : Schema) : List Arg → Bool
  | [] => true
  | a :: rest => a.agreesThroughout s && Arg.agreesInItems s rest

def Arg.agreesInFields (s : Schema) : List (String × Arg) → Bool
  | [] => true
  | (_, a) :: rest => a.agreesThroughout s && Arg.agreesInFields s rest

end

mutual

theorem Arg.agrees_of_mem {s : Schema} :
    ∀ {a : Arg} {m : Node}, a.agreesThroughout s = true → m ∈ a.nodes →
    m.kind.isValue = true → m.agreesThroughout s = true
  | .node n, m, h, hm, hvalue => by
      rw [Arg.nodes, List.mem_singleton] at hm
      rw [Arg.agreesThroughout, ← hm, hvalue] at h
      exact h
  | .seq items, m, h, hm, hvalue => by
      rw [Arg.agreesThroughout] at h
      rw [Arg.nodes] at hm
      exact Arg.agrees_of_mem_items h hm hvalue
  | .map entries, m, h, hm, hvalue => by
      rw [Arg.agreesThroughout] at h
      rw [Arg.nodes] at hm
      exact Arg.agrees_of_mem_fields h hm hvalue
  | .none, m, _, hm, _ | .value _, m, _, hm, _ | .type _, m, _, hm, _ | .shape _, m, _, hm, _
  | .schema _, m, _, hm, _ => by simp [Arg.nodes] at hm

theorem Arg.agrees_of_mem_items {s : Schema} :
    ∀ {items : List Arg} {m : Node}, Arg.agreesInItems s items = true →
    m ∈ Arg.nodesOfItems items → m.kind.isValue = true → m.agreesThroughout s = true
  | [], m, _, hm, _ => by simp [Arg.nodesOfItems] at hm
  | a :: rest, m, h, hm, hvalue => by
      rw [Arg.agreesInItems, Bool.and_eq_true] at h
      rw [Arg.nodesOfItems, List.mem_append] at hm
      rcases hm with hm | hm
      · exact Arg.agrees_of_mem h.1 hm hvalue
      · exact Arg.agrees_of_mem_items h.2 hm hvalue

theorem Arg.agrees_of_mem_fields {s : Schema} : ∀ {fields : List (String × Arg)} {m : Node},
    Arg.agreesInFields s fields = true → m ∈ Arg.nodesOfFields fields →
      m.kind.isValue = true →
      m.agreesThroughout s = true
  | [], m, _, hm, _ => by simp [Arg.nodesOfFields] at hm
  | (_, a) :: rest, m, h, hm, hvalue => by
      rw [Arg.agreesInFields, Bool.and_eq_true] at h
      rw [Arg.nodesOfFields, List.mem_append] at hm
      rcases hm with hm | hm
      · exact Arg.agrees_of_mem h.1 hm hvalue
      · exact Arg.agrees_of_mem_fields h.2 hm hvalue

end

namespace Node

variable {s : Schema} {m n : Node}

/-- Whether all values agree that the value is made of. -/
def partsAgree (s : Schema) (n : Node) : Bool := Arg.agreesInFields s n.fields

theorem agreesThroughout_iff :
    n.agreesThroughout s = true ↔ n.agrees s = true ∧ n.partsAgree s = true := by
  obtain ⟨kind, fields, attributes⟩ := n
  rw [agreesThroughout, Bool.and_eq_true]
  rfl

theorem agrees_of_mem_children (h : n.partsAgree s = true) (hm : m ∈ n.children)
    (hvalue : m.kind.isValue = true) :
    m.agreesThroughout s = true :=
  Arg.agrees_of_mem_fields h hm hvalue

end Node

namespace Engine

variable {clock : Clock} {b : Batch} {n m : Node} {e : Expr} {t : DataType} {u : Physical}
    {field : String}

/-! ## Types of operands -/

section

variable (h : n.Built) (hvalues : n.kind.holdsValues = true)
  (hbelow : ∀ m ∈ n.children, m.kind.isValue = true → m.KeepsType clock b)

include h hvalues hbelow

theorem gives_operand (field : String) :
    Gives (fun e => ∃ m t, n.child field = .ok m ∧ m.dataType? = some t
      ∧ e.HasType b (.ofLogical t))
      (expr (lowered clock) n field) := by
  intro s e after he
  obtain ⟨m, hm, hcompiled⟩ := (run_expr_eq_ok he).1
  have hmem := h.mem_children_of_child hm
  have hvalue := h.isValue_of_mem_children hvalues hmem
  obtain ⟨t, ht⟩ := (h.of_mem_children hmem).exists_type hvalue
  exact ⟨m, t, hm, ht, hbelow m hmem hvalue e t hcompiled ht⟩

/-- An operand that the value takes its type from. -/
theorem gives_typed (ht : n.dataType? = some t)
    (hrule : n.kind.TypedBy (Rules.typeIn field)) (hfield : field ≠ "shape") :
    GivesType b (.ofLogical t) (expr (lowered clock) n field) :=
  (gives_operand h hvalues hbelow field).mono fun e ⟨m, u, hm, hu, he⟩ => by
    have hsame := (ht.symm.trans (h.type_in hrule hfield hm)).trans hu
    cases hsame
    exact he

theorem gives_operands (field : String) :
    Gives (fun es => ∃ ms ts, n.childList field = .ok ms
      ∧ ms.map Node.dataType? = ts.map some
      ∧ List.Forall₂ (fun e t => e.HasType b (.ofLogical t)) es ts)
      (exprs (lowered clock) n field) := by
  intro s es after hes
  obtain ⟨ms, hms, hall⟩ := (run_exprs_eq_ok hes).1
  have hmem : ∀ m ∈ ms, m ∈ n.children := fun m hm => h.mem_children_of_childList hms hm
  suffices hts : ∃ ts : List DataType, ms.map Node.dataType? = ts.map some
      ∧ List.Forall₂ (fun e t => e.HasType b (.ofLogical t)) es ts by
    obtain ⟨ts, hts⟩ := hts
    exact ⟨ms, ts, hms, hts⟩
  clear hms hes
  induction hall with
  | nil => exact ⟨[], rfl, .nil⟩
  | cons hcompiled _ ih =>
      obtain ⟨hm, hrest⟩ := List.forall_mem_cons.1 hmem
      have hvalue := h.isValue_of_mem_children hvalues hm
      obtain ⟨t, ht⟩ := (h.of_mem_children hm).exists_type hvalue
      obtain ⟨ts, hts, hall⟩ := ih hrest
      exact ⟨t :: ts, by rw [List.map_cons, List.map_cons, hts, ht],
        .cons (hbelow _ hm hvalue _ t hcompiled ht) hall⟩

end

/-! ## Conversions -/

section

variable (h : n.Built) (he : Compiled clock n e) (ht : n.dataType? = some t)

include ht in
/-- A step that goes on with the type of the node. -/
theorem Gives.lift_output {α : Type} {P : α → Prop} {next : DataType → Lowering α}
    (hnext : Gives P (next t)) :
    Gives P ((liftM n.outputType : Lowering DataType) >>= next) :=
  .lift_bind fun u hu => by
    rw [Node.outputType, ht] at hu
    cases hu
    exact hnext

include h he ht

theorem hasType_cast (hk : n.kind = .cast) : e.HasType b (.ofLogical t) := by
  refine he.hasType h (k := .cast) (resolve_of_kind hk rfl) (.lift_bind fun a ha => ?_)
  have hrule : n.kind.TypedBy fun bound => .ok (Rules.typeHeld "to" bound) := by
    rw [hk]; exact ⟨_, rfl⟩
  split
  · exact .error _
  · next u hu =>
      obtain ⟨_, _, a', -, -, -, hfield⟩ :=
        h.field?_eq (show n.kind.validator? "to" = some .dataType by rw [hk]; rfl)
      have hget : n.get? "to" = some a' := by rw [Node.get?, hfield]; rfl
      cases (Node.field_eq_ok ha).symm.trans hget
      obtain ⟨shape, t', ht', hn⟩ := h.type_eq hrule
      cases ht.symm.trans hn
      rw [Rules.typeHeld, Fields.field?_insert, if_neg (by decide), hfield,
        Option.bind_some, hu] at ht'
      cases ht'
      exact .bind_any fun e => .pure (.cast e u)

/-- Kinds that convert to their type in the end. -/
theorem hasType_converted
    (hk : n.kind ∈ [.floorDivide, .round, .clip, .timestampFromUnix, .intervalFromInteger]) :
    e.HasType b (.ofLogical t) := by
  simp only [List.mem_cons, List.not_mem_nil, or_false] at hk
  rcases hk with hk | hk | hk | hk | hk
  · refine he.hasType h (k := .floorDivide) (resolve_of_kind hk rfl) ?_
    exact .bind_any fun _ => .lift_output ht (.pure (.cast _ _))
  · refine he.hasType h (k := .round) (resolve_of_kind hk rfl) ?_
    refine .bind_any fun _ => .lift_bind fun digits _ => ?_
    dsimp only
    split
    · exact .lift_output ht (.pure (.cast _ _))
    · exact .lift_bind fun scale _ => .lift_output ht (.pure (.cast _ _))
  · refine he.hasType h (k := .clip) (resolve_of_kind hk rfl) ?_
    refine .bind_any fun _ => .lift_bind fun lower _ => .lift_bind fun upper _ => ?_
    split
    · exact .error _
    · exact .lift_output ht (.pure (.cast _ _))
  · refine he.hasType h (k := .timestampFromUnix) (resolve_of_kind hk rfl) ?_
    exact .bind_any fun _ => .lift_output ht (.pure (.cast _ _))
  · refine he.hasType h (k := .intervalFromInteger) (resolve_of_kind hk rfl) ?_
    exact .bind_any fun _ => .lift_output ht (.pure (.cast _ _))

theorem hasType_list (hk : n.kind = .arrayConcat ∨ n.kind = .arrayColumn) :
    e.HasType b (.ofLogical t) := by
  rcases hk with hk | hk
  · refine he.hasType h (k := .arrayConcat) (resolve_of_kind hk rfl) ?_
    exact .lift_output ht (.bind_any fun l => .bind_any fun r => .pure (.call (.cast l t)))
  · refine he.hasType h (k := .arrayColumn) (resolve_of_kind hk rfl)
      (.lift_bind fun element helement => ?_)
    have heq : t = .array element := by
      obtain ⟨t', ht', helement⟩ := bind_eq_ok.1 helement
      rw [Node.outputType, ht] at ht'
      cases ht'
      cases t <;> cases helement
      rfl
    subst heq
    refine .bind_any fun items => .pure (.listFromColumns fun e he => ?_)
    rw [List.head?_map] at he
    obtain ⟨item, -, rfl⟩ := Option.map_eq_some_iff.1 he
    exact .cast item element

omit h he ht in
theorem childType_eq_ok (ht : childType n field = .ok t) :
    ∃ m, n.child field = .ok m ∧ m.dataType? = some t := by
  obtain ⟨m, hm, ht⟩ := bind_eq_ok.1 ht
  split at ht
  · next u hu => cases ht; exact ⟨m, hm, hu⟩
  · cases ht

/-- The units of timestamps and intervals are those of the operand on the left. -/
theorem hasType_moved (hk : n.kind ∈ [.timestampAdd, .timestampSub, .intervalSubtract]) :
    e.HasType b (.ofLogical t) := by
  have htype {v : DataType} (hrule : n.kind.TypedBy (Rules.typeIn "left"))
      (hv : childType n "left" = .ok v) : v = t := by
    obtain ⟨m, hm, hmv⟩ := childType_eq_ok hv
    exact Option.some.inj ((hmv.symm.trans (h.type_in hrule (by decide) hm).symm).trans ht)
  have hshift (combine : Expr → Expr → Expr) {k : NodeKind}
      (hrule : n.kind.TypedBy (Rules.typeIn "left"))
      (hresolve : rules.resolve n.kind = .ok (k, shiftTimestampRule combine)) :
          e.HasType b (.ofLogical t) := by
    refine he.hasType h hresolve (.lift_bind fun unit hunit => .lift_bind fun step _ => ?_)
    obtain ⟨v, hv, hunit⟩ := bind_eq_ok.1 hunit
    split at hunit
    · cases hunit
      rw [← htype hrule hv]
      exact .bind_any fun _ => .bind_any fun _ => .pure (.cast _ _)
    · cases hunit
  simp only [List.mem_cons, List.not_mem_nil, or_false] at hk
  rcases hk with hk | hk | hk
  · exact hshift .add (k := .timestampAdd) (by rw [hk]; exact ⟨_, rfl⟩)
      (resolve_of_kind hk rfl)
  · exact hshift .subtract (k := .timestampSub) (by rw [hk]; exact ⟨_, rfl⟩)
      (resolve_of_kind hk rfl)
  · refine he.hasType h (k := .intervalSubtract) (resolve_of_kind hk rfl)
      (.lift_bind fun unit hunit => ?_)
    obtain ⟨v, hv, hunit⟩ := bind_eq_ok.1 hunit
    split at hunit
    · cases hunit
      rw [← htype (by rw [hk]; exact ⟨_, rfl⟩) hv]
      exact .bind_any fun _ => .bind_any fun _ => .lift_bind fun _ _ => .pure (.cast _ _)
    · cases hunit

end

/-! ## Types of one operand -/

section

variable (h : n.Built) (hvalues : n.kind.holdsValues = true)
  (hbelow : ∀ m ∈ n.children, m.kind.isValue = true → m.KeepsType clock b)
  (he : Compiled clock n e) (ht : n.dataType? = some t)

include h hvalues hbelow he ht

/-- Kinds with the type of their operand. -/
theorem hasType_kept
    (hk : n.kind
      ∈ [.renamed, .nullIf, .nullIfZero, .zeroIfNull, .negate, .sign, .timestampTruncate,
    .min, .max]) : e.HasType b (.ofLogical t) := by
  have harg (hrule : n.kind.TypedBy (Rules.typeIn "arg")) :
      GivesType b (.ofLogical t) (expr (lowered clock) n "arg") :=
    gives_typed h hvalues hbelow ht hrule (by decide)
  have hnull {e' other : Expr} (he' : e'.HasType b (.ofLogical t)) :
      GivesType b (.ofLogical t) (liftM (nullWhereEqual n e' other) : Lowering Expr) := by
    refine .lift fun out hout => ?_
    obtain ⟨null, hnull, hout⟩ := bind_eq_ok.1 hout
    obtain ⟨t', ht', hnull⟩ := bind_eq_ok.1 hnull
    rw [Node.outputType, ht] at ht'
    cases ht'
    cases hnull
    cases hout
    exact .choose_same (.literal (.inl rfl)) he'
  simp only [List.mem_cons, List.not_mem_nil, or_false] at hk
  rcases hk with hk | hk | hk | hk | hk | hk | hk | hk | hk
  · refine he.hasType h (k := .renamed) (resolve_of_kind hk rfl) ?_
    exact .bind (harg (by rw [hk]; exact ⟨_, rfl⟩)) fun _ he' =>
      .lift_bind fun _ _ => .pure he'.named
  · refine he.hasType h (k := .nullIf) (resolve_of_kind hk rfl) ?_
    exact .bind (harg (by rw [hk]; exact ⟨_, rfl⟩)) fun _ he' => .bind_any fun _ => hnull he'
  · refine he.hasType h (k := .nullIfZero) (resolve_of_kind hk rfl) ?_
    exact .bind (harg (by rw [hk]; exact ⟨_, rfl⟩)) fun _ he' => hnull he'
  · refine he.hasType h (k := .zeroIfNull) (resolve_of_kind hk rfl) ?_
    exact .bind (harg (by rw [hk]; exact ⟨_, rfl⟩)) fun _ he' => .pure he'.fillNull
  · refine he.hasType h (k := .unary) (resolve_of_kind hk rfl) (.lift_bind fun op hop => ?_)
    rw [lookup, hk] at hop
    cases hop
    exact .bind (harg (by rw [hk]; exact ⟨_, rfl⟩)) fun _ he' =>
      .pure (he'.unary fun h => by cases h)
  · refine he.hasType h (k := .unary) (resolve_of_kind hk rfl) (.lift_bind fun op hop => ?_)
    rw [lookup, hk] at hop
    cases hop
    exact .bind (harg (by rw [hk]; exact ⟨_, rfl⟩)) fun _ he' =>
      .pure (he'.unary fun h => by cases h)
  · refine he.hasType h (k := .timestampTruncate) (resolve_of_kind hk rfl) ?_
    exact .lift_bind fun _ _ =>
      .bind (harg (by rw [hk]; exact ⟨_, rfl⟩)) fun _ he' => .pure he'.call
  · refine he.hasType h (k := .reduction) (resolve_of_kind hk rfl)
      (.lift_bind fun f hf => ?_)
    rw [lookup, hk] at hf
    cases hf
    exact .bind (harg (by rw [hk]; exact ⟨_, rfl⟩)) fun _ he' => .bind_any fun _ =>
      .pure he'.reduce
  · refine he.hasType h (k := .reduction) (resolve_of_kind hk rfl)
      (.lift_bind fun f hf => ?_)
    rw [lookup, hk] at hf
    cases hf
    exact .bind (harg (by rw [hk]; exact ⟨_, rfl⟩)) fun _ he' => .bind_any fun _ =>
      .pure he'.reduce

/-- What is truncated is a date, because nothing else but null is accepted. -/
theorem hasType_truncatedDate (hk : n.kind = .dateTruncate) :
    e.HasType b (.ofLogical t) := by
  obtain rfl : .date = t := Option.some.inj ((h.type_own (by rw [hk]; rfl)).symm.trans ht)
  refine he.hasType h (k := .dateTruncate) (resolve_of_kind hk rfl)
    (.lift_bind fun _ _ => ?_)
  refine .bind (gives_operand h hvalues hbelow "arg") fun e' ⟨m, u, hm, hu, he'⟩ =>
    .pure (he'.truncate fun htemporal => ?_)
  have hv : n.kind.validator? "arg" = some (.valueOf .date) := by rw [hk]; rfl
  rcases h.type_of_family hv hm hu with hfamily | rfl
  · cases u <;> first | rfl | cases hfamily
  · cases htemporal

theorem hasType_sum (hk : n.kind = .sum) : e.HasType b (.ofLogical t) := by
  refine he.hasType h (k := .reduction) (resolve_of_kind hk rfl) (.lift_bind fun f hf => ?_)
  rw [lookup, hk] at hf
  cases hf
  obtain ⟨shape, t', ht', hn⟩ :=
    h.type_eq (show n.kind.TypedBy Rules.sumType by rw [hk]; exact ⟨_, rfl⟩)
  cases ht.symm.trans hn
  obtain ⟨v, hv, ht'⟩ := bind_eq_ok.1 ht'
  have hresult : Reduction.sum.resultType (.ofLogical v) = .ofLogical t := by
    cases v <;> (cases ht'; rfl)
  refine .bind (gives_operand h hvalues hbelow "arg") fun e' ⟨m, u, hm, hu, he'⟩ =>
    .bind_any fun _ => .pure ?_
  cases hu.symm.trans (Node.Built.typeIn_eq_ok (by decide) hm hv)
  exact hresult ▸ he'.reduce

theorem hasType_collected (hk : n.kind = .arrayCollect) : e.HasType b (.ofLogical t) := by
  refine he.hasType h (k := .reduction) (resolve_of_kind hk rfl) (.lift_bind fun f hf => ?_)
  rw [lookup, hk] at hf
  cases hf
  have hrule : n.kind.TypedBy fun bound => (Rules.typeIn "arg" bound).map .array := by
    rw [hk]; exact ⟨_, rfl⟩
  obtain ⟨shape, t', ht', hn⟩ := h.type_eq hrule
  cases ht.symm.trans hn
  obtain ⟨v, hv, rfl⟩ := map_eq_ok.1 ht'
  refine .bind (gives_operand h hvalues hbelow "arg") fun e' ⟨m, u, hm, hu, he'⟩ =>
    .bind_any fun _ => .pure ?_
  cases hu.symm.trans (Node.Built.typeIn_eq_ok (by decide) hm hv)
  exact he'.reduce

end

/-! ## Common types -/

theorem length_of_map_some {α β : Type} {f : α → Option β} {xs : List α} {ys : List β}
    (h : xs.map f = ys.map some) :
    xs.length = ys.length := by
  simpa using congrArg List.length h

theorem filterMap_of_map_some {α β : Type} {f : α → Option β} {xs : List α} {ys : List β}
    (h : xs.map f = ys.map some) : xs.filterMap f = ys := by
  have hsome := congrArg (List.filterMap id) h
  rwa [List.filterMap_map, List.filterMap_map, Function.id_comp, Function.id_comp,
    List.filterMap_some] at hsome

theorem eq_of_foldlM_commonType {ts : List DataType} {s : DataType} {p : Physical}
    (h : ts.foldlM DataType.commonSupertype t = some s)
    (hp : (ts.map Physical.ofLogical).foldlM Column.commonType (.ofLogical t) = .ok p) :
    p = .ofLogical s := by
  induction ts generalizing t with
  | nil => cases h; cases hp; rfl
  | cons u rest ih =>
      rw [List.foldlM_cons] at h
      rw [List.map_cons, List.foldlM_cons] at hp
      obtain ⟨v, hv, h⟩ := Option.bind_eq_some_iff.1 h
      obtain ⟨q, hq, hp⟩ := bind_eq_ok.1 hp
      rw [Column.eq_of_commonType hv hq] at hp
      exact ih h hp

/-- Results and default of cases are brought together from the right. -/
theorem hasType_firstCase {default : Expr} {conditions results : List Expr}
    {ts : List DataType} {s : DataType}
    (hresults : List.Forall₂ (fun e t => e.HasType b (.ofLogical t)) results ts)
    (hdefault : default.HasType b (.ofLogical t))
    (hlength : conditions.length = results.length)
    (hs : DataType.highestPrecedence (ts ++ [t]) = some s) :
    (firstCase default (conditions.zip results)).HasType b (.ofLogical s) := by
  induction hresults generalizing conditions s with
  | nil =>
      rw [List.zip_nil_right]
      cases hs
      exact hdefault
  | cons hresult _ ih =>
      cases conditions with
      | nil => cases hlength
      | cons condition conditions =>
          rw [List.cons_append, DataType.highestPrecedence_cons] at hs
          obtain ⟨v, hv, hs⟩ := Option.bind_eq_some_iff.1 hs
          exact .choose hresult (ih (Nat.succ.inj hlength) hv) fun p hp =>
            Column.eq_of_commonType hs hp

section

variable (h : n.Built) (hvalues : n.kind.holdsValues = true)
  (hbelow : ∀ m ∈ n.children, m.kind.isValue = true → m.KeepsType clock b)
  (he : Compiled clock n e) (ht : n.dataType? = some t)

include h hvalues hbelow he ht

theorem hasType_ifElse (hk : n.kind = .ifElse) : e.HasType b (.ofLogical t) := by
  have hoperand (field : String) := gives_operand h hvalues hbelow field
  refine he.hasType h (k := .ifElse) (resolve_of_kind hk rfl) (.bind_any fun p => ?_)
  refine .bind (hoperand "true_expr") fun l ⟨x, tl, hx, htl, hl⟩ => ?_
  refine .bind (hoperand "false_null_expr") fun r ⟨y, tr, hy, htr, hr⟩ => .pure ?_
  have hs := h.type_pair (by rw [hk]; exact ⟨_, rfl⟩) (by decide) (by rw [hk]; rfl)
    (by rw [hk]; rfl) hx hy htl htr ht
  exact .choose hl hr fun p hp => Column.eq_of_commonType hs hp

theorem hasType_arithmetic (hk : n.kind ∈ [.add, .subtract, .multiply, .modulus]) :
    e.HasType b (.ofLogical t) := by
  have hoperand (field : String) := gives_operand h hvalues hbelow field
  have harithmetic (hresolve : rules.resolve n.kind = .ok (.binary, binaryRule))
      (hrule : n.kind.TypedBy (Rules.commonType ["left", "right"])) {v : Validator}
      (hvl : n.kind.validator? "left" = some v) (hvr : n.kind.validator? "right" = some v) :
      e.HasType b (.ofLogical t) := by
    refine he.hasType h hresolve (.lift_bind fun op hop => ?_)
    refine .bind (hoperand "left") fun l ⟨x, tl, hx, htl, hl⟩ => ?_
    refine .bind (hoperand "right") fun r ⟨y, tr, hy, htr, hr⟩ => .pure ?_
    have hs := h.type_pair hrule (by decide) hvl hvr hx hy htl htr ht
    have hop : ∀ p, op.resultType p = p := by
      simp only [List.mem_cons, List.not_mem_nil, or_false] at hk
      rcases hk with hk | hk | hk | hk
        <;> (rw [lookup, hk] at hop; cases hop; exact fun _ => rfl)
    exact hl.binary hr fun p hp => (hop p).trans (Column.eq_of_commonType hs hp)
  simp only [List.mem_cons, List.not_mem_nil, or_false] at hk
  rcases hk with hk | hk | hk | hk <;>
    exact harithmetic (resolve_of_kind hk rfl) (by rw [hk]; exact ⟨_, rfl⟩)
    (by rw [hk]; rfl) (by rw [hk]; rfl)

theorem hasType_case (hk : n.kind = .simpleCase ∨ n.kind = .searchedCase) :
    e.HasType b (.ofLogical t) := by
  have hcases (count : List Expr → List Expr) (hcount : ∀ es, (count es).length = es.length)
      (hrule : n.kind.TypedBy (Rules.commonType ["results", "default"]))
      (hresults : n.kind.validator? "results" = some (.sameLengthAs "cases"))
      (hdefault : n.kind.validator? "default" = some .value) :
      GivesType b (.ofLogical t) (do
        let cases ← exprs (lowered clock) n "cases"
        let results ← exprs (lowered clock) n "results"
        let default ← expr (lowered clock) n "default"
        return firstCase default ((count cases).zip results)) := by
    refine .bind (gives_operands h hvalues hbelow "cases")
      fun cases ⟨xs, us, hxs, hus, hcase⟩ => ?_
    refine .bind (gives_operands h hvalues hbelow "results")
      fun results ⟨ys, ts, hys, hts, hresult⟩ => ?_
    refine .bind (gives_operand h hvalues hbelow "default")
      fun default ⟨z, u, hz, hu, hd⟩ => .pure ?_
    refine hasType_firstCase hresult hd ?_ ?_
    · rw [hcount, hcase.length_eq, hresult.length_eq, ← length_of_map_some hus,
        ← length_of_map_some hts, h.length_eq_of_sameLength hresults hys hxs]
    · have hcommon := h.type_common hrule (by decide)
      rw [List.flatMap_cons, List.flatMap_cons, List.flatMap_nil, h.nodesIn_eq hresults hys,
        h.nodesIn_of_child hdefault hz] at hcommon
      simpa [hu, filterMap_of_map_some hts, ht] using hcommon
  rcases hk with hk | hk
  · refine he.hasType h (k := .simpleCase) (resolve_of_kind hk rfl)
      (.bind_any fun base => ?_)
    exact hcases (List.map base.equals) (fun es => List.length_map _)
      (by rw [hk]; exact ⟨_, rfl⟩) (by rw [hk]; rfl) (by rw [hk]; rfl)
  · refine he.hasType h (k := .searchedCase) (resolve_of_kind hk rfl) ?_
    exact hcases id (fun es => rfl)
      (by rw [hk]; exact ⟨_, rfl⟩) (by rw [hk]; rfl) (by rw [hk]; rfl)

theorem hasType_best (hk : n.kind = .greatest ∨ n.kind = .least) :
    e.HasType b (.ofLogical t) := by
  have hbest {v : Validator} (hrule : n.kind.TypedBy (Rules.commonType ["arg"]))
      (hv : n.kind.validator? "arg" = some v) {make : List Expr → Expr}
      (hmake : ∀ {es ts}, List.Forall₂ (Expr.HasType b) es ts →
        (∀ t' rest p, ts = t' :: rest →
        rest.foldlM Column.commonType t' = .ok p → p = .ofLogical t) →
        (make es).HasType b (.ofLogical t)) :
      GivesType b (.ofLogical t) (do return make (← exprs (lowered clock) n "arg")) := by
    refine .bind (gives_operands h hvalues hbelow "arg")
      fun es ⟨ms, ts, hms, hts, hes⟩ => .pure ?_
    have hcommon := h.type_common hrule (by decide)
    rw [List.flatMap_cons, List.flatMap_nil, h.nodesIn_eq hv hms, List.append_nil,
      filterMap_of_map_some hts, ht] at hcommon
    have htypes : List.Forall₂ (Expr.HasType b) es (ts.map .ofLogical) :=
      List.forall₂_map_right_iff.2 hes
    refine hmake htypes fun t' rest p heq hp => ?_
    cases ts with
    | nil => cases heq
    | cons first more =>
        obtain ⟨rfl, rfl⟩ := List.cons.inj heq
        refine eq_of_foldlM_commonType ?_ hp
        rw [DataType.highestPrecedence, List.foldlM_cons, DataType.null_commonSupertype]
          at hcommon
        exact hcommon
  rcases hk with hk | hk
  · refine he.hasType h (k := .greatest) (resolve_of_kind hk rfl) ?_
    exact hbest (by rw [hk]; exact ⟨_, rfl⟩) (by rw [hk]; rfl) .greatest
  · refine he.hasType h (k := .least) (resolve_of_kind hk rfl) ?_
    exact hbest (by rw [hk]; exact ⟨_, rfl⟩) (by rw [hk]; rfl) .least

end

/-- Whatever is computed for the value has the type that is foretold for it. -/
abbrev Foretold (b : Batch) (s : Schema) (n : Node) (e : Expr) : Prop :=
  Yields (fun c => n.executedType s = some c.type) (e.evaluate b)

theorem Foretold.of_hasType {s : Schema} (htype : n.executedType s = some u)
    (he : e.HasType b u) :
    Foretold b s n e :=
  he.mono fun c hc => by rw [htype, hc]

/-! ## All kinds -/

/-- Kinds of values by where their type comes from. -/
theorem kind_cases {k : NodeKind} (hvalue : k.isValue = true)
    (hconcrete : k.definition.isAbstract = false) :
    k.ownType?.isSome = true ∨ k = .cast
      ∨ k ∈ [.floorDivide, .round, .clip, .timestampFromUnix, .intervalFromInteger]
      ∨ (k = .arrayConcat ∨ k = .arrayColumn)
      ∨ k ∈ [.timestampAdd, .timestampSub, .intervalSubtract]
      ∨ k ∈ [.renamed, .nullIf, .nullIfZero, .zeroIfNull, .negate, .sign,
        .timestampTruncate, .min, .max]
      ∨ k = .sum ∨ k = .arrayCollect ∨ k = .ifElse
      ∨ k ∈ [.add, .subtract, .multiply, .modulus]
      ∨ (k = .simpleCase ∨ k = .searchedCase) ∨ (k = .greatest ∨ k = .least)
      ∨ k ∈ NodeKind.retyped
      ∨ k = .stringLike ∨ k = .parseUrl := by
  revert hvalue hconcrete
  have hmem := k.mem_all
  revert hmem
  revert k
  set_option maxRecDepth 2000 in decide

section

variable (h : n.Built) (hvalue : n.kind.isValue = true)
  (hbelow : ∀ m ∈ n.children, m.kind.isValue = true → m.KeepsType clock b)
  (he : Compiled clock n e)

include h hvalue hbelow he

/-- A value of a kind that is not an exception has the type that it is declared with. -/
theorem hasType_declared (hk : n.kind ∉ NodeKind.retyped) (ht : n.dataType? = some t) :
    e.HasType b (.ofLogical t) := by
  have hcolumn : n.kind ≠ .tableColumn := fun hn => hk (by rw [hn]; decide)
  by_cases hown : n.kind.ownType?.isSome = true
  · obtain ⟨u, hu⟩ := Option.isSome_iff_exists.1 hown
    by_cases hdate : n.kind = .dateTruncate
    · exact hasType_truncatedDate h (by rw [hdate]; decide) hbelow he ht hdate
    · cases (h.type_own hu).symm.trans ht
      exact hasType_own h he hdate hu
  · have hrows : n.kind ≠ .countStar := fun hn => hown (by rw [hn]; rfl)
    have hvalues := NodeKind.holdsValues_of_isValue hvalue hcolumn hrows
    have hrefused {rule : EngineRule} (hresolve : rules.resolve n.kind = .ok (.node, rule))
        (hrule : rule = RuleTable.refuse targetName) : e.HasType b (.ofLogical t) := by
      obtain ⟨_, hrun⟩ := run_of_answer h hresolve he
      rw [hrule] at hrun
      cases hrun
    rcases kind_cases hvalue h.not_abstract with hn | hn | hn | hn | hn | hn | hn | hn | hn
      | hn | hn | hn | hn | hn | hn
    · exact absurd hn hown
    · exact hasType_cast h he ht hn
    · exact hasType_converted h he ht hn
    · exact hasType_list h he ht hn
    · exact hasType_moved h he ht hn
    · exact hasType_kept h hvalues hbelow he ht hn
    · exact hasType_sum h hvalues hbelow he ht hn
    · exact hasType_collected h hvalues hbelow he ht hn
    · exact hasType_ifElse h hvalues hbelow he ht hn
    · exact hasType_arithmetic h hvalues hbelow he ht hn
    · exact hasType_case h hvalues hbelow he ht hn
    · exact hasType_best h hvalues hbelow he ht hn
    · exact absurd hn hk
    · exact hrefused (resolve_of_kind hn rfl) rfl
    · exact hrefused (resolve_of_kind hn rfl) rfl

/-! ## The exceptions -/

omit hvalue hbelow in
theorem foretold_column {s : Schema} (hb : b.Matches s) (hk : n.kind = .tableColumn) :
    Foretold b s n e := by
  obtain ⟨_, hrun⟩ := run_of_compiled h (k := .tableColumn) (resolve_of_kind hk rfl) he
  obtain ⟨name, hname, hrun⟩ := Emission.run_lift_bind_eq_ok hrun
  cases hrun
  intro c hc
  rw [Expr.evaluate, Expr.findColumn] at hc
  split at hc
  · next c' hc' =>
      cases hc
      rw [Node.executedType, hk, hname]
      exact hb.type_eq hc'
  · cases hc

omit hbelow in
/-- A constant that is declared null is left as it is stored. -/
theorem foretold_literal (s : Schema) (hk : n.kind = .literal) : Foretold b s n e := by
  obtain ⟨v, hv, rfl⟩ := compiled_literal h hk he
  obtain ⟨t, ht⟩ := h.exists_type hvalue
  have htype : n.executedType s = if v.isNull = false ∧ t = .null then Literal.storedType? v
      else some (.ofLogical t) := by
    rw [Node.executedType, hk]
    simp only [hv, ht, Option.bind_some, Option.some.injEq, Option.map_some]
  rw [ht, Option.getD_some]
  by_cases hnull : v.isNull = false ∧ t = .null
  · rw [if_pos hnull] at htype
    obtain ⟨hv, rfl⟩ := hnull
    rw [Foretold, Expr.evaluate, Literal.column, if_neg (by rw [hv]; decide), htype]
    refine .bind_any fun p hp => .ok ?_
    rw [Literal.storedType?, hp]
    rfl
  · rw [if_neg hnull] at htype
    refine .of_hasType htype (.literal ?_)
    by_cases hv : v.isNull = true
    · exact .inl hv
    · exact .inr fun ht => hnull ⟨by simpa using hv, ht⟩

omit hvalue in
/-- What stands in for nulls is brought to the type of the first operand. -/
theorem foretold_replaced (s : Schema) (hk : n.kind = .ifNull ∨ n.kind = .coalesce) :
    Foretold b s n e := by
  have hvalues : n.kind.holdsValues = true := by rcases hk with hk | hk <;> (rw [hk]; decide)
  have htype {m : Node} {ms : List Node} {t : DataType}
      (hms : Rules.nodesIn "arg" n.fields = m :: ms)
      (ht : m.dataType? = some t) : n.executedType s = some (.ofLogical t) := by
    rcases hk with hk | hk <;> (rw [Node.executedType, hk]; simp [hms, ht])
  rcases hk with hk | hk
  · obtain ⟨_, hrun⟩ := run_of_compiled h (k := .ifNull) (resolve_of_kind hk rfl) he
    obtain ⟨fill, _, -, hrun⟩ := Emission.run_bind_eq_ok hrun
    obtain ⟨arg, _, harg, hrun⟩ := Emission.run_bind_eq_ok hrun
    cases hrun
    obtain ⟨m, t, hm, ht, he'⟩ := gives_operand h hvalues hbelow "arg" _ _ _ harg
    exact .of_hasType (htype (h.nodesIn_of_child (by rw [hk]; rfl) hm) ht) he'.fillNull
  · obtain ⟨_, hrun⟩ := run_of_compiled h (k := .coalesce) (resolve_of_kind hk rfl) he
    obtain ⟨es, _, hes, hrun⟩ := Emission.run_bind_eq_ok hrun
    cases hrun
    obtain ⟨ms, ts, hms, hts, hall⟩ := gives_operands h hvalues hbelow "arg" _ _ _ hes
    cases hall with
    | nil =>
        rw [Foretold, Expr.evaluate, Expr.evaluateList]
        exact .error _
    | cons he' _ =>
        cases ms with
        | nil => cases hts
        | cons m rest =>
            obtain ⟨ht, -⟩ := List.cons.inj hts
            refine .of_hasType (htype (h.nodesIn_eq (by rw [hk]; rfl) hms) ht)
              (.coalesce fun e he => ?_)
            cases he
            exact he'

omit hvalue hbelow in
/-- Operators on bits give 64 bits. -/
theorem foretold_bits (s : Schema) (hk : n.kind ∈ NodeKind.bitwise) : Foretold b s n e := by
  have hbinary (htype : n.executedType s = some .int64)
      (hresolve : rules.resolve n.kind = .ok (.binary, binaryRule))
      (hop : Yields (fun op => ∀ t, op.resultType t = .int64) (lookup binaryOps n)) :
          Foretold b s n e := by
    refine .of_hasType htype (he.hasType h hresolve (.lift_bind fun op hlookup => ?_))
    exact .bind_any fun _ => .bind_any fun _ => .pure (.binary_of_result (hop op hlookup))
  simp only [NodeKind.bitwise, List.mem_cons, List.not_mem_nil, or_false] at hk
  rcases hk with hk | hk | hk | hk | hk | hk
  case inr.inr.inr.inr.inr =>
    refine .of_hasType (u := .int64) (by rw [Node.executedType, hk]) ?_
    refine he.hasType h (k := .unary) (resolve_of_kind hk rfl)
      (.lift_bind fun op hop => .bind_any fun _ => .pure ?_)
    rw [lookup, hk] at hop
    cases hop
    exact .unary_of_result (by decide) fun _ => rfl
  all_goals
    refine hbinary (by rw [Node.executedType, hk]) (resolve_of_kind hk rfl) ?_
    rw [lookup, hk]
    exact .ok fun _ => rfl

/-- Magnitudes of null are doubles. -/
theorem foretold_abs (s : Schema) (hk : n.kind = .abs) : Foretold b s n e := by
  obtain ⟨t, ht⟩ := h.exists_type hvalue
  have harg : GivesType b (.ofLogical t) (expr (lowered clock) n "arg") :=
    gives_typed h (by rw [hk]; decide) hbelow ht (by rw [hk]; exact ⟨_, rfl⟩) (by decide)
  refine .of_hasType
    (u := if (Physical.ofLogical t).isInteger then .ofLogical t else .float64) ?_ ?_
  · rw [Node.executedType, hk]
    simp only [ht, Option.map_some]
  · refine he.hasType h (k := .unary) (resolve_of_kind hk rfl) (.lift_bind fun op hop => ?_)
    rw [lookup, hk] at hop
    cases hop
    exact .bind harg fun _ he' => .pure he'.abs

/-- Whatever is computed for a value has the type that is foretold for it. -/
theorem foretold {s : Schema} (hb : b.Matches s) : Foretold b s n e := by
  by_cases hk : n.kind ∈ NodeKind.retyped
  · simp only [NodeKind.retyped, List.mem_cons, List.not_mem_nil, or_false] at hk
    rcases hk with hk | hk | hk | hk | hk | hk | hk | hk | hk | hk | hk
    · exact foretold_literal h hvalue he s hk
    · exact foretold_column h he hb hk
    · exact foretold_replaced h hbelow he s (.inl hk)
    · exact foretold_replaced h hbelow he s (.inr hk)
    all_goals first
      | exact foretold_bits h he s (by rw [hk]; decide)
      | exact foretold_abs h hvalue hbelow he s hk
  · obtain ⟨t, ht⟩ := h.exists_type hvalue
    refine .of_hasType (u := .ofLogical t) ?_ (hasType_declared h hvalue hbelow he hk ht)
    simp only [NodeKind.retyped, List.mem_cons, List.not_mem_nil, or_false, not_or] at hk
    unfold Node.executedType
    split <;> simp_all

end

/-- Whatever is computed for a value whose parts agree has the type that is foretold for
it. -/
theorem foretold_value {s : Schema} (hb : b.Matches s) (h : n.Built)
    (hvalue : n.kind.isValue = true) (hparts : n.partsAgree s = true)
    (he : Compiled clock n e) : Foretold b s n e := by
  induction hdepth : n.depth using Nat.strongRecOn generalizing n e with
  | ind depth ih =>
      subst hdepth
      refine foretold h hvalue (fun m hm hmvalue e t he ht => ?_) he hb
      obtain ⟨hagrees, hparts⟩ :=
        Node.agreesThroughout_iff.1 (Node.agrees_of_mem_children hparts hm hmvalue)
      refine (ih m.depth (Node.depth_of_mem_children hm) (h.of_mem_children hm) hmvalue
        hparts he rfl).mono fun c hc => ?_
      rw [of_decide_eq_true hagrees, ht] at hc
      exact (Option.some.inj hc).symm

end Engine

end TypedQuery
