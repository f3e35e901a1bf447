import TypedQuery.Proofs.Columnar.ResultTypes
import TypedQuery.Proofs.Engine.Operands
import TypedQuery.Proofs.Node.Calls

/-!
# Operands that are combined

Where the types of two operands have a common supertype, their columns are brought to it,
and no comparison and no choice fails for the types of its operands. There are two
exceptions: timestamps of different units, and arrays of different elements, although both
have a common supertype. The first part says so of two columns, the second of all kinds of
values that bring their operands to a common type.
-/

namespace TypedQuery

namespace DataType

variable {t u : DataType}

theorem meets_self (t : DataType) : t.meets t = true := by
  rw [meets, commonSupertype_self, unmatched_self]
  rfl

theorem meets_comm (t u : DataType) : t.meets u = u.meets t := by
  rw [meets, meets, commonSupertype_comm, unmatched_comm]

theorem meets_iff :
    t.meets u = true ↔ (∃ s, t.commonSupertype u = some s) ∧ t.unmatched u = false := by
  rw [meets, Bool.and_eq_true, Option.isSome_iff_exists, Bool.not_eq_true']

end DataType

namespace Column

/-- The step does not fail because two columns cannot be brought to one type. -/
def Combines {α : Type} (x : Except Error α) : Prop := ∀ l r, x ≠ .error (incompatible l r)

namespace Combines

variable {α β : Type}

theorem ok (a : α) : Combines (.ok a : Except Error α) := fun _ _ h => by cases h

theorem compute (failure : ComputeFailure) :
    Combines (.error (.compute failure) : Except Error α) :=
  fun _ _ h => by cases h

theorem execution (text : String) : Combines (.error (.execution text) : Except Error α) :=
  fun _ _ h => by cases h

theorem bind {x : Except Error α} {f : α → Except Error β} (hx : Combines x)
    (hf : ∀ a, x = .ok a → Combines (f a)) :
    Combines (x >>= f) := by
  cases x with
  | error e => exact fun l r h => hx l r (congrArg Except.error (Except.error.inj h))
  | ok a => exact hf a rfl

/-- A step whose result is known. -/
theorem bind_of_eq {x : Except Error α} {f : α → Except Error β} {a : α} (hx : x = .ok a)
    (h : Combines (f a)) :
    Combines (x >>= f) := by
  rw [hx]
  exact h

/-- A failure that is worded otherwise. -/
theorem of_text {text : String} (h : text.toList.head? ≠ some 'i') :
    Combines (.error (.type text) : Except Error α) := by
  intro l r heq
  obtain rfl := Error.type.inj (Except.error.inj heq)
  exact h (by simp [String.toList_append])

end Combines

variable {l r c : Column} {t u s : DataType}

theorem combines_broadcast (c : Column) (rows : Nat) : Combines (c.broadcast rows) := by
  unfold broadcast
  split
  · exact .ok _
  · split
    · exact .ok _
    · exact .execution _

theorem combines_pairs (l r : Column) : Combines (pairs l r) := by
  unfold pairs
  split
  · exact .ok _
  · split
    · exact .ok _
    · exact .ok _
    · exact .execution _

theorem combines_condition (c : Column) : Combines c.condition := by
  unfold condition
  split
  · exact .ok _
  · exact .of_text (by simp [String.toList_append])

theorem combines_asPredicate (c : Column) (rows : Nat) : Combines (c.asPredicate rows) := by
  refine .bind (combines_broadcast c rows) fun c _ => ?_
  split
  · exact .ok _
  · exact .of_text (by simp [String.toList_append])

theorem combines_compare (op : Comparison) (l r : Column) : Combines (compare op l r) := by
  refine .bind (combines_pairs l r) fun _ _ => ?_
  split
  · exact .compute _
  · exact .ok _

theorem combines_logic (op : Logic) (l r : Column) : Combines (logic op l r) :=
  .bind (combines_broadcast _ _) fun _ _ => .bind (combines_condition _) fun _ _ =>
    .bind (combines_broadcast _ _) fun _ _ => .bind (combines_condition _) fun _ _ => .ok _

theorem combines_coerce_of_eq (h : l.type = r.type) : Combines (l.coerce r) := by
  rw [coerce_self h]
  exact .ok _

theorem Stores.combines_coerce (hl : l.Stores t) (hr : r.Stores u) (h : t.meets u = true) :
    Combines (l.coerce r) := by
  obtain ⟨⟨s, hs⟩, hm⟩ := DataType.meets_iff.1 h
  obtain ⟨l', r', -, -, hcoerce, -, -⟩ := hl.coerce hr hs hm
  rw [hcoerce]
  exact .ok _

theorem Stores.combines_compare (hl : l.Stores t) (hr : r.Stores u) (h : t.meets u = true)
    (op : Comparison) :
    Combines (BinaryOp.apply (.compare op) l r) :=
  .bind (hl.combines_coerce hr h) fun p _ => Column.combines_compare op p.1 p.2

theorem combines_logic_of_boolean (hl : l.type = .boolean)
    (hr : r.type = .boolean) (op : Logic) :
    Combines (BinaryOp.apply (.logic op) l r) :=
  .bind (combines_coerce_of_eq (hl.trans hr.symm)) fun p _ => combines_logic op p.1 p.2

theorem Stores.combines_select (hl : l.Stores t) (hr : r.Stores u) (h : t.meets u = true)
    (mask : List Bool) :
    Combines (select mask l r) :=
  .bind (combines_broadcast _ _) fun _ _ => .bind (hl.combines_coerce hr h) fun _ _ =>
    .bind (combines_broadcast _ _) fun _ _ => .bind (combines_broadcast _ _) fun _ _ => .ok _

/-- A choice between two types that meet has one of the two. -/
theorem Stores.select (hl : l.Stores t) (hr : r.Stores u) (h : t.meets u = true)
    (mask : List Bool) :
    Yields (fun out => out.Stores t ∨ out.Stores u) (select mask l r) := by
  intro out hout
  obtain ⟨⟨s, hs⟩, hm⟩ := DataType.meets_iff.1 h
  have htype := type_select mask l r out hout
  rw [hl.type_eq, hr.type_eq, commonType_of_matched hs hm] at htype
  have hstores : out.Stores s :=
    ⟨(Except.ok.inj htype).symm, hl.typed.select hr.typed mask out hout⟩
  rcases DataType.eq_or_eq_of_meets hm hs with rfl | rfl
  · exact .inl hstores
  · exact .inr hstores

theorem type_compared (op : Comparison) (l r : Column) :
    Yields (·.type = .boolean) (BinaryOp.apply (.compare op) l r) :=
  (BinaryOp.type_apply _ l r).mono fun _ ⟨_, _, h⟩ => h

theorem type_connected (op : Logic) (l r : Column) :
    Yields (·.type = .boolean) (BinaryOp.apply (.logic op) l r) :=
  (BinaryOp.type_apply _ l r).mono fun _ ⟨_, _, h⟩ => h

end Column

/-! ## Expressions -/

namespace Expr

open Column

variable {b : Batch} {e : Expr} {t u : DataType}

/-- The expression computes a column of a type. -/
def Computes (b : Batch) (e : Expr) (t : DataType) : Prop :=
  ∃ c, e.evaluate b = .ok c ∧ c.Stores t

theorem Computes.combines (h : e.Computes b t) : Combines (e.evaluate b) := by
  obtain ⟨c, hc, -⟩ := h
  rw [hc]
  exact .ok _

theorem combines_compared {l r : Expr} (hl : l.Computes b t) (hr : r.Computes b u)
    (h : t.meets u = true) (op : Comparison) :
    Combines ((Expr.binary l (.compare op) r).evaluate b) := by
  obtain ⟨cl, hcl, hl⟩ := hl
  obtain ⟨cr, hcr, hr⟩ := hr
  exact .bind_of_eq hcl (.bind_of_eq hcr (hl.combines_compare hr h op))

theorem combines_between {v low high : Expr} {ts : DataType} (hv : v.Computes b t)
    (hlow : low.Computes b u) (hhigh : high.Computes b ts) (hl : t.meets u = true)
    (hh : t.meets ts = true) :
    Combines ((Expr.between v low high).evaluate b) := by
  obtain ⟨c, hc, hv⟩ := hv
  obtain ⟨cl, hcl, hlow⟩ := hlow
  obtain ⟨ch, hch, hhigh⟩ := hhigh
  refine .bind_of_eq hc (.bind_of_eq hcl (.bind_of_eq hch ?_))
  exact .bind (hv.combines_compare hlow hl _) fun above habove =>
    .bind (hv.combines_compare hhigh hh _) fun below hbelow =>
      combines_logic_of_boolean (type_compared _ _ _ above habove)
        (type_compared _ _ _ below hbelow) _

theorem combines_evaluateIn {c : Column} (hc : c.Stores t) {options : List Expr}
    (hoptions : ∀ e ∈ options, ∃ u, e.Computes b u ∧ t.meets u = true)
    {found : Option Column} (hfound : ∀ f ∈ found, f.type = .boolean) :
    Combines (evaluateIn b c found options) := by
  induction options generalizing found with
  | nil => exact .ok _
  | cons e rest ih =>
      obtain ⟨⟨u, ⟨v, hv, hstores⟩, hmeets⟩, hrest⟩ := List.forall_mem_cons.1 hoptions
      refine .bind_of_eq hv
        (.bind (hc.combines_compare hstores hmeets _) fun matched hmatched => ?_)
      have hboolean := type_compared _ _ _ matched hmatched
      cases found with
      | none => exact ih hrest fun f hf => by cases hf; exact hboolean
      | some found =>
          refine .bind (combines_logic_of_boolean (hfound found rfl) hboolean _)
            fun either heither => ?_
          exact ih hrest fun f hf => by cases hf; exact type_connected _ _ _ either heither

theorem combines_choose {p l r : Expr} (hp : Combines (p.evaluate b)) (hl : l.Computes b t)
    (hr : Combines (r.evaluate b))
    (hmeets : Yields (fun c => ∃ u, c.Stores u ∧ t.meets u = true) (r.evaluate b)) :
    Combines ((Expr.choose p l r).evaluate b) := by
  obtain ⟨cl, hcl, hl⟩ := hl
  refine .bind hp fun p _ => .bind (combines_asPredicate _ _) fun mask _ =>
    .bind_of_eq hcl (.bind hr fun c hc => ?_)
  obtain ⟨u, hstores, hmeets⟩ := hmeets c hc
  exact hl.combines_select hstores hmeets _

/-- Any two of some types meet. -/
def AllMeet (types : DataType → Prop) : Prop := ∀ t u, types t → types u → t.meets u = true

/-- The results of cases all have types that meet, and so has what is chosen of them. -/
theorem combines_firstCase {types : DataType → Prop} (htypes : AllMeet types)
    {default : Expr} (hdefault : ∃ t, types t ∧ default.Computes b t)
    {cases : List (Expr × Expr)}
    (hcases : ∀ x ∈ cases, Combines (x.1.evaluate b) ∧ ∃ t, types t ∧ x.2.Computes b t) :
    Combines ((Engine.firstCase default cases).evaluate b)
      ∧ Yields (fun c => ∃ t, types t ∧ c.Stores t)
        ((Engine.firstCase default cases).evaluate b) := by
  induction cases with
  | nil =>
      obtain ⟨t, ht, hd⟩ := hdefault
      refine ⟨hd.combines, fun c hc => ?_⟩
      obtain ⟨c', hc', hstores⟩ := hd
      cases hc'.symm.trans hc
      exact ⟨t, ht, hstores⟩
  | cons x rest ih =>
      obtain ⟨⟨hp, t, ht, hresult⟩, hrest⟩ := List.forall_mem_cons.1 hcases
      obtain ⟨hcombines, hyields⟩ := ih hrest
      refine ⟨combines_choose hp hresult hcombines
        (hyields.mono fun c ⟨u, hu, hc⟩ => ⟨u, hc, htypes t u ht hu⟩), ?_⟩
      obtain ⟨cl, hcl, hl⟩ := hresult
      intro out hout
      obtain ⟨p, -, hout⟩ := bind_eq_ok.1 hout
      obtain ⟨mask, -, hout⟩ := bind_eq_ok.1 hout
      obtain ⟨cl', hcl', hout⟩ := bind_eq_ok.1 hout
      cases hcl.symm.trans hcl'
      obtain ⟨c, hc, hout⟩ := bind_eq_ok.1 hout
      obtain ⟨u, hu, hstores⟩ := hyields c hc
      rcases hl.select hstores (htypes t u ht hu) _ out hout with h | h
      · exact ⟨t, ht, h⟩
      · exact ⟨u, hu, h⟩

end Expr

/-! ## Values -/

/-- The pairs of fields whose values a kind brings to a common type. -/
def NodeKind.combined : NodeKind → List (String × String)
  | .equals | .notEquals | .greater | .greaterEqual | .less | .lessEqual =>
    [("left", "right")]
  | .between => [("arg", "lower_bound"), ("arg", "upper_bound")]
  | .contains | .notContains => [("value", "options")]
  | .ifElse => [("true_expr", "false_null_expr")]
  | .simpleCase => [("base", "cases"), ("results", "results"), ("results", "default")]
  | .searchedCase => [("results", "results"), ("results", "default")]
  | _ => []

/-- The kinds that bring operands to a common type. -/
def NodeKind.combining : List NodeKind :=
  [equals, notEquals, greater, greaterEqual, less, lessEqual, between, contains,
    notContains, ifElse, simpleCase, searchedCase]

namespace Node

/-- The nodes that a field holds. -/
def held (n : Node) (field : String) : List Node := ((n.get? field).map Arg.nodes).getD []

variable {n m : Node} {field : String}

theorem held_of_child (h : n.child field = .ok m) : n.held field = [m] := by
  obtain ⟨a, ha, hm⟩ := fieldAs_eq_ok h
  cases a with
  | node m' =>
      cases hm
      rw [held, ha]
      rfl
  | _ => cases hm

theorem held_of_childList {ms : List Node} (h : n.childList field = .ok ms) :
    n.held field = ms := by
  rcases childList_eq_ok h with ⟨hnone, rfl⟩ | hseq
  · rw [held, hnone]
    rfl
  · rw [held, hseq]
    exact nodesOfItems_map_node ms

/-- Each column is stored in the type that its node is declared with. -/
def AllStored (ms : List Node) (cs : List Column) : Prop :=
  List.Forall₂ (fun m c => ∃ t, m.dataType? = some t ∧ c.Stores t) ms cs

theorem AllStored.types_eq {ms : List Node} {cs : List Column} (h : AllStored ms cs) :
    (ms.filterMap dataType?).map Physical.ofLogical = cs.map Column.type := by
  induction h with
  | nil => rfl
  | cons hc _ ih =>
      obtain ⟨t, ht, hc⟩ := hc
      rw [List.filterMap_cons_some ht, List.map_cons, List.map_cons, ih, hc.type_eq]

theorem AllStored.typed {ms : List Node} {cs : List Column} (h : AllStored ms cs) :
    ∀ c ∈ cs, c.Typed := by
  intro c hc
  obtain ⟨m, -, t, -, hstores⟩ := exists_of_forall₂_right h hc
  exact hstores.typed

/-- The types of two values meet. -/
def Meets (x y : Node) : Prop :=
  ∀ t u, x.dataType? = some t → y.dataType? = some u → t.meets u = true

/-- Compiled and evaluated over a batch, the value gives a column of the type
that it is declared with. -/
def Computed (clock : Engine.Clock) (b : Batch) (m : Node) : Prop :=
  ∃ t, m.dataType? = some t ∧ ∀ e, Engine.Compiled clock m e → e.Computes b t

end Node

namespace Engine

open Column

variable {clock : Clock} {b : Batch} {n : Node} {field : String} {e : Expr}

section

variable (h : n.Built) (hcomputed : ∀ m ∈ n.children, m.Computed clock b)

include h hcomputed

theorem Operand.computes (he : Operand clock n field e) :
    ∃ m ∈ n.held field, ∃ t, m.dataType? = some t ∧ e.Computes b t := by
  obtain ⟨m, hm, he⟩ := he
  obtain ⟨t, ht, hcomputes⟩ := hcomputed m (h.mem_children_of_child hm)
  exact ⟨m, by rw [Node.held_of_child hm]; exact List.mem_singleton_self m, t,
    ht, hcomputes e he⟩

theorem Operands.computes {es : List Expr} (hes : Operands clock n field es) (he : e ∈ es) :
    ∃ m ∈ n.held field, ∃ t, m.dataType? = some t ∧ e.Computes b t := by
  obtain ⟨ms, hms, hall⟩ := hes
  obtain ⟨m, hm, hcompiled⟩ := exists_of_forall₂_right hall he
  obtain ⟨t, ht, hcomputes⟩ := hcomputed m (h.mem_children_of_childList hms hm)
  exact ⟨m, by rw [Node.held_of_childList hms]; exact hm, t, ht, hcomputes e hcompiled⟩

end

section

variable (h : n.Built) (he : Compiled clock n e)
    (hcomputed : ∀ m ∈ n.children, m.Computed clock b)
  (hmeets : ∀ p ∈ n.kind.combined, ∀ x ∈ n.held p.1, ∀ y ∈ n.held p.2, x.Meets y)

include h he hcomputed hmeets

theorem combines_comparison {op : Comparison}
    (hresolve : rules.resolve n.kind = .ok (.binary, binaryRule))
    (hop : lookup binaryOps n = .ok (.compare op))
    (hfields : ("left", "right") ∈ n.kind.combined) :
    Combines (e.evaluate b) := by
  obtain ⟨op', l, r, hop', hl, hr, rfl⟩ := compiled_binary h hresolve he
  cases hop.symm.trans hop'
  obtain ⟨x, hx, t, ht, hl⟩ := hl.computes h hcomputed
  obtain ⟨y, hy, u, hu, hr⟩ := hr.computes h hcomputed
  exact Expr.combines_compared hl hr (hmeets _ hfields x hx y hy t u ht hu) op

theorem combines_betweenValue (hkind : n.kind = .between) : Combines (e.evaluate b) := by
  obtain ⟨v, low, high, hv, hlow, hhigh, rfl⟩ := compiled_between h hkind he
  rw [hkind] at hmeets
  obtain ⟨x, hx, t, ht, hv⟩ := hv.computes h hcomputed
  obtain ⟨y, hy, u, hu, hlow⟩ := hlow.computes h hcomputed
  obtain ⟨z, hz, w, hw, hhigh⟩ := hhigh.computes h hcomputed
  exact Expr.combines_between hv hlow hhigh
    (hmeets ("arg", "lower_bound") (by decide) x hx y hy t u ht hu)
    (hmeets ("arg", "upper_bound") (by decide) x hx z hz t w ht hw)

omit he in
theorem combines_membership {v : Expr} {options : List Expr} (hv : Operand clock n "value" v)
    (hoptions : Operands clock n "options" options)
    (hfields : ("value", "options") ∈ n.kind.combined) :
    Combines ((Expr.isIn v options).evaluate b) := by
  obtain ⟨x, hx, t, ht, c, hc, hstores⟩ := hv.computes h hcomputed
  refine .bind_of_eq hc
    (Expr.combines_evaluateIn hstores (fun e he => ?_) fun f hf => by cases hf)
  obtain ⟨y, hy, u, hu, hcomputes⟩ := hoptions.computes h hcomputed he
  exact ⟨u, hcomputes, hmeets _ hfields x hx y hy t u ht hu⟩

theorem combines_contains (hkind : n.kind = .contains) : Combines (e.evaluate b) := by
  obtain ⟨v, options, hv, hoptions, rfl⟩ := compiled_contains h hkind he
  exact combines_membership h hcomputed hmeets hv hoptions (by rw [hkind]; decide)

theorem combines_notContains (hkind : n.kind = .notContains) : Combines (e.evaluate b) := by
  obtain ⟨v, options, hv, hoptions, rfl⟩ := compiled_notContains h hkind he
  refine .bind (combines_membership h hcomputed hmeets hv hoptions (by rw [hkind]; decide))
    fun c _ => ?_
  exact .bind (combines_condition c) fun _ _ => .ok _

theorem combines_ifElse (hkind : n.kind = .ifElse) : Combines (e.evaluate b) := by
  obtain ⟨p, l, r, hp, hl, hr, rfl⟩ := compiled_ifElse h hkind he
  rw [hkind] at hmeets
  obtain ⟨_, _, _, _, hp⟩ := hp.computes h hcomputed
  obtain ⟨x, hx, t, ht, hl⟩ := hl.computes h hcomputed
  obtain ⟨y, hy, u, hu, hr⟩ := hr.computes h hcomputed
  refine Expr.combines_choose hp.combines hl hr.combines fun c hc => ?_
  obtain ⟨c', hc', hstores⟩ := hr
  cases hc'.symm.trans hc
  exact ⟨u, hstores, hmeets ("true_expr", "false_null_expr") (by decide) x hx y hy t u ht hu⟩

omit he in
/-- Results and default of cases have types any two of which meet. -/
theorem combines_cases {default : Expr} {conditions results : List Expr}
    (hconditions : ∀ p ∈ conditions, Combines (p.evaluate b))
    (hresults : Operands clock n "results" results)
    (hdefault : Operand clock n "default" default)
    (hpairs : ("results", "results") ∈ n.kind.combined
      ∧ ("results", "default") ∈ n.kind.combined) :
    Combines ((firstCase default (conditions.zip results)).evaluate b) := by
  let types (t : DataType) : Prop :=
    ∃ m, (m ∈ n.held "results" ∨ m ∈ n.held "default") ∧ m.dataType? = some t
  have hsingle : ∀ x ∈ n.held "default", ∀ y ∈ n.held "default", x = y := by
    obtain ⟨m, hm, -⟩ := hdefault
    rw [Node.held_of_child hm]
    intro x hx y hy
    rw [List.mem_singleton.1 hx, List.mem_singleton.1 hy]
  have hall : Expr.AllMeet types := by
    rintro t u ⟨x, hx | hx, ht⟩ ⟨y, hy | hy, hu⟩
    · exact hmeets _ hpairs.1 x hx y hy t u ht hu
    · exact hmeets _ hpairs.2 x hx y hy t u ht hu
    · rw [DataType.meets_comm]
      exact hmeets _ hpairs.2 y hy x hx u t hu ht
    · obtain rfl := hsingle x hx y hy
      cases ht.symm.trans hu
      exact DataType.meets_self t
  obtain ⟨d, hd, t, ht, hcomputes⟩ := hdefault.computes h hcomputed
  refine (Expr.combines_firstCase hall ⟨t, ⟨d, .inr hd, ht⟩, hcomputes⟩ fun x hx => ?_).1
  obtain ⟨hp, hr⟩ := List.of_mem_zip hx
  obtain ⟨m, hm, u, hu, hresult⟩ := hresults.computes h hcomputed hr
  exact ⟨hconditions _ hp, u, ⟨m, .inl hm, hu⟩, hresult⟩

theorem combines_searchedCase (hkind : n.kind = .searchedCase) :
    Combines (e.evaluate b) := by
  obtain ⟨conditions, results, default, hconditions, hresults, hdefault, rfl⟩ :=
    compiled_searchedCase h hkind he
  refine combines_cases h hcomputed hmeets (fun p hp => ?_) hresults hdefault
    (by rw [hkind]; decide)
  obtain ⟨_, _, _, _, hp⟩ := hconditions.computes h hcomputed hp
  exact hp.combines

theorem combines_simpleCase (hkind : n.kind = .simpleCase) : Combines (e.evaluate b) := by
  obtain ⟨base, cases, results, default, hbase, hcases, hresults, hdefault, rfl⟩ :=
    compiled_simpleCase h hkind he
  refine combines_cases h hcomputed hmeets (fun p hp => ?_) hresults hdefault
    (by rw [hkind]; decide)
  obtain ⟨case, hcase, rfl⟩ := List.mem_map.1 hp
  obtain ⟨x, hx, t, ht, hbase⟩ := hbase.computes h hcomputed
  obtain ⟨y, hy, u, hu, hcase⟩ := hcases.computes h hcomputed hcase
  exact Expr.combines_compared hbase hcase
    (hmeets ("base", "cases") (by rw [hkind]; decide) x hx y hy t u ht hu) _

/-- No value of these kinds fails because two of its operands cannot be combined. -/
theorem combines_value (hkind : n.kind ∈ NodeKind.combining) : Combines (e.evaluate b) := by
  simp only [NodeKind.combining, List.mem_cons, List.not_mem_nil, or_false] at hkind
  have hcomparison (op : Comparison)
      (hresolve : rules.resolve n.kind = .ok (.binary, binaryRule))
      (hop : lookup binaryOps n = .ok (.compare op))
          (hfields : ("left", "right") ∈ n.kind.combined) :=
    combines_comparison h he hcomputed hmeets hresolve hop hfields
  rcases hkind with hk | hk | hk | hk | hk | hk | hk | hk | hk | hk | hk | hk
  · exact hcomparison .equal (by rw [hk]; rfl) (by rw [lookup, hk]; rfl) (by rw [hk]; decide)
  · exact hcomparison .notEqual (by rw [hk]; rfl) (by rw [lookup, hk]; rfl)
      (by rw [hk]; decide)
  · exact hcomparison .greater (by rw [hk]; rfl) (by rw [lookup, hk]; rfl)
      (by rw [hk]; decide)
  · exact hcomparison .greaterEqual (by rw [hk]; rfl) (by rw [lookup, hk]; rfl)
      (by rw [hk]; decide)
  · exact hcomparison .less (by rw [hk]; rfl) (by rw [lookup, hk]; rfl) (by rw [hk]; decide)
  · exact hcomparison .lessEqual (by rw [hk]; rfl) (by rw [lookup, hk]; rfl)
      (by rw [hk]; decide)
  · exact combines_betweenValue h he hcomputed hmeets hk
  · exact combines_contains h he hcomputed hmeets hk
  · exact combines_notContains h he hcomputed hmeets hk
  · exact combines_ifElse h he hcomputed hmeets hk
  · exact combines_simpleCase h he hcomputed hmeets hk
  · exact combines_searchedCase h he hcomputed hmeets hk

end

end Engine

/-! ## Combining -/

namespace Column

variable {a b s : DataType} {l r : Column}

/-- Columns of two types with a common supertype are brought to it exactly if
the types are matched. -/
theorem Stores.coerce_iff (hl : l.Stores a) (hr : r.Stores b)
    (h : a.commonSupertype b = some s) :
    (∃ l' r', l.coerce r = .ok (l', r') ∧ l.cast (.ofLogical s) = .ok l'
      ∧ r.cast (.ofLogical s) = .ok r'
      ∧ l'.Stores s ∧ r'.Stores s) ↔ a.unmatched b = false := by
  constructor
  · rintro ⟨l', r', hcoerce, -⟩
    cases hm : a.unmatched b with
    | false => rfl
    | true =>
        rw [hl.coerce_unmatched hr h hm] at hcoerce
        cases hcoerce
  · intro hm
    obtain ⟨l', r', hl', hr', hcoerce, hls, hrs⟩ := hl.coerce hr h hm
    exact ⟨l', r', hcoerce, hl', hr', hls, hrs⟩

end Column

open Column in
/-- Columns whose types have a common supertype are brought to it, and comparisons and
choices of values do not fail for the types of their operands, unless two of these are
timestamps of different units or arrays of different elements. -/
theorem operands_combined {t u s : DataType} {l r : Column}
    (h : t.commonSupertype u = some s) (hl : l.Stores t) (hr : r.Stores u) :
    ((∃ l' r', l.coerce r = .ok (l', r') ∧ l.cast (.ofLogical s) = .ok l'
      ∧ r.cast (.ofLogical s) = .ok r'
      ∧ l'.Stores s ∧ r'.Stores s) ↔ t.unmatched u = false)
      ∧ (t.unmatched u = true →
        l.coerce r = .error (incompatible (.ofLogical t) (.ofLogical u)))
      ∧ ∀ (clock : Engine.Clock) (b : Batch) (n : Node) (e : Expr), n.Built →
        n.kind ∈ NodeKind.combining →
        Engine.Compiled clock n e → (∀ m ∈ n.children, m.Computed clock b) →
        (∀ p ∈ n.kind.combined, ∀ x ∈ n.held p.1, ∀ y ∈ n.held p.2, x.Meets y) →
        ∀ v w, e.evaluate b ≠ .error (incompatible v w) :=
  ⟨hl.coerce_iff hr h, hl.coerce_unmatched hr h,
    fun _ _ _ _ hn hkind he hcomputed hmeets =>
      Engine.combines_value hn he hcomputed hmeets hkind⟩

/-- Whole numbers of two widths side by side, and a comparison of a number with null. -/
theorem operands_combined_widened :
    (∃ l r, Column.coerce ⟨.int32, [.int 2]⟩ ⟨.int64, [.int 3]⟩ = .ok (l, r)
      ∧ l.Stores .int64 ∧ r.Stores .int64)
      ∧ ∃ n e, Node.build .equals [.value (.int64 2), .value .null] [] = .ok n
        ∧ Engine.Compiled ⟨0⟩ n e
        ∧ ∀ l r, e.evaluate ⟨1, []⟩ ≠ .error (Column.incompatible l r) := by
  have hl : Column.Stores ⟨.int32, [.int 2]⟩ .int32 :=
    ⟨rfl, by simp [Column.Typed, Cell.fits]⟩
  have hr : Column.Stores ⟨.int64, [.int 3]⟩ .int64 :=
    ⟨rfl, by simp [Column.Typed, Cell.fits]⟩
  have hsupertype : DataType.int32.commonSupertype .int64 = some .int64 := rfl
  obtain ⟨hiff, -, hvalues⟩ := operands_combined hsupertype hl hr
  constructor
  · obtain ⟨l, r, hcoerce, -, -, hls, hrs⟩ := hiff.2 rfl
    exact ⟨l, r, hcoerce, hls, hrs⟩
  · obtain ⟨n, hn, hkind, hchildren, hheld, e, he⟩ :
        ∃ n, Node.build .equals [.value (.int64 2), .value .null] [] = .ok n
          ∧ n.kind = .equals
          ∧ n.children = [Node.literal (.int64 2), Node.literal .null]
          ∧ (n.held "left" = [Node.literal (.int64 2)]
            ∧ n.held "right" = [Node.literal .null])
          ∧ ∃ e, Engine.Compiled ⟨0⟩ n e :=
      ⟨_, rfl, rfl, rfl, ⟨rfl, rfl⟩, _, rfl⟩
    have hbuilt : n.Built :=
      .of_build hn (by simp [Arg.nodesOfItems, Arg.nodes]) (by simp [Arg.nodesOfFields])
    refine ⟨n, e, hn, he, hvalues ⟨0⟩ _ n e hbuilt (by rw [hkind]; decide) he ?_ ?_⟩
    · -- A literal gives a column of its own type.
      have hcomputed {v : Value} {c : Column} (hc : Literal.column v v.dataType 1 = .ok c)
        (hs : c.Stores v.dataType) :
          (Node.literal v).Computed ⟨0⟩ ⟨1, []⟩ := by
        refine ⟨v.dataType, rfl, fun e he => ?_⟩
        obtain ⟨_, hv, rfl⟩ := Engine.compiled_literal (.literal v) rfl he
        cases hv
        exact ⟨c, hc, hs⟩
      rw [hchildren]
      simp only [List.forall_mem_cons, List.not_mem_nil, false_imp_iff,
        implies_true, and_true]
      exact ⟨hcomputed rfl ⟨rfl, by simp [Column.Typed, Column.constant, Cell.fits]⟩,
        hcomputed rfl ⟨rfl, by simp [Column.Typed, Column.nulls]⟩⟩
    · rw [hkind]
      simp only [NodeKind.combined, List.forall_mem_cons, List.not_mem_nil, false_imp_iff,
        implies_true, and_true]
      rw [hheld.1, hheld.2]
      intro x hx y hy t u ht hu
      cases List.mem_singleton.1 hx
      cases List.mem_singleton.1 hy
      cases ht
      cases hu
      rfl

/-- Two timestamps that are compared, and two arrays that are chosen from. -/
theorem operands_combined_unmatched :
    ∃ table seconds millis holds ints longs equal chosen n m : Node,
      Node.databaseTable "t"
        ⟨[⟨"s", .timestamp .second, true⟩, ⟨"ms", .timestamp .millisecond, true⟩,
          ⟨"p", .boolean, true⟩, ⟨"i", .array .int32, true⟩, ⟨"j", .array .int64, true⟩]⟩
            = .ok table
        ∧ Node.column table "s" = .ok seconds ∧ Node.column table "ms" = .ok millis
        ∧ Node.column table "p" = .ok holds
        ∧ Node.column table "i" = .ok ints ∧ Node.column table "j" = .ok longs
        ∧ DataType.commonSupertype (.timestamp .second) (.timestamp .millisecond)
          = some (.timestamp .millisecond)
        ∧ Node.build .equals [.node seconds, .node millis] [] = .ok equal
        ∧ DataType.commonSupertype (.array .int32) (.array .int64) = some (.array .int64)
        ∧ Node.build .ifElse [.node holds, .node ints, .node longs] [] = .ok chosen
        ∧ Node.selectAs table equal "x" = .ok n ∧ Node.selectAs table chosen "x" = .ok m
        ∧ ∀ catalog : Catalog, catalog = ⟨[("t", ⟨1, [("s", ⟨.timestamp .second, [.int 0]⟩),
              ("ms", ⟨.timestamp .millisecond, [.int 0]⟩), ("p", ⟨.boolean, [.bool true]⟩),
              ("i", ⟨.list .int32, [.list [.int 1]]⟩),
                ("j", ⟨.list .int64, [.list [.int 1]]⟩)]⟩)], {}⟩ →
            Engine.execute {} ⟨0⟩ n catalog
              = .error (Column.incompatible (.timestamp .second) (.timestamp .millisecond))
            ∧ Engine.execute {} ⟨0⟩ m catalog
              = .error (Column.incompatible (.list .int32) (.list .int64)) := by
  refine ⟨_, _, _, _, _, _, _, _, _, _, rfl, rfl, rfl, rfl, rfl, rfl, rfl, rfl, rfl,
    rfl, rfl, rfl, ?_⟩
  rintro _ rfl
  constructor <;> set_option maxRecDepth 2000 in with_unfolding_all decide

end TypedQuery
