import TypedQuery.Proofs.Engine.Operands
import TypedQuery.Proofs.Engine.Preserved
import TypedQuery.Proofs.Expr.Filled
import TypedQuery.Proofs.Membership
import TypedQuery.Proofs.Plan.Rectangular

/-!
# Selections keep the rows that all predicates accept

The predicates of a selection are joined by a conjunction of three truth values,
where a single row stands for every one, and only its result counts null as not
accepted. Row by row this is the same as asking each predicate by itself. So neither
the order of the predicates nor their number matters, and those without reductions
may as well be asked one selection after the other: they have the same answer for a
row whatever other rows there are.
-/

namespace TypedQuery

namespace Batch

/-- Whether the predicate accepts the row; where it is null it does not. -/
def accepts (b : Batch) (e : Expr) (i : Nat) : Bool :=
  (e.evaluatePredicate b).toOption.any fun known => known[i]? = some (some true)

/-- The rows that all the predicates accept, in their order. -/
def accepted (b : Batch) (es : List Expr) : Batch :=
  b.gather (((List.range b.rows).filter fun i => es.all (b.accepts · i)).map some)

end Batch

namespace Expr

variable {b : Batch} {e f : Expr} {c d : Column} {es fs : List Expr}
    {rows : List Nat} {i m : Nat}

/-- The expression can be asked as a predicate. -/
def Decides (b : Batch) (e : Expr) : Prop := ∃ known, e.evaluatePredicate b = .ok known

/-! ## One predicate -/

/-- On a batch without rows the values of the expressions are all of one height. -/
def OneHeight (b : Batch) (es : List Expr) : Prop :=
  0 < b.rows ∨ ∀ e ∈ es, ∀ f ∈ es, ∀ c d, e.evaluate b = .ok c → f.evaluate b = .ok d →
    c.length = d.length

/-- Truth values that can be joined with others: `m` of them, or a single one if
that stands for `m` rows. -/
structure Condition (b : Batch) (m : Nat) (e : Expr) (c : Column) : Prop where
  evaluates : e.evaluate b = .ok c
  type_eq : c.type = .boolean
  level : m = b.rows ∨ m = 1
  height : c.length = m ∨ c.length = 1 ∧ 0 < m

theorem Condition.spans (h : Condition b m e c) : c.Spans b.rows := by
  have := h.level
  have := h.height
  unfold Column.Spans
  omega

theorem Condition.known (h : Condition b m e c) :
    ∃ known, e.evaluatePredicate b = .ok known
      ∧ ∀ i < b.rows, known[i]? = some (c.row i).bool? := by
  obtain ⟨d, hd⟩ := Column.exists_broadcast h.spans
  have htype : d.type = .boolean := (Column.type_broadcast _ _ _ hd).trans h.type_eq
  have hcells : c.asPredicate b.rows = .ok d.cells := bind_eq_ok.2 ⟨d, hd, if_pos htype⟩
  refine ⟨d.cells.map Cell.bool?,
    bind_eq_ok.2 ⟨c, h.evaluates, bind_eq_ok.2 ⟨_, hcells, rfl⟩⟩, fun i hi => ?_⟩
  rw [List.getElem?_map, Column.row_of_length (Batch.length_broadcast hd) hi,
    Column.row_broadcast hd hi]
  rfl

theorem Condition.accepts (h : Condition b m e c) (hi : i < b.rows) :
    b.accepts e i = (c.row i).isTrue := by
  obtain ⟨known, hknown, hrows⟩ := h.known
  rw [Batch.accepts, hknown, Bool.eq_iff_iff, Cell.isTrue_iff]
  simp [Except.toOption, hrows i hi]

theorem evaluatePredicate_eq_ok {known : List (Option Bool)}
    (h : e.evaluatePredicate b = .ok known) :
    ∃ c d, e.evaluate b = .ok c ∧ c.broadcast b.rows = .ok d ∧ d.type = .boolean
      ∧ known = d.cells.map Cell.bool? := by
  obtain ⟨c, hc, h⟩ := bind_eq_ok.1 h
  obtain ⟨cells, hcells, h⟩ := bind_eq_ok.1 h
  obtain ⟨d, hd, hcells⟩ := bind_eq_ok.1 hcells
  cases h
  split at hcells
  · next htype =>
      cases hcells
      exact ⟨c, d, hc, hd, htype, rfl⟩
  · cases hcells

theorem Decides.evaluate (h : Decides b e) :
    ∃ c, e.evaluate b = .ok c ∧ c.type = .boolean ∧ c.Spans b.rows := by
  obtain ⟨known, h⟩ := h
  obtain ⟨c, d, hc, hd, htype, -⟩ := evaluatePredicate_eq_ok h
  exact ⟨c, hc, (Column.type_broadcast _ _ _ hd).symm.trans htype,
    Column.height_of_broadcast hd⟩

/-- Without reductions a predicate has a truth value for each row. -/
theorem Decides.condition (hb : b.Rectangular) (h : Decides b e)
    (he : e.aggregateFree = true) :
    ∃ c, Condition b b.rows e c ∧ c.length = b.rows := by
  obtain ⟨c, hc, htype, hspans⟩ := h.evaluate
  have hnone : ∀ i ∈ ([] : List Nat), i < b.rows := List.forall_mem_nil _
  have hfilled := (evaluate_filled hb hnone e he c hc).height
  have hlength : c.length = b.rows := by
    unfold Column.Spans at hspans
    omega
  exact ⟨c, ⟨hc, htype, .inl rfl, .inl hlength⟩, hlength⟩

theorem OneHeight.of_aggregateFree (hb : b.Rectangular) (hes : ∀ e ∈ es, Decides b e)
    (hfree : ∀ e ∈ es, e.aggregateFree = true) : OneHeight b es := by
  refine .inr fun e he f hf c d hc hd => ?_
  obtain ⟨c', hc', hlength⟩ := (hes e he).condition hb (hfree e he)
  obtain ⟨d', hd', hlength'⟩ := (hes f hf).condition hb (hfree f hf)
  cases hc'.evaluates.symm.trans hc
  cases hd'.evaluates.symm.trans hd
  exact hlength.trans hlength'.symm

theorem exists_level (hes : ∀ e ∈ es, Decides b e) (hlevel : OneHeight b es) :
    ∃ m, ∀ e ∈ es, ∃ c, Condition b m e c := by
  rcases hlevel with hrows | hlevel
  · refine ⟨b.rows, fun e he => ?_⟩
    obtain ⟨c, hc, htype, hspans⟩ := (hes e he).evaluate
    exact ⟨c, hc, htype, .inl rfl, hspans.imp_right fun h => ⟨h, hrows⟩⟩
  · cases es with
    | nil => exact ⟨b.rows, List.forall_mem_nil _⟩
    | cons first rest =>
        obtain ⟨c, hc, -, hspans⟩ := (hes first List.mem_cons_self).evaluate
        refine ⟨c.length, fun e he => ?_⟩
        obtain ⟨d, hd, htype, -⟩ := (hes e he).evaluate
        exact ⟨d, hd, htype, hspans, .inl (hlevel e he first List.mem_cons_self d c hd hc)⟩

theorem filterBy_of_decides (hb : b.Rectangular) (h : Decides b e) :
    b.filterBy e = .ok (b.gather (((List.range b.rows).filter (b.accepts e)).map some)) := by
  obtain ⟨known, hknown⟩ := h
  obtain ⟨c, d, -, hd, -, rfl⟩ := evaluatePredicate_eq_ok hknown
  have hlength : d.cells.length = b.rows := Batch.length_broadcast hd
  rw [Batch.filterBy, hknown]
  refine congrArg Except.ok ((Batch.keep_eq_gather hb (by simp [hlength])).trans ?_)
  rw [positions, List.length_map, List.length_map, hlength]
  refine congrArg (fun rows => b.gather (rows.map some)) (List.filter_congr fun i hi => ?_)
  have hi : i < d.cells.length := hlength ▸ List.mem_range.1 hi
  rw [Batch.accepts, hknown]
  simp [Except.toOption, hi]

/-! ## Several predicates -/

theorem Condition.both (hc : Condition b m e c) (hd : Condition b m f d) :
    ∃ out, Condition b m (e.both f) out
      ∧ ∀ i < b.rows, (out.row i).isTrue = ((c.row i).isTrue && (d.row i).isTrue) := by
  have hheights : c.Spans (max c.length d.length) ∧ d.Spans (max c.length d.length)
      ∧ (max c.length d.length = m ∨ max c.length d.length = 1 ∧ 0 < m) := by
    have := hc.height
    have := hd.height
    unfold Column.Spans
    omega
  obtain ⟨out, hout⟩ :=
    (Column.exists_logic_iff .and hc.type_eq hd.type_eq).2 ⟨hheights.1, hheights.2.1⟩
  have hlength := Column.length_logic hout
  have hcondition : Condition b m (e.both f) out := by
    refine ⟨?_, ?_, hc.level, hlength ▸ hheights.2.2⟩
    · refine bind_eq_ok.2 ⟨c, hc.evaluates, bind_eq_ok.2 ⟨d, hd.evaluates, ?_⟩⟩
      rw [Column.apply_logic hc.type_eq hd.type_eq, hout]
    · exact Column.type_logic _ _ _ out hout
  refine ⟨out, hcondition, fun i hi => ?_⟩
  -- A single row of the result stands for every row, and then so do those of the operands.
  have hspans : ∀ x ∈ [c, d], x.Spans out.length := by
    simpa [hlength] using ⟨hheights.1, hheights.2.1⟩
  obtain ⟨j, hj, hrow, hoperands⟩ := Column.exists_row hcondition.spans hi hspans
  have hknown := Column.bool?_logic hout hj
  rw [hrow, hoperands c (by simp), hoperands d (by simp)] at hknown
  rw [Bool.eq_iff_iff, Bool.and_eq_true, Cell.isTrue_iff, Cell.isTrue_iff,
    Cell.isTrue_iff, hknown, Column.Logic.and_eq_true]

theorem exists_conjunction (hes : ∀ e ∈ es, ∃ c, Condition b m e c)
    (hc : Condition b m e c) :
    ∃ out, Condition b m (es.foldl Expr.both e) out
      ∧ ∀ i < b.rows, (out.row i).isTrue = ((c.row i).isTrue && es.all (b.accepts · i)) := by
  induction es generalizing e c with
  | nil => exact ⟨c, hc, by simp⟩
  | cons f rest ih =>
      obtain ⟨⟨d, hd⟩, hrest⟩ := List.forall_mem_cons.1 hes
      obtain ⟨next, hnext, hrows⟩ := hc.both hd
      obtain ⟨out, hout, hall⟩ := ih hrest hnext
      refine ⟨out, hout, fun i hi => ?_⟩
      rw [hall i hi, hrows i hi, List.all_cons, hd.accepts hi, Bool.and_assoc]

end Expr

namespace Batch

variable {b : Batch} {e : Expr} {es fs : List Expr} {rows : List Nat}
    {catalog : Catalog} {p : Plan}

theorem accepted_nil (hb : b.Rectangular) : b.accepted [] = b := by
  rw [accepted]
  simpa using gather_range hb

theorem accepted_congr (h : ∀ e, e ∈ fs ↔ e ∈ es) : b.accepted fs = b.accepted es := by
  have hall : ∀ i, fs.all (b.accepts · i) = es.all (b.accepts · i) := fun i => by
    rw [Bool.eq_iff_iff, List.all_eq_true, List.all_eq_true]
    exact forall_congr' fun e => by rw [h e]
  simp only [accepted, hall]

theorem execute_filtered (hb : b.Rectangular) (hp : p.execute catalog = .ok b)
    (hes : ∀ e ∈ es, e.Decides b) (hlevel : Expr.OneHeight b es) :
    (Engine.filtered p es).execute catalog = .ok (b.accepted es) := by
  obtain ⟨m, hconditions⟩ := Expr.exists_level hes hlevel
  cases es with
  | nil => rw [accepted_nil hb, ← hp]; rfl
  | cons e rest =>
      obtain ⟨⟨c, hc⟩, hrest⟩ := List.forall_mem_cons.1 hconditions
      obtain ⟨out, hout, hrows⟩ := Expr.exists_conjunction hrest hc
      obtain ⟨known, hknown, -⟩ := hout.known
      show (p.execute catalog >>= fun b => b.filterBy (rest.foldl Expr.both e)) = _
      rw [hp]
      refine (Expr.filterBy_of_decides hb ⟨known, hknown⟩).trans (congrArg Except.ok ?_)
      rw [accepted]
      refine congrArg (fun rows => b.gather (rows.map some))
        (List.filter_congr fun i hi => ?_)
      have hi := List.mem_range.1 hi
      rw [hout.accepts hi, hrows i hi, List.all_cons, hc.accepts hi]

/-! ## One selection after the other -/

/-- A predicate without reductions has the same answer for a row among other rows. -/
theorem decides_gather (hb : b.Rectangular) (hr : ∀ i ∈ rows, i < b.rows)
    (he : e.aggregateFree = true) (h : e.Decides b) :
    e.Decides (b.gather (rows.map some))
      ∧ ∀ j < rows.length, (b.gather (rows.map some)).accepts e j = b.accepts e
        (rows.getD j 0) := by
  obtain ⟨c, hc, hlength⟩ := h.condition hb he
  obtain ⟨c', hc', htaken⟩ := (Expr.evaluate_filled hb hr e he c hc.evaluates).taken hlength
  have hrows : (b.gather (rows.map some)).rows = rows.length := List.length_map _
  have hcondition : Expr.Condition (b.gather (rows.map some)) rows.length e c' :=
    ⟨hc', htaken.type_eq.trans hc.type_eq, .inl hrows.symm, .inl htaken.length_taken⟩
  obtain ⟨known, hknown, -⟩ := hcondition.known
  refine ⟨⟨known, hknown⟩, fun j hj => ?_⟩
  have hmem : rows.getD j 0 < b.rows := by
    rw [List.getD_eq_getElem _ _ hj]
    exact hr _ (List.getElem_mem hj)
  rw [hcondition.accepts (hrows.symm ▸ hj), hc.accepts hmem]
  have hcell := Column.row_of_length htaken.length_taken hj
  have hcell' := Column.row_of_length hlength hmem
  obtain ⟨t, f, rfl, rfl⟩ := htaken
  rw [List.getElem?_map, List.getElem?_eq_getElem hj] at hcell
  rw [List.getElem?_map, List.getElem?_range hmem, List.getD_eq_getElem _ _ hj] at hcell'
  rw [← Option.some.inj hcell, List.getD_eq_getElem _ _ hj, ← Option.some.inj hcell']

theorem accepted_accepted (hb : b.Rectangular)
    (hfs : ∀ e ∈ fs, e.aggregateFree = true ∧ e.Decides b) :
    (b.accepted es).accepted fs = b.accepted (es ++ fs) := by
  let rows := (List.range b.rows).filter fun i => es.all (b.accepts · i)
  have hr : ∀ i ∈ rows, i < b.rows := fun i hi => List.mem_range.1 (List.mem_filter.1 hi).1
  have hagain : ∀ j < rows.length,
      fs.all ((b.accepted es).accepts · j) = fs.all (b.accepts · (rows.getD j 0)) :=
        fun j hj => by
    rw [Bool.eq_iff_iff, List.all_eq_true, List.all_eq_true]
    exact forall₂_congr fun e he =>
      by rw [accepted, (decides_gather hb hr (hfs e he).1 (hfs e he).2).2 j hj]
  have hplaces : ((List.range rows.length).filter fun j =>
    fs.all ((b.accepted es).accepts · j)).map (rows.getD · 0)
      = rows.filter fun i => fs.all (b.accepts · i) := by
    conv_rhs => rw [← map_getD_range rows 0, List.filter_map]
    rw [List.filter_congr fun j hj => hagain j (List.mem_range.1 hj)]
    rfl
  have hrows : (b.accepted es).rows = rows.length := List.length_map _
  rw [accepted, hrows, accepted,
    gather_gather b rows fun j hj => List.mem_range.1 (List.mem_filter.1 hj).1, ← accepted,
    hplaces, List.filter_filter, accepted]
  simp only [List.all_append, Bool.and_comm]

end Batch

namespace Engine

variable {config : Config} {clock : Clock} {catalog : Catalog} {source inner n : Node}
    {es fs : List Expr} {b : Batch}

/-! ## Nodes -/

/-- A selection from a table that has predicates, but neither items nor sort keys. -/
structure Narrows (clock : Clock) (source : Node) (es : List Expr) (n : Node) : Prop where
  built : n.Built
  kind : n.kind = .selection
  table : n.child "table" = .ok source
  predicates : Operands clock n "predicates" es
  sortKeys : n.childList "sort_keys" = .ok []
  selections : n.childList "selections" = .ok []

/-- One such selection on top of the other, with the predicates of all of them. -/
inductive Narrowed (clock : Clock) (source : Node) : List Expr → Node → Prop
  | once {es : List Expr} {n : Node} : Narrows clock source es n → Narrowed clock source es n
  | again {es fs : List Expr} {inner n : Node} : Narrowed clock source es inner →
      Narrows clock inner fs n →
      Narrowed clock source (es ++ fs) n

theorem Narrows.planOf {p : Plan} (h : Narrows clock source es n)
    (hp : planOf clock source = .ok p) :
    Engine.planOf clock n = .ok (filtered p es) := by
  have hresolve : rules.resolve n.kind = .ok (.selection, selectionRule) :=
    resolve_of_kind h.kind rfl
  have hrule : (selectionRule (lowered clock) n).run ⟨clock, none⟩
      = (.ok (.plan (filtered p es)), ⟨clock, none⟩) := by
    rw [selectionRule, Emission.run_bind_of_ok (run_plan h.table hp _),
      Emission.run_bind_of_ok (run_exprs h.predicates _), h.sortKeys, h.selections]
    rfl
  rw [planOf_eq_result h.built clock hresolve, Emission.result, hrule]
  rfl

theorem Narrows.execute (h : Narrows clock source es n) (hb : b.Rectangular)
    (hsource : execute config clock source catalog = .ok b) (hes : ∀ e ∈ es, e.Decides b)
    (hlevel : Expr.OneHeight b es) :
    Engine.execute config clock n catalog = .ok (b.accepted es) := by
  obtain ⟨p, hp, hpb⟩ := (execute_eq_ok (h.built.of_child h.table)).1 hsource
  exact (execute_eq_ok h.built).2 ⟨_, h.planOf hp, Batch.execute_filtered hb hpb hes hlevel⟩

theorem Narrowed.source_isTable (h : Narrowed clock source es n) :
    source.Built ∧ source.kind.isTable = true := by
  induction h with
  | once h =>
      exact ⟨h.built.of_child h.table,
        h.built.isTable_of_child (by rw [h.kind]; rfl) h.table⟩
  | again _ _ ih => exact ih

theorem Narrowed.execute (h : Narrowed clock source es n) (hb : b.Rectangular)
    (hsource : execute config clock source catalog = .ok b) (hes : ∀ e ∈ es, e.Decides b)
    (hfree : ∀ e ∈ es, e.aggregateFree = true) :
    Engine.execute config clock n catalog = .ok (b.accepted es) := by
  induction h with
  | once h => exact h.execute hb hsource hes (.of_aggregateFree hb hes hfree)
  | @again es fs inner n _ h ih =>
      obtain ⟨hes, hfs⟩ := List.forall_mem_append.1 hes
      obtain ⟨hesFree, hfsFree⟩ := List.forall_mem_append.1 hfree
      have hrectangular : (b.accepted es).Rectangular := Batch.rectangular_gather b _
      have hdecides : ∀ e ∈ fs, e.Decides (b.accepted es) := fun e he =>
        (Batch.decides_gather hb (fun i hi => List.mem_range.1 (List.mem_filter.1 hi).1)
          (hfsFree e he) (hfs e he)).1
      rw [← Batch.accepted_accepted hb fun e he => ⟨hfsFree e he, hfs e he⟩]
      exact h.execute hrectangular (ih hes hesFree) hdecides
        (.of_aggregateFree hrectangular hdecides hfsFree)

end Engine

open Engine in
/-- A selection without items and sort keys keeps exactly the rows that all its predicates
accept, in their order and with all columns, if every predicate can be asked by itself and
on an empty table they are all of one height. Predicates without reductions may as well be
spread over several selections, one on top of the other. The same predicates in another
order, or some of them more than once, keep the same. -/
theorem selection_keeps_accepted {config : Config} {clock : Clock} {catalog : Catalog}
    {source n : Node} {es : List Expr} {b : Batch} (hcatalog : catalog.Rectangular)
    (hb : execute config clock source catalog = .ok b) (hes : ∀ e ∈ es, e.Decides b)
    (h : Narrowed clock source es n)
    (hasked : (∀ e ∈ es, e.aggregateFree = true)
      ∨ Narrows clock source es n ∧ Expr.OneHeight b es) :
    execute config clock n catalog = .ok (b.accepted es)
      ∧ (es = [] → execute config clock n catalog = .ok b)
      ∧ ∀ es' n', (∀ e, e ∈ es' ↔ e ∈ es) → Narrowed clock source es' n' →
          ((∀ e ∈ es, e.aggregateFree = true) ∨ Narrows clock source es' n') →
          execute config clock n' catalog = execute config clock n catalog := by
  obtain ⟨hbuilt, htable⟩ := h.source_isTable
  have hrectangular : b.Rectangular :=
    preserved_execute Batch.preserved_rectangular hbuilt htable hcatalog b hb
  have hkept : execute config clock n catalog = .ok (b.accepted es) := by
    rcases hasked with hfree | ⟨h, hlevel⟩
    · exact h.execute hrectangular hb hes hfree
    · exact h.execute hrectangular hb hes hlevel
  refine ⟨hkept, ?_, fun es' n' hmem h' hasked' => ?_⟩
  · rintro rfl
    rw [hkept, Batch.accepted_nil hrectangular]
  · have hes' : ∀ e ∈ es', e.Decides b := fun e he => hes e ((hmem e).1 he)
    rw [hkept, ← Batch.accepted_congr hmem]
    by_cases hfree : ∀ e ∈ es, e.aggregateFree = true
    · exact h'.execute hrectangular hb hes' fun e he => hfree e ((hmem e).1 he)
    · have hlevel := (hasked.resolve_left hfree).2
      refine (hasked'.resolve_left hfree).execute hrectangular hb hes'
        (hlevel.imp_right fun hlevel e he f hf => ?_)
      exact hlevel e ((hmem e).1 he) f ((hmem f).1 hf)

open Engine in
/-- The rows with `a` below 10 and above 3, asked one after the other, and together the
other way round and with one of the predicates twice. -/
theorem selection_keeps_accepted_of_two :
    ∃ (source a below above inner n m : Node) (catalog : Catalog) (b : Batch) (p q : Expr),
      Node.databaseTable "t" ⟨[⟨"a", .int64, true⟩]⟩ = .ok source
        ∧ Node.column source "a" = .ok a
        ∧ Node.build .less [.node a, .node (.literal (.int64 10))] [] = .ok below
        ∧ Compiled ⟨0⟩ below p
        ∧ Node.build .greater [.node a, .node (.literal (.int64 3))] [] = .ok above
        ∧ Compiled ⟨0⟩ above q
        ∧ Node.build .selection [.node source] [("predicates", .seq [.node below])]
          = .ok inner
        ∧ Node.build .selection [.node inner] [("predicates", .seq [.node above])] = .ok n
        ∧ Node.build .selection [.node source]
          [("predicates", .seq [.node above, .node below, .node above])] = .ok m
        ∧ catalog = ⟨[("t", b)], {}⟩
        ∧ b = ⟨4, [("a", ⟨.int64, [.int 20, .int 5, .null, .int 2]⟩)]⟩
        ∧ execute {} ⟨0⟩ n catalog = .ok (b.accepted [p, q])
        ∧ b.accepted [p, q] = ⟨1, [("a", ⟨.int64, [.int 5]⟩)]⟩
        ∧ execute {} ⟨0⟩ m catalog = execute {} ⟨0⟩ n catalog := by
  obtain ⟨source, a, below, above, inner, n, m, p, q,
    ⟨hsource, ha, hbelow, hp, habove, hq, hinner, hn, hm⟩, ⟨peq, qeq⟩,
      ninner, nn, nm⟩ :
      ∃ (source a below above inner n m : Node) (p q : Expr),
        (Node.databaseTable "t" ⟨[⟨"a", .int64, true⟩]⟩ = .ok source
          ∧ Node.column source "a" = .ok a
          ∧ Node.build .less [.node a, .node (.literal (.int64 10))] [] = .ok below
          ∧ Compiled ⟨0⟩ below p
          ∧ Node.build .greater [.node a, .node (.literal (.int64 3))] [] = .ok above
          ∧ Compiled ⟨0⟩ above q
          ∧ Node.build .selection [.node source] [("predicates", .seq [.node below])]
            = .ok inner
          ∧ Node.build .selection [.node inner] [("predicates", .seq [.node above])] = .ok n
          ∧ Node.build .selection [.node source]
            [("predicates", .seq [.node above, .node below, .node above])] = .ok m)
        ∧ (p = .binary (.column "a") (.compare .less) (.literal (.int64 10) .int64)
          ∧ q = .binary (.column "a") (.compare .greater) (.literal (.int64 3) .int64))
        ∧ (inner.Built → Narrows ⟨0⟩ source [p] inner) ∧ (n.Built → Narrows ⟨0⟩ inner [q] n)
        ∧ (m.Built → Narrows ⟨0⟩ source [q, p, q] m) :=
    ⟨_, _, _, _, _, _, _, _, _, ⟨rfl, rfl, rfl, rfl, rfl, rfl, rfl, rfl, rfl⟩, ⟨rfl, rfl⟩,
      fun h => ⟨h, rfl, rfl, ⟨_, rfl, .cons rfl .nil⟩, rfl, rfl⟩,
      fun h => ⟨h, rfl, rfl, ⟨_, rfl, .cons rfl .nil⟩, rfl, rfl⟩,
      fun h => ⟨h, rfl, rfl, ⟨_, rfl, .cons rfl (.cons rfl (.cons rfl .nil))⟩, rfl, rfl⟩⟩
  have bsource := Node.built_databaseTable hsource
  have ba := Node.built_column bsource ha
  have bbelow := Node.built_of_two ba (.literal _) hbelow
  have babove := Node.built_of_two ba (.literal _) habove
  have hfirst : ∀ k ∈ [below], k.Built := by simpa using bbelow
  have hsecond : ∀ k ∈ [above], k.Built := by simpa using babove
  have hall : ∀ k ∈ [above, below, above], k.Built := by simp [babove, bbelow]
  have binner : inner.Built := Node.built_of_table bsource hfirst hinner
  have bn : n.Built := Node.built_of_table binner hsecond hn
  have bm : m.Built := Node.built_of_table bsource hall hm
  obtain ⟨b, hb⟩ :
    ∃ b : Batch, b = ⟨4, [("a", ⟨.int64, [.int 20, .int 5, .null, .int 2]⟩)]⟩ := ⟨_, rfl⟩
  have hrectangular : Catalog.Rectangular ⟨[("t", b)], {}⟩ := by
    simp [Catalog.Rectangular, hb, Batch.Rectangular, Column.length]
  have htable : execute {} ⟨0⟩ source ⟨[("t", b)], {}⟩ = .ok b := by
    cases hsource
    subst hb
    rfl
  have hes : ∀ e ∈ [p, q], e.Decides b := by
    subst hb peq qeq
    simp only [List.forall_mem_cons, List.not_mem_nil, false_imp_iff, implies_true, and_true]
    exact ⟨⟨_, rfl⟩, ⟨_, rfl⟩⟩
  have hfree : ∀ e ∈ [p, q], e.aggregateFree = true := by simp [peq, qeq, Expr.aggregateFree]
  obtain ⟨hkept, -, hsame⟩ := selection_keeps_accepted hrectangular htable hes
    (.again (.once (ninner binner)) (nn bn)) (.inl hfree)
  have hagain := hsame [q, p, q] m (by simp [or_comm]) (.once (nm bm)) (.inl hfree)
  refine ⟨source, a, below, above, inner, n, m, _, b, p, q, hsource, ha, hbelow, hp, habove,
    hq, hinner, hn, hm, rfl, hb, hkept, ?_, hagain⟩
  subst hb peq qeq
  rfl

/-- A reduction is taken over the rows that are asked. Two selections, one on top of the
other, find the greatest `a` below 10, but no row below 10 has the greatest `a` of all.
Without rows a test of the greatest has a row still, and cannot be joined with one that has
none. A null of no type is not a truth value. -/
theorem selection_of_reduced :
    ∃ source a most below greatest unknown inner n m mixed refused : Node,
      Node.databaseTable "t" ⟨[⟨"a", .int64, true⟩]⟩ = .ok source
        ∧ Node.column source "a" = .ok a
        ∧ Node.build .max [.node a] [] = .ok most
        ∧ Node.build .less [.node a, .node (.literal (.int64 10))] [] = .ok below
        ∧ Node.build .equals [.node a, .node most] [] = .ok greatest
        ∧ Node.build .isNull [.node most] [] = .ok unknown
        ∧ Node.build .selection [.node source] [("predicates", .seq [.node below])]
          = .ok inner
        ∧ Node.build .selection [.node inner] [("predicates", .seq [.node greatest])] = .ok n
        ∧ Node.build .selection [.node source]
          [("predicates", .seq [.node below, .node greatest])] = .ok m
        ∧ Node.build .selection [.node source]
          [("predicates", .seq [.node below, .node unknown])] = .ok mixed
        ∧ Node.build .selection [.node source]
          [("predicates", .seq [.node (.literal .null)])] = .ok refused
        ∧ ∀ catalog rowless : Catalog,
          catalog = ⟨[("t", ⟨2, [("a", ⟨.int64, [.int 5, .int 20]⟩)]⟩)], {}⟩ →
          rowless = ⟨[("t", ⟨0, [("a", ⟨.int64, []⟩)]⟩)], {}⟩ →
          Engine.execute {} ⟨0⟩ n catalog = .ok ⟨1, [("a", ⟨.int64, [.int 5]⟩)]⟩
            ∧ Engine.execute {} ⟨0⟩ m catalog = .ok ⟨0, [("a", ⟨.int64, []⟩)]⟩
            ∧ Engine.execute {} ⟨0⟩ inner rowless = .ok ⟨0, [("a", ⟨.int64, []⟩)]⟩
            ∧ Engine.execute {} ⟨0⟩ mixed rowless
              = .error (.execution "cannot combine columns of 0 and 1 rows")
            ∧ Engine.execute {} ⟨0⟩ refused catalog
              = .error (.type "predicate must evaluate to boolean, got Null") := by
  refine ⟨_, _, _, _, _, _, _, _, _, _, _, rfl, rfl, rfl, rfl, rfl, rfl, rfl, rfl,
    rfl, rfl, rfl, ?_⟩
  rintro _ _ rfl rfl
  refine ⟨?_, ?_, ?_, ?_, ?_⟩ <;> with_unfolding_all decide

end TypedQuery
