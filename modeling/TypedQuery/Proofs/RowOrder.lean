import TypedQuery.Proofs.Columnar.Order
import TypedQuery.Proofs.Columnar.TypedWithin
import TypedQuery.Proofs.Expr.Picked
import TypedQuery.Proofs.Plan.Aggregates
import TypedQuery.Proofs.Plan.Groups

/-!
# Aggregation and the order of rows

Some reductions do not see the order of rows. Counts see how many cells there are and
which, sums of whole numbers are the same in any order even where they wrap around, and
the least and the greatest cell are found from wherever one begins, since cells that are
level are the same data.

Where the rows of a batch stand in another order, groups appear in another order and have
their rows in another order. The rows of a group are the same ones nevertheless, and a
metric that only sees which rows there are gives the same. So the rows of the aggregation
are the same, too, in the order in which the groups have come to appear.
-/

namespace TypedQuery.Reduction

open Column

variable {t : Physical} {greatest : Bool} {a b d : Cell} {as bs : List Cell} {x y : Column}

/-! ## The least and the greatest cell -/

/-- The order in which a cell is looked for. -/
def rank (greatest : Bool) (a b : Cell) : Ordering :=
  if greatest then Cell.order true b a else Cell.order false a b

theorem before_iff : before greatest a b = true ↔ rank greatest a b = .lt := by
  cases greatest with
  | false => simp [before, rank]
  | true => simp [before, rank, Cell.order_swap true a b]

theorem rank_swap (greatest : Bool) (a b : Cell) :
    rank greatest b a = (rank greatest a b).swap := by
  cases greatest with
  | false => exact Cell.order_swap false a b
  | true => exact Cell.order_swap true b a

theorem rank_trans (ht : t.isFlat = true) (ha : a.fitsWithin t = true)
    (hb : b.fitsWithin t = true) (hd : d.fitsWithin t = true)
    (hab : (rank greatest a b).isLE = true) (hbd : (rank greatest b d).isLE = true) :
    (rank greatest a d).isLE = true := by
  cases greatest with
  | false => exact Cell.order_trans ht ha hb hd hab hbd
  | true => exact Cell.order_trans ht hd hb ha hbd hab

theorem rank_eq (ht : t.isFlat = true) (ha : a.fitsWithin t = true)
    (hb : b.fitsWithin t = true) :
    rank greatest a b = .eq ↔ a.bare = b.bare := by
  cases greatest with
  | false => exact Cell.order_eq ht ha hb
  | true => exact (Cell.order_eq ht hb ha).trans eq_comm

theorem rank_self (greatest : Bool) (a : Cell) : (rank greatest a a).isLE = true := by
  have h := rank_swap greatest a a
  cases hrank : rank greatest a a with
  | gt => rw [hrank] at h; cases h
  | _ => rfl

/-- What comes out is in order before everything that was looked at. -/
theorem rank_leastCell (ht : t.isFlat = true) (has : ∀ a ∈ as, a.fitsWithin t = true)
    (h : leastCell (before greatest) as = some d) :
    ∀ a ∈ as, (rank greatest d a).isLE = true := by
  induction as generalizing d with
  | nil => cases h
  | cons first rest ih =>
      obtain ⟨hfirst, hrest⟩ := List.forall_mem_cons.1 has
      rw [leastCell] at h
      cases hleast : leastCell (before greatest) rest with
      | none =>
          rw [hleast] at h
          cases h
          rw [leastCell_eq_none.1 hleast]
          exact List.forall_mem_singleton.2 (rank_self greatest _)
      | some least =>
          have hbelow := ih hrest hleast
          have hmem := mem_of_leastCell hleast
          rw [hleast] at h
          have h := Option.some.inj h
          split at h
          · next hbefore =>
              subst h
              have hbefore := before_iff.1 hbefore
              exact List.forall_mem_cons.2 ⟨by rw [hbefore]; rfl, hbelow⟩
          · next hbefore =>
              subst h
              have hle : (rank greatest first least).isLE = true := by
                rw [rank_swap]
                cases hrank : rank greatest least first with
                | lt => exact absurd (before_iff.2 hrank) hbefore
                | _ => rfl
              exact List.forall_mem_cons.2 ⟨rank_self greatest first, fun a ha =>
                rank_trans ht hfirst (hrest least hmem) (hrest a ha) hle (hbelow a ha)⟩

/-- In whatever order one looks, the same data comes out. -/
theorem leastCell_perm (ht : t.isFlat = true) (has : ∀ a ∈ as, a.fitsWithin t = true)
    (h : as.Perm bs) :
    (leastCell (before greatest) as).map Cell.bare
      = (leastCell (before greatest) bs).map Cell.bare := by
  have hbs : ∀ b ∈ bs, b.fitsWithin t = true := fun b hb => has b (h.mem_iff.2 hb)
  cases ha : leastCell (before greatest) as with
  | none =>
      obtain rfl := leastCell_eq_none.1 ha
      rw [leastCell_eq_none.2 h.nil_eq.symm]
  | some a =>
      cases hb : leastCell (before greatest) bs with
      | none =>
          obtain rfl := leastCell_eq_none.1 hb
          obtain rfl := h.eq_nil
          cases ha
      | some b =>
          have hmem := mem_of_leastCell ha
          have hmem' := mem_of_leastCell hb
          have hle := rank_leastCell ht has ha b (h.mem_iff.2 hmem')
          have hge := rank_leastCell ht hbs hb a (h.mem_iff.1 hmem)
          rw [Option.map_some, Option.map_some, Option.some.injEq,
            ← rank_eq ht (has a hmem) (hbs b hmem')]
          rw [rank_swap] at hge
          cases hrank : rank greatest a b with
          | eq => rfl
          | lt => rw [hrank] at hge; cases hge
          | gt => rw [hrank] at hle; cases hle

theorem isFlat_of_isOrdered (h : t.isOrdered = true) : t.isFlat = true := by
  cases t with
  | list s =>
      simp only [Physical.isOrdered, Bool.and_eq_true] at h
      exact h.1
  | _ => rfl

theorem extreme_perm (has : ∀ a ∈ as, a.fitsWithin t = true) (h : as.Perm bs) :
    Follows SameData (extreme greatest ⟨t, as⟩) (extreme greatest ⟨t, bs⟩) := by
  intro x hx
  have hsame := extreme_eq_ok hx
  unfold extreme at hx
  split at hx
  · next hempty =>
      cases hx
      obtain rfl := List.isEmpty_iff.1 hempty
      obtain rfl := h.nil_eq
      exact ⟨_, if_pos rfl, .refl _⟩
  · next hempty =>
      split at hx
      · cases hx
      · next hordered =>
          have hordered : t.isOrdered = true := by simpa using hordered
          have hempty' : ¬ bs.isEmpty = true :=
            fun hnil => hempty <| List.isEmpty_iff.2 <| by
            obtain rfl := List.isEmpty_iff.1 hnil
            exact h.eq_nil
          obtain ⟨y, hy⟩ : ∃ y, extreme greatest ⟨t, bs⟩ = .ok y := by
            unfold extreme
            rw [if_neg hempty', if_neg (by simpa using hordered)]
            exact ⟨_, rfl⟩
          have hsame' := extreme_eq_ok hy
          refine ⟨y, hy, hsame.1.trans hsame'.1.symm,
            hsame.2.trans (Eq.trans ?_ hsame'.2.symm)⟩
          have hpresent : (present ⟨t, as⟩).Perm (present ⟨t, bs⟩) := h.filter _
          have hleast := @leastCell_perm t greatest (present ⟨t, as⟩) (present ⟨t, bs⟩)
            (isFlat_of_isOrdered hordered)
            (fun a ha => has a (List.mem_filter.1 ha).1) hpresent
          show [Cell.bare _] = [Cell.bare _]
          rw [Cell.bare_getD, Cell.bare_getD, hleast]

/-! ## Sums -/

theorem sumInts_perm {ms ns : List Int} (h : ms.Perm ns) : sumInts ms = sumInts ns := by
  have hsum : ms.foldl (· + ·) 0 = ns.foldl (· + ·) 0 :=
    h.foldl_eq' (fun a _ b _ c => by omega) 0
  rw [sumInts, sumInts, h.isEmpty_eq, hsum]

theorem intValues_eq (c : Column) :
    intValues c = if c.type = .int64 ∨ c.type.casts .int64 = true then
        .ok (c.present.filterMap fun cell =>
          (Cast.cell c.type .int64 cell).toOption.bind Cell.int?)
      else .error (.compute .cast) := by
  have hcast := cast_number (.inl rfl) c
  unfold intValues toInts
  split
  · next hcasts =>
      rw [if_pos hcasts] at hcast
      obtain ⟨d, hd, hcells⟩ := hcast
      rw [hd]
      exact congrArg Except.ok (numbers_of_forall₂ (.inl rfl) (fun _ => rfl) hcells)
  · next hcasts =>
      rw [if_neg hcasts] at hcast
      rw [hcast]
      rfl

/-! ## All of them -/

/-- The reductions of a column that only see which cells there are. -/
def ignoresOrder (f : Reduction) (t : Physical) : Bool :=
  match f with
  | count | countDistinct | min | max => true
  | sum => decide (t ≠ .float64)
  | _ => false

theorem apply_perm {f : Reduction} (hf : f.ignoresOrder t = true)
    (has : ∀ a ∈ as, a.fitsWithin t = true) (h : as.Perm bs) :
    Follows SameData (f.apply ⟨t, as⟩) (f.apply ⟨t, bs⟩) := by
  have hfilled : (filledCells ⟨t, as⟩).Perm (filledCells ⟨t, bs⟩) := by
    rw [filledCells_eq, filledCells_eq]
    exact h.filter _
  have hsame {x y : Column} (heq : x = y) :
    Follows SameData (.ok x : Except Error Column) (.ok y) := heq ▸ .ok (.refl _)
  cases f with
  | count => exact hsame (by rw [hfilled.length_eq])
  | countDistinct =>
      exact hsame (by
        rw [(eraseDups_perm fun a => (hfilled.map Cell.bare).mem_iff).length_eq])
  | min => exact extreme_perm has h
  | max => exact extreme_perm has h
  | sum =>
      have htype : t ≠ .float64 := of_decide_eq_true hf
      have hpresent : (present ⟨t, as⟩).Perm (present ⟨t, bs⟩) := h.filter _
      simp only [apply, if_neg htype, intValues_eq]
      split
      · exact hsame (by rw [sumInts_perm (hpresent.filterMap _)])
      · exact .error _ _
  | _ => cases hf

end TypedQuery.Reduction

namespace TypedQuery

open Column

namespace Expr

variable {b : Batch} {e : Expr} {filter : Option Expr} {order : List Nat}

/-! ## Metrics -/

/-- Counts, extremes and sums of whole numbers, of expressions without
reductions, with or without a filter and a name. What is summed may not give
doubles on any choice of the rows. -/
def IgnoresOrder (b : Batch) : Expr → Prop
  | named e _ => IgnoresOrder b e
  | reduce f e filter =>
    e.aggregateFree = true ∧ (∀ p ∈ filter, p.aggregateFree = true)
      ∧ (f = .count ∨ f = .countDistinct ∨ f = .min ∨ f = .max
        ∨ f = .sum ∧ ∀ rows : List Nat, (∀ i ∈ rows, i < b.rows) →
            Yields (·.type ≠ .float64) (e.evaluate (b.gather (rows.map some))))
  | countRows filter => ∀ p ∈ filter, p.aggregateFree = true
  | _ => False

/-- On rows of the batch a metric ignores the order as well. -/
theorem IgnoresOrder.gather :
    ∀ {m : Expr}, m.IgnoresOrder b → ∀ {members : List Nat}, (∀ i ∈ members, i < b.rows) →
    m.IgnoresOrder (b.gather (members.map some))
  | named e _, h, _, hmembers => IgnoresOrder.gather (m := e) h hmembers
  | countRows _, h, _, _ => h
  | reduce f e filter, ⟨he, hfilter, hf⟩, members, hmembers => by
      refine ⟨he, hfilter,
        hf.imp_right (.imp_right (.imp_right (.imp_right fun ⟨hsum, htype⟩ =>
        ⟨hsum, fun rows hrows => ?_⟩)))⟩
      have hrows : ∀ i ∈ rows, i < members.length :=
        fun i hi => by simpa [Batch.gather] using hrows i hi
      rw [Batch.gather_gather b members hrows]
      refine htype _ fun i hi => ?_
      obtain ⟨place, hplace, rfl⟩ := List.mem_map.1 hi
      rw [List.getD_eq_getElem _ _ (hrows place hplace)]
      exact hmembers _ (List.getElem_mem _)

theorem choice_of_perm (h : order.Perm (List.range b.rows)) : Choice b order := by
  refine ⟨fun i hi => List.mem_range.1 (h.mem_iff.1 hi), fun hfew => ?_⟩
  obtain hrows | hrows : b.rows = 0 ∨ b.rows = 1 := by omega
  · rw [hrows] at h ⊢
    exact h.eq_nil
  · rw [hrows] at h ⊢
    exact h.eq_singleton

theorem type_operand {c : Column} (h : operand b e filter = .ok c) :
    ∃ all, e.evaluate b = .ok all ∧ c.type = all.type := by
  cases filter with
  | none => exact ⟨c, h, rfl⟩
  | some filter =>
      obtain ⟨all, hall, h⟩ := bind_eq_ok.1 h
      obtain ⟨_, -, h⟩ := bind_eq_ok.1 h
      obtain ⟨mask, -, h⟩ := bind_eq_ok.1 h
      rw [Column.filter] at h
      split at h
      · cases h
      · cases h
        exact ⟨all, hall, rfl⟩

theorem within_operand (hb : b.TypedWithin) (e : Expr) (filter : Option Expr) :
    Yields TypedWithin (operand b e filter) := by
  cases filter with
  | none => exact within_evaluate hb e
  | some filter =>
      refine .bind (within_evaluate hb e) fun c hc => .bind_any fun _ _ =>
        .bind_any fun mask _ => ?_
      unfold Column.filter
      split
      · exact .error _
      · exact .ok (hc.keep _)

/-- A metric gives the same data for the rows in another order. -/
theorem evaluate_perm (hb : b.Rectangular) (htyped : b.TypedWithin)
    (horder : order.Perm (List.range b.rows)) :
    ∀ {m : Expr}, m.IgnoresOrder b →
      Follows SameData (m.evaluate b) (m.evaluate (b.gather (order.map some)))
  | named e _, h => evaluate_perm (m := e) hb htyped horder h
  | countRows filter, h => by
      intro c hc
      obtain ⟨accepts, hchoice⟩ := countRows_choice hb h hc
      have hall := hchoice _ (.all b)
      rw [Batch.gather_range hb, hc] at hall
      refine ⟨_, hchoice _ (choice_of_perm horder), ?_⟩
      rw [Except.ok.inj hall, horder.countP_eq]
      exact .refl _
  | reduce f e filter, ⟨he, hfilter, hf⟩ => by
      intro x hx
      rw [evaluate_reduce] at hx ⊢
      obtain ⟨c, hc, hx⟩ := bind_eq_ok.1 hx
      obtain ⟨accepts, cell, hchoice⟩ := operand_choice hb he hfilter hc
      have hall := hchoice _ (.all b)
      rw [Batch.gather_range hb, hc] at hall
      have hcells := within_operand htyped e filter c hc
      have hignores : f.ignoresOrder c.type = true := by
        rcases hf with rfl | rfl | rfl | rfl | ⟨rfl, hsum⟩
        · rfl
        · rfl
        · rfl
        · rfl
        · obtain ⟨all, hall, htype⟩ := type_operand hc
          have hne := hsum (List.range b.rows) (fun _ => List.mem_range.1)
          rw [Batch.gather_range hb] at hne
          exact decide_eq_true (htype ▸ hne all hall)
      have hperm := (horder.symm.filter accepts).map cell
      rw [Except.ok.inj hall] at hcells hx
      obtain ⟨y, hy, hsame⟩ := Reduction.apply_perm hignores hcells hperm x hx
      exact ⟨y, bind_eq_ok.2 ⟨_, hchoice _ (choice_of_perm horder), hy⟩, hsame⟩

end Expr

namespace Batch

variable {b out : Batch} {keys metrics : List Expr} {m : Expr}
    {order : List Nat} {c : Column}

/-! ## Groups -/

theorem reduceGroup_perm (hb : b.Rectangular) (htyped : b.TypedWithin)
    (horder : order.Perm (List.range b.rows)) (hm : m.IgnoresOrder b) :
    Follows SameData (b.reduceGroup m) ((b.gather (order.map some)).reduceGroup m) := by
  intro c hc
  obtain ⟨d, hd, rfl⟩ := reduceGroup_eq_ok.1 hc
  obtain ⟨d', hd', htype, hcells⟩ := Expr.evaluate_perm hb htyped horder hm d hd
  refine ⟨_, reduceGroup_eq_ok.2 ⟨d', hd', rfl⟩, htype, ?_⟩
  have hhead := congrArg List.head? hcells
  rw [List.head?_map, List.head?_map] at hhead
  show [Cell.bare _] = [Cell.bare _]
  rw [Cell.bare_getD, Cell.bare_getD, hhead]

/-- What a metric gives for the group of a key does not depend on the order of the rows. -/
theorem reduced_perm (htyped : b.TypedWithin) {rows : List (List Cell)}
    (hrows : rows.length = b.rows) (horder : order.Perm (List.range rows.length))
    (hm : m.IgnoresOrder b) (key : List Cell) :
    Follows SameData ((b.gather ((placesOf rows key).map some)).reduceGroup m)
      (((b.gather (order.map some)).gather
        ((placesOf (order.map fun i => rows.getD i []) key).map some)).reduceGroup m) := by
  obtain ⟨places, hplaces, hgroup⟩ := group_perm b horder key
  have hmembers : ∀ i ∈ placesOf rows key, i < b.rows := fun i hi =>
    hrows ▸ (List.getElem?_eq_some_iff.1 (mem_placesOf.1 hi)).1
  rw [hgroup]
  refine reduceGroup_perm (rectangular_gather b _) (htyped.gather _) ?_ (hm.gather hmembers)
  rwa [gather, List.length_map]

theorem bare_metricCell_perm (htyped : b.TypedWithin) {rows : List (List Cell)}
    (hrows : rows.length = b.rows) (horder : order.Perm (List.range rows.length))
    (hm : m.IgnoresOrder b) {key : List Cell} {part : Column}
    (hpart : (b.gather ((placesOf rows key).map some)).reduceGroup m = .ok part) :
    (((b.gather (order.map some)).gather
        ((placesOf (order.map fun i => rows.getD i []) key).map some)).metricCell m).bare
      = ((b.gather ((placesOf rows key).map some)).metricCell m).bare := by
  obtain ⟨part', hpart', -, hcells⟩ := reduced_perm htyped hrows horder hm key part hpart
  rw [reduceGroup_eq_single hpart, reduceGroup_eq_single hpart'] at hcells
  exact (List.singleton_inj.1 hcells).symm

/-- The column of a metric for the rows in another order. -/
theorem exists_reducedOver_perm (hb : b.Rectangular) (htyped : b.TypedWithin)
    {rows : List (List Cell)} (hrows : rows.length = b.rows)
    (horder : order.Perm (List.range rows.length)) (hm : m.IgnoresOrder b)
    (h : b.ReducedOver (groupRows rows) m c) :
    ∃ c', (b.gather (order.map some)).ReducedOver
      (groupRows (order.map fun i => rows.getD i [])) m c'
      ∧ c'.type = c.type := by
  let rows' := order.map fun i => rows.getD i []
  refine ⟨⟨c.type, (groupRows rows').map fun members =>
    ((b.gather (order.map some)).gather (members.map some)).metricCell m⟩,
    ⟨rfl, ?_, ?_⟩, rfl⟩
  · intro members hmembers
    obtain ⟨key, hkey, rfl⟩ := mem_groupRows.1 hmembers
    have hkey : key ∈ rows := by
      obtain ⟨i, hi, rfl⟩ := List.mem_map.1 hkey
      have hi : i < rows.length := List.mem_range.1 (horder.mem_iff.1 hi)
      rw [List.getD_eq_getElem _ _ hi]
      exact List.getElem_mem hi
    obtain ⟨part, hpart, htype⟩ := h.parts _ (mem_groupRows.2 ⟨key, hkey, rfl⟩)
    obtain ⟨part', hpart', hsame, -⟩ := reduced_perm htyped hrows horder hm key part hpart
    exact ⟨part', hpart', hsame.symm.trans htype⟩
  · intro hempty
    -- Without groups there are no rows to put in another order.
    have hnone : rows = [] := by
      have hlength := horder.length_eq
      rw [List.map_eq_nil_iff.1 (groupRows_eq_nil_iff.1 hempty),
        List.length_range] at hlength
      exact List.length_eq_zero_iff.1 hlength.symm
    subst hnone
    have hsame : b.gather (order.map some) = b := by
      rw [horder.eq_nil]
      have hall := gather_range hb
      rwa [← hrows] at hall
    rw [hsame]
    exact h.empty rfl

/-! ## Keys -/

theorem computeKeys_perm (hb : b.Rectangular) (horder : order.Perm (List.range b.rows)) :
    ∀ {keys : List Expr}, (∀ k ∈ keys, k.aggregateFree = true) →
      Follows (List.Forall₂ (Column.Taken b.rows order)) (b.computeKeys keys)
        ((b.gather (order.map some)).computeKeys keys)
  | [], _ => .ok .nil
  | k :: rest, hkeys => by
      obtain ⟨hk, hrest⟩ := List.forall_mem_cons.1 hkeys
      have hchoice := Expr.choice_of_perm horder
      refine .bind (R := Column.Taken b.rows order) ?_ fun _ _ hhere =>
        .bind (computeKeys_perm hb horder hrest)
        fun _ _ hrest => .ok (.cons hhere hrest)
      refine .bind (Expr.evaluate_choice hb hchoice k hk) fun c c' hpicked d hd => ?_
      exact (hpicked.taken hchoice.1 (height_of_broadcast hd)).broadcast rfl
        (List.length_map _) d hd

theorem tuples_sameData {n : Nat} {cs ds : List Column} (h : List.Forall₂ SameData cs ds) :
    tuples n cs = tuples n ds := by
  induction h with
  | nil => rfl
  | cons hc _ ih =>
      unfold tuples at ih ⊢
      rw [List.foldr_cons, List.foldr_cons, ih, hc.2]

theorem header_zip {cs ds : List Column} (names : List String)
    (h : List.Forall₂ (fun c d => c.type = d.type) cs ds) :
    (names.zip cs).map (fun c => (c.1, c.2.type)) = (names.zip ds).map fun c =>
      (c.1, c.2.type) := by
  have htypes : cs.map (·.type) = ds.map (·.type) := by
    induction h with
    | nil => rfl
    | cons hc _ ih => rw [List.map_cons, List.map_cons, hc, ih]
  have hzip : ∀ columns : List Column, (names.zip columns).map (fun c => (c.1, c.2.type))
      = names.zip (columns.map (·.type)) := fun columns => by rw [List.zip_map_right]; rfl
  rw [hzip, hzip, htypes]

/-! ## Aggregation -/

theorem aggregate_keyed_perm (hb : b.Rectangular) (htyped : b.TypedWithin) (hne : keys ≠ [])
    (hkeys : ∀ k ∈ keys, k.aggregateFree = true) (hmetrics : ∀ m ∈ metrics, m.IgnoresOrder b)
    (horder : order.Perm (List.range b.rows)) (h : b.aggregate keys metrics = .ok out) :
    ∃ out', (b.gather (order.map some)).aggregate keys metrics = .ok out'
      ∧ out'.header = out.header
      ∧ (tuples out'.rows (out'.columns.map (·.2))).Perm
        (tuples out.rows (out.columns.map (·.2))) := by
  obtain ⟨hnames, keyColumns, hkeyColumns, columns, hcolumns, rfl⟩ :=
    (aggregate_eq_ok hne).1 h
  let rows := tuples b.rows keyColumns
  let rows' := order.map fun i => rows.getD i []
  have hrows : rows.length = b.rows := length_tuples (length_of_computeKeys hkeyColumns)
  have horder' : order.Perm (List.range rows.length) := hrows.symm ▸ horder
  obtain ⟨keyColumns', hkeyColumns', htaken⟩ :=
    computeKeys_perm hb horder hkeys keyColumns hkeyColumns
  have hrows' : tuples (b.gather (order.map some)).rows keyColumns' = rows' := by
    rw [gather, List.length_map]
    exact (tuples_taken htaken).eq_map
      (fun i hi => List.mem_range.1 (horder.mem_iff.1 hi)) []
  have hreduced := metricColumns_eq_ok.1 hcolumns
  obtain ⟨columns', hreduced', htypes⟩ := exists_forall₂ hreduced fun m hm c hc =>
    exists_reducedOver_perm hb htyped hrows horder' (hmetrics m hm) hc
  have hout' := (aggregate_eq_ok hne).2
    ⟨hnames, keyColumns', hkeyColumns', columns',
      metricColumns_eq_ok.2 (hrows' ▸ hreduced'), rfl⟩
  refine ⟨_, hout', ?_, ?_⟩
  · refine header_zip _ (List.rel_append ?_ (htypes.flip.imp fun _ _ h => h))
    rw [List.forall₂_map_left_iff, List.forall₂_map_right_iff]
    refine htaken.flip.imp fun _ _ h => ?_
    obtain ⟨t, f, rfl, rfl⟩ := h
    rfl
  · obtain ⟨_, hsame, htuples⟩ := tuples_aggregate hne h
    cases hkeyColumns.symm.trans hsame
    obtain ⟨_, hsame', htuples'⟩ := tuples_aggregate hne hout'
    cases hkeyColumns'.symm.trans hsame'
    rw [htuples, htuples', hrows']
    have hperm : rows'.Perm rows := by
      conv_rhs => rw [← map_getD_range rows []]
      exact horder'.map _
    have hcells : ∀ key ∈ rows'.eraseDups,
        (key ++ metrics.map fun m =>
          (((b.gather (order.map some)).gather
            ((placesOf rows' key).map some)).metricCell m).bare)
          = key ++ metrics.map fun m =>
              ((b.gather ((placesOf rows key).map some)).metricCell m).bare := by
      intro key hkey
      have hkey : key ∈ rows := hperm.mem_iff.1 (List.mem_eraseDups.1 hkey)
      refine congrArg (key ++ ·) (List.map_congr_left fun m hm => ?_)
      obtain ⟨c, -, hc⟩ := exists_of_forall₂_right hreduced.flip hm
      obtain ⟨part, hpart, -⟩ := hc.parts _ (mem_groupRows.2 ⟨key, hkey, rfl⟩)
      exact bare_metricCell_perm htyped hrows horder' (hmetrics m hm) hpart
    rw [List.map_congr_left hcells]
    exact (eraseDups_perm fun key => hperm.mem_iff).map _

/-- Aggregation does not depend on the order of the rows. On the rows of a batch in any
other order it succeeds if it does on the batch, with columns of the same names and types,
and its rows are the same as often, although they may come in another order. -/
theorem aggregate_perm (hb : b.Rectangular) (htyped : b.TypedWithin)
    (hkeys : ∀ k ∈ keys, k.aggregateFree = true)
    (hmetrics : ∀ m ∈ metrics, m.IgnoresOrder b) (horder : order.Perm (List.range b.rows))
    (h : b.aggregate keys metrics = .ok out) :
    ∃ out', (b.gather (order.map some)).aggregate keys metrics = .ok out'
      ∧ out'.header = out.header
      ∧ (tuples out'.rows (out'.columns.map (·.2))).Perm
        (tuples out.rows (out.columns.map (·.2))) := by
  by_cases hne : keys = []
  · subst hne
    obtain ⟨hnames, columns, hcolumns, rfl⟩ := aggregate_all_eq_ok.1 h
    obtain ⟨columns', hcolumns', hsame⟩ := exists_forall₂ hcolumns fun m hm c hc =>
      reduceGroup_perm hb htyped horder (hmetrics m hm) c hc
    refine ⟨_, aggregate_all_eq_ok.2 ⟨hnames, columns', hcolumns', rfl⟩, ?_, ?_⟩
    · exact header_zip _ (hsame.flip.imp fun _ _ h => h.1.symm)
    · have hvalues : ∀ cs : List Column, cs.length = metrics.length →
          ((metrics.map Expr.outputName).zip cs).map (·.2) = cs :=
        fun cs hcs => List.map_snd_zip (Nat.le_of_eq (hcs.trans (List.length_map _).symm))
      rw [hvalues columns hcolumns.length_eq.symm,
        hvalues columns' hcolumns'.length_eq.symm, tuples_sameData hsame]
  · exact aggregate_keyed_perm hb htyped hne hkeys hmetrics horder h

/-- Three rows with the keys 1, null and 1, counted, summed and the greatest value taken
where the key is 1, in the order in which the last row comes first. -/
theorem aggregate_perm_of_three_rows :
    let b : Batch :=
  ⟨3, [("k", ⟨.int64, [.int 1, .null, .int 1]⟩), ("a", ⟨.int64, [.int 5, .int 6, .int 2]⟩)]⟩
    let isOne : Expr := .binary (.column "k") (.compare .equal) (.literal (.int64 1) .int64)
    let metrics : List Expr :=
      [.countRows none, .named (.reduce .sum (.column "a") none) "total",
        .named (.reduce .max (.column "a") (some isOne)) "most"]
    ∃ out, b.aggregate [.column "k"] metrics = .ok out
      ∧ ∃ out', (b.gather ([2, 1, 0].map some)).aggregate [.column "k"] metrics = .ok out'
        ∧ out'.header = out.header
        ∧ (tuples out'.rows (out'.columns.map (·.2))).Perm
            (tuples out.rows (out.columns.map (·.2))) := by
  intro b isOne metrics
  have htyped : b.TypedWithin := by
    unfold TypedWithin Column.TypedWithin
    decide
  refine ⟨_, rfl, aggregate_perm (by decide) htyped (by decide) ?_ (by decide) rfl⟩
  intro m hm
  simp only [metrics, List.mem_cons, List.not_mem_nil, or_false] at hm
  rcases hm with rfl | rfl | rfl
  · simp [Expr.IgnoresOrder]
  · refine ⟨rfl, by simp, .inr (.inr (.inr (.inr ⟨rfl, fun rows _ c hc => ?_⟩)))⟩
    cases hc
    simp [Column.gather]
  · refine ⟨rfl, fun p hp => ?_, by simp⟩
    cases hp
    rfl

end Batch

end TypedQuery
