import TypedQuery.Plan.Execute
import TypedQuery.Proofs.Columnar.Functions

/-!
# Expressions row by row

An expression without reductions computes every row from the same row of the
batch. So it makes no difference whether it is computed before or after rows are
chosen, moved or repeated, and steps that only do that commute with it: filters,
slices, sorting and grouping.
-/

namespace TypedQuery

namespace Expr

mutual

/-- Nothing is reduced anywhere in the expression, and every function has an argument
to take its rows from. -/
def rowwise : Expr → Bool
  | column _ | literal .. => true
  | named e _ | cast e _ | unary _ e => rowwise e
  | binary a _ b | fillNull a b | fillNan a b => rowwise a && rowwise b
  | choose a b c | between a b c => rowwise a && rowwise b && rowwise c
  | isIn e items => rowwise e && allRowwise items
  | coalesce items | least items | greatest items => allRowwise items
  | call _ items => !items.isEmpty && allRowwise items
  | reduce .. | countRows _ => false

def allRowwise : List Expr → Bool
  | [] => true
  | e :: rest => rowwise e && allRowwise rest

end

end Expr

/-- All columns are as high as the batch says. -/
def Batch.Rectangular (b : Batch) : Prop := ∀ c ∈ b.columns, c.2.length = b.rows

instance (b : Batch) : Decidable b.Rectangular :=
  inferInstanceAs (Decidable (∀ c ∈ b.columns, c.2.length = b.rows))

namespace Expr

variable {b : Batch} {rows : List Nat}

theorem findColumn_taken (hb : b.Rectangular) (name : String) :
    Follows (Column.Taken b.rows rows) (findColumn b name)
      (findColumn (b.gather (rows.map some)) name) := by
  have hfind : ∀ columns : List (String × Column),
      ((columns.map fun c => (c.1, c.2.gather (rows.map some))).find?
        (·.1 == name)).map (·.2)
        = ((columns.find? (·.1 == name)).map (·.2)).map (·.gather (rows.map some)) := by
    intro columns
    rw [List.find?_map, Option.map_map, Option.map_map]
    rfl
  have hgathered : (b.gather (rows.map some)).column? name
      = (b.column? name).map (·.gather (rows.map some)) :=
    hfind b.columns
  unfold findColumn
  rw [hgathered]
  cases hc : b.column? name with
  | none => exact .error _ _
  | some c =>
      obtain ⟨named, hnamed, rfl⟩ := Option.map_eq_some_iff.1 hc
      exact .ok (.of_gather (hb named (List.mem_of_find?_eq_some hnamed)))

/-! ## Evaluation

The induction is on the expression; its lists of parts and the options of a membership
test go along with it. -/

theorem evaluateList_eq_ok {items : List Expr} {cs : List Column} :
    evaluateList b items = .ok cs
      ↔ List.Forall₂ (fun e c => e.evaluate b = .ok c) items cs := by
  have hmapM : evaluateList b items = items.mapM (evaluate b) := by
    induction items with
    | nil => rfl
    | cons e rest ih => rw [evaluateList, List.mapM_cons, ih]; rfl
  rw [hmapM, mapM_eq_ok]

theorem evaluateList_length {items : List Expr} {cs : List Column}
    (h : evaluateList b items = .ok cs) :
    cs.length = items.length :=
  (evaluateList_eq_ok.1 h).length_eq.symm

mutual

theorem evaluate_taken (hb : b.Rectangular) (hr : ∀ i ∈ rows, i < b.rows) :
    ∀ e : Expr, e.rowwise = true →
      Follows (Column.Taken b.rows rows) (e.evaluate b)
        (e.evaluate (b.gather (rows.map some)))
  | column name, _ => findColumn_taken hb name
  | literal v type, _ => by
      have h := Literal.column_taken (n := b.rows) hr v type
      rwa [← List.length_map some] at h
  | named e _, he => evaluate_taken hb hr e he
  | cast e type, he => .bind (evaluate_taken hb hr e he) fun _ _ h => h.cast hr _
  | unary op e, he => .bind (evaluate_taken hb hr e he) fun _ _ h => h.unary hr op
  | binary left op right, he => by
      obtain ⟨hl, hr'⟩ := Bool.and_eq_true_iff.1 he
      exact .bind (evaluate_taken hb hr left hl) fun _ _ hl =>
        .bind (evaluate_taken hb hr right hr') fun _ _ hr' => hl.binary hr op hr'
  | choose predicate thenExpr otherwise, he => by
      obtain ⟨he, ho⟩ := Bool.and_eq_true_iff.1 he
      obtain ⟨hp, ht⟩ := Bool.and_eq_true_iff.1 he
      exact .bind (evaluate_taken hb hr predicate hp) fun _ _ hp =>
        .bind (hp.asPredicate rfl (List.length_map _)) fun _ _ hmask =>
        .bind (evaluate_taken hb hr thenExpr ht) fun _ _ ht =>
        .bind (evaluate_taken hb hr otherwise ho) fun _ _ ho =>
          Column.Taken.select hr (hmask.map _) ht ho
  | fillNull e fill, he => by
      obtain ⟨he, hf⟩ := Bool.and_eq_true_iff.1 he
      exact .bind (evaluate_taken hb hr e he) fun _ _ he =>
        .bind (evaluate_taken hb hr fill hf) fun _ _ hf => he.orElse hr hf
  | fillNan e fill, he => by
      obtain ⟨he, hf⟩ := Bool.and_eq_true_iff.1 he
      refine .bind (evaluate_taken hb hr e he) fun c c' hc => ?_
      rw [hc.type_eq]
      split
      · exact .bind (evaluate_taken hb hr fill hf) fun _ _ hf => hc.fillNan hr hf
      · exact .ok hc
  | isIn e options, he => by
      obtain ⟨he, ho⟩ := Bool.and_eq_true_iff.1 he
      exact .bind (evaluate_taken hb hr e he) fun _ _ hc =>
        evaluateIn_taken hb hr options ho hc .none
  | between e low high, he => by
      obtain ⟨he, hh⟩ := Bool.and_eq_true_iff.1 he
      obtain ⟨he, hl⟩ := Bool.and_eq_true_iff.1 he
      exact .bind (evaluate_taken hb hr e he) fun _ _ hc =>
        .bind (evaluate_taken hb hr low hl) fun _ _ hl =>
        .bind (evaluate_taken hb hr high hh) fun _ _ hh =>
        .bind (hc.binary hr _ hl) fun _ _ habove =>
        .bind (hc.binary hr _ hh) fun _ _ hbelow => habove.binary hr _ hbelow
  | coalesce items, he => .bind (evaluateList_taken hb hr items he) fun _ _ h =>
    Column.Taken.coalesce hr h
  | least items, he => .bind (evaluateList_taken hb hr items he) fun _ _ h =>
    Column.Taken.horizontal hr _ h
  | greatest items, he => .bind (evaluateList_taken hb hr items he) fun _ _ h =>
    Column.Taken.horizontal hr _ h
  | call f items, he => by
      obtain ⟨hne, hi⟩ := Bool.and_eq_true_iff.1 he
      intro out hout
      obtain ⟨cs, hcs, hout⟩ := bind_eq_ok.1 hout
      obtain ⟨cs', hcs', htaken⟩ := evaluateList_taken hb hr items hi cs hcs
      have hne : cs ≠ [] := by
        rintro rfl
        rw [List.length_eq_zero_iff.1 (evaluateList_length hcs).symm] at hne
        cases hne
      obtain ⟨halign, halign'⟩ := Column.Taken.align htaken
      rw [halign] at hout
      obtain ⟨out', hout', h⟩ := Function.apply_taken hr f hne htaken out hout
      exact ⟨out', bind_eq_ok.2 ⟨cs', hcs', by rw [halign']; exact hout'⟩, h⟩
  | reduce .., he => by cases he
  | countRows _, he => by cases he

theorem evaluateList_taken (hb : b.Rectangular) (hr : ∀ i ∈ rows, i < b.rows) :
    ∀ items : List Expr, allRowwise items = true →
      Follows (List.Forall₂ (Column.Taken b.rows rows)) (evaluateList b items)
        (evaluateList (b.gather (rows.map some)) items)
  | [], _ => .ok .nil
  | e :: rest, he => by
      obtain ⟨he, hrest⟩ := Bool.and_eq_true_iff.1 he
      exact .bind (evaluate_taken hb hr e he) fun _ _ hhere =>
        .bind (evaluateList_taken hb hr rest hrest) fun _ _ hrest => .ok (.cons hhere hrest)

theorem evaluateIn_taken (hb : b.Rectangular) (hr : ∀ i ∈ rows, i < b.rows) :
    ∀ options : List Expr, allRowwise options = true →
      ∀ {c c' : Column}, Column.Taken b.rows rows c c' →
      ∀ {found found' : Option Column}, Option.Rel (Column.Taken b.rows rows) found found' →
      Follows (Column.Taken b.rows rows) (evaluateIn b c found options)
        (evaluateIn (b.gather (rows.map some)) c' found' options)
  | [], _, c, c', hc, _, _, hfound => by
      cases hfound with
      | some h => exact .ok h
      | none =>
          rw [evaluateIn, evaluateIn, hc.length, hc.length_taken]
          exact .ok (.of_cells _ (.replicate _))
  | e :: rest, he, c, c', hc, _, _, hfound => by
      obtain ⟨he, hrest⟩ := Bool.and_eq_true_iff.1 he
      refine .bind (evaluate_taken hb hr e he) fun _ _ hvalue =>
        .bind (hc.binary hr _ hvalue) fun _ _ hmatched => ?_
      cases hfound with
      | some h =>
          exact .bind (h.binary hr _ hmatched) fun _ _ h =>
            evaluateIn_taken hb hr rest hrest hc (.some h)
      | none => exact evaluateIn_taken hb hr rest hrest hc (.some hmatched)

end

end Expr

/-! ## Steps that move rows -/

/-- The positions where a mask holds. -/
def positions (mask : List Bool) : List Nat :=
  (List.range mask.length).filter fun i => mask.getD i false

theorem Column.keep_taken {c : Column} {mask : List Bool} (h : c.length = mask.length) :
    Column.Taken mask.length (positions mask) c (c.keep mask) := by
  obtain ⟨t, f, hc, -⟩ : Column.Taken _ [] c _ := .of_gather h
  refine ⟨t, f, hc, ?_⟩
  subst hc
  have hzip : ((List.range mask.length).map f).zip mask
      = (List.range mask.length).map fun i => (f i, mask.getD i false) := by
    conv_lhs => rw [← map_getD_range mask false]
    simp [List.zip_map']
  rw [keep, hzip, List.filter_map, List.map_map]
  rfl

/-- Rows beyond the last one make no difference. -/
theorem drop_take_min {α : Type} {xs : List α} {n : Nat} (h : xs.length = n)
    (start count : Nat) :
    (xs.drop (min start n)).take (min count (n - min start n))
      = (xs.drop start).take count := by
  subst h
  have hdrop : xs.drop (min start xs.length) = xs.drop start := by
    rcases Nat.le_total start xs.length with h | h
    · rw [Nat.min_eq_left h]
    · rw [Nat.min_eq_right h, List.drop_length, List.drop_eq_nil_of_le h]
  rw [hdrop, List.take_eq_take_iff, List.length_drop]
  omega

theorem Column.slice_taken {c : Column} {n : Nat} (h : c.length = n) (start count : Nat) :
    Column.Taken n (((List.range n).drop start).take count) c
      ⟨c.type, (c.cells.drop start).take count⟩ := by
  obtain ⟨t, f, hc, -⟩ : Column.Taken _ [] c _ := .of_gather h
  refine ⟨t, f, hc, ?_⟩
  subst hc
  rw [List.map_take, List.map_drop]

namespace Batch

variable {b : Batch}

/-- A step that does the same to every column as gathering. -/
theorem eq_gather (move : Column → Column) {rows : List Nat} {count : Nat}
    (hb : b.Rectangular) (hr : ∀ i ∈ rows, i < b.rows) (hcount : count = rows.length)
    (hmove : ∀ c : Column, c.length = b.rows → Column.Taken b.rows rows c (move c)) :
    (⟨count, b.columns.map fun c => (c.1, move c.2)⟩ : Batch)
      = b.gather (rows.map some) := by
  rw [gather, List.length_map, hcount]
  refine congrArg _ (List.map_congr_left fun c hc => ?_)
  exact congrArg (c.1, ·) ((hmove c.2 (hb c hc)).eq_gather hr)

theorem lt_of_mem_positions {mask : List Bool} {i : Nat} (h : i ∈ positions mask) :
    i < mask.length :=
  List.mem_range.1 (List.mem_filter.1 h).1

theorem length_positions (mask : List Bool) :
    (positions mask).length = (mask.filter id).length := by
  conv_rhs => rw [← map_getD_range mask false, List.filter_map, List.length_map]
  rfl

theorem keep_eq_gather (hb : b.Rectangular) {mask : List Bool} (h : mask.length = b.rows) :
    b.keep mask = b.gather ((positions mask).map some) :=
  eq_gather (Column.keep mask) hb (fun i hi => h ▸ lt_of_mem_positions hi)
      (length_positions mask).symm fun c hc => by
    rw [← h] at hc ⊢
    exact Column.keep_taken hc

theorem slice_eq_gather (hb : b.Rectangular) (offset : Nat) (length : Option Nat) :
    b.slice offset length
      = b.gather ((((List.range b.rows).drop offset).take (length.getD b.rows)).map
        some) := by
  let start := min offset b.rows
  let count := min (length.getD b.rows) (b.rows - start)
  refine eq_gather (fun c => ⟨c.type, (c.cells.drop start).take count⟩) hb
    (fun i hi => ?_) ?_ fun c hc => ?_
  · exact List.mem_range.1 (List.mem_of_mem_drop (List.mem_of_mem_take hi))
  · rw [List.length_take, List.length_drop, List.length_range]
    omega
  · rw [drop_take_min hc]
    exact Column.slice_taken hc _ _

/-! ### Keys -/

theorem length_broadcast {c out : Column} {n : Nat} (h : c.broadcast n = .ok out) :
    out.length = n := by
  unfold Column.broadcast at h
  split at h
  · next hc => cases h; exact hc
  · split at h
    · cases h; exact List.length_replicate
    · cases h

theorem length_of_computeKeys {keys : List Expr} {cs : List Column}
    (h : b.computeKeys keys = .ok cs) :
    ∀ c ∈ cs, c.length = b.rows := by
  induction keys generalizing cs with
  | nil => cases h; exact fun c hc => by cases hc
  | cons e rest ih =>
      obtain ⟨here, hhere, h⟩ := bind_eq_ok.1 h
      obtain ⟨after, hafter, h⟩ := bind_eq_ok.1 h
      cases h
      obtain ⟨c, -, hc⟩ := bind_eq_ok.1 hhere
      exact List.forall_mem_cons.2 ⟨length_broadcast hc, ih hafter⟩

theorem length_tuples {n : Nat} {cs : List Column} (h : ∀ c ∈ cs, c.length = n) :
    (tuples n cs).length = n := by
  induction cs with
  | nil => exact List.length_replicate
  | cons c rest ih =>
      obtain ⟨hc, hrest⟩ := List.forall_mem_cons.1 h
      have hc : c.cells.length = n := hc
      have hrest := ih hrest
      rw [tuples] at hrest ⊢
      rw [List.foldr_cons, List.length_zipWith, List.length_map, hrest, hc, Nat.min_self]

/-! ### Sorting -/

theorem sortedPositions_perm (descending : List Bool) (keys : List (List Cell)) :
    (sortedPositions descending keys).Perm (List.range keys.length) := by
  have h := (List.mergeSort_perm keys.zipIdx fun a b => compareKeys descending a.1 b.1
    ≠ .gt).map Prod.snd
  rwa [List.zipIdx_map_snd, ← List.range_eq_range'] at h

/-- Sorting moves every row to one place. -/
theorem sort_eq_gather (hb : b.Rectangular) {keys : List Expr} {descending : List Bool}
    {sorted : Batch} (h : b.sort keys descending = .ok sorted) :
    ∃ rows : List Nat, rows.Perm (List.range b.rows)
      ∧ sorted = b.gather (rows.map some) := by
  unfold sort at h
  split at h
  · cases h
  · split at h
    · cases h
      refine ⟨List.range b.rows, .refl _, ?_⟩
      have hsame :=
        eq_gather id hb
            (fun i hi => List.mem_range.1 hi) List.length_range.symm fun c hc => by
        obtain ⟨t, f, rfl, -⟩ : Column.Taken _ [] c _ := .of_gather hc
        exact ⟨t, f, rfl, rfl⟩
      rw [← hsame, show (fun c : String × Column => (c.1, id c.2)) = id from rfl,
        List.map_id]
    · obtain ⟨cs, hcs, h⟩ := bind_eq_ok.1 h
      obtain ⟨_, -, h⟩ := bind_eq_ok.1 h
      cases h
      refine ⟨_, ?_, rfl⟩
      have hperm := sortedPositions_perm descending (tuples b.rows cs)
      rwa [length_tuples (length_of_computeKeys hcs)] at hperm

/-! ### Groups -/

theorem mem_addToGroup {groups : List (List Cell × List Nat)} {key : List Cell}
    {position i : Nat} (h : ∃ g ∈ addToGroup groups key position, i ∈ g.2) :
    i = position ∨ ∃ g ∈ groups, i ∈ g.2 := by
  induction groups with
  | nil =>
      obtain ⟨g, hg, hi⟩ := h
      rw [addToGroup, List.mem_singleton] at hg
      subst hg
      exact .inl (List.mem_singleton.1 hi)
  | cons first rest ih =>
      obtain ⟨g, hg, hi⟩ := h
      rw [addToGroup] at hg
      split at hg
      · rcases List.mem_cons.1 hg with rfl | hg
        · rcases List.mem_append.1 hi with hi | hi
          · exact .inr ⟨first, List.mem_cons_self, hi⟩
          · exact .inl (List.mem_singleton.1 hi)
        · exact .inr ⟨g, List.mem_cons_of_mem _ hg, hi⟩
      · rcases List.mem_cons.1 hg with rfl | hg
        · exact .inr ⟨_, List.mem_cons_self, hi⟩
        · rcases ih ⟨g, hg, hi⟩ with hi | ⟨g, hg, hi⟩
          · exact .inl hi
          · exact .inr ⟨g, List.mem_cons_of_mem _ hg, hi⟩

/-- A group holds positions of rows. -/
theorem lt_of_mem_groupRows {keys : List (List Cell)} {members : List Nat}
    (h : members ∈ groupRows keys) {i : Nat} (hi : i ∈ members) : i < keys.length := by
  have hfold : ∀ (rows : List (List Cell × Nat)) (groups : List (List Cell × List Nat)),
      (∃ g ∈ rows.foldl (fun groups row => addToGroup groups row.1 row.2) groups, i ∈ g.2) →
        (∃ row ∈ rows, i = row.2) ∨ ∃ g ∈ groups, i ∈ g.2 := by
    intro rows
    induction rows with
    | nil => exact fun _ h => .inr h
    | cons row rest ih =>
        intro groups h
        rcases ih _ h with ⟨other, hother, hi⟩ | h
        · exact .inl ⟨other, List.mem_cons_of_mem _ hother, hi⟩
        · rcases mem_addToGroup h with hi | h
          · exact .inl ⟨row, List.mem_cons_self, hi⟩
          · exact .inr h
  obtain ⟨g, hg, rfl⟩ := List.mem_map.1 h
  rcases hfold keys.zipIdx [] ⟨g, hg, hi⟩ with ⟨row, hrow, rfl⟩ | ⟨g, hg, -⟩
  · exact List.snd_lt_of_mem_zipIdx hrow
  · cases hg

end Batch

/-! ## Locality -/

namespace Expr

/-- An expression without reductions is computed row by row: on any choice of rows it gives
what it gives on all of them, at the chosen rows. So it may be computed before or after
rows are filtered, sliced, sorted or grouped. -/
theorem evaluate_gather {e : Expr} (he : e.rowwise = true) {b : Batch}
    (hb : b.Rectangular) {a : Column} (h : e.evaluate b = .ok a) :
    a.length = b.rows
      ∧ (∀ rows : List Nat, (∀ i ∈ rows, i < b.rows) →
          e.evaluate (b.gather (rows.map some)) = .ok (a.gather (rows.map some)))
      ∧ (∀ mask : List Bool, mask.length = b.rows →
        e.evaluate (b.keep mask) = .ok (a.keep mask))
      ∧ (∀ offset length, e.evaluate (b.slice offset length)
          = .ok ⟨a.type, (a.cells.drop offset).take (length.getD b.rows)⟩)
      ∧ (∀ keys descending sorted, b.sort keys descending = .ok sorted →
          ∃ rows : List Nat, rows.Perm (List.range b.rows)
            ∧ sorted = b.gather (rows.map some)
            ∧ e.evaluate sorted = .ok (a.gather (rows.map some)))
      ∧ (∀ keys columns, b.computeKeys keys = .ok columns →
          ∀ members ∈ Batch.groupRows (Batch.tuples b.rows columns),
            e.evaluate (b.gather (members.map some))
              = .ok (a.gather (members.map some))) := by
  have hlength : a.length = b.rows := by
    obtain ⟨a', -, htaken⟩ := @evaluate_taken b [] hb (fun i hi => by cases hi) e he a h
    exact htaken.length
  have hgather : ∀ rows : List Nat, (∀ i ∈ rows, i < b.rows) →
      e.evaluate (b.gather (rows.map some)) = .ok (a.gather (rows.map some)) := by
    intro rows hr
    obtain ⟨a', ha', htaken⟩ := evaluate_taken hb hr e he a h
    rw [ha', htaken.eq_gather hr]
  refine ⟨hlength, hgather, fun mask hmask => ?_, fun offset length => ?_,
    fun keys descending sorted hsorted => ?_,
    fun keys columns hcolumns members hmembers => ?_⟩
  · rw [Batch.keep_eq_gather hb hmask,
      hgather _ fun i hi => hmask ▸ Batch.lt_of_mem_positions hi]
    have htaken := Column.keep_taken (hlength.trans hmask.symm)
    rw [htaken.eq_gather fun i hi => Batch.lt_of_mem_positions hi]
  · have hr : ∀ i ∈ ((List.range b.rows).drop offset).take (length.getD b.rows),
        i < b.rows :=
      fun i hi => List.mem_range.1 (List.mem_of_mem_drop (List.mem_of_mem_take hi))
    rw [Batch.slice_eq_gather hb, hgather _ hr,
      ← (Column.slice_taken hlength _ _).eq_gather hr]
  · obtain ⟨rows, hperm, rfl⟩ := Batch.sort_eq_gather hb hsorted
    exact ⟨rows, hperm, rfl, hgather rows fun i hi => List.mem_range.1 (hperm.mem_iff.1 hi)⟩
  · refine hgather members fun i hi => ?_
    have hi := Batch.lt_of_mem_groupRows hmembers hi
    rwa [Batch.length_tuples (Batch.length_of_computeKeys hcolumns)] at hi

/-- The sum of a column and one, in the last row, the first and the last again. -/
theorem evaluate_gather_sum :
    let x : Column := ⟨.int64, [.int 3, .int 1, .int 2]⟩
    let sum : Column := ⟨.int64, [.int 4, .int 2, .int 3]⟩
    (add (column "x") (ofInt 1)).evaluate
      ((⟨3, [("x", x)]⟩ : Batch).gather ([2, 0, 2].map some))
      = .ok (sum.gather ([2, 0, 2].map some)) :=
  (evaluate_gather rfl (by decide) (by rfl)).2.1 [2, 0, 2] (by decide)

end Expr

end TypedQuery
