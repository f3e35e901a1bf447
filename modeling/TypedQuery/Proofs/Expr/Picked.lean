import TypedQuery.Proofs.Expr.Filled
import TypedQuery.Proofs.Plan.Groups

/-!
# Expressions without reductions on some of the rows

An expression without reductions is computed row by row, but for a function without
arguments: that one has no rows on any batch. In a batch of two rows or more the two do not
go together, as no operation takes operands of which one has all rows and another has none.
So there an expression gives one or the other: a row for each row, the same as in any
choice of rows that it is computed on, or a column without rows that does not depend on the
batch at all (`Column.Picked`).
-/

namespace TypedQuery

/-- The cells of the first column at the given positions, or both times the
same column without rows. -/
def Column.Picked (n : Nat) (rows : List Nat) (c c' : Column) : Prop :=
  Column.Taken n rows c c' ∨ (c.length = 0 ∧ c' = c)

namespace Column.Picked

variable {n : Nat} {rows : List Nat} {c c' l l' r r' : Column} {cs cs' : List Column}

theorem type_eq (h : Picked n rows c c') : c'.type = c.type := by
  rcases h with h | ⟨-, rfl⟩
  · exact h.type_eq
  · rfl

/-- What has the height of the batch is taken from it. -/
theorem taken (hr : ∀ i ∈ rows, i < n) (h : Picked n rows c c')
    (hlength : c.length = n ∨ c.length = 1) :
    Taken n rows c c' := by
  rcases h with h | ⟨hempty, rfl⟩
  · exact h
  · exact .of_empty hempty (by omega) hr

/-! ## Operations

What an operation does to columns that are taken it does to picked ones. That it does not
take a row for an operand without rows is told by the height of its result. -/

theorem unary {f : Column → Except Error Column}
    (hheight : Yields (·.length = c.length) (f c))
    (htaken : Taken n rows c c' → Follows (Taken n rows) (f c) (f c'))
    (h : Picked n rows c c') :
    Follows (Picked n rows) (f c) (f c') := by
  rcases h with h | ⟨hempty, rfl⟩
  · exact (htaken h).mono fun _ _ => .inl
  · exact fun out hout => ⟨out, hout, .inr ⟨(hheight out hout).trans hempty, rfl⟩⟩

theorem binary (hn : 2 ≤ n) {f : Column → Column → Except Error Column}
    (hcovers : Yields (fun c => Covers [l.length, r.length] c.length) (f l r))
    (htaken : Taken n rows l l' → Taken n rows r r' →
      Follows (Taken n rows) (f l r) (f l' r'))
    (hl : Picked n rows l l') (hr : Picked n rows r r') :
    Follows (Picked n rows) (f l r) (f l' r') := by
  rcases hl with hl | ⟨hl, rfl⟩ <;> rcases hr with hr | ⟨hr, rfl⟩
  · exact (htaken hl hr).mono fun _ _ => .inl
  · intro out hout
    have hcovers := (hcovers out hout).2
    have h₁ := hcovers l.length List.mem_cons_self
    have h₂ := hcovers r'.length (List.mem_cons_of_mem _ List.mem_cons_self)
    have hlength := hl.length
    omega
  · intro out hout
    have hcovers := (hcovers out hout).2
    have h₁ := hcovers l'.length List.mem_cons_self
    have h₂ := hcovers r.length (List.mem_cons_of_mem _ List.mem_cons_self)
    have hlength := hr.length
    omega
  · intro out hout
    refine ⟨out, hout, .inr ⟨?_, rfl⟩⟩
    have hmem := (hcovers out hout).1
    simp only [hl, hr, List.mem_cons, List.not_mem_nil, or_false, or_self] at hmem
    exact hmem

theorem operator (hn : 2 ≤ n) (hrows : ∀ i ∈ rows, i < n) (op : BinaryOp)
    (hl : Picked n rows l l') (hr : Picked n rows r r') :
    Follows (Picked n rows) (op.apply l r) (op.apply l' r') :=
  binary hn (covers_binary op l r) (fun hl hr => hl.binary hrows op hr) hl hr

/-- Columns that are picked are all taken, or are all without rows, or there
are some of either sort. -/
theorem cases_all (h : List.Forall₂ (Picked n rows) cs cs') :
    List.Forall₂ (Taken n rows) cs cs' ∨ ((∀ c ∈ cs, c.length = 0) ∧ cs' = cs)
      ∨ (∃ c ∈ cs, c.length = n) ∧ ∃ c ∈ cs, c.length = 0 := by
  induction h with
  | nil => exact .inl .nil
  | @cons c c' cs cs' hc _ ih =>
      rcases hc with hc | ⟨hc, rfl⟩
      · rcases ih with ih | ⟨hempty, rfl⟩ | ⟨-, d, hd, hempty⟩
        · exact .inl (.cons hc ih)
        · cases cs' with
          | nil => exact .inl (.cons hc .nil)
          | cons d rest =>
              exact .inr (.inr ⟨⟨c, List.mem_cons_self, hc.length⟩,
                d, List.mem_cons_of_mem _ List.mem_cons_self, hempty d List.mem_cons_self⟩)
        · exact .inr
            (.inr ⟨⟨c, List.mem_cons_self, hc.length⟩, d, List.mem_cons_of_mem _ hd, hempty⟩)
      · rcases ih with ih | ⟨hempty, rfl⟩ | ⟨⟨d, hd, hall⟩, -⟩
        · cases ih with
          | nil => exact .inr (.inl ⟨List.forall_mem_singleton.2 hc, rfl⟩)
          | @cons d d' _ _ hd _ =>
              exact .inr (.inr ⟨⟨d, List.mem_cons_of_mem _ List.mem_cons_self, hd.length⟩,
                c', List.mem_cons_self, hc⟩)
        · exact .inr (.inl ⟨List.forall_mem_cons.2 ⟨hc, hempty⟩, rfl⟩)
        · exact .inr
            (.inr ⟨⟨d, List.mem_cons_of_mem _ hd, hall⟩, c', List.mem_cons_self, hc⟩)

theorem many (hn : 2 ≤ n) {f : List Column → Except Error Column}
    (hcovers : Yields (fun c => if cs = [] then c.length = 0
      else Covers (cs.map Column.length) c.length) (f cs))
    (htaken : cs ≠ [] → List.Forall₂ (Taken n rows) cs cs' →
      Follows (Taken n rows) (f cs) (f cs'))
    (h : List.Forall₂ (Picked n rows) cs cs') : Follows (Picked n rows) (f cs) (f cs') := by
  by_cases hnil : cs = []
  · subst hnil
    cases h
    exact fun out hout => ⟨out, hout, .inr ⟨by simpa using hcovers out hout, rfl⟩⟩
  · rcases cases_all h with h | ⟨hempty, rfl⟩ | ⟨⟨c, hc, hall⟩, d, hd, hempty⟩
    · exact (htaken hnil h).mono fun _ _ => .inl
    · intro out hout
      have hcovers : Covers (cs'.map Column.length) out.length := by
        simpa only [if_neg hnil] using hcovers out hout
      obtain ⟨c, hc, hlength⟩ := List.mem_map.1 hcovers.1
      exact ⟨out, hout, .inr ⟨hlength.symm.trans (hempty c hc), rfl⟩⟩
    · intro out hout
      have hcovers : Covers (cs.map Column.length) out.length := by
        simpa only [if_neg hnil] using hcovers out hout
      have h₁ := hcovers.2 _ (List.mem_map_of_mem hc)
      have h₂ := hcovers.2 _ (List.mem_map_of_mem hd)
      omega

theorem chosen (hn : 2 ≤ n) {f : List Column → Except Error Column}
    (hcovers : Yields (fun c => Covers (cs.map Column.length) c.length) (f cs))
    (htaken : List.Forall₂ (Taken n rows) cs cs' → Follows (Taken n rows) (f cs) (f cs'))
    (h : List.Forall₂ (Picked n rows) cs cs') : Follows (Picked n rows) (f cs) (f cs') := by
  refine many hn (hcovers.mono fun c hc => ?_) (fun _ => htaken) h
  split
  · next hnil => subst hnil; cases hc.1
  · exact hc

theorem asPredicate (hr : ∀ i ∈ rows, i < n) {m : Nat} (hm : m = rows.length)
    (h : Picked n rows c c') :
    Follows (TypedQuery.Taken n rows) (c.asPredicate n) (c'.asPredicate m) := by
  intro mask hmask
  exact (h.taken hr (height_of_asPredicate hmask)).asPredicate rfl hm mask hmask

theorem select (hn : 2 ≤ n) (hr : ∀ i ∈ rows, i < n) {mask mask' : List Bool}
    (hmask : TypedQuery.Taken n rows mask mask') (hl : Picked n rows l l')
    (h : Picked n rows r r') :
    Follows (Picked n rows) (Column.select mask l r) (Column.select mask' l' r') := by
  intro out hout
  have hcovers := (covers_select mask l r out hout).2
  have hm := hcovers mask.length List.mem_cons_self
  have hlheight := hcovers l.length (by simp)
  have hrheight := hcovers r.length (by simp)
  have hlength := hmask.length
  have htaken := Taken.select hr hmask (hl.taken hr (by omega)) (h.taken hr (by omega))
  exact (htaken.mono fun _ _ => .inl) out hout

end Column.Picked

/-! ## Evaluation -/

namespace Expr

variable {b : Batch} {rows : List Nat}

mutual

/-- In a batch of two rows or more an expression without reductions is picked from
what it is on all rows. -/
theorem evaluate_picked (hb : b.Rectangular) (hn : 2 ≤ b.rows)
    (hr : ∀ i ∈ rows, i < b.rows) :
    ∀ e : Expr, e.aggregateFree = true →
      Follows (Column.Picked b.rows rows) (e.evaluate b)
        (e.evaluate (b.gather (rows.map some)))
  | column name, _ => (findColumn_taken hb name).mono fun _ _ => .inl
  | literal v type, _ => (evaluate_taken hb hr (literal v type) rfl).mono fun _ _ => .inl
  | named e _, he => evaluate_picked hb hn hr e he
  | cast e type, he => .bind (evaluate_picked hb hn hr e he) fun _ _ h =>
      Column.Picked.unary (f := (·.cast (.ofLogical type))) (fun _ => Column.length_cast)
        (fun h => h.cast hr _) h
  | unary op e, he => .bind (evaluate_picked hb hn hr e he) fun c _ h =>
      Column.Picked.unary (Column.length_unary op c) (fun h => h.unary hr op) h
  | binary left op right, he => by
      obtain ⟨hl, hr'⟩ := Bool.and_eq_true_iff.1 he
      exact .bind (evaluate_picked hb hn hr left hl) fun _ _ hl =>
        .bind (evaluate_picked hb hn hr right hr') fun _ _ hr' => hl.operator hn hr op hr'
  | choose predicate thenExpr otherwise, he => by
      obtain ⟨he, ho⟩ := Bool.and_eq_true_iff.1 he
      obtain ⟨hp, ht⟩ := Bool.and_eq_true_iff.1 he
      exact .bind (evaluate_picked hb hn hr predicate hp) fun _ _ hp =>
        .bind (hp.asPredicate hr (List.length_map _)) fun _ _ hmask =>
        .bind (evaluate_picked hb hn hr thenExpr ht) fun _ _ ht =>
        .bind (evaluate_picked hb hn hr otherwise ho) fun _ _ ho =>
          Column.Picked.select hn hr (hmask.map _) ht ho
  | fillNull e fill, he => by
      obtain ⟨he, hf⟩ := Bool.and_eq_true_iff.1 he
      exact .bind (evaluate_picked hb hn hr e he) fun l _ he =>
        .bind (evaluate_picked hb hn hr fill hf) fun r _ hf =>
          Column.Picked.binary hn (Column.covers_orElse l r)
            (fun hl h => hl.orElse hr h) he hf
  | fillNan e fill, he => by
      obtain ⟨he, hf⟩ := Bool.and_eq_true_iff.1 he
      refine .bind (evaluate_picked hb hn hr e he) fun l l' hc => ?_
      rw [hc.type_eq]
      split
      · exact .bind (evaluate_picked hb hn hr fill hf) fun r _ hf =>
          Column.Picked.binary hn (Column.covers_fillNan l r)
            (fun hl h => hl.fillNan hr h) hc hf
      · exact .ok hc
  | isIn e options, he => by
      obtain ⟨he, ho⟩ := Bool.and_eq_true_iff.1 he
      exact .bind (evaluate_picked hb hn hr e he) fun _ _ hc =>
        evaluateIn_picked hb hn hr options ho hc .none
  | between e low high, he => by
      obtain ⟨he, hh⟩ := Bool.and_eq_true_iff.1 he
      obtain ⟨he, hl⟩ := Bool.and_eq_true_iff.1 he
      exact .bind (evaluate_picked hb hn hr e he) fun _ _ hc =>
        .bind (evaluate_picked hb hn hr low hl) fun _ _ hl =>
        .bind (evaluate_picked hb hn hr high hh) fun _ _ hh =>
        .bind (hc.operator hn hr _ hl) fun _ _ habove =>
        .bind (hc.operator hn hr _ hh) fun _ _ hbelow => habove.operator hn hr _ hbelow
  | coalesce items, he => .bind (evaluateList_picked hb hn hr items he) fun cs _ h =>
      Column.Picked.chosen hn (Column.covers_coalesce cs) (Column.Taken.coalesce hr) h
  | least items, he => .bind (evaluateList_picked hb hn hr items he) fun cs _ h =>
      Column.Picked.chosen hn (Column.covers_horizontal _ cs)
        (Column.Taken.horizontal hr _) h
  | greatest items, he => .bind (evaluateList_picked hb hn hr items he) fun cs _ h =>
      Column.Picked.chosen hn (Column.covers_horizontal _ cs)
        (Column.Taken.horizontal hr _) h
  | call f items, he => .bind (evaluateList_picked hb hn hr items he) fun cs cs' h => by
      refine Column.Picked.many (f := fun cs => Column.align cs >>= f.apply) hn
        (Column.covers_call f cs) (fun hne h => ?_) h
      obtain ⟨halign, halign'⟩ := Column.Taken.align h
      rw [halign, halign']
      exact Function.apply_taken hr f hne h
  | reduce .., he => by cases he
  | countRows _, he => by cases he

theorem evaluateList_picked (hb : b.Rectangular) (hn : 2 ≤ b.rows)
    (hr : ∀ i ∈ rows, i < b.rows) :
    ∀ items : List Expr, allAggregateFree items = true →
      Follows (List.Forall₂ (Column.Picked b.rows rows)) (evaluateList b items)
        (evaluateList (b.gather (rows.map some)) items)
  | [], _ => .ok .nil
  | e :: rest, he => by
      obtain ⟨he, hrest⟩ := Bool.and_eq_true_iff.1 he
      exact .bind (evaluate_picked hb hn hr e he) fun _ _ hhere =>
        .bind (evaluateList_picked hb hn hr rest hrest) fun _ _ hrest =>
          .ok (.cons hhere hrest)

theorem evaluateIn_picked (hb : b.Rectangular) (hn : 2 ≤ b.rows)
    (hr : ∀ i ∈ rows, i < b.rows) :
    ∀ options : List Expr, allAggregateFree options = true →
      ∀ {c c' : Column}, Column.Picked b.rows rows c c' →
      ∀ {found found' : Option Column}, Option.Rel (Column.Picked b.rows rows) found found' →
      Follows (Column.Picked b.rows rows) (evaluateIn b c found options)
        (evaluateIn (b.gather (rows.map some)) c' found' options)
  | [], _, c, c', hc, _, _, hfound => by
      cases hfound with
      | some h => exact .ok h
      | none =>
          rcases hc with hc | ⟨hempty, rfl⟩
          · rw [evaluateIn, evaluateIn, hc.length, hc.length_taken]
            exact .ok (.inl (.of_cells _ (.replicate _)))
          · exact .ok (.inr ⟨List.length_replicate.trans hempty, rfl⟩)
  | e :: rest, he, c, c', hc, _, _, hfound => by
      obtain ⟨he, hrest⟩ := Bool.and_eq_true_iff.1 he
      refine .bind (evaluate_picked hb hn hr e he) fun _ _ hvalue =>
        .bind (hc.operator hn hr _ hvalue) fun _ _ hmatched => ?_
      cases hfound with
      | some h =>
          exact .bind (h.operator hn hr _ hmatched) fun _ _ h =>
            evaluateIn_picked hb hn hr rest hrest hc (.some h)
      | none => exact evaluateIn_picked hb hn hr rest hrest hc (.some hmatched)

end

/-! ## Choices of rows

In a batch of one row or none all rows are the only choice that is considered: there a row
may stand beside no rows. -/

/-- Rows of the batch, and all of them if it has fewer than two. -/
def Choice (b : Batch) (rows : List Nat) : Prop :=
  (∀ i ∈ rows, i < b.rows) ∧ (b.rows < 2 → rows = List.range b.rows)

theorem Choice.all (b : Batch) : Choice b (List.range b.rows) :=
  ⟨fun _ => List.mem_range.1, fun _ => rfl⟩

theorem evaluate_choice (hb : b.Rectangular) (hr : Choice b rows) (e : Expr)
    (he : e.aggregateFree = true) :
    Follows (Column.Picked b.rows rows) (e.evaluate b)
      (e.evaluate (b.gather (rows.map some))) := by
  by_cases hn : 2 ≤ b.rows
  · exact evaluate_picked hb hn hr.1 e he
  · obtain rfl := hr.2 (Nat.lt_of_not_le hn)
    rw [Batch.gather_range hb]
    intro c hc
    refine ⟨c, hc, ?_⟩
    have hheight := atMost_evaluate hb e he c hc
    by_cases hlength : c.length = b.rows
    · obtain ⟨t, f, rfl, -⟩ : Column.Taken _ [] c _ := .of_gather hlength
      exact .inl ⟨t, f, rfl, rfl⟩
    · exact .inr ⟨by omega, rfl⟩

/-- What a reduction is given: the cells of an expression in the rows where the filter
holds. -/
def operand (b : Batch) (e : Expr) : Option Expr → Except Error Column
  | none => e.evaluate b
  | some filter => do
    let c ← e.evaluate b
    let mask ← (← filter.evaluate b).asPredicate b.rows
    c.filter mask

theorem evaluate_reduce (f : Reduction) (e : Expr) (filter : Option Expr) :
    (reduce f e filter).evaluate b = operand b e filter >>= f.apply := by
  cases filter with
  | none => rfl
  | some filter => simp only [evaluate, operand, bind_assoc]

end Expr

theorem Taken.eq_map {α : Type} {n : Nat} {rows : List Nat} {as as' : List α}
    (hr : ∀ i ∈ rows, i < n) (h : Taken n rows as as') (default : α) :
    as' = rows.map fun i => as.getD i default := by
  obtain ⟨f, rfl, rfl⟩ := h
  exact List.map_congr_left fun i hi => by simp [hr i hi]

theorem Column.Taken.eq_map {n : Nat} {rows : List Nat} {c c' : Column}
    (hr : ∀ i ∈ rows, i < n) (h : Column.Taken n rows c c') :
    c' = ⟨c.type, rows.map fun i => c.cells.getD i .null⟩ := by
  rw [← h.cells.eq_map hr, ← h.type_eq]

theorem Column.keep_map (t : Physical) (rows : List Nat) (f : Nat → Cell) (p : Nat → Bool) :
    Column.keep (rows.map p) ⟨t, rows.map f⟩ = ⟨t, (rows.filter p).map f⟩ := by
  rw [keep, List.zip_map', List.filter_map, List.map_map]
  rfl

namespace Expr

variable {b : Batch} {e : Expr} {filter : Option Expr} {c : Column}

/-- What a reduction is given for a choice of rows: of the rows of the choice, those
that a test accepts, each with a cell of its own. Neither the test nor the cells
depend on the choice. -/
theorem operand_choice (hb : b.Rectangular) (he : e.aggregateFree = true)
    (hfilter : ∀ p ∈ filter, p.aggregateFree = true) (h : operand b e filter = .ok c) :
    ∃ (accepts : Nat → Bool) (cell : Nat → Cell), ∀ rows, Choice b rows →
      operand (b.gather (rows.map some)) e filter
        = .ok ⟨c.type, (rows.filter accepts).map cell⟩ := by
  cases filter with
  | none =>
      refine ⟨fun _ => decide (c.length = b.rows), fun i => c.cells.getD i .null,
        fun rows hr => ?_⟩
      obtain ⟨c', hc', hpicked⟩ := evaluate_choice hb hr e he c h
      refine hc'.trans (congrArg Except.ok ?_)
      by_cases hlength : c.length = b.rows
      · rw [(hpicked.taken hr.1 (.inl hlength)).eq_map hr.1,
          List.filter_eq_self.2 fun _ _ => decide_eq_true hlength]
      · obtain ⟨hempty, rfl⟩ := hpicked.resolve_left fun htaken => hlength htaken.length
        rw [List.filter_eq_nil_iff.2 fun _ _ => by simp [hlength], List.map_nil]
        exact congrArg (Column.mk _) (List.length_eq_zero_iff.1 hempty)
  | some filter =>
      obtain ⟨all, hall, h⟩ := bind_eq_ok.1 h
      obtain ⟨p, hp, h⟩ := bind_eq_ok.1 h
      obtain ⟨mask, hmask, h⟩ := bind_eq_ok.1 h
      have hfits : ¬ all.length < mask.length :=
        fun hlt => by rw [Column.filter, if_pos hlt] at h; cases h
      rw [Column.filter, if_neg hfits] at h
      cases h
      refine ⟨fun i => (mask.getD i .null).isTrue, fun i => all.cells.getD i .null,
        fun rows hr => ?_⟩
      obtain ⟨all', hall', hpicked⟩ := evaluate_choice hb hr e he all hall
      obtain ⟨p', hp', hpicked'⟩ := evaluate_choice hb hr filter (hfilter filter rfl) p hp
      obtain ⟨mask', hmask', htaken'⟩ :=
        hpicked'.asPredicate hr.1 (List.length_map _) mask hmask
      have hheight := atMost_evaluate hb e he all hall
      have hlength := htaken'.length
      have htaken := hpicked.taken hr.1 (.inl (by omega))
      refine bind_eq_ok.2
        ⟨all', hall', bind_eq_ok.2 ⟨p', hp', bind_eq_ok.2 ⟨mask', hmask', ?_⟩⟩⟩
      have hheights : ¬ all'.length < mask'.length := by
        rw [htaken.length_taken, htaken'.length_taken]
        exact Nat.lt_irrefl _
      rw [Column.filter, if_neg hheights, htaken.eq_map hr.1,
        htaken'.eq_map hr.1 .null, List.map_map, Column.keep_map]
      rfl

/-- How many rows of a choice a filter accepts. -/
theorem countRows_choice (hb : b.Rectangular)
    (hfilter : ∀ p ∈ filter, p.aggregateFree = true)
    (h : (countRows filter).evaluate b = .ok c) :
    ∃ accepts : Nat → Bool, ∀ rows, Choice b rows →
      (countRows filter).evaluate (b.gather (rows.map some))
        = .ok (Reduction.oneInt (rows.countP accepts)) := by
  cases filter with
  | none =>
      refine ⟨fun _ => true, fun rows _ => ?_⟩
      show Except.ok (Reduction.oneInt (rows.map some).length) = _
      rw [List.length_map, List.countP_true]
  | some filter =>
      obtain ⟨p, hp, h⟩ := bind_eq_ok.1 h
      obtain ⟨mask, hmask, -⟩ := bind_eq_ok.1 h
      refine ⟨fun i => (mask.getD i .null).isTrue, fun rows hr => ?_⟩
      obtain ⟨p', hp', hpicked'⟩ := evaluate_choice hb hr filter (hfilter filter rfl) p hp
      obtain ⟨mask', hmask', htaken'⟩ :=
        hpicked'.asPredicate hr.1 (List.length_map _) mask hmask
      refine bind_eq_ok.2 ⟨p', hp', bind_eq_ok.2 ⟨mask', hmask', ?_⟩⟩
      rw [htaken'.eq_map hr.1 .null, List.countP_map]
      rfl

end Expr

end TypedQuery
