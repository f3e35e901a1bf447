import TypedQuery.Proofs.RowLocality

/-!
# Columns with one value

An expression that reads no column outside a reduction cannot tell the rows of a batch
apart, so it gives the same cell in every row. What is carried through the evaluation is
that all cells of a column are equal, whatever its height is: a reduction gives a single
row and a constant as many as the batch has, and an operator may be given one of each.

Where the operands have one height anyway, an operation on a column with one value is
an operation on some of its rows, each of them the first one, so the lemmas about
chosen rows apply (`Column.uniform_of_follows`). Only operations that repeat a single
row are followed by themselves.
-/

namespace TypedQuery

variable {ε α β γ : Type}

/-- All items are equal. -/
def Alike (xs : List α) : Prop := ∀ a ∈ xs, ∀ b ∈ xs, a = b

namespace Alike

variable {xs : List α} {ys : List β}

theorem replicate (n : Nat) (a : α) : Alike (List.replicate n a) := by
  intro x hx y hy
  rw [List.eq_of_mem_replicate hx, List.eq_of_mem_replicate hy]

theorem eq_replicate (h : Alike xs) (default : α) :
    xs = List.replicate xs.length (xs.head?.getD default) := by
  cases xs with
  | nil => rfl
  | cons a rest =>
      show a :: rest = List.replicate (rest.length + 1) a
      exact List.eq_replicate_iff.2 ⟨rfl, fun b hb => h b hb a List.mem_cons_self⟩

theorem map (g : α → β) (h : Alike xs) : Alike (xs.map g) := by
  intro x hx y hy
  obtain ⟨a, ha, rfl⟩ := List.mem_map.1 hx
  obtain ⟨b, hb, rfl⟩ := List.mem_map.1 hy
  rw [h a ha b hb]

theorem zip (hx : Alike xs) (hy : Alike ys) : Alike (xs.zip ys) := by
  rintro ⟨a, b⟩ hab ⟨a', b'⟩ hab'
  rw [hx a (List.of_mem_zip hab).1 a' (List.of_mem_zip hab').1,
    hy b (List.of_mem_zip hab).2 b' (List.of_mem_zip hab').2]

theorem zipWith (g : α → β → γ) (hx : Alike xs) (hy : Alike ys) :
    Alike (List.zipWith g xs ys) := by
  rw [← List.map_uncurry_zip_eq_zipWith]
  exact (hx.zip hy).map _

/-- A step for each item does the same to all of them. -/
theorem mapM (f : α → Except ε β) (h : Alike xs) : Yields Alike (xs.mapM f) := by
  intro out hout x hx y hy
  obtain ⟨a, ha, hax⟩ := exists_of_forall₂_right (mapM_eq_ok.1 hout) hx
  obtain ⟨b, hb, hby⟩ := exists_of_forall₂_right (mapM_eq_ok.1 hout) hy
  rw [h a ha b hb, hby] at hax
  exact (Except.ok.inj hax).symm

end Alike

namespace Column

/-- One value in every row. -/
abbrev Uniform (c : Column) : Prop := Alike c.cells

variable {n : Nat} {c l r : Column}

/-! ## The first row over and over -/

theorem lt_of_mem_firsts {i : Nat} (h : i ∈ List.replicate n 0) : i < n := by
  obtain ⟨hn, rfl⟩ := List.mem_replicate.1 h
  omega

theorem Uniform.taken (h : c.Uniform) (hn : c.length = n) :
    Column.Taken n (List.replicate n 0) c c := by
  obtain ⟨t, cells⟩ := c
  subst hn
  have hcells : cells = List.replicate cells.length (cells.head?.getD .null) :=
    h.eq_replicate .null
  refine ⟨t, fun _ => cells.head?.getD .null, ?_, ?_⟩
  · rw [List.map_const', List.length_range]
    exact congrArg (Column.mk t) hcells
  · rw [List.map_replicate]
    exact congrArg (Column.mk t) hcells

theorem Taken.uniform {c' : Column} (h : Column.Taken n (List.replicate n 0) c c') :
    c'.Uniform := by
  obtain ⟨t, f, rfl, rfl⟩ := h
  show Alike ((List.replicate n 0).map f)
  exact (Alike.replicate n 0).map f

/-- What is done row by row to a column with one value gives one. -/
theorem uniform_of_follows {x : Except Error Column}
    (h : Follows (Column.Taken n (List.replicate n 0)) x x) :
    Yields Uniform x := by
  intro c hc
  obtain ⟨c', hc', htaken⟩ := h c hc
  cases hc.symm.trans hc'
  exact htaken.uniform

theorem Uniform.forall_taken {cs : List Column} (h : ∀ c ∈ cs, c.Uniform)
    (hn : ∀ c ∈ cs, c.length = n) :
    List.Forall₂ (Column.Taken n (List.replicate n 0)) cs cs :=
  List.forall₂_same.2 fun c hc => (h c hc).taken (hn c hc)

namespace Uniform

variable {cs : List Column} {mask : List Bool}

theorem unary (op : UnaryOp) (h : c.Uniform) : Yields Uniform (op.apply c) :=
  uniform_of_follows ((h.taken rfl).unary (fun _ hi => lt_of_mem_firsts hi) op)

theorem cast (h : c.Uniform) (target : Physical) : Yields Uniform (c.cast target) :=
  uniform_of_follows ((h.taken rfl).cast (fun _ hi => lt_of_mem_firsts hi) target)

/-! ## Heights and types -/

theorem broadcast (h : c.Uniform) (rows : Nat) : Yields Uniform (c.broadcast rows) := by
  unfold Column.broadcast
  split
  · exact .ok h
  · split
    · exact .ok (Alike.replicate rows _)
    · exact .error _

theorem coerce (hl : l.Uniform) (hr : r.Uniform) :
    Yields (fun p => p.1.Uniform ∧ p.2.Uniform) (Column.coerce l r) :=
  .bind_any fun t _ => .bind (hl.cast t) fun _ hl =>
    .bind (hr.cast t) fun _ hr => .ok ⟨hl, hr⟩

/-! ## Two columns side by side -/

theorem pairs (hl : l.Uniform) (hr : r.Uniform) : Yields Alike (Column.pairs l r) := by
  unfold Column.pairs
  split
  · exact .ok ((Alike.zip hl hr).map some)
  · split
    · exact .ok (Alike.map _ hr)
    · exact .ok (Alike.map _ hl)
    · exact .error _

theorem computed (t : Physical) {x : Except ComputeFailure (List Cell)}
    (h : Yields Alike x) :
    Yields Uniform (Column.computed t x) := by
  cases x with
  | ok cells => exact .ok (h cells rfl)
  | error failure => exact .error _

theorem arithmetic (op : Arithmetic) (hl : l.Uniform) (hr : r.Uniform) :
    Yields Uniform (Column.arithmetic op l r) := by
  refine .bind (hl.pairs hr) fun rows hrows => ?_
  split
  · exact computed _ (rowwise_eq_mapM _ rows ▸ hrows.mapM _)
  · exact computed _ (rowwise_eq_mapM _ rows ▸ hrows.mapM _)
  · exact .ok (hrows.map _)
  · exact .error _

theorem power (hl : l.Uniform) (hr : r.Uniform) : Yields Uniform (Column.power l r) := by
  unfold Column.power
  refine .bind (hl.cast _) fun base hbase => .bind (hr.cast _) fun exponent hexponent => ?_
  refine .bind (hbase.broadcast _) fun _ hbase =>
    .bind (hexponent.broadcast _) fun _ hexponent => ?_
  exact .ok (((hbase.zip hexponent).map _).map _)

theorem compare (op : Comparison) (hl : l.Uniform) (hr : r.Uniform) :
    Yields Uniform (Column.compare op l r) := by
  refine .bind (hl.pairs hr) fun rows hrows => ?_
  split
  · exact .error _
  · exact .ok (hrows.map _)

theorem condition (h : c.Uniform) : Yields Alike c.condition := by
  unfold Column.condition
  split
  · exact .ok h
  · exact .error _

theorem logic (op : Logic) (hl : l.Uniform) (hr : r.Uniform) :
    Yields Uniform (Column.logic op l r) := by
  unfold Column.logic
  refine .bind (hl.broadcast _) fun _ hl => .bind hl.condition fun _ hls => ?_
  refine .bind (hr.broadcast _) fun _ hr => .bind hr.condition fun _ hrs => ?_
  exact .ok (hls.zipWith _ hrs)

theorem bitwise (op : Bitwise) (hl : l.Uniform) (hr : r.Uniform) :
    Yields Uniform (Column.bitwise op l r) := by
  unfold Column.bitwise
  refine .bind (hl.broadcast _) fun _ hl => .bind (hl.cast _) fun _ hls => ?_
  refine .bind (hr.broadcast _) fun _ hr => .bind (hr.cast _) fun _ hrs => ?_
  exact .ok (hls.zipWith _ hrs)

theorem binary (op : BinaryOp) (hl : l.Uniform) (hr : r.Uniform) :
    Yields Uniform (op.apply l r) := by
  refine .bind (hl.coerce hr) fun p hp => ?_
  obtain ⟨hl, hr⟩ := hp
  cases op with
  | arithmetic op => exact hl.arithmetic op hr
  | power => exact hl.power hr
  | compare op => exact hl.compare op hr
  | logic op => exact hl.logic op hr
  | bitwise op => exact hl.bitwise op hr

/-! ## Choices -/

theorem mem_choose {as bs : List Cell} {x : Cell} (h : x ∈ Column.choose mask as bs) :
    ∃ m ∈ mask, ∃ a ∈ as, ∃ b ∈ bs, x = if m then a else b := by
  induction mask generalizing as bs with
  | nil => cases h
  | cons m mask ih =>
      cases as with
      | nil => cases h
      | cons a as =>
          cases bs with
          | nil => cases h
          | cons b bs =>
              rcases List.mem_cons.1 h with rfl | h
              · exact ⟨m, List.mem_cons_self, a, List.mem_cons_self, b,
                  List.mem_cons_self, rfl⟩
              · obtain ⟨m', hm, a', ha, b', hb, hx⟩ := ih h
                exact ⟨m', List.mem_cons_of_mem _ hm, a', List.mem_cons_of_mem _ ha, b',
                  List.mem_cons_of_mem _ hb, hx⟩

theorem choose {as bs : List Cell} (hm : Alike mask) (ha : Alike as) (hb : Alike bs) :
    Alike (Column.choose mask as bs) := by
  intro x hx y hy
  obtain ⟨m, hmem, a, hamem, b, hbmem, rfl⟩ := mem_choose hx
  obtain ⟨m', hmem', a', hamem', b', hbmem', rfl⟩ := mem_choose hy
  rw [hm m hmem m' hmem', ha a hamem a' hamem', hb b hbmem b' hbmem']

theorem select (hm : Alike mask) (hl : l.Uniform) (hr : r.Uniform) :
    Yields Uniform (Column.select mask l r) := by
  unfold Column.select
  have hmask : (Column.bools (mask.map some)).Uniform := (hm.map some).map _
  refine .bind (hmask.broadcast _) fun _ hmask => .bind (hl.coerce hr) fun p hp => ?_
  refine .bind (hp.1.broadcast _) fun _ ha => .bind (hp.2.broadcast _) fun _ hb => ?_
  exact .ok (choose (hmask.map _) ha hb)

theorem orElse (hl : l.Uniform) (hr : r.Uniform) : Yields Uniform (l.orElse r) :=
  .bind (hr.cast _) fun _ hr => select ((Alike.map _ hl).map _) hl hr

theorem fillNan (hl : l.Uniform) (hr : r.Uniform) : Yields Uniform (l.fillNan r) :=
  .bind (hr.cast _) fun _ hr => select (Alike.map _ hl) hl hr

theorem asPredicate (h : c.Uniform) (rows : Nat) : Yields Alike (c.asPredicate rows) := by
  refine .bind (h.broadcast rows) fun _ h => ?_
  split
  · exact .ok h
  · exact .error _

theorem better (op : Comparison) (hl : l.Uniform) (hr : r.Uniform) :
    Yields Uniform (Column.better op l r) := by
  refine .bind (hl.coerce hr) fun p hp => ?_
  obtain ⟨hl, hr⟩ := hp
  refine .bind (hl.compare op hr) fun _ hcompared => ?_
  split
  · exact select ((Alike.zip hl (Alike.zip hr hcompared)).map _) hl hr
  · exact .error _

/-! ## Several columns -/

theorem coalesce (h : ∀ c ∈ cs, c.Uniform) : Yields Uniform (Column.coalesce cs) := by
  induction cs with
  | nil => exact .error _
  | cons c rest ih =>
      obtain ⟨hc, hrest⟩ := List.forall_mem_cons.1 h
      cases rest with
      | nil => exact .ok hc
      | cons next more => exact .bind (ih hrest) fun _ hd => hc.orElse hd

theorem extremeFrom (op : Comparison) (h : ∀ c ∈ cs, c.Uniform) (hcurrent : c.Uniform) :
    Yields Uniform (Column.extremeFrom op c cs) := by
  induction cs generalizing c with
  | nil => exact .ok hcurrent
  | cons next rest ih =>
      obtain ⟨hnext, hrest⟩ := List.forall_mem_cons.1 h
      exact .bind (hcurrent.better op hnext) fun _ hbetter => ih hrest hbetter

theorem horizontal (op : Comparison) (h : ∀ c ∈ cs, c.Uniform) :
    Yields Uniform (Column.horizontal op cs) := by
  cases cs with
  | nil => exact .error _
  | cons c rest =>
      obtain ⟨hc, hrest⟩ := List.forall_mem_cons.1 h
      exact extremeFrom op hrest hc

theorem broadcastAll (rows : Nat) (h : ∀ c ∈ cs, c.Uniform) :
    Yields (fun out => (∀ c ∈ out, c.Uniform) ∧ ∀ c ∈ out, c.length = rows)
      (Column.broadcastAll rows cs) := by
  induction cs with
  | nil =>
      exact .ok ⟨fun _ hc => absurd hc List.not_mem_nil,
        fun _ hc => absurd hc List.not_mem_nil⟩
  | cons c rest ih =>
      obtain ⟨hc, hrest⟩ := List.forall_mem_cons.1 h
      refine .bind_any fun here hhere => .bind (ih hrest) fun after hafter => .ok ⟨?_, ?_⟩
      · exact List.forall_mem_cons.2 ⟨hc.broadcast rows here hhere, hafter.1⟩
      · exact List.forall_mem_cons.2 ⟨Batch.length_broadcast hhere, hafter.2⟩

/-- A function takes columns of one height, so it is followed through its first row.
Without any column there is no row at all. -/
theorem call (f : Function) (h : ∀ c ∈ cs, c.Uniform) :
    Yields Uniform (Column.align cs >>= f.apply) := by
  refine .bind (broadcastAll _ h) fun aligned haligned => ?_
  cases aligned with
  | nil =>
      cases f with
      | concat separator => exact .ok fun _ hx => absurd hx List.not_mem_nil
      | _ => exact .error _
  | cons c rest =>
      have htaken := forall_taken haligned.1 haligned.2
      exact uniform_of_follows (Function.apply_taken (fun _ hi => lt_of_mem_firsts hi) f
        (List.cons_ne_nil _ _) htaken)

/-! ## Constants and reductions -/

theorem literal (v : Value) (t : DataType) (rows : Nat) :
    Yields Uniform (Literal.column v t rows) := by
  unfold Literal.column
  dsimp only
  split
  · exact .ok (Alike.replicate rows _)
  · refine .bind_any fun stored _ => ?_
    have hconstant : (Column.constant stored.1 stored.2 rows).Uniform :=
      Alike.replicate rows _
    split
    · exact .ok hconstant
    · exact hconstant.cast _

end Uniform

/-- A reduction leaves a single row. -/
theorem length_reduced (f : Reduction) (c : Column) : Yields (·.length = 1) (f.apply c) := by
  have hextreme (greatest : Bool) :
      Yields (·.length = 1) (Reduction.extreme greatest c) := by
    unfold Reduction.extreme
    split
    · exact .ok rfl
    · split
      · exact .error _
      · exact .ok rfl
  cases f with
  | count | countDistinct | collect => exact .ok rfl
  | sum =>
      rw [Reduction.apply]
      split
      · exact .bind_any fun _ _ => .ok rfl
      · exact .bind_any fun _ _ => .ok rfl
  | min | max => exact hextreme _
  | mean | median | std | variance => exact .bind_any fun _ _ => .ok rfl

theorem uniform_of_length (h : c.length = 1) : c.Uniform := by
  obtain ⟨cell, hcell⟩ := List.length_eq_one_iff.1 h
  rw [Uniform, hcell]
  exact Alike.replicate 1 cell

end Column

/-! ## Evaluation -/

namespace Expr

mutual

/-- No column is read outside a reduction. -/
def rowless : Expr → Bool
  | column _ => false
  | literal .. | reduce .. | countRows _ => true
  | named e _ | cast e _ | unary _ e => rowless e
  | binary a _ b | fillNull a b | fillNan a b => rowless a && rowless b
  | choose a b c | between a b c => rowless a && rowless b && rowless c
  | isIn e items => rowless e && allRowless items
  | coalesce items | least items | greatest items | call _ items => allRowless items

def allRowless : List Expr → Bool
  | [] => true
  | e :: rest => rowless e && allRowless rest

end

open Column (Uniform)

mutual

/-- What an expression gives that reads no rows is the same in all of them. -/
theorem uniform_evaluate (b : Batch) :
    ∀ e : Expr, e.rowless = true → Yields Uniform (e.evaluate b)
  | column _, he => by cases he
  | literal v t, _ => .literal v t b.rows
  | named e _, he => uniform_evaluate b e he
  | cast e t, he => .bind (uniform_evaluate b e he) fun _ hc => hc.cast _
  | unary op e, he => .bind (uniform_evaluate b e he) fun _ hc => hc.unary op
  | binary left op right, he => by
      obtain ⟨hl, hr⟩ := Bool.and_eq_true_iff.1 he
      exact .bind (uniform_evaluate b left hl) fun _ hl =>
        .bind (uniform_evaluate b right hr) fun _ hr => hl.binary op hr
  | choose predicate thenExpr otherwise, he => by
      obtain ⟨he, ho⟩ := Bool.and_eq_true_iff.1 he
      obtain ⟨hp, ht⟩ := Bool.and_eq_true_iff.1 he
      exact .bind (uniform_evaluate b predicate hp) fun _ hp =>
        .bind (hp.asPredicate _) fun _ hmask =>
        .bind (uniform_evaluate b thenExpr ht) fun _ ht =>
          .bind (uniform_evaluate b otherwise ho) fun _ ho =>
        .select (hmask.map _) ht ho
  | fillNull e fill, he => by
      obtain ⟨he, hf⟩ := Bool.and_eq_true_iff.1 he
      exact .bind (uniform_evaluate b e he) fun _ hc =>
        .bind (uniform_evaluate b fill hf) fun _ hf => hc.orElse hf
  | fillNan e fill, he => by
      obtain ⟨he, hf⟩ := Bool.and_eq_true_iff.1 he
      refine .bind (uniform_evaluate b e he) fun _ hc => ?_
      split
      · exact .bind (uniform_evaluate b fill hf) fun _ hf => hc.fillNan hf
      · exact .ok hc
  | isIn e options, he => by
      obtain ⟨he, ho⟩ := Bool.and_eq_true_iff.1 he
      exact .bind (uniform_evaluate b e he) fun _ hc =>
        uniform_evaluateIn b options ho hc fun _ hfound => by cases hfound
  | between e low high, he => by
      obtain ⟨he, hh⟩ := Bool.and_eq_true_iff.1 he
      obtain ⟨he, hl⟩ := Bool.and_eq_true_iff.1 he
      exact .bind (uniform_evaluate b e he) fun _ hc =>
        .bind (uniform_evaluate b low hl) fun _ hl =>
        .bind (uniform_evaluate b high hh) fun _ hh => .bind (hc.binary _ hl) fun _ habove =>
        .bind (hc.binary _ hh) fun _ hbelow => habove.binary _ hbelow
  | coalesce items, he => .bind (uniform_evaluateList b items he) fun _ hcs => .coalesce hcs
  | least items, he => .bind (uniform_evaluateList b items he) fun _ hcs => .horizontal _ hcs
  | greatest items, he => .bind (uniform_evaluateList b items he) fun _ hcs =>
    .horizontal _ hcs
  | call f items, he => .bind (uniform_evaluateList b items he) fun _ hcs => .call f hcs
  | reduce f e none, _ => .bind_any fun c _ => (Column.length_reduced f c).mono fun _ =>
    Column.uniform_of_length
  | reduce f e (some filter), _ => .bind_any fun _ _ => .bind_any fun _ _ =>
    .bind_any fun _ _ =>
      .bind_any fun c _ => (Column.length_reduced f c).mono fun _ => Column.uniform_of_length
  | countRows none, _ => .ok (Column.uniform_of_length rfl)
  | countRows (some filter), _ => .bind_any fun _ _ => .bind_any fun _ _ => .ok
    (Column.uniform_of_length rfl)

theorem uniform_evaluateList (b : Batch) : ∀ items : List Expr, allRowless items = true →
    Yields (∀ c ∈ ·, c.Uniform) (evaluateList b items)
  | [], _ => .ok fun _ hc => absurd hc List.not_mem_nil
  | e :: rest, he => by
      obtain ⟨he, hrest⟩ := Bool.and_eq_true_iff.1 he
      exact .bind (uniform_evaluate b e he) fun _ hhere =>
        .bind (uniform_evaluateList b rest hrest) fun _ hafter =>
        .ok (List.forall_mem_cons.2 ⟨hhere, hafter⟩)

theorem uniform_evaluateIn (b : Batch) : ∀ options : List Expr, allRowless options = true →
    ∀ {c : Column}, c.Uniform → ∀ {found : Option Column}, (∀ d ∈ found, d.Uniform) →
      Yields Uniform (evaluateIn b c found options)
  | [], _, c, _, none, _ => .ok (Alike.replicate c.length _)
  | [], _, _, _, some found, hfound => .ok (hfound found rfl)
  | e :: rest, he, c, hc, found, hfound => by
      obtain ⟨he, hrest⟩ := Bool.and_eq_true_iff.1 he
      refine .bind (uniform_evaluate b e he) fun _ hvalue =>
        .bind (hc.binary _ hvalue) fun matched hmatched => ?_
      cases found with
      | none =>
          exact uniform_evaluateIn b rest hrest hc fun _ hd => by cases hd; exact hmatched
      | some found =>
          refine .bind ((hfound found rfl).binary _ hmatched) fun _ hnext => ?_
          exact uniform_evaluateIn b rest hrest hc fun _ hd => by cases hd; exact hnext

end

end Expr

end TypedQuery
