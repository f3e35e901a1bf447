import TypedQuery.Proofs.Columnar.Echoes
import TypedQuery.Proofs.FilteredReductions

/-!
# Metrics without keys

An aggregation without keys gives one row, whatever the batch is, with the first value of
each metric. A metric that reads columns in reductions only should be the same as if it
were computed by itself in a single row, with the values of the reductions put in their
places. It is, where every part of it outside the reductions has a row: a constant has
none in an empty batch, so there a metric that mixes the two either comes to null or is
refused. Two more things are asked. The least and the greatest are refused where a
reduction stands next to a constant, since these differ in height, and a conditional takes
its first case where its condition is null over a slot that holds true, which depends on
how the condition was computed.
-/

namespace TypedQuery

open Column (Echoes)

namespace Expr

variable {b one : Batch} {σ : Expr → Expr}

/-! ## Reductions and what stands in for them -/

def isReduction : Expr → Bool
  | reduce .. | countRows _ => true
  | _ => false

/-- The second batch gives for what stands in for a reduction what the first one
gives for the reduction. -/
def StandsIn (b one : Batch) (σ : Expr → Expr) (x : Expr) : Prop :=
  ∃ c d, x.evaluate b = .ok c ∧ (σ x).evaluate one = .ok d ∧ c.SameData d

mutual

/-- The expression with something else in the place of each reduction. -/
def settled (σ : Expr → Expr) : Expr → Expr
  | column name => column name
  | literal v type => literal v type
  | named e name => named (settled σ e) name
  | cast e type => cast (settled σ e) type
  | unary op e => unary op (settled σ e)
  | binary left op right => binary (settled σ left) op (settled σ right)
  | choose predicate thenExpr otherwise => choose (settled σ predicate) (settled σ thenExpr)
    (settled σ otherwise)
  | fillNull e fill => fillNull (settled σ e) (settled σ fill)
  | fillNan e fill => fillNan (settled σ e) (settled σ fill)
  | isIn e options => isIn (settled σ e) (settledList σ options)
  | between e low high => between (settled σ e) (settled σ low) (settled σ high)
  | coalesce items => coalesce (settledList σ items)
  | least items => least (settledList σ items)
  | greatest items => greatest (settledList σ items)
  | call f items => call f (settledList σ items)
  | reduce f e filter => σ (reduce f e filter)
  | countRows filter => σ (countRows filter)

def settledList (σ : Expr → Expr) : List Expr → List Expr
  | [] => []
  | e :: rest => settled σ e :: settledList σ rest

end

/-! ## Conditions on the parts -/

/-- No condition strays that a case is chosen by, neither over the batch nor in the single
row. -/
def Decided (b one : Batch) (σ : Expr → Expr) (x : Expr) : Prop :=
  ∀ predicate thenExpr otherwise, x = choose predicate thenExpr otherwise →
    (∀ c, predicate.evaluate b = .ok c → ∀ cell ∈ c.cells, cell.strays = false)
      ∧ ∀ d, (predicate.settled σ).evaluate one = .ok d →
        ∀ cell ∈ d.cells, cell.strays = false

/-- What the least or the greatest is chosen from is of one height. -/
def Level (b : Batch) (x : Expr) : Prop :=
  ∀ items cs, x = least items ∨ x = greatest items → evaluateList b items = .ok cs →
    ∀ c ∈ cs, ∀ c' ∈ cs, c.length = c'.length

/-- An expression that is evaluated is level in all its parts. -/
theorem level_of_evaluate {e : Expr} {c : Column} (h : e.evaluate b = .ok c) :
    ∀ x ∈ e.parts b, x.Level b := by
  intro x hx items cs hitems hcs
  obtain ⟨d, hd⟩ := evaluate_of_mem_parts e hx h
  have hlevel (op : Column.Comparison) (hd : Column.horizontal op cs = .ok d) :
      ∀ c ∈ cs, ∀ c' ∈ cs, c.length = c'.length := by
    obtain ⟨-, hlengths⟩ := Column.length_horizontal op cs d hd
    exact fun c hc c' hc' => (hlengths c hc).trans (hlengths c' hc').symm
  rcases hitems with rfl | rfl
  · obtain ⟨cs', hcs', hd⟩ := bind_eq_ok.1 hd
    cases hcs.symm.trans hcs'
    exact hlevel _ hd
  · obtain ⟨cs', hcs', hd⟩ := bind_eq_ok.1 hd
    cases hcs.symm.trans hcs'
    exact hlevel _ hd

/-- What is asked of a part outside the reductions: it has a row, its condition is decided,
and a reduction has a stand-in. -/
def Settles (b one : Batch) (σ : Expr → Expr) (x : Expr) : Prop :=
  x.ownHeight b ≠ some 0 ∧ x.Decided b one σ ∧ (x.isReduction = true → x.StandsIn b one σ)

theorem rows_pos {x : Expr} (h : x.Settles b one σ)
    (hheight : x.ownHeight b = some b.rows) : 0 < b.rows :=
  Nat.pos_of_ne_zero fun hrows => h.1 (hheight.trans (congrArg some hrows))

theorem boolContent_of_not_strays {cell : Cell} (h : cell.strays = false) :
    cell.boolContent = cell.isTrue := by
  rw [Cell.boolContent_eq, h, Bool.or_false]

/-- A reduction is a single row on both sides. -/
theorem mutual_reduction {P : Prop} {x : Expr}
    (hlength : Yields (·.length = 1) (x.evaluate b)) (h : x.StandsIn b one σ) :
    Mutual P (Echoes b.rows) (x.evaluate b) ((σ x).evaluate one) := by
  obtain ⟨c, d, hc, hd, hsame⟩ := h
  rw [hc, hd]
  obtain ⟨cell, hcell⟩ := List.length_eq_one_iff.1 (hlength c hc)
  have hconstant : c = .constant c.type cell 1 := congrArg (Column.mk c.type) hcell
  exact .ok ⟨1, Nat.one_pos, .inr rfl, c.type, cell, hconstant ▸ .refl c,
    hconstant ▸ hsame.symm⟩

mutual

/-- A metric over the batch is the echo of the settled metric in one row. The induction is
on the metric; each operation takes echoes to echoes. -/
theorem mutual_settled (hone : one.rows = 1) :
    ∀ e : Expr, e.rowless = true → (∀ x ∈ e.parts b, x.Settles b one σ) →
    Mutual (∀ x ∈ e.parts b, x.Level b) (Echoes b.rows) (e.evaluate b)
      ((e.settled σ).evaluate one)
  | column _, he, _ => by cases he
  | literal v t, _, h => by
      have hpos := rows_pos (h _ (List.mem_singleton_self _)) rfl
      rw [settled, evaluate, evaluate, hone]
      exact (Echoes.literal hpos v t).always
  | named e _, he, h => by
      simp only [parts, List.forall_mem_cons] at h ⊢
      exact (mutual_settled hone e he h.2).imp And.right
  | cast e t, he, h => by
      simp only [parts, List.forall_mem_cons] at h ⊢
      exact .bind ((mutual_settled hone e he h.2).imp And.right) fun _ _ _ _ hc =>
        (hc.cast _).always
  | unary op e, he, h => by
      simp only [parts, List.forall_mem_cons] at h ⊢
      exact .bind ((mutual_settled hone e he h.2).imp And.right) fun _ _ _ _ hc =>
        (hc.unary op).always
  | binary left op right, he, h => by
      obtain ⟨hl, hr⟩ := Bool.and_eq_true_iff.1 he
      simp only [parts, List.forall_mem_cons, List.forall_mem_append] at h ⊢
      obtain ⟨-, hleft, hright⟩ := h
      exact .bind ((mutual_settled hone left hl hleft).imp (·.2.1)) fun _ _ _ _ hl =>
        .bind ((mutual_settled hone right hr hright).imp (·.2.2)) fun _ _ _ _ hr =>
          (hl.beside (Column.rowByRow_binary op) hr).always
  | choose predicate thenExpr otherwise, he, h => by
      obtain ⟨he, ho⟩ := Bool.and_eq_true_iff.1 he
      obtain ⟨hp, ht⟩ := Bool.and_eq_true_iff.1 he
      simp only [parts, List.forall_mem_cons, List.forall_mem_append] at h ⊢
      obtain ⟨hown, hpredicate, hthen, hotherwise⟩ := h
      have hpos := rows_pos hown rfl
      obtain ⟨hdecided, hdecided'⟩ := hown.2.1 _ _ _ rfl
      refine .bind ((mutual_settled hone predicate hp hpredicate).imp (·.2.1))
        fun p q hp hq hpq => ?_
      have hmask :=
        hpq.asPredicate (fun cell hcell =>
          boolContent_of_not_strays (hdecided p hp cell hcell))
        fun cell hcell => boolContent_of_not_strays (hdecided' q hq cell hcell)
      rw [hone]
      refine .bind hmask.always fun mask mask' _ _ hkeep => ?_
      obtain ⟨keep, hmask, hmask'⟩ := hkeep
      refine .bind ((mutual_settled hone thenExpr ht hthen).imp (·.2.2.1))
        fun _ _ _ _ hl => ?_
      refine .bind ((mutual_settled hone otherwise ho hotherwise).imp (·.2.2.2))
        fun _ _ _ _ hr => ?_
      rw [hmask, hmask']
      exact (hl.select hpos keep hr).always
  | fillNull e fill, he, h => by
      obtain ⟨he, hf⟩ := Bool.and_eq_true_iff.1 he
      simp only [parts, List.forall_mem_cons, List.forall_mem_append] at h ⊢
      obtain ⟨-, hpart, hfill⟩ := h
      exact .bind ((mutual_settled hone e he hpart).imp (·.2.1)) fun _ _ _ _ hc =>
        .bind ((mutual_settled hone fill hf hfill).imp (·.2.2)) fun _ _ _ _ hd =>
          (hc.beside Column.rowByRow_orElse hd).always
  | fillNan e fill, he, h => by
      obtain ⟨he, hf⟩ := Bool.and_eq_true_iff.1 he
      simp only [parts, List.forall_mem_cons, List.forall_mem_append] at h ⊢
      obtain ⟨-, hpart, hfill⟩ := h
      refine .bind ((mutual_settled hone e he hpart).imp (·.2.1)) fun c d hc _ hcd => ?_
      have hdoubles : e.givesDoubles b = decide (c.type = .float64) := by
        rw [givesDoubles, hc]; rfl
      rw [hdoubles] at hfill ⊢
      rw [← hcd.type_eq]
      by_cases htype : c.type = .float64
      · simp only [htype, if_true, decide_true] at hfill ⊢
        exact .bind ((mutual_settled hone fill hf hfill).imp (·.2.2)) fun _ _ _ _ hd =>
          (hcd.beside Column.rowByRow_fillNan hd).always
      · simp only [htype, if_false]
        exact .ok hcd
  | isIn e options, he, h => by
      obtain ⟨he, ho⟩ := Bool.and_eq_true_iff.1 he
      simp only [parts, List.forall_mem_cons, List.forall_mem_append] at h ⊢
      obtain ⟨-, hpart, hoptions⟩ := h
      exact .bind ((mutual_settled hone e he hpart).imp (·.2.1)) fun _ _ _ _ hc =>
        (mutual_settledIn hone options ho hoptions hc .none).imp (·.2.2)
  | between e low high, he, h => by
      obtain ⟨he, hh⟩ := Bool.and_eq_true_iff.1 he
      obtain ⟨he, hl⟩ := Bool.and_eq_true_iff.1 he
      simp only [parts, List.forall_mem_cons, List.forall_mem_append] at h ⊢
      obtain ⟨-, hpart, hlow, hhigh⟩ := h
      refine .bind ((mutual_settled hone e he hpart).imp (·.2.1)) fun _ _ _ _ hc => ?_
      refine .bind ((mutual_settled hone low hl hlow).imp (·.2.2.1)) fun _ _ _ _ hl => ?_
      refine .bind ((mutual_settled hone high hh hhigh).imp (·.2.2.2)) fun _ _ _ _ hh => ?_
      refine .bind (hc.beside (Column.rowByRow_binary _) hl).always fun _ _ _ _ habove => ?_
      refine .bind (hc.beside (Column.rowByRow_binary _) hh).always fun _ _ _ _ hbelow => ?_
      exact (habove.beside (Column.rowByRow_binary _) hbelow).always
  | coalesce items, he, h => by
      simp only [parts, List.forall_mem_cons] at h ⊢
      exact .bind ((mutual_settledList hone items he h.2).imp And.right) fun _ _ _ _ hcs =>
        (Echoes.coalesce hcs).always
  | least items, he, h => by
      simp only [parts, List.forall_mem_cons] at h ⊢
      exact .bind ((mutual_settledList hone items he h.2).imp And.right)
        fun cs _ hcs _ hechoes =>
        (Echoes.horizontal _ hechoes).imp fun hlevel => hlevel.1 items cs (.inl rfl) hcs
  | greatest items, he, h => by
      simp only [parts, List.forall_mem_cons] at h ⊢
      exact .bind ((mutual_settledList hone items he h.2).imp And.right)
        fun cs _ hcs _ hechoes =>
        (Echoes.horizontal _ hechoes).imp fun hlevel => hlevel.1 items cs (.inr rfl) hcs
  | call f items, he, h => by
      simp only [parts, List.forall_mem_cons] at h ⊢
      refine .bind ((mutual_settledList hone items he h.2).imp And.right)
        fun cs _ hcs _ hechoes => ?_
      refine (Echoes.call f (fun hnil => ?_) hechoes).always
      have hitems : items = [] :=
        List.length_eq_zero_iff.1 ((evaluateList_length hcs).symm.trans
          (congrArg List.length hnil))
      subst hitems
      exact h.1.1 rfl
  | reduce f e filter, _, h =>
      mutual_reduction (length_reduce f e filter) ((h _ (List.mem_singleton_self _)).2.2 rfl)
  | countRows filter, _, h =>
      mutual_reduction (length_countRows filter) ((h _ (List.mem_singleton_self _)).2.2 rfl)

theorem mutual_settledList (hone : one.rows = 1) :
    ∀ items : List Expr, allRowless items = true →
    (∀ x ∈ partsOf b items, x.Settles b one σ) →
      Mutual (∀ x ∈ partsOf b items, x.Level b) (List.Forall₂ (Echoes b.rows))
        (evaluateList b items) (evaluateList one (settledList σ items))
  | [], _, _ => .ok .nil
  | e :: rest, he, h => by
      obtain ⟨he, hrest⟩ := Bool.and_eq_true_iff.1 he
      simp only [partsOf, List.forall_mem_append] at h ⊢
      exact .bind ((mutual_settled hone e he h.1).imp And.left) fun _ _ _ _ hc =>
        .bind ((mutual_settledList hone rest hrest h.2).imp And.right) fun _ _ _ _ hcs =>
          .ok (.cons hc hcs)

theorem mutual_settledIn (hone : one.rows = 1) :
    ∀ options : List Expr, allRowless options = true →
    (∀ x ∈ partsOf b options, x.Settles b one σ) → ∀ {c d : Column}, Echoes b.rows c d →
      ∀ {found found' : Option Column}, Option.Rel (Echoes b.rows) found found' →
        Mutual (∀ x ∈ partsOf b options, x.Level b) (Echoes b.rows)
          (evaluateIn b c found options) (evaluateIn one d found' (settledList σ options))
  | [], _, _, c, d, hcd, _, _, hfound => by
      cases hfound with
      | some h => exact .ok h
      | none =>
          obtain ⟨h, hpos, hh, hecho⟩ := hcd
          rw [settledList, evaluateIn, evaluateIn, hecho.length, hecho.length_one]
          exact .ok ⟨h, hpos, hh, _, _, .refl _, .refl _⟩
  | e :: rest, he, h, c, d, hcd, _, _, hfound => by
      obtain ⟨he, hrest⟩ := Bool.and_eq_true_iff.1 he
      simp only [partsOf, List.forall_mem_append] at h ⊢
      refine .bind ((mutual_settled hone e he h.1).imp And.left) fun _ _ _ _ hvalue => ?_
      refine .bind (hcd.beside (Column.rowByRow_binary _) hvalue).always
        fun _ _ _ _ hmatched => ?_
      cases hfound with
      | none =>
          exact (mutual_settledIn hone rest hrest h.2 hcd (.some hmatched)).imp And.right
      | some hfound =>
          exact .bind (hfound.beside (Column.rowByRow_binary _) hmatched).always
            fun _ _ _ _ hnext =>
            (mutual_settledIn hone rest hrest h.2 hcd (.some hnext)).imp And.right

end

/-- The first row of an echo has the data of its single row. -/
theorem sameData_first {n : Nat} {c d : Column} (h : Echoes n c d) :
    Column.SameData ⟨c.type, [c.cells.head?.getD .null]⟩ d := by
  obtain ⟨h, hpos, -, t, a, hc, hd⟩ := h
  suffices hfirst : Column.SameData ⟨c.type, [c.cells.head?.getD .null]⟩ (.constant t a 1)
    from hfirst.trans hd.symm
  refine ⟨hc.1, ?_⟩
  obtain ⟨h, rfl⟩ := Nat.exists_eq_succ_of_ne_zero (Nat.ne_of_gt hpos)
  cases hcells : c.cells with
  | nil =>
      have hlength := hc.length_eq
      rw [Column.length, hcells] at hlength
      cases hlength
  | cons cell rest =>
      have hbare := hc.2
      rw [hcells] at hbare
      exact congrArg (fun cell => [cell]) (List.cons.inj hbare).1

end Expr

/-- Without keys there is one row, with the first value of the metric. -/
theorem Batch.aggregate_metric (b : Batch) (m : Expr) :
    b.aggregate [] [m]
      = (m.evaluate b).map fun c =>
        ⟨1, [(m.outputName, ⟨c.type, [c.cells.head?.getD .null]⟩)]⟩ := by
  cases h : m.evaluate b <;> simp [aggregate, checkNames, reduceAll, reduceGroup, h, bind,
    Except.bind, Except.map]

/-- A metric that reads columns in reductions only comes to one row. If a part of it
outside the reductions has no row, as a constant over an empty batch, its value is null
where it has one. Otherwise, as long as conditions do not stray, it has a value just if
what least and greatest are chosen from is of one height and the metric can be computed in
a single row from the values of its reductions, and then the data is the same. -/
theorem metric_of_settled (b one : Batch) (m : Expr) (σ : Expr → Expr) (hb : b.Rectangular)
    (hone : one.rows = 1) (hm : m.rowless = true)
    (hσ : ∀ x ∈ m.parts b, x.isReduction = true → x.StandsIn b one σ) :
    (0 ∈ m.heights b → ∀ out, b.aggregate [] [m] = .ok out →
      ∃ t, out = ⟨1, [(m.outputName, ⟨t, [.null]⟩)]⟩)
      ∧ (0 ∉ m.heights b → (∀ x ∈ m.parts b, x.Decided b one σ) →
          (∀ out, b.aggregate [] [m] = .ok out → (∀ x ∈ m.parts b, x.Level b)
            ∧ ∃ c d, out = ⟨1, [(m.outputName, c)]⟩ ∧ c.length = 1
              ∧ (m.settled σ).evaluate one = .ok d ∧ c.SameData d)
          ∧ ((∀ x ∈ m.parts b, x.Level b) → ∀ d, (m.settled σ).evaluate one = .ok d →
              ∃ c, b.aggregate [] [m] = .ok ⟨1, [(m.outputName, c)]⟩ ∧ c.length = 1
                ∧ c.SameData d)) := by
  rw [Batch.aggregate_metric]
  refine ⟨fun hzero out hout => ?_, fun hzero hdecided => ?_⟩
  · obtain ⟨c, hc, rfl⟩ := map_eq_ok.1 hout
    have hempty : c.cells = [] := List.length_eq_zero_iff.1
      (((Expr.covers_evaluate hb m c hc).2 0 hzero).resolve_right Nat.zero_ne_one).symm
    exact ⟨c.type, by rw [hempty]; rfl⟩
  · have hsettles : ∀ x ∈ m.parts b, x.Settles b one σ := fun x hx =>
      ⟨fun hheight => hzero (List.mem_filterMap.2 ⟨x, hx, hheight⟩), hdecided x hx, hσ x hx⟩
    obtain ⟨hthere, hback⟩ := Expr.mutual_settled hone m hm hsettles
    constructor
    · intro out hout
      obtain ⟨c, hc, rfl⟩ := map_eq_ok.1 hout
      obtain ⟨d, hd, hechoes⟩ := hthere c hc
      exact ⟨Expr.level_of_evaluate hc, _, d, rfl, rfl, hd, Expr.sameData_first hechoes⟩
    · intro hlevel d hd
      obtain ⟨c, hc, hechoes⟩ := hback hlevel d hd
      exact ⟨_, map_eq_ok.2 ⟨c, hc, rfl⟩, rfl, Expr.sameData_first hechoes⟩

/-- The case that is chosen over two rows: the lesser of a count and a sum, and one more. -/
theorem metric_of_settled_conditional :
    ∃ (b : Batch) (count sum m : Expr) (c : Column),
      b = ⟨2, [("x", ⟨.int64, [.int 7, .null]⟩), ("y", ⟨.int64, [.null, .int 3]⟩)]⟩
        ∧ count = .reduce .count (.column "x") none ∧ sum = .reduce .sum (.column "y") none
        ∧ m = .choose (.equals count (.ofInt 1))
          (.add (.least [sum, count]) (.ofInt 1)) (.ofInt 0)
        ∧ b.aggregate [] [m] = .ok ⟨1, [("x", c)]⟩ ∧ c.SameData ⟨.int64, [.int 2]⟩ := by
  let b : Batch := ⟨2, [("x", ⟨.int64, [.int 7, .null]⟩), ("y", ⟨.int64, [.null, .int 3]⟩)]⟩
  let one : Batch := ⟨1, []⟩
  let count : Expr := .reduce .count (.column "x") none
  let sum : Expr := .reduce .sum (.column "y") none
  let m : Expr :=
    .choose (.equals count (.ofInt 1)) (.add (.least [sum, count]) (.ofInt 1)) (.ofInt 0)
  let σ : Expr → Expr := fun x => if x.outputName = "y" then .ofInt 3 else .ofInt 1
  have hcount : count.StandsIn b one σ :=
    ⟨⟨.int64, [.int 1]⟩, ⟨.int64, [.int 1]⟩, by rfl, by rfl, .refl _⟩
  have hsum : sum.StandsIn b one σ :=
    ⟨⟨.int64, [.int 3]⟩, ⟨.int64, [.int 3]⟩, by rfl, by rfl, .refl _⟩
  have hparts : ∀ x ∈ m.parts b, x.isReduction = true → x.StandsIn b one σ := by
    simpa [m, Expr.parts, Expr.partsOf, Expr.isReduction, Expr.equals, Expr.add, Expr.ofInt,
      Expr.constant, count, sum]
      using And.intro hcount (And.intro hsum hcount)
  have hdecided : ∀ x ∈ m.parts b, x.Decided b one σ := by
    have hmany : (Expr.equals count (.ofInt 1)).evaluate b
      = .ok ⟨.boolean, [.bool true, .bool true]⟩ := by rfl
    have hone : ((Expr.equals count (.ofInt 1)).settled σ).evaluate one
      = .ok ⟨.boolean, [.bool true]⟩ := by rfl
    intro x hx predicate thenExpr otherwise heq
    subst heq
    obtain ⟨rfl, -, -⟩ : predicate = .equals count (.ofInt 1)
        ∧ thenExpr = .add (.least [sum, count]) (.ofInt 1)
        ∧ otherwise = .ofInt 0 := by
      simpa [m, Expr.parts, Expr.partsOf, Expr.equals, Expr.add, Expr.ofInt, Expr.constant,
        count, sum] using hx
    refine ⟨fun c hc => ?_, fun d hd => ?_⟩
    · cases hmany.symm.trans hc
      decide
    · cases hone.symm.trans hd
      decide
  have hlevel : ∀ x ∈ m.parts b, x.Level b := by
    have hitems : Expr.evaluateList b [sum, count]
      = .ok [⟨.int64, [.int 3]⟩, ⟨.int64, [.int 1]⟩] := by rfl
    intro x hx items cs heq hcs
    obtain rfl : items = [sum, count] := by
      rcases heq with rfl | rfl
      · simpa [m, Expr.parts, Expr.partsOf, Expr.equals, Expr.add, Expr.ofInt,
          Expr.constant, count, sum] using hx
      · simp [m, Expr.parts, Expr.partsOf, Expr.equals, Expr.add, Expr.ofInt, Expr.constant,
          count, sum] at hx
    cases hitems.symm.trans hcs
    decide
  have hheights : 0 ∉ m.heights b := by decide
  obtain ⟨-, hmetric⟩ := metric_of_settled b one m σ (by decide) rfl rfl hparts
  obtain ⟨c, hc, -, hsame⟩ :=
    (hmetric hheights hdecided).2 hlevel ⟨.int64, [.int 2]⟩ (by rfl)
  exact ⟨b, count, sum, m, c, rfl, rfl, rfl, rfl, hc, hsame⟩

/-- Over no rows a count and one is null, although the count is nought; and conditions that
compare a count with nought are not combined with a constant. -/
theorem metric_of_nothing :
    ∃ (b one : Batch) (count : Expr),
      b = ⟨0, [("x", ⟨.int64, []⟩)]⟩ ∧ one = ⟨1, []⟩
        ∧ count = .reduce .count (.column "x") none
        ∧ count.evaluate b = .ok ⟨.int64, [.int 0]⟩
        ∧ (Expr.ofInt 0).evaluate one = .ok ⟨.int64, [.int 0]⟩
        ∧ b.aggregate [] [.add count (.ofInt 1)] = .ok ⟨1, [("x", ⟨.int64, [.null]⟩)]⟩
        ∧ (Expr.add (.ofInt 0) (.ofInt 1)).evaluate one = .ok ⟨.int64, [.int 1]⟩
        ∧ b.aggregate []
          [.binary (.equals count (.ofInt 0)) (.logic .and) (.equals count count)]
          = .error (Column.unequalRows 0 1)
        ∧ (Expr.binary (.equals (.ofInt 0) (.ofInt 0)) (.logic .and)
          (.equals (.ofInt 0) (.ofInt 0))).evaluate one
          = .ok ⟨.boolean, [.bool true]⟩ := by
  refine ⟨_, _, _, rfl, rfl, rfl, ?_, ?_, ?_, ?_, ?_, ?_⟩ <;> decide

end TypedQuery
