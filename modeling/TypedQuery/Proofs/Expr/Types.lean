import TypedQuery.Proofs.Columnar.ResultTypes

/-!
# Types of expressions

What type of column an expression gives follows from the types that its parts give, so that
expressions can be typed like terms: one rule for each form, with the types of some parts
as premises. Where the form settles the type by itself there are none. Nothing is said of
an expression that fails.
-/

namespace TypedQuery.Expr

open Column

/-- Where the expression gives a column over the batch, it is of the type. -/
def HasType (b : Batch) (e : Expr) (t : Physical) : Prop :=
  Yields (·.type = t) (e.evaluate b)

namespace HasType

variable {b : Batch} {e f l r p : Expr} {t tl tr u : Physical}
    {es : List Expr} {name : String}

/-! ## Constants and conversions -/

theorem literal {v : Value} {t : DataType} (h : v.isNull = true ∨ t ≠ .null) :
    HasType b (.literal v t) (.ofLogical t) :=
  Literal.type_column h b.rows

/-- A constant of its own type. -/
theorem constant {v : Value} (h : v.isNull = true ∨ v.dataType ≠ .null) :
    HasType b (.constant v) (.ofLogical v.dataType) :=
  literal h

theorem named (h : HasType b e t) : HasType b (.named e name) t := by
  unfold HasType
  rw [evaluate]
  exact h

theorem cast (e : Expr) (t : DataType) : HasType b (.cast e t) (.ofLogical t) := by
  unfold HasType
  rw [evaluate]
  exact .bind_any fun c _ => type_cast c _

/-! ## Operators -/

theorem binary {op : BinaryOp} (hl : HasType b l tl) (hr : HasType b r tr)
    (h : ∀ t, commonType tl tr = .ok t → op.resultType t = u) :
    HasType b (.binary l op r) u := by
  unfold HasType
  rw [evaluate]
  refine .bind hl fun cl hcl => .bind hr fun cr hcr => ?_
  subst hcl hcr
  refine (op.type_apply cl cr).mono ?_
  rintro out ⟨t, ht, hout⟩
  exact hout.trans (h t ht)

/-- An operator that always has the same type of result. -/
theorem binary_of_result {op : BinaryOp} (h : ∀ t, op.resultType t = u) :
    HasType b (.binary l op r) u := by
  unfold HasType
  rw [evaluate]
  refine .bind_any fun cl _ => .bind_any fun cr _ => ?_
  refine (op.type_apply cl cr).mono ?_
  rintro out ⟨t, -, hout⟩
  exact hout.trans (h t)

theorem unary {op : UnaryOp} (he : HasType b e t) (h : op = .abs → t.isNumeric = true) :
    HasType b (.unary op e) (op.resultType t) := by
  unfold HasType
  rw [evaluate]
  refine .bind he fun ce hce => ?_
  subst hce
  exact op.type_apply h

theorem unary_of_result {op : UnaryOp} (hop : op ≠ .abs) (h : ∀ t, op.resultType t = u) :
    HasType b (.unary op e) u := by
  unfold HasType
  rw [evaluate]
  refine .bind_any fun ce _ => ?_
  exact (op.type_apply fun heq => absurd heq hop).mono fun out hout => hout.trans (h _)

/-- Magnitudes of anything but whole numbers are doubles. -/
theorem abs (he : HasType b e t) :
    HasType b (.unary .abs e) (if t.isInteger then t else .float64) := by
  unfold HasType
  rw [evaluate]
  refine .bind he fun ce hce => ?_
  subst hce
  show Yields _ ce.abs
  unfold Column.abs
  split
  · exact type_cast _ _
  · exact type_mapDoubles _ _

/-! ## Choices -/

theorem choose (hl : HasType b l tl) (hr : HasType b r tr)
    (h : ∀ t, commonType tl tr = .ok t → t = u) :
    HasType b (.choose p l r) u := by
  unfold HasType
  rw [evaluate]
  refine .bind_any fun _ _ => .bind_any fun _ _ => .bind hl fun cl hcl =>
    .bind hr fun cr hcr => ?_
  subst hcl hcr
  exact (type_select _ cl cr).mono fun out hout => h _ hout

/-- A choice between columns of one type. -/
theorem choose_same (hl : HasType b l t) (hr : HasType b r t) :
    HasType b (.choose p l r) t :=
  choose hl hr fun u hu => by rw [commonType_self] at hu; exact (Except.ok.inj hu).symm

theorem fillNull (he : HasType b e t) : HasType b (.fillNull e f) t := by
  unfold HasType
  rw [evaluate]
  refine .bind he fun ce hce => .bind_any fun fill _ => ?_
  subst hce
  exact type_orElse ce fill

theorem evaluateIn_type {c : Column} {found : Option Column}
    (hfound : ∀ f ∈ found, f.type = .boolean) :
    Yields (·.type = .boolean) (evaluateIn b c found es) := by
  induction es generalizing found with
  | nil =>
      refine .ok ?_
      cases found with
      | none => rfl
      | some f => exact hfound f rfl
  | cons e rest ih =>
      refine .bind_any fun v _ =>
        .bind (BinaryOp.type_apply _ c v) fun matched hmatched => ?_
      obtain ⟨_, -, hmatched⟩ := hmatched
      cases found with
      | none => exact ih fun f hf => by cases hf; exact hmatched
      | some found =>
          refine .bind (BinaryOp.type_apply _ found matched) fun either heither => ?_
          obtain ⟨_, -, heither⟩ := heither
          exact ih fun f hf => by cases hf; exact heither

theorem isIn : HasType b (.isIn e es) .boolean := by
  unfold HasType
  rw [evaluate]
  exact .bind_any fun ce _ => evaluateIn_type fun f hf => by cases hf

theorem between : HasType b (.between e l r) .boolean := by
  unfold HasType
  rw [evaluate]
  refine .bind_any fun _ _ => .bind_any fun _ _ => .bind_any fun _ _ =>
    .bind_any fun above _ =>
    .bind_any fun below _ => ?_
  refine (BinaryOp.type_apply _ above below).mono ?_
  rintro out ⟨_, -, hout⟩
  exact hout

theorem evaluateList_types {ts : List Physical} (h : List.Forall₂ (HasType b) es ts) :
    Yields (·.map (·.type) = ts) (evaluateList b es) := by
  induction h with
  | nil => exact .ok rfl
  | cons he _ ih =>
      exact .bind he fun c hc => .bind ih fun cs hcs => .ok (by rw [List.map_cons, hc, hcs])

/-- The first of several settles the type. -/
theorem coalesce (h : ∀ e ∈ es.head?, e.HasType b t) : HasType b (.coalesce es) t := by
  unfold HasType
  rw [evaluate]
  cases es with
  | nil => rw [evaluateList]; exact .error _
  | cons e rest =>
      rw [evaluateList]
      refine .bind (P := fun cs => ∃ c more, cs = c :: more ∧ c.type = t)
        (.bind (h e rfl) fun c hc => .bind_any fun more _ => .ok ⟨c, more, rfl, hc⟩) ?_
      rintro _ ⟨c, more, rfl, rfl⟩
      exact type_coalesce c more

/-- The best of several has their types brought together from the left. -/
theorem horizontal {op : Comparison} {ts : List Physical}
    (hes : List.Forall₂ (HasType b) es ts)
    (h : ∀ t rest v, ts = t :: rest → rest.foldlM commonType t = .ok v → v = u) :
    Yields (·.type = u) (evaluateList b es >>= Column.horizontal op) := by
  refine .bind (evaluateList_types hes) fun cs hcs => ?_
  cases cs with
  | nil => exact .error _
  | cons first rest =>
      exact (type_extremeFrom op first rest).mono fun out hout => h _ _ _ hcs.symm hout

theorem greatest {ts : List Physical} (hes : List.Forall₂ (HasType b) es ts)
    (h : ∀ t rest v, ts = t :: rest → rest.foldlM commonType t = .ok v → v = u) :
    HasType b (.greatest es) u := by
  unfold HasType
  rw [evaluate]
  exact horizontal hes h

theorem least {ts : List Physical} (hes : List.Forall₂ (HasType b) es ts)
    (h : ∀ t rest v, ts = t :: rest → rest.foldlM commonType t = .ok v → v = u) :
    HasType b (.least es) u := by
  unfold HasType
  rw [evaluate]
  exact horizontal hes h

/-! ## Functions and reductions -/

theorem call {f : Function} (he : HasType b e t) :
    HasType b (.call f (e :: es)) (f.resultType t) := by
  intro c hc
  rw [evaluate, evaluateList] at hc
  obtain ⟨columns, hcolumns, hc⟩ := bind_eq_ok.1 hc
  obtain ⟨ce, hce, hcolumns⟩ := bind_eq_ok.1 hcolumns
  obtain ⟨rest, -, hcolumns⟩ := bind_eq_ok.1 hcolumns
  cases hcolumns
  obtain ⟨aligned, haligned, hc⟩ := bind_eq_ok.1 hc
  rw [f.type_apply aligned c hc, type_of_broadcastAll _ haligned, List.map_cons,
    List.headD_cons, he ce hce]

/-- Only dates and timestamps are truncated. -/
theorem truncate {unit : String} (he : HasType b e t) (h : t.isTemporal = true → t = u) :
    HasType b (e.callOne (.truncate unit)) u := by
  intro c hc
  rw [callOne, evaluate, evaluateList] at hc
  obtain ⟨columns, hcolumns, hc⟩ := bind_eq_ok.1 hc
  obtain ⟨ce, hce, hcolumns⟩ := bind_eq_ok.1 hcolumns
  obtain ⟨rest, hrest, hcolumns⟩ := bind_eq_ok.1 hcolumns
  rw [evaluateList] at hrest
  cases hrest
  cases hcolumns
  obtain ⟨aligned, haligned, hc⟩ := bind_eq_ok.1 hc
  have htypes := type_of_broadcastAll _ haligned
  obtain ⟨arg, rfl⟩ : ∃ arg, aligned = [arg] :=
    List.length_eq_one_iff.1 (by simpa using congrArg List.length htypes)
  have harg : arg.type = t := (List.cons.inj htypes).1.trans (he ce hce)
  obtain ⟨ts, hts, hc⟩ := bind_eq_ok.1 hc
  obtain ⟨ends, -, hc⟩ := bind_eq_ok.1 hc
  cases hc
  refine harg.trans (h ?_)
  rw [← harg]
  exact isTemporal_of_instants hts

/-- A list of columns of one type. -/
theorem listFromColumns (h : ∀ e ∈ es.head?, e.HasType b t) :
    HasType b (.call .listFromColumns es) (.list t) := by
  cases es with
  | nil =>
      unfold HasType
      rw [evaluate]
      refine .bind_any fun cs hcs => .bind_any fun aligned haligned => ?_
      rw [evaluateList] at hcs
      cases hcs
      cases haligned
      exact .error _
  | cons e rest => exact call (h e rfl)

/-- A function that always has the same type of result. -/
theorem call_of_result {f : Function} (h : ∀ t, f.resultType t = u) :
    HasType b (.call f es) u := by
  unfold HasType
  rw [evaluate]
  exact .bind_any fun cs _ => .bind_any fun aligned _ =>
    (f.type_apply aligned).mono fun out hout =>
    hout.trans (h _)

theorem reduce {f : Reduction} {filter : Option Expr} (he : HasType b e t) :
    HasType b (.reduce f e filter) (f.resultType t) := by
  unfold HasType
  cases filter with
  | none =>
      rw [evaluate]
      refine .bind he fun ce hce => ?_
      subst hce
      exact f.type_apply ce
  | some filter =>
      rw [evaluate]
      refine .bind he fun ce hce => .bind_any fun _ _ => .bind_any fun mask _ =>
        .bind (P := (·.type = t)) ?_ fun kept hkept => ?_
      · unfold Column.filter
        split
        · exact .error _
        · exact .ok hce
      · subst hkept
        exact f.type_apply kept

theorem reduce_of_result {f : Reduction} {filter : Option Expr}
    (h : ∀ t, f.resultType t = u) :
    HasType b (.reduce f e filter) u := by
  unfold HasType
  cases filter with
  | none =>
      rw [evaluate]
      exact .bind_any fun ce _ => (f.type_apply ce).mono fun out hout => hout.trans (h _)
  | some filter =>
      rw [evaluate]
      exact .bind_any fun _ _ => .bind_any fun _ _ => .bind_any fun _ _ =>
        .bind_any fun kept _ =>
        (f.type_apply kept).mono fun out hout => hout.trans (h _)

theorem countRows {filter : Option Expr} : HasType b (.countRows filter) .int64 := by
  unfold HasType
  cases filter with
  | none => rw [evaluate]; exact .ok rfl
  | some filter => rw [evaluate]; exact .bind_any fun _ _ => .bind_any fun _ _ => .ok rfl

end HasType

end TypedQuery.Expr
