import TypedQuery.Proofs.Columnar.Coerced

/-!
# Types of results

The type of the column that an operation gives is settled by the types of the columns that
it is given, whatever their cells are. One lemma for each operation tells the type of its
result, where there is one.
-/

namespace TypedQuery

namespace Column

variable {c l r : Column} {t : Physical}

/-! ## Conversions and operators -/

theorem type_broadcast (c : Column) (rows : Nat) :
    Yields (·.type = c.type) (c.broadcast rows) := by
  unfold broadcast
  split
  · exact .ok rfl
  · split
    · exact .ok rfl
    · exact .error _

theorem type_coerce (l r : Column) :
    Yields (fun p => commonType l.type r.type = .ok p.1.type
      ∧ p.2.type = p.1.type) (l.coerce r) :=
  .bind_any fun t ht => .bind (type_cast l t) fun _ hl => .bind (type_cast r t) fun _ hr =>
    .ok ⟨ht.trans (congrArg _ hl.symm), hr.trans hl.symm⟩

theorem type_computed (t : Physical) (x : Except ComputeFailure (List Cell)) :
    Yields (·.type = t) (computed t x) := by
  cases x with
  | error => exact .error _
  | ok cells => exact .ok rfl

theorem type_arithmetic (op : Arithmetic) (l r : Column) :
    Yields (·.type = l.type) (arithmetic op l r) := by
  refine .bind_any fun rows _ => ?_
  split
  · next h => exact (type_computed _ _).mono fun _ ht => ht.trans h.symm
  · next h => exact (type_computed _ _).mono fun _ ht => ht.trans h.symm
  · next h => exact .ok h.symm
  · exact .error _

theorem type_power (l r : Column) : Yields (·.type = .float64) (power l r) :=
  .bind_any fun _ _ => .bind_any fun _ _ => .bind_any fun _ _ => .bind_any fun _ _ => .ok rfl

theorem type_compare (op : Comparison) (l r : Column) :
    Yields (·.type = .boolean) (compare op l r) := by
  refine .bind_any fun rows _ => ?_
  split
  · exact .error _
  · exact .ok rfl

theorem type_logic (op : Logic) (l r : Column) : Yields (·.type = .boolean) (logic op l r) :=
  .bind_any fun _ _ => .bind_any fun _ _ => .bind_any fun _ _ => .bind_any fun _ _ => .ok rfl

theorem type_bitwise (op : Bitwise) (l r : Column) :
    Yields (·.type = .int64) (bitwise op l r) :=
  .bind_any fun _ _ => .bind_any fun _ _ => .bind_any fun _ _ => .bind_any fun _ _ => .ok rfl

theorem type_mapDoubles (f : Double → Double) (c : Column) :
    Yields (·.type = .float64) (c.mapDoubles f) :=
  .bind_any fun _ _ => .ok rfl

theorem type_floatTest (f : Double → Bool) (c : Column) :
    Yields (·.type = .boolean) (c.floatTest f) :=
  .bind_any fun _ _ => .ok rfl

theorem type_negate (c : Column) : Yields (·.type = c.type) c.negate := by
  unfold negate
  split
  · next h => exact (type_computed _ _).mono fun _ ht => ht.trans h.symm
  · next h => exact (type_computed _ _).mono fun _ ht => ht.trans h.symm
  · next h => exact .ok h.symm
  · exact .error _

theorem type_abs (h : c.type.isNumeric = true) : Yields (·.type = c.type) c.abs := by
  unfold abs
  split
  · exact type_cast _ _
  · next hint =>
      have hfloat : c.type = .float64 := by
        cases htype : c.type <;> simp_all [Physical.isNumeric, Physical.isInteger]
      exact (type_mapDoubles _ _).mono fun _ ht => ht.trans hfloat.symm

theorem type_sign (c : Column) : Yields (·.type = c.type) c.sign :=
  .bind_any fun _ _ => type_cast _ _

end Column

/-! ## Binary and unary operators -/

namespace BinaryOp

/-- The type of what an operator gives on columns whose common type is given. -/
def resultType : BinaryOp → Physical → Physical
  | arithmetic _, t => t
  | power, _ => .float64
  | compare _, _ | logic _, _ => .boolean
  | bitwise _, _ => .int64

theorem type_apply (op : BinaryOp) (l r : Column) :
    Yields (fun out => ∃ t, Column.commonType l.type r.type = .ok t
      ∧ out.type = op.resultType t) (op.apply l r) := by
  refine .bind (Column.type_coerce l r) fun p hp => ?_
  cases op with
  | arithmetic op => exact (Column.type_arithmetic op _ _).mono fun _ h => ⟨_, hp.1, h⟩
  | power => exact (Column.type_power _ _).mono fun _ h => ⟨_, hp.1, h⟩
  | compare op => exact (Column.type_compare op _ _).mono fun _ h => ⟨_, hp.1, h⟩
  | logic op => exact (Column.type_logic op _ _).mono fun _ h => ⟨_, hp.1, h⟩
  | bitwise op => exact (Column.type_bitwise op _ _).mono fun _ h => ⟨_, hp.1, h⟩

end BinaryOp

namespace UnaryOp

/-- The type of what an operator gives on a column of numbers. -/
def resultType : UnaryOp → Physical → Physical
  | negate, t | abs, t | sign, t => t
  | not, _ | isNull, _ | isNotNull, _ | isNan, _ | isInfinite, _ => .boolean
  | complement, _ => .int64
  | _, _ => .float64

theorem type_apply (op : UnaryOp) {c : Column} (h : op = .abs → c.type.isNumeric = true) :
    Yields (·.type = op.resultType c.type) (op.apply c) := by
  cases op with
  | negate => exact Column.type_negate c
  | not => exact .bind_any fun _ _ => .ok rfl
  | complement => exact .bind_any fun _ _ => .ok rfl
  | isNull | isNotNull => exact .ok rfl
  | isNan | isInfinite => exact Column.type_floatTest _ c
  | abs => exact Column.type_abs (h rfl)
  | sign => exact Column.type_sign c
  | _ => exact Column.type_mapDoubles _ c

end UnaryOp

/-! ## Choices -/

namespace Column

variable {c l r : Column} {t : Physical} {cs : List Column}

theorem type_select (mask : List Bool) (l r : Column) :
    Yields (fun out => commonType l.type r.type = .ok out.type) (select mask l r) := by
  refine .bind_any fun _ _ => .bind (type_coerce l r) fun p hp => ?_
  refine .bind (type_broadcast p.1 _) fun a ha => .bind_any fun b _ => .ok ?_
  exact hp.1.trans (congrArg _ ha.symm)

/-- What stands in for nulls takes the type of the column. -/
theorem type_orElse (c fill : Column) : Yields (·.type = c.type) (c.orElse fill) := by
  refine .bind (type_cast fill c.type) fun fill hfill => ?_
  refine (type_select _ c fill).mono fun out hout => ?_
  rw [hfill, commonType_self] at hout
  exact (Except.ok.inj hout).symm

theorem type_coalesce (c : Column) (rest : List Column) :
    Yields (·.type = c.type) (coalesce (c :: rest)) := by
  cases rest with
  | nil => exact .ok rfl
  | cons next rest => exact .bind_any fun _ _ => type_orElse _ _

theorem type_better (op : Comparison) (l r : Column) :
    Yields (fun out => commonType l.type r.type = .ok out.type) (better op l r) := by
  refine .bind (type_coerce l r) fun p hp => .bind_any fun _ _ => ?_
  simp only []
  split
  · refine (type_select _ p.1 p.2).mono fun out hout => ?_
    rw [hp.2, commonType_self] at hout
    exact hp.1.trans hout
  · exact .error _

/-- The common type of several types, taken one after the other. -/
theorem type_extremeFrom (op : Comparison) (c : Column) (cs : List Column) :
    Yields (fun out => (cs.map (·.type)).foldlM commonType c.type = .ok out.type)
      (extremeFrom op c cs) := by
  induction cs generalizing c with
  | nil => exact .ok rfl
  | cons next rest ih =>
      refine .bind (type_better op c next) fun out hout => (ih out).mono fun last hlast => ?_
      rw [List.map_cons, List.foldlM_cons, hout]
      exact hlast

theorem type_of_broadcastAll (rows : Nat) {cs out : List Column}
    (h : broadcastAll rows cs = .ok out) :
    out.map (·.type) = cs.map (·.type) := by
  induction cs generalizing out with
  | nil => cases h; rfl
  | cons c rest ih =>
      obtain ⟨here, hhere, h⟩ := bind_eq_ok.1 h
      obtain ⟨after, hafter, h⟩ := bind_eq_ok.1 h
      cases h
      rw [List.map_cons, List.map_cons, type_broadcast c rows here hhere, ih hafter]

/-! ## Functions -/

theorem type_mapTexts (t : Physical) (f : List Char → Option Cell) (c : Column) :
    Yields (·.type = t) (c.mapTexts t f) :=
  .bind_any fun _ _ => .ok rfl

theorem type_editTexts (f : List Char → List Char) (c : Column) :
    Yields (·.type = .text) (c.editTexts f) :=
  type_mapTexts _ _ c

theorem type_testTexts (f : List Char → Bool) (c : Column) :
    Yields (·.type = .boolean) (c.testTexts f) :=
  type_mapTexts _ _ c

theorem type_countTexts (f : List Char → Int) (c : Column) :
    Yields (·.type = .int64) (c.countTexts f) :=
  type_mapTexts _ _ c

theorem type_findInSet (values : List String) (c : Column) :
    Yields (·.type = .int64) (c.findInSet values) :=
  type_countTexts _ c

theorem type_textLength (c : Column) : Yields (·.type = .int32) c.textLength :=
  type_mapTexts _ _ c

theorem type_splitTexts (separator : String) (c : Column) :
    Yields (·.type = .list .text) (c.splitTexts separator) :=
  type_mapTexts _ _ c

theorem type_temporalField (field : TemporalField) (c : Column) :
    Yields (·.type = .int32) (c.temporalField field) := by
  unfold temporalField
  split
  · exact .ok rfl
  · exact .ok rfl
  · exact .error _

/-- Only dates and timestamps stand for instants. -/
theorem isTemporal_of_instants {ts : List (Option Instant)} (h : c.instants = .ok ts) :
    c.type.isTemporal = true := by
  unfold instants at h
  split at h
  · next ht => rw [ht]; rfl
  · next ht => rw [ht]; rfl
  · cases h

theorem type_ofParts (t : Physical) (cs : List Column) :
    Yields (·.type = t) (ofParts t cs) :=
  .bind_any fun _ _ => .ok rfl

theorem type_listConcat (l r : Column) : Yields (·.type = l.type) (listConcat l r) :=
  .bind_any fun _ _ => .bind_any fun _ _ => .bind_any fun _ _ => .ok rfl

theorem type_listFromColumns (c : Column) (rest : List Column) :
    Yields (·.type = .list c.type) (listFromColumns (c :: rest)) := by
  rw [listFromColumns_eq]
  split
  · exact .ok rfl
  · exact .error _

end Column

namespace Function

/-- The type of what a function gives, by the type of its first argument. -/
def resultType : Function → Physical → Physical
  | length, _ | temporal _, _ => .int32
  | find .., _ | findInSet _, _ | epochSeconds, _ | listLength, _ => .int64
  | contains _, _ | startsWith _, _ | endsWith _, _ | regexMatch _, _ => .boolean
  | split _, _ => .list .text
  | strptime _, _ => .timestamp .nanosecond
  | truncate _, t | listConcat, t => t
  | dateFromParts, _ => .date
  | timestampFromParts, _ => .timestamp .second
  | atan2, _ => .float64
  | listFromColumns, t => .list t
  | _, _ => .text

theorem type_applyOne (f : Function) (c : Column) :
    Yields (·.type = f.resultType c.type) (applyOne c f) := by
  cases f with
  | lowercase | uppercase | strip | stripStart | stripEnd | capitalize | reverse | slice
  | tail | replace | padStart
    | padEnd => exact Column.type_editTexts _ c
  | contains | startsWith | endsWith => exact Column.type_testTexts _ c
  | find => exact Column.type_countTexts _ c
  | findInSet values => exact Column.type_findInSet values c
  | length => exact Column.type_textLength c
  | split separator => exact Column.type_splitTexts separator c
  | regexMatch => exact .bind_any fun _ _ => Column.type_testTexts _ c
  | regexExtract => exact .bind_any fun _ _ => Column.type_mapTexts .text _ c
  | regexReplace => exact .bind_any fun _ _ => Column.type_editTexts _ c
  | repeated => exact .bind_any fun _ _ => .bind_any fun _ _ => .ok rfl
  | temporal field => exact Column.type_temporalField field c
  | epochSeconds => exact .bind_any fun _ _ => Column.type_cast _ _
  | strftime format =>
      show Yields _ (c.strftime format)
      unfold Column.strftime
      split
      · exact .error _
      · exact .bind_any fun _ _ => .ok rfl
  | strptime => exact .bind_any fun _ _ => .ok rfl
  | truncate => exact .bind_any fun _ _ => .bind_any fun _ _ => .ok rfl
  | listLength => exact .bind_any fun _ _ => .ok rfl
  | concat | dateFromParts | timestampFromParts | atan2 | listConcat | listFromColumns =>
      exact .error _

theorem type_apply (f : Function) (cs : List Column) :
    Yields (·.type = f.resultType ((cs.map (·.type)).headD .null)) (f.apply cs) := by
  cases f with
  | concat separator => exact .bind_any fun _ _ => .ok rfl
  | dateFromParts | timestampFromParts =>
      show Yields _ (if _ then _ else _)
      split
      · exact Column.type_ofParts _ cs
      · exact .error _
  | atan2 =>
      match cs with
      | [y, x] => exact .bind_any fun _ _ => .bind_any fun _ _ => .ok rfl
      | [] | [_] | _ :: _ :: _ :: _ => exact .error _
  | listConcat =>
      match cs with
      | [l, r] => exact Column.type_listConcat l r
      | [] | [_] | _ :: _ :: _ :: _ => exact .error _
  | listFromColumns =>
      match cs with
      | [] => exact .error _
      | c :: rest => exact Column.type_listFromColumns c rest
  | _ =>
      match cs with
      | [c] => exact type_applyOne _ c
      | [] | _ :: _ :: _ => exact .error _

end Function

/-! ## Reductions and constants -/

namespace Reduction

/-- The type of what a reduction gives. -/
def resultType : Reduction → Physical → Physical
  | count, _ | countDistinct, _ => .int64
  | sum, t => if t = .float64 then .float64 else .int64
  | min, t | max, t => t
  | collect, t => .list t
  | _, _ => .float64

theorem type_extreme (greatest : Bool) (c : Column) :
    Yields (·.type = c.type) (extreme greatest c) := by
  unfold extreme
  split
  · exact .ok rfl
  · split
    · exact .error _
    · exact .ok rfl

theorem type_apply (f : Reduction) (c : Column) :
    Yields (·.type = f.resultType c.type) (f.apply c) := by
  cases f with
  | count | countDistinct | collect => exact .ok rfl
  | sum =>
      show Yields _ (if c.type = .float64 then _ else _)
      simp only [resultType]
      split
      · exact .bind_any fun _ _ => .ok rfl
      · exact .bind_any fun _ _ => .ok rfl
  | min | max => exact type_extreme _ c
  | _ => exact .bind_any fun _ _ => .ok rfl

end Reduction

/-- A constant has the type asked for, unless that is the type of nulls and it is not null.
-/
theorem Literal.type_column {v : Value} {t : DataType}
    (h : v.isNull = true ∨ t ≠ .null) (rows : Nat) :
    Yields (·.type = .ofLogical t) (column v t rows) := by
  unfold column
  split
  · exact .ok rfl
  · next hnull =>
      have hne : Physical.ofLogical t ≠ .null := by
        cases t <;> simp_all [Physical.ofLogical]
      refine .bind_any fun p _ => ?_
      simp only [if_neg hne]
      exact Column.type_cast _ _

end TypedQuery
