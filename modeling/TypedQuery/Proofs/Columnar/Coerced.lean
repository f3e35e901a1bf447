import TypedQuery.Proofs.Columnar.Typed
import TypedQuery.Proofs.DataType.Supertypes

/-!
# Columns in a common type

The type that two columns are combined in is worked out from their physical types, and the
common supertype from the logical ones. Where both are defined they agree. They are not
defined for the same types: the physical one also takes days and instants that are written
as text, and it has none for two timestamps of different units and for two arrays of
different elements (`unmatched`).

A conversion upwards never fails: every whole number is a double, and every day is
an instant.
-/

namespace TypedQuery

/-! ## Types with a common supertype that are not combined -/

namespace DataType

/-- Two timestamps of different units, or two arrays of different elements. -/
def unmatched : DataType → DataType → Bool
  | timestamp u, timestamp v => decide (u ≠ v)
  | array a, array b => decide (a ≠ b)
  | _, _ => false

/-- Types with a common supertype that columns are brought to. -/
def meets (a b : DataType) : Bool := (a.commonSupertype b).isSome && !a.unmatched b

variable {a b s : DataType}

/-- Of two types that meet, one widens to the other. -/
theorem eq_or_eq_of_meets (hm : a.unmatched b = false) (h : a.commonSupertype b = some s) :
    s = a ∨ s = b := by
  rcases plain_cases a with rfl | ⟨a, rfl⟩ | ha
  · rw [null_commonSupertype] at h
    exact .inr (Option.some.inj h).symm
  · rcases plain_cases b with rfl | ⟨b, rfl⟩ | hb
    · rw [commonSupertype_null] at h
      exact .inl (Option.some.inj h).symm
    · obtain rfl : a = b := by simpa [unmatched] using hm
      rw [commonSupertype_self] at h
      exact .inl (Option.some.inj h).symm
    · rw [array_commonSupertype_plain hb] at h
      cases h
  · rcases plain_cases b with rfl | ⟨b, rfl⟩ | hb
    · rw [commonSupertype_null] at h
      exact .inl (Option.some.inj h).symm
    · rw [plain_commonSupertype_array ha] at h
      cases h
    · rw [commonSupertype_of_isPlain ha hb] at h
      split at h
      · cases h
        split
        · exact .inr rfl
        · exact .inl rfl
      · cases h

end DataType

namespace Physical

variable {a b s : DataType} {p : Physical}

/-- Types with a common supertype are stored alike only if they are the same. -/
theorem eq_of_ofLogical_eq (h : a.commonSupertype b = some s)
    (hab : ofLogical a = ofLogical b) : a = b := by
  induction a generalizing b s with
  | array a ih =>
      cases b with
      | array b =>
          obtain ⟨t, ht, -⟩ := Option.map_eq_some_iff.1 h
          exact congrArg _ (ih ht (list.inj hab))
      | _ => cases hab
  | timestamp u =>
      cases b with
      | timestamp v => cases hab; rfl
      | _ => cases hab
  | interval u =>
      cases b with
      | interval v =>
          rw [DataType.commonSupertype] at h
          split at h
          · assumption
          · cases h
          all_goals simp
      | int64 => cases h
      | _ => cases hab
  | int64 =>
      cases b with
      | int64 => rfl
      | interval => cases h
      | _ => cases hab
  | _ => cases b <;> first | rfl | cases hab

end Physical

namespace Column

variable {a b s : DataType} {p : Physical} {l r : Column}

/-- The failure of two columns that have no type to be combined in. -/
def incompatible (l r : Physical) : Error :=
  .type ("incompatible operand types " ++ l.describe ++ " and " ++ r.describe)

theorem commonType_self (t : Physical) : commonType t t = .ok t := if_pos rfl

/-- Columns of one type are combined as they are. -/
theorem coerce_self (h : l.type = r.type) : l.coerce r = .ok (l, r) := by
  rw [coerce, h, commonType_self]
  show (l.cast r.type >>= fun l => r.cast r.type >>= fun r => _) = _
  rw [Column.cast, Column.cast, if_pos h, if_pos rfl]
  rfl

/-- The common type of the columns is that of the common supertype. -/
theorem commonType_of_matched (h : a.commonSupertype b = some s)
    (hm : a.unmatched b = false) :
    commonType (.ofLogical a) (.ofLogical b) = .ok (.ofLogical s) := by
  by_cases hab : a = b
  · subst hab
    rw [DataType.commonSupertype_self] at h
    cases h
    exact commonType_self _
  · cases a with
    | array a =>
        cases b with
        | array b => exact absurd (by simpa [DataType.unmatched] using hm) hab
        | null => cases h; rfl
        | _ => cases h
    | timestamp u =>
        cases b with
        | timestamp v => exact absurd (by simpa [DataType.unmatched] using hm) hab
        | null | date => cases h; rfl
        | _ => cases h
    | interval u =>
        cases b with
        | interval v => exact absurd h (by simp [DataType.commonSupertype, hab])
        | null => cases h; rfl
        | _ => cases h
    | _ => cases b <;> cases h <;> rfl

theorem commonType_of_unmatched (h : a.commonSupertype b = some s)
    (hm : a.unmatched b = true) :
    commonType (.ofLogical a) (.ofLogical b)
      = .error (incompatible (.ofLogical a) (.ofLogical b)) := by
  have hne : Physical.ofLogical a ≠ .ofLogical b := by
    intro hab
    obtain rfl := Physical.eq_of_ofLogical_eq h hab
    cases a <;> simp [DataType.unmatched] at hm
  unfold commonType
  rw [if_neg hne]
  cases a with
  | timestamp u | array u => cases b <;> first | rfl | cases hm
  | _ => cases hm

theorem unmatched_of_commonType (h : a.commonSupertype b = some s)
    (hp : commonType (.ofLogical a) (.ofLogical b) = .ok p) : a.unmatched b = false := by
  by_contra hm
  rw [Bool.not_eq_false] at hm
  rw [commonType_of_unmatched h hm] at hp
  cases hp

/-- Where columns have a common type, it is that of the common supertype. -/
theorem eq_of_commonType (h : a.commonSupertype b = some s)
    (hp : commonType (.ofLogical a) (.ofLogical b) = .ok p) : p = .ofLogical s := by
  rw [commonType_of_matched h (unmatched_of_commonType h hp)] at hp
  exact (Except.ok.inj hp).symm

end Column

/-! ## Conversion upwards -/

/-- The values of the one type are values of the other, whatever they are. -/
def Physical.upwards : Physical → Physical → Bool
  | .null, _ | .int32, .int64 | .int32, .float64 | .int64, .float64
  | .date, .timestamp _ => true
  | s, t => decide (s = t)

theorem Physical.upwards_self (t : Physical) : t.upwards t = true := by
  cases t <;> simp [upwards]

namespace DataType

variable {a b s : DataType}

theorem unmatched_self (t : DataType) :
    t.unmatched t = false := by cases t <;> simp [unmatched]

theorem unmatched_comm (a b : DataType) : a.unmatched b = b.unmatched a := by
  cases a <;> cases b <;> simp [unmatched, eq_comm]

theorem upwards_of_widens (h : a.Widens s) (hm : a.unmatched s = false) :
    (Physical.ofLogical a).upwards (.ofLogical s) = true := by
  by_cases has : a = s
  · rw [has]
    exact Physical.upwards_self _
  · cases a with
    | timestamp u | array u =>
        cases s <;> first | exact absurd (by simpa [unmatched] using hm) has | cases h
    | interval u =>
        cases s with
        | interval v => exact absurd h (by simp [Widens, commonSupertype, has])
        | _ => cases h
    | _ => cases s <;> first | rfl | cases h

theorem upwards_left (h : a.commonSupertype b = some s) (hm : a.unmatched b = false) :
    (Physical.ofLogical a).upwards (.ofLogical s) = true := by
  refine upwards_of_widens (widens_left h) ?_
  rcases eq_or_eq_of_meets hm h with rfl | rfl
  · exact unmatched_self s
  · exact hm

theorem upwards_right (h : a.commonSupertype b = some s) (hm : a.unmatched b = false) :
    (Physical.ofLogical b).upwards (.ofLogical s) = true :=
  upwards_left ((commonSupertype_comm b a).trans h) ((unmatched_comm b a).trans hm)

end DataType

theorem Cast.cell_upwards {source target : Physical} (h : source.upwards target = true)
    (hne : source ≠ target) {c : Cell} (hc : c.fits source = true) :
    ∃ out, Cast.cell source target c = .ok out := by
  cases source with
  | null =>
      cases c with
      | missing r => cases target <;> exact ⟨_, rfl⟩
      | _ => cases hc
  | int32 | int64 =>
      cases target with
      | int64 | float64 => first | exact absurd rfl hne | (cases c <;> exact ⟨_, rfl⟩)
      | _ => simp [Physical.upwards] at h hne
  | date =>
      cases target with
      | timestamp unit => cases c <;> exact ⟨_, rfl⟩
      | _ => simp [Physical.upwards] at h hne
  | _ => exact absurd (of_decide_eq_true h) hne

theorem Physical.casts_of_upwards {source target : Physical}
    (h : source.upwards target = true) (hne : source ≠ target) :
    source.casts target = true := by
  cases source with
  | null => cases target <;> rfl
  | int32 | int64 | date => cases target <;> first | rfl | simp [upwards] at h
  | _ => exact absurd (of_decide_eq_true h) hne

namespace Column

variable {a b s : DataType} {l r : Column}

/-- A column in the physical form of a logical type. -/
structure Stores (c : Column) (t : DataType) : Prop where
  type_eq : c.type = .ofLogical t
  typed : c.Typed

theorem Typed.cast_upwards {c : Column} {target : Physical} (h : c.Typed)
    (hup : c.type.upwards target = true) :
    ∃ out, c.cast target = .ok out := by
  by_cases hne : c.type = target
  · exact ⟨c, if_pos hne⟩
  · obtain ⟨cells, hcells⟩ :=
      mapM_isOk fun cell hcell => Cast.cell_upwards hup hne (h cell hcell)
    unfold Column.cast
    rw [if_neg hne, if_pos (Physical.casts_of_upwards hup hne), castCells_eq_mapM, hcells]
    exact ⟨_, rfl⟩

/-- Two columns whose types meet come out in their common supertype. -/
theorem Stores.coerce (hl : l.Stores a) (hr : r.Stores b) (h : a.commonSupertype b = some s)
    (hm : a.unmatched b = false) :
    ∃ l' r', l.cast (.ofLogical s) = .ok l' ∧ r.cast (.ofLogical s) = .ok r'
      ∧ l.coerce r = .ok (l', r')
      ∧ l'.Stores s ∧ r'.Stores s := by
  obtain ⟨l', hl'⟩ := hl.typed.cast_upwards (hl.type_eq ▸ DataType.upwards_left h hm)
  obtain ⟨r', hr'⟩ := hr.typed.cast_upwards (hr.type_eq ▸ DataType.upwards_right h hm)
  refine ⟨l', r', hl', hr', ?_, ⟨(hl.typed.cast _ l' hl').1, (hl.typed.cast _ l' hl').2⟩,
    ⟨(hr.typed.cast _ r' hr').1, (hr.typed.cast _ r' hr').2⟩⟩
  rw [Column.coerce, hl.type_eq, hr.type_eq, commonType_of_matched h hm]
  show (l.cast _ >>= fun l => r.cast _ >>= fun r => _) = _
  rw [hl', hr']
  rfl

theorem Stores.coerce_unmatched (hl : l.Stores a) (hr : r.Stores b)
    (h : a.commonSupertype b = some s) (hm : a.unmatched b = true) :
    l.coerce r = .error (incompatible (.ofLogical a) (.ofLogical b)) := by
  rw [Column.coerce, hl.type_eq, hr.type_eq, commonType_of_unmatched h hm]
  rfl

end Column

end TypedQuery
