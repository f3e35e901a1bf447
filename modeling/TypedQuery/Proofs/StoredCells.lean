import TypedQuery.Proofs.DataType.Supertypes
import TypedQuery.Proofs.Engine.SafeTables
import TypedQuery.Proofs.Node.Calls

/-!
# The cells of a table of given rows

A table of given rows is checked cell by cell, and of a cell the check looks at the
type that the whole value has. For a single value that is its own type. The type of an
array says less than the types of its items: it is that of an array of nulls where
they have no common supertype, and their finest unit where they are timestamps of
several. So an array that passed stands for its column item by item exactly if neither
is the case anywhere in it.
-/

namespace TypedQuery

namespace Value

/-- A value that may stand in a column of a type: null may in any, a single value if its
own type may or if both are integers, and an array if each of its items may stand where the
type of the items is asked for. -/
inductive Inhabits : Value → DataType → Prop
  | null (t : DataType) : Inhabits null t
  | single {v : Value} {t : DataType} (single : v.dataType.isArray = false)
    (coerces : v.dataType.canCoerceTo t = true) :
      Inhabits v t
  | integer {v : Value} {t : DataType} (value : v.dataType.isInteger = true)
    (column : t.isInteger = true) : Inhabits v t
  | array {items : List Value} {element : DataType}
    (items_inhabit : ∀ v ∈ items, Inhabits v element) :
      Inhabits (array items) (.array element)

mutual

/-- The items of every array in the value have a common supertype. -/
def isUnmixed : Value → Bool
  | array items => (DataType.highestPrecedence (dataTypes items)).isSome && areUnmixed items
  | _ => true

def areUnmixed : List Value → Bool
  | [] => true
  | v :: rest => v.isUnmixed && areUnmixed rest

end

mutual

/-- The units of all timestamps in the value. -/
def timeUnits : Value → List TimeUnit
  | timestamp _ unit => [unit]
  | array items => timeUnitsOf items
  | _ => []

def timeUnitsOf : List Value → List TimeUnit
  | [] => []
  | v :: rest => v.timeUnits ++ timeUnitsOf rest

end

variable {v : Value} {items : List Value} {t : DataType} {u : TimeUnit}

theorem mem_dataTypes : t ∈ dataTypes items ↔ ∃ v ∈ items, v.dataType = t := by
  induction items with
  | nil => simp [dataTypes]
  | cons v rest ih => simp [dataTypes, ih, eq_comm]

theorem mem_timeUnitsOf : u ∈ timeUnitsOf items ↔ ∃ v ∈ items, u ∈ v.timeUnits := by
  induction items with
  | nil => simp [timeUnitsOf]
  | cons v rest ih => simp [timeUnitsOf, ih]

theorem areUnmixed_eq_true : areUnmixed items = true ↔ ∀ v ∈ items, v.isUnmixed = true := by
  induction items with
  | nil => simp [areUnmixed]
  | cons v rest ih => simp [areUnmixed, ih]

theorem isUnmixed_array : (array items).isUnmixed = true
    ↔ (∃ s, DataType.highestPrecedence (dataTypes items) = some s)
      ∧ ∀ v ∈ items, v.isUnmixed = true := by
  rw [isUnmixed, Bool.and_eq_true, areUnmixed_eq_true, Option.isSome_iff_exists]

theorem dataType_of_isInteger (h : v.dataType.isInteger = true) : v.dataType = .int64 := by
  cases v <;> first | rfl | cases h

theorem dataType_array {s : DataType}
    (h : DataType.highestPrecedence (dataTypes items) = some s) :
    (array items).dataType = .array s := by
  rw [dataType, h, Option.getD_some]

mutual

theorem mem_timeUnits_of_unit? :
    ∀ {v : Value} {u : TimeUnit}, v.dataType.unit? = some u → u ∈ v.timeUnits
  | timestamp _ unit, _, h => by cases h; exact List.mem_singleton_self _
  | array items, _, h => by
      rw [dataType, DataType.unit?] at h
      cases hs : DataType.highestPrecedence (dataTypes items) with
      | none => rw [hs] at h; cases h
      | some s =>
          rw [hs] at h
          obtain ⟨t, ht, hu⟩ := DataType.exists_unit?_of_highestPrecedence hs h
          exact mem_timeUnitsOf_of_unit? ht hu
  | null, _, h | bool _, _, h | int64 _, _, h | float64 _, _, h | string _, _, h
  | binary _, _, h | date _, _, h | interval _ _, _, h => by cases h

theorem mem_timeUnitsOf_of_unit? : ∀ {items : List Value} {t : DataType} {u : TimeUnit},
    t ∈ dataTypes items → t.unit? = some u → u ∈ timeUnitsOf items
  | v :: rest, t, _, ht, hu => by
      rw [dataTypes, List.mem_cons] at ht
      rw [timeUnitsOf, List.mem_append]
      rcases ht with rfl | ht
      · exact .inl (mem_timeUnits_of_unit? hu)
      · exact .inr (mem_timeUnitsOf_of_unit? ht hu)

end

/-! ## What stands in a column -/

/-- Items that widen to one type have a common supertype. -/
theorem exists_common (h : ∀ v ∈ items, v.dataType.Widens t) :
    ∃ s, DataType.highestPrecedence (dataTypes items) = some s ∧ s.Widens t := by
  refine DataType.exists_highestPrecedence fun r hr => ?_
  obtain ⟨v, hv, rfl⟩ := mem_dataTypes.1 hr
  exact h v hv

/-- Values have integers of 64 bits only, so what stands in a column widens to the type
with 64 bits for its integers. -/
theorem Inhabits.widens (h : v.Inhabits t) : v.dataType.Widens t.roomy := by
  induction h with
  | null t => exact DataType.null_commonSupertype _
  | single _ coerces =>
      exact (DataType.widens_of_canCoerceTo coerces).trans (DataType.widens_roomy _)
  | integer value column =>
      rw [dataType_of_isInteger value, DataType.roomy_of_isInteger column]
      exact .refl _
  | @array items element _ ih =>
      obtain ⟨s, hs, hwidens⟩ := exists_common ih
      rw [dataType_array hs, DataType.roomy, DataType.Widens,
        DataType.commonSupertype_array, hwidens]
      rfl

theorem Inhabits.isUnmixed (h : v.Inhabits t) : v.isUnmixed = true := by
  induction h with
  | null t => rfl
  | @single v _ single _ => cases v <;> first | rfl | cases single
  | @integer v _ value _ =>
      cases v with
      | int64 => rfl
      | _ => cases value
  | @array items element items_inhabit ih =>
      refine isUnmixed_array.2 ⟨?_, ih⟩
      obtain ⟨s, hs, -⟩ := exists_common fun v hv => (items_inhabit v hv).widens
      exact ⟨s, hs⟩

/-- No timestamp may stand for one of another unit. -/
theorem Inhabits.unit?_eq (h : v.Inhabits t) (hu : u ∈ v.timeUnits) : t.unit? = some u := by
  induction h with
  | null t => cases hu
  | @single v t single coerces =>
      cases v with
      | timestamp ticks unit =>
          cases List.mem_singleton.1 hu
          cases t with
          | timestamp unit' =>
              simp only [dataType, DataType.canCoerceTo, beq_iff_eq] at coerces
              exact congrArg DataType.unit? coerces.symm
          | _ => cases coerces
      | array items => cases single
      | _ => cases hu
  | @integer v _ value _ =>
      cases v with
      | int64 => cases hu
      | _ => cases value
  | array _ ih =>
      obtain ⟨v, hv, hu⟩ := mem_timeUnitsOf.1 hu
      exact ih v hv hu

/-- The type of a single value is all there is to check. -/
theorem inhabits_of_single (hsingle : v.dataType.isArray = false)
    (h : Validator.fits v.dataType t = true) :
    v.Inhabits t := by
  rw [Validator.fits, Bool.or_eq_true, Bool.and_eq_true] at h
  rcases h with hcoerces | ⟨hvalue, hcolumn⟩
  · exact .single hsingle hcoerces
  · exact .integer hvalue hcolumn

mutual

theorem inhabits_of_fits :
    ∀ {v : Value} {t : DataType}, Validator.fits v.dataType t = true → v.isUnmixed = true →
    (∀ u ∈ v.timeUnits, ∀ w ∈ v.timeUnits, u = w) → v.Inhabits t
  | array items, t, hfits, hunmixed, hunits => by
      obtain ⟨⟨s, hs⟩, hitems⟩ := isUnmixed_array.1 hunmixed
      rw [dataType_array hs, Validator.fits] at hfits
      cases t with
      | array element =>
          have hcoerces : s.canCoerceTo element = true := by
            simpa [DataType.canCoerceTo, DataType.isInteger] using hfits
          refine .array (forall_inhabits (fun v hv => ?_) hitems hunits)
          -- The item widens to the type of all items, and no unit of a
          -- timestamp is lost on the way.
          have hwidens : v.dataType.Widens s :=
            DataType.widens_highestPrecedence hs (mem_dataTypes.2 ⟨v, hv, rfl⟩)
          have hitem : v.dataType.canCoerceTo s = true := by
            refine DataType.canCoerceTo_of_widens hwidens fun u w hu hw => ?_
            obtain ⟨t, ht, hw⟩ := DataType.exists_unit?_of_highestPrecedence hs hw
            exact hunits u (mem_timeUnitsOf.2 ⟨v, hv, mem_timeUnits_of_unit? hu⟩) w
              (mem_timeUnitsOf_of_unit? ht hw)
          rw [Validator.fits, DataType.canCoerceTo_trans hitem hcoerces, Bool.true_or]
      | _ => cases hfits
  | null, _, hfits, _, _ | bool _, _, hfits, _, _ | int64 _, _, hfits, _, _
  | float64 _, _, hfits, _, _ | string _, _, hfits, _, _ | binary _, _, hfits, _, _
  | date _, _, hfits, _, _ | timestamp _ _, _, hfits, _, _ | interval _ _, _, hfits, _,
    _ => inhabits_of_single rfl hfits

theorem forall_inhabits : ∀ {items : List Value} {t : DataType},
    (∀ v ∈ items, Validator.fits v.dataType t = true) →
    (∀ v ∈ items, v.isUnmixed = true) →
      (∀ u ∈ timeUnitsOf items, ∀ w ∈ timeUnitsOf items, u = w) →
    ∀ v ∈ items, v.Inhabits t
  | [], _, _, _, _ => nofun
  | v :: rest, t, hfits, hunmixed, hunits => by
      obtain ⟨hv, hrest⟩ := List.forall_mem_cons.1 hfits
      obtain ⟨hvUnmixed, hrestUnmixed⟩ := List.forall_mem_cons.1 hunmixed
      rw [timeUnitsOf] at hunits
      refine List.forall_mem_cons.2 ⟨?_, ?_⟩
      · exact inhabits_of_fits hv hvUnmixed fun u hu w hw =>
          hunits u (List.mem_append_left _ hu) w (List.mem_append_left _ hw)
      · exact forall_inhabits hrest hrestUnmixed fun u hu w hw =>
          hunits u (List.mem_append_right _ hu) w (List.mem_append_right _ hw)

end

/-- A value that fits a column stands for it item by item exactly if nothing in it is
mixed. -/
theorem inhabits_iff (h : Validator.fits v.dataType t = true) :
    v.Inhabits t ↔ v.isUnmixed = true ∧ ∀ u ∈ v.timeUnits, ∀ w ∈ v.timeUnits, u = w := by
  refine ⟨fun hv => ⟨hv.isUnmixed, fun u hu w hw => ?_⟩, fun ⟨hunmixed, hunits⟩ =>
    inhabits_of_fits h hunmixed hunits⟩
  exact Option.some.inj ((hv.unit?_eq hu).symm.trans (hv.unit?_eq hw))

end Value

/-- The cells of a table of given rows may stand in their columns, down to the items of
arrays, exactly if the items of every array in them have a common supertype and if all
timestamps in a cell have the same unit. A cell that is no array always may. -/
theorem given_cells {n : Node} (h : n.Built) (hkind : n.kind = .inMemoryTable) :
    ∃ (s : Schema) (rows : List (List Value)), n.outputSchema = .ok s
      ∧ n.field "data" = .ok (.ofRows rows)
      ∧ ∀ row ∈ rows, List.Forall₂ (fun v column =>
        (v.Inhabits column.dataType
          ↔ v.isUnmixed = true ∧ ∀ u ∈ v.timeUnits, ∀ w ∈ v.timeUnits, u = w)
          ∧ (v.dataType.isArray = false → v.Inhabits column.dataType)) row s.columns := by
  obtain ⟨s, rows, hschema, hdata, hfits⟩ := h.stored_rows hkind
  refine ⟨s, rows, hschema, hdata,
    fun row hrow => (hfits row hrow).imp fun v column hv => ?_⟩
  exact ⟨Value.inhabits_iff hv, fun hsingle => Value.inhabits_of_single hsingle hv⟩

/-- Days stand for timestamps in an array of arrays, where nulls may stand for
items and for arrays. -/
theorem given_cells_of_arrays :
    ∃ n : Node,
      Node.inMemoryTable "t"
        ⟨[⟨"i", .int32, true⟩, ⟨"a", .array (.array (.timestamp .millisecond)), true⟩]⟩
          [[.int64 7, .array
            [.array [.date 0, .timestamp 5 .millisecond, .null], .null, .array []]]] = .ok n
        ∧ n.kind = .inMemoryTable
        ∧ (Value.int64 7).Inhabits .int32
        ∧ (Value.array
          [.array [.date 0, .timestamp 5 .millisecond, .null], .null, .array []]).Inhabits
          (.array (.array (.timestamp .millisecond))) := by
  obtain ⟨n, hn, hkind, hschema, hrows⟩ : ∃ n : Node,
      Node.inMemoryTable "t"
      ⟨[⟨"i", .int32, true⟩, ⟨"a", .array (.array (.timestamp .millisecond)), true⟩]⟩
          [[.int64 7, .array
            [.array [.date 0, .timestamp 5 .millisecond, .null], .null, .array []]]] = .ok n
        ∧ n.kind = .inMemoryTable
        ∧ n.outputSchema
          = .ok ⟨[⟨"i", .int32, true⟩,
            ⟨"a", .array (.array (.timestamp .millisecond)), true⟩]⟩
        ∧ Engine.rowsOf n
          = .ok [[.int64 7, .array
            [.array [.date 0, .timestamp 5 .millisecond, .null], .null, .array []]]] :=
    ⟨_, rfl, rfl, rfl, rfl⟩
  obtain ⟨s, rows, hschema', hdata, hcells⟩ :=
    given_cells (Node.built_inMemoryTable hn) hkind
  cases hschema.symm.trans hschema'
  cases hrows.symm.trans (Engine.rowsOf_of_field hdata)
  cases hcells _ List.mem_cons_self with
  | cons hfirst hrest =>
      cases hrest with
      | cons hsecond _ => exact ⟨n, hn, hkind, hfirst.2 rfl, hsecond.1.2 (by decide)⟩

/-- A number and a text in one array pass for an array of truth values, and so does a
second for a nanosecond beside one. -/
theorem given_cells_mixed :
    ∃ n m : Node,
      Node.inMemoryTable "t" ⟨[⟨"a", .array .boolean, true⟩]⟩
        [[.array [.int64 1, .string "x"]]] = .ok n
        ∧ ¬ (Value.array [.int64 1, .string "x"]).Inhabits (.array .boolean)
        ∧ Node.inMemoryTable "t" ⟨[⟨"a", .array (.timestamp .nanosecond), true⟩]⟩
          [[.array [.timestamp 1 .second, .timestamp 1 .nanosecond]]] = .ok m
        ∧ ¬ (Value.array [.timestamp 1 .second, .timestamp 1 .nanosecond]).Inhabits
          (.array (.timestamp .nanosecond)) := by
  refine ⟨_, _, rfl, fun h => absurd h.isUnmixed (by decide), rfl, fun h => ?_⟩
  exact absurd (h.unit?_eq (u := .second) (by decide)) (by decide)

end TypedQuery
