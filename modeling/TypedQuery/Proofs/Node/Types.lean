import TypedQuery.Proofs.DataType.Supertypes
import TypedQuery.Proofs.Node.Schema

/-!
# Types of values that build

A value derives its type from its fields, after its shape. Most kinds have a
type of their own (`NodeKind.ownType?`); the others take it from one of their
operands or from all of them.
-/

namespace TypedQuery

/-- The type that all values of a kind have, if there is one. -/
def NodeKind.ownType? : NodeKind → Option DataType
  | .between | .contains | .notContains | .not | .isNull | .notNull | .equals | .notEquals
  | .greater | .greaterEqual
    | .less | .lessEqual | .and | .or | .xor | .isNan | .isInf | .regexSearch | .startsWith
    | .endsWith | .stringContains => some .boolean
  | .arrayLength | .ceil | .floor | .stringFind | .findInSet | .extractEpochSeconds | .count
  | .countDistinct
    | .countStar => some .int64
  | .stringLength | .extractYear | .extractQuarter | .extractMonth | .extractWeekOfYear
  | .extractDayOfYear
    | .extractDay | .extractHour | .extractMinute | .extractSecond | .extractMillisecond
    | .dayOfWeekIndex =>
    some .int32
  | .exp | .ln | .log2 | .log10 | .sqrt | .acos | .asin | .atan | .cos | .sin | .tan | .cot
  | .radians | .degrees
    | .divide | .power | .atan2 | .log | .mean | .approxMedian | .standardDev
    | .variance => some .float64
  | .lowercase | .uppercase | .strip | .lStrip | .rStrip | .capitalize | .reverse
  | .stringConcat | .substring
    | .strRight | .stringJoin | .stringReplace | .regexReplace | .regexExtract | .lPad
    | .rPad | .repeated | .dayOfWeekName | .strftime => some .string
  | .stringSplit => some (.array .string)
  | .date | .dateAdd | .dateSub | .dateTruncate | .dateFromYmd => some .date
  | .stringToTimestamp | .timestampNow => some (.timestamp .nanosecond)
  | .timestampFromYmdhms => some (.timestamp .second)
  | .timestampDiff => some (.interval .second)
  | .dateDiff => some (.interval .day)
  | _ => none

/-- The rule that a kind derives its type by, after its shape. -/
def NodeKind.TypedBy (k : NodeKind) (rule : Fields → Except Error DataType) : Prop :=
  ∃ shape, k.definition.attributes = [("shape", shape), Catalogue.hasType rule]

theorem NodeKind.typedBy_own {k : NodeKind} {t : DataType} (h : k.ownType? = some t) :
    k.TypedBy fun _ => .ok t := by
  cases k <;> first | (cases h; exact ⟨_, rfl⟩) | cases h

namespace Node.Built

variable {n m : Node} {t : DataType} {rule : Fields → Except Error DataType}

/-- The type of a value is derived from its fields, with the shape that was derived before
it. -/
theorem type_eq (h : n.Built) (hrule : n.kind.TypedBy rule) :
    ∃ shape t, rule (Fields.insert n.fields "shape" shape) = .ok t
      ∧ n.dataType? = some t := by
  obtain ⟨shapeRule, hattributes⟩ := hrule
  have hderive := h.derive_eq
  rw [hattributes] at hderive
  simp only [Catalogue.hasType, Node.derive] at hderive
  split at hderive
  · next shape _ =>
      split at hderive
      · next a ha =>
          obtain ⟨t, ht, rfl⟩ := map_eq_ok.1 ha
          refine ⟨shape, t, ht, ?_⟩
          rw [Node.dataType?, ← Except.ok.inj hderive]
          rfl
      · split at hderive <;> cases hderive
  · split at hderive <;> cases hderive

theorem type_own (h : n.Built) (ht : n.kind.ownType? = some t) : n.dataType? = some t := by
  obtain ⟨_, u, hu, hn⟩ := h.type_eq (NodeKind.typedBy_own ht)
  cases hu
  exact hn

/-! ## Types taken from operands -/

theorem nodesIn_shape {field : String} (hfield : field ≠ "shape")
    (fields : Fields) (shape : Arg) :
    Rules.nodesIn field (Fields.insert fields "shape" shape)
      = Rules.nodesIn field fields := by
  rw [Rules.nodesIn, Rules.nodesIn, Fields.field?_insert, if_neg (Ne.symm hfield)]

/-- The type that is read is that of the operand in the field. -/
theorem typeIn_eq_ok {field : String} (hfield : field ≠ "shape")
    (hm : n.child field = .ok m) {shape : Arg}
    (ht : Rules.typeIn field (Fields.insert n.fields "shape" shape) = .ok t) :
    m.dataType? = some t := by
  unfold Rules.typeIn at ht
  rw [Fields.node?, Fields.field?_insert, if_neg (Ne.symm hfield), ← Fields.node?] at ht
  split at ht
  · next u hu =>
      cases ht
      obtain ⟨m', hm', ht⟩ := Option.bind_eq_some_iff.1 hu
      cases hm.symm.trans (child_of_node? hm')
      exact ht
  · cases ht

/-- The value has the type of the operand in a field. -/
theorem type_in (h : n.Built) {field : String} (hrule : n.kind.TypedBy (Rules.typeIn field))
    (hfield : field ≠ "shape") (hm : n.child field = .ok m) : n.dataType? = m.dataType? := by
  obtain ⟨shape, t, ht, hn⟩ := h.type_eq hrule
  rw [hn, typeIn_eq_ok hfield hm ht]

/-- The value has the common type of the operands in some fields. -/
theorem type_common (h : n.Built) {fields : List String}
    (hrule : n.kind.TypedBy (Rules.commonType fields)) (hfields : "shape" ∉ fields) :
    DataType.highestPrecedence ((fields.flatMap fun field =>
      Rules.nodesIn field n.fields).filterMap Node.dataType?)
      = n.dataType? := by
  obtain ⟨shape, t, ht, hn⟩ := h.type_eq hrule
  have hnodes :
      (fields.flatMap fun field =>
        Rules.nodesIn field (Fields.insert n.fields "shape" shape))
      = fields.flatMap fun field => Rules.nodesIn field n.fields :=
    List.flatMap_congr fun field hfield =>
      nodesIn_shape (fun heq => hfields (heq ▸ hfield)) n.fields shape
  simp only [Rules.commonType, hnodes] at ht
  rw [hn]
  split at ht
  · next u hu => cases ht; exact hu
  · cases ht

/-- A field that holds one node. -/
theorem nodesIn_of_child (h : n.Built) {field : String} {v : Validator}
    (hv : n.kind.validator? field = some v) (hm : n.child field = .ok m) :
    Rules.nodesIn field n.fields = [m] := by
  obtain ⟨raw, before, a, -, -, -, hfield⟩ := h.field?_eq hv
  obtain ⟨a', ha', hread⟩ := fieldAs_eq_ok hm
  have hget : n.get? field = some a := by rw [Node.get?, hfield]; rfl
  cases hget.symm.trans ha'
  rw [Rules.nodesIn, hfield]
  cases a <;> cases hread
  rfl

/-- The value has the common type of two operands. -/
theorem type_pair (h : n.Built) {left right : String} {vl vr : Validator} {l r : Node}
    {tl tr : DataType} (hrule : n.kind.TypedBy (Rules.commonType [left, right]))
    (hfields : "shape" ∉ [left, right]) (hvl : n.kind.validator? left = some vl)
    (hvr : n.kind.validator? right = some vr) (hl : n.child left = .ok l)
    (hr : n.child right = .ok r) (htl : l.dataType? = some tl) (htr : r.dataType? = some tr)
    (ht : n.dataType? = some t) :
    tl.commonSupertype tr = some t := by
  have hcommon := h.type_common hrule hfields
  rw [List.flatMap_cons, List.flatMap_cons, List.flatMap_nil, h.nodesIn_of_child hvl hl,
    h.nodesIn_of_child hvr hr] at hcommon
  simpa [htl, htr, ht, DataType.highestPrecedence_pair] using hcommon

/-- An operand that has to be of a family of types, or null. -/
theorem type_of_family (h : n.Built) {field : String} {family : TypeFamily}
    (hv : n.kind.validator? field = some (.valueOf family)) (hm : n.child field = .ok m)
    (hmt : m.dataType? = some t) :
    family.holds t = true ∨ t = .null := by
  obtain ⟨raw, before, a, -, hvalid, -, hget⟩ := h.get?_eq hv
  obtain ⟨a', ha', hread⟩ := fieldAs_eq_ok hm
  cases hget.symm.trans ha'
  cases a <;> cases hread
  obtain ⟨-, u, hu, hfamily⟩ := Validator.ofFamily_eq_ok hvalid
  cases hmt.symm.trans hu
  rw [Bool.or_eq_true] at hfamily
  exact hfamily.imp id fun hnull => by cases t <;> first | rfl | cases hnull

end Node.Built

/-- Every value has a type. -/
theorem NodeKind.typedBy_of_isValue {k : NodeKind} (hk : k.isValue = true)
    (hconcrete : k.definition.isAbstract = false) :
    ∃ rule, k.TypedBy rule := by
  cases k <;> first
    | exact ⟨_, _, rfl⟩
    | exact absurd hk (by decide)
    | exact absurd hconcrete (by decide)

theorem Node.Built.exists_type {n : Node} (h : n.Built) (hvalue : n.kind.isValue = true) :
    ∃ t, n.dataType? = some t := by
  obtain ⟨rule, hrule⟩ := NodeKind.typedBy_of_isValue hvalue h.not_abstract
  obtain ⟨_, t, -, ht⟩ := h.type_eq hrule
  exact ⟨t, ht⟩

end TypedQuery
