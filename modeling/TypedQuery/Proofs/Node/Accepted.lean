import TypedQuery.Node.Build
import TypedQuery.Proofs.Outcome

/-!
# What validation leaves in the fields

A call that a signature validates makes one field for each parameter, in the order of
the parameters, and each field holds what the validator of its parameter made of an
argument, given the fields before it. `Accepts` says so, and `validate_accepts`
proves it of every call.

The nodes in a field come from the argument, or are made by validation itself: a plain
value becomes a literal, and an expression becomes a key to sort by. So a property that
holds of all nodes of a call, of literals and of such keys holds of all nodes in the fields
(`validate_nodes`). Whether all nodes that a validator lets through are values can be read
off the validator (`onlyValues`).
-/

namespace TypedQuery

/-! ## Fields that are inserted one after the other -/

theorem Fields.insert_of_notMem {fields : Fields} {name : String} {a : Arg}
    (h : name ∉ Fields.names fields) :
    Fields.insert fields name a = fields ++ [(name, a)] := by
  induction fields with
  | nil => rfl
  | cons field rest ih =>
      obtain ⟨other, b⟩ := field
      simp only [Fields.names, List.map_cons, List.mem_cons, not_or] at h
      rw [Fields.insert, if_neg (Ne.symm h.1), ih h.2, List.cons_append]

theorem Fields.eq_or_mem_of_mem_insert {fields : Fields} {name : String} {a : Arg}
    {x : String × Arg} (h : x ∈ Fields.insert fields name a) : x.2 = a ∨ x ∈ fields := by
  induction fields with
  | nil =>
      rw [List.mem_singleton.1 h]
      exact Or.inl rfl
  | cons field rest ih =>
      obtain ⟨other, b⟩ := field
      rw [Fields.insert] at h
      split at h
      · rcases List.mem_cons.1 h with rfl | h
        · exact Or.inl rfl
        · exact Or.inr (List.mem_cons_of_mem _ h)
      · rcases List.mem_cons.1 h with rfl | h
        · exact Or.inr List.mem_cons_self
        · rcases ih h with h | h
          · exact Or.inl h
          · exact Or.inr (List.mem_cons_of_mem _ h)

theorem Fields.names_append (fields more : Fields) :
    Fields.names (fields ++ more) = Fields.names fields ++ Fields.names more :=
  List.map_append

/-- All nodes that an argument holds have a property. -/
def Arg.AllNodes (P : Node → Prop) (a : Arg) : Prop := ∀ m ∈ a.nodes, P m

theorem Arg.mem_nodesOfItems {items : List Arg} {m : Node} :
    m ∈ Arg.nodesOfItems items ↔ ∃ a ∈ items, m ∈ a.nodes := by
  induction items with
  | nil => simp [Arg.nodesOfItems]
  | cons a rest ih => simp [Arg.nodesOfItems, ih]

theorem Arg.mem_nodesOfFields {fields : List (String × Arg)} {m : Node} :
    m ∈ Arg.nodesOfFields fields ↔ ∃ field ∈ fields, m ∈ field.2.nodes := by
  induction fields with
  | nil => simp [Arg.nodesOfFields]
  | cons field rest ih =>
      obtain ⟨name, a⟩ := field
      simp [Arg.nodesOfFields, ih]

theorem Arg.allNodes_seq {P : Node → Prop} {items : List Arg} :
    (Arg.seq items).AllNodes P ↔ ∀ a ∈ items, a.AllNodes P := by
  constructor
  · intro h a ha m hm
    exact h m (by rw [Arg.nodes]; exact Arg.mem_nodesOfItems.2 ⟨a, ha, hm⟩)
  · intro h m hm
    rw [Arg.nodes] at hm
    obtain ⟨a, ha, hm⟩ := Arg.mem_nodesOfItems.1 hm
    exact h a ha m hm

theorem Arg.allNodes_map {P : Node → Prop} {entries : List (String × Arg)} :
    (Arg.map entries).AllNodes P ↔ ∀ entry ∈ entries, entry.2.AllNodes P := by
  constructor
  · intro h entry he m hm
    exact h m (by rw [Arg.nodes]; exact Arg.mem_nodesOfFields.2 ⟨entry, he, hm⟩)
  · intro h m hm
    rw [Arg.nodes] at hm
    obtain ⟨entry, he, hm⟩ := Arg.mem_nodesOfFields.1 hm
    exact h entry he m hm

theorem Arg.allNodes_node {P : Node → Prop} {n : Node} : (Arg.node n).AllNodes P ↔ P n := by
  simp [Arg.AllNodes, Arg.nodes]

theorem Arg.allNodes_value {P : Node → Prop} (v : Value) : (Arg.value v).AllNodes P := by
  intro m hm
  simp [Arg.nodes] at hm

theorem Arg.allNodes_none {P : Node → Prop} : Arg.none.AllNodes P := by
  intro m hm
  simp [Arg.nodes] at hm

/-! ## What validators make of arguments

One lemma for each check: what the argument was, and what became of it. -/

namespace Validator

theorem expected_ne_ok {α : Type} {what : String} {a : Arg} {b : α} :
    expected what a ≠ .ok b := by
  intro h
  cases h

theorem expression_eq_ok {raw a : Arg} (h : expression raw = .ok a) :
    ∃ m, a = .node m ∧ m.kind.isValue = true
      ∧ (raw = .node m ∨ ∃ v, raw = .value v ∧ m = .literal v) := by
  cases raw with
  | value v =>
      cases h
      exact ⟨.literal v, rfl, rfl, Or.inr ⟨v, rfl, rfl⟩⟩
  | node m =>
      rw [expression] at h
      split at h
      · next hm => cases h; exact ⟨m, rfl, hm, Or.inl rfl⟩
      · exact absurd h expected_ne_ok
  | none | seq _ | map _ | type _ | shape _ | schema _ => exact absurd h expected_ne_ok

theorem ofFamily_eq_ok {family : TypeFamily} {raw a : Arg}
    (h : ofFamily family raw = .ok a) :
    expression raw = .ok a
      ∧ ∃ t, a.node?.bind Node.dataType? = some t ∧ (family.holds t || t.isNull) = true := by
  unfold ofFamily at h
  obtain ⟨b, hb, h⟩ := bind_eq_ok.1 h
  obtain ⟨t, ht, h⟩ := bind_eq_ok.1 h
  split at h
  · next hf =>
      cases h
      refine ⟨hb, t, ?_, hf⟩
      rw [typeOf] at ht
      split at ht
      · next u hu => cases ht; exact hu
      · exact absurd ht expected_ne_ok
  · cases h

theorem ofKind_eq_ok {kind : NodeKind} {raw a : Arg} (h : ofKind kind raw = .ok a) :
    a = raw ∧ ∃ m, raw = .node m ∧ m.kind.isUnder kind = true := by
  cases raw with
  | node m =>
      rw [ofKind] at h
      split at h
      · next hm => cases h; exact ⟨rfl, m, rfl, hm⟩
      · exact absurd h expected_ne_ok
  | none | value _ | seq _ | map _ | type _ | shape _ | schema _ =>
      exact absurd h expected_ne_ok

theorem payload_eq_ok {raw a : Arg} (h : payload raw = .ok a) : ∃ v, a = .value v := by
  cases raw with
  | value v => cases h; exact ⟨v, rfl⟩
  | seq items =>
      rw [payload] at h
      obtain ⟨values, -, h⟩ := bind_eq_ok.1 h
      cases h
      exact ⟨.array values, rfl⟩
  | none | node _ | map _ | type _ | shape _ | schema _ => exact absurd h expected_ne_ok

theorem columnName_eq_ok {field : String} {raw a : Arg} {bound : Fields}
    (h : columnName field raw bound = .ok a) :
    a = raw ∧ ∃ name columns, raw.string? = some name
      ∧ (Fields.node? bound field).bind Node.schema? = some columns
      ∧ columns.contains name = true := by
  unfold columnName at h
  simp only [] at h
  split at h
  · next name hname =>
      obtain ⟨_, hok, h⟩ := bind_eq_ok.1 h
      cases hok
      split at h
      · cases h
      · next columns hcolumns =>
          split at h
          · next hc => cases h; exact ⟨rfl, name, columns, hname, hcolumns, hc⟩
          · cases h
  · obtain ⟨_, hok, -⟩ := bind_eq_ok.1 h
    exact absurd hok expected_ne_ok

theorem comparable_eq_ok {field : String} {raw a : Arg} {bound : Fields}
    (h : comparable field raw bound = .ok a) : expression raw = .ok a := by
  unfold comparable at h
  obtain ⟨b, hb, h⟩ := bind_eq_ok.1 h
  split at h
  · cases h
  · obtain ⟨left, -, h⟩ := bind_eq_ok.1 h
    obtain ⟨right, -, h⟩ := bind_eq_ok.1 h
    split at h
    · cases h; exact hb
    · cases h

theorem eachFrom_eq_ok {check : Arg → Except String Arg} {position : Nat}
    {items out : List Arg} (h : eachFrom check position items = .ok out) :
    List.Forall₂ (fun x y => check x = .ok y) items out := by
  induction items generalizing position out with
  | nil => cases h; exact .nil
  | cons item rest ih =>
      rw [eachFrom] at h
      simp only [] at h
      split at h
      · next x hx =>
          obtain ⟨_, hok, h⟩ := bind_eq_ok.1 h
          obtain ⟨xs, hxs, h⟩ := bind_eq_ok.1 h
          cases hok
          cases h
          exact .cons hx (ih hxs)
      · obtain ⟨_, hok, -⟩ := bind_eq_ok.1 h
        cases hok

theorem eachEntry_eq_ok {check : Arg → Except String Arg} {entries out : List (String × Arg)}
    (h : eachEntry check entries = .ok out) :
    List.Forall₂ (fun x y => x.1 = y.1 ∧ check x.2 = .ok y.2) entries out := by
  induction entries generalizing out with
  | nil => cases h; exact .nil
  | cons entry rest ih =>
      obtain ⟨key, a⟩ := entry
      rw [eachEntry] at h
      simp only [] at h
      split at h
      · next x hx =>
          obtain ⟨_, hok, h⟩ := bind_eq_ok.1 h
          obtain ⟨xs, hxs, h⟩ := bind_eq_ok.1 h
          cases hok
          cases h
          exact .cons ⟨rfl, hx⟩ (ih hxs)
      · obtain ⟨_, hok, -⟩ := bind_eq_ok.1 h
        cases hok

/-- The items of a sequence, or the argument itself. -/
theorem sequence_eq_ok {check : Arg → Except String Arg} {raw : Arg} {out : List Arg}
    (h : sequence check raw = .ok out) :
    ∃ items, (raw = .seq items ∨ items = [raw])
      ∧ List.Forall₂ (fun x y => check x = .ok y) items out := by
  cases raw with
  | seq items => exact ⟨items, Or.inl rfl, eachFrom_eq_ok h⟩
  | none => cases h
  | value _ | node _ | map _ | type _ | shape _ | schema _ =>
      exact ⟨_, Or.inr rfl, eachFrom_eq_ok h⟩

theorem sameLength_eq_ok {field : String} {raw a : Arg} {bound : Fields}
    (h : sameLength field raw bound = .ok a) :
    ∃ out others, a = .seq out ∧ sequence expression raw = .ok out
      ∧ (Fields.field? bound field).bind Arg.seq? = some others
      ∧ out.length = others.length := by
  unfold sameLength at h
  obtain ⟨out, hout, h⟩ := bind_eq_ok.1 h
  split at h
  · cases h
  · next others hothers =>
      split at h
      · next hlength => cases h; exact ⟨out, others, rfl, hout, hothers, hlength⟩
      · cases h

theorem ofView_eq_ok {α : Type} {view : Arg → Option α} {what : String} {raw a : Arg}
    (h : ofView view what raw = .ok a) : a = raw ∧ ∃ x, view raw = some x := by
  unfold ofView at h
  split at h
  · next x hx => cases h; exact ⟨rfl, x, hx⟩
  · exact absurd h expected_ne_ok

theorem rows_eq_ok {field : String} {raw a : Arg} {bound : Fields}
    (h : rows field raw bound = .ok a) :
    a = raw ∧ ∃ columns items, (Fields.field? bound field).bind Arg.schema? = some columns
      ∧ raw.seq? = some items
      ∧ checkRows columns.columns 0 items = .ok () := by
  unfold rows at h
  split at h
  · cases h
  · next columns hcolumns =>
      split at h
      · exact absurd h expected_ne_ok
      · next items hitems =>
          obtain ⟨_, hcheck, h⟩ := bind_eq_ok.1 h
          cases h
          exact ⟨rfl, columns, items, hcolumns, hitems, hcheck⟩

section

variable {inner first second : Validator} {raw a : Arg} {bound : Fields}

theorem scalarValue_eq_ok (h : scalarValue.validate raw bound = .ok a) :
    expression raw = .ok a ∧ a.node?.bind Node.shape? = some .scalar := by
  rw [validate] at h
  obtain ⟨b, hb, h⟩ := bind_eq_ok.1 h
  split at h
  · next hshape => cases h; exact ⟨hb, hshape⟩
  · exact absurd h expected_ne_ok

theorem literal_eq_ok (h : literal.validate raw bound = .ok a) :
    expression raw = .ok a ∧ (a.node?.map Node.isLiteral).getD false = true := by
  rw [validate] at h
  obtain ⟨b, hb, h⟩ := bind_eq_ok.1 h
  split at h
  · next hliteral => cases h; exact ⟨hb, hliteral⟩
  · exact absurd h expected_ne_ok

theorem schema_eq_ok (h : schema.validate raw bound = .ok a) :
    a = raw ∧ ∃ s, raw.schema? = some s ∧ s.duplicateNames.isEmpty = true := by
  rw [validate] at h
  split at h
  · exact absurd h expected_ne_ok
  · next s hs =>
      split at h
      · next hempty => cases h; exact ⟨rfl, s, hs, hempty⟩
      · cases h

/-- Nothing, or what the validator inside makes of something. -/
theorem optional_eq_ok (h : (optional inner).validate raw bound = .ok a) :
    raw.isNone = true ∧ a = .none
      ∨ raw.isNone = false ∧ inner.validate raw bound = .ok a := by
  rw [validate] at h
  split at h
  · next hnone => cases h; exact Or.inl ⟨hnone, rfl⟩
  · next hnone => exact Or.inr ⟨Bool.eq_false_iff.2 hnone, h⟩

theorem tupleOf_eq_ok (h : (tupleOf inner).validate raw bound = .ok a) :
    ∃ out, a = .seq out
      ∧ sequence (fun item => inner.validate item bound) raw = .ok out := by
  rw [validate] at h
  obtain ⟨out, hout, h⟩ := bind_eq_ok.1 h
  cases h
  exact ⟨out, rfl, hout⟩

theorem mapOf_eq_ok (h : (mapOf inner).validate raw bound = .ok a) :
    ∃ entries out, raw = .map entries ∧ a = .map out
      ∧ eachEntry (fun item => inner.validate item bound) entries = .ok out := by
  rw [validate] at h
  split at h
  · exact absurd h expected_ne_ok
  · next entries hentries =>
      obtain ⟨out, hout, h⟩ := bind_eq_ok.1 h
      cases h
      cases raw <;> simp [Arg.map?] at hentries
      exact ⟨entries, out, by rw [hentries], rfl, hout⟩

/-- Either alternative, the first before the second. -/
theorem either_eq_ok :
    (either first second).validate raw bound = .ok a ↔ first.validate raw bound = .ok a
      ∨ (∃ reason, first.validate raw bound = .error reason)
        ∧ second.validate raw bound = .ok a := by
  rw [validate]
  cases first.validate raw bound with
  | ok b => simp
  | error reason => cases second.validate raw bound <;> simp

/-- What may be selected is a table or a value. -/
theorem table_or_value {m : Node}
    (h : (either table value).validate raw bound = .ok (.node m)) :
    m.kind.isTable = true ∨ m.kind.isValue = true := by
  rcases either_eq_ok.1 h with h | ⟨-, h⟩
  · obtain ⟨rfl, k, hnode, hk⟩ := ofKind_eq_ok h
    cases hnode
    exact Or.inl hk
  · obtain ⟨k, hnode, hk, -⟩ := expression_eq_ok h
    cases hnode
    exact Or.inr hk

theorem oneOf_eq_ok {options : List String}
    (h : (oneOf options).validate raw bound = .ok a) :
    a = raw ∧ ∃ s, raw.string? = some s ∧ s ∈ options := by
  rw [validate] at h
  split at h
  · next s hs =>
      split at h
      · next hmem => cases h; exact ⟨rfl, s, hs, List.contains_iff_mem.1 hmem⟩
      · exact absurd h expected_ne_ok
  · exact absurd h expected_ne_ok

/-- A key stays as it is, and an expression becomes an ascending one. -/
theorem sortKey_eq_ok (h : sortKey.validate raw bound = .ok a) :
    (a = raw ∧ ∃ m, raw = .node m ∧ m.kind.isUnder .sortKey = true)
      ∨ ∃ m, a = .node (.sortKey (.node m) true) ∧ expression raw = .ok (.node m)
          ∧ ∃ reason, ofKind .sortKey raw = .error reason := by
  rw [validate] at h
  split at h
  · next b hb =>
      cases h
      exact Or.inl (ofKind_eq_ok hb)
  · next reason hb =>
      obtain ⟨b, hexpr, h⟩ := bind_eq_ok.1 h
      cases h
      obtain ⟨m, rfl, -⟩ := expression_eq_ok hexpr
      exact Or.inr ⟨m, rfl, hexpr, reason, hb⟩

end

end Validator

/-! ## The nodes that validation lets through -/

namespace Validator

/-- Whether all nodes in what a validator accepts are values. -/
def onlyValues : Validator → Bool
  | value | valueOf _ | scalarValue | literal | literalPayload | string | integer | boolean
  | dataType | schema | oneOf _ | columnOf _ | comparableWith _ | sameLengthAs _ => true
  | optional inner | tupleOf inner | mapOf inner => inner.onlyValues
  | either first second => first.onlyValues && second.onlyValues
  | any | instanceOf _ | sortKey | rowsOf _ => false

theorem expression_allNodes {P : Node → Prop} (hlit : ∀ v, P (.literal v)) {raw a : Arg}
    (h : expression raw = .ok a) (hraw : raw.AllNodes P) : a.AllNodes P := by
  obtain ⟨m, rfl, -, rfl | ⟨v, rfl, rfl⟩⟩ := expression_eq_ok h
  · exact hraw
  · exact Arg.allNodes_node.2 (hlit v)

theorem sequence_allNodes {P : Node → Prop} {check : Arg → Except String Arg} {raw : Arg}
    {out : List Arg} (hcheck : ∀ x y, check x = .ok y → x.AllNodes P → y.AllNodes P)
    (h : sequence check raw = .ok out) (hraw : raw.AllNodes P) :
    (Arg.seq out).AllNodes P := by
  obtain ⟨items, hitems, hall⟩ := sequence_eq_ok h
  have hgiven : ∀ x ∈ items, x.AllNodes P := by
    rcases hitems with rfl | rfl
    · exact Arg.allNodes_seq.1 hraw
    · intro x hx
      rw [List.mem_singleton.1 hx]
      exact hraw
  refine Arg.allNodes_seq.2 fun y hy => ?_
  obtain ⟨x, hx, hxy⟩ := exists_of_forall₂_right hall hy
  exact hcheck x y hxy (hgiven x hx)

theorem validate_allNodes {P : Node → Prop} (hlit : ∀ v, P (.literal v))
    (hkey : ∀ m, m.kind.isValue = true → P m → P (.sortKey (.node m) true)) {v : Validator}
    {raw a : Arg} {bound : Fields} (h : v.validate raw bound = .ok a)
    (hraw : raw.AllNodes P) :
    a.AllNodes P := by
  induction v generalizing raw a with
  | any => cases h; exact hraw
  | instanceOf kind => rw [(ofKind_eq_ok h).1]; exact hraw
  | value => exact expression_allNodes hlit h hraw
  | valueOf family => exact expression_allNodes hlit (ofFamily_eq_ok h).1 hraw
  | scalarValue => exact expression_allNodes hlit (scalarValue_eq_ok h).1 hraw
  | literal => exact expression_allNodes hlit (literal_eq_ok h).1 hraw
  | literalPayload =>
      obtain ⟨v, rfl⟩ := payload_eq_ok h
      exact Arg.allNodes_value v
  | string | integer | boolean | dataType => rw [(ofView_eq_ok h).1]; exact hraw
  | schema => rw [(schema_eq_ok h).1]; exact hraw
  | optional inner ih =>
      rcases optional_eq_ok h with ⟨-, rfl⟩ | ⟨-, h⟩
      · exact Arg.allNodes_none
      · exact ih h hraw
  | tupleOf inner ih =>
      obtain ⟨out, rfl, hout⟩ := tupleOf_eq_ok h
      exact sequence_allNodes (fun x y hxy => ih hxy) hout hraw
  | mapOf inner ih =>
      obtain ⟨entries, out, rfl, rfl, hout⟩ := mapOf_eq_ok h
      refine Arg.allNodes_map.2 fun y hy => ?_
      obtain ⟨x, hx, -, hxy⟩ := exists_of_forall₂_right (eachEntry_eq_ok hout) hy
      exact ih hxy (Arg.allNodes_map.1 hraw x hx)
  | either first second ihFirst ihSecond =>
      rcases either_eq_ok.1 h with h | ⟨-, h⟩
      · exact ihFirst h hraw
      · exact ihSecond h hraw
  | oneOf options => rw [(oneOf_eq_ok h).1]; exact hraw
  | columnOf field => rw [(columnName_eq_ok h).1]; exact hraw
  | comparableWith field => exact expression_allNodes hlit (comparable_eq_ok h) hraw
  | sameLengthAs field =>
      obtain ⟨out, -, rfl, hout, -⟩ := sameLength_eq_ok h
      exact sequence_allNodes (fun x y hxy => expression_allNodes hlit hxy) hout hraw
  | sortKey =>
      rcases sortKey_eq_ok h with ⟨rfl, -⟩ | ⟨m, rfl, hexpr, -⟩
      · exact hraw
      · obtain ⟨_, hnode, hm, -⟩ := expression_eq_ok hexpr
        cases hnode
        exact Arg.allNodes_node.2
          (hkey m hm (Arg.allNodes_node.1 (expression_allNodes hlit hexpr hraw)))
  | rowsOf field => rw [(rows_eq_ok h).1]; exact hraw

theorem expression_isValue {raw a : Arg} (h : expression raw = .ok a) :
    a.AllNodes (·.kind.isValue = true) := by
  obtain ⟨m, rfl, hm, -⟩ := expression_eq_ok h
  exact Arg.allNodes_node.2 hm

theorem sequence_isValue {check : Arg → Except String Arg} {raw : Arg} {out : List Arg}
    (hcheck : ∀ x y, check x = .ok y → y.AllNodes (·.kind.isValue = true))
    (h : sequence check raw = .ok out) : (Arg.seq out).AllNodes (·.kind.isValue = true) := by
  obtain ⟨items, -, hall⟩ := sequence_eq_ok h
  refine Arg.allNodes_seq.2 fun y hy => ?_
  obtain ⟨x, -, hxy⟩ := exists_of_forall₂_right hall hy
  exact hcheck x y hxy

theorem validate_isValue {v : Validator} (hv : v.onlyValues = true) {raw a : Arg}
    {bound : Fields} (h : v.validate raw bound = .ok a) :
    a.AllNodes (·.kind.isValue = true) := by
  induction v generalizing raw a with
  | any | instanceOf _ | sortKey | rowsOf _ => cases hv
  | value => exact expression_isValue h
  | valueOf family => exact expression_isValue (ofFamily_eq_ok h).1
  | scalarValue => exact expression_isValue (scalarValue_eq_ok h).1
  | literal => exact expression_isValue (literal_eq_ok h).1
  | literalPayload =>
      obtain ⟨v, rfl⟩ := payload_eq_ok h
      exact Arg.allNodes_value v
  | string | integer | boolean =>
      obtain ⟨rfl, x, hx⟩ := ofView_eq_ok h
      cases a <;> first | exact Arg.allNodes_value _ | cases hx
  | dataType =>
      obtain ⟨rfl, x, hx⟩ := ofView_eq_ok h
      cases a <;> simp [Arg.type?] at hx
      simp [Arg.AllNodes, Arg.nodes]
  | schema =>
      obtain ⟨rfl, s, hs, -⟩ := schema_eq_ok h
      cases a <;> simp [Arg.schema?] at hs
      simp [Arg.AllNodes, Arg.nodes]
  | optional inner ih =>
      rcases optional_eq_ok h with ⟨-, rfl⟩ | ⟨-, h⟩
      · exact Arg.allNodes_none
      · exact ih hv h
  | tupleOf inner ih =>
      obtain ⟨out, rfl, hout⟩ := tupleOf_eq_ok h
      exact sequence_isValue (fun x y hxy => ih hv hxy) hout
  | mapOf inner ih =>
      obtain ⟨entries, out, rfl, rfl, hout⟩ := mapOf_eq_ok h
      refine Arg.allNodes_map.2 fun y hy => ?_
      obtain ⟨x, -, -, hxy⟩ := exists_of_forall₂_right (eachEntry_eq_ok hout) hy
      exact ih hv hxy
  | either first second ihFirst ihSecond =>
      rw [onlyValues, Bool.and_eq_true] at hv
      rcases either_eq_ok.1 h with h | ⟨-, h⟩
      · exact ihFirst hv.1 h
      · exact ihSecond hv.2 h
  | oneOf options =>
      obtain ⟨rfl, s, hs, -⟩ := oneOf_eq_ok h
      cases a <;> first | exact Arg.allNodes_value _ | cases hs
  | columnOf field =>
      obtain ⟨rfl, name, -, hname, -⟩ := columnName_eq_ok h
      cases a <;> first | exact Arg.allNodes_value _ | cases hname
  | comparableWith field => exact expression_isValue (comparable_eq_ok h)
  | sameLengthAs field =>
      obtain ⟨out, -, rfl, hout, -⟩ := sameLength_eq_ok h
      exact sequence_isValue (fun x y hxy => expression_isValue hxy) hout

end Validator

/-! ## The fields of a call -/

/-- The default of the parameter, if there is one, holds no nodes. -/
def Parameter.PlainDefault (p : Parameter) : Prop :=
  ∀ make, p.default = .produced make → ∀ bound, (make bound).nodes = []

namespace Signature

/-- `Accepts P bound params fields`: after the fields `bound`, each parameter adds a field
of its name, with what its validator makes of an argument whose nodes have the property. -/
inductive Accepts (P : Node → Prop) : Fields → List Parameter → Fields → Prop
  | nil {bound : Fields} : Accepts P bound [] bound
  | cons {bound fields : Fields} {p : Parameter} {rest : List Parameter} {raw a : Arg}
      (given : raw.AllNodes P) (valid : p.validator.validate raw bound = .ok a)
      (tail : Accepts P (bound ++ [(p.name, a)]) rest fields) :
      Accepts P bound (p :: rest) fields

namespace Accepts

variable {P : Node → Prop} {bound fields : Fields} {params : List Parameter}

theorem bound_prefix (h : Accepts P bound params fields) : bound <+: fields := by
  induction h with
  | nil => exact List.prefix_refl _
  | cons _ _ _ ih => exact (List.prefix_append _ _).trans ih

theorem names (h : Accepts P bound params fields) :
    Fields.names fields = Fields.names bound ++ params.map (·.name) := by
  induction h with
  | nil => simp
  | cons _ _ _ ih => rw [ih, Fields.names_append]; simp [Fields.names]

/-- Where the field of a parameter comes from. -/
theorem of_mem (h : Accepts P bound params fields) {p : Parameter} (hp : p ∈ params) :
    ∃ raw before a, raw.AllNodes P ∧ p.validator.validate raw before = .ok a
      ∧ before ++ [(p.name, a)] <+: fields := by
  induction h with
  | nil => cases hp
  | cons given valid tail ih =>
      rcases List.mem_cons.1 hp with rfl | hp
      · exact ⟨_, _, _, given, valid, tail.bound_prefix⟩
      · exact ih hp

/-- Every field that was not there before is that of a parameter. -/
theorem field_of_mem (h : Accepts P bound params fields) {field : String × Arg}
    (hfield : field ∈ fields) :
    field ∈ bound ∨ ∃ p ∈ params, ∃ raw before,
      raw.AllNodes P ∧ p.validator.validate raw before = .ok field.2 := by
  induction h with
  | nil => exact Or.inl hfield
  | cons given valid tail ih =>
      rcases ih hfield with hb | ⟨p, hp, h⟩
      · rcases List.mem_append.1 hb with hb | hb
        · exact Or.inl hb
        · rw [List.mem_singleton.1 hb]
          exact Or.inr ⟨_, List.mem_cons_self, _, _, given, valid⟩
      · exact Or.inr ⟨p, List.mem_cons_of_mem _ hp, h⟩

end Accepts

/-- The slots belong to the parameters, and the nodes of what they were given have the
property. -/
def Slots (P : Node → Prop) (params : List Parameter)
    (slots : List (Parameter × Option Arg)) : Prop :=
  slots.map (·.1) = params ∧ ∀ slot ∈ slots, ∀ a, slot.2 = some a → a.AllNodes P

theorem slots_cons {P : Node → Prop} {p : Parameter} {params : List Parameter}
    {slot : Option Arg} {slots : List (Parameter × Option Arg)}
    (hslot : ∀ a, slot = some a → a.AllNodes P) (hslots : Slots P params slots) :
    Slots P (p :: params) ((p, slot) :: slots) := by
  refine ⟨by rw [List.map_cons, hslots.1], ?_⟩
  intro s hs a ha
  rcases List.mem_cons.1 hs with rfl | hs
  · exact hslot a ha
  · exact hslots.2 s hs a ha

theorem takePositional_slots {P : Node → Prop} (params : List Parameter) {args : List Arg}
    (hargs : ∀ a ∈ args, a.AllNodes P) : Slots P params (takePositional params args).1 := by
  induction params generalizing args with
  | nil => exact ⟨rfl, fun _ hs => by cases hs⟩
  | cons p rest ih =>
      rw [takePositional]
      cases p.binding with
      | positional =>
          refine slots_cons ?_ (ih fun a ha => hargs a (List.mem_of_mem_tail ha))
          intro a ha
          exact hargs a (List.mem_of_mem_head? ha)
      | variadic =>
          refine slots_cons ?_ (ih fun a ha => by cases ha)
          intro a ha
          split at ha
          · cases ha
          · cases ha
            exact Arg.allNodes_seq.2 hargs
      | keyword => exact slots_cons (fun a ha => by cases ha) (ih hargs)

theorem giveKeyword_slots {P : Node → Prop} {owner name : String} {a : Arg}
    (ha : a.AllNodes P) {params : List Parameter} {slots out : List (Parameter × Option Arg)}
    (hslots : Slots P params slots) (h : giveKeyword owner name a slots = .ok out) :
    Slots P params out := by
  induction slots generalizing params out with
  | nil => cases h
  | cons slot rest ih =>
      obtain ⟨p, given⟩ := slot
      obtain ⟨rfl, hall⟩ := hslots
      have hrest : Slots P (rest.map (·.1)) rest :=
        ⟨rfl, fun s hs => hall s (List.mem_cons_of_mem _ hs)⟩
      rw [giveKeyword.eq_def] at h
      simp only [] at h
      split at h
      · cases given with
        | none =>
            cases h
            exact slots_cons (fun b hb => by cases hb; exact ha) hrest
        | some b => cases h
      · obtain ⟨tail, htail, h⟩ := bind_eq_ok.1 h
        cases h
        exact slots_cons (fun b hb => hall _ List.mem_cons_self b hb) (ih hrest htail)

theorem giveKeywords_slots {P : Node → Prop} {owner : String} {kwargs : List (String × Arg)}
    (hkwargs : ∀ kw ∈ kwargs, kw.2.AllNodes P) {params : List Parameter}
    {slots out : List (Parameter × Option Arg)} (hslots : Slots P params slots)
    (h : giveKeywords owner slots kwargs = .ok out) : Slots P params out := by
  induction kwargs generalizing slots with
  | nil => cases h; exact hslots
  | cons kw rest ih =>
      rw [giveKeywords] at h
      obtain ⟨more, hmore, h⟩ := bind_eq_ok.1 h
      exact ih (fun kw hkw => hkwargs kw (List.mem_cons_of_mem _ hkw))
        (giveKeyword_slots (hkwargs _ List.mem_cons_self) hslots hmore) h

theorem argument_allNodes {P : Node → Prop} {owner : String} {bound : Fields} {p : Parameter}
    {slot : Option Arg} {a : Arg} (hp : p.PlainDefault)
    (hslot : ∀ a, slot = some a → a.AllNodes P) (h : argument owner bound p slot = .ok a) :
    a.AllNodes P := by
  cases slot with
  | some b => cases h; exact hslot _ rfl
  | none =>
      rw [argument] at h
      split at h
      · next make hmake =>
          cases h
          intro m hm
          rw [hp make hmake bound] at hm
          cases hm
      · split at h
        · cases h
          exact Arg.allNodes_seq.2 fun a ha => by cases ha
        · cases h

/-- The first parameter is bound before the others. -/
theorem bindSlots_cons {owner : String} {p : Parameter} {slot : Option Arg}
    {slots : List (Parameter × Option Arg)} {bound fields : Fields}
    (h : bindSlots owner bound ((p, slot) :: slots) = .ok fields) :
    ∃ raw a, argument owner bound p slot = .ok raw ∧ p.validator.validate raw bound = .ok a
      ∧ bindSlots owner (Fields.insert bound p.name a) slots = .ok fields := by
  rw [bindSlots] at h
  obtain ⟨raw, hraw, h⟩ := bind_eq_ok.1 h
  split at h
  · next a ha => exact ⟨raw, a, hraw, ha, h⟩
  · cases h

theorem bindSlots_accepts {P : Node → Prop} {owner : String}
    {slots : List (Parameter × Option Arg)} {params : List Parameter} {bound fields : Fields}
    (hslots : Slots P params slots) (hparams : ∀ p ∈ params, p.PlainDefault)
    (hnames : (Fields.names bound ++ params.map (·.name)).Nodup)
    (h : bindSlots owner bound slots = .ok fields) : Accepts P bound params fields := by
  induction slots generalizing params bound with
  | nil =>
      cases h
      rw [← hslots.1]
      exact .nil
  | cons slot rest ih =>
      obtain ⟨p, given⟩ := slot
      obtain ⟨rfl, hall⟩ := hslots
      rw [bindSlots] at h
      obtain ⟨raw, hraw, h⟩ := bind_eq_ok.1 h
      have hgiven : raw.AllNodes P :=
        argument_allNodes (hparams p (by simp)) (hall _ List.mem_cons_self) hraw
      have hnew : p.name ∉ Fields.names bound := by
        intro hmem
        simp only [List.map_cons] at hnames
        exact (List.nodup_append.1 hnames).2.2 _ hmem _ List.mem_cons_self rfl
      split at h
      · next a ha =>
          rw [Fields.insert_of_notMem hnew] at h
          refine .cons hgiven ha
            (ih ⟨rfl, fun s hs => hall s (List.mem_cons_of_mem _ hs)⟩ ?_ ?_ h)
          · intro q hq
            exact hparams q (List.mem_cons_of_mem _ hq)
          · rw [Fields.names_append, List.append_assoc]
            exact hnames
      · cases h

theorem validate_accepts {P : Node → Prop} {s : Signature} {owner : String} {args : List Arg}
    {kwargs : List (String × Arg)} {fields : Fields}
    (hparams : ∀ p ∈ s.params, p.PlainDefault) (hnames : (s.params.map (·.name)).Nodup)
    (hargs : ∀ a ∈ args, a.AllNodes P) (hkwargs : ∀ kw ∈ kwargs, kw.2.AllNodes P)
    (h : s.validate owner args kwargs = .ok fields) :
    Accepts P [] s.params fields := by
  rw [validate] at h
  have hslots := takePositional_slots s.params hargs
  simp only [] at h
  split at h
  · obtain ⟨slots, hgive, h⟩ := bind_eq_ok.1 h
    exact bindSlots_accepts (giveKeywords_slots hkwargs hslots hgive) hparams
      (by simpa [Fields.names]) h
  · cases h

end Signature

end TypedQuery
