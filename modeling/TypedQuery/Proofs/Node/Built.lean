import TypedQuery.Node.Basic
import TypedQuery.Proofs.Node.Accepted

/-!
# Nodes that build

`Node.Built` says that a node came about by building, and so did every node that went into
it. What is known of such a node comes from the signature and the attributes of its kind:
its fields were validated, its attributes were derived from them, and the nodes in its
fields were built too. Attributes hold no nodes, and neither do the defaults of parameters,
so the fields are the only place where nodes are kept.
-/

namespace TypedQuery

/-! ## What definitions take from declarations

A property of single parameters that survives the loss of a position holds in a
definition when it holds in the declarations that the definition is put together from.
The same is true of attributes.
-/

namespace Signature

theorem eq_or_mem_of_mem_insert {p q : Parameter} {params : List Parameter}
    (h : q ∈ insert p params) : q = p ∨ q ∈ params := by
  induction params with
  | nil => exact Or.inl (List.mem_singleton.1 h)
  | cons r rest ih =>
      rw [insert] at h
      split at h
      · rcases List.mem_cons.1 h with h | h
        · exact Or.inl h
        · exact Or.inr (List.mem_cons_of_mem _ h)
      · rcases List.mem_cons.1 h with rfl | h
        · exact Or.inr List.mem_cons_self
        · rcases ih h with h | h
          · exact Or.inl h
          · exact Or.inr (List.mem_cons_of_mem _ h)

theorem mem_or_mem_of_mem_insertAll {q : Parameter} {params more : List Parameter}
    (h : q ∈ insertAll params more) : q ∈ params ∨ q ∈ more := by
  induction more generalizing params with
  | nil => exact Or.inl h
  | cons p rest ih =>
      rcases ih h with h | h
      · rcases eq_or_mem_of_mem_insert h with rfl | h
        · exact Or.inr List.mem_cons_self
        · exact Or.inl h
      · exact Or.inr (List.mem_cons_of_mem _ h)

theorem forall_closeAfterVariadic {P : Parameter → Prop} (hkey : ∀ p, P p → P p.keywordOnly)
    {params : List Parameter} (h : ∀ p ∈ params, P p) (after : Bool) :
    ∀ p ∈ closeAfterVariadic after params, P p := by
  induction params generalizing after with
  | nil => intro p hp; cases hp
  | cons q rest ih =>
      intro p hp
      rcases List.mem_cons.1 hp with rfl | hp
      · split
        · exact hkey _ (h q List.mem_cons_self)
        · exact h q List.mem_cons_self
      · exact ih (fun p hp => h p (List.mem_cons_of_mem _ hp)) _ p hp

theorem forall_merge {P : Parameter → Prop} (hkey : ∀ p, P p → P p.keywordOnly)
    {parents : List Signature} {declared : Signature}
    (hparents : ∀ s ∈ parents, ∀ p ∈ s.params, P p)
    (hdeclared : ∀ p ∈ declared.params, P p) :
    ∀ p ∈ (merge parents declared).params, P p := by
  have hinherited : ∀ p ∈ insertAll [] (parents.flatMap (·.params)), P p := by
    intro p hp
    rcases mem_or_mem_of_mem_insertAll hp with hp | hp
    · cases hp
    · obtain ⟨s, hs, hp⟩ := List.mem_flatMap.1 hp
      exact hparents s hs p hp
  refine forall_closeAfterVariadic hkey ?_ false
  have hall : ∀ p ∈ insertAll (insertAll [] (parents.flatMap (·.params)))
      (if (insertAll [] (parents.flatMap (·.params))).any Parameter.isVariadic then
        declared.params.map Parameter.keywordOnly else declared.params), P p := by
    intro p hp
    rcases mem_or_mem_of_mem_insertAll hp with hp | hp
    · exact hinherited p hp
    · split at hp
      · obtain ⟨q, hq, rfl⟩ := List.mem_map.1 hp
        exact hkey q (hdeclared q hq)
      · exact hdeclared p hp
  intro p hp
  simp only [List.mem_append, List.mem_filter] at hp
  rcases hp with ((hp | hp) | hp) | hp <;> exact hall p hp.1

end Signature

namespace Catalogue

theorem eq_or_mem_of_mem_insertAttribute {attributes : List (String × Attribute)}
    {name : String} {rule : Attribute} {x : String × Attribute}
    (h : x ∈ insertAttribute attributes name rule) :
    x.2 = rule ∨ x ∈ attributes := by
  induction attributes with
  | nil =>
      rw [List.mem_singleton.1 h]
      exact Or.inl rfl
  | cons y rest ih =>
      obtain ⟨other, r⟩ := y
      rw [insertAttribute] at h
      split at h
      · rcases List.mem_cons.1 h with rfl | h
        · exact Or.inl rfl
        · exact Or.inr (List.mem_cons_of_mem _ h)
      · rcases List.mem_cons.1 h with rfl | h
        · exact Or.inr List.mem_cons_self
        · rcases ih h with h | h
          · exact Or.inl h
          · exact Or.inr (List.mem_cons_of_mem _ h)

theorem forall_inherit {P : Parameter → Prop} {Q : Attribute → Prop}
    (hkey : ∀ p, P p → P p.keywordOnly) {above declared : Definition}
    (habove : (∀ p ∈ above.signature.params, P p) ∧ ∀ x ∈ above.attributes, Q x.2)
    (hdeclared : (∀ p ∈ declared.signature.params, P p) ∧ ∀ x ∈ declared.attributes, Q x.2) :
    (∀ p ∈ (inherit above declared).signature.params, P p)
      ∧ ∀ x ∈ (inherit above declared).attributes, Q x.2 := by
  constructor
  · refine Signature.forall_merge hkey ?_ hdeclared.1
    intro s hs
    rw [List.mem_singleton.1 hs]
    exact habove.1
  · have hfold : ∀ (more attributes : List (String × Attribute)), (∀ x ∈ attributes, Q x.2) →
        (∀ x ∈ more, Q x.2) →
        ∀ x ∈ more.foldl (fun as x => insertAttribute as x.1 x.2) attributes, Q x.2 := by
      intro more
      induction more with
      | nil => intro attributes h _; exact h
      | cons y rest ih =>
          intro attributes h hmore
          refine ih _ ?_ fun x hx => hmore x (List.mem_cons_of_mem _ hx)
          intro x hx
          rcases eq_or_mem_of_mem_insertAttribute hx with hx | hx
          · rw [hx]; exact hmore y List.mem_cons_self
          · exact h x hx
    exact hfold _ _ habove.2 hdeclared.2

theorem forall_definition {P : Parameter → Prop} {Q : Attribute → Prop}
    (hkey : ∀ p, P p → P p.keywordOnly) (k : NodeKind)
    (h : ∀ a ∈ k.lineage, (∀ p ∈ (declaration a).signature.params, P p)
      ∧ ∀ x ∈ (declaration a).attributes, Q x.2) :
    (∀ p ∈ k.definition.signature.params, P p) ∧ ∀ x ∈ k.definition.attributes, Q x.2 := by
  unfold NodeKind.definition
  generalize k.lineage = kinds at h ⊢
  induction kinds with
  | nil =>
      exact ⟨fun p hp => absurd hp List.not_mem_nil, fun x hx => absurd hx List.not_mem_nil⟩
  | cons a rest ih =>
      exact forall_inherit hkey (ih fun b hb => h b (List.mem_cons_of_mem _ hb))
        (h a List.mem_cons_self)

end Catalogue

/-! ## Plain definitions -/

/-- Whatever the attribute is derived to be, it holds no nodes. -/
def Attribute.Plain (rule : Attribute) : Prop := ∀ bound a, rule bound = .ok a → a.nodes = []

namespace Parameter

theorem plainDefault_required (name : String) (v : Validator) :
    (required name v).PlainDefault := by
  intro make h
  cases h

theorem plainDefault_variadic (name : String) (v : Validator) :
    (variadic name v).PlainDefault := by
  intro make h
  cases h

theorem plainDefault_produced {name : String} {make : Fields → Arg} {v : Validator}
    (h : ∀ bound, (make bound).nodes = []) : (produced name make v).PlainDefault := by
  intro make' hmake
  cases hmake
  exact h

theorem plainDefault_defaulted {name : String} {a : Arg} {v : Validator} (h : a.nodes = []) :
    (defaulted name a v).PlainDefault :=
  plainDefault_produced fun _ => h

theorem plainDefault_optional (name : String) (v : Validator) :
    (optional name v).PlainDefault :=
  plainDefault_defaulted rfl

theorem plainDefault_keywordOnly {p : Parameter} (h : p.PlainDefault) :
    p.keywordOnly.PlainDefault := by
  unfold keywordOnly
  split <;> exact h

end Parameter

namespace Catalogue

open Parameter

theorem plainDefault_takes {params : List (String × Validator)} :
    ∀ p ∈ takes params, p.PlainDefault := by
  intro p hp
  obtain ⟨x, -, rfl⟩ := List.mem_map.1 hp
  exact plainDefault_required _ _

theorem plainDefault_many (name : String) (v : Validator) : (many name v).PlainDefault :=
  plainDefault_defaulted rfl

theorem plain_hasType (rule : Fields → Except Error DataType) :
    Attribute.Plain (hasType rule).2 := by
  intro bound a h
  obtain ⟨t, -, rfl⟩ := map_eq_ok.1 h
  rfl

theorem plain_ofType (t : DataType) : Attribute.Plain (ofType t).2 := plain_hasType _

theorem plain_hasShape (rule : Fields → Except Error Shape) :
    Attribute.Plain (hasShape rule).2 := by
  intro bound a h
  obtain ⟨s, -, rfl⟩ := map_eq_ok.1 h
  rfl

theorem plain_hasSchema (rule : Fields → Except Error Schema) :
    Attribute.Plain (hasSchema rule).2 := by
  intro bound a h
  obtain ⟨s, -, rfl⟩ := map_eq_ok.1 h
  rfl

theorem declaration_params_plain (k : NodeKind) :
    ∀ p ∈ (declaration k).signature.params, p.PlainDefault := by
  cases k <;>
    simp only [declaration, declare, declareAbstract, List.mem_append, List.mem_cons,
      List.not_mem_nil, or_false, or_imp, forall_and, forall_eq, false_imp_iff, implies_true,
      plainDefault_required, plainDefault_optional, plainDefault_variadic, plainDefault_many,
      true_and, and_true]
  all_goals
    first
      | exact plainDefault_takes
      | exact plainDefault_defaulted rfl
      | exact ⟨plainDefault_takes, plainDefault_defaulted rfl⟩
      | exact plainDefault_produced fun _ => rfl

theorem declaration_attributes_plain (k : NodeKind) :
    ∀ x ∈ (declaration k).attributes, Attribute.Plain x.2 := by
  cases k <;>
    simp only [declaration, declare, declareAbstract, List.mem_cons,
      List.not_mem_nil, or_false, or_imp, forall_and, forall_eq, false_imp_iff, implies_true,
      plain_hasType, plain_ofType, plain_hasShape, plain_hasSchema, and_true]

end Catalogue

namespace NodeKind

theorem mem_all (k : NodeKind) : k ∈ all := by cases k <;> decide

theorem definition_plain (k : NodeKind) :
    (∀ p ∈ k.definition.signature.params, p.PlainDefault)
      ∧ ∀ x ∈ k.definition.attributes, Attribute.Plain x.2 :=
  Catalogue.forall_definition (fun _ h => Parameter.plainDefault_keywordOnly h) k
    fun a _ => ⟨Catalogue.declaration_params_plain a,
      Catalogue.declaration_attributes_plain a⟩

theorem params_names_nodup (k : NodeKind) :
    (k.definition.signature.params.map (·.name)).Nodup := by
  have h : ∀ k ∈ all, (k.definition.signature.params.map (·.name)).Nodup := by
    set_option maxRecDepth 2000 in decide
  exact h k k.mem_all

/-- What the parameter of a name accepts. -/
def validator? (k : NodeKind) (name : String) : Option Validator :=
  (k.definition.signature.param? name).map (·.validator)

end NodeKind

/-! ## Nodes that build -/

namespace Node

variable {kind : NodeKind} {args : List Arg} {kwargs : List (String × Arg)} {n m : Node}

/-- Building succeeds when the call makes fields and the attributes can be derived from
them. -/
theorem build_eq_ok : build kind args kwargs = .ok n ↔ kind.definition.isAbstract = false
    ∧ ∃ fields attributes,
      kind.definition.signature.validate kind.name args kwargs = .ok fields
      ∧ derive kind fields [] kind.definition.attributes = .ok attributes
      ∧ n = .mk kind fields attributes := by
  unfold build
  simp only []
  split
  · next h => simp [h]
  · next h =>
      simp only [bind_eq_ok, Bool.eq_false_iff.2 h, true_and]
      refine exists_congr fun fields => ?_
      rw [exists_and_left]
      refine and_congr_right fun _ => exists_congr fun attributes =>
        and_congr_right fun _ => ?_
      exact ⟨fun h => by cases h; rfl, fun h => by rw [h]⟩

theorem kind_of_build (h : build kind args kwargs = .ok n) : n.kind = kind := by
  obtain ⟨-, fields, attributes, -, -, rfl⟩ := build_eq_ok.1 h
  rfl

/-- What the nodes in a call have, the nodes in the fields have that were made of them. -/
theorem accepts_of_build {P : Node → Prop} (hargs : ∀ a ∈ args, a.AllNodes P)
    (hkwargs : ∀ kw ∈ kwargs, kw.2.AllNodes P) (h : build kind args kwargs = .ok n) :
    Signature.Accepts P [] n.kind.definition.signature.params n.fields := by
  obtain ⟨-, fields, attributes, hfields, -, rfl⟩ := build_eq_ok.1 h
  exact Signature.validate_accepts kind.definition_plain.1 kind.params_names_nodup
    hargs hkwargs hfields

theorem forall_children_of_build {P : Node → Prop} (hlit : ∀ v, P (literal v))
    (hkey : ∀ k : Node, k.kind.isValue = true → P k → P (sortKey (.node k) true))
    (hargs : ∀ a ∈ args, a.AllNodes P) (hkwargs : ∀ kw ∈ kwargs, kw.2.AllNodes P)
    (h : build kind args kwargs = .ok n) : ∀ m ∈ n.children, P m := by
  intro m hm
  obtain ⟨field, hfield, hm⟩ := Arg.mem_nodesOfFields.1 hm
  rcases (accepts_of_build hargs hkwargs h).field_of_mem hfield
    with hnil | ⟨p, -, raw, before, hraw, hvalid⟩
  · cases hnil
  · exact Validator.validate_allNodes hlit hkey hvalid hraw m hm

theorem build_literal_value (v : Value) :
    build .literal [.value v] [] = .ok (literal v) := rfl

theorem build_sortKey_ascending (hm : m.kind.isValue = true) :
    build .sortKey [.node m, .bool true] [] = .ok (sortKey (.node m) true) := by
  have hexpr : Validator.expression (.node m) = .ok (.node m) := by
    rw [Validator.expression, if_pos hm]
  have hfields : NodeKind.sortKey.definition.signature.validate "SortKey"
      [.node m, .bool true] [] = .ok [("expr", .node m), ("ascending", .bool true)] := by
    show Signature.bindSlots "SortKey" []
      [(.required "expr" .value, some (.node m)),
        (.defaulted "ascending" (.bool true) .boolean, some (.bool true))] = _
    rw [Signature.bindSlots]
    simp only [Parameter.required, Signature.argument, Validator.validate, bind,
      Except.bind, hexpr]
    rfl
  show (NodeKind.sortKey.definition.signature.validate "SortKey"
    [.node m, .bool true] [] >>= _) = _
  rw [hfields]
  rfl

end Node

/-- A node that came about by building, from nodes that did. -/
inductive Node.Built : Node → Prop
  | build {kind : NodeKind} {args : List Arg} {kwargs : List (String × Arg)} {n : Node}
      (args_built : ∀ a ∈ args, ∀ m ∈ a.nodes, Built m)
      (kwargs_built : ∀ kw ∈ kwargs, ∀ m ∈ kw.2.nodes, Built m)
      (built : Node.build kind args kwargs = .ok n) : Built n

namespace Node.Built

variable {n m : Node}

theorem of_build {kind : NodeKind} {args : List Arg} {kwargs : List (String × Arg)}
    (h : Node.build kind args kwargs = .ok n) (hargs : ∀ m ∈ Arg.nodesOfItems args, m.Built)
    (hkwargs : ∀ m ∈ Arg.nodesOfFields kwargs, m.Built) : n.Built :=
  .build (fun a ha m hm => hargs m (Arg.mem_nodesOfItems.2 ⟨a, ha, hm⟩))
    (fun kw hkw m hm => hkwargs m (Arg.mem_nodesOfFields.2 ⟨kw, hkw, hm⟩)) h

theorem literal (v : Value) : (Node.literal v).Built := by
  refine of_build (build_literal_value v) ?_ ?_
  · simp [Arg.nodesOfItems, Arg.nodes]
  · simp [Arg.nodesOfFields]

theorem not_abstract (h : n.Built) : n.kind.definition.isAbstract = false := by
  obtain ⟨-, -, hbuild⟩ := h
  rw [kind_of_build hbuild]
  exact (build_eq_ok.1 hbuild).1

theorem accepts (h : n.Built) :
    Signature.Accepts Node.Built [] n.kind.definition.signature.params n.fields := by
  obtain ⟨hargs, hkwargs, hbuild⟩ := h
  exact accepts_of_build hargs hkwargs hbuild

theorem derive_eq (h : n.Built) :
    Node.derive n.kind n.fields [] n.kind.definition.attributes = .ok n.attributes := by
  obtain ⟨-, -, hbuild⟩ := h
  obtain ⟨-, fields, attributes, -, hattributes, rfl⟩ := build_eq_ok.1 hbuild
  exact hattributes

theorem names_nodup (h : n.Built) : (Fields.names n.fields).Nodup := by
  rw [h.accepts.names]
  exact n.kind.params_names_nodup

theorem sortKey (h : m.Built) (hm : m.kind.isValue = true) :
    (Node.sortKey (.node m) true).Built := by
  refine of_build (build_sortKey_ascending hm) ?_ ?_
  · simpa [Arg.nodesOfItems, Arg.nodes, Arg.bool] using h
  · simp [Arg.nodesOfFields]

theorem of_mem_children (h : n.Built) (hm : m ∈ n.children) : m.Built := by
  obtain ⟨hargs, hkwargs, hbuild⟩ := h
  exact forall_children_of_build literal (fun k hk hb => sortKey hb hk) hargs
    hkwargs hbuild m hm

end Node.Built

/-! ## Fields by name -/

namespace Fields

theorem field?_append (fields more : Fields) (name : String) :
    field? (fields ++ more) name = (field? fields name).or (field? more name) := by
  unfold field?
  rw [List.find?_append]
  cases fields.find? (·.1 == name) <;> rfl

theorem field?_of_prefix {before fields : Fields} (h : before <+: fields)
    {name : String} {a : Arg} (ha : field? before name = some a) :
    field? fields name = some a := by
  obtain ⟨more, rfl⟩ := h
  rw [field?_append, ha]
  rfl

theorem mem_of_field? {fields : Fields} {name : String} {a : Arg}
    (h : field? fields name = some a) :
    (name, a) ∈ fields := by
  obtain ⟨⟨other, b⟩, hfind, rfl⟩ := Option.map_eq_some_iff.1 h
  have hname : other = name := by simpa using List.find?_some hfind
  rw [← hname]
  exact List.mem_of_find?_eq_some hfind

theorem field?_of_mem {fields : Fields} (hnodup : (names fields).Nodup)
    {name : String} {a : Arg} (h : (name, a) ∈ fields) : field? fields name = some a := by
  induction fields with
  | nil => cases h
  | cons field rest ih =>
      obtain ⟨other, b⟩ := field
      simp only [names, List.map_cons, List.nodup_cons] at hnodup
      rcases List.mem_cons.1 h with heq | h
      · cases heq
        simp [field?]
      · have hne : other ≠ name := by
          rintro rfl
          exact hnodup.1 (List.mem_map_of_mem (f := (·.1)) h)
        have := ih hnodup.2 h
        simpa [field?, hne] using this

theorem field?_cons {fields : Fields} {name other : String} {a : Arg} :
    field? ((other, a) :: fields) name = if other = name then some a
      else field? fields name := by
  unfold field?
  by_cases h : other = name <;> simp [h]

theorem field?_eq_none_iff {fields : Fields} {name : String} :
    field? fields name = none ↔ name ∉ names fields := by
  simp only [field?, names, Option.map_eq_none_iff, List.find?_eq_none, List.mem_map,
    beq_iff_eq, not_exists, not_and]

theorem field?_insert {fields : Fields} {name other : String} {a : Arg} :
    field? (insert fields name a) other = if name = other then some a
      else field? fields other := by
  induction fields with
  | nil => simp [insert, field?]
  | cons field rest ih =>
      obtain ⟨first, b⟩ := field
      rw [insert]
      split
      · next h =>
          subst h
          rw [field?_cons, field?_cons]
          split <;> rfl
      · next h =>
          rw [field?_cons, field?_cons, ih]
          split
          · next hfirst =>
              subst hfirst
              rw [if_neg (Ne.symm h)]
          · rfl

theorem names_insert (fields : Fields) (name : String) (a : Arg) :
    names (insert fields name a) = if name ∈ names fields then names fields
      else names fields ++ [name] := by
  split
  · next h =>
      induction fields with
      | nil => cases h
      | cons field rest ih =>
          obtain ⟨first, b⟩ := field
          rw [insert]
          split
          · rfl
          · next hne =>
              have hrest : name ∈ names rest :=
                (List.mem_cons.1 h).resolve_left (Ne.symm hne)
              exact congrArg (first :: ·) (ih hrest)
  · next h => rw [insert_of_notMem h, names_append]; rfl

end Fields

theorem Signature.mem_of_param? {s : Signature} {name : String} {p : Parameter}
    (h : s.param? name = some p) : p ∈ s.params ∧ p.name = name :=
  ⟨List.mem_of_find?_eq_some h, by simpa using List.find?_some h⟩

namespace Node

variable {n m : Node}

/-! Derived attributes hold no nodes, so what is read from a node by name is in its fields.
-/

theorem derive_plain {kind : NodeKind} {rules : List (String × Attribute)}
    (hrules : ∀ x ∈ rules, Attribute.Plain x.2) {context derived out : Fields}
    (hderived : ∀ x ∈ derived, x.2.nodes = [])
    (h : derive kind context derived rules = .ok out) :
    ∀ x ∈ out, x.2.nodes = [] := by
  induction rules generalizing context derived with
  | nil => cases h; exact hderived
  | cons rule rest ih =>
      obtain ⟨name, rule⟩ := rule
      rw [derive] at h
      split at h
      · next a ha =>
          refine ih (fun x hx => hrules x (List.mem_cons_of_mem _ hx)) ?_ h
          intro x hx
          rcases Fields.eq_or_mem_of_mem_insert hx with hx | hx
          · rw [hx]
            exact hrules (name, rule) List.mem_cons_self context a ha
          · exact hderived x hx
      · split at h <;> cases h

theorem mem_children_of_field? {name : String} {a : Arg}
    (h : Fields.field? n.fields name = some a) (hm : m ∈ a.nodes) : m ∈ n.children :=
  Arg.mem_nodesOfFields.2 ⟨_, Fields.mem_of_field? h, hm⟩

namespace Built

theorem attributes_plain (h : n.Built) : ∀ x ∈ n.attributes, x.2.nodes = [] :=
  derive_plain n.kind.definition_plain.2 (fun _ hx => absurd hx List.not_mem_nil) h.derive_eq

theorem mem_children_of_get? (h : n.Built) {name : String} {a : Arg}
    (ha : n.get? name = some a) (hm : m ∈ a.nodes) : m ∈ n.children := by
  unfold get? at ha
  cases hf : Fields.field? n.fields name with
  | some b =>
      rw [hf] at ha
      cases ha
      exact mem_children_of_field? hf hm
  | none =>
      rw [hf] at ha
      rw [h.attributes_plain _ (Fields.mem_of_field? ha)] at hm
      cases hm

/-- The field of a parameter, and what it was validated from. -/
theorem field?_eq (h : n.Built) {name : String} {v : Validator}
    (hv : n.kind.validator? name = some v) :
    ∃ raw before a, raw.AllNodes Built ∧ v.validate raw before = .ok a ∧ before <+: n.fields
      ∧ Fields.field? n.fields name = some a := by
  obtain ⟨p, hp, rfl⟩ := Option.map_eq_some_iff.1 hv
  obtain ⟨hmem, rfl⟩ := Signature.mem_of_param? hp
  obtain ⟨raw, before, a, hraw, hvalid, hbefore⟩ := h.accepts.of_mem hmem
  refine ⟨raw, before, a, hraw, hvalid, (List.prefix_append _ _).trans hbefore, ?_⟩
  exact Fields.field?_of_mem h.names_nodup (hbefore.subset (by simp))

theorem get?_eq (h : n.Built) {name : String} {v : Validator}
    (hv : n.kind.validator? name = some v) :
    ∃ raw before a, raw.AllNodes Built ∧ v.validate raw before = .ok a ∧ before <+: n.fields
      ∧ n.get? name = some a := by
  obtain ⟨raw, before, a, hraw, hvalid, hbefore, hfield⟩ := h.field?_eq hv
  exact ⟨raw, before, a, hraw, hvalid, hbefore, by rw [get?, hfield]; rfl⟩

end Built

/-! ## Nodes by name -/

theorem fieldAs_eq_ok {α : Type} {read : Arg → Option α} {expected name : String} {x : α}
    (h : fieldAs read expected n name = .ok x) :
    ∃ a, n.get? name = some a ∧ read a = some x := by
  unfold fieldAs at h
  obtain ⟨a, ha, h⟩ := bind_eq_ok.1 h
  have hget : n.get? name = some a := by
    unfold field at ha
    split at ha
    · next b hb => cases ha; exact hb
    · cases ha
  split at h
  · next x' hx => cases h; exact ⟨a, hget, hx⟩
  · cases h

theorem name_of_given {n : Node} (h : n.kind = .renamed ∨ n.kind = .tableColumn) :
    n.name = n.stringField "name" := by
  obtain ⟨kind, fields, attributes⟩ := n
  rcases h with h | h <;> (cases h; rw [name]; rfl)

theorem mem_nodes_of_node? {a : Arg} (h : a.node? = some m) : m ∈ a.nodes := by
  cases a <;> simp [Arg.node?] at h
  simp [Arg.nodes, h]

theorem field_eq_ok {name : String} {a : Arg} (h : n.field name = .ok a) :
    n.get? name = some a := by
  unfold field at h
  split at h
  · next b hb => cases h; exact hb
  · cases h

theorem childList_eq_ok {name : String} {ms : List Node} (h : n.childList name = .ok ms) :
    (n.get? name = some .none ∧ ms = []) ∨ n.get? name = some (.seq (ms.map Arg.node)) := by
  unfold childList at h
  obtain ⟨a, ha, hitems⟩ := bind_eq_ok.1 h
  rw [field_eq_ok ha]
  cases a with
  | none => cases hitems; exact Or.inl ⟨rfl, rfl⟩
  | seq items =>
      right
      have hall := mapM_eq_ok.1 hitems
      congr 2
      clear h ha hitems
      induction hall with
      | nil => rfl
      | cons hitem _ ih =>
          split at hitem
          · cases hitem; rw [List.map_cons, ih]
          · cases hitem
  | value _ | node _ | map _ | type _ | shape _ | schema _ => cases hitems

theorem nodesOfItems_map_node (ms : List Node) :
    Arg.nodesOfItems (ms.map Arg.node) = ms := by
  induction ms with
  | nil => rfl
  | cons m rest ih => rw [List.map_cons, Arg.nodesOfItems, ih]; rfl

namespace Built

theorem mem_children_of_child (h : n.Built) {name : String} (hm : n.child name = .ok m) :
    m ∈ n.children := by
  obtain ⟨a, ha, hm⟩ := fieldAs_eq_ok hm
  exact h.mem_children_of_get? ha (mem_nodes_of_node? hm)

theorem of_child (h : n.Built) {name : String} (hm : n.child name = .ok m) : m.Built :=
  h.of_mem_children (h.mem_children_of_child hm)

theorem mem_children_of_child? (h : n.Built) {name : String} (hm : n.child? name = some m) :
    m ∈ n.children := by
  obtain ⟨a, ha, hm⟩ := Option.bind_eq_some_iff.1 hm
  exact h.mem_children_of_get? ha (mem_nodes_of_node? hm)

theorem mem_children_of_childList (h : n.Built) {name : String} {ms : List Node}
    (hms : n.childList name = .ok ms) (hm : m ∈ ms) : m ∈ n.children := by
  rcases childList_eq_ok hms with ⟨-, rfl⟩ | hget
  · cases hm
  · refine h.mem_children_of_get? hget ?_
    rw [Arg.nodes]
    exact Arg.mem_nodesOfItems.2 ⟨.node m, List.mem_map_of_mem hm, by simp [Arg.nodes]⟩

end Built

end Node

/-! ## Fields that hold values only -/

/-- Whether all nodes in the fields of the kind are values. -/
def NodeKind.holdsValues (k : NodeKind) : Bool :=
  k.definition.signature.params.all (·.validator.onlyValues)

/-- Only a column and a count of rows hold the table that they are about. -/
theorem NodeKind.holdsValues_of_isValue {k : NodeKind} (hk : k.isValue = true)
    (hcolumn : k ≠ .tableColumn) (hrows : k ≠ .countStar) : k.holdsValues = true := by
  have h : ∀ k ∈ all, k.isValue = true → k ≠ .tableColumn → k ≠ .countStar →
      k.holdsValues = true := by set_option maxRecDepth 2000 in decide
  exact h k k.mem_all hk hcolumn hrows

/-- A value that is given as a key to sort by becomes one. -/
theorem Validator.kind_of_sortKey {raw : Arg} {before : Fields} {m : Node}
    (h : sortKey.validate raw before = .ok (.node m)) :
    m.kind = .sortKey := by
  rcases sortKey_eq_ok h with ⟨rfl, k, hraw, hk⟩ | ⟨k, ha, -⟩
  · cases hraw
    have hunder : ∀ k ∈ NodeKind.all, k.isUnder .sortKey = true → k = .sortKey := by
      set_option maxRecDepth 2000 in decide
    exact hunder m.kind m.kind.mem_all hk
  · cases ha
    rfl

namespace Node.Built

variable {n m : Node}

theorem isValue_of_mem_children (h : n.Built) (hk : n.kind.holdsValues = true)
    (hm : m ∈ n.children) : m.kind.isValue = true := by
  obtain ⟨field, hfield, hm⟩ := Arg.mem_nodesOfFields.1 hm
  rcases h.accepts.field_of_mem hfield with hnil | ⟨p, hp, raw, before, -, hvalid⟩
  · cases hnil
  · exact Validator.validate_isValue (List.all_eq_true.1 hk p hp) hvalid m hm

theorem isValue_of_get? (h : n.Built) {name : String} {v : Validator}
    (hv : n.kind.validator? name = some v) (hvalues : v.onlyValues = true) {a : Arg}
    (ha : n.get? name = some a) : a.AllNodes (·.kind.isValue = true) := by
  obtain ⟨raw, before, b, -, hvalid, -, hb⟩ := h.get?_eq hv
  rw [ha] at hb
  cases hb
  exact Validator.validate_isValue hvalues hvalid

theorem isValue_of_mem_childList (h : n.Built) {name : String} {v : Validator}
    (hv : n.kind.validator? name = some v) (hvalues : v.onlyValues = true) {ms : List Node}
    (hms : n.childList name = .ok ms) (hm : m ∈ ms) :
    m.kind.isValue = true := by
  rcases childList_eq_ok hms with ⟨-, rfl⟩ | hseq
  · cases hm
  · exact Arg.allNodes_node.1
      (Arg.allNodes_seq.1 (h.isValue_of_get? hv hvalues hseq) _ (List.mem_map_of_mem hm))

/-- The items of a sequence were validated one by one. -/
theorem validate_of_mem_childList (h : n.Built) {name : String} {v : Validator}
    (hv : n.kind.validator? name = some (.tupleOf v)) {ms : List Node}
    (hms : n.childList name = .ok ms) (hm : m ∈ ms) :
    ∃ raw before, v.validate raw before = .ok (.node m) := by
  obtain ⟨raw, before, a, -, hvalid, -, ha⟩ := h.get?_eq hv
  obtain ⟨out, rfl, hout⟩ := Validator.tupleOf_eq_ok hvalid
  rcases childList_eq_ok hms with ⟨hnone, -⟩ | hseq
  · rw [ha] at hnone
    cases hnone
  · rw [ha] at hseq
    cases hseq
    obtain ⟨items, -, hall⟩ := Validator.sequence_eq_ok hout
    obtain ⟨x, -, hx⟩ := exists_of_forall₂_right hall (List.mem_map_of_mem hm)
    exact ⟨x, before, hx⟩

/-- A sequence that has to be as long as another one is. -/
theorem length_eq_of_sameLength (h : n.Built) {name other : String}
    (hv : n.kind.validator? name = some (.sameLengthAs other)) {ms others : List Node}
    (hms : n.childList name = .ok ms) (hothers : n.childList other = .ok others) :
    ms.length = others.length := by
  obtain ⟨raw, before, a, -, hvalid, hbefore, hget⟩ := h.get?_eq hv
  obtain ⟨items, bound, rfl, -, hbound, hlength⟩ := Validator.sameLength_eq_ok hvalid
  obtain ⟨a', ha', hbound⟩ := Option.bind_eq_some_iff.1 hbound
  have hother : n.get? other = some a' := by
    rw [get?, Fields.field?_of_prefix hbefore ha']
    rfl
  rcases childList_eq_ok hms with ⟨hnone, -⟩ | hseq
  · cases hget.symm.trans hnone
  rcases childList_eq_ok hothers with ⟨hnone, -⟩ | hseq'
  · cases hother.symm.trans hnone
    cases hbound
  cases hget.symm.trans hseq
  cases hother.symm.trans hseq'
  cases hbound
  simpa using hlength

end Node.Built

end TypedQuery
