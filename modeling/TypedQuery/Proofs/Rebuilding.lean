import Mathlib.Data.List.Induction
import TypedQuery.Node.Build
import TypedQuery.Proofs.Node.Built
import TypedQuery.Proofs.Node.Rebound

/-!
# Nodes that are built again

A node built from its own fields is the same node, as every validator makes of
its own result what it was.

A node with some fields replaced is the node that its call would have built with those
fields in place of what the call gave. The one exception is the type of a literal, the only
default that depends on another field: a replaced value does not change a type that was
made for the value before it.
-/

namespace TypedQuery

/-- The fields with some changed, one after the other. -/
def Fields.overwritten (fields changes : Fields) : Fields :=
  changes.foldl (fun fields change => Fields.insert fields change.1 change.2) fields

theorem Fields.field?_overwritten (fields changes : Fields) (name : String) :
    field? (fields.overwritten changes) name
      = (field? (overwritten [] changes) name).or (field? fields name) := by
  induction changes using List.reverseRecOn with
  | nil => rfl
  | append_singleton rest change ih =>
      simp only [overwritten, List.foldl_append, List.foldl_cons, List.foldl_nil,
        field?_insert] at ih ⊢
      rw [ih]
      split <;> rfl

theorem Fields.field?_of_overwritten {fields changes : Fields} {name : String}
    (h : field? (fields.overwritten changes) name = none) : field? fields name = none := by
  rw [field?_overwritten, Option.or_eq_none_iff] at h
  exact h.2

theorem Fields.overwritten_append {fields more : Fields}
    (h : (names fields ++ names more).Nodup) :
    fields.overwritten more = fields ++ more := by
  induction more generalizing fields with
  | nil => rw [List.append_nil]; rfl
  | cons field rest ih =>
      have hnew : field.1 ∉ names fields := fun hmem =>
        (List.nodup_append.1 h).2.2 _ hmem _ List.mem_cons_self rfl
      show overwritten (insert fields field.1 field.2) rest = _
      rw [insert_of_notMem hnew, ih, List.append_assoc]
      · rfl
      · rw [names_append, List.append_assoc]
        exact h

namespace Signature

variable {owner : String} {s : Signature} {f : Parameter → Option Arg}
    {params : List Parameter}
  {bound fields call changes : Fields} {p : Parameter} {a : Arg}

theorem Takes.overwritten (h : s.Takes call)
    (hchanges : ∀ change ∈ changes, change.1 ∈ s.names) :
    s.Takes (call.overwritten changes) := by
  induction changes generalizing call with
  | nil => exact h
  | cons change rest ih =>
      obtain ⟨hname, hrest⟩ := List.forall_mem_cons.1 hchanges
      exact ih (h.insert hname change.2) hrest

theorem names_overwritten (h : Fields.names fields = s.names)
    (hchanges : ∀ change ∈ changes, change.1 ∈ s.names) :
    Fields.names (fields.overwritten changes) = s.names := by
  induction changes generalizing fields with
  | nil => exact h
  | cons change rest ih =>
      obtain ⟨hname, hrest⟩ := List.forall_mem_cons.1 hchanges
      exact ih (by rw [Fields.names_insert, h, if_pos hname]) hrest

/-- The call by name that a call comes to. -/
def byName (s : Signature) (owner : String) (args : List Arg)
    (kwargs : List (String × Arg)) : Except Error Fields := do
  .ok (named (← s.slots owner args kwargs))

theorem slots_params {args : List Arg} {kwargs : List (String × Arg)}
    {slots : List (Parameter × Option Arg)} (h : s.slots owner args kwargs = .ok slots) :
    slots.map (·.1) = s.params := by
  unfold Signature.slots at h
  simp only [] at h
  split at h
  · have hslots : Slots (fun _ => True) s.params (takePositional s.params args).1 :=
      takePositional_slots s.params fun _ _ _ _ => trivial
    exact (giveKeywords_slots (fun _ _ _ _ => trivial) hslots h).1
  · cases h

/-- The call by name makes the same fields. -/
theorem validate_byName (hnames : s.names.Nodup) {args : List Arg}
    {kwargs : List (String × Arg)} (h : s.byName owner args kwargs = .ok call) :
    s.Takes call ∧ s.validate owner [] call = s.validate owner args kwargs := by
  obtain ⟨slots, hslots, h⟩ := bind_eq_ok.1 h
  cases h
  obtain ⟨htakes, heq⟩ := eq_slotsOf_named hnames (slots_params hslots)
  refine ⟨htakes, ?_⟩
  rw [validate_named hnames htakes, ← heq, validate_eq_bind, hslots]
  rfl

theorem exists_byName {args : List Arg} {kwargs : List (String × Arg)}
    (h : s.validate owner args kwargs = .ok fields) :
    ∃ call, s.byName owner args kwargs = .ok call := by
  rw [validate_eq_bind] at h
  obtain ⟨slots, hslots, -⟩ := bind_eq_ok.1 h
  exact ⟨named slots, bind_eq_ok.2 ⟨slots, hslots, rfl⟩⟩

/-! ## What a call has made -/

/-- The field of a parameter is what it settled on in the light of the fields before it. -/
theorem settled_of_bindSlots (hnames : (Fields.names bound ++ params.map (·.name)).Nodup)
    (h : bindSlots owner bound (slotsOf f params) = .ok fields) :
    bound <+: fields ∧ Fields.names fields = Fields.names bound ++ params.map (·.name)
      ∧ ∀ p ∈ params, ∃ before a, before <+: fields ∧ settle owner before p (f p) = .ok a
        ∧ Fields.field? fields p.name = some a := by
  induction params generalizing bound with
  | nil =>
      cases h
      exact ⟨List.prefix_refl _, by simp, fun _ hp => by cases hp⟩
  | cons p rest ih =>
      have h' : bindSlots owner bound ((p, f p) :: slotsOf f rest) = .ok fields := h
      rw [bindSlots_eq_bind] at h'
      obtain ⟨a, ha, h'⟩ := bind_eq_ok.1 h'
      have hnew : p.name ∉ Fields.names bound := fun hmem =>
        (List.nodup_append.1 hnames).2.2 _ hmem _ List.mem_cons_self rfl
      rw [Fields.insert_of_notMem hnew] at h'
      have hmore : Fields.names (bound ++ [(p.name, a)]) ++ rest.map (·.name)
          = Fields.names bound ++ (p :: rest).map (·.name) := by
        rw [Fields.names_append, List.append_assoc]
        rfl
      obtain ⟨hextended, hall, hrest⟩ := ih (by rw [hmore]; exact hnames) h'
      rw [hmore] at hall
      have hbefore : bound <+: fields := (List.prefix_append _ _).trans hextended
      refine ⟨hbefore, hall, fun q hq => ?_⟩
      rcases List.mem_cons.1 hq with rfl | hq
      · refine ⟨bound, a, hbefore, ha, Fields.field?_of_mem (by rw [hall]; exact hnames) ?_⟩
        exact hextended.subset (by simp)
      · exact hrest q hq

/-- A parameter may be given what it settled on, and the same fields come about. -/
theorem bindSlots_again {g : Parameter → Option Arg}
    (hnames : (Fields.names bound ++ params.map (·.name)).Nodup)
    (hrepeatable : ∀ p ∈ params, p.validator.repeatable = true)
    (h : bindSlots owner bound (slotsOf f params) = .ok fields)
    (hg : ∀ p ∈ params, g p = f p ∨ g p = Fields.field? fields p.name) :
    bindSlots owner bound (slotsOf g params) = .ok fields := by
  induction params generalizing bound with
  | nil => exact h
  | cons p rest ih =>
      have h' : bindSlots owner bound ((p, f p) :: slotsOf f rest) = .ok fields := h
      rw [bindSlots_eq_bind] at h'
      obtain ⟨a, ha, h'⟩ := bind_eq_ok.1 h'
      have hnew : p.name ∉ Fields.names bound := fun hmem =>
        (List.nodup_append.1 hnames).2.2 _ hmem _ List.mem_cons_self rfl
      have hnames' :
          (Fields.names (Fields.insert bound p.name a) ++ rest.map (·.name)).Nodup := by
        rw [Fields.insert_of_notMem hnew, Fields.names_append, List.append_assoc]
        exact hnames
      obtain ⟨hextended, hall, -⟩ := settled_of_bindSlots hnames' h'
      obtain ⟨raw, -, hvalid⟩ := settle_eq_ok.1 ha
      have hfield : Fields.field? fields p.name = some a := by
        refine Fields.field?_of_mem (by rw [hall]; exact hnames') (hextended.subset ?_)
        rw [Fields.insert_of_notMem hnew]
        simp
      have hsettle : settle owner bound p (g p) = .ok a := by
        rcases hg p List.mem_cons_self with hgp | hgp
        · rw [hgp, ha]
        · rw [hgp, hfield]
          exact settle_some.2
            (Validator.validate_self (hrepeatable p List.mem_cons_self) hvalid)
      show bindSlots owner bound ((p, g p) :: slotsOf g rest) = .ok fields
      rw [bindSlots_eq_bind, hsettle]
      exact ih hnames' (fun q hq => hrepeatable q (List.mem_cons_of_mem _ hq)) h'
        fun q hq => hg q (List.mem_cons_of_mem _ hq)

end Signature

theorem NodeKind.slots_nodup (k : NodeKind) :
    (Fields.names [] ++ k.definition.signature.params.map (·.name)).Nodup :=
  k.params_names_nodup

namespace Node

variable {kind : NodeKind} {args args' : List Arg}
    {kwargs kwargs' call changes : Fields} {n m : Node}

theorem build_coincide
    (h : Coincide (kind.definition.signature.validate kind.name args kwargs)
      (kind.definition.signature.validate kind.name args' kwargs')) :
    Coincide (build kind args kwargs) (build kind args' kwargs') := by
  intro n
  rw [build_eq_ok, build_eq_ok]
  refine and_congr_right fun _ => exists_congr fun fields =>
    exists_congr fun attributes => ?_
  rw [h fields]

/-- The call by name that a node can be built with. -/
theorem build_byName (h : build kind args kwargs = .ok n) : ∃ call,
    kind.definition.signature.byName kind.name args kwargs = .ok call
      ∧ kind.definition.signature.Takes call ∧ build kind [] call = .ok n := by
  obtain ⟨-, fields, -, hfields, -⟩ := build_eq_ok.1 h
  obtain ⟨call, hcall⟩ := Signature.exists_byName hfields
  obtain ⟨htakes, hsame⟩ := Signature.validate_byName kind.params_names_nodup hcall
  exact ⟨call, hcall, htakes, (build_coincide (.of_eq hsame) n).2 h⟩

/-- The fields of a node are those that the call makes, one for each parameter. -/
theorem fields_of_build (h : build kind [] call = .ok n)
    (htakes : kind.definition.signature.Takes call) :
    n.kind = kind ∧ Fields.names n.fields = kind.definition.signature.names
      ∧ Signature.bindSlots kind.name []
      (Signature.slotsOf (fun p => Fields.field? call p.name)
        kind.definition.signature.params) = .ok n.fields := by
  obtain ⟨-, fields, attributes, hfields, -, rfl⟩ := build_eq_ok.1 h
  rw [Signature.validate_named kind.params_names_nodup htakes] at hfields
  exact ⟨rfl, (Signature.settled_of_bindSlots kind.slots_nodup hfields).2.1, hfields⟩

/-- A call made of fields builds what the call by name builds that gives every parameter
its field. -/
theorem build_unbind {fields : Fields}
    (h : Fields.names fields = kind.definition.signature.names) :
    Coincide (build kind (kind.definition.signature.unbind fields).1
      (kind.definition.signature.unbind fields).2) (build kind [] fields) :=
  build_coincide (Signature.validate_unbind kind.params_names_nodup
    kind.closed kind.gathers h)

/-- A node is built again from its own fields, and replacing nothing leaves it as it is. -/
theorem rebuild_self (h : build kind args kwargs = .ok n) :
    build n.kind (n.kind.definition.signature.unbind n.fields).1
      (n.kind.definition.signature.unbind n.fields).2 = .ok n
      ∧ n.replace [] = .ok n := by
  obtain ⟨call, -, htakes, hcall⟩ := build_byName h
  obtain ⟨rfl, hnames, hfields⟩ := fields_of_build hcall htakes
  have hself : build n.kind [] n.fields = .ok n := by
    refine (build_coincide (.of_eq ?_) n).1 hcall
    rw [Signature.validate_named n.kind.params_names_nodup htakes, hfields,
      Signature.validate_named n.kind.params_names_nodup
      (.of_names n.kind.params_names_nodup hnames)]
    exact (Signature.bindSlots_again n.kind.slots_nodup n.kind.repeatable hfields fun _ _ =>
      .inr rfl).symm
  have hagain := (build_unbind hnames n).2 hself
  exact ⟨hagain, hagain⟩

/-- What a variadic parameter has gathered is spread over positions again. -/
theorem rebuild_self_coalesce :
    ∃ n, build .coalesce [.value .null, .value (.int64 2)] [] = .ok n
    ∧ (n.kind.definition.signature.unbind n.fields).1.length = 2
    ∧ build n.kind (n.kind.definition.signature.unbind n.fields).1
      (n.kind.definition.signature.unbind n.fields).2
      = .ok n ∧ n.replace [] = .ok n := by
  have hbuild : build .coalesce [.value .null, .value (.int64 2)] [] = .ok _ := rfl
  exact ⟨_, hbuild, rfl, rebuild_self hbuild⟩

end Node

/-! ## Defaults -/

/-- The default of the parameter, if there is one, is always the same. -/
def Parameter.Steady (p : Parameter) : Prop :=
  ∀ make, p.default = .produced make → ∃ a, make = fun _ => a

namespace Parameter

theorem steady_required (name : String) (v : Validator) : (required name v).Steady :=
  fun _ h => by cases h

theorem steady_variadic (name : String) (v : Validator) : (variadic name v).Steady :=
  fun _ h => by cases h

theorem steady_defaulted (name : String) (a : Arg) (v : Validator) :
    (defaulted name a v).Steady :=
  fun _ h => by cases h; exact ⟨a, rfl⟩

theorem steady_optional (name : String) (v : Validator) : (optional name v).Steady :=
  steady_defaulted _ _ _

theorem steady_keywordOnly {p : Parameter} (h : p.Steady) : p.keywordOnly.Steady := by
  unfold keywordOnly
  split <;> exact h

end Parameter

open Parameter in
theorem Catalogue.declaration_steady {k : NodeKind} (hk : k ≠ .literal) :
    ∀ p ∈ (declaration k).signature.params, p.Steady := by
  have htakes {params : List (String × Validator)} : ∀ p ∈ takes params, p.Steady := by
    intro p hp
    obtain ⟨x, -, rfl⟩ := List.mem_map.1 hp
    exact steady_required _ _
  cases k <;>
    simp only [declaration, declare, declareAbstract, many, List.mem_append, List.mem_cons,
      List.not_mem_nil, or_false, or_imp, forall_and, forall_eq, false_imp_iff, implies_true,
      steady_required, steady_optional, steady_variadic, steady_defaulted,
      true_and, and_true]
  all_goals
    first
      | exact htakes
      | exact absurd rfl hk

/-- Only the type of a literal has a default that depends on another field. -/
theorem NodeKind.steady {k : NodeKind} (hk : k ≠ .literal) :
    ∀ p ∈ k.definition.signature.params, p.Steady := by
  have hlineage : ∀ k ∈ all, k ≠ .literal → .literal ∉ k.lineage := by
    set_option maxRecDepth 2000 in decide
  refine (Catalogue.forall_definition (Q := fun _ => True)
    (fun _ h => Parameter.steady_keywordOnly h) k
    fun a ha => ⟨Catalogue.declaration_steady fun h => ?_, fun _ _ => trivial⟩).1
  exact hlineage k k.mem_all hk (h ▸ ha)

namespace Signature

variable {owner : String} {p : Parameter} {before : Fields} {slot : Option Arg} {a : Arg}

/-- What a parameter settled on may be given in place of what it was given, or left
without. -/
theorem settle_again (hrepeatable : p.validator.repeatable = true)
    (hsteady : slot = none → p.Steady) (h : settle owner before p slot = .ok a)
    (bound : Fields) :
    Coincide (settle owner bound p (some a)) (settle owner bound p slot) := by
  obtain ⟨raw, hraw, hvalid⟩ := settle_eq_ok.1 h
  have hsame : argument owner bound p slot = .ok raw := by
    cases slot with
    | some b => exact hraw
    | none =>
        rw [argument] at hraw ⊢
        cases hdefault : p.default with
        | required => rw [hdefault] at hraw; exact hraw
        | produced make =>
            obtain ⟨c, rfl⟩ := hsteady rfl make hdefault
            rw [hdefault] at hraw
            exact hraw
  intro b
  rw [settle_some, Validator.validate_again hrepeatable hvalid bound b, settle_eq_ok, hsame]
  constructor
  · exact fun h => ⟨raw, rfl, h⟩
  · rintro ⟨_, heq, h⟩
    cases heq
    exact h

end Signature

namespace Node

variable {kind : NodeKind} {args : List Arg} {kwargs call changes fields : Fields} {n : Node}

/-! ## Literals -/

/-- A constant of any type. -/
def constant (v : Value) (t : DataType) : Node :=
  mk .literal [("value", .value v), ("dtype", .type t)]
    [("shape", .shape .scalar), ("dtype", .type t)]

/-- The parameter for the type of a literal. -/
def literalType : Parameter := .produced "dtype" (fun bound =>
  .type ((((Fields.field? bound "value").bind Arg.value?).map Value.dataType).getD .null))
    .dataType

/-- What a literal makes of its type when it is given one, or not. -/
theorem settle_literalType {v : Value} {slot : Option Arg} {b : Arg} :
    Signature.settle "Literal" [("value", .value v)] literalType slot = .ok b
      ↔ ∃ t, (slot = some (.type t) ∨ slot = none ∧ t = v.dataType) ∧ b = .type t := by
  rw [Signature.settle_eq_ok]
  constructor
  · rintro ⟨raw, hraw, hvalid⟩
    obtain ⟨rfl, t, ht⟩ := Validator.ofView_eq_ok hvalid
    have hb : b = .type t := by cases b <;> simp [Arg.type?] at ht; rw [ht]
    subst hb
    refine ⟨t, ?_, rfl⟩
    cases slot with
    | some c => cases hraw; exact .inl rfl
    | none => cases hraw; exact .inr ⟨rfl, rfl⟩
  · rintro ⟨t, rfl | ⟨rfl, rfl⟩, rfl⟩ <;> exact ⟨_, rfl, rfl⟩

/-- A literal has the type that it is given, or else the type of its value. -/
theorem validate_literal (htakes : NodeKind.literal.definition.signature.Takes call) :
    NodeKind.literal.definition.signature.validate "Literal" [] call = .ok fields
      ↔ ∃ a v, Fields.field? call "value" = some a ∧ Validator.payload a = .ok (.value v)
        ∧ ∃ t, (Fields.field? call "dtype" = some (.type t)
          ∨ Fields.field? call "dtype" = none ∧ t = v.dataType)
          ∧ fields = [("value", .value v), ("dtype", .type t)] := by
  rw [Signature.validate_named NodeKind.literal.params_names_nodup htakes]
  show Signature.bindSlots "Literal" []
    [(.required "value" .literalPayload, Fields.field? call "value"),
      (literalType, Fields.field? call "dtype")] = .ok fields ↔ _
  rw [Signature.bindSlots_eq_bind, bind_eq_ok]
  constructor
  · rintro ⟨x, hx, h⟩
    rw [Signature.bindSlots_eq_bind, bind_eq_ok] at h
    obtain ⟨y, hy, h⟩ := h
    cases h
    obtain ⟨raw, hraw, hpayload⟩ := Signature.settle_eq_ok.1 hx
    obtain ⟨v, rfl⟩ := Validator.payload_eq_ok hpayload
    obtain ⟨t, ht, rfl⟩ := settle_literalType.1 hy
    cases hvalue : Fields.field? call "value" with
    | none => rw [hvalue] at hraw; cases hraw
    | some a =>
        rw [hvalue] at hraw
        cases hraw
        exact ⟨_, v, rfl, hpayload, t, ht, rfl⟩
  · rintro ⟨a, v, hvalue, hpayload, t, ht, rfl⟩
    refine ⟨.value v, ?_, ?_⟩
    · rw [hvalue]
      exact Signature.settle_some.2 hpayload
    · rw [Signature.bindSlots_eq_bind]
      exact bind_eq_ok.2 ⟨.type t, settle_literalType.2 ⟨t, ht, rfl⟩, rfl⟩

theorem build_literal (htakes : NodeKind.literal.definition.signature.Takes call) :
    build .literal [] call = .ok n
      ↔ ∃ a v, Fields.field? call "value" = some a ∧ Validator.payload a = .ok (.value v)
      ∧ ∃ t, (Fields.field? call "dtype" = some (.type t)
        ∨ Fields.field? call "dtype" = none ∧ t = v.dataType)
        ∧ n = constant v t := by
  rw [build_eq_ok]
  constructor
  · rintro ⟨-, fields, attributes, hfields, hattributes, rfl⟩
    obtain ⟨a, v, hvalue, hpayload, t, ht, rfl⟩ := (validate_literal htakes).1 hfields
    cases hattributes
    exact ⟨a, v, hvalue, hpayload, t, ht, rfl⟩
  · rintro ⟨a, v, hvalue, hpayload, t, ht, rfl⟩
    exact ⟨rfl, _, _, (validate_literal htakes).2
      ⟨a, v, hvalue, hpayload, t, ht, rfl⟩, rfl, rfl⟩

/-! ## Refusals -/

theorem isValidation_withNode {owner : String} {e : Error} (h : e.isValidation = true) :
    (e.withNode owner).isValidation = true := by
  cases e <;> first | rfl | cases h

theorem derive_error {context derived : Fields}
    {rules : List (String × Attribute)} {e : Error}
    (h : derive kind context derived rules = .error e) : e.isValidation = true := by
  induction rules generalizing context derived with
  | nil => cases h
  | cons rule rest ih =>
      obtain ⟨name, rule⟩ := rule
      rw [derive] at h
      split at h
      · exact ih h
      · split at h
        · next hvalid => cases h; exact isValidation_withNode hvalid
        · cases h; rfl

theorem giveKeyword_error {owner name : String} {a : Arg}
    {slots : List (Parameter × Option Arg)} {e : Error}
    (h : Signature.giveKeyword owner name a slots = .error e) : e.isValidation = true := by
  induction slots with
  | nil => cases h; rfl
  | cons slot rest ih =>
      obtain ⟨p, given⟩ := slot
      rw [Signature.giveKeyword.eq_def] at h
      simp only [] at h
      split at h
      · split at h
        · cases h
        · cases h; rfl
      · rcases bind_eq_error.1 h with h | ⟨_, -, h⟩
        · exact ih h
        · cases h

theorem giveKeywords_error {owner : String}
    {slots : List (Parameter × Option Arg)} {e : Error}
    (h : Signature.giveKeywords owner slots kwargs = .error e) : e.isValidation = true := by
  induction kwargs generalizing slots with
  | nil => cases h
  | cons kw rest ih =>
      rcases bind_eq_error.1 h with h | ⟨_, -, h⟩
      · exact giveKeyword_error h
      · exact ih h

theorem settle_error {owner : String} {bound : Fields} {p : Parameter}
    {slot : Option Arg} {e : Error} (h : Signature.settle owner bound p slot = .error e) :
    e.isValidation = true := by
  rcases bind_eq_error.1 h with h | ⟨_, -, h⟩
  · unfold Signature.argument at h
    split at h
    · cases h
    · split at h
      · cases h
      · split at h
        · cases h
        · cases h; rfl
  · split at h
    · cases h
    · cases h; rfl

theorem bindSlots_error {owner : String} {bound : Fields}
    {slots : List (Parameter × Option Arg)} {e : Error}
    (h : Signature.bindSlots owner bound slots = .error e) : e.isValidation = true := by
  induction slots generalizing bound with
  | nil => cases h
  | cons slot rest ih =>
      obtain ⟨p, slot⟩ := slot
      rw [Signature.bindSlots_eq_bind] at h
      rcases bind_eq_error.1 h with h | ⟨_, -, h⟩
      · exact settle_error h
      · exact ih h

/-- Building fails with nothing but refused fields. -/
theorem build_error {e : Error} (h : build kind args kwargs = .error e) :
    e.isValidation = true := by
  unfold build at h
  simp only [] at h
  split at h
  · cases h; rfl
  · rcases bind_eq_error.1 h with h | ⟨fields, -, h⟩
    · rw [Signature.validate_eq_bind] at h
      rcases bind_eq_error.1 h with h | ⟨_, -, h⟩
      · unfold Signature.slots at h
        simp only [] at h
        split at h
        · exact giveKeywords_error h
        · cases h; rfl
      · exact bindSlots_error h
    · rcases bind_eq_error.1 h with h | ⟨_, -, h⟩
      · exact derive_error h
      · cases h

/-- The same node, or a field that is refused on both sides. -/
def SameOutcome (x y : Except Error Node) : Prop :=
  (∃ n, x = .ok n ∧ y = .ok n)
    ∨ ∃ e e', x = .error e ∧ y = .error e' ∧ e.isValidation = true ∧ e'.isValidation = true

theorem sameOutcome_iff {kind' : NodeKind} {args' : List Arg} {kwargs' : Fields} :
    SameOutcome (build kind args kwargs) (build kind' args' kwargs')
      ↔ Coincide (build kind args kwargs) (build kind' args' kwargs') := by
  cases hx : build kind args kwargs with
  | ok n =>
      constructor
      · rintro (⟨m, hm, hy⟩ | ⟨e, -, he, -⟩)
        · cases hm
          rw [hy]
          exact .refl _
        · cases he
      · exact fun h => .inl ⟨n, rfl, (h n).1 rfl⟩
  | error e =>
      constructor
      · rintro (⟨m, hm, -⟩ | ⟨_, e', -, hy, -⟩)
        · cases hm
        · rw [hy]
          exact .errors e e'
      · intro h
        obtain ⟨e', hy⟩ := h.error_iff.1 ⟨e, rfl⟩
        exact .inr ⟨e, e', rfl, hy, build_error hx, build_error hy⟩

/-! ## Replacing -/

theorem changeFields_eq_ok {s : Signature}
    (hchanges : ∀ change ∈ changes, change.1 ∈ s.names) :
    changeFields kind s fields changes = .ok (fields.overwritten changes) := by
  induction changes generalizing fields with
  | nil => rfl
  | cons change rest ih =>
      obtain ⟨hname, hrest⟩ := List.forall_mem_cons.1 hchanges
      obtain ⟨name, a⟩ := change
      obtain ⟨p, hp, hpname⟩ := List.mem_map.1 hname
      have hparam : (s.param? name).isSome :=
        List.find?_isSome.2 ⟨p, hp, by simpa using hpname⟩
      rw [changeFields]
      split
      · exact ih hrest
      · next hnone => rw [hnone] at hparam; cases hparam

/-- Replacing is building by name with the changed fields. -/
theorem replace_outcome (hnames : Fields.names n.fields = n.kind.definition.signature.names)
    (hchanges : ∀ change ∈ changes, change.1 ∈ n.kind.definition.signature.names) :
    SameOutcome (n.replace changes) (build n.kind [] call)
      ↔ Coincide (build n.kind [] (n.fields.overwritten changes))
        (build n.kind [] call) := by
  have hreplace : n.replace changes
      = build n.kind (n.kind.definition.signature.unbind (n.fields.overwritten changes)).1
      (n.kind.definition.signature.unbind (n.fields.overwritten changes)).2 := by
    unfold replace
    simp only [changeFields_eq_ok hchanges]
    rfl
  have hunbind := build_unbind (Signature.names_overwritten hnames hchanges)
  rw [hreplace, sameOutcome_iff]
  exact ⟨hunbind.symm.trans, hunbind.trans⟩

/-- Calls by name coincide when they give every parameter what comes to the same. -/
theorem build_byName_coincide {call' : Fields}
    (htakes : kind.definition.signature.Takes call)
    (htakes' : kind.definition.signature.Takes call')
    (h : ∀ p ∈ kind.definition.signature.params, ∀ bound,
      Coincide (Signature.settle kind.name bound p (Fields.field? call p.name))
        (Signature.settle kind.name bound p (Fields.field? call' p.name))) :
    Coincide (build kind [] call) (build kind [] call') := by
  apply build_coincide
  rw [Signature.validate_named kind.params_names_nodup htakes,
    Signature.validate_named kind.params_names_nodup htakes']
  exact Signature.bindSlots_coincide h []

/-- The fields that a node holds come to what they were made of, unless a
default might change. -/
theorem overwritten_coincide (htakes : n.kind.definition.signature.Takes call)
    (hbuild : build n.kind [] call = .ok n)
    (hchanges : ∀ change ∈ changes, change.1 ∈ n.kind.definition.signature.names)
    (hsteady : ∀ p ∈ n.kind.definition.signature.params,
      Fields.field? (call.overwritten changes) p.name = none → p.Steady) :
    Coincide (build n.kind [] (n.fields.overwritten changes))
      (build n.kind [] (call.overwritten changes)) := by
  obtain ⟨-, hnames, hfields⟩ := fields_of_build hbuild htakes
  have hheld : n.kind.definition.signature.Takes n.fields :=
    .of_names n.kind.params_names_nodup hnames
  refine build_byName_coincide (hheld.overwritten hchanges) (htakes.overwritten hchanges)
    fun p hp bound => ?_
  have hsteady := hsteady p hp
  obtain ⟨before, a, -, hsettled, hfield⟩ :=
    (Signature.settled_of_bindSlots n.kind.slots_nodup hfields).2.2 p hp
  rw [Fields.field?_overwritten] at hsteady ⊢
  rw [Fields.field?_overwritten call]
  cases hchange : Fields.field? (Fields.overwritten [] changes) p.name with
  | some b => exact .refl _
  | none =>
      rw [hchange] at hsteady
      rw [hfield]
      exact Signature.settle_again (n.kind.repeatable p hp) hsteady hsettled bound

/-- A call that also gives what was left to a default builds the same node. -/
theorem build_completed (htakes : kind.definition.signature.Takes call)
    (hbuild : build kind [] call = .ok n) :
    kind.definition.signature.Takes (n.fields.overwritten call)
      ∧ build kind [] (n.fields.overwritten call) = .ok n := by
  obtain ⟨rfl, hnames, hfields⟩ := fields_of_build hbuild htakes
  have hcompleted : n.kind.definition.signature.Takes (n.fields.overwritten call) :=
    (Signature.Takes.of_names n.kind.params_names_nodup hnames).overwritten
      fun change hchange => htakes.known _ (List.mem_map_of_mem hchange)
  refine ⟨hcompleted, (build_coincide (.of_eq ?_) n).1 hbuild⟩
  rw [Signature.validate_named n.kind.params_names_nodup htakes, hfields,
    Signature.validate_named n.kind.params_names_nodup hcompleted]
  refine (Signature.bindSlots_again n.kind.slots_nodup n.kind.repeatable hfields
    fun p _ => ?_).symm
  have hcall : Fields.overwritten [] call = call := Fields.overwritten_append htakes.once
  rw [Fields.field?_overwritten, hcall]
  cases Fields.field? call p.name with
  | some a => exact .inl rfl
  | none => exact .inr rfl

/-- Whether the call leaves the type of a literal to a value of another type than the node
has. -/
def Retyped (n : Node) (call : Fields) : Prop :=
  n.kind = .literal ∧ Fields.field? call "dtype" = none
    ∧ ∃ a v, Fields.field? call "value" = some a
    ∧ Validator.payload a = .ok (.value v) ∧ n.dataType? ≠ some v.dataType

/-- A literal that was built without a type keeps the type that its value had. -/
theorem literal_coincide (htakes : NodeKind.literal.definition.signature.Takes call)
    (hbuild : build .literal [] call = .ok n)
    (hchanges : ∀ change ∈ changes, change.1 ∈ NodeKind.literal.definition.signature.names)
    (hdefault : Fields.field? (call.overwritten changes) "dtype" = none) :
    Coincide (build .literal [] (n.fields.overwritten changes))
      (build .literal [] (call.overwritten changes))
      ↔ ¬ n.Retyped (call.overwritten changes) := by
  obtain ⟨a₀, v₀, hvalue₀, hpayload₀, t₀, -, rfl⟩ := (build_literal htakes).1 hbuild
  have hheld : NodeKind.literal.definition.signature.Takes (constant v₀ t₀).fields :=
    .of_names NodeKind.literal.params_names_nodup rfl
  have htype : Fields.field? ((constant v₀ t₀).fields.overwritten changes) "dtype"
      = some (.type t₀) := by
    have hunchanged := hdefault
    rw [Fields.field?_overwritten, Option.or_eq_none_iff] at hunchanged
    rw [Fields.field?_overwritten, hunchanged.1]
    rfl
  -- The value is the same on both sides, given anew or as it was.
  have hvalue (v : Value) :
        (∃ a, Fields.field? ((constant v₀ t₀).fields.overwritten changes) "value" = some a
        ∧ Validator.payload a = .ok (.value v))
      ↔ ∃ a, Fields.field? (call.overwritten changes) "value" = some a
          ∧ Validator.payload a = .ok (.value v) := by
    rw [Fields.field?_overwritten, Fields.field?_overwritten call, hvalue₀]
    cases Fields.field? (Fields.overwritten [] changes) "value" with
    | some b => exact Iff.rfl
    | none =>
        refine ⟨?_, ?_⟩
        · rintro ⟨a, ha, h⟩
          cases ha
          exact ⟨a₀, rfl, by rw [hpayload₀]; exact h⟩
        · rintro ⟨a, ha, h⟩
          cases ha
          exact ⟨.value v₀, rfl, by rw [← h, hpayload₀]; rfl⟩
  constructor
  · rintro hsame ⟨-, -, a, v, ha, hpayload, hne⟩
    have hcall := (build_literal (htakes.overwritten hchanges)).2
      ⟨a, v, ha, hpayload, v.dataType, .inr ⟨hdefault, rfl⟩, rfl⟩
    obtain ⟨_, v', -, -, t', ht', heq⟩ :=
      (build_literal (hheld.overwritten hchanges)).1 ((hsame _).2 hcall)
    rw [htype] at ht'
    rcases ht' with ht' | ⟨ht', -⟩
    · cases ht'
      cases heq
      exact hne rfl
    · cases ht'
  · intro hretyped
    have hkept {a : Arg} {v : Value}
        (ha : Fields.field? (call.overwritten changes) "value" = some a)
        (hpayload : Validator.payload a = .ok (.value v)) : t₀ = v.dataType := by
      by_contra hne
      exact hretyped ⟨rfl, hdefault, a, v, ha, hpayload, fun h => hne (Option.some.inj h)⟩
    intro m
    rw [build_literal (hheld.overwritten hchanges),
      build_literal (htakes.overwritten hchanges), htype, hdefault]
    constructor
    · rintro ⟨a, v, ha, hpayload, t, ht | ⟨ht, -⟩, rfl⟩
      · cases ht
        obtain ⟨b, hb, hpayload⟩ := (hvalue v).1 ⟨a, ha, hpayload⟩
        exact ⟨b, v, hb, hpayload, t₀, .inr ⟨rfl, hkept hb hpayload⟩, rfl⟩
      · cases ht
    · rintro ⟨b, v, hb, hpayload, t, ht | ⟨-, rfl⟩, rfl⟩
      · cases ht
      · obtain ⟨a, ha, hpayload'⟩ := (hvalue v).2 ⟨b, hb, hpayload⟩
        exact ⟨a, v, ha, hpayload', v.dataType, .inl (by rw [hkept hb hpayload]), rfl⟩

/-- A node with some fields replaced is the node built by the same call with these fields
changed, where what the call left to a default is held as it is. Left to its default once
more it makes no difference, unless it is the type of a literal whose value is replaced
by one of another type. -/
theorem replace_rebuilds (h : build kind args kwargs = .ok n) : ∃ call,
    kind.definition.signature.byName kind.name args kwargs = .ok call
      ∧ build kind [] call = .ok n
      ∧ ∀ changes, (∀ change ∈ changes, change.1 ∈ kind.definition.signature.names) →
        SameOutcome (n.replace changes)
          (build kind [] ((n.fields.overwritten call).overwritten changes))
          ∧ (SameOutcome (n.replace changes) (build kind [] (call.overwritten changes))
            ↔ ¬ n.Retyped (call.overwritten changes)) := by
  obtain ⟨call, hcall, htakes, hbuild⟩ := build_byName h
  obtain ⟨rfl, hnames, -⟩ := fields_of_build hbuild htakes
  refine ⟨call, hcall, hbuild, fun changes hchanges => ⟨?_, ?_⟩⟩
  · obtain ⟨hcompleted, hsame⟩ := build_completed htakes hbuild
    refine (replace_outcome hnames hchanges).2
      (overwritten_coincide hcompleted hsame hchanges fun p hp hnone => ?_)
    have hname :=
      Fields.field?_eq_none_iff.1 (Fields.field?_of_overwritten
        (Fields.field?_of_overwritten hnone))
    rw [hnames] at hname
    exact absurd (List.mem_map_of_mem hp) hname
  · rw [replace_outcome hnames hchanges]
    by_cases hdefault : n.kind = .literal
      ∧ Fields.field? (call.overwritten changes) "dtype" = none
    · obtain ⟨hkind, hdefault⟩ := hdefault
      rw [hkind] at htakes hbuild hchanges ⊢
      exact literal_coincide htakes hbuild hchanges hdefault
    · refine ⟨fun _ hretyped => hdefault ⟨hretyped.1, hretyped.2.1⟩, fun _ => ?_⟩
      refine overwritten_coincide htakes hbuild hchanges fun p hp hnone => ?_
      by_cases hkind : n.kind = .literal
      · have hp' : p ∈ [.required "value" .literalPayload, literalType] := by
          rw [hkind] at hp; exact hp
        rcases List.mem_cons.1 hp' with rfl | hp'
        · exact Parameter.steady_required _ _
        · rw [List.mem_singleton.1 hp'] at hnone
          exact absurd ⟨hkind, hnone⟩ hdefault
      · exact NodeKind.steady hkind p hp

theorem replace_rebuilds_log : ∃ n, build .log [.value (.int64 8)] [] = .ok n
    ∧ SameOutcome (n.replace [("base", .value (.int64 2))])
      (build .log [] [("arg", .value (.int64 8)), ("base", .value (.int64 2))]) := by
  have hbuild : build .log [.value (.int64 8)] [] = .ok _ := rfl
  obtain ⟨call, hcall, -, hreplace⟩ := replace_rebuilds hbuild
  cases hcall
  exact ⟨_, hbuild, (hreplace [("base", .value (.int64 2))] (by decide)).2.2
    fun h => by cases h.1⟩

/-- The text put in place of a number keeps the type of the number. -/
theorem replace_value_keeps_type : ∃ n, build .literal [.value (.int64 5)] [] = .ok n
    ∧ n.replace [("value", .text "x")] = .ok (constant (.string "x") .int64)
    ∧ build .literal [.text "x"] [] = .ok (constant (.string "x") .string)
    ∧ ¬ SameOutcome (n.replace [("value", .text "x")]) (build .literal [.text "x"] []) := by
  refine ⟨_, rfl, rfl, rfl, ?_⟩
  rintro (⟨m, hm, hm'⟩ | ⟨e, -, he, -⟩)
  · cases hm
    cases hm'
  · cases he

end Node

end TypedQuery
