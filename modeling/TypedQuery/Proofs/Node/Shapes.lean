import TypedQuery.Proofs.Node.Held
import TypedQuery.Proofs.Node.Types

/-!
# Shapes of values that build

A column has a value for each row and a reduction has one value for all of them. Every
other value is as wide as the widest value that it is made of, though the kinds derive this
by different rules (`NodeKind.shapeRule`). So a value is scalar if and only if no column
occurs in it outside what a reduction takes.
-/

namespace TypedQuery

/-! ## The widest of several shapes -/

namespace Shape

theorem foldl_join_eq_columnar {s : Shape} {shapes : List Shape} :
    shapes.foldl join s = columnar ↔ s = columnar ∨ columnar ∈ shapes := by
  induction shapes generalizing s with
  | nil => simp
  | cons t rest ih =>
      rw [List.foldl_cons, ih]
      cases s <;> cases t <;> simp [join]

theorem widest_eq_columnar {shapes : List Shape} :
    widest shapes = columnar ↔ columnar ∈ shapes := by
  rw [widest, foldl_join_eq_columnar]
  simp

theorem ne_columnar {s : Shape} : s ≠ columnar ↔ s = scalar := by cases s <;> simp

end Shape

/-! ## Rules -/

namespace NodeKind

/-- The rule that values of the kind derive their shape by. -/
def shapeRule (k : NodeKind) : Fields → Except Error Shape :=
  if k = tableColumn then fun _ => .ok .columnar
  else if k.isUnder reduction || k = timestampNow then fun _ => .ok .scalar
  else if k.isUnder unary || k = renamed then Rules.shapeIn "arg"
  else if k.isUnder binary then Rules.widerShape "left" "right"
  else fun bound => .ok (Rules.widestShape bound)

theorem attributes_of_isValue {k : NodeKind} (hk : k.isValue = true)
    (hconcrete : k.definition.isAbstract = false) :
    ∃ typeRule, k.definition.attributes
      = [Catalogue.hasShape k.shapeRule, Catalogue.hasType typeRule] := by
  cases k <;> first
    | exact ⟨_, rfl⟩
    | exact absurd hk (by decide)
    | exact absurd hconcrete (by decide)

end NodeKind

namespace Node.Built

variable {n m : Node}

theorem shape_eq (h : n.Built) (hvalue : n.kind.isValue = true) :
    ∃ s, n.kind.shapeRule n.fields = .ok s ∧ n.shape? = some s := by
  obtain ⟨typeRule, hattributes⟩ := NodeKind.attributes_of_isValue hvalue h.not_abstract
  have hderive := h.derive_eq
  rw [hattributes] at hderive
  simp only [Catalogue.hasShape, Catalogue.hasType, Node.derive] at hderive
  split at hderive
  · next a ha =>
      obtain ⟨s, hs, rfl⟩ := map_eq_ok.1 ha
      split at hderive
      · refine ⟨s, hs, ?_⟩
        rw [Node.shape?, ← Except.ok.inj hderive]
        rfl
      · split at hderive <;> cases hderive
  · split at hderive <;> cases hderive

/-! ## Values made of one value or of two -/

theorem fields_of_one (h : n.Built) {field : String}
    (hnames : n.kind.definition.signature.names = [field]) :
    ∃ a, n.fields = [(field, a)] := by
  have hfields : Fields.names n.fields = [field] := h.accepts.names.trans hnames
  obtain ⟨⟨name, a⟩, hn, rfl⟩ := List.map_eq_singleton_iff.1 hfields
  exact ⟨a, hn⟩

theorem fields_of_two (h : n.Built) {first second : String}
    (hnames : n.kind.definition.signature.names = [first, second]) :
    ∃ a b, n.fields = [(first, a), (second, b)] := by
  have hfields : Fields.names n.fields = [first, second] := h.accepts.names.trans hnames
  obtain ⟨⟨name, a⟩, rest, hn, rfl, hrest⟩ := List.map_eq_cons_iff.1 hfields
  obtain ⟨⟨name', b⟩, hn', rfl⟩ := List.map_eq_singleton_iff.1 hrest
  exact ⟨a, b, by rw [hn, hn']⟩

/-- A field for a node holds one. -/
theorem node_of_field? (h : n.Built) {field : String} {a : Arg}
    (hk : n.kind.hasNode field = true) (ha : Fields.field? n.fields field = some a) :
    ∃ m, a = .node m := by
  obtain ⟨v, hv, hnode⟩ := (Option.any_eq_true _ _).1 hk
  obtain ⟨raw, before, b, -, hvalid, -, hb⟩ := h.field?_eq hv
  cases ha.symm.trans hb
  exact Validator.node_of_givesNode hnode hvalid

theorem children_of_one (h : n.Built) {field : String}
    (hnames : n.kind.definition.signature.names = [field])
    (hk : n.kind.hasNode field = true) :
    ∃ m, Fields.node? n.fields field = some m ∧ n.children = [m] := by
  obtain ⟨a, hn⟩ := h.fields_of_one hnames
  obtain ⟨m, rfl⟩ := h.node_of_field? hk (by rw [hn, Fields.field?_cons, if_pos rfl])
  refine ⟨m, ?_, ?_⟩
  · rw [hn, Fields.node?, Fields.field?_cons, if_pos rfl]
    rfl
  · rw [children, hn]
    rfl

theorem children_of_two (h : n.Built) {first second : String} (hne : first ≠ second)
    (hnames : n.kind.definition.signature.names = [first, second])
    (hl : n.kind.hasNode first = true) (hr : n.kind.hasNode second = true) :
    ∃ l r, Fields.node? n.fields first = some l ∧ Fields.node? n.fields second = some r
      ∧ n.children = [l, r] := by
  obtain ⟨a, b, hn⟩ := h.fields_of_two hnames
  have hfirst : Fields.field? n.fields first = some a := by
    rw [hn, Fields.field?_cons, if_pos rfl]
  have hsecond : Fields.field? n.fields second = some b := by
    rw [hn, Fields.field?_cons, if_neg hne, Fields.field?_cons, if_pos rfl]
  obtain ⟨l, rfl⟩ := h.node_of_field? hl hfirst
  obtain ⟨r, rfl⟩ := h.node_of_field? hr hsecond
  refine ⟨l, r, ?_, ?_, ?_⟩
  · rw [Fields.node?, hfirst]
    rfl
  · rw [Fields.node?, hsecond]
    rfl
  · rw [children, hn]
    rfl

/-- A renamed value is made of the value alone: a name holds no nodes. -/
theorem children_of_renamed (h : n.Built) (hk : n.kind = .renamed) :
    ∃ m, Fields.node? n.fields "arg" = some m ∧ n.children = [m] := by
  have hnames : n.kind.definition.signature.names = ["arg", "name"] := by rw [hk]; rfl
  obtain ⟨a, b, hn⟩ := h.fields_of_two hnames
  have harg : Fields.field? n.fields "arg" = some a := by rw [hn]; rfl
  have hname : Fields.field? n.fields "name" = some b := by rw [hn]; rfl
  obtain ⟨m, rfl⟩ := h.node_of_field? (by rw [hk]; rfl) harg
  obtain ⟨_, _, b', -, hvalid, -, hb'⟩ :=
    h.field?_eq (show n.kind.validator? "name" = some .string by rw [hk]; rfl)
  cases hname.symm.trans hb'
  obtain ⟨s, hs⟩ := Validator.text_of_givesText rfl hvalid
  refine ⟨m, by rw [Fields.node?, harg]; rfl, ?_⟩
  rw [children, hn]
  cases b <;> first | rfl | cases hs

theorem shapeIn_eq_ok {field : String} {s : Shape}
    (hm : Fields.node? n.fields field = some m) (h : Rules.shapeIn field n.fields = .ok s) :
    m.shape? = some s := by
  rw [Rules.shapeIn, hm, Option.bind_some] at h
  split at h
  · next t ht => cases h; exact ht
  · cases h

/-! ## All values -/

/-- Only a column and a reduction may hold anything but values. -/
theorem isValue_of_open (h : n.Built) (hvalue : n.kind.isValue = true)
    (hcolumn : n.kind ≠ .tableColumn) (hreduction : n.kind.isUnder .reduction = false)
    (hm : m ∈ n.children) : m.kind.isValue = true := by
  have hcount : n.kind ≠ .countStar := by
    intro hk
    rw [hk] at hreduction
    cases hreduction
  exact h.isValue_of_mem_children (NodeKind.holdsValues_of_isValue hvalue hcolumn hcount) hm

/-- Every value but a column and a reduction is as wide as the widest value that it is made
of. -/
theorem shape_eq_widest (h : n.Built) (hvalue : n.kind.isValue = true)
    (hcolumn : n.kind ≠ .tableColumn) (hreduction : n.kind.isUnder .reduction = false) :
    n.shape? = some (Shape.widest (n.children.filterMap Node.shape?)) := by
  obtain ⟨s, hs, hn⟩ := h.shape_eq hvalue
  rw [NodeKind.shapeRule, if_neg hcolumn, hreduction, Bool.false_or] at hs
  rw [hn]
  have hone (hchildren : ∃ m, Fields.node? n.fields "arg" = some m ∧ n.children = [m])
      (hs : Rules.shapeIn "arg" n.fields = .ok s) : some s
        = some (Shape.widest (n.children.filterMap Node.shape?)) := by
    obtain ⟨m, hm, hchildren⟩ := hchildren
    rw [hchildren, List.filterMap_cons, shapeIn_eq_ok hm hs]
    rfl
  split at hs
  · next hnow =>
      cases hs
      have hnames : Fields.names n.fields = [] := by
        rw [h.accepts.names, of_decide_eq_true hnow]
        rfl
      rw [children, List.map_eq_nil_iff.1 hnames]
      rfl
  · split at hs
    · next hunary =>
        refine hone ?_ hs
        rcases Bool.or_eq_true_iff.1 hunary with hunary | hrenamed
        · have hall : ∀ k ∈ NodeKind.all, k.isUnder .unary = true →
              k.definition.isAbstract = false →
              k.definition.signature.names = ["arg"] ∧ k.hasNode "arg" = true := by
                set_option maxRecDepth 2000 in decide
          obtain ⟨hnames, hnode⟩ := hall n.kind n.kind.mem_all hunary h.not_abstract
          exact h.children_of_one hnames hnode
        · exact h.children_of_renamed (of_decide_eq_true hrenamed)
    · split at hs
      · next hbinary =>
          have hall : ∀ k ∈ NodeKind.all, k.isUnder .binary = true →
              k.definition.isAbstract = false →
              k.definition.signature.names = ["left", "right"] ∧ k.hasNode "left" = true
                  ∧ k.hasNode "right" = true := by
            set_option maxRecDepth 2000 in decide
          obtain ⟨hnames, hleft, hright⟩ := hall n.kind n.kind.mem_all hbinary h.not_abstract
          obtain ⟨l, r, hl, hr, hchildren⟩ :=
            h.children_of_two (by decide) hnames hleft hright
          obtain ⟨sl, hsl, hs⟩ := bind_eq_ok.1 hs
          obtain ⟨sr, hsr, hs⟩ := bind_eq_ok.1 hs
          cases hs
          rw [hchildren, List.filterMap_cons, shapeIn_eq_ok hl hsl, List.filterMap_cons,
            shapeIn_eq_ok hr hsr]
          rfl
      · cases hs
        have hfilter : (Fields.nodes n.fields).filter (·.kind.isValue) = n.children :=
          List.filter_eq_self.2 fun m hm => h.isValue_of_open hvalue hcolumn hreduction hm
        rw [Rules.widestShape, hfilter]

end Node.Built

/-! ## Columns outside reductions -/

/-- `m.Exposed n` says that `m` occurs in `n`, and not only in what a reduction takes. -/
inductive Node.Exposed : Node → Node → Prop
  | here (n : Node) : Exposed n n
  | inside {m k n : Node} (hn : n.kind.isUnder .reduction = false) (hk : k ∈ n.children)
    (hm : Exposed m k) : Exposed m n

namespace Node

variable {m n : Node}

theorem exposed_iff : m.Exposed n ↔
    m = n ∨ n.kind.isUnder .reduction = false ∧ ∃ k ∈ n.children, m.Exposed k := by
  constructor
  · intro h
    cases h with
    | here => exact .inl rfl
    | inside hn hk hm => exact .inr ⟨hn, _, hk, hm⟩
  · rintro (rfl | ⟨hn, k, hk, hm⟩)
    · exact .here _
    · exact .inside hn hk hm

/-- A scalar value that is no reduction is made of scalar values. -/
theorem Built.scalar_of_mem_children (h : n.Built) (hvalue : n.kind.isValue = true)
    (hcolumn : n.kind ≠ .tableColumn) (hreduction : n.kind.isUnder .reduction = false)
    (hn : n.shape? = some .scalar) (hm : m ∈ n.children) :
    m.kind.isValue = true ∧ m.shape? = some .scalar := by
  have hmvalue := h.isValue_of_open hvalue hcolumn hreduction hm
  obtain ⟨s, -, hs⟩ := (h.of_mem_children hm).shape_eq hmvalue
  refine ⟨hmvalue, ?_⟩
  have hwidest := (h.shape_eq_widest hvalue hcolumn hreduction).symm.trans hn
  have hnot : Shape.columnar ∉ n.children.filterMap Node.shape? := fun hmem => by
    rw [Shape.widest_eq_columnar.2 hmem] at hwidest
    cases hwidest
  rw [hs, ← Shape.ne_columnar.1 fun hs' => hnot (List.mem_filterMap.2 ⟨m, hm, hs' ▸ hs⟩)]

/-- A value is columnar if and only if a column is exposed in it. -/
theorem Built.columnar_iff (h : n.Built) (hvalue : n.kind.isValue = true) :
    n.shape? = some .columnar ↔ ∃ m : Node, m.Exposed n ∧ m.kind = .tableColumn := by
  induction hdepth : n.depth using Nat.strongRecOn generalizing n with
  | ind depth ih =>
      subst hdepth
      by_cases hcolumn : n.kind = .tableColumn
      · obtain ⟨s, hs, hn⟩ := h.shape_eq hvalue
        rw [NodeKind.shapeRule, if_pos hcolumn] at hs
        cases hs
        exact ⟨fun _ => ⟨n, .here n, hcolumn⟩, fun _ => hn⟩
      · cases hreduction : n.kind.isUnder .reduction with
        | true =>
            obtain ⟨s, hs, hn⟩ := h.shape_eq hvalue
            rw [NodeKind.shapeRule, if_neg hcolumn, hreduction, Bool.true_or,
              if_pos rfl] at hs
            cases hs
            constructor
            · intro hshape
              cases hn.symm.trans hshape
            · rintro ⟨m, hm, hk⟩
              rcases exposed_iff.1 hm with rfl | ⟨hfalse, -⟩
              · exact absurd hk hcolumn
              · rw [hreduction] at hfalse
                cases hfalse
        | false =>
            have hbelow {k : Node} (hk : k ∈ n.children) :=
              ih k.depth (depth_of_mem_children hk) (h.of_mem_children hk)
                (h.isValue_of_open hvalue hcolumn hreduction hk) rfl
            rw [h.shape_eq_widest hvalue hcolumn hreduction, Option.some.injEq,
              Shape.widest_eq_columnar, List.mem_filterMap]
            constructor
            · rintro ⟨k, hk, hshape⟩
              obtain ⟨m, hm, hmk⟩ := (hbelow hk).1 hshape
              exact ⟨m, .inside hreduction hk hm, hmk⟩
            · rintro ⟨m, hm, hmk⟩
              rcases exposed_iff.1 hm with rfl | ⟨-, k, hk, hm⟩
              · exact absurd hmk hcolumn
              · exact ⟨k, hk, (hbelow hk).2 ⟨m, hm, hmk⟩⟩

end Node

end TypedQuery
