import Mathlib.Data.List.Induction
import Mathlib.Data.List.Nodup
import Mathlib.Data.List.Pairwise
import TypedQuery.Node.Signature

/-!
# The parameters of a merged signature

A kind of node takes the parameters of the kinds above it and those that it declares
itself. They are inserted one after the other, and each replaces the one of its name where
that stands. So what is left of any list of them has every name once, where the name first
occurred and as it was last declared (`Collected`). Sorting by place keeps that order
within a place, and closing what comes after a variadic parameter changes nothing but
bindings: a parameter may only lose its position.
-/

namespace TypedQuery

namespace Parameter

@[simp] theorem keywordOnly_name (p : Parameter) : p.keywordOnly.name = p.name := by
  unfold keywordOnly; split <;> rfl

@[simp] theorem keywordOnly_default (p : Parameter) : p.keywordOnly.default = p.default := by
  unfold keywordOnly; split <;> rfl

@[simp] theorem keywordOnly_validator (p : Parameter) :
    p.keywordOnly.validator = p.validator := by
  unfold keywordOnly; split <;> rfl

theorem keywordOnly_binding (p : Parameter) :
    p.keywordOnly.binding = if p.binding = .positional then .keyword else p.binding := by
  unfold keywordOnly
  cases h : p.binding <;> simp [h]

theorem keywordOnly_of_ne (p : Parameter) (h : p.binding ≠ .positional) :
    p.keywordOnly = p := by
  unfold keywordOnly
  split
  · contradiction
  · rfl

@[simp] theorem keywordOnly_keywordOnly (p : Parameter) :
    p.keywordOnly.keywordOnly = p.keywordOnly := by
  refine keywordOnly_of_ne _ ?_
  rw [keywordOnly_binding]
  split
  · nofun
  · assumption

@[simp] theorem keywordOnly_isMandatory (p : Parameter) :
    p.keywordOnly.isMandatory = p.isMandatory := by
  rw [isMandatory, isMandatory, keywordOnly_default]

@[simp] theorem keywordOnly_isVariadic (p : Parameter) :
    p.keywordOnly.isVariadic = p.isVariadic := by
  rw [isVariadic, isVariadic, keywordOnly_binding]
  cases p.binding <;> rfl

end Parameter

namespace Signature

/-- The last parameter of a name. -/
def lastOf (name : String) (decls : List Parameter) : Option Parameter :=
  decls.reverse.find? (·.name == name)

/-- Where a name occurs first. -/
def firstOf (name : String) (decls : List Parameter) : Nat := (decls.map (·.name)).idxOf name

variable {name : String} {p q : Parameter} {decls params more : List Parameter}

theorem lastOf_concat : lastOf name (decls ++ [p]) = if p.name = name then some p
    else lastOf name decls := by
  rw [lastOf, List.reverse_concat, List.find?_cons]
  by_cases h : p.name = name
  · simp [h]
  · rw [if_neg h, beq_eq_false_iff_ne.2 h, lastOf]

theorem lastOf_append :
    lastOf name (decls ++ more) = (lastOf name more).or (lastOf name decls) := by
  rw [lastOf, List.reverse_append, List.find?_append]
  rfl

theorem name_of_lastOf (h : lastOf name decls = some p) : p.name = name := by
  simpa using List.find?_some h

theorem mem_of_lastOf (h : lastOf name decls = some p) : p ∈ decls :=
  List.mem_reverse.1 (List.mem_of_find?_eq_some h)

theorem lastOf_eq_none_iff : lastOf name decls = none ↔ name ∉ decls.map (·.name) := by
  simp [lastOf]

theorem lastOf_map {f : Parameter → Parameter} (hf : ∀ p, (f p).name = p.name) :
    lastOf name (decls.map f) = (lastOf name decls).map f := by
  rw [lastOf, ← List.map_reverse, List.find?_map, lastOf]
  simp only [Function.comp_def, hf]

theorem firstOf_lt : firstOf name decls < decls.length ↔ name ∈ decls.map (·.name) := by
  rw [firstOf, ← List.idxOf_lt_length_iff, List.length_map]

theorem firstOf_append_of_mem (h : name ∈ decls.map (·.name)) :
    firstOf name (decls ++ more) = firstOf name decls := by
  rw [firstOf, List.map_append, List.idxOf_append_of_mem h, firstOf]

/-! ## Insertion -/

theorem map_name_insert (p : Parameter) (params : List Parameter) :
    (insert p params).map (·.name)
    = if p.name ∈ params.map (·.name) then params.map (·.name)
      else params.map (·.name) ++ [p.name] := by
  induction params with
  | nil => rfl
  | cons q rest ih =>
      rw [insert]
      by_cases hq : q.name = p.name
      · simp [hq]
      · rw [if_neg hq, List.map_cons, ih]
        by_cases hp : p.name ∈ rest.map (·.name) <;> simp [hp, Ne.symm hq]

theorem mem_insert (hnames : (params.map (·.name)).Nodup) :
    q ∈ insert p params ↔ q = p ∨ q ∈ params ∧ q.name ≠ p.name := by
  induction params with
  | nil => simp [insert]
  | cons r rest ih =>
      obtain ⟨hnew, hrest⟩ := List.nodup_cons.1 hnames
      rw [insert]
      by_cases hr : r.name = p.name
      · have hothers : ∀ q ∈ rest, q.name ≠ p.name :=
          fun q hq h => hnew (List.mem_map.2 ⟨q, hq, h.trans hr.symm⟩)
        rw [if_pos hr]
        constructor
        · intro h
          rcases List.mem_cons.1 h with h | h
          · exact .inl h
          · exact .inr ⟨List.mem_cons_of_mem _ h, hothers q h⟩
        · rintro (rfl | ⟨h, hq⟩)
          · exact List.mem_cons_self
          · rcases List.mem_cons.1 h with rfl | h
            · exact absurd hr hq
            · exact List.mem_cons_of_mem _ h
      · rw [if_neg hr, List.mem_cons, ih hrest, List.mem_cons]
        constructor
        · rintro (rfl | h | ⟨h, hq⟩)
          · exact .inr ⟨.inl rfl, hr⟩
          · exact .inl h
          · exact .inr ⟨.inr h, hq⟩
        · rintro (h | ⟨rfl | h, hq⟩)
          · exact .inr (.inl h)
          · exact .inl rfl
          · exact .inr (.inr ⟨h, hq⟩)

theorem insertAll_append (params decls more : List Parameter) :
    insertAll params (decls ++ more) = insertAll (insertAll params decls) more :=
  List.foldl_append

/-- Every name once, in the order in which they occur first, and each as it was declared
last. -/
structure Collected (decls params : List Parameter) : Prop where
  mem_names : ∀ name, name ∈ params.map (·.name) ↔ name ∈ decls.map (·.name)
  mem_iff : ∀ p, p ∈ params ↔ lastOf p.name decls = some p
  order : (params.map (·.name)).Pairwise fun a b => firstOf a decls < firstOf b decls

namespace Collected

theorem names_nodup (h : Collected decls params) : (params.map (·.name)).Nodup :=
  h.order.imp fun hlt heq => absurd hlt (by rw [heq]; exact Nat.lt_irrefl _)

/-- One more declaration. A name that is new comes last. -/
theorem insert (h : Collected decls params) (p : Parameter) :
    Collected (decls ++ [p]) (insert p params) := by
  have hnames := map_name_insert p params
  refine ⟨fun name => ?_, fun q => ?_, ?_⟩
  · rw [hnames, List.map_append, List.mem_append, ← h.mem_names]
    split
    · next hold =>
        exact ⟨.inl, fun hname => hname.elim id fun heq =>
          (List.mem_singleton.1 heq : name = p.name) ▸ hold⟩
    · exact List.mem_append
  · rw [mem_insert h.names_nodup, lastOf_concat, h.mem_iff]
    by_cases hq : p.name = q.name
    · simp [hq, eq_comm]
    · have hne : q ≠ p := fun heq => hq (by rw [heq])
      simp [hq, Ne.symm hq, hne]
  · have hold : (params.map (·.name)).Pairwise fun a b => firstOf a (decls ++ [p])
        < firstOf b (decls ++ [p]) := by
      refine h.order.imp_of_mem fun {a b} ha hb hab => ?_
      rwa [firstOf_append_of_mem ((h.mem_names a).1 ha),
        firstOf_append_of_mem ((h.mem_names b).1 hb)]
    rw [hnames]
    split
    · exact hold
    · next hnew =>
        refine List.pairwise_append.2
          ⟨hold, List.pairwise_singleton _ _, fun a ha b hb => ?_⟩
        rw [List.mem_singleton.1 hb, firstOf_append_of_mem ((h.mem_names a).1 ha)]
        have hlast : firstOf p.name (decls ++ [p]) = decls.length := by
          rw [h.mem_names] at hnew
          rw [firstOf, List.map_append, List.idxOf_append_of_notMem hnew, List.length_map]
          simp
        rw [hlast]
        exact firstOf_lt.2 ((h.mem_names a).1 ha)

end Collected

theorem collected_insertAll (decls : List Parameter) :
    Collected decls (insertAll [] decls) := by
  induction decls using List.reverseRecOn with
  | nil => exact ⟨fun _ => Iff.rfl, by simp [insertAll, lastOf], List.Pairwise.nil⟩
  | append_singleton decls p ih =>
      rw [insertAll_append]
      exact ih.insert p

/-! ## Closing -/

theorem map_closeAfterVariadic {α : Type} {f : Parameter → α}
    (hf : ∀ p, f p.keywordOnly = f p) (after : Bool) (params : List Parameter) :
    (closeAfterVariadic after params).map f = params.map f := by
  induction params generalizing after with
  | nil => rfl
  | cons p rest ih =>
      rw [closeAfterVariadic, List.map_cons, ih, List.map_cons]
      split
      · rw [hf]
      · rfl

theorem getElem?_closeAfterVariadic (after : Bool) (params : List Parameter) (i : Nat) :
    (closeAfterVariadic after params)[i]?
      = params[i]?.map fun p => if after || (params.take i).any Parameter.isVariadic then
        p.keywordOnly else p := by
  induction params generalizing after i with
  | nil => rfl
  | cons p rest ih =>
      rw [closeAfterVariadic]
      cases i with
      | zero => simp
      | succ i => simp [ih, Bool.or_assoc]

theorem any_take_closeAfterVariadic (after : Bool) (params : List Parameter) (i : Nat) :
    ((closeAfterVariadic after params).take i).any Parameter.isVariadic
      = (params.take i).any Parameter.isVariadic := by
  have hany (l : List Parameter) : l.any Parameter.isVariadic
      = (l.map Parameter.isVariadic).any id := by
    rw [List.any_map]; rfl
  rw [hany, hany, List.map_take, List.map_take,
    map_closeAfterVariadic Parameter.keywordOnly_isVariadic]

/-! ## Merging -/

/-- All parameters of the signatures above, in order. -/
def inherited (parents : List Signature) : List Parameter := parents.flatMap (·.params)

/-- All parameters as they were declared, those of the signatures above first. -/
def declarations (parents : List Signature) (declared : Signature) : List Parameter :=
  inherited parents ++ declared.params

/-- Inherited mandatory parameters stand before declared mandatory ones, then come the
declared optional ones and at last the inherited optional ones. -/
def place (parents : List Signature) (p : Parameter) : Nat :=
  match decide (p.name ∈ (inherited parents).map (·.name)), p.isMandatory with
  | true, true => 0
  | false, true => 1
  | false, false => 2
  | true, false => 3

/-- The order of parameters: by place, and in one place by where their names occur first. -/
def Precedes (parents : List Signature) (decls : List Parameter) (p q : Parameter) : Prop :=
  place parents p < place parents q
    ∨ place parents p = place parents q ∧ firstOf p.name decls < firstOf q.name decls

/-- A variadic parameter is left of the signatures above. -/
def InheritsVariadic (parents : List Signature) : Prop :=
  ∃ p, lastOf p.name (inherited parents) = some p ∧ p.isVariadic = true

/-- What is declared besides, when it is closed because a variadic parameter is inherited. -/
def narrowed (parents : List Signature) (p : Parameter) : Parameter :=
  if (insertAll [] (inherited parents)).any Parameter.isVariadic then p.keywordOnly else p

/-- The parameters by place. -/
def sorted (parents : List Signature) (params : List Parameter) : List Parameter :=
  (List.range 4).flatMap fun k => params.filter fun p => place parents p == k

variable {parents : List Signature} {declared : Signature}

theorem place_lt (parents : List Signature) (p : Parameter) : place parents p < 4 := by
  unfold place
  split <;> decide

theorem name_narrowed (p : Parameter) : (narrowed parents p).name = p.name := by
  unfold narrowed
  split
  · exact p.keywordOnly_name
  · rfl

theorem any_isVariadic_inherited :
    (insertAll [] (inherited parents)).any Parameter.isVariadic = true
      ↔ InheritsVariadic parents := by
  simp only [List.any_eq_true, (collected_insertAll _).mem_iff, InheritsVariadic]

theorem merge_eq (parents : List Signature) (declared : Signature) :
    (merge parents declared).params
    = closeAfterVariadic false (sorted parents
      (insertAll [] (inherited parents ++ declared.params.map (narrowed parents)))) := by
  have hnarrowed : (if (insertAll [] (inherited parents)).any Parameter.isVariadic
      then declared.params.map Parameter.keywordOnly else declared.params)
      = declared.params.map (narrowed parents) := by
    unfold narrowed
    split <;> simp
  have hinherited (p : Parameter) : (insertAll [] (inherited parents)).any (·.name == p.name)
      = decide (p.name ∈ (inherited parents).map (·.name)) := by
    rw [Bool.eq_iff_iff, decide_eq_true_iff, ← (collected_insertAll _).mem_names]
    simp
  have hall : parents.flatMap (·.params) = inherited parents := rfl
  unfold merge
  simp only [hall, hnarrowed, hinherited, ← insertAll_append]
  refine congrArg _ ?_
  rw [sorted, show List.range 4 = [0, 1, 2, 3] from rfl]
  simp only [List.flatMap_cons, List.flatMap_nil, List.append_nil, List.append_assoc]
  -- The four classes are those of the four places.
  refine congrArg₂ _ (List.filter_congr fun p _ => ?_)
    (congrArg₂ _ (List.filter_congr fun p _ => ?_)
    (congrArg₂ _ (List.filter_congr fun p _ => ?_) (List.filter_congr fun p _ => ?_))) <;>
  · unfold place
    cases decide (p.name ∈ (inherited parents).map (·.name)) <;> cases p.isMandatory <;> rfl

theorem mem_sorted : p ∈ sorted parents params ↔ p ∈ params := by
  simp [sorted, place_lt]

/-- Within a place the order is kept. -/
theorem pairwise_sorted (parents : List Signature) (h : Collected decls params) :
    (sorted parents params).Pairwise fun p q => Precedes parents decls p q
      ∧ p.name ≠ q.name := by
  refine List.pairwise_flatMap.2
    ⟨fun k _ => ?_, List.pairwise_lt_range.imp fun {k l} hkl p hp q hq => ?_⟩
  · refine List.Pairwise.imp_of_mem (fun {p q} hp hq hlt => ?_)
      ((List.pairwise_map.1 h.order).filter _)
    have hplace : place parents p = place parents q := by
      rw [eq_of_beq (List.mem_filter.1 hp).2, eq_of_beq (List.mem_filter.1 hq).2]
    exact ⟨.inr ⟨hplace, hlt⟩, fun heq => absurd hlt (by rw [heq]; exact Nat.lt_irrefl _)⟩
  · obtain ⟨hp, hpk⟩ := List.mem_filter.1 hp
    obtain ⟨hq, hql⟩ := List.mem_filter.1 hq
    have hplace : place parents p < place parents q := by
      rw [eq_of_beq hpk, eq_of_beq hql]
      exact hkl
    refine ⟨.inl hplace, fun heq => ?_⟩
    rw [List.inj_on_of_nodup_map h.names_nodup hp hq heq] at hplace
    exact absurd hplace (Nat.lt_irrefl _)

/-! ## What is merged -/

theorem map_name_narrowed (parents : List Signature) (declared : Signature) :
    (inherited parents ++ declared.params.map (narrowed parents)).map (·.name)
      = (declarations parents declared).map (·.name) := by
  rw [declarations, List.map_append, List.map_append, List.map_map]
  exact congrArg _ (List.map_congr_left fun p _ => name_narrowed p)

theorem names_merge (parents : List Signature) (declared : Signature) :
    (merge parents declared).names
    = (sorted parents
      (insertAll [] (inherited parents ++ declared.params.map (narrowed parents)))).map
        (·.name) := by
  rw [names, merge_eq]
  exact map_closeAfterVariadic Parameter.keywordOnly_name _ _

theorem merge_names_nodup (parents : List Signature) (declared : Signature) :
    (merge parents declared).names.Nodup := by
  rw [names_merge]
  exact List.pairwise_map.2 ((pairwise_sorted parents (collected_insertAll _)).imp And.right)

theorem mem_names_merge (parents : List Signature) (declared : Signature) (name : String) :
    name ∈ (merge parents declared).names
      ↔ name ∈ (declarations parents declared).map (·.name) := by
  have hnames :=
    (collected_insertAll
      (inherited parents ++ declared.params.map (narrowed parents))).mem_names name
  rw [names_merge, ← map_name_narrowed, ← hnames]
  simp only [List.mem_map, mem_sorted]

theorem pairwise_merge (parents : List Signature) (declared : Signature) :
    (merge parents declared).params.Pairwise
      (Precedes parents (declarations parents declared)) := by
  -- Only the name and whether it is mandatory decide where a parameter stands, and
  -- closing changes neither.
  have hfirst (name : String) :
      firstOf name (inherited parents ++ declared.params.map (narrowed parents))
      = firstOf name (declarations parents declared) := by
    rw [firstOf, map_name_narrowed, firstOf]
  have hplace (p : Parameter) : place parents p.keywordOnly = place parents p := by
    rw [place, place, Parameter.keywordOnly_name, Parameter.keywordOnly_isMandatory]
  have hcollected :=
    collected_insertAll (inherited parents ++ declared.params.map (narrowed parents))
  have hsorted := (pairwise_sorted parents hcollected).imp And.left
  unfold Precedes at hsorted ⊢
  simp only [hfirst] at hsorted
  have hkeys (params : List Parameter) := List.pairwise_map (l := params)
    (f := fun p => (place parents p, firstOf p.name (declarations parents declared)))
    (R := fun a b => a.1 < b.1 ∨ a.1 = b.1 ∧ a.2 < b.2)
  rw [← hkeys] at hsorted ⊢
  rwa [merge_eq, map_closeAfterVariadic fun p => by rw [hplace, Parameter.keywordOnly_name]]

/-- A merged parameter loses its position when a variadic one stands before it, or when it
was declared in addition to an inherited variadic one. -/
def Loses (parents : List Signature) (declared : Signature) (i : Nat)
    (name : String) : Prop :=
  ((merge parents declared).params.take i).any Parameter.isVariadic = true
    ∨ InheritsVariadic parents ∧ name ∈ declared.names

theorem lastOf_narrowed (name : String) :
    lastOf name (inherited parents ++ declared.params.map (narrowed parents))
      = (lastOf name declared.params).elim (lastOf name (inherited parents)) fun d =>
        some (narrowed parents d) := by
  rw [lastOf_append, lastOf_map name_narrowed]
  cases lastOf name declared.params <;> rfl

/-- A merged parameter is the one that was last declared under its name, but for its
position. -/
theorem source_of_merged {i : Nat} (h : (merge parents declared).params[i]? = some p) :
    ∃ d, lastOf p.name (declarations parents declared) = some d
      ∧ (Loses parents declared i p.name → p = d.keywordOnly)
        ∧ (¬ Loses parents declared i p.name → p = d) := by
  unfold Loses
  rw [merge_eq, any_take_closeAfterVariadic]
  rw [merge_eq, getElem?_closeAfterVariadic, Bool.false_or] at h
  obtain ⟨q, hq, rfl⟩ := Option.map_eq_some_iff.1 h
  have hlast :=
    ((collected_insertAll _).mem_iff q).1 (mem_sorted.1 (List.mem_of_getElem? hq))
  have hname (variadic : Bool) :
      (if variadic then q.keywordOnly else q).name = q.name := by
    cases variadic
    · rfl
    · exact q.keywordOnly_name
  rw [hname, declarations, lastOf_append]
  rw [lastOf_narrowed] at hlast
  cases hd : lastOf q.name declared.params with
  | none =>
      rw [hd] at hlast
      have hnew : q.name ∉ declared.names := lastOf_eq_none_iff.1 hd
      refine ⟨q, hlast, fun hloses => ?_, fun hkeeps => ?_⟩
      · rw [if_pos (hloses.resolve_right fun hdeclared => hnew hdeclared.2)]
      · rw [if_neg fun hafter => hkeeps (.inl hafter)]
  | some d =>
      rw [hd] at hlast
      have hmem : q.name ∈ declared.names := by
        rw [← name_of_lastOf hd]
        exact List.mem_map_of_mem (mem_of_lastOf hd)
      obtain rfl : narrowed parents d = q := Option.some.inj hlast
      refine ⟨d, rfl, fun hloses => ?_, fun hkeeps => ?_⟩
      · rcases hloses with hafter | ⟨hinherits, -⟩
        · rw [if_pos hafter, narrowed]
          split
          · exact d.keywordOnly_keywordOnly
          · rfl
        · rw [narrowed, if_pos (any_isVariadic_inherited.2 hinherits),
            Parameter.keywordOnly_keywordOnly, ite_self]
      · rw [if_neg fun hafter => hkeeps (.inl hafter), narrowed,
          if_neg fun hinherits => hkeeps (.inr ⟨any_isVariadic_inherited.1 hinherits, hmem⟩)]

/-- Nothing that stands after a variadic parameter takes a position. -/
theorem positions_before_variadic (parents : List Signature) (declared : Signature) :
    (merge parents declared).params.Pairwise fun p q => p.binding = .variadic →
      q.binding ≠ .positional := by
  refine List.pairwise_iff_getElem.2 fun i j hi hj hij hvariadic => ?_
  obtain ⟨d, -, hloses, -⟩ := source_of_merged (List.getElem?_eq_getElem hj)
  have hafter :
      ((merge parents declared).params.take j).any Parameter.isVariadic = true := by
    refine List.any_eq_true.2 ⟨_, List.mem_take_iff_getElem.2 ⟨i, by omega, rfl⟩, ?_⟩
    rw [Parameter.isVariadic, hvariadic]
    rfl
  rw [hloses (.inl hafter), Parameter.keywordOnly_binding]
  split
  · nofun
  · assumption

/-! ## The merged signature -/

/-- A merged signature has every name once, in order of the places and of their first
occurrences, and each as it was declared last. A parameter loses its position exactly if it
comes after a variadic one or is declared in addition to one. -/
theorem merged_parameters (parents : List Signature) (declared : Signature) :
    (merge parents declared).names.Nodup
      ∧ (∀ name, name ∈ (merge parents declared).names
        ↔ name ∈ (declarations parents declared).map (·.name))
      ∧ (merge parents declared).params.Pairwise
        (Precedes parents (declarations parents declared))
      ∧ (merge parents declared).params.Pairwise
        (fun p q => p.binding = .variadic → q.binding ≠ .positional)
      ∧ ∀ (i : Nat) (p : Parameter), (merge parents declared).params[i]? = some p →
        ∃ d, lastOf p.name (declarations parents declared) = some d
          ∧ p.default = d.default ∧ p.validator = d.validator
          ∧ (p.binding = d.binding ∨ d.binding = .positional ∧ p.binding = .keyword)
          ∧ (p.binding ≠ d.binding
            ↔ d.binding = .positional ∧ Loses parents declared i p.name) := by
  refine ⟨merge_names_nodup parents declared, mem_names_merge parents declared,
    pairwise_merge parents declared, positions_before_variadic parents declared,
    fun i p hp => ?_⟩
  obtain ⟨d, hlast, hloses, hkeeps⟩ := source_of_merged hp
  refine ⟨d, hlast, ?_⟩
  by_cases h : Loses parents declared i p.name
  · have hp := hloses h
    have hbinding : p.binding = if d.binding = .positional then .keyword else d.binding := by
      rw [hp, d.keywordOnly_binding]
    refine ⟨by rw [hp, d.keywordOnly_default], by rw [hp, d.keywordOnly_validator], ?_⟩
    by_cases hpositional : d.binding = .positional
    · rw [if_pos hpositional] at hbinding
      exact ⟨.inr ⟨hpositional, hbinding⟩, fun _ => ⟨hpositional, h⟩,
        fun _ => by rw [hbinding, hpositional]; nofun⟩
    · rw [if_neg hpositional] at hbinding
      exact ⟨.inl hbinding, fun hne => absurd hbinding hne,
        fun hboth => absurd hboth.1 hpositional⟩
  · obtain rfl := hkeeps h
    exact ⟨rfl, rfl, .inl rfl, fun hne => absurd rfl hne, fun hboth => absurd hboth.2 h⟩

/-- An inherited optional parameter is declared again as a mandatory one. It moves
in front, and for the inherited variadic one it loses its position, although it
comes before that one. -/
theorem merged_parameters_redeclared :
    ∃ (parents : List Signature) (declared : Signature),
      parents = [⟨[.required "a" .any, .optional "w" .any]⟩, ⟨[.variadic "rest" .any]⟩]
        ∧ declared = ⟨[.required "w" .integer, .optional "x" .any, .required "a" .string]⟩
        ∧ (merge parents declared).names = ["a", "w", "rest", "x"]
        ∧ (merge parents declared).params[1]? = some ⟨"w", .keyword, .required, .integer⟩
        ∧ lastOf "w" (declarations parents declared) = some (.required "w" .integer)
        ∧ Loses parents declared 1 "w" := by
  refine ⟨_, _, rfl, rfl, rfl, rfl, rfl, ?_⟩
  obtain ⟨-, -, -, -, hall⟩ :=
    merged_parameters [⟨[.required "a" .any, .optional "w" .any]⟩, ⟨[.variadic "rest" .any]⟩]
    ⟨[.required "w" .integer, .optional "x" .any, .required "a" .string]⟩
  obtain ⟨d, hlast, -, -, -, hloses⟩ := hall 1 ⟨"w", .keyword, .required, .integer⟩ rfl
  obtain rfl : Parameter.required "w" .integer = d := Option.some.inj hlast
  exact (hloses.1 nofun).2

end Signature

end TypedQuery
