import Mathlib.Data.List.Nodup
import TypedQuery.Proofs.Node.Revalidated

/-!
# Calls by name, and calls made of fields

A call comes down to what each parameter is given, if anything, and so to a call in which
every argument has the name of its parameter (`validate_eq_of_named`). The call that
`unbind` makes of some fields is a call by name as well (`validate_unbind`): what stands in
front of a variadic parameter keeps its position, and whatever comes after one is given by
name. Only a single argument for a variadic parameter is given as a sequence of one, which
its validator would have made of it.
-/

namespace TypedQuery

/-- A variadic parameter is mandatory, and asks for items that are something. -/
def Parameter.gathers (p : Parameter) : Bool :=
  !p.isVariadic || (p.isMandatory && match p.validator with
    | .tupleOf .value | .tupleOf (.valueOf _) | .tupleOf (.instanceOf _) => true
    | _ => false)

theorem Parameter.gathers_eq_true {p : Parameter} (h : p.gathers = true)
    (hvariadic : p.isVariadic = true) :
    p.default = .required ∧ ∃ inner,
      p.validator = .tupleOf inner ∧ ∀ bound a, inner.validate .none bound ≠ .ok a := by
  unfold gathers at h
  rw [hvariadic, Bool.not_true, Bool.false_or, Bool.and_eq_true] at h
  obtain ⟨hmandatory, h⟩ := h
  refine ⟨?_, ?_⟩
  · unfold isMandatory at hmandatory
    split at hmandatory
    · assumption
    · cases hmandatory
  · split at h
    · exact ⟨_, by assumption, fun _ _ h => by cases h⟩
    · exact ⟨_, by assumption, fun _ _ h => by cases h⟩
    · exact ⟨_, by assumption, fun _ _ h => by cases h⟩
    · cases h

namespace Signature

/-- Parameters with what each is given. -/
def slotsOf (f : Parameter → Option Arg) (params : List Parameter) :
    List (Parameter × Option Arg) :=
  params.map fun p => (p, f p)

/-- What a call gives each parameter. -/
def slots (s : Signature) (owner : String) (args : List Arg) (kwargs : List (String × Arg)) :
    Except Error (List (Parameter × Option Arg)) :=
  let (slots, left) := takePositional s.params args
  if left.isEmpty then
    giveKeywords owner slots kwargs
  else
    .error (.validation owner "*args"
      ("got " ++ toString left.length ++ " unexpected positional argument(s)"))

/-- The call by name that gives the parameters what they were given. -/
def named (slots : List (Parameter × Option Arg)) : Fields :=
  slots.filterMap fun slot => slot.2.map fun a => (slot.1.name, a)

/-- Every argument of a call by name has the name of a parameter, and no two have the same.
-/
structure Takes (s : Signature) (call : Fields) : Prop where
  once : (Fields.names call).Nodup
  known : ∀ name ∈ Fields.names call, name ∈ s.names

/-- What the field of a parameter will hold when it is given an argument or nothing. -/
def settle (owner : String) (bound : Fields) (p : Parameter) (slot : Option Arg) :
    Except Error Arg := do
  let a ← argument owner bound p slot
  match p.validator.validate a bound with
  | .ok a => .ok a
  | .error reason => .error (.validation owner p.name reason)

variable {owner : String} {s : Signature} {f g : Parameter → Option Arg}
    {params : List Parameter} {bound : Fields}
  {p : Parameter} {a b : Arg}

theorem slotsOf_congr (h : ∀ p ∈ params, f p = g p) : slotsOf f params = slotsOf g params :=
  List.map_congr_left fun p hp => by rw [h p hp]

theorem validate_eq_bind (s : Signature) (owner : String) (args : List Arg)
    (kwargs : List (String × Arg)) :
    s.validate owner args kwargs = (s.slots owner args kwargs >>= bindSlots owner []) := by
  unfold validate slots
  simp only []
  split <;> rfl

/-! ## Names -/

namespace Takes

variable {call : Fields}

theorem of_names (hnames : s.names.Nodup) (h : Fields.names call = s.names) : s.Takes call :=
  ⟨by rw [h]; exact hnames, fun name hname => by rw [← h]; exact hname⟩

theorem insert {name : String} (h : s.Takes call) (hname : name ∈ s.names) (a : Arg) :
    s.Takes (Fields.insert call name a) := by
  by_cases hmem : name ∈ Fields.names call
  · exact ⟨by rw [Fields.names_insert, if_pos hmem]; exact h.once, by
      rw [Fields.names_insert, if_pos hmem]; exact h.known⟩
  · constructor
    · rw [Fields.names_insert, if_neg hmem]
      exact List.nodup_append.2 ⟨h.once, List.nodup_singleton _, fun x hx y hy => by
        rw [List.mem_singleton.1 hy]; exact fun hxy => hmem (hxy ▸ hx)⟩
    · rw [Fields.names_insert, if_neg hmem]
      intro x hx
      rcases List.mem_append.1 hx with hx | hx
      · exact h.known x hx
      · rw [List.mem_singleton.1 hx]
        exact hname

end Takes

/-! ## Parameter by parameter -/

theorem settle_eq_ok {slot : Option Arg} :
    settle owner bound p slot = .ok a ↔ ∃ raw,
      argument owner bound p slot = .ok raw ∧ p.validator.validate raw bound = .ok a := by
  unfold settle
  rw [bind_eq_ok]
  refine exists_congr fun raw => and_congr_right fun _ => ?_
  cases p.validator.validate raw bound <;> simp

theorem settle_some : settle owner bound p (some a) = .ok b
    ↔ p.validator.validate a bound = .ok b := by
  rw [settle_eq_ok]
  exact ⟨fun ⟨raw, hraw, h⟩ => by cases hraw; exact h, fun h => ⟨a, rfl, h⟩⟩

theorem bindSlots_eq_bind {slot : Option Arg} {slots : List (Parameter × Option Arg)} :
    bindSlots owner bound ((p, slot) :: slots)
      = (settle owner bound p slot >>= fun a =>
        bindSlots owner (Fields.insert bound p.name a) slots) := by
  rw [bindSlots, settle, bind_assoc]
  refine congrArg _ (funext fun raw => ?_)
  cases p.validator.validate raw bound <;> rfl

/-- Fields come to the same when every parameter does. -/
theorem bindSlots_coincide
    (h : ∀ p ∈ params, ∀ bound, Coincide (settle owner bound p (f p))
      (settle owner bound p (g p))) (bound : Fields) :
    Coincide (bindSlots owner bound (slotsOf f params))
      (bindSlots owner bound (slotsOf g params)) := by
  induction params generalizing bound with
  | nil => exact .refl _
  | cons p rest ih =>
      show Coincide (bindSlots owner bound ((p, f p) :: slotsOf f rest))
        (bindSlots owner bound ((p, g p) :: slotsOf g rest))
      rw [bindSlots_eq_bind, bindSlots_eq_bind]
      exact (h p List.mem_cons_self bound).bind fun a _ =>
        ih (fun q hq => h q (List.mem_cons_of_mem _ hq)) (Fields.insert bound p.name a)

/-! ## Arguments by name -/

theorem takePositional_nil (params : List Parameter) :
    takePositional params [] = (slotsOf (fun _ => none) params, []) := by
  induction params with
  | nil => rfl
  | cons p rest ih =>
      rw [takePositional]
      cases p.binding <;> simp [ih, slotsOf]

theorem giveKeyword_slotsOf (hnames : (params.map (·.name)).Nodup) (hp : p ∈ params)
    (hfree : f p = none) (a : Arg) :
    giveKeyword owner p.name a (slotsOf f params)
      = .ok (slotsOf (fun q => if q.name = p.name then some a else f q) params) := by
  induction params with
  | nil => cases hp
  | cons q rest ih =>
      obtain ⟨hnew, hrest⟩ := List.nodup_cons.1 hnames
      show giveKeyword owner p.name a ((q, f q) :: slotsOf f rest) = _
      rw [giveKeyword.eq_def]
      simp only []
      by_cases hname : q.name = p.name
      · have hqp : p = q := by
          rcases List.mem_cons.1 hp with hqp | hp
          · exact hqp
          · exact absurd (List.mem_map.2 ⟨p, hp, hname.symm⟩) hnew
        subst hqp
        have hothers : ∀ r ∈ rest, f r = if r.name = p.name then some a else f r := by
          intro r hr
          rw [if_neg fun h => hnew (List.mem_map.2 ⟨r, hr, h⟩)]
        rw [if_pos rfl, hfree, slotsOf_congr hothers]
        simp [slotsOf]
      · have hp : p ∈ rest := (List.mem_cons.1 hp).resolve_left fun h => hname (by rw [h])
        rw [if_neg hname, ih hrest hp]
        show Except.ok _ = Except.ok _
        simp [slotsOf, hname]

theorem giveKeywords_slotsOf (hnames : (params.map (·.name)).Nodup) {kwargs : Fields}
    (hkwargs : (Fields.names kwargs).Nodup)
    (hfree : ∀ name ∈ Fields.names kwargs, ∃ p ∈ params, p.name = name ∧ f p = none) :
    giveKeywords owner (slotsOf f params) kwargs
      = .ok (slotsOf (fun p => (Fields.field? kwargs p.name).or (f p)) params) := by
  induction kwargs generalizing f with
  | nil => rfl
  | cons kw rest ih =>
      obtain ⟨name, a⟩ := kw
      obtain ⟨hnew, hrest⟩ := List.nodup_cons.1 hkwargs
      obtain ⟨⟨p, hp, rfl, hnone⟩, hothers⟩ := List.forall_mem_cons.1 hfree
      rw [giveKeywords, giveKeyword_slotsOf hnames hp hnone]
      refine (ih hrest fun name hname => ?_).trans
        (congrArg Except.ok (slotsOf_congr fun q _ => ?_))
      · obtain ⟨q, hq, rfl, hqnone⟩ := hothers name hname
        have hne : q.name ≠ p.name := fun h => hnew (h ▸ hname)
        exact ⟨q, hq, rfl, by rw [if_neg hne]; exact hqnone⟩
      · rw [Fields.field?_cons]
        by_cases hq : q.name = p.name
        · have hnone : Fields.field? rest q.name = none :=
            Fields.field?_eq_none_iff.2 (by rw [hq]; exact hnew)
          rw [hnone, if_pos hq, if_pos hq.symm]
          rfl
        · rw [if_neg hq, if_neg (Ne.symm hq)]

/-- A call by name gives the parameters that are named what is there for them. -/
theorem slots_named (hnames : s.names.Nodup) {call : Fields} (hcall : s.Takes call) :
    s.slots owner [] call = .ok (slotsOf (fun p => Fields.field? call p.name) s.params) := by
  unfold slots
  rw [takePositional_nil]
  refine (giveKeywords_slotsOf hnames hcall.once fun name hname => ?_).trans ?_
  · obtain ⟨p, hp, rfl⟩ := List.mem_map.1 (hcall.known name hname)
    exact ⟨p, hp, rfl, rfl⟩
  · simp

theorem validate_named (hnames : s.names.Nodup) {call : Fields} (hcall : s.Takes call) :
    s.validate owner [] call
      = bindSlots owner [] (slotsOf (fun p => Fields.field? call p.name) s.params) := by
  rw [validate_eq_bind, slots_named hnames hcall]
  rfl

/-- Slots by the names of their parameters. -/
theorem eq_slotsOf_named (hnames : (params.map (·.name)).Nodup)
    {slots : List (Parameter × Option Arg)} (h : slots.map (·.1) = params) :
    Takes ⟨params⟩ (named slots)
      ∧ slots = slotsOf (fun p => Fields.field? (named slots) p.name) params := by
  subst h
  induction slots with
  | nil => exact ⟨⟨List.nodup_nil, (fun _ h => h)⟩, rfl⟩
  | cons slot rest ih =>
      obtain ⟨p, given⟩ := slot
      obtain ⟨hnew, hrest⟩ := List.nodup_cons.1 hnames
      obtain ⟨⟨honce, hknown⟩, heq⟩ := ih hrest
      have hnotMem : p.name ∉ Fields.names (named rest) := fun h => hnew (hknown _ h)
      cases given with
      | none =>
          refine ⟨⟨honce, fun name h => List.mem_cons_of_mem _ (hknown name h)⟩, ?_⟩
          show (p, none) :: rest = (p, Fields.field? (named rest) p.name) :: slotsOf _ _
          rw [Fields.field?_eq_none_iff.2 hnotMem]
          exact congrArg _ heq
      | some a =>
          refine ⟨⟨List.nodup_cons.2 ⟨hnotMem, honce⟩, fun name h => ?_⟩, ?_⟩
          · rcases List.mem_cons.1 h with rfl | h
            · exact List.mem_cons_self
            · exact List.mem_cons_of_mem _ (hknown name h)
          · show (p, some a) :: rest = (p, Fields.field? ((p.name, a) :: named rest) p.name)
              :: slotsOf (fun q => Fields.field? ((p.name, a) :: named rest) q.name)
              (rest.map (·.1))
            rw [Fields.field?_cons, if_pos rfl]
            refine congrArg _ (heq.trans (slotsOf_congr fun q hq => ?_))
            rw [Fields.field?_cons, if_neg fun h => hnew (List.mem_map.2 ⟨q, hq, h.symm⟩)]

/-! ## Calls made of fields -/

/-- Nothing takes a position after a variadic parameter. -/
def closed : List Parameter → Bool
  | [] => true
  | p :: rest =>
    (!p.isVariadic || rest.all fun q => decide (q.binding = .keyword)) && closed rest

/-- What the fields hold for the parameter, or nothing. -/
def held (fields : Fields) (p : Parameter) : Arg := (Fields.field? fields p.name).getD .none

/-- What the call made of the fields gives the parameter. -/
def returned (fields : Fields) (p : Parameter) : Option Arg :=
  match p.binding, held fields p with
  | .variadic, .seq [] => none
  | .variadic, .seq items => some (.seq items)
  | .variadic, a => some (.seq [a])
  | _, a => some a

/-- What it gives by position. -/
def returnedByPosition (fields : Fields) (p : Parameter) : Option Arg :=
  if p.binding = .keyword then none else returned fields p

variable {fields : Fields}

theorem positionalOf_keywords (h : params.all fun p => decide (p.binding = .keyword)) :
    positionalOf fields params = [] := by
  induction params with
  | nil => rfl
  | cons p rest ih =>
      simp only [List.all_cons, Bool.and_eq_true, decide_eq_true_eq] at h
      rw [positionalOf]
      simp only [h.1]
      exact ih h.2

theorem takePositional_positionalOf (h : closed params) :
    takePositional params (positionalOf fields params)
      = (slotsOf (returnedByPosition fields) params, []) := by
  induction params with
  | nil => rfl
  | cons p rest ih =>
      rw [closed, Bool.and_eq_true] at h
      have ih := ih h.2
      rw [positionalOf, takePositional]
      show _ = ((p, returnedByPosition fields p)
        :: slotsOf (returnedByPosition fields) rest, [])
      cases hbinding : p.binding with
      | positional =>
          simp only [List.tail_cons, List.head?_cons, ih, returnedByPosition, returned,
            hbinding, held, reduceCtorEq, if_false]
      | keyword => simp only [ih, returnedByPosition, hbinding, if_true]
      | variadic =>
          have hkeywords : rest.all fun q => decide (q.binding = .keyword) := by
            simpa [Parameter.isVariadic, hbinding] using h.1
          rw [positionalOf_keywords hkeywords] at ih ⊢
          simp only [ih, returnedByPosition, returned, hbinding, held,
            reduceCtorEq, if_false]
          cases (Fields.field? fields p.name).getD .none with
          | seq items => cases items <;> simp
          | _ => simp

theorem names_keywordsOf (fields : Fields) (params : List Parameter) :
    Fields.names (keywordsOf fields params)
      = (params.filter fun p => decide (p.binding = .keyword)).map (·.name) := by
  simp [Fields.names, keywordsOf, Function.comp_def]

theorem field?_keywordsOf (hnames : (params.map (·.name)).Nodup) (hp : p ∈ params) :
    Fields.field? (keywordsOf fields params) p.name
      = if p.binding = .keyword then some (held fields p) else none := by
  have hnodup : (Fields.names (keywordsOf fields params)).Nodup := by
    rw [names_keywordsOf]
    exact hnames.sublist (List.filter_sublist.map _)
  split
  · next h =>
      exact Fields.field?_of_mem hnodup
        (List.mem_map.2 ⟨p, List.mem_filter.2 ⟨hp, by simpa using h⟩, rfl⟩)
  · next h =>
      rw [Fields.field?_eq_none_iff, names_keywordsOf]
      intro hmem
      obtain ⟨q, hq, hname⟩ := List.mem_map.1 hmem
      obtain ⟨hq, hkeyword⟩ := List.mem_filter.1 hq
      obtain rfl : q = p := List.inj_on_of_nodup_map hnames hq hp hname
      exact h (by simpa using hkeyword)

theorem slots_unbind (hnames : s.names.Nodup) (hclosed : closed s.params) :
    s.slots owner (s.unbind fields).1 (s.unbind fields).2
      = .ok (slotsOf (returned fields) s.params) := by
  unfold slots unbind
  simp only [takePositional_positionalOf hclosed, List.isEmpty_nil, if_true]
  refine (giveKeywords_slotsOf hnames ?_ fun name hname => ?_).trans
    (congrArg _ (slotsOf_congr fun p hp => ?_))
  · rw [names_keywordsOf]
    exact List.Nodup.sublist (List.filter_sublist.map _) hnames
  · rw [names_keywordsOf] at hname
    obtain ⟨p, hp, rfl⟩ := List.mem_map.1 hname
    obtain ⟨hp, hkeyword⟩ := List.mem_filter.1 hp
    exact ⟨p, hp, rfl, if_pos (by simpa using hkeyword)⟩
  · rw [field?_keywordsOf hnames hp]
    by_cases hkeyword : p.binding = .keyword
    · rw [if_pos hkeyword]
      simp [returned, hkeyword]
    · rw [if_neg hkeyword, returnedByPosition, if_neg hkeyword]
      rfl

/-- A single argument for a variadic parameter is as good as a sequence of it. -/
theorem settle_returned (hp : p.gathers = true) (bound fields : Fields) :
    Coincide (settle owner bound p (returned fields p))
      (settle owner bound p (some (held fields p))) := by
  unfold returned
  cases hbinding : p.binding with
  | positional | keyword => exact .refl _
  | variadic =>
      have hvariadic : p.isVariadic = true := by simp [Parameter.isVariadic, hbinding]
      obtain ⟨hrequired, inner, hvalidator, hnothing⟩ :=
        Parameter.gathers_eq_true hp hvariadic
      have hseq {item : Arg}
        (h : ∀ check, Validator.sequence check (.seq [item])
          = Validator.sequence check item) :
          Coincide (settle owner bound p (some (.seq [item])))
              (settle owner bound p (some item)) := by
        intro b
        rw [settle_some, settle_some, hvalidator, Validator.validate, Validator.validate, h]
      cases held fields p with
      | seq items =>
          cases items with
          | nil =>
              refine .of_eq ?_
              have hnone : argument owner bound p none = .ok (.seq []) := by
                rw [argument, hrequired]
                exact if_pos hvariadic
              rw [settle, hnone]
              rfl
          | cons a rest => exact .refl _
      | none =>
          intro b
          rw [settle_some, settle_some, hvalidator, Validator.validate, Validator.validate]
          refine ⟨fun h => ?_, fun h => by cases h⟩
          obtain ⟨out, hout, -⟩ := bind_eq_ok.1 h
          cases Validator.eachFrom_eq_ok hout with
          | cons hitem _ => exact absurd hitem (hnothing bound _)
      | value _ | node _ | map _ | type _ | shape _ | schema _ => exact hseq fun _ => rfl

/-- The call made of fields comes to what the call by name that gives every
parameter its field comes to. -/
theorem validate_unbind (hnames : s.names.Nodup) (hclosed : closed s.params)
    (hgathers : ∀ p ∈ s.params, p.gathers = true) (hfields : Fields.names fields = s.names) :
    Coincide (s.validate owner (s.unbind fields).1 (s.unbind fields).2)
      (s.validate owner [] fields) := by
  rw [validate_named hnames (.of_names hnames hfields), validate_eq_bind,
    slots_unbind hnames hclosed]
  refine bindSlots_coincide
    (fun p hp bound => (settle_returned (hgathers p hp) bound fields).trans (.of_eq ?_)) []
  have hmem : p.name ∈ Fields.names fields := by
    rw [hfields]
    exact List.mem_map_of_mem hp
  cases hheld : Fields.field? fields p.name with
  | none => exact absurd hmem (Fields.field?_eq_none_iff.1 hheld)
  | some a => rw [held, hheld]; rfl

end Signature

theorem NodeKind.closed (k : NodeKind) :
    Signature.closed k.definition.signature.params = true := by
  have h : ∀ k ∈ all, Signature.closed k.definition.signature.params = true := by
    set_option maxRecDepth 2000 in decide
  exact h k k.mem_all

theorem NodeKind.gathers (k : NodeKind) :
    ∀ p ∈ k.definition.signature.params, p.gathers = true := by
  have h : ∀ k ∈ all, ∀ p ∈ k.definition.signature.params, p.gathers = true := by
    set_option maxRecDepth 2000 in decide
  exact h k k.mem_all

end TypedQuery
