import TypedQuery.Proofs.MergedParameters
import TypedQuery.Proofs.Node.Rebound

/-!
# Which calls a signature takes

A call gives arguments by position and by keyword, and what it comes to is a list of
arguments by name: those by position have the names of the parameters that take positions,
and a variadic parameter has the rest of them as a sequence. A call is taken when every
argument finds a parameter, none finds two, what is required is there, and every validator
accepts the value of its parameter. As only the list by name matters, an argument may be
moved from its position to its name.
-/

namespace TypedQuery

namespace Signature

/-- The names of the parameters that take a position, in order. -/
def positionals (s : Signature) : List String :=
  (s.params.filter fun p => decide (p.binding = .positional)).map (·.name)

def variadics (s : Signature) : List String :=
  (s.params.filter Parameter.isVariadic).map (·.name)

/-- Arguments by position under the names of their parameters. What is left over goes to
a variadic parameter. -/
def byPosition (s : Signature) (args : List Arg) : Fields :=
  s.positionals.zip args
    ++ if args.length ≤ s.positionals.length then []
      else s.variadics.map fun name => (name, .seq (args.drop s.positionals.length))

/-- All arguments of a call by name. -/
def given (s : Signature) (args : List Arg) (kwargs : Fields) : Fields :=
  s.byPosition args ++ kwargs

/-- The arguments by position have parameters. -/
def Fits (s : Signature) (args : List Arg) : Prop :=
  args.length ≤ s.positionals.length ∨ s.variadics ≠ []

/-- Every argument has a parameter, and no parameter gets two. -/
structure Assigns (s : Signature) (args : List Arg) (kwargs : Fields) : Prop where
  fits : s.Fits args
  known : ∀ name ∈ Fields.names kwargs, name ∈ s.names
  once : (Fields.names (s.given args kwargs)).Nodup

/-- Every parameter that is mandatory gets an argument, but for variadic ones. -/
def Supplies (s : Signature) (call : Fields) : Prop :=
  ∀ p ∈ s.params, p.isMandatory = true → p.isVariadic = false → p.name ∈ Fields.names call

/-- What a parameter is given, or else its default in the light of the fields before it. -/
def value? (call before : Fields) (p : Parameter) : Option Arg :=
  match Fields.field? call p.name, p.default with
  | some a, _ => some a
  | none, .produced make => some (make before)
  | none, .required => if p.isVariadic then some (.seq []) else none

/-- Each field is what the validator of its parameter makes of the parameter's value in the
light of the fields before it, and the fields are in the order of the signature. -/
structure Validates (s : Signature) (call fields : Fields) : Prop where
  names_eq : Fields.names fields = s.names
  accepted : ∀ (i : Nat) (p : Parameter), s.params[i]? = some p →
    ∃ raw a, value? call (fields.take i) p = some raw
    ∧ p.validator.validate raw (fields.take i) = .ok a ∧ fields[i]? = some (p.name, a)

variable {s : Signature} {owner : String} {params : List Parameter} {args : List Arg}
    {kwargs call call' fields bound : Fields}
  {p : Parameter} {f : Parameter → Option Arg} {name : String} {k : Nat}

/-! ## Arguments by position -/

theorem closed_of_pairwise (hpositions : params.Pairwise fun p q => p.binding = .variadic →
    q.binding ≠ .positional)
    (hone : (params.filter Parameter.isVariadic).length ≤ 1) : closed params = true := by
  induction params with
  | nil => rfl
  | cons p rest ih =>
      obtain ⟨hp, hrest⟩ := List.pairwise_cons.1 hpositions
      rw [closed, Bool.and_eq_true]
      by_cases hvariadic : p.isVariadic = true
      · rw [List.filter_cons_of_pos hvariadic, List.length_cons] at hone
        have hnone : rest.filter Parameter.isVariadic = [] :=
          List.length_eq_zero_iff.1 (by omega)
        refine ⟨?_, ih hrest (by rw [hnone]; exact Nat.zero_le _)⟩
        rw [hvariadic, Bool.not_true, Bool.false_or, List.all_eq_true]
        intro q hq
        have hpositional := hp q hq (of_decide_eq_true hvariadic)
        have hsingle : ¬ q.isVariadic = true := List.filter_eq_nil_iff.1 hnone q hq
        cases hbinding : q.binding with
        | positional => exact absurd hbinding hpositional
        | variadic => exact absurd (decide_eq_true hbinding) hsingle
        | keyword => rfl
      · rw [List.filter_cons_of_neg hvariadic] at hone
        exact ⟨by rw [Bool.eq_false_iff.2 hvariadic]; rfl, ih hrest hone⟩

theorem names_cons_positional (hp : p.binding = .positional) (params : List Parameter) :
    positionals ⟨p :: params⟩ = p.name :: positionals ⟨params⟩
      ∧ variadics ⟨p :: params⟩ = variadics ⟨params⟩ := by
  simp [positionals, variadics, Parameter.isVariadic, hp]

theorem names_cons_keyword (hp : p.binding = .keyword) (params : List Parameter) :
    positionals ⟨p :: params⟩ = positionals ⟨params⟩
      ∧ variadics ⟨p :: params⟩ = variadics ⟨params⟩ := by
  simp [positionals, variadics, Parameter.isVariadic, hp]

theorem byPosition_cons_positional (hp : p.binding = .positional) (a : Arg) :
    byPosition ⟨p :: params⟩ (a :: args) = (p.name, a) :: byPosition ⟨params⟩ args := by
  obtain ⟨hpositionals, hvariadics⟩ := names_cons_positional hp params
  simp [byPosition, hpositionals, hvariadics]

theorem byPosition_cons_keyword (hp : p.binding = .keyword) :
    byPosition ⟨p :: params⟩ args = byPosition ⟨params⟩ args := by
  obtain ⟨hpositionals, hvariadics⟩ := names_cons_keyword hp params
  rw [byPosition, byPosition, hpositionals, hvariadics]

/-- After a variadic parameter all others go by keyword. -/
theorem names_cons_variadic (hp : p.binding = .variadic)
    (hclosed : closed (p :: params) = true) :
    positionals ⟨p :: params⟩ = [] ∧ variadics ⟨p :: params⟩ = [p.name] := by
  have hvariadic : p.isVariadic = true := decide_eq_true hp
  have hkeywords : ∀ q ∈ params, q.binding = .keyword := by
    rw [closed, Bool.and_eq_true, hvariadic, Bool.not_true, Bool.false_or,
      List.all_eq_true] at hclosed
    exact fun q hq => of_decide_eq_true (hclosed.1 q hq)
  constructor
  · rw [positionals, List.map_eq_nil_iff, List.filter_eq_nil_iff]
    exact List.forall_mem_cons.2 ⟨by simp [hp], fun q hq => by simp [hkeywords q hq]⟩
  · have hnone : params.filter Parameter.isVariadic = [] :=
      List.filter_eq_nil_iff.2 fun q hq => by simp [Parameter.isVariadic, hkeywords q hq]
    rw [variadics, List.filter_cons_of_pos hvariadic, hnone]
    rfl

theorem byPosition_cons_variadic (hp : p.binding = .variadic)
    (hclosed : closed (p :: params) = true) (args : List Arg) :
    byPosition ⟨p :: params⟩ args = if args.isEmpty then [] else [(p.name, .seq args)] := by
  obtain ⟨hpositionals, hvariadics⟩ := names_cons_variadic hp hclosed
  rw [byPosition, hpositionals, hvariadics]
  cases args <;> simp

theorem byPosition_nil (s : Signature) : s.byPosition [] = [] := by
  simp [byPosition]

theorem mem_names_of_byPosition (h : name ∈ Fields.names (s.byPosition args)) :
    name ∈ s.names := by
  have hfiltered (test : Parameter → Bool)
      (h : name ∈ (s.params.filter test).map (·.name)) : name ∈ s.names := by
    obtain ⟨p, hp, rfl⟩ := List.mem_map.1 h
    exact List.mem_map_of_mem (List.mem_filter.1 hp).1
  rw [byPosition, Fields.names_append, List.mem_append] at h
  rcases h with h | h
  · obtain ⟨field, hfield, rfl⟩ := List.mem_map.1 h
    exact hfiltered _ (List.of_mem_zip hfield).1
  · split at h
    · cases h
    · refine hfiltered Parameter.isVariadic ?_
      simpa [Fields.names, variadics] using h

theorem byPosition_nodup (hnames : (params.map (·.name)).Nodup)
    (hclosed : closed params = true) (args : List Arg) :
    (Fields.names (byPosition ⟨params⟩ args)).Nodup := by
  induction params generalizing args with
  | nil => simp [byPosition, positionals, variadics, Fields.names]
  | cons p rest ih =>
      obtain ⟨hnew, hrest⟩ := List.nodup_cons.1 hnames
      have hclosedRest : closed rest = true := (Bool.and_eq_true _ _ ▸ hclosed).2
      cases hbinding : p.binding with
      | positional =>
          cases args with
          | nil => rw [byPosition_nil]; exact List.nodup_nil
          | cons a args =>
              rw [byPosition_cons_positional hbinding]
              exact List.nodup_cons.2
                ⟨fun h => hnew (mem_names_of_byPosition h), ih hrest hclosedRest args⟩
      | keyword =>
          rw [byPosition_cons_keyword hbinding]
          exact ih hrest hclosedRest args
      | variadic =>
          rw [byPosition_cons_variadic hbinding hclosed]
          split
          · exact List.nodup_nil
          · exact List.nodup_singleton _

/-- Taking positions gives every parameter what is there under its name, and what
fits leaves nothing over. -/
theorem takePositional_eq (hnames : (params.map (·.name)).Nodup)
    (hclosed : closed params = true) (args : List Arg) :
    takePositional params args
      = (slotsOf (fun p => Fields.field? (byPosition ⟨params⟩ args) p.name) params,
        if variadics ⟨params⟩ = [] then
          args.drop (positionals ⟨params⟩).length else []) := by
  induction params generalizing args with
  | nil => simp [takePositional, slotsOf, variadics, positionals]
  | cons p rest ih =>
      obtain ⟨hnew, hrest⟩ := List.nodup_cons.1 hnames
      have ih := ih hrest (Bool.and_eq_true _ _ ▸ hclosed).2
      -- What the first parameter gets is not there under the names of the others.
      have hothers (a : Option Arg) (f g : Parameter → Option Arg) (hp : f p = a)
        (h : ∀ q ∈ rest, p.name ≠ q.name → f q = g q) :
          slotsOf f (p :: rest) = (p, a) :: slotsOf g rest := by
        rw [← slotsOf_congr fun q hq => h q hq fun heq => hnew
          (List.mem_map.2 ⟨q, hq, heq.symm⟩), ← hp]
        rfl
      rw [takePositional]
      cases hbinding : p.binding with
      | positional =>
          obtain ⟨hpositionals, hvariadics⟩ := names_cons_positional hbinding rest
          cases args with
          | nil => simp [takePositional_nil, byPosition_nil, slotsOf, Fields.field?]
          | cons a args =>
              simp only [List.tail_cons, List.head?_cons, ih,
                byPosition_cons_positional hbinding, hvariadics, hpositionals,
                List.length_cons, List.drop_succ_cons, Fields.field?_cons]
              rw [hothers (some a) _ _ (if_pos rfl) fun q _ hq => if_neg hq]
      | keyword =>
          obtain ⟨hpositionals, hvariadics⟩ := names_cons_keyword hbinding rest
          have hnone : Fields.field? (byPosition ⟨rest⟩ args) p.name = none :=
            Fields.field?_eq_none_iff.2 fun h => hnew (mem_names_of_byPosition h)
          simp only [ih, byPosition_cons_keyword hbinding, hvariadics, hpositionals]
          rw [hothers none _ _ hnone fun _ _ _ => rfl]
      | variadic =>
          obtain ⟨hpositionals, hvariadics⟩ := names_cons_variadic hbinding hclosed
          simp only [takePositional_nil, byPosition_cons_variadic hbinding hclosed,
            hpositionals, hvariadics]
          refine congrArg₂ Prod.mk ?_ (if_neg (List.cons_ne_nil _ _)).symm
          cases args with
          | nil => rfl
          | cons a args =>
              simp only [List.isEmpty_cons, Bool.false_eq_true, if_false, Fields.field?_cons]
              rw [hothers (some (.seq (a :: args))) _ _ (if_pos rfl) fun q _ hq => if_neg hq]
              rfl

/-! ## Arguments by keyword -/

/-- A keyword that is taken has a parameter that nothing was given for. -/
theorem free_of_giveKeyword {a : Arg} {out : List (Parameter × Option Arg)}
    (h : giveKeyword owner name a (slotsOf f params) = .ok out) :
    ∃ p ∈ params, p.name = name ∧ f p = none := by
  induction params generalizing out with
  | nil => cases h
  | cons p rest ih =>
      have h' : giveKeyword owner name a ((p, f p) :: slotsOf f rest) = .ok out := h
      rw [giveKeyword.eq_def] at h'
      simp only [] at h'
      split at h'
      · next hname =>
          cases hfree : f p with
          | none => exact ⟨p, List.mem_cons_self, hname, hfree⟩
          | some b =>
              rw [hfree] at h'
              cases h'
      · obtain ⟨more, hmore, -⟩ := bind_eq_ok.1 h'
        obtain ⟨q, hq, hname, hfree⟩ := ih hmore
        exact ⟨q, List.mem_cons_of_mem _ hq, hname, hfree⟩

theorem free_of_giveKeywords (hnames : (params.map (·.name)).Nodup)
    {out : List (Parameter × Option Arg)}
    (h : giveKeywords owner (slotsOf f params) kwargs = .ok out) :
    (Fields.names kwargs).Nodup ∧ ∀ name ∈ Fields.names kwargs, ∃ p ∈ params,
      p.name = name ∧ f p = none := by
  induction kwargs generalizing f with
  | nil => exact ⟨List.nodup_nil, nofun⟩
  | cons kw rest ih =>
      obtain ⟨name, a⟩ := kw
      rw [giveKeywords] at h
      obtain ⟨more, hmore, h⟩ := bind_eq_ok.1 h
      obtain ⟨p, hp, rfl, hfree⟩ := free_of_giveKeyword hmore
      rw [giveKeyword_slotsOf hnames hp hfree] at hmore
      cases hmore
      obtain ⟨hrest, hothers⟩ := ih h
      -- What the first keyword has filled is free no more.
      have hnew : p.name ∉ Fields.names rest := fun hmem => by
        obtain ⟨q, -, hname, hnone⟩ := hothers p.name hmem
        rw [if_pos hname] at hnone
        cases hnone
      refine ⟨List.nodup_cons.2 ⟨hnew, hrest⟩,
        List.forall_mem_cons.2 ⟨⟨p, hp, rfl, hfree⟩, fun name hname => ?_⟩⟩
      obtain ⟨q, hq, rfl, hnone⟩ := hothers name hname
      have hne : q.name ≠ p.name := fun heq => hnew (heq ▸ hname)
      rw [if_neg hne] at hnone
      exact ⟨q, hq, rfl, hnone⟩

theorem fits_iff : s.Fits args
    ↔ (if s.variadics = [] then args.drop s.positionals.length else []).isEmpty = true := by
  unfold Fits
  split
  · next h => simp [h]
  · next h => simp [h]

theorem field?_given
    (h : ∀ name ∈ Fields.names kwargs, name ∉ Fields.names (s.byPosition args))
    (name : String) :
    Fields.field? (s.given args kwargs) name
      = (Fields.field? kwargs name).or (Fields.field? (s.byPosition args) name) := by
  rw [given, Fields.field?_append]
  cases hkw : Fields.field? kwargs name with
  | none => rw [Option.none_or, Option.or_none]
  | some a =>
      rw [Fields.field?_eq_none_iff.2
        (h name (List.mem_map_of_mem (Fields.mem_of_field? hkw)))]
      rfl

/-- A call gives every parameter what it has under the parameter's name. -/
theorem slots_eq_ok (hnames : s.names.Nodup) (hclosed : closed s.params = true)
    {out : List (Parameter × Option Arg)} :
    s.slots owner args kwargs = .ok out ↔ s.Assigns args kwargs
      ∧ out = slotsOf (fun p => Fields.field? (s.given args kwargs) p.name) s.params := by
  unfold slots
  rw [takePositional_eq hnames hclosed]
  by_cases hfits : s.Fits args
  · have hempty := fits_iff.1 hfits
    simp only [hempty, if_true]
    constructor
    · intro h
      obtain ⟨hkwargs, hfree⟩ := free_of_giveKeywords hnames h
      have hapart : ∀ name ∈ Fields.names kwargs, name ∉ Fields.names (s.byPosition args) :=
        fun name hname => by
        obtain ⟨p, -, rfl, hnone⟩ := hfree name hname
        exact Fields.field?_eq_none_iff.1 hnone
      refine ⟨⟨hfits, fun name hname => ?_, ?_⟩, ?_⟩
      · obtain ⟨p, hp, rfl, -⟩ := hfree name hname
        exact List.mem_map_of_mem hp
      · rw [given, Fields.names_append]
        exact List.nodup_append.2
          ⟨byPosition_nodup hnames hclosed args, hkwargs, fun name hname other hother heq =>
          hapart other hother (heq ▸ hname)⟩
      · rw [giveKeywords_slotsOf hnames hkwargs hfree] at h
        rw [← Except.ok.inj h]
        exact slotsOf_congr fun p _ => (field?_given hapart p.name).symm
    · rintro ⟨⟨-, hknown, honce⟩, rfl⟩
      rw [given, Fields.names_append, List.nodup_append] at honce
      obtain ⟨-, hkwargs, hapart⟩ := honce
      have hapart : ∀ name ∈ Fields.names kwargs, name ∉ Fields.names (s.byPosition args) :=
        fun name hname hmem => hapart name hmem name hname rfl
      refine (giveKeywords_slotsOf hnames hkwargs fun name hname => ?_).trans
        (congrArg _ (slotsOf_congr fun p _ => ?_))
      · obtain ⟨p, hp, rfl⟩ := List.mem_map.1 (hknown name hname)
        exact ⟨p, hp, rfl, Fields.field?_eq_none_iff.2 (hapart _ hname)⟩
      · exact (field?_given hapart p.name).symm
  · have hleft : ¬ (if s.variadics = [] then args.drop s.positionals.length else []).isEmpty
      = true := mt fits_iff.2 hfits
    simp only [hleft]
    exact ⟨(fun h => by cases h), fun h => absurd h.1.fits hfits⟩

/-! ## Values in order -/

theorem argument_eq_ok {raw : Arg} :
    argument owner bound p (Fields.field? call p.name) = .ok raw
      ↔ value? call bound p = some raw := by
  unfold argument value?
  cases Fields.field? call p.name with
  | some a => simp
  | none =>
      cases p.default with
      | produced make => simp
      | required => cases p.isVariadic <;> simp

/-- Every parameter gets the field that its validator makes of its value, in the
light of all before it. -/
theorem bindSlots_eq_ok (hnames : (Fields.names bound ++ params.map (·.name)).Nodup) :
    bindSlots owner bound (slotsOf (fun p => Fields.field? call p.name) params) = .ok fields
      ↔ ∃ more, fields = bound ++ more ∧ Fields.names more = params.map (·.name)
        ∧ ∀ (i : Nat) (p : Parameter), params[i]? = some p →
          ∃ raw a, value? call (bound ++ more.take i) p = some raw
          ∧ p.validator.validate raw (bound ++ more.take i) = .ok a
          ∧ more[i]? = some (p.name, a) := by
  induction params generalizing bound with
  | nil =>
      constructor
      · intro h
        cases h
        exact ⟨[], (List.append_nil _).symm, rfl, nofun⟩
      · rintro ⟨more, rfl, hmore, -⟩
        rw [List.map_eq_nil_iff.1 hmore, List.append_nil]
        rfl
  | cons p rest ih =>
      have hnew : p.name ∉ Fields.names bound := fun hmem =>
        (List.nodup_append.1 hnames).2.2 _ hmem _ List.mem_cons_self rfl
      have hrest (a : Arg) :
          (Fields.names (bound ++ [(p.name, a)]) ++ rest.map (·.name)).Nodup := by
        rw [Fields.names_append, List.append_assoc]
        exact hnames
      show bindSlots owner bound ((p, Fields.field? call p.name) :: slotsOf _ rest)
        = .ok fields ↔ _
      simp only [bindSlots_eq_bind, bind_eq_ok, settle_eq_ok, argument_eq_ok,
        Fields.insert_of_notMem hnew, ih (hrest _)]
      constructor
      · rintro ⟨a, ⟨raw, hraw, hvalid⟩, more, rfl, hmore, haccepted⟩
        refine ⟨(p.name, a) :: more, by rw [List.append_assoc]; rfl, congrArg _ hmore,
          fun i q hq => ?_⟩
        cases i with
        | zero =>
            cases hq
            exact ⟨raw, a, by simpa using hraw, by simpa using hvalid, rfl⟩
        | succ i => simpa using haccepted i q hq
      · rintro ⟨more, rfl, hmore, haccepted⟩
        obtain ⟨raw, a, hraw, hvalid, hfirst⟩ := haccepted 0 p rfl
        cases more with
        | nil => cases hfirst
        | cons field more =>
            cases hfirst
            refine ⟨a, ⟨raw, by simpa using hraw, by simpa using hvalid⟩, more,
              by rw [List.append_assoc]; rfl, (List.cons.inj hmore).2, fun i q hq => ?_⟩
            simpa using haccepted (i + 1) q hq

theorem supplies_of_validates (h : s.Validates call fields) : s.Supplies call := by
  intro p hp hmandatory hvariadic
  obtain ⟨i, hi⟩ := List.mem_iff_getElem?.1 hp
  obtain ⟨raw, a, hraw, -, -⟩ := h.accepted i p hi
  by_contra hmem
  have hrequired : p.default = .required := by
    unfold Parameter.isMandatory at hmandatory
    split at hmandatory
    · assumption
    · cases hmandatory
  simp [value?, Fields.field?_eq_none_iff.2 hmem, hrequired, hvariadic] at hraw

/-- A call succeeds exactly if its arguments can be assigned, what is mandatory is there,
and the values are accepted. -/
theorem validate_eq_ok (hnames : s.names.Nodup) (hclosed : closed s.params = true) :
    s.validate owner args kwargs = .ok fields
      ↔ s.Assigns args kwargs ∧ s.Supplies (s.given args kwargs)
      ∧ s.Validates (s.given args kwargs) fields := by
  have hfields : (Fields.names [] ++ s.params.map (·.name)).Nodup := hnames
  rw [validate_eq_bind, bind_eq_ok]
  constructor
  · rintro ⟨slots, hslots, h⟩
    obtain ⟨hassigns, rfl⟩ := (slots_eq_ok hnames hclosed).1 hslots
    obtain ⟨_, rfl, hmore, haccepted⟩ := (bindSlots_eq_ok hfields).1 h
    have hvalidates : s.Validates (s.given args kwargs) fields := ⟨hmore, haccepted⟩
    exact ⟨hassigns, supplies_of_validates hvalidates, hvalidates⟩
  · rintro ⟨hassigns, -, hvalidates⟩
    exact ⟨_, (slots_eq_ok hnames hclosed).2 ⟨hassigns, rfl⟩,
      (bindSlots_eq_ok hfields).2 ⟨fields, rfl, hvalidates.names_eq, hvalidates.accepted⟩⟩

/-! ## From position to keyword -/

theorem names_perm (h : call.Perm call') :
    (Fields.names call).Perm (Fields.names call') := h.map Prod.fst

theorem field?_of_perm (h : call.Perm call') (honce : (Fields.names call).Nodup)
    (name : String) :
    Fields.field? call name = Fields.field? call' name := by
  have honce' : (Fields.names call').Nodup := (names_perm h).nodup_iff.1 honce
  refine Option.ext fun a => ⟨fun ha => ?_, fun ha => ?_⟩
  · exact Fields.field?_of_mem honce' (h.mem_iff.1 (Fields.mem_of_field? ha))
  · exact Fields.field?_of_mem honce (h.mem_iff.2 (Fields.mem_of_field? ha))

theorem zip_take (names : List String) (args : List Arg) (k : Nat) :
    names.zip (args.take k) = (names.zip args).take k := by
  induction names generalizing args k with
  | nil => simp
  | cons name names ih =>
      cases args with
      | nil => simp
      | cons a args =>
          cases k with
          | zero => rfl
          | succ k => simp [ih]

theorem byPosition_take (hk : k ≤ s.positionals.length) :
    s.byPosition (args.take k) = (s.byPosition args).take k := by
  have hshort : (args.take k).length ≤ s.positionals.length :=
    Nat.le_trans (List.length_take_le k args) hk
  rw [byPosition, if_pos hshort, List.append_nil, zip_take, byPosition]
  split
  · rw [List.append_nil]
  · next hlong =>
      have hlength : k ≤ (s.positionals.zip args).length := by rw [List.length_zip]; omega
      rw [List.take_append_of_le_length hlength]

/-- A call whose arguments are given by name from some position on gives the same. -/
theorem given_moved (hk : k ≤ s.positionals.length) {kwargs' : Fields}
    (h : kwargs'.Perm ((s.byPosition args).drop k ++ kwargs)) :
    (s.given (args.take k) kwargs').Perm (s.given args kwargs) := by
  rw [given, given, byPosition_take hk]
  refine (h.append_left _).trans (.of_eq ?_)
  rw [← List.append_assoc, List.take_append_drop]

theorem assigns_moved (hfits : s.Fits args) (hk : k ≤ s.positionals.length)
    {kwargs' : Fields} (h : kwargs'.Perm ((s.byPosition args).drop k ++ kwargs)) :
    s.Assigns (args.take k) kwargs' ↔ s.Assigns args kwargs := by
  have honce := (names_perm (given_moved hk h)).nodup_iff
  have hnames (name : String) : name ∈ Fields.names kwargs'
      ↔ name ∈ Fields.names ((s.byPosition args).drop k ++ kwargs) :=
    (names_perm h).mem_iff
  simp only [Fields.names_append, List.mem_append] at hnames
  constructor
  · intro hmoved
    exact ⟨hfits, fun name hname => hmoved.known name ((hnames name).2 (.inr hname)),
      honce.1 hmoved.once⟩
  · intro hassigns
    refine ⟨.inl (Nat.le_trans (List.length_take_le k args) hk), fun name hname => ?_,
      honce.2 hassigns.once⟩
    rcases (hnames name).1 hname with hname | hname
    · exact mem_names_of_byPosition (((List.drop_sublist k _).map Prod.fst).subset hname)
    · exact hassigns.known name hname

/-- Arguments may be given by name from any position on, in any order. Where each has one
parameter, the outcome is the very same, and else both calls are refused. -/
theorem validate_moved (hnames : s.names.Nodup) (hclosed : closed s.params = true)
    (hfits : s.Fits args) (hk : k ≤ s.positionals.length) {kwargs' : Fields}
    (h : kwargs'.Perm ((s.byPosition args).drop k ++ kwargs)) :
    (s.Assigns args kwargs →
      s.validate owner (args.take k) kwargs' = s.validate owner args kwargs)
      ∧ Coincide (s.validate owner (args.take k) kwargs')
        (s.validate owner args kwargs) := by
  have hsame : s.Assigns args kwargs →
      s.validate owner (args.take k) kwargs' = s.validate owner args kwargs := by
    intro hassigns
    have hmoved := (assigns_moved hfits hk h).2 hassigns
    have hslots :
        slotsOf (fun p => Fields.field? (s.given (args.take k) kwargs') p.name) s.params
        = slotsOf (fun p => Fields.field? (s.given args kwargs) p.name) s.params :=
      slotsOf_congr fun p _ => field?_of_perm (given_moved hk h) hmoved.once p.name
    rw [validate_eq_bind, validate_eq_bind, (slots_eq_ok hnames hclosed).2 ⟨hmoved, rfl⟩,
      (slots_eq_ok hnames hclosed).2 ⟨hassigns, rfl⟩, hslots]
  refine ⟨hsame, ?_⟩
  by_cases hassigns : s.Assigns args kwargs
  · exact .of_eq (hsame hassigns)
  · intro fields
    rw [validate_eq_ok hnames hclosed, validate_eq_ok hnames hclosed,
      assigns_moved hfits hk h]
    exact ⟨fun h => absurd h.1 hassigns, fun h => absurd h.1 hassigns⟩

/-- Of a merged signature with at most one variadic parameter: a call succeeds exactly if
its arguments can be assigned, what is mandatory is there, and each validator accepts the
value of its parameter after the fields before it. The result has every parameter once, in
order. And arguments may go by name from any position on, a variadic parameter's as a
sequence, and the keywords in any order. -/
theorem legal_calls {parents : List Signature} {declared s : Signature}
    (hs : merge parents declared = s) (hone : s.variadics.length ≤ 1) (owner : String) :
    (∀ (args : List Arg) (kwargs fields : Fields), s.validate owner args kwargs = .ok fields
        ↔ s.Assigns args kwargs ∧ s.Supplies (s.given args kwargs)
          ∧ s.Validates (s.given args kwargs) fields)
      ∧ (∀ (args : List Arg) (kwargs fields : Fields),
        s.validate owner args kwargs = .ok fields →
        Fields.names fields = s.names ∧ (Fields.names fields).Nodup)
      ∧ ∀ (args : List Arg) (kwargs kwargs' : Fields) (k : Nat), s.Fits args →
        k ≤ s.positionals.length →
        kwargs'.Perm ((s.byPosition args).drop k ++ kwargs) →
          (s.Assigns args kwargs →
            s.validate owner (args.take k) kwargs' = s.validate owner args kwargs)
            ∧ Coincide (s.validate owner (args.take k) kwargs')
              (s.validate owner args kwargs) := by
  subst hs
  have hnames := merge_names_nodup parents declared
  have hclosed : closed (merge parents declared).params = true :=
    closed_of_pairwise (positions_before_variadic parents declared)
      (by simpa [variadics] using hone)
  refine ⟨fun args kwargs fields => validate_eq_ok hnames hclosed,
    fun args kwargs fields h => ?_, fun args kwargs kwargs' k hfits hk h =>
      validate_moved hnames hclosed hfits hk h⟩
  have hfields := ((validate_eq_ok hnames hclosed).1 h).2.2.names_eq
  exact ⟨hfields, by rw [hfields]; exact hnames⟩

/-- The second argument and those of a variadic parameter may go by name. -/
theorem legal_calls_by_name :
    ∃ (s : Signature) (fields : Fields),
      merge [⟨[.required "a" .any, .required "b" .integer]⟩]
          ⟨[.variadic "rest" .any, .defaulted "sep" (.text ",") .string]⟩ = s
        ∧ s.names = ["a", "b", "rest", "sep"] ∧ s.variadics = ["rest"]
        ∧ s.validate "T" [.value (.int64 1), .value (.int64 2), .text "x", .text "y"] []
          = .ok fields
        ∧ s.validate "T" [.value (.int64 1)] [("rest", .seq [.text "x", .text "y"]),
          ("b", .value (.int64 2))] = .ok fields
        ∧ Fields.names fields = s.names := by
  obtain ⟨s, hs⟩ : ∃ s, merge [⟨[.required "a" .any, .required "b" .integer]⟩]
      ⟨[.variadic "rest" .any, .defaulted "sep" (.text ",") .string]⟩ = s := ⟨_, rfl⟩
  have hone : s.variadics.length ≤ 1 := by
    rw [← hs]
    decide
  obtain ⟨-, hfields, hmoved⟩ := legal_calls hs hone "T"
  obtain ⟨fields, hvalid⟩ : ∃ fields,
      s.validate "T" [.value (.int64 1), .value (.int64 2), .text "x", .text "y"] []
        = .ok fields := by
    rw [← hs]
    exact ⟨_, rfl⟩
  have hby := hmoved [.value (.int64 1), .value (.int64 2), .text "x", .text "y"] []
    [("rest", .seq [.text "x", .text "y"]), ("b", .value (.int64 2))] 1
    (by rw [← hs]; exact .inr (List.cons_ne_nil _ _)) (by rw [← hs]; decide)
      (by rw [← hs]; exact .swap _ _ _)
  exact ⟨s, fields, hs, by rw [← hs]; rfl, by rw [← hs]; rfl, hvalid,
    (hby.2 fields).2 hvalid, (hfields _ _ _ hvalid).1⟩

end Signature

end TypedQuery
