import TypedQuery.Proofs.Sql.KeptTexts
import TypedQuery.Proofs.Sql.Query

/-!
# What values refer to

The text of a value is made of words, constants, names and references, and every reference
is to a label that is in scope. Every rule keeps this of the texts of the fields, and only
the rule for columns adds references.
-/

namespace TypedQuery.Sql

open Emission

/-! ## Texts -/

/-- Every label through which a table is reached. -/
def Scope.labels (scope : Scope) : List String :=
  scope.filterMap fun (_, reach) => match reach with
    | .through label _ _ => some label
    | .ambiguous => none

theorem Scope.mem_labels {scope : Scope} {table : Node} {label : String} {direct : Bool}
    {renames : Renames} (h : scope.reach? table = some (.through label direct renames)) :
    label ∈ scope.labels := by
  obtain ⟨⟨t, reach⟩, hx, hreach⟩ := Option.map_eq_some_iff.1 h
  cases hreach
  exact List.mem_filterMap.2 ⟨_, List.mem_of_find?_eq_some hx, rfl⟩

/-- The text is put together from tokens that refer to labels in scope only. -/
def Spells (s : Statement) (text : String) : Prop :=
  ∃ f : Fragment, f.text s.config.identifierQuote = text ∧ ∀ l ∈ f.labels, l ∈ s.scope.labels

namespace Spells

variable {s : Statement} {a b : String}

theorem of_token (t : Token) (h : ∀ l, t.label? = some l → l ∈ s.scope.labels) :
    Spells s (t.text s.config.identifierQuote) := by
  refine ⟨[t], by simp [Fragment.text], fun l hl => ?_⟩
  obtain ⟨t', ht', hlabel⟩ := List.mem_filterMap.1 hl
  rw [List.mem_singleton.1 ht'] at hlabel
  exact h l hlabel

theorem word (h : IsPlain a) : Spells s a := of_token (.word a h) nofun

theorem constant {v : Value} (h : literal v = .ok a) :
    Spells s a := of_token (.constant v a h) nofun

theorem name (s : Statement) (n : String) : Spells s (s.quote n) := of_token (.name n) nofun

theorem reference {label : String} (h : label ∈ s.scope.labels) (column : String) :
    Spells s (s.qualified label column) :=
  of_token (.reference label column) fun _ hl => Option.some.inj hl ▸ h

theorem append (ha : Spells s a) (hb : Spells s b) : Spells s (a ++ b) := by
  obtain ⟨f, rfl, hf⟩ := ha
  obtain ⟨g, rfl, hg⟩ := hb
  refine ⟨f ++ g, Fragment.text_append _ f g, ?_⟩
  rw [Fragment.labels_append]
  exact List.forall_mem_append.2 ⟨hf, hg⟩

/-- A text between two words. -/
theorem between {before after : String} (hbefore : IsPlain before) (h : Spells s a)
    (hafter : IsPlain after) :
    Spells s (before ++ a ++ after) :=
  ((word hbefore).append h).append (word hafter)

/-- Two texts with a word between them. -/
theorem beside {middle : String} (ha : Spells s a) (hmiddle : IsPlain middle)
    (hb : Spells s b) :
    Spells s (a ++ middle ++ b) :=
  (ha.append (word hmiddle)).append hb

theorem intercalate {separator : String} (hseparator : IsPlain separator)
    {texts : List String} (h : ∀ t ∈ texts, Spells s t) :
    Spells s (separator.intercalate texts) := by
  induction texts with
  | nil => exact word (show IsPlain "" by decide)
  | cons t rest ih =>
      obtain ⟨ht, hrest⟩ := List.forall_mem_cons.1 h
      cases rest with
      | nil => simpa using ht
      | cons u more =>
          rw [String.intercalate_cons_cons]
          exact (ht.append (word hseparator)).append (ih hrest)

/-- What follows the first of the texts. -/
theorem intercalate_rest {separator t : String} (hseparator : IsPlain separator)
    {texts : List String} (h : ∀ u ∈ texts, Spells s u) :
    ∃ rest, separator.intercalate (t :: texts) = t ++ rest ∧ Spells s rest := by
  cases texts with
  | nil => exact ⟨"", by simp, word (by decide)⟩
  | cons u more =>
      refine ⟨separator ++ separator.intercalate (u :: more), ?_,
        (word hseparator).append (intercalate hseparator h)⟩
      rw [String.intercalate_cons_cons, String.append_assoc]

theorem call {name : String} (hname : IsPlain name) {args : List String}
    (h : ∀ arg ∈ args, Spells s arg) :
    Spells s (call name args) :=
  (((word hname).append (word (by decide))).append (intercalate (by decide) h)).append
    (word (by decide))

end Spells

/-! ## Steps -/

/-- Without kept texts the step leaves the session alone, and what it gives has the
property. -/
def Gives (s : Statement) {α : Type} (P : α → Prop) (step : Writing α) : Prop :=
  ∀ a after, step.run ⟨s, none⟩ = (.ok a, after) → after = ⟨s, none⟩ ∧ P a

namespace Gives

variable {s : Statement} {α β : Type} {P : α → Prop} {Q : β → Prop}

theorem pure {a : α} (h : P a) : Gives s P (Pure.pure a : Writing α) := by
  intro b after hrun
  cases hrun
  exact ⟨rfl, h⟩

theorem throw (e : Error) : Gives s P (MonadExcept.throw e : Writing α) := by
  intro b after hrun
  cases hrun

theorem lift {x : Except Error α} (h : ∀ a, x = .ok a → P a) :
    Gives s P (liftM x : Writing α) := by
  intro b after hrun
  cases x with
  | error e => cases hrun
  | ok a =>
      cases hrun
      exact ⟨rfl, h _ rfl⟩

theorem target {R : Statement → Prop} (h : R s) :
    Gives s R (Emission.target : Writing Statement) := by
  intro b after hrun
  cases hrun
  exact ⟨rfl, h⟩

theorem bind {step : Writing α} {next : α → Writing β} (h : Gives s P step)
    (hnext : ∀ a, P a → Gives s Q (next a)) :
    Gives s Q (step >>= next) := by
  intro b after hrun
  obtain ⟨a, middle, hstep, hrest⟩ := Emission.run_bind_eq_ok hrun
  obtain ⟨rfl, ha⟩ := h a middle hstep
  exact hnext a ha b after hrest

theorem run_bind_eq_ok {step : Writing α} {next : α → Writing β} {b : β}
    {after : Session Statement String} (h : Gives s P step)
    (hrun : (step >>= next).run ⟨s, none⟩ = (.ok b, after)) :
    ∃ a, P a ∧ (next a).run ⟨s, none⟩ = (.ok b, after) := by
  obtain ⟨a, middle, hstep, hrest⟩ := Emission.run_bind_eq_ok hrun
  obtain ⟨rfl, ha⟩ := h a middle hstep
  exact ⟨a, ha, hrest⟩

theorem lift_bind {x : Except Error α} {next : α → Writing β}
    (h : ∀ a, x = .ok a → Gives s Q (next a)) :
    Gives s Q ((liftM x : Writing α) >>= next) :=
  .bind (.lift fun _ ha => ha) h

theorem target_bind {next : Statement → Writing β} (h : Gives s Q (next s)) :
    Gives s Q ((Emission.target : Writing Statement) >>= next) :=
  .bind (target rfl : Gives s (· = s) _) fun _ ha => ha ▸ h

theorem ite {c : Prop} [Decidable c] {step other : Writing α} (hstep : c → Gives s P step)
    (hother : ¬ c → Gives s P other) :
    Gives s P (if c then step else other) := by
  split
  · next hc => exact hstep hc
  · next hc => exact hother hc

theorem each {emit : Node → Writing String} {R : String → Prop} {ms : List Node}
    (h : ∀ m ∈ ms, Gives s R (emit m)) :
    Gives s (fun texts : List String => ∀ t ∈ texts, R t) (Emission.each emit ms) := by
  induction ms with
  | nil => exact .pure fun _ ht => absurd ht List.not_mem_nil
  | cons m rest ih =>
      obtain ⟨hm, hrest⟩ := List.forall_mem_cons.1 h
      exact .bind hm fun text ht => .bind (ih hrest) fun texts hts =>
        .pure (List.forall_mem_cons.2 ⟨ht, hts⟩)

end Gives

/-! ## The shapes of rules -/

/-- The texts of the nodes in the fields are spelled. -/
def SpellsFields (s : Statement) (n : Node) (emit : Node → Writing String) : Prop :=
  n.Built ∧ ∀ m ∈ n.children, Gives s (Spells s) (emit m)

namespace SpellsFields

variable {s : Statement} {n : Node} {emit : Node → Writing String}

theorem field (h : SpellsFields s n emit) (name : String) :
    Gives s (Spells s) (Emission.field emit n name) :=
  .lift_bind fun _ hm => h.2 _ (h.1.mem_children_of_child hm)

theorem field? (h : SpellsFields s n emit) (name : String) :
    Gives s (fun text? : Option String => ∀ t ∈ text?, Spells s t)
      (Emission.field? emit n name) := by
  unfold Emission.field?
  split
  · next m hm =>
      refine .bind (h.2 m (h.1.mem_children_of_child? hm)) fun text htext =>
        .pure fun t ht => ?_
      cases ht
      exact htext
  · exact .pure fun _ ht => by cases ht

theorem sequence (h : SpellsFields s n emit) (name : String) :
    Gives s (fun texts : List String => ∀ t ∈ texts, Spells s t)
      (Emission.sequence emit n name) :=
  .lift_bind fun _ hms => .each fun _ hm => h.2 _ (h.1.mem_children_of_childList hms hm)

theorem fieldTexts (h : SpellsFields s n emit) (fields : List String) :
    Gives s (fun texts : List String => ∀ t ∈ texts, Spells s t)
      (fieldTexts emit n fields) := by
  induction fields with
  | nil => exact .pure fun _ ht => absurd ht List.not_mem_nil
  | cons name rest ih =>
      exact .bind (h.field name) fun text ht => .bind ih fun texts hts =>
        .pure (List.forall_mem_cons.2 ⟨ht, hts⟩)

end SpellsFields

/-- The rule spells its text if the texts of the fields are spelled. -/
def SpellsText (rule : SqlRule) : Prop :=
  ∀ s n emit, SpellsFields s n emit → Gives s (Spells s) (rule emit n)

theorem callOf_spells {name : String} (hname : IsPlain name) (fields : List String) :
    SpellsText (callOf name fields) :=
  fun _ _ _ h => .bind (h.fieldTexts fields) fun _ hts => .pure (.call hname hts)

theorem callOfAll_spells {name : String} (hname : IsPlain name) (field : String) :
    SpellsText (callOfAll name field) :=
  fun _ _ _ h => .bind (h.sequence field) fun _ hts => .pure (.call hname hts)

theorem operator_spells {symbol : String} (hsymbol : IsPlain symbol) :
    SpellsText (operator symbol) := by
  intro s n emit h
  refine .bind (h.field "left") fun left hl =>
    .bind (h.field "right") fun right hr => .pure ?_
  have hleft : Spells s ("(" ++ left ++ " ") := .between (by decide) hl (by decide)
  exact (((hleft.append (.word hsymbol)).append (.word (by decide))).append hr).append
    (.word (by decide))

theorem around_spells {before after : String} (hbefore : IsPlain before) (field : String)
    (hafter : IsPlain after) : SpellsText (around before field after) :=
  fun _ _ _ h => .bind (h.field field) fun _ ht => .pure (.between hbefore ht hafter)

/-! ## Constants, columns and conditions -/

theorem literalRule_spells : SpellsText literalRule := by
  intro s n emit _
  unfold literalRule
  split
  · exact .lift fun _ h => .constant h
  · exact .throw _

/-- The name under which a column is known after renaming. -/
def Renames.apply (renames : Renames) (column : String) : String :=
  (renames.newName? column).getD column

theorem Statement.column_eq (s : Statement) (table : Node) (name : String) :
    s.column table name = match s.scope.reach? table with
      | none => .ok (s.quote name)
      | some (.through label _ renames) => .ok (s.qualified label (renames.apply name))
      | some .ambiguous =>
          .error (.inexpressible
              (table.kind.name ++ " is reachable through more than one subquery")) := by
  unfold column labelOf outputName
  cases s.scope.reach? table with
  | none => rfl
  | some reach => cases reach <;> rfl

/-- A column is qualified only with a label in scope. -/
theorem Statement.column_spells {s : Statement} {table : Node} {name text : String}
    (h : s.column table name = .ok text) :
    Spells s text := by
  rw [column_eq] at h
  split at h
  · cases h
    exact .name s name
  · next hreach =>
      cases h
      exact .reference (Scope.mem_labels hreach) _
  · cases h

theorem columnRule_spells (s : Statement) (n : Node) (emit : Node → Writing String) :
    Gives s (Spells s) (columnRule emit n) :=
  .target_bind (.lift_bind fun _ _ => .lift_bind fun _ _ => .lift fun _ h =>
    s.column_spells h)

theorem typeName_spells {s : Statement} {t : DataType} {name : String}
    (h : typeName t = .ok name) : Spells s name := by
  induction t generalizing name with
  | array element ih =>
      obtain ⟨inner, hinner, rfl⟩ := map_eq_ok.1 h
      exact .between (by decide) (ih hinner) (by decide)
  | _ => cases h <;> exact .word (by decide)

theorem castRule_spells : SpellsText castRule := by
  intro s n emit h
  refine .lift_bind fun target _ => ?_
  cases target.type? with
  | none => exact .throw _
  | some t =>
      refine .bind (h.field "arg") fun arg harg => .lift_bind fun name hname => .pure ?_
      have htext : Spells s ("CAST(" ++ arg ++ " AS ") :=
        .between (by decide) harg (by decide)
      exact (htext.append (typeName_spells hname)).append (.word (by decide))

theorem branches_spells {s : Statement} {cases results : List String}
    (hcases : ∀ t ∈ cases, Spells s t) (hresults : ∀ t ∈ results, Spells s t) :
    Spells s (branches cases results) := by
  induction cases generalizing results with
  | nil => exact .word (show IsPlain "" by decide)
  | cons case cases ih =>
      cases results with
      | nil => exact .word (show IsPlain "" by decide)
      | cons result results =>
          obtain ⟨hcase, hcases⟩ := List.forall_mem_cons.1 hcases
          obtain ⟨hresult, hresults⟩ := List.forall_mem_cons.1 hresults
          have hwhen : Spells s (" WHEN " ++ case ++ " THEN ") :=
            .between (by decide) hcase (by decide)
          exact (hwhen.append hresult).append (ih hcases hresults)

theorem caseText_spells {s : Statement} {n : Node} {emit : Node → Writing String}
    (h : SpellsFields s n emit) {subject : String} (hsubject : Spells s subject) :
    Gives s (Spells s) (caseText emit n subject) := by
  refine .bind (h.sequence "cases") fun cases hcases =>
    .bind (h.sequence "results") fun results hresults => ?_
  refine .bind (h.field "default") fun default hdefault => .pure ?_
  have hbranches := ((Spells.word (a := "CASE") (by decide)).append hsubject).append
    (branches_spells hcases hresults)
  exact (hbranches.beside (by decide) hdefault).append (.word (by decide))

theorem simpleCaseRule_spells : SpellsText simpleCaseRule :=
  fun _ _ _ h => .bind (h.field "base") fun _ ht =>
    caseText_spells h (.append (.word (by decide)) ht)

theorem betweenRule_spells : SpellsText betweenRule := by
  intro s n emit h
  refine .bind (h.field "arg") fun arg harg =>
    .bind (h.field "lower_bound") fun lower hlower => ?_
  exact .bind (h.field "upper_bound") fun upper hupper =>
    .pure ((harg.beside (by decide) hlower).beside (by decide) hupper)

theorem membershipRule_spells {keyword : String} (hkeyword : IsPlain keyword) :
    SpellsText (membershipRule keyword) := by
  intro s n emit h
  refine .bind (h.field "value") fun value hvalue =>
    .bind (h.sequence "options") fun options hoptions => .pure ?_
  have hsubject : Spells s (value ++ " " ++ keyword) :=
    hvalue.beside (by decide) (.word hkeyword)
  exact (hsubject.beside (by decide) (.intercalate (by decide) hoptions)).append
    (.word (by decide))

/-- The rule for columns is left out: it alone looks at what is in scope. -/
theorem genericRules_spell : ∀ x ∈ genericRules, x.1 ≠ .tableColumn → SpellsText x.2 := by
  simp only [genericRules, List.forall_mem_cons]
  refine ⟨fun _ => literalRule_spells, fun h => absurd rfl h,
    fun _ _ _ _ h => h.field "arg", fun _ => castRule_spells,
    fun _ => callOf_spells (by decide) _, fun _ => callOf_spells (by decide) _,
    fun _ => callOf_spells (by decide) _, fun _ => simpleCaseRule_spells,
    fun _ _ _ _ h => caseText_spells h (.word (by decide)), fun _ => betweenRule_spells,
    fun _ => membershipRule_spells (by decide), fun _ => membershipRule_spells (by decide),
    fun _ hx => absurd hx List.not_mem_nil⟩

/-! ## Operators and reductions -/

theorem floorDivideRule_spells : SpellsText floorDivideRule := by
  intro s n emit h
  refine .bind (h.field "left") fun left hl =>
    .bind (h.field "right") fun right hr => .pure ?_
  exact (((Spells.word (by decide)).append hl).beside (by decide) hr).append
    (.word (by decide))

theorem xorRule_spells : SpellsText xorRule := by
  intro s n emit h
  refine .bind (h.field "left") fun left hl =>
    .bind (h.field "right") fun right hr => .pure ?_
  have hor := ((Spells.word (a := "((") (by decide)).append hl).beside
    (show IsPlain " OR " by decide) hr
  exact ((hor.beside (by decide) hl).beside (by decide) hr).append (.word (by decide))

theorem forall_mem_toList {s : Statement} {text? : Option String}
    (h : ∀ t ∈ text?, Spells s t) :
    ∀ t ∈ text?.toList, Spells s t := fun t ht => h t (Option.mem_toList.1 ht)

theorem roundRule_spells : SpellsText roundRule := by
  intro s n emit h
  refine .bind (h.field "arg") fun arg harg =>
    .bind (h.field? "digits") fun digits hdigits => .pure ?_
  exact .call (by decide) (List.forall_mem_cons.2 ⟨harg, forall_mem_toList hdigits⟩)

theorem forall_mem_pair {s : Statement} {a b : String} (ha : Spells s a) (hb : Spells s b) :
    ∀ t ∈ [a, b], Spells s t :=
  List.forall_mem_cons.2 ⟨ha, List.forall_mem_singleton.2 hb⟩

/-- A bound that may be left out. -/
theorem bounded_spells {s : Statement} {name text : String} (hname : IsPlain name)
    (h : Spells s text) :
    ∀ {bound : Option String}, (∀ t ∈ bound, Spells s t) → Spells s (match bound with
      | some bound => call name [text, bound]
      | none => text)
  | none, _ => h
  | some bound, hbound => .call hname (forall_mem_pair h (hbound bound rfl))

theorem clipRule_spells : SpellsText clipRule := by
  intro s n emit h
  refine .bind (h.field "arg") fun arg harg =>
    .bind (h.field? "lower") fun lower hlower => ?_
  refine .bind (h.field? "upper") fun upper hupper =>
    .ite (fun _ => .throw _) fun _ => .pure ?_
  have hbelow := bounded_spells (show IsPlain "least" by decide) harg hupper
  exact bounded_spells (show IsPlain "greatest" by decide) hbelow hlower

theorem logRule_spells : SpellsText logRule := by
  intro s n emit h
  refine .bind (h.field "arg") fun arg harg => .bind (h.field? "base") fun base hbase => ?_
  cases base with
  | none => exact .pure (.call (by decide) (List.forall_mem_singleton.2 harg))
  | some base => exact .pure (.call (by decide) (forall_mem_pair (hbase base rfl) harg))

theorem operatorRules_spell : ∀ x ∈ operatorRules, SpellsText x.2 := by
  have hbinary : ∀ x ∈ binaryOperators, IsPlain x.2 := by decide
  have hfunctions : ∀ x ∈ binaryFunctions ++ unaryFunctions ++ variadicFunctions,
    IsPlain x.2 := by decide
  intro x hx
  simp only [operatorRules, List.mem_append, List.mem_map, List.mem_cons,
    List.not_mem_nil, or_false] at hx
  rcases hx with (((⟨y, hy, rfl⟩ | ⟨y, hy, rfl⟩) | ⟨y, hy, rfl⟩) | ⟨y, hy, rfl⟩) | hx
  · exact operator_spells (hbinary y hy)
  · exact callOf_spells (hfunctions y (List.mem_append_left _ (List.mem_append_left _ hy))) _
  · exact callOf_spells
      (hfunctions y (List.mem_append_left _ (List.mem_append_right _ hy))) _
  · exact callOfAll_spells (hfunctions y (List.mem_append_right _ hy)) _
  · rcases hx with rfl | rfl | rfl | rfl | rfl | rfl | rfl | rfl | rfl | rfl | rfl | rfl
    · exact floorDivideRule_spells
    · exact xorRule_spells
    · exact around_spells (by decide) _ (by decide)
    · exact around_spells (by decide) _ (by decide)
    · exact around_spells (by decide) _ (by decide)
    · exact around_spells (by decide) _ (by decide)
    · exact around_spells (by decide) _ (by decide)
    · exact around_spells (by decide) _ (by decide)
    · exact callOfAll_spells (by decide) _
    · exact roundRule_spells
    · exact clipRule_spells
    · exact logRule_spells

theorem filteredArg_spells {s : Statement} {n : Node} {emit : Node → Writing String}
    (h : SpellsFields s n emit) :
    Gives s (Spells s) (filteredArg emit n) := by
  refine .bind (h.field "arg") fun arg harg =>
    .bind (h.field? "where") fun condition hcondition => ?_
  cases condition with
  | none => exact .pure harg
  | some condition =>
      have hcase :=
        (Spells.word (a := "CASE WHEN ") (by decide)).append (hcondition condition rfl)
      exact .pure ((hcase.beside (by decide) harg).append (.word (by decide)))

theorem reductionRule_spells {name : String} (hname : IsPlain name) :
    SpellsText (reductionRule name) :=
  fun _ _ _ h => .bind (filteredArg_spells h) fun _ ht =>
    .pure (.call hname (List.forall_mem_singleton.2 ht))

theorem countDistinctRule_spells : SpellsText countDistinctRule :=
  fun _ _ _ h => .bind (filteredArg_spells h) fun _ ht =>
    .pure (.between (by decide) ht (by decide))

/-- Of the fields, a count of rows asks for the condition only. -/
theorem countRowsRule_spells {s : Statement} {n : Node} {emit : Node → Writing String}
    (h : ∀ m, n.child? "where" = some m → Gives s (Spells s) (emit m)) :
    Gives s (Spells s) (countRowsRule emit n) := by
  unfold countRowsRule field?
  split
  · next m hm =>
      refine .bind (.bind (P := Spells s) (h m hm) fun text ht =>
        .pure (P := fun o : Option String => ∀ t ∈ o, Spells s t) ?_)
        fun condition hcondition => ?_
      · intro t ht'
        cases ht'
        exact ht
      · cases condition with
        | none => exact .pure (.word (by decide))
        | some condition =>
            exact .pure (.between (by decide) (hcondition condition rfl) (by decide))
  · exact .pure (.word (by decide))

theorem deviationRule_spells {name : String}
    (hname : ∀ suffix ∈ ["_pop", "_samp"], IsPlain (name ++ suffix)) :
    SpellsText (deviationRule name) := by
  intro s n emit h
  refine .lift_bind fun how _ => .bind (filteredArg_spells h) fun arg harg => .pure ?_
  refine .call ?_ (List.forall_mem_singleton.2 harg)
  split <;> exact hname _ (by decide)

/-- The rule for counts of rows is left out: its node holds a table too. -/
theorem reductionRules_spell : ∀ x ∈ reductionRules, x.1 ≠ .countStar → SpellsText x.2 := by
  simp only [reductionRules, List.forall_mem_cons]
  exact ⟨fun _ => reductionRule_spells (by decide),
    fun _ => reductionRule_spells (by decide), fun _ => reductionRule_spells (by decide),
    fun _ => reductionRule_spells (by decide), fun _ => reductionRule_spells (by decide),
    fun _ => reductionRule_spells (by decide), fun _ => reductionRule_spells (by decide),
    fun _ => countDistinctRule_spells, fun h => absurd rfl h,
    fun _ => deviationRule_spells (by decide), fun _ => deviationRule_spells (by decide),
    fun _ hx => absurd hx List.not_mem_nil⟩

/-! ## Text -/

theorem quotedText_spells (s : Statement) (t : String) : Spells s (quotedText t) :=
  .constant (v := .string t) rfl

/-- Positions are counted from zero or from one. -/
theorem offset_plain (s : Statement) : IsPlain (toString s.offset) := by
  unfold Statement.offset
  cases s.config.indexOrigin <;> decide

theorem shifted_spells {s : Statement} {text : String} (h : Spells s text) :
    Spells s (shifted text s.offset) := by
  unfold shifted
  split
  · exact h
  · exact h.beside (by decide) (.word (offset_plain s))

theorem unshifted_spells {s : Statement} {text : String} (h : Spells s text) :
    Spells s (unshifted text s.offset) := by
  unfold unshifted
  split
  · exact h
  · exact h.beside (by decide) (.word (offset_plain s))

theorem substringRule_spells : SpellsText substringRule := by
  intro s n emit h
  refine .target_bind
    (.bind (h.field "arg") fun arg harg => .bind (h.field "start") fun start hstart => ?_)
  refine .bind (h.field? "length") fun length hlength => .pure (.call (by decide) ?_)
  exact List.forall_mem_append.2
    ⟨forall_mem_pair harg (shifted_spells hstart), forall_mem_toList hlength⟩

theorem searchStart_spells {s : Statement} {n : Node} {emit : Node → Writing String}
    (h : SpellsFields s n emit) :
    Gives s (fun texts : List String => ∀ t ∈ texts, Spells s t)
      (searchStart emit n s.offset) := by
  unfold searchStart
  split
  · exact .pure fun _ ht => absurd ht List.not_mem_nil
  · next start _ =>
      refine .pure ?_
      split
      · exact fun _ ht => absurd ht List.not_mem_nil
      · exact List.forall_mem_singleton.2
          (.constant (v := .int64 (start + Int64.ofInt s.offset)) rfl)
  · exact .bind (h.field "start") fun start hstart =>
      .pure (List.forall_mem_singleton.2 (shifted_spells hstart))

theorem findRule_spells : SpellsText findRule := by
  intro s n emit h
  refine .ite (fun _ => .throw _) fun _ => .target_bind ?_
  refine .bind (h.field "arg") fun haystack hhaystack =>
    .bind (h.field "substr") fun needle hneedle => ?_
  refine .bind (searchStart_spells h) fun start hstart =>
    .pure (unshifted_spells (.call (by decide) ?_))
  exact List.forall_mem_append.2 ⟨forall_mem_pair hneedle hhaystack, hstart⟩

theorem findInSetRule_spells : SpellsText findInSetRule := by
  intro s n emit h
  refine .bind (h.field "needle") fun needle hneedle => .lift_bind fun nodes _ =>
    .lift_bind fun values _ => ?_
  exact .target_bind
    (.pure (unshifted_spells
      (.call (by decide) (forall_mem_pair hneedle (quotedText_spells s _)))))

theorem joinTextsRule_spells : SpellsText joinTextsRule := by
  intro s n emit h
  refine .bind (h.field "sep") fun separator hseparator =>
    .bind (h.sequence "arg") fun texts htexts => .pure ?_
  exact .call (by decide) (List.forall_mem_cons.2 ⟨hseparator, htexts⟩)

theorem likeRule_spells : SpellsText likeRule :=
  fun _ _ _ h => .bind (h.field "arg") fun _ harg => .bind (h.field "pattern")
    fun _ hpattern =>
    .pure (harg.beside (by decide) hpattern)

theorem startsWithRule_spells : SpellsText startsWithRule := by
  intro s n emit h
  refine .bind (h.field "arg") fun arg harg =>
    .bind (h.field "start") fun start hstart => .pure ?_
  have hend : ", '%')" = ", " ++ quotedText "%" ++ ")" := by decide
  rw [hend]
  exact (harg.beside (by decide) hstart).append
    (.between (by decide) (quotedText_spells s "%") (by decide))

theorem endsWithRule_spells : SpellsText endsWithRule := by
  intro s n emit h
  refine .bind (h.field "arg") fun arg harg =>
    .bind (h.field "end") fun suffix hsuffix => .pure ?_
  have hstart : " like concat('%', " = " like concat(" ++ quotedText "%" ++ ", " := by decide
  rw [hstart]
  exact ((harg.append (.between (by decide) (quotedText_spells s "%") (by decide))).append
    hsuffix).append
    (.word (by decide))

theorem containsTextRule_spells : SpellsText containsTextRule :=
  fun _ _ _ h => .bind (h.field "haystack") fun _ hhaystack => .bind (h.field "needle")
    fun _ hneedle =>
    .pure ((Spells.call (by decide) (forall_mem_pair hneedle hhaystack)).append
      (.word (by decide)))

theorem parseUrlRule_spells : SpellsText parseUrlRule := by
  intro s n emit h
  refine .bind (h.field "arg") fun arg harg => .lift_bind fun part _ =>
    .bind (h.field? "key") fun key hkey => ?_
  exact .pure (.call (by decide)
    (List.forall_mem_append.2
      ⟨forall_mem_pair harg (quotedText_spells s part), forall_mem_toList hkey⟩))

theorem textRules_spell : ∀ x ∈ textRules, SpellsText x.2 := by
  have hcalls : ∀ name ∈ ["lower", "upper", "trim", "ltrim", "rtrim", "initcap", "reverse",
    "length", "strright", "replace",
      "regexp_replace", "regexp_like", "regexp_extract", "split", "lpad", "rpad",
      "repeat"], ∀ fields, SpellsText (callOf name fields) := by
    intro name hname fields
    refine callOf_spells ?_ fields
    revert name
    decide
  simp only [textRules, List.forall_mem_cons, List.not_mem_nil, false_imp_iff, implies_true,
    and_true] at hcalls ⊢
  simp only [hcalls, substringRule_spells, findRule_spells, findInSetRule_spells,
    joinTextsRule_spells, likeRule_spells, startsWithRule_spells, endsWithRule_spells,
    containsTextRule_spells, parseUrlRule_spells, and_self]

/-! ## Time -/

theorem truncateRule_spells : SpellsText truncateRule := by
  intro s n emit h
  refine .lift_bind fun code _ => .lift_bind fun unit hunit =>
    .bind (h.field "arg") fun arg harg => .pure ?_
  refine .call (by decide) (forall_mem_pair (.constant (v := .string unit) ?_) harg)
  unfold truncationUnit at hunit
  split at hunit <;> cases hunit <;> rfl

theorem secondsBetweenRule_spells : SpellsText secondsBetweenRule :=
  fun _ _ _ h => .bind (h.field "left") fun _ hl => .bind (h.field "right") fun _ hr =>
    .pure ((((Spells.word (by decide)).append hl).beside (by decide) hr).append
      (.word (by decide)))

theorem fromUnixRule_spells : SpellsText fromUnixRule := by
  intro s n emit h
  refine .bind (h.field "arg") fun arg harg => .lift_bind fun unit _ => .pure ?_
  have hdivided : ∀ ticks ∈ ["1000", "1000000", "1000000000"],
      Spells s (call "from_unixtime" [arg ++ " DIV " ++ ticks]) := by
    intro ticks hticks
    refine .call (by decide)
      (List.forall_mem_singleton.2 (harg.beside (by decide) (.word ?_)))
    revert ticks
    decide
  obtain ⟨hmillis, hmicros, hnanos, -⟩ :=
    List.forall_mem_cons.1 hdivided |>.imp_right fun h =>
    List.forall_mem_cons.1 h |>.imp_right List.forall_mem_cons.1
  split
  · exact .call (by decide) (List.forall_mem_singleton.2 harg)
  · exact hmillis
  · exact hmicros
  · exact hnanos

theorem intervalRule_spells : SpellsText intervalRule := by
  intro s n emit h
  refine .lift_bind fun code _ => ?_
  cases IntervalUnit.ofCode? code with
  | none => exact .throw _
  | some unit =>
      refine .bind (h.field "arg") fun arg harg => .pure ?_
      have hunit : IsPlain unit.sqlName := by cases unit <;> decide
      exact (Spells.between (by decide) harg (by decide)).append (.word hunit)

theorem timeRules_spell : ∀ x ∈ timeRules, SpellsText x.2 := by
  have hcalls : ∀ name ∈ ["weekofyear", "dayofyear", "unix_timestamp", "dayname", "to_date",
    "datediff", "date_format",
      "to_timestamp", "make_date", "make_timestamp"],
      ∀ fields, SpellsText (callOf name fields) := by
    intro name hname fields
    refine callOf_spells ?_ fields
    revert name
    decide
  have hextractions :
      ∀ name ∈ ["YEAR", "QUARTER", "MONTH", "DAY", "HOUR", "MINUTE", "SECOND"],
          SpellsText (extraction name) := by
    intro name hname
    refine around_spells ?_ _ (by decide)
    revert name
    decide
  have hnow : SpellsText fun _ _ => return "now()" :=
    fun _ _ _ _ => .pure (.word (by decide))
  simp only [timeRules, sharing, List.map_cons, List.map_nil, List.forall_mem_append,
    List.forall_mem_cons, List.not_mem_nil, false_imp_iff, implies_true, and_true]
    at hcalls hextractions ⊢
  have hmillis : SpellsText (around "(extract(MILLISECOND FROM " "arg" ") % 1000)") :=
    around_spells (by decide) _ (by decide)
  have hweekday : SpellsText (around "pmod(dayofweek(" "arg" ") - 2, 7)") :=
    around_spells (by decide) _ (by decide)
  have hplus : SpellsText (operator "+") := operator_spells (by decide)
  have hminus : SpellsText (operator "-") := operator_spells (by decide)
  simp only [hcalls, hextractions, hmillis, hweekday, hplus, hminus, hnow,
    secondsBetweenRule_spells, truncateRule_spells, fromUnixRule_spells,
    intervalRule_spells, and_self]

theorem sortKeyRule_spells : SpellsText sortKeyRule := by
  intro s n emit h
  refine .bind (h.field "expr") fun key hkey => .lift_bind fun ascending _ =>
    .pure (hkey.append (.word ?_))
  split <;> decide

/-! ## All values -/

theorem plainRules_spell : ∀ x ∈ plainRules, x.1 ≠ .tableColumn → x.1 ≠ .countStar →
    SpellsText x.2 := by
  intro x hx hcolumn hrows
  simp only [plainRules, List.mem_append, List.mem_singleton] at hx
  rcases hx with ((((hx | hx) | hx) | hx) | hx) | rfl
  · exact genericRules_spell x hx hcolumn
  · exact operatorRules_spell x hx
  · exact reductionRules_spell x hx hrows
  · exact textRules_spell x hx
  · exact timeRules_spell x hx
  · exact sortKeyRule_spells

/-- Without kept texts, a walk goes on to the rule. -/
theorem Gives.emitWithin {s : Statement} {P : String → Prop} {n : Node} {depth : Nat}
    (h : ∀ k rule, rules.resolve n.kind = .ok (k, rule) →
      Gives s P (rule (rules.emitWithin depth) n)) :
    Gives s P (rules.emitWithin (depth + 1) n) := by
  have hknown : Gives s (· = none) (known? n : Writing (Option String)) := by
    intro found after hrun
    cases hrun
    exact ⟨rfl, rfl⟩
  have hremember : ∀ text, Gives s (fun _ => True) (remember n text : Writing Unit) := by
    intro text u after hrun
    cases hrun
    exact ⟨rfl, trivial⟩
  refine .bind hknown fun found hfound => ?_
  subst hfound
  refine .lift_bind fun found hresolve =>
    .bind (h found.1 found.2 hresolve) fun text htext => ?_
  exact .bind (hremember text) fun _ _ => .pure htext

/-- The text of a value refers to labels in scope only. -/
theorem plain_spells {n : Node} (hn : Plain n) (depth : Nat) (s : Statement) :
    Gives s (Spells s) (rules.emitWithin depth n) := by
  induction depth generalizing n with
  | zero => exact .throw _
  | succ depth ih =>
      obtain ⟨h, hplain⟩ := hn
      refine .emitWithin fun k rule hresolve => ?_
      by_cases hcolumn : n.kind = .tableColumn
      · rw [hcolumn] at hresolve
        cases hresolve
        exact columnRule_spells s n (rules.emitWithin depth)
      by_cases hrows : n.kind = .countStar
      · have hwhere := fun m hm => ih (where_below (m := m) h hrows hm).1
        rw [hrows] at hresolve
        cases hresolve
        exact countRowsRule_spells hwhere
      have hvalues := holdsValues_of_plain hplain hcolumn hrows
      have hfields : SpellsFields s n (rules.emitWithin depth) :=
        ⟨h, fun m hm => ih (plain_of_mem_children h hvalues hm).1⟩
      obtain ⟨hlineage, hmem | ⟨hmem, hne⟩ | heq⟩ := mem_of_resolve hresolve
      · have hleaves : ∀ kind ∈ NodeKind.all, ∀ k ∈ [.tableColumn, .countStar],
            k ∈ kind.lineage → kind = k := by
          set_option maxRecDepth 2000 in decide
        refine plainRules_spell _ hmem (fun heq => hcolumn ?_)
          (fun heq => hrows ?_) s n _ hfields
        · exact hleaves n.kind n.kind.mem_all _ (by simp) (heq ▸ hlineage)
        · exact hleaves n.kind n.kind.mem_all _ (by simp) (heq ▸ hlineage)
      · exact absurd (not_mem_tableRules hplain hlineage hmem) hne
      · cases heq
        exact .throw _

end TypedQuery.Sql
