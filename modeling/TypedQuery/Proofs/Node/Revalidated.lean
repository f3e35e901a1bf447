import TypedQuery.Proofs.Node.Built

/-!
# Validating what was validated

What a validator has let through once it lets through again, and it makes of it what it
would make of the argument as it was given. That holds in the light of other fields too:
whatever is looked up among them is looked up for the argument in the form it has after the
first pass. The two need not be refused with the same words.

Alternatives and fields that may be left out are exceptions: the first alternative might
take what the second has made, and nothing might be made of something. So these are held to
the sorts that the catalogue has (`Validator.repeatable`).
-/

namespace TypedQuery

/-- The two steps succeed in the same cases, and with the same result. -/
def Coincide {ε ε' α : Type} (x : Except ε α) (y : Except ε' α) : Prop :=
  ∀ a, x = .ok a ↔ y = .ok a

namespace Coincide

variable {ε ε' ε'' α β : Type} {x : Except ε α} {y : Except ε' α} {z : Except ε'' α}

theorem refl (x : Except ε α) : Coincide x x := fun _ => Iff.rfl

theorem of_eq {x y : Except ε α} (h : x = y) : Coincide x y := h ▸ refl x

theorem symm (h : Coincide x y) : Coincide y x := fun a => (h a).symm

theorem trans (hxy : Coincide x y) (hyz : Coincide y z) :
    Coincide x z := fun a => (hxy a).trans (hyz a)

theorem errors (e : ε) (e' : ε') :
    Coincide (.error e : Except ε α) (.error e' : Except ε' α) :=
  fun a => ⟨(fun h => by cases h), (fun h => by cases h)⟩

theorem bind {f : α → Except ε β} {g : α → Except ε' β} (h : Coincide x y)
    (hfg : ∀ a, x = .ok a → Coincide (f a) (g a)) : Coincide (x >>= f) (y >>= g) := by
  intro b
  rw [bind_eq_ok, bind_eq_ok]
  constructor
  · rintro ⟨a, ha, hb⟩
    exact ⟨a, (h a).1 ha, (hfg a ha b).1 hb⟩
  · rintro ⟨a, ha, hb⟩
    exact ⟨a, (h a).2 ha, (hfg a ((h a).2 ha) b).2 hb⟩

theorem error_iff (h : Coincide x y) : (∃ e, x = .error e) ↔ ∃ e, y = .error e := by
  cases x with
  | ok a =>
      rw [(h a).1 rfl]
      exact ⟨(fun ⟨_, he⟩ => by cases he), (fun ⟨_, he⟩ => by cases he)⟩
  | error e =>
      cases y with
      | ok a => cases (h a).2 rfl
      | error e' => exact ⟨fun _ => ⟨e', rfl⟩, fun _ => ⟨e, rfl⟩⟩

end Coincide

namespace Validator

/-- Whether what the validator has made may be given to it again. -/
def repeatable : Validator → Bool
  | tupleOf inner | mapOf inner => inner.repeatable
  | optional (valueOf _) => true
  | optional (tupleOf inner) => inner.repeatable
  | either (instanceOf _) value => true
  | either (mapOf inner) scalarValue => inner.repeatable
  | optional _ | either _ _ => false
  | _ => true

variable {raw a : Arg} {bound bound' : Fields} {check check' : Arg → Except String Arg}

/-! ## Single arguments -/

theorem expression_again (h : expression raw = .ok a) : expression a = .ok a := by
  obtain ⟨m, rfl, hm, -⟩ := expression_eq_ok h
  rw [expression, if_pos hm]

theorem ofFamily_again {family : TypeFamily} (h : ofFamily family raw = .ok a) :
    ofFamily family a = .ok a := by
  have hb := (ofFamily_eq_ok h).1
  unfold ofFamily at h ⊢
  rw [hb] at h
  rw [expression_again hb]
  exact h

theorem payload_again (h : payload raw = .ok a) : payload a = .ok a := by
  obtain ⟨v, rfl⟩ := payload_eq_ok h
  rfl

theorem comparable_again {field : String} (h : comparable field raw bound = .ok a)
    (bound' : Fields) :
    comparable field a bound' = comparable field raw bound' := by
  have hb := comparable_eq_ok h
  unfold comparable
  rw [hb, expression_again hb]

theorem sortKey_again (h : sortKey.validate raw bound = .ok a) (bound' : Fields) :
    sortKey.validate a bound' = sortKey.validate raw bound' := by
  rcases sortKey_eq_ok h with ⟨rfl, -⟩ | ⟨m, rfl, hexpr, reason, hkind⟩
  · rfl
  · rw [validate, validate, hkind, hexpr]
    rfl

/-! ## Many arguments -/

theorem eachFrom_eq_ok_iff {position : Nat} {items out : List Arg} :
    eachFrom check position items = .ok out
      ↔ List.Forall₂ (fun x y => check x = .ok y) items out := by
  refine ⟨eachFrom_eq_ok, fun h => ?_⟩
  induction h generalizing position with
  | nil => rfl
  | cons hxy _ ih =>
      rw [eachFrom, hxy]
      exact bind_eq_ok.2 ⟨_, rfl, bind_eq_ok.2 ⟨_, ih, rfl⟩⟩

theorem eachEntry_eq_ok_iff {entries out : List (String × Arg)} :
    eachEntry check entries = .ok out
      ↔ List.Forall₂ (fun x y => x.1 = y.1 ∧ check x.2 = .ok y.2) entries out := by
  refine ⟨eachEntry_eq_ok, fun h => ?_⟩
  induction h with
  | nil => rfl
  | @cons x y _ _ hxy _ ih =>
      obtain ⟨key, a⟩ := x
      obtain ⟨key', a'⟩ := y
      obtain ⟨rfl, hxy⟩ := hxy
      simp only [] at hxy
      rw [eachEntry, hxy]
      exact bind_eq_ok.2 ⟨_, rfl, bind_eq_ok.2 ⟨_, ih, rfl⟩⟩

/-- Two lists whose items are checked with the same results. -/
theorem forall₂_congr {α β : Type} {R S : α → β → Prop} {xs ys : List α} {out : List β}
    (h : List.Forall₂ (fun x y => ∀ b, R x b ↔ S y b) xs ys) :
    List.Forall₂ R xs out ↔ List.Forall₂ S ys out := by
  induction h generalizing out with
  | nil => exact ⟨fun h => by cases h; exact .nil, fun h => by cases h; exact .nil⟩
  | cons hxy _ ih =>
      constructor
      · intro h
        cases h with
        | cons hb hrest => exact .cons ((hxy _).1 hb) (ih.1 hrest)
      · intro h
        cases h with
        | cons hb hrest => exact .cons ((hxy _).2 hb) (ih.2 hrest)

theorem eachFrom_congr {position : Nat} {items items' : List Arg}
    (h : List.Forall₂ (fun x y => Coincide (check x) (check' y)) items items') :
    Coincide (eachFrom check position items) (eachFrom check' position items') :=
  fun _ => eachFrom_eq_ok_iff.trans ((forall₂_congr h).trans eachFrom_eq_ok_iff.symm)

theorem eachEntry_congr {entries entries' : List (String × Arg)}
    (h : List.Forall₂ (fun x y => x.1 = y.1 ∧ Coincide (check x.2) (check' y.2))
      entries entries') :
    Coincide (eachEntry check entries) (eachEntry check' entries') := by
  refine fun _ => eachEntry_eq_ok_iff.trans
    ((forall₂_congr (h.imp fun x y hxy => ?_)).trans eachEntry_eq_ok_iff.symm)
  exact fun b => by rw [hxy.1, hxy.2 b.2]

/-- What a sequence became may be checked in its place. -/
theorem sequence_again {out : List Arg} (h : sequence check raw = .ok out)
    (hagain : ∀ x y, check x = .ok y → Coincide (check' y) (check' x)) :
    Coincide (sequence check' (.seq out)) (sequence check' raw) := by
  have hcongr {items : List Arg}
    (hall : List.Forall₂ (fun x y => check x = .ok y) items out) :
      Coincide (eachFrom check' 0 out) (eachFrom check' 0 items) :=
    eachFrom_congr (hall.flip.imp fun y x hxy => hagain x y hxy)
  cases raw with
  | none => cases h
  | seq _ | value _ | node _ | map _ | type _ | shape _ | schema _ =>
      exact hcongr (eachFrom_eq_ok h)

theorem sequence_expression_again {out : List Arg} (h : sequence expression raw = .ok out) :
    sequence expression (.seq out) = .ok out := by
  refine (sequence_again h (fun x y hxy => ?_) out).2 h
  exact .of_eq ((expression_again hxy).trans hxy.symm)

theorem sameLength_again {field : String} (h : sameLength field raw bound = .ok a)
    (bound' : Fields) :
    sameLength field a bound' = sameLength field raw bound' := by
  obtain ⟨out, -, rfl, hout, -⟩ := sameLength_eq_ok h
  unfold sameLength
  rw [hout, sequence_expression_again hout]

/-! ## All validators -/

theorem scalarValue_again (h : scalarValue.validate raw bound = .ok a) (bound' : Fields) :
    scalarValue.validate a bound' = .ok a ∧ scalarValue.validate raw bound' = .ok a := by
  obtain ⟨hexpr, hshape⟩ := scalarValue_eq_ok h
  exact ⟨by rw [validate, expression_again hexpr]; exact if_pos hshape, h⟩

theorem literal_again (h : literal.validate raw bound = .ok a) :
    literal.validate a bound = .ok a := by
  obtain ⟨hexpr, hliteral⟩ := literal_eq_ok h
  rw [validate, expression_again hexpr]
  exact if_pos hliteral

/-- A table or a value. -/
theorem tableOrValue_again {kind : NodeKind}
    (h : (either (instanceOf kind) value).validate raw bound = .ok a) (bound' : Fields) :
    Coincide ((either (instanceOf kind) value).validate a bound')
      ((either (instanceOf kind) value).validate raw bound') := by
  rcases either_eq_ok.1 h with hfirst | ⟨hfirst, hsecond⟩
  · rw [(ofKind_eq_ok hfirst).1]
    exact .refl _
  · have hraw : (either (instanceOf kind) value).validate raw bound' = .ok a :=
      either_eq_ok.2 (.inr ⟨hfirst, hsecond⟩)
    have ha : (either (instanceOf kind) value).validate a bound' = .ok a := by
      cases hkind : (instanceOf kind).validate a bound' with
      | ok b =>
          obtain ⟨rfl, -⟩ := ofKind_eq_ok hkind
          exact either_eq_ok.2 (.inl hkind)
      | error reason =>
          exact either_eq_ok.2 (.inr ⟨⟨reason, hkind⟩, expression_again hsecond⟩)
    exact .of_eq (ha.trans hraw.symm)

/-- Scalars for names, or one scalar. -/
theorem mapOrScalar_again {inner : Validator}
    (hinner : ∀ {raw a}, (mapOf inner).validate raw bound = .ok a →
      Coincide ((mapOf inner).validate a bound') ((mapOf inner).validate raw bound'))
    (h : (either (mapOf inner) scalarValue).validate raw bound = .ok a) :
    Coincide ((either (mapOf inner) scalarValue).validate a bound')
      ((either (mapOf inner) scalarValue).validate raw bound') := by
  have hmap (entries : List (String × Arg)) :
      Coincide ((either (mapOf inner) scalarValue).validate (.map entries) bound')
      ((mapOf inner).validate (.map entries) bound') := by
    intro b
    rw [either_eq_ok]
    exact ⟨fun h => h.resolve_right (fun ⟨_, hscalar⟩ => by cases hscalar), .inl⟩
  rcases either_eq_ok.1 h with hfirst | ⟨-, hsecond⟩
  · obtain ⟨entries, out, rfl, rfl, -⟩ := mapOf_eq_ok hfirst
    exact (hmap out).trans ((hinner hfirst).trans (hmap entries).symm)
  · have hscalar {item : Arg} (hitem : item.map? = none)
      (hok : scalarValue.validate item bound' = .ok a) :
        (either (mapOf inner) scalarValue).validate item bound' = .ok a :=
      either_eq_ok.2 (.inr ⟨⟨_, by rw [validate, hitem]; rfl⟩, hok⟩)
    have hraw : raw.map? = none := by
      obtain ⟨m, -, -, rfl | ⟨v, rfl, -⟩⟩ :=
        expression_eq_ok (scalarValue_eq_ok hsecond).1 <;> rfl
    have ha : a.map? = none := by
      obtain ⟨m, rfl, -⟩ := expression_eq_ok (scalarValue_eq_ok hsecond).1
      rfl
    obtain ⟨hagain, hsame⟩ := scalarValue_again hsecond bound'
    exact .of_eq ((hscalar ha hagain).trans (hscalar hraw hsame).symm)

/-- What a validator made of an argument it makes of its own result, whatever the
fields before it are. -/
theorem validate_again {v : Validator} (hv : v.repeatable = true)
    (h : v.validate raw bound = .ok a) (bound' : Fields) :
    Coincide (v.validate a bound') (v.validate raw bound') := by
  induction v generalizing raw a with
  | any => cases h; exact .refl _
  | instanceOf kind => rw [(ofKind_eq_ok h).1]; exact .refl _
  | value => exact .of_eq ((expression_again h).trans h.symm)
  | valueOf family => exact .of_eq ((ofFamily_again h).trans h.symm)
  | scalarValue =>
      exact .of_eq ((scalarValue_again h bound').1.trans (scalarValue_again h bound').2.symm)
  | literal => exact .of_eq ((literal_again h).trans h.symm)
  | literalPayload => exact .of_eq ((payload_again h).trans h.symm)
  | string | integer | boolean | dataType => rw [(ofView_eq_ok h).1]; exact .refl _
  | schema => rw [(schema_eq_ok h).1]; exact .refl _
  | optional inner ih =>
      rcases optional_eq_ok h with ⟨hnone, rfl⟩ | ⟨hnone, h⟩
      · rw [validate, validate, if_pos hnone]
        exact .refl _
      · have hsome : a.isNone = false ∧ inner.repeatable = true := by
          cases inner with
          | valueOf family =>
              obtain ⟨m, rfl, -⟩ := expression_eq_ok (ofFamily_eq_ok h).1
              exact ⟨rfl, rfl⟩
          | tupleOf each =>
              obtain ⟨out, rfl, -⟩ := tupleOf_eq_ok h
              exact ⟨rfl, hv⟩
          | _ => cases hv
        rw [optional_of_ne_none hsome.1, optional_of_ne_none hnone]
        exact ih hsome.2 h
  | tupleOf inner ih =>
      obtain ⟨out, rfl, hout⟩ := tupleOf_eq_ok h
      rw [validate, validate]
      exact (sequence_again hout fun x y hxy => ih hv hxy).bind fun _ _ => .refl _
  | mapOf inner ih =>
      obtain ⟨entries, out, rfl, rfl, hout⟩ := mapOf_eq_ok h
      have hcongr : Coincide (eachEntry (fun item => inner.validate item bound') out)
          (eachEntry (fun item => inner.validate item bound') entries) :=
        eachEntry_congr ((eachEntry_eq_ok hout).flip.imp fun y x hxy =>
          ⟨hxy.1.symm, ih hv hxy.2⟩)
      exact hcongr.bind fun _ _ => .refl _
  | either first second ihFirst _ =>
      cases first with
      | instanceOf kind =>
          cases second with
          | value => exact tableOrValue_again h bound'
          | _ => cases hv
      | mapOf inner =>
          cases second with
          | scalarValue => exact mapOrScalar_again (fun h => ihFirst hv h) h
          | _ => cases hv
      | _ => cases hv
  | oneOf options => rw [(oneOf_eq_ok h).1]; exact .refl _
  | columnOf field => rw [(columnName_eq_ok h).1]; exact .refl _
  | comparableWith field => exact .of_eq (comparable_again h bound')
  | sameLengthAs field => exact .of_eq (sameLength_again h bound')
  | sortKey => exact .of_eq (sortKey_again h bound')
  | rowsOf field => rw [(rows_eq_ok h).1]; exact .refl _

theorem validate_self {v : Validator} (hv : v.repeatable = true)
    (h : v.validate raw bound = .ok a) :
    v.validate a bound = .ok a :=
  (validate_again hv h bound a).2 h

end Validator

theorem NodeKind.repeatable (k : NodeKind) :
    ∀ p ∈ k.definition.signature.params, p.validator.repeatable = true := by
  have h : ∀ k ∈ all, ∀ p ∈ k.definition.signature.params,
    p.validator.repeatable = true := by set_option maxRecDepth 2000 in decide
  exact h k k.mem_all

end TypedQuery
