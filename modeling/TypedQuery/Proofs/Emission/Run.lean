import TypedQuery.Emission.Walk
import TypedQuery.Proofs.Node.Built

/-!
# Runs of rules

Which rule a node gets, what the steps of a rule give, what they may consult, and how they
may fail.
-/

namespace TypedQuery.RuleTable

/-!
## Which rule a node gets

A rule that is resolved for a kind was registered for that kind or for one above it, and
every rule of a table was registered at some time or is the one that refuses every node.
-/

variable {σ ω : Type} {table : RuleTable σ ω} {kind : NodeKind} {rule : Rule σ ω}

theorem eq_or_mem_of_mem_insert {rules : List (NodeKind × Rule σ ω)}
    {x : NodeKind × Rule σ ω} (h : x ∈ insert kind rule rules) :
    x = (kind, rule) ∨ x ∈ rules := by
  induction rules with
  | nil => exact Or.inl (List.mem_singleton.1 h)
  | cons y rest ih =>
      obtain ⟨k, r⟩ := y
      rw [insert] at h
      split at h
      · next hk =>
          subst hk
          rcases List.mem_cons.1 h with h | h
          · exact Or.inl h
          · exact Or.inr (List.mem_cons_of_mem _ h)
      · rcases List.mem_cons.1 h with rfl | h
        · exact Or.inr List.mem_cons_self
        · rcases ih h with h | h
          · exact Or.inl h
          · exact Or.inr (List.mem_cons_of_mem _ h)

theorem mem_or_mem_of_registered {given : List (NodeKind × Rule σ ω)}
    {x : NodeKind × Rule σ ω}
    (h : x ∈ (given.foldl
      (fun table (kind, rule) => table.register kind rule) table).rules) :
    x ∈ given ∨ x ∈ table.rules := by
  induction given generalizing table with
  | nil => exact Or.inr h
  | cons y rest ih =>
      rcases ih h with h | h
      · exact Or.inl (List.mem_cons_of_mem _ h)
      · rcases eq_or_mem_of_mem_insert h with rfl | h
        · exact Or.inl List.mem_cons_self
        · exact Or.inr h

theorem insert_of_notMem {rules : List (NodeKind × Rule σ ω)} (h : kind ∉ rules.map (·.1)) :
    insert kind rule rules = rules ++ [(kind, rule)] := by
  induction rules with
  | nil => rfl
  | cons x rest ih =>
      rw [List.map_cons, List.mem_cons, not_or] at h
      rw [insert, if_neg (Ne.symm h.1), ih h.2]
      rfl

/-- Where no kind is given a rule twice, the rules stand in the table as they were given. -/
theorem registered_eq {given : List (NodeKind × Rule σ ω)}
    (h : ((table.rules ++ given).map (·.1)).Nodup) :
    given.foldl (fun table (kind, rule) => table.register kind rule) table
      = ⟨table.name, table.rules ++ given⟩ := by
  induction given generalizing table with
  | nil => rw [List.append_nil]; rfl
  | cons x rest ih =>
      obtain ⟨kind, rule⟩ := x
      have hkind : kind ∉ table.rules.map (·.1) := by
        rw [List.map_append, List.nodup_append] at h
        exact fun hmem => h.2.2 _ hmem _ List.mem_cons_self rfl
      have hstep : table.register kind rule
          = ⟨table.name, table.rules ++ [(kind, rule)]⟩ := by
        rw [register, insert_of_notMem hkind]
      show rest.foldl (fun table (kind, rule) => table.register kind rule)
        (table.register kind rule) = _
      rw [hstep, ih (by simpa using h)]
      simp

theorem nearest?_eq_some {kinds : List NodeKind} {found : NodeKind × Rule σ ω}
    (h : table.nearest? kinds = some found) : found.1 ∈ kinds ∧ found ∈ table.rules := by
  induction kinds with
  | nil => cases h
  | cons k rest ih =>
      rw [nearest?] at h
      split at h
      · next r hr =>
          cases h
          obtain ⟨y, hfind, rfl⟩ := Option.map_eq_some_iff.1 hr
          have hk : y.1 = k := by simpa using List.find?_some hfind
          exact ⟨List.mem_cons_self, by rw [← hk]; exact List.mem_of_find?_eq_some hfind⟩
      · exact ⟨List.mem_cons_of_mem _ (ih h).1, (ih h).2⟩

theorem resolve_eq_ok {found : NodeKind × Rule σ ω} (h : table.resolve kind = .ok found) :
    found.1 ∈ kind.lineage ∧ found ∈ table.rules := by
  unfold resolve at h
  split at h
  · next x hx => cases h; exact nearest?_eq_some hx
  · cases h

end TypedQuery.RuleTable

/-!
## Running steps

What a step gives from a session on, and which session it leaves behind. A sequence that
succeeds does so because each of its steps does, one from where the one before it ended.
-/

namespace TypedQuery.Emission

variable {σ ω α β : Type}

theorem run_bind (step : Emission σ ω α) (next : α → Emission σ ω β) (s : Session σ ω) :
    (step >>= next).run s = (match step.run s with
      | (.ok a, after) => (next a).run after
      | (.error e, after) => (.error e, after)) := by
  have h : (step >>= next).run s
      = ExceptT.bindCont next (step.run s).1 (step.run s).2 := rfl
  rw [h]
  rcases step.run s with ⟨result | result, after⟩ <;> rfl

theorem run_lift (x : Except Error α) (s : Session σ ω) :
    (liftM x : Emission σ ω α).run s = (x, s) := rfl

theorem run_target (s : Session σ ω) :
    (target : Emission σ ω σ).run s = (.ok s.target, s) := rfl

theorem run_known? (n : Node) (s : Session σ ω) : (known? n : Emission σ ω (Option ω)).run s
    = (.ok (s.memo.bind fun memo => (memo.find? (·.1 == n)).map (·.2)), s) := rfl

theorem run_attempt_isolated (step : Emission σ ω α) (s : Session σ ω) :
    (attempt (isolated step)).run s
    = (.ok (step.run { s with memo := s.memo.map fun _ => [] }).1,
      { (step.run { s with memo := s.memo.map fun _ => [] }).2 with memo := s.memo }) := rfl

/-! ### Steps that succeed -/

theorem run_bind_eq_ok {step : Emission σ ω α} {next : α → Emission σ ω β}
    {s after : Session σ ω} {b : β} (h : (step >>= next).run s = (.ok b, after)) :
    ∃ a middle, step.run s = (.ok a, middle) ∧ (next a).run middle = (.ok b, after) := by
  rw [run_bind] at h
  rcases hs : step.run s with ⟨result, middle⟩
  rw [hs] at h
  cases result with
  | error e => cases h
  | ok a => exact ⟨a, middle, rfl, h⟩

theorem run_lift_bind_eq_ok {x : Except Error α} {next : α → Emission σ ω β}
    {s after : Session σ ω} {b : β}
    (h : ((liftM x : Emission σ ω α) >>= next).run s = (.ok b, after)) :
    ∃ a, x = .ok a ∧ (next a).run s = (.ok b, after) := by
  cases x with
  | error e => cases h
  | ok a => exact ⟨a, rfl, h⟩

theorem run_target_bind (next : σ → Emission σ ω β) (s : Session σ ω) :
    ((target : Emission σ ω σ) >>= next).run s = (next s.target).run s := rfl

theorem run_change_bind_eq_ok {f : σ → Except Error (α × σ)} {next : α → Emission σ ω β}
    {s after : Session σ ω} {b : β} (h : (change f >>= next).run s = (.ok b, after)) :
    ∃ a t, f s.target = .ok (a, t)
      ∧ (next a).run { s with target := t } = (.ok b, after) := by
  obtain ⟨a, middle, hchange, h⟩ := run_bind_eq_ok h
  rw [change, run_target_bind] at hchange
  obtain ⟨⟨a', t⟩, hf, hchange⟩ := run_lift_bind_eq_ok hchange
  cases hchange
  exact ⟨_, t, hf, h⟩

theorem run_pure_eq_ok {a b : α} {s after : Session σ ω}
    (h : (pure a : Emission σ ω α).run s = (.ok b, after)) : b = a ∧ after = s := by
  cases h
  exact ⟨rfl, rfl⟩

end TypedQuery.Emission

/-!
## What a rule may consult

A rule is given the means to find the outputs of other nodes. `Consults` lists what most
rules do with them: they ask for outputs of some nodes, may look at the state of the
target, and never touch the session otherwise. That is all that the walk has to know of
such a rule, whatever it makes of the outputs.
-/

namespace TypedQuery

variable {σ ω : Type}

/-- `Consults looks S step`: the step asks only for outputs of nodes in `S`, and looks at
the state of the target only if `looks`. -/
inductive Consults (looks : Prop) (S : Node → Prop) :
    {α : Type} → ((Node → Emission σ ω ω) → Emission σ ω α) → Prop
  | pure {α : Type} (a : α) : Consults looks S fun _ => Pure.pure a
  | throw {α : Type} (e : Error) : Consults (α := α) looks S fun _ => MonadExcept.throw e
  | ask {m : Node} (h : S m) : Consults looks S fun emit => emit m
  | look (h : looks) : Consults looks S fun _ => Emission.target
  | bind {α β : Type} {step : (Node → Emission σ ω ω) → Emission σ ω α}
      {next : α → (Node → Emission σ ω ω) → Emission σ ω β} (first : Consults looks S step)
      (after : ∀ a, Consults looks S (next a)) :
      Consults looks S fun emit => step emit >>= fun a => next a emit

namespace Consults

variable {looks : Prop} {S : Node → Prop} {α β : Type}

theorem mono {looks' : Prop} {T : Node → Prop} (hlooks : looks → looks')
    (hST : ∀ m, S m → T m) {step : (Node → Emission σ ω ω) → Emission σ ω α}
    (h : Consults looks S step) :
    Consults looks' T step := by
  induction h with
  | pure a => exact .pure a
  | throw e => exact .throw e
  | ask h => exact .ask (hST _ h)
  | look h => exact .look (hlooks h)
  | bind _ _ ihFirst ihAfter => exact .bind ihFirst ihAfter

/-! ### Steps that may fail -/

theorem lift (x : Except Error α) :
    Consults looks S fun _ : Node → Emission σ ω ω => (liftM x : Emission σ ω α) := by
  cases x with
  | error e => exact .throw e
  | ok a => exact .pure a

/-- After a step that may fail, only its result matters. -/
theorem lift_bind {x : Except Error α} {next : α → (Node → Emission σ ω ω) → Emission σ ω β}
    (h : ∀ a, x = .ok a → Consults looks S (next a)) :
    Consults looks S fun emit => (liftM x : Emission σ ω α) >>= fun a => next a emit := by
  cases x with
  | error e => exact .throw e
  | ok a => exact h a rfl

theorem ite {c : Prop} [Decidable c] {step other : (Node → Emission σ ω ω) → Emission σ ω α}
    (hstep : c → Consults looks S step) (hother : ¬ c → Consults looks S other) :
    Consults looks S fun emit => if c then step emit else other emit := by
  by_cases hc : c
  · simpa [hc] using hstep hc
  · simpa [hc] using hother hc

theorem each {ms : List Node} (h : ∀ m ∈ ms, S m) :
    Consults looks S fun emit : Node → Emission σ ω ω => Emission.each emit ms := by
  induction ms with
  | nil => exact .pure []
  | cons m rest ih =>
      refine .bind (.ask (h m List.mem_cons_self)) fun o => ?_
      exact .bind (ih fun m hm => h m (List.mem_cons_of_mem _ hm)) fun os => .pure (o :: os)

end Consults

/-! ### Fields of a node that builds -/

namespace Node.Built

variable {looks : Prop} {n : Node}

theorem field (h : n.Built) (name : String) :
    Consults looks (· ∈ n.children) fun emit : Node →
      Emission σ ω ω => Emission.field emit n name :=
  .lift_bind fun _ hm => .ask (h.mem_children_of_child hm)

theorem field? (h : n.Built) (name : String) :
    Consults looks (· ∈ n.children) fun emit : Node →
      Emission σ ω ω => Emission.field? emit n name := by
  unfold Emission.field?
  cases hm : n.child? name with
  | none => exact .pure none
  | some m => exact .bind (.ask (h.mem_children_of_child? hm)) fun o => .pure (some o)

theorem sequence (h : n.Built) (name : String) :
    Consults looks (· ∈ n.children) fun emit : Node →
      Emission σ ω ω => Emission.sequence emit n name :=
  .lift_bind fun _ hms => .each fun _ hm => h.mem_children_of_childList hms hm

end Node.Built

end TypedQuery

/-!
## Failing for a reason

An internal error says that something was found in a state that it is never in. `Proper`
and `Safe` say of a computation and of a step that they don't fail in this way, and what is
known of the result if they don't fail at all.
-/

namespace TypedQuery

/-- Whether the program itself is at fault. -/
def Error.isInternal : Error → Bool
  | .internal _ => true
  | _ => false

/-- The computation gives something with the property or fails, though not internally. -/
def Proper {α : Type} (P : α → Prop) : Except Error α → Prop
  | .ok a => P a
  | .error e => e.isInternal = false

namespace Proper

variable {α β : Type} {P : α → Prop} {Q : β → Prop} {x : Except Error α}

theorem mono {P' : α → Prop} (h : Proper P x) (hP : ∀ a, x = .ok a → P a → P' a) :
    Proper P' x := by
  cases x with
  | ok a => exact hP a rfl h
  | error e => exact h

theorem bind {f : α → Except Error β} (h : Proper P x)
    (hf : ∀ a, x = .ok a → P a → Proper Q (f a)) :
    Proper Q (x >>= f) := by
  cases x with
  | ok a => exact hf a rfl h
  | error e => exact h

theorem map {f : α → β} (h : Proper P x) (hf : ∀ a, P a → Q (f a)) : Proper Q (x.map f) := by
  cases x with
  | ok a => exact hf a h
  | error e => exact h

theorem mapM {f : α → Except Error β} {xs : List α} (h : ∀ a ∈ xs, Proper Q (f a)) :
    Proper (fun bs : List β => ∀ b ∈ bs, Q b) (xs.mapM f) := by
  induction xs with
  | nil => exact fun _ hb => absurd hb List.not_mem_nil
  | cons a rest ih =>
      obtain ⟨ha, hrest⟩ := List.forall_mem_cons.1 h
      rw [List.mapM_cons]
      exact ha.bind fun b _ hb => (ih hrest).bind fun bs _ hbs =>
        List.forall_mem_cons.2 ⟨hb, hbs⟩

theorem not_internal (h : Proper P x) (text : String) : x ≠ .error (.internal text) := by
  rintro rfl
  cases h

theorem of_ok {a : α} (h : Proper P x) (hx : x = .ok a) : P a := by
  subst hx
  exact h

end Proper

namespace Emission

variable {σ ω α β : Type}

/-- From any session on, the step gives something with the property or fails,
though not internally. -/
def Safe (P : α → Prop) (step : Emission σ ω α) : Prop := ∀ s, Proper P (step.run s).1

namespace Safe

variable {P : α → Prop} {Q : β → Prop} {step : Emission σ ω α}

theorem pure {a : α} (h : P a) : Safe P (Pure.pure a : Emission σ ω α) := fun _ => h

theorem throw {e : Error} (h : e.isInternal = false) :
    Safe P (MonadExcept.throw e : Emission σ ω α) := fun _ => h

theorem lift {x : Except Error α} (h : Proper P x) :
    Safe P (liftM x : Emission σ ω α) := fun _ => h

theorem mono {P' : α → Prop} (h : Safe P step) (hP : ∀ a, P a → P' a) : Safe P' step :=
  fun s => (h s).mono fun a _ => hP a

theorem bind {next : α → Emission σ ω β} (h : Safe P step)
    (hnext : ∀ a, P a → Safe Q (next a)) :
    Safe Q (step >>= next) := by
  intro s
  have hs := h s
  rw [run_bind]
  generalize step.run s = run at hs
  obtain ⟨e | a, after⟩ := run
  · exact hs
  · exact hnext a hs after

theorem lift_bind {x : Except Error α} {next : α → Emission σ ω β} (h : Proper P x)
    (hnext : ∀ a, x = .ok a → P a → Safe Q (next a)) :
    Safe Q ((liftM x : Emission σ ω α) >>= next) := by
  cases x with
  | ok a => exact hnext a rfl h
  | error e => exact throw h

theorem ok_bind {x : Except Error α} {a : α} {next : α → Emission σ ω β} (hx : x = .ok a)
    (h : Safe Q (next a)) :
    Safe Q ((liftM x : Emission σ ω α) >>= next) := by
  subst hx
  exact h

theorem target_bind {next : σ → Emission σ ω β} (h : ∀ t, Safe Q (next t)) :
    Safe Q ((Emission.target : Emission σ ω σ) >>= next) := fun s => h s.target s

theorem change {f : σ → Except Error (α × σ)}
    (h : ∀ t, Proper (fun found => P found.1) (f t)) :
    Safe P (Emission.change f : Emission σ ω α) :=
  target_bind fun t => lift_bind (h t) fun _ _ ha =>
    bind (P := fun _ => True) (fun _ => trivial) fun _ _ => pure ha

theorem ite {c : Prop} [Decidable c] {other : Emission σ ω α} (hstep : c → Safe P step)
    (hother : ¬ c → Safe P other) :
    Safe P (if c then step else other) := by
  split
  · next hc => exact hstep hc
  · next hc => exact hother hc

theorem each {emit : Node → Emission σ ω ω} {R : ω → Prop} {ms : List Node}
    (h : ∀ m ∈ ms, Safe R (emit m)) :
    Safe (fun outputs : List ω => ∀ o ∈ outputs, R o) (Emission.each emit ms) := by
  induction ms with
  | nil => exact .pure fun _ ho => absurd ho List.not_mem_nil
  | cons m rest ih =>
      obtain ⟨hm, hrest⟩ := List.forall_mem_cons.1 h
      exact .bind hm fun output ho => .bind (ih hrest) fun outputs hos =>
        .pure (List.forall_mem_cons.2 ⟨ho, hos⟩)

end Safe

end Emission

/-! ### Finding a rule -/

namespace RuleTable

variable {σ ω : Type} {table : RuleTable σ ω}

theorem exists_nearest {kind : NodeKind} {rule : Rule σ ω}
    (h : table.rule? kind = some rule) {kinds : List NodeKind} (hkinds : kind ∈ kinds) :
    ∃ found, table.nearest? kinds = some found := by
  induction kinds with
  | nil => cases hkinds
  | cons k rest ih =>
      rw [nearest?]
      split
      · next r hr => exact ⟨_, rfl⟩
      · next hr =>
          rcases List.mem_cons.1 hkinds with rfl | hrest
          · rw [h] at hr
            cases hr
          · exact ih hrest

/-- With a rule for the root, every kind has one, and be it that. -/
theorem exists_resolve {rule : Rule σ ω} (h : table.rule? .node = some rule)
    (kind : NodeKind) :
    ∃ found, table.resolve kind = .ok found := by
  have hroot : ∀ kind ∈ NodeKind.all, .node ∈ kind.lineage := by
    set_option maxRecDepth 2000 in decide
  obtain ⟨found, hfound⟩ := exists_nearest h (hroot kind kind.mem_all)
  exact ⟨found, by rw [resolve, hfound]⟩

end RuleTable

end TypedQuery
