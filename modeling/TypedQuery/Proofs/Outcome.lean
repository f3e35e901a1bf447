import Mathlib.Data.List.Forall2

/-!
# Sequences that succeed

A sequence of steps that may fail gives a result only if every step does. Everything that
opens such a sequence, whether it builds a node, validates a call or executes a plan, goes
through the lemmas below.
-/

namespace TypedQuery

theorem bind_eq_ok {ε α β : Type} {x : Except ε α} {f : α → Except ε β} {b : β} :
    (x >>= f) = .ok b ↔ ∃ a, x = .ok a ∧ f a = .ok b := by
  cases x with
  | error e =>
      constructor
      · intro h; cases h
      · rintro ⟨a, h, -⟩; cases h
  | ok a =>
      constructor
      · intro h; exact ⟨a, rfl, h⟩
      · rintro ⟨a', h, hb⟩; cases h; exact hb

theorem bind_eq_error {ε α β : Type} {x : Except ε α} {f : α → Except ε β} {e : ε} :
    (x >>= f) = .error e ↔ x = .error e ∨ ∃ a, x = .ok a ∧ f a = .error e := by
  cases x <;> simp [bind, Except.bind]

theorem map_eq_ok {ε α β : Type} {x : Except ε α} {f : α → β} {b : β} :
    x.map f = .ok b ↔ ∃ a, x = .ok a ∧ f a = b := by
  cases x with
  | error e =>
      constructor
      · intro h; cases h
      · rintro ⟨a, h, -⟩; cases h
  | ok a =>
      constructor
      · intro h; cases h; exact ⟨a, rfl, rfl⟩
      · rintro ⟨a', h, hb⟩; cases h; rw [← hb]; rfl

theorem map_bind {ε α β γ : Type} (x : Except ε α) (f : α → β) (g : β → Except ε γ) :
    x.map f >>= g = x >>= fun a => g (f a) := by
  cases x <;> rfl

/-- Two steps that cannot be told apart by what `f` sees of their results. -/
theorem map_eq_map {ε α β : Type} {x y : Except ε α} {f : α → β} :
    x.map f = y.map f ↔
      (∃ e, x = .error e ∧ y = .error e) ∨ ∃ a b, x = .ok a ∧ y = .ok b ∧ f a = f b := by
  constructor
  · intro h
    cases x with
    | error e =>
        cases y with
        | error e' => cases h; exact Or.inl ⟨e, rfl, rfl⟩
        | ok b => cases h
    | ok a =>
        cases y with
        | error e => cases h
        | ok b => exact Or.inr ⟨a, b, rfl, rfl, Except.ok.inj h⟩
  · rintro (⟨e, rfl, rfl⟩ | ⟨a, b, rfl, rfl, hab⟩)
    · rfl
    · exact congrArg Except.ok hab

/-- Likewise for values that may be missing. -/
theorem option_map_eq_map {α β : Type} {x y : Option α} {f : α → β} :
    x.map f = y.map f ↔ (x = none ∧ y = none) ∨ ∃ a b,
      x = some a ∧ y = some b ∧ f a = f b := by
  cases x <;> cases y <;> simp

theorem mapM_eq_ok {ε α β : Type} {f : α → Except ε β} {xs : List α} {ys : List β} :
    xs.mapM f = .ok ys ↔ List.Forall₂ (fun x y => f x = .ok y) xs ys := by
  induction xs generalizing ys with
  | nil =>
      constructor
      · intro h; cases h; exact .nil
      · intro h; cases h; rfl
  | cons x rest ih =>
      rw [List.mapM_cons]
      constructor
      · intro h
        obtain ⟨y, hy, h⟩ := bind_eq_ok.1 h
        obtain ⟨tail, htail, h⟩ := bind_eq_ok.1 h
        cases h
        exact .cons hy (ih.1 htail)
      · intro h
        cases h with
        | cons hy htail => exact bind_eq_ok.2 ⟨_, hy, bind_eq_ok.2 ⟨_, ih.2 htail, rfl⟩⟩

theorem mapM_isOk {ε α β : Type} {f : α → Except ε β} {xs : List α}
    (h : ∀ x ∈ xs, ∃ y, f x = .ok y) :
    ∃ ys, xs.mapM f = .ok ys := by
  induction xs with
  | nil => exact ⟨[], rfl⟩
  | cons x rest ih =>
      obtain ⟨hx, hrest⟩ := List.forall_mem_cons.1 h
      obtain ⟨y, hy⟩ := hx
      obtain ⟨ys, hys⟩ := ih hrest
      exact ⟨y :: ys, by rw [List.mapM_cons, hy, hys]; rfl⟩

theorem exists_of_forall₂_right {α β : Type} {R : α → β → Prop} {xs : List α} {ys : List β}
    (h : List.Forall₂ R xs ys) {y : β} (hy : y ∈ ys) : ∃ x ∈ xs, R x y := by
  induction h with
  | nil => cases hy
  | cons hxy hrest ih =>
      rcases List.mem_cons.1 hy with rfl | hy
      · exact ⟨_, List.mem_cons_self, hxy⟩
      · obtain ⟨x, hx, hxy⟩ := ih hy
        exact ⟨x, List.mem_cons_of_mem _ hx, hxy⟩

theorem exists_of_forall₂_append {α β : Type} {R : α → β → Prop}
    {xs ys : List α} {zs : List β} (h : List.Forall₂ R (xs ++ ys) zs) :
    ∃ zs₁ zs₂, List.Forall₂ R xs zs₁ ∧ List.Forall₂ R ys zs₂ ∧ zs = zs₁ ++ zs₂ := by
  induction xs generalizing zs with
  | nil => exact ⟨[], zs, .nil, h, rfl⟩
  | cons x rest ih =>
      cases h with
      | cons hz h =>
          obtain ⟨zs₁, zs₂, h₁, h₂, rfl⟩ := ih h
          exact ⟨_ :: zs₁, zs₂, .cons hz h₁, h₂, rfl⟩

/-! ## Steps one after the other -/

section

variable {α β γ : Type}

theorem forall₂_comp_iff {R : α → β → Prop} {S : β → γ → Prop} {as : List α} {cs : List γ} :
    List.Forall₂ (fun a c => ∃ b, R a b ∧ S b c) as cs
      ↔ ∃ bs, List.Forall₂ R as bs ∧ List.Forall₂ S bs cs := by
  constructor
  · intro h
    induction h with
    | nil => exact ⟨[], .nil, .nil⟩
    | cons h _ ih =>
        obtain ⟨b, hR, hS⟩ := h
        obtain ⟨bs, hRs, hSs⟩ := ih
        exact ⟨b :: bs, .cons hR hRs, .cons hS hSs⟩
  · rintro ⟨bs, hR, hS⟩
    induction hR generalizing cs with
    | nil => cases hS; exact .nil
    | cons hab _ ih =>
        cases hS with
        | cons hbc hS => exact .cons ⟨_, hab, hbc⟩ (ih hS)

theorem exists_forall₂ {R : α → β → Prop} {S : α → γ → Prop} {T : β → γ → Prop}
    {as : List α} {bs : List β} (h : List.Forall₂ R as bs)
    (hstep : ∀ a ∈ as, ∀ b, R a b → ∃ c, S a c ∧ T b c) :
    ∃ cs, List.Forall₂ S as cs ∧ List.Forall₂ T bs cs := by
  induction h with
  | nil => exact ⟨[], .nil, .nil⟩
  | @cons a b _ _ hab _ ih =>
      obtain ⟨hhere, hrest⟩ := List.forall_mem_cons.1 hstep
      obtain ⟨c, hS, hT⟩ := hhere b hab
      obtain ⟨cs, hSs, hTs⟩ := ih hrest
      exact ⟨c :: cs, .cons hS hSs, .cons hT hTs⟩

end

/-! ## What a result is known to be -/

/-- If the step succeeds then its result has the property. -/
def Yields {ε α : Type} (P : α → Prop) (x : Except ε α) : Prop := ∀ a, x = .ok a → P a

namespace Yields

variable {ε α β : Type} {P Q : α → Prop} {R : β → Prop}

theorem ok {a : α} (h : P a) : Yields P (.ok a : Except ε α) :=
  fun b hb => by cases hb; exact h

theorem error (e : ε) : Yields P (.error e) := fun _ h => by cases h

theorem bind {x : Except ε α} {f : α → Except ε β} (h : Yields P x)
    (hf : ∀ a, P a → Yields R (f a)) :
    Yields R (x >>= f) := by
  intro b hb
  obtain ⟨a, ha, hb⟩ := bind_eq_ok.1 hb
  exact hf a (h a ha) b hb

/-- A step of which nothing need be known. -/
theorem bind_any {x : Except ε α} {f : α → Except ε β}
    (hf : ∀ a, x = .ok a → Yields R (f a)) :
    Yields R (x >>= f) := by
  intro b hb
  obtain ⟨a, ha, hb⟩ := bind_eq_ok.1 hb
  exact hf a ha b hb

theorem mono {x : Except ε α} (h : Yields P x) (hPQ : ∀ a, P a → Q a) :
    Yields Q x := fun a ha => hPQ a (h a ha)

theorem mapM {f : α → Except ε β} {xs : List α} (h : ∀ a ∈ xs, Yields R (f a)) :
    Yields (∀ b ∈ ·, R b) (xs.mapM f) := by
  intro bs hbs b hb
  obtain ⟨a, ha, hab⟩ := exists_of_forall₂_right (mapM_eq_ok.1 hbs) hb
  exact h a ha b hab

end Yields

end TypedQuery
