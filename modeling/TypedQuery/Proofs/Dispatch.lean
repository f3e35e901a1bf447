import Mathlib.Data.List.Induction
import Mathlib.Data.Nat.Find
import TypedQuery.Proofs.Emission.Run

/-!
# Dispatch after any registrations

What a table of rules answers depends on its history through one thing only: which rule
each kind was given last. A kind gets the rule of the first kind on its way up the tree
that was given one, and the root always was. So a further registration reaches the kinds
below it from which nothing that was given a rule is met before, and no other kind sees it.
-/

namespace TypedQuery

/-! ## The way up -/

namespace NodeKind

/-- The kind that stands some steps above another. -/
def up : Nat → NodeKind → Option NodeKind
  | 0, k => some k
  | steps + 1, k => k.parent?.bind (up steps)

theorem up_add (i j : Nat) (k : NodeKind) : up (i + j) k = (up i k).bind (up j) := by
  induction i generalizing k with
  | zero => rw [Nat.zero_add]; rfl
  | succ i ih =>
      rw [Nat.add_right_comm, up, up, Option.bind_assoc]
      exact congrArg _ (funext ih)

theorem up_five (k : NodeKind) : up 5 k = none := by
  have h : ∀ k ∈ all, up 5 k = none := by set_option maxRecDepth 2000 in decide
  exact h k k.mem_all

theorem getElem?_lineageWithin {steps i : Nat} (k : NodeKind) (h : i ≤ steps) :
    (lineageWithin steps k)[i]? = up i k := by
  induction steps generalizing i k with
  | zero =>
      obtain rfl : i = 0 := Nat.le_zero.1 h
      rfl
  | succ steps ih =>
      rw [lineageWithin]
      cases i with
      | zero => cases k.parent? <;> rfl
      | succ i =>
          rw [up]
          cases k.parent? with
          | none => rfl
          | some p => exact ih p (Nat.le_of_succ_le_succ h)

theorem length_lineageWithin (steps : Nat) (k : NodeKind) :
    (lineageWithin steps k).length ≤ steps + 1 := by
  induction steps generalizing k with
  | zero => exact Nat.le_refl _
  | succ steps ih =>
      rw [lineageWithin]
      cases k.parent? with
      | none => exact Nat.succ_le_succ (Nat.zero_le _)
      | some p => exact Nat.succ_le_succ (ih p)

/-- The lineage of a kind is the whole way up. -/
theorem getElem?_lineage (i : Nat) (k : NodeKind) : k.lineage[i]? = up i k := by
  by_cases h : i ≤ 4
  · exact getElem?_lineageWithin k h
  · obtain ⟨j, rfl⟩ := Nat.exists_eq_add_of_le (Nat.lt_of_not_le h)
    rw [up_add, up_five, List.getElem?_eq_none]
    · rfl
    · exact Nat.le_trans (length_lineageWithin 4 k) (Nat.le_add_right 5 j)

/-- Of the kinds from one on up to another, which is left out, none was given anything. -/
def Clear {α : Type} (given : NodeKind → Option α) (kind above : NodeKind) : Prop :=
  ∃ i, up i kind = some above ∧ ∀ j < i, ∀ k, up j kind = some k → given k = none

end NodeKind

namespace RuleTable

variable {σ ω : Type} {table : RuleTable σ ω} {kind k : NodeKind} {rule : Rule σ ω}

/-! ## One registration -/

theorem find?_insert (kind : NodeKind) (rule : Rule σ ω)
    (rules : List (NodeKind × Rule σ ω)) (k : NodeKind) :
    ((insert kind rule rules).find? (·.1 = k)).map (·.2)
      = if k = kind then some rule else (rules.find? (·.1 = k)).map (·.2) := by
  induction rules with
  | nil => by_cases hk : k = kind <;> simp [insert, hk, Ne.symm]
  | cons x rest ih =>
      obtain ⟨other, r⟩ := x
      rw [insert]
      by_cases hother : other = kind
      · subst hother
        by_cases hk : k = other <;> simp [hk, Ne.symm]
      · rw [if_neg hother, List.find?_cons, List.find?_cons]
        by_cases hk : other = k
        · simp [hk, show k ≠ kind from hk ▸ hother]
        · simpa [hk] using ih

theorem rule?_register (kind : NodeKind) (rule : Rule σ ω) (table : RuleTable σ ω)
    (k : NodeKind) :
    (table.register kind rule).rule? k = if k = kind then some rule else table.rule? k :=
  find?_insert kind rule table.rules k

theorem rule?_registerAll (kinds : List NodeKind) (rule : Rule σ ω) (table : RuleTable σ ω)
    (k : NodeKind) :
    (table.registerAll kinds rule).rule? k = if k ∈ kinds then some rule
      else table.rule? k := by
  induction kinds generalizing table with
  | nil => rfl
  | cons kind rest ih =>
      show ((table.register kind rule).registerAll rest rule).rule? k = _
      rw [ih, rule?_register]
      by_cases hrest : k ∈ rest <;> by_cases hk : k = kind <;> simp [hrest, hk]

/-! ## The nearest rule -/

theorem nearest?_eq_some_iff {kinds : List NodeKind} : table.nearest? kinds = some (k, rule)
    ↔ table.rule? k = some rule ∧ ∃ i : Nat, kinds[i]? = some k ∧ ∀ j < i, ∀ c,
      kinds[j]? = some c → table.rule? c = none := by
  induction kinds with
  | nil => simp [nearest?]
  | cons kind rest ih =>
      rw [nearest?]
      cases hkind : table.rule? kind with
      | some r =>
          constructor
          · intro h
            cases h
            exact ⟨hkind, 0, rfl, fun j hj => absurd hj (Nat.not_lt_zero j)⟩
          · rintro ⟨hrule, i, hi, hbefore⟩
            cases i with
            | zero =>
                cases hi
                rw [hkind] at hrule
                rw [Option.some.inj hrule]
            | succ i =>
                have hnone := hbefore 0 (Nat.succ_pos i) kind rfl
                rw [hkind] at hnone
                cases hnone
      | none =>
          show nearest? table rest = _ ↔ _
          rw [ih]
          refine and_congr_right fun hrule => ⟨?_, ?_⟩
          · rintro ⟨i, hi, hbefore⟩
            refine ⟨i + 1, hi, fun j hj c hc => ?_⟩
            cases j with
            | zero => cases hc; exact hkind
            | succ j => exact hbefore j (Nat.lt_of_succ_lt_succ hj) c hc
          · rintro ⟨i, hi, hbefore⟩
            cases i with
            | zero =>
                cases hi
                rw [hkind] at hrule
                cases hrule
            | succ i => exact ⟨i, hi, fun j hj => hbefore (j + 1) (Nat.succ_lt_succ hj)⟩

/-- A rule is found for a kind if it is that of a kind above, and there is none on the way.
-/
theorem resolve_eq_ok_iff :
    table.resolve kind = .ok (k, rule)
      ↔ table.rule? k = some rule ∧ NodeKind.Clear table.rule? kind k := by
  have hnearest : table.resolve kind = .ok (k, rule)
      ↔ table.nearest? kind.lineage = some (k, rule) := by
    rw [resolve]
    cases table.nearest? kind.lineage <;> simp
  rw [hnearest, nearest?_eq_some_iff]
  simp only [NodeKind.getElem?_lineage]
  rfl

end RuleTable

/-! ## Histories -/

/-- A rule that is given to one kind, or to several. -/
inductive Registration (σ ω : Type) where
  | one (kind : NodeKind) (rule : Rule σ ω)
  | several (kinds : List NodeKind) (rule : Rule σ ω)

namespace Registration

variable {σ ω : Type}

def kinds : Registration σ ω → List NodeKind
  | one kind _ => [kind]
  | several kinds _ => kinds

def rule : Registration σ ω → Rule σ ω
  | one _ rule | several _ rule => rule

/-- The rule that a new table and the registrations after it gave a kind last. -/
def given? (name : String) (history : List (Registration σ ω)) (kind : NodeKind) :
    Option (Rule σ ω) :=
  match history.reverse.find? (fun r => decide (kind ∈ r.kinds)) with
  | some r => some r.rule
  | none => if kind = .node then some (RuleTable.refuse name) else none

end Registration

namespace RuleTable

variable {σ ω : Type} {name : String} {history : List (Registration σ ω)}
    {d k : NodeKind} {r : Rule σ ω}

def record (table : RuleTable σ ω) : Registration σ ω → RuleTable σ ω
  | .one kind rule => table.register kind rule
  | .several kinds rule => table.registerAll kinds rule

/-- A new table after some registrations. -/
def after (name : String) (history : List (Registration σ ω)) : RuleTable σ ω :=
  history.foldl record (new name)

theorem rule?_record (table : RuleTable σ ω) (registration : Registration σ ω)
    (k : NodeKind) :
    (table.record registration).rule? k = if k ∈ registration.kinds then
      some registration.rule else table.rule? k := by
  cases registration with
  | one kind rule =>
      rw [record, rule?_register]
      exact if_congr List.mem_singleton.symm rfl rfl
  | several kinds rule => exact rule?_registerAll kinds rule table k

/-- The last registration for a kind decides. -/
theorem rule?_after (name : String) (history : List (Registration σ ω)) (k : NodeKind) :
    (after name history).rule? k = Registration.given? name history k := by
  induction history using List.reverseRecOn with
  | nil =>
      by_cases hk : k = .node <;> simp [after, new, rule?, Registration.given?, hk, Ne.symm]
  | append_singleton before registration ih =>
      rw [after, List.foldl_append]
      show (record (after name before) registration).rule? k = _
      rw [rule?_record, ih, Registration.given?, Registration.given?, List.reverse_append,
        List.reverse_singleton, List.singleton_append, List.find?_cons]
      by_cases hk : k ∈ registration.kinds <;> simp [hk]

theorem rule?_after_one (c : NodeKind) : (after name (history ++ [.one k r])).rule? c
    = if c = k then some r else (after name history).rule? c := by
  rw [after, List.foldl_append]
  exact rule?_register k r _ c

/-! ## What a table answers -/

/-- The rule that refuses every node is there from the start, and can only be replaced. -/
theorem exists_resolve_after (name : String) (history : List (Registration σ ω))
    (kind : NodeKind) :
    ∃ found rule, (after name history).resolve kind = .ok (found, rule) := by
  have hroot : ∃ rule, (after name history).rule? .node = some rule := by
    rw [rule?_after, Registration.given?]
    cases history.reverse.find? (fun r => decide (.node ∈ r.kinds)) with
    | none => exact ⟨_, rfl⟩
    | some r => exact ⟨_, rfl⟩
  obtain ⟨rule, hrule⟩ := hroot
  obtain ⟨⟨found, rule⟩, h⟩ := exists_resolve hrule kind
  exact ⟨found, rule, h⟩

/-- Where the way up to a kind is clear, its new rule is the nearest. -/
theorem resolve_after_of_clear (h : NodeKind.Clear (after name history).rule? d k) :
    (after name (history ++ [.one k r])).resolve d = .ok (k, r) := by
  obtain ⟨i, hi, hbefore⟩ := h
  have hmeets : ∃ i, NodeKind.up i d = some k := ⟨i, hi⟩
  refine resolve_eq_ok_iff.2 ⟨by rw [rule?_after_one, if_pos rfl], Nat.find hmeets,
    Nat.find_spec hmeets, fun j hj c hc => ?_⟩
  -- The kind is met here for the first time, so that what is met before was given nothing
  -- new.
  have hne : c ≠ k := fun hck => Nat.find_min hmeets hj (hck ▸ hc)
  rw [rule?_after_one, if_neg hne]
  exact hbefore j (Nat.lt_of_lt_of_le hj (Nat.find_min' hmeets hi)) c hc

/-- Otherwise something nearer was found before, and still is. -/
theorem resolve_after_of_not_clear (h : ¬ NodeKind.Clear (after name history).rule? d k) :
    (after name (history ++ [.one k r])).resolve d = (after name history).resolve d := by
  obtain ⟨found, rule, hfound⟩ := exists_resolve_after name history d
  obtain ⟨hrule, i, hi, hbefore⟩ := resolve_eq_ok_iff.1 hfound
  have hne : found ≠ k := fun heq => h ⟨i, heq ▸ hi, hbefore⟩
  rw [hfound, resolve_eq_ok_iff, rule?_after_one, if_neg hne]
  refine ⟨hrule, i, hi, fun j hj c hc => ?_⟩
  have hck : c ≠ k := fun heq => h ⟨j, heq ▸ hc, fun l hl => hbefore l (Nat.lt_trans hl hj)⟩
  rw [rule?_after_one, if_neg hck]
  exact hbefore j hj c hc

open Registration in
/-- After any registrations, every kind gets the rule that was given last to the
nearest kind on its way up that was given one. One more registration is for that kind,
and for those below it without a rule of their own and without one on the way; all
other kinds get what they got. -/
theorem dispatch_nearest (name : String) (history : List (Registration σ ω)) :
    (∀ kind, ∃ found rule, (after name history).resolve kind = .ok (found, rule)
      ∧ given? name history found = some rule
      ∧ NodeKind.Clear (given? name history) kind found)
      ∧ ∀ (kind : NodeKind) (rule : Rule σ ω) (below : NodeKind),
        (NodeKind.Clear (given? name history) below kind →
          (after name (history ++ [.one kind rule])).resolve below = .ok (kind, rule))
        ∧ (¬ NodeKind.Clear (given? name history) below kind →
          (after name (history ++ [.one kind rule])).resolve below
            = (after name history).resolve below) := by
  have hgiven : given? name history = (after name history).rule? :=
    funext fun k => (rule?_after name history k).symm
  rw [hgiven]
  refine ⟨fun kind => ?_,
    fun kind rule below => ⟨resolve_after_of_clear, resolve_after_of_not_clear⟩⟩
  obtain ⟨found, rule, h⟩ := exists_resolve_after name history kind
  exact ⟨found, rule, h, resolve_eq_ok_iff.1 h⟩

/-- Rules for all values and for unary operators, and one for the operators on texts. -/
def textsApart : List (Registration Unit Unit) :=
  [.several [.value, .unary] (refuse "all"), .one .stringUnary (refuse "texts")]

open Registration in
/-- A new rule for unary operators is taken for negation, and lower case keeps the one for
texts. -/
theorem dispatch_nearest_unary :
    NodeKind.Clear (given? "t" textsApart) .negate .unary
      ∧ (after "t" (textsApart ++ [.one .unary (refuse "new")])).resolve .negate
        = .ok (.unary, refuse "new")
      ∧ ¬ NodeKind.Clear (given? "t" textsApart) .lowercase .unary
      ∧ (after "t" (textsApart ++ [.one .unary (refuse "new")])).resolve .lowercase
        = .ok (.stringUnary, refuse "texts") := by
  obtain ⟨-, hone⟩ := dispatch_nearest "t" textsApart
  have hclear : NodeKind.Clear (given? "t" textsApart) .negate .unary := by
    refine ⟨1, rfl, fun j hj c hc => ?_⟩
    cases Nat.lt_one_iff.1 hj
    cases hc
    rfl
  have hblocked : ¬ NodeKind.Clear (given? "t" textsApart) .lowercase .unary := by
    rintro ⟨i, hi, hbefore⟩
    match i with
    | 0 | 1 => cases hi
    | i + 2 => cases hbefore 1 (by omega) .stringUnary rfl
  exact ⟨hclear, (hone .unary (refuse "new") .negate).1 hclear, hblocked,
    (hone .unary (refuse "new") .lowercase).2 hblocked⟩

/-- Nothing stands between addition and the operators on numbers, but addition with a rule
of its own keeps it when they get one. -/
theorem dispatch_own_rule :
    NodeKind.add.parent? = some .numericBinary
      ∧ (after "t" [.one .add (refuse "own" : Rule Unit Unit)]).resolve .add
        = .ok (.add, refuse "own")
      ∧ (after "t" [.one .add (refuse "own" : Rule Unit Unit),
        .one .numericBinary (refuse "new")]).resolve .add
        = .ok (.add, refuse "own") :=
  ⟨rfl, rfl, rfl⟩

end RuleTable

end TypedQuery
