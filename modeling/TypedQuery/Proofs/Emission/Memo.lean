import TypedQuery.Proofs.Emission.Run

/-!
# Kept outputs

A walk that keeps outputs may reuse one only where walking the node again would give the
same. `Agrees` is the invariant: in a session whose target is in a given state, and which
keeps only outputs that are right for that state, a step gives one result, leaves the state
alone and keeps only right outputs. Rules that merely consult other nodes preserve it
(`Consults.agrees`), so it holds of whole walks (`RuleTable.walk_agrees`), whatever is done
about an output that is found.

Where the state of the target changes, two sessions are compared step by step: one that
keeps outputs, and one that does not. `Matches` is that comparison.
-/

namespace TypedQuery

variable {σ ω α β : Type}

/-! ## Walks that reuse outputs -/

/-- The walk, with what is done about an output that was kept for the node. -/
def RuleTable.walk (reuse : Node → ω → Emission σ ω ω) (table : RuleTable σ ω) :
    Nat → Node → Emission σ ω ω
  | 0, n => throw (.internal (n.kind.name ++ " is nested too deeply"))
  | depth + 1, n => do
    match ← Emission.known? n with
    | some output => reuse n output
    | none =>
      let (_, rule) ← table.resolve n.kind
      let output ← rule (walk reuse table depth) n
      Emission.remember n output
      return output

theorem RuleTable.emitWithin_eq_walk (table : RuleTable σ ω) (depth : Nat) :
    table.emitWithin depth = table.walk (fun _ output => return output) depth := by
  induction depth with
  | zero => rfl
  | succ depth ih =>
      funext n
      rw [emitWithin, ih]
      rfl

/-! ## Agreement -/

/-- All outputs that are kept are allowed. -/
def Keeps (kept : Node → ω → Prop) (memo : Option (List (Node × ω))) : Prop :=
  ∀ entries, memo = some entries → ∀ entry ∈ entries, kept entry.1 entry.2

theorem keeps_none (kept : Node → ω → Prop) : Keeps kept none := by
  intro entries h
  cases h

theorem keeps_nil (kept : Node → ω → Prop) : Keeps kept (some []) := by
  intro entries h
  cases h
  intro entry hentry
  cases hentry

theorem keeps_cons {kept : Node → ω → Prop} {memo : Option (List (Node × ω))}
    {n : Node} {o : ω} (h : Keeps kept memo) (ho : kept n o) :
    Keeps kept (memo.map ((n, o) :: ·)) := by
  intro entries hentries
  cases memo with
  | none => cases hentries
  | some old =>
      cases hentries
      intro entry hentry
      rcases List.mem_cons.1 hentry with rfl | hentry
      · exact ho
      · exact h old rfl entry hentry

/-- Whichever allowed outputs are kept, the step gives `r`, leaves the target in its state
and keeps only allowed outputs. -/
def Agrees (kept : Node → ω → Prop) (τ : σ) (step : Emission σ ω α)
    (r : Except Error α) : Prop :=
  ∀ memo, Keeps kept memo → ∃ after,
    Keeps kept after ∧ (memo = none → after = none) ∧ step.run ⟨τ, memo⟩ = (r, ⟨τ, after⟩)

namespace Agrees

variable {kept : Node → ω → Prop} {τ : σ}

/-- Steps that do not touch the session. -/
theorem of_run {step : Emission σ ω α} {r : Except Error α}
    (h : ∀ memo, step.run ⟨τ, memo⟩ = (r, ⟨τ, memo⟩)) : Agrees kept τ step r := by
  intro memo hmemo
  exact ⟨memo, hmemo, id, h memo⟩

theorem bind_error {step : Emission σ ω α} {next : α → Emission σ ω β} {e : Error}
    (h : Agrees kept τ step (.error e)) : Agrees kept τ (step >>= next) (.error e) := by
  intro memo hmemo
  obtain ⟨after, hafter, hnone, hrun⟩ := h memo hmemo
  exact ⟨after, hafter, hnone, by rw [Emission.run_bind, hrun]⟩

theorem bind_ok {step : Emission σ ω α} {next : α → Emission σ ω β} {a : α}
    {r : Except Error β} (h : Agrees kept τ step (.ok a))
    (hnext : Agrees kept τ (next a) r) :
    Agrees kept τ (step >>= next) r := by
  intro memo hmemo
  obtain ⟨middle, hmiddle, hnone, hrun⟩ := h memo hmemo
  obtain ⟨after, hafter, hnone', hrun'⟩ := hnext middle hmiddle
  exact ⟨after, hafter, fun h => hnone' (hnone h),
    by rw [Emission.run_bind, hrun]; exact hrun'⟩

end Agrees

/-- A step that consults other nodes gives what follows from their results. `T`
are the states that the target may be in; only a step that does not look may
run in different ones. -/
theorem Consults.agrees {looks : Prop} {S : Node → Prop} {T : σ → Prop}
    (kept : Node → ω → Prop) (answer : Node → Except Error ω)
    (hT : looks → ∀ τ τ', T τ → T τ' → τ = τ')
    {step : (Node → Emission σ ω ω) → Emission σ ω α} (h : Consults looks S step) :
    ∃ r, ∀ τ, T τ → ∀ emit : Node → Emission σ ω ω,
      (∀ m, S m → Agrees kept τ (emit m) (answer m)) → Agrees kept τ (step emit) r := by
  induction h with
  | pure a => exact ⟨.ok a, fun τ _ emit _ => .of_run fun memo => rfl⟩
  | throw e => exact ⟨.error e, fun τ _ emit _ => .of_run fun memo => rfl⟩
  | @ask m hm => exact ⟨answer m, fun τ _ emit hemit => hemit m hm⟩
  | look hlooks =>
      by_cases hinhabited : ∃ τ, T τ
      · obtain ⟨τ, hτ⟩ := hinhabited
        refine ⟨.ok τ, fun τ' hτ' emit _ => ?_⟩
        rw [hT hlooks τ' τ hτ' hτ]
        exact .of_run fun memo => rfl
      · exact ⟨.error (.internal ""), fun τ hτ => absurd ⟨τ, hτ⟩ hinhabited⟩
  | bind _ _ ihFirst ihAfter =>
      obtain ⟨r, hr⟩ := ihFirst
      cases r with
      | error e => exact ⟨.error e, fun τ hτ emit hemit => (hr τ hτ emit hemit).bind_error⟩
      | ok a =>
          obtain ⟨r', hr'⟩ := ihAfter a
          exact ⟨r',
            fun τ hτ emit hemit => (hr τ hτ emit hemit).bind_ok (hr' τ hτ emit hemit)⟩

/-! ## Agreement of walks -/

namespace RuleTable

/-- The rules for nodes of a class consult only nodes of the class that are less deep. -/
def ConsultsWithin (table : RuleTable σ ω) (looks : Prop) (G : Node → Prop) : Prop :=
  ∀ n, G n → ∀ k rule, table.resolve n.kind = .ok (k, rule) →
    Consults looks (fun m => G m ∧ m.depth < n.depth) fun emit => rule emit n

/-- What a walk without outputs gives. -/
def answer (table : RuleTable σ ω) (τ : σ) (n : Node) : Except Error ω :=
  ((table.emit n).run ⟨τ, none⟩).1

/-- The outputs that may be kept for nodes of a class while the target is in a state. -/
def Right (table : RuleTable σ ω) (G : Node → Prop) (τ : σ) (n : Node) (o : ω) : Prop :=
  G n ∧ table.answer τ n = .ok o

end RuleTable

theorem Node.depth_pos (n : Node) : 0 < n.depth := by
  cases n with
  | mk kind fields attributes => simp [Node.depth]

namespace RuleTable

variable {table : RuleTable σ ω} {G : Node → Prop} {reuse : Node → ω → Emission σ ω ω}

/-- One step of the walk: if the node was met before, the output that was kept is right,
and otherwise the rule is asked. -/
theorem walk_agrees_step {kept : Node → ω → Prop} {τ : σ} {depth : Nat} {n : Node}
    {r : Except Error ω} (hkept : ∀ m o, kept m o → (m == n) = true → r = .ok o)
    (hreuse : ∀ o, r = .ok o → Agrees kept τ (reuse n o) (.ok o))
    (hright : ∀ o, r = .ok o → kept n o)
    (hrule : (∃ e, table.resolve n.kind = .error e ∧ r = .error e)
      ∨ ∃ k rule, table.resolve n.kind = .ok (k, rule)
        ∧ Agrees kept τ (rule (table.walk reuse depth) n) r) :
    Agrees kept τ (table.walk reuse (depth + 1) n) r := by
  intro memo hmemo
  rw [walk, Emission.run_bind, Emission.run_known?]
  simp only []
  cases hfind : memo.bind fun memo => (memo.find? (·.1 == n)).map (·.2) with
  | some o =>
      obtain ⟨entries, rfl, hentry⟩ := Option.bind_eq_some_iff.1 hfind
      obtain ⟨entry, hfound, rfl⟩ := Option.map_eq_some_iff.1 hentry
      have hequal := List.find?_some hfound
      have hr : r = .ok entry.2 :=
        hkept entry.1 entry.2
          (hmemo entries rfl entry (List.mem_of_find?_eq_some hfound)) hequal
      rw [hr]
      exact hreuse entry.2 hr _ hmemo
  | none =>
      rcases hrule with ⟨e, hresolve, rfl⟩ | ⟨k, rule, hresolve, hagrees⟩
      · refine ⟨memo, hmemo, id, ?_⟩
        simp only [Emission.run_bind, hresolve, Emission.run_lift]
      · obtain ⟨after, hafter, hnone, hrun⟩ := hagrees memo hmemo
        simp only [Emission.run_bind, hresolve, Emission.run_lift, hrun]
        cases r with
        | error e => exact ⟨after, hafter, hnone, rfl⟩
        | ok o =>
            refine ⟨after.map ((n, o) :: ·), keeps_cons hafter (hright o rfl), ?_, rfl⟩
            intro h
            rw [hnone h]
            rfl

/-- Where no output is kept so far, what a walk gives is what the rule of the node gives. -/
theorem walk_eq_ok {depth : Nat} {n : Node} {o : ω} {s after : Session σ ω}
    (hmemo : Keeps (fun _ _ => False) s.memo)
    (h : (table.walk reuse (depth + 1) n).run s = (.ok o, after)) :
    ∃ k rule middle, table.resolve n.kind = .ok (k, rule)
      ∧ (rule (table.walk reuse depth) n).run s = (.ok o, middle)
      ∧ middle.target = after.target := by
  rw [walk, Emission.run_bind, Emission.run_known?] at h
  have hnone : (s.memo.bind fun memo => (memo.find? (·.1 == n)).map (·.2)) = none := by
    rcases hs : s.memo with _ | entries
    · rfl
    · cases entries with
      | nil => rfl
      | cons entry rest => exact (hmemo _ hs entry List.mem_cons_self).elim
  rw [hnone] at h
  obtain ⟨found, hfound, h⟩ := Emission.run_lift_bind_eq_ok h
  obtain ⟨text, middle, hrule, h⟩ := Emission.run_bind_eq_ok h
  obtain ⟨_, last, hremember, h⟩ := Emission.run_bind_eq_ok h
  obtain ⟨rfl, rfl⟩ := Emission.run_pure_eq_ok h
  refine ⟨found.1, found.2, middle, hfound, hrule, ?_⟩
  cases hremember
  rfl

/-- Walks agree with the walk that keeps nothing. -/
theorem walk_agrees (looks : Prop) {T : σ → Prop} {τ₀ : σ} (hτ₀ : T τ₀)
    (hT : looks → ∀ τ τ', T τ → T τ' → τ = τ') (hconsults : table.ConsultsWithin looks G)
    (heq : ∀ n m, G n → G m → (n == m) = true → n = m)
    (hreuse : ∀ τ, T τ → ∀ n o, table.Right G τ₀ n o →
      Agrees (table.Right G τ₀) τ (reuse n o) (.ok o))
    {n : Node} (hn : G n) {depth : Nat} (hdepth : n.depth ≤ depth) {τ : σ} (hτ : T τ) :
    Agrees (table.Right G τ₀) τ (table.walk reuse depth n) (table.answer τ₀ n) := by
  induction hbound : n.depth using Nat.strongRecOn generalizing n depth τ reuse with
  | ind bound ih =>
      subst hbound
      have hpos := n.depth_pos
      obtain ⟨less, rfl⟩ : ∃ less, depth = less + 1 := ⟨depth - 1, by omega⟩
      obtain ⟨own, hown⟩ : ∃ own, n.depth = own + 1 := ⟨n.depth - 1, by omega⟩
      have hplain : ∀ τ, T τ → ∀ n o, table.Right G τ₀ n o →
          Agrees (table.Right G τ₀) τ (return o : Emission σ ω ω) (.ok o) :=
        fun τ _ n o _ => .of_run fun memo => rfl
      have hbelow : ∀ reuse' : Node → ω → Emission σ ω ω,
          (∀ τ, T τ → ∀ n o, table.Right G τ₀ n o →
            Agrees (table.Right G τ₀) τ (reuse' n o) (.ok o)) →
          ∀ less', own ≤ less' → ∀ τ, T τ → ∀ m, G m ∧ m.depth < n.depth →
            Agrees (table.Right G τ₀) τ (table.walk reuse' less' m) (table.answer τ₀ m) := by
        intro reuse' hreuse' less' hless τ hτ m hm
        exact ih m.depth hm.2 hreuse' hm.1 (by omega) hτ rfl
      -- What the rule gives does not depend on the walk that it is given.
      have hrule : ∃ r, ∀ reuse' : Node → ω → Emission σ ω ω,
          (∀ τ, T τ → ∀ n o, table.Right G τ₀ n o →
            Agrees (table.Right G τ₀) τ (reuse' n o) (.ok o)) →
          ∀ less', own ≤ less' → ∀ τ, T τ →
            ((∃ e, table.resolve n.kind = .error e ∧ r = .error e)
              ∨ ∃ k rule, table.resolve n.kind = .ok (k, rule)
                ∧ Agrees (table.Right G τ₀) τ (rule (table.walk reuse' less') n) r) := by
        cases hresolve : table.resolve n.kind with
        | error e => exact ⟨.error e, fun _ _ _ _ _ _ => Or.inl ⟨e, rfl, rfl⟩⟩
        | ok found =>
            obtain ⟨k, rule⟩ := found
            obtain ⟨r, hr⟩ := (hconsults n hn k rule hresolve).agrees
              (table.Right G τ₀) (table.answer τ₀) hT
            exact ⟨r, fun reuse' hreuse' less' hless τ hτ => Or.inr
              ⟨k, rule, rfl,
                hr τ hτ _ fun m hm => hbelow reuse' hreuse' less' hless τ hτ m hm⟩⟩
      obtain ⟨r, hr⟩ := hrule
      have hanswer : table.answer τ₀ n = r := by
        have h := hr (fun _ o => return o) hplain own (Nat.le_refl _) τ₀ hτ₀
        rw [answer, emit, hown, emitWithin_eq_walk, walk, Emission.run_bind,
          Emission.run_known?]
        simp only [Option.bind_none]
        rcases h with ⟨e, hresolve, rfl⟩ | ⟨k, rule, hresolve, hagrees⟩
        · simp only [Emission.run_bind, hresolve, Emission.run_lift]
        · obtain ⟨after, -, hnone, hrun⟩ := hagrees none (keeps_none _)
          simp only [Emission.run_bind, hresolve, Emission.run_lift, hrun]
          cases r <;> rfl
      have hstep := hr reuse hreuse less (by omega) τ hτ
      refine walk_agrees_step ?_ ?_ ?_ ?_
      · intro m o hm hmn
        rw [← heq m n hm.1 hn hmn]
        exact hm.2
      · intro o ho
        exact hreuse τ hτ n o ⟨hn, ho⟩
      · intro o ho
        exact ⟨hn, ho⟩
      · rw [hanswer]
        exact hstep

/-- The answer for a node is what its rule makes of the answers for others. -/
theorem answer_eq {looks : Prop} {T : σ → Prop} {τ : σ} (hτ : T τ)
    (hT : looks → ∀ τ τ', T τ → T τ' → τ = τ') (hconsults : table.ConsultsWithin looks G)
    (heq : ∀ n m, G n → G m → (n == m) = true → n = m) {n : Node} (hn : G n) {k : NodeKind}
    {rule : Rule σ ω} (hresolve : table.resolve n.kind = .ok (k, rule)) :
    table.answer τ n = ((rule (fun m => liftM (table.answer τ m)) n).run ⟨τ, none⟩).1 := by
  obtain ⟨less, hless⟩ : ∃ less, n.depth = less + 1 :=
    ⟨n.depth - 1, by have := n.depth_pos; omega⟩
  obtain ⟨r, hr⟩ := (hconsults n hn k rule hresolve).agrees
    (table.Right G τ) (table.answer τ) hT
  obtain ⟨after, -, -, hrun⟩ := hr τ hτ (table.walk (fun _ o => return o) less)
    (fun m hm => walk_agrees looks hτ hT hconsults heq
      (fun _ _ _ _ _ => .of_run fun _ => rfl)
      hm.1 (by have := hm.2; omega) hτ) none (keeps_none _)
  obtain ⟨after', -, -, hrun'⟩ := hr τ hτ (fun m => liftM (table.answer τ m))
    (fun m _ => .of_run fun _ => rfl) none (keeps_none _)
  rw [hrun', answer, emit, hless, emitWithin_eq_walk, walk, Emission.run_bind,
    Emission.run_known?]
  simp only [Option.bind_none, Emission.run_bind, hresolve, Emission.run_lift, hrun]
  cases r <;> rfl

end RuleTable

/-! ## Two sessions, step by step -/

/-- The two sessions have the target in the same state. -/
def Session.SameTarget (s t : Session σ ω) : Prop := s.target = t.target

/-- Besides, one keeps outputs but has none so far, and the other keeps none. -/
def Session.Fresh (s t : Session σ ω) : Prop :=
  s.target = t.target ∧ s.memo = some [] ∧ t.memo = none

/-- Besides, one keeps only outputs that are right for the state of the target, and
the other keeps none. -/
def Session.Steady (kept : σ → Node → ω → Prop) (s t : Session σ ω) : Prop :=
  s.target = t.target ∧ Keeps (kept s.target) s.memo ∧ t.memo = none

theorem Session.Fresh.steady {s t : Session σ ω} (kept : σ → Node → ω → Prop)
    (h : s.Fresh t) :
    s.Steady kept t :=
  ⟨h.1, by rw [h.2.1]; exact keeps_nil _, h.2.2⟩

/-- From sessions related by `pre`, the two steps give the same and end in
sessions related by `post`. -/
def Matches (pre post : Session σ ω → Session σ ω → Prop)
    (step other : Emission σ ω α) : Prop :=
  ∀ s t, pre s t → (step.run s).1 = (other.run t).1 ∧ post (step.run s).2 (other.run t).2

namespace Matches

variable {pre middle post : Session σ ω → Session σ ω → Prop} {step other : Emission σ ω α}

theorem weaken {pre' post' : Session σ ω → Session σ ω → Prop}
    (h : Matches pre post step other) (hpre : ∀ s t, pre' s t → pre s t)
    (hpost : ∀ s t, post s t → post' s t) :
    Matches pre' post' step other :=
  fun s t hst => ⟨(h s t (hpre s t hst)).1, hpost _ _ (h s t (hpre s t hst)).2⟩

/-- The second step is not reached after a failure, so what relates the sessions by
then has to be enough. -/
theorem bind {next next' : α → Emission σ ω β} (h : Matches pre middle step other)
    (hpost : ∀ s t, middle s t → post s t)
    (hnext : ∀ a, Matches middle post (next a) (next' a)) :
    Matches pre post (step >>= next) (other >>= next') := by
  intro s t hst
  obtain ⟨hresult, hafter⟩ := h s t hst
  rw [Emission.run_bind, Emission.run_bind]
  rcases hs : step.run s with ⟨result, s'⟩
  rcases ht : other.run t with ⟨result', t'⟩
  rw [hs, ht] at hresult hafter
  simp only [] at hresult hafter
  subst hresult
  cases result with
  | error e => exact ⟨rfl, hpost _ _ hafter⟩
  | ok a => exact hnext a s' t' hafter

theorem lift (x : Except Error α) :
    Matches pre pre (liftM x : Emission σ ω α) (liftM x : Emission σ ω α) :=
  fun _ _ hst => ⟨rfl, hst⟩

theorem lift_bind {x : Except Error α} {next next' : α → Emission σ ω β}
    (hpost : ∀ s t, pre s t → post s t)
    (hnext : ∀ a, x = .ok a → Matches pre post (next a) (next' a)) :
    Matches pre post ((liftM x : Emission σ ω α) >>= next)
      ((liftM x : Emission σ ω α) >>= next') := by
  cases x with
  | error e => exact fun s t hst => ⟨rfl, hpost s t hst⟩
  | ok a => exact hnext a rfl

theorem result (a : α) (hpost : ∀ s t, pre s t → post s t) :
    Matches pre post (pure a : Emission σ ω α) (pure a) :=
  fun s t hst => ⟨rfl, hpost s t hst⟩

theorem failure (e : Error) (hpost : ∀ s t, pre s t → post s t) :
    Matches pre post (MonadExcept.throw e : Emission σ ω α) (MonadExcept.throw e) :=
  fun s t hst => ⟨rfl, hpost s t hst⟩

theorem target_bind {next next' : σ → Emission σ ω β}
    (hsame : ∀ s t, pre s t → s.target = t.target)
    (hnext : ∀ τ, Matches pre post (next τ) (next' τ)) :
    Matches pre post (Emission.target >>= next) (Emission.target >>= next') := by
  intro s t hst
  rw [Emission.run_bind, Emission.run_bind, Emission.run_target, Emission.run_target,
    ← hsame s t hst]
  exact hnext s.target s t hst

/-- Steps that consult other nodes, in sessions in which these agree. -/
theorem of_consults {looks : Prop} {S : Node → Prop} {kept : σ → Node → ω → Prop}
    {answer : σ → Node → Except Error ω} {step : (Node → Emission σ ω ω) → Emission σ ω α}
    (h : Consults looks S step) {emit emit' : Node → Emission σ ω ω}
    (hemit : ∀ τ m, S m → Agrees (kept τ) τ (emit m) (answer τ m))
    (hemit' : ∀ τ m, S m → Agrees (kept τ) τ (emit' m) (answer τ m)) :
    Matches (Session.Steady kept) (Session.Steady kept) (step emit) (step emit') := by
  rintro ⟨τ, memo⟩ ⟨τ', memo'⟩ ⟨hsame, hkeeps, hnone⟩
  simp only [] at hsame hkeeps hnone
  subst hsame hnone
  obtain ⟨r, hr⟩ := h.agrees (T := (· = τ)) (kept τ) (answer τ)
    fun _ a b ha hb => ha.trans hb.symm
  obtain ⟨after, hafter, -, hrun⟩ := hr τ rfl emit (fun m hm => hemit τ m hm) memo hkeeps
  obtain ⟨after', -, hnone, hrun'⟩ :=
    hr τ rfl emit' (fun m hm => hemit' τ m hm) none (keeps_none _)
  rw [hrun, hrun', hnone rfl]
  exact ⟨rfl, rfl, hafter, rfl⟩

theorem change (f : σ → Except Error (α × σ)) :
    Matches Session.Fresh Session.Fresh (Emission.change f : Emission σ ω α)
      (Emission.change f) := by
  rintro ⟨τ, memo⟩ ⟨τ', memo'⟩ ⟨hsame, hmemo, hmemo'⟩
  simp only [] at hsame hmemo hmemo'
  subst hsame hmemo hmemo'
  cases hf : f τ with
  | error e =>
      have hrun : ∀ memo, (Emission.change f : Emission σ ω α).run ⟨τ, memo⟩
          = (.error e, ⟨τ, memo⟩) := by
        intro memo
        simp only [Emission.change, Emission.run_bind, Emission.run_target, hf,
          Emission.run_lift]
      rw [hrun, hrun]
      exact ⟨rfl, rfl, rfl, rfl⟩
  | ok found =>
      have hrun : ∀ memo, (Emission.change f : Emission σ ω α).run ⟨τ, memo⟩
          = (.ok found.1, ⟨found.2, memo⟩) := by
        intro memo
        simp only [Emission.change, Emission.run_bind, Emission.run_target, hf,
          Emission.run_lift]
        rfl
      rw [hrun, hrun]
      exact ⟨rfl, rfl, rfl, rfl⟩

/-- A step in isolation starts from nothing, and nothing that it keeps remains. -/
theorem attempt_isolated (h : Matches Session.Fresh Session.SameTarget step other) :
    Matches Session.Fresh Session.Fresh (Emission.attempt (Emission.isolated step))
      (Emission.attempt (Emission.isolated other)) := by
  rintro ⟨τ, memo⟩ ⟨τ', memo'⟩ ⟨hsame, hmemo, hmemo'⟩
  simp only [] at hsame hmemo hmemo'
  subst hsame hmemo hmemo'
  obtain ⟨hresult, hafter⟩ := h ⟨τ, some []⟩ ⟨τ, none⟩ ⟨rfl, rfl, rfl⟩
  exact ⟨congrArg Except.ok hresult, hafter, rfl, rfl⟩

end Matches

end TypedQuery
