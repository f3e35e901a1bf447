import Mathlib.Data.List.Pairwise
import TypedQuery.Proofs.Scoping
import TypedQuery.Proofs.Sql.Carried

/-!
# The order of a scope

A scope is listed in some order, and so are the renamings in it, but no table and no column
stands in it twice. All that is ever asked of it is how a table is reached and what a
column is called (`Statement.Same`), and whatever is done to statements keeps them the same
in this respect. So a walk whose rules find the scopes in any other order writes the same
text (`emitWithin_relisted`).

Nor does it matter in which order items and the tables of subqueries come into a scope: how
each table is reached then is said by `Statement.Settles`.
-/

namespace TypedQuery

namespace Sql

open Emission

/-! ## Lookups in another order -/

theorem find?_perm {α : Type} {p : α → Bool} {xs ys : List α} (h : xs.Perm ys)
    (hone : ∀ x ∈ ys, ∀ y ∈ ys, p x → p y → x = y) : xs.find? p = ys.find? p := by
  cases hx : xs.find? p with
  | none =>
      have hnone : ∀ y ∈ ys, ¬ p y := fun y hy => List.find?_eq_none.1 hx y (h.mem_iff.2 hy)
      exact (List.find?_eq_none.2 hnone).symm
  | some x =>
      have hmem := h.mem_iff.1 (List.mem_of_find?_eq_some hx)
      have hpx := List.find?_some hx
      obtain ⟨y, hy⟩ := Option.isSome_iff_exists.1 (List.find?_isSome.2 ⟨x, hmem, hpx⟩)
      rw [hy, hone x hmem y (List.mem_of_find?_eq_some hy) hpx (List.find?_some hy)]

theorem Renames.newName?_perm {renames others : Renames} (hkeys : (renames.map (·.1)).Nodup)
    (h : others.Perm renames) (column : String) :
    others.newName? column = renames.newName? column := by
  refine congrArg (Option.map _) (find?_perm h fun x hx y hy hpx hpy => ?_)
  exact List.inj_on_of_nodup_map hkeys hx hy
    ((beq_iff_eq.1 hpx).trans (beq_iff_eq.1 hpy).symm)

instance : Std.Symm fun x y : Node × Reach => (x.1 == y.1) = false :=
  ⟨fun _ _ h => BEq.comm.trans h⟩

theorem Scope.Distinct.perm {scope other : Scope} (hscope : scope.Distinct)
    (h : other.Perm scope) : other.Distinct :=
  (h.pairwise_iff fun h => BEq.comm.trans h).2 hscope

theorem Scope.reach?_perm {scope other : Scope} (hscope : scope.Distinct)
    (h : other.Perm scope) (table : Node) :
    other.reach? table = scope.reach? table := by
  refine congrArg (Option.map _) (find?_perm h fun x hx y hy hpx hpy => ?_)
  by_contra hne
  have hdistinct := hscope.forall hx hy hne
  rw [BEq.trans hpx (BEq.symm hpy)] at hdistinct
  cases hdistinct

/-! ## The same scope -/

/-- The same way to reach a table, with the same new names. -/
inductive Reach.Same : Reach → Reach → Prop
  | through {label : String} {direct : Bool} {renames others : Renames}
      (h : ∀ column, renames.newName? column = others.newName? column) :
      Same (.through label direct renames) (.through label direct others)
  | ambiguous : Same .ambiguous .ambiguous

namespace Reach.Same

variable {r r' : Reach}

theorem refl : ∀ r : Reach, r.Same r
  | .through .. => .through fun _ => rfl
  | .ambiguous => .ambiguous

theorem trans {r'' : Reach} (h : r.Same r') (h' : r'.Same r'') : r.Same r'' := by
  cases h with
  | through h =>
      cases h' with | through h' => exact .through fun column => (h column).trans (h' column)
  | ambiguous => exact h'

theorem isDirect (h : r.Same r') : r.isDirect = r'.isDirect := by cases h <;> rfl

theorem exported (h : r.Same r') (label : String) :
    (r.exported label).Same (r'.exported label) := by
  cases h with
  | through h => exact .through h
  | ambiguous => exact .ambiguous

theorem forgetRenames (h : r.Same r') : r.forgetRenames.Same r'.forgetRenames := by
  cases h with
  | through => exact .through fun _ => rfl
  | ambiguous => exact .ambiguous

/-- What columns are called afterwards depends on what they were called and on the changes
only. -/
theorem rename (h : r.Same r') (item : String) {changes others : Renames}
    (hchanges : ∀ column, changes.newName? column = others.newName? column) :
    (r.rename item changes).Same (r'.rename item others) := by
  cases h with
  | ambiguous => exact .ambiguous
  | through h =>
      have happly : changes.apply = others.apply :=
        funext fun column => congrArg (Option.getD · column) (hchanges column)
      rw [Reach.rename, Reach.rename]
      split
      · refine .through fun column => ?_
        rw [Renames.newName?_andThen, Renames.newName?_andThen, h, hchanges, happly]
      · exact .through h

theorem beside {known known' : Option Reach} (label : String)
    (hknown : Option.Rel Reach.Same known known') (h : r.Same r') :
    (Reach.beside label known r).Same (Reach.beside label known' r') := by
  cases hknown with
  | none => exact h.exported label
  | some hknown =>
      rw [Reach.beside, Reach.beside, hknown.isDirect]
      split
      · exact hknown
      · exact .ambiguous

end Reach.Same

/-- The same tables, each once, and each reached in the same way. -/
structure Scope.Same (scope other : Scope) : Prop where
  distinct : scope.Distinct
  distinct' : other.Distinct
  reach (table : Node) : Option.Rel Reach.Same (scope.reach? table) (other.reach? table)

namespace Scope.Same

variable {scope other : Scope}

theorem reach?_cases (h : scope.Same other) (table : Node) :
    scope.reach? table = none ∧ other.reach? table = none
      ∨ ∃ r r', scope.reach? table = some r ∧ other.reach? table = some r' ∧ r.Same r' := by
  have hreach := h.reach table
  revert hreach
  generalize scope.reach? table = found
  generalize other.reach? table = found'
  rintro (hsame | _)
  · exact .inr ⟨_, _, rfl, rfl, hsame⟩
  · exact .inl ⟨rfl, rfl⟩

theorem of_reach? (hscope : scope.Distinct) (hother : other.Distinct)
    (h : ∀ table, scope.reach? table = other.reach? table) : scope.Same other where
  distinct := hscope
  distinct' := hother
  reach table := by
    rw [h]
    cases other.reach? table with
    | none => exact .none
    | some reach => exact .some (.refl reach)

theorem of_perm (hother : other.Distinct) (h : scope.Perm other) : scope.Same other :=
  .of_reach? (hother.perm h) hother (reach?_perm hother h)

theorem refl (hscope : scope.Distinct) : scope.Same scope :=
  .of_reach? hscope hscope fun _ => rfl

theorem trans {scope' : Scope} (h : scope.Same other) (h' : other.Same scope') :
    scope.Same scope' where
  distinct := h.distinct
  distinct' := h'.distinct'
  reach table := by
    rcases h.reach?_cases table with ⟨hs, ho⟩ | ⟨r, r', hs, ho, hsame⟩
    · rw [hs, ← ho]
      exact h'.reach table
    · rcases h'.reach?_cases table with ⟨ho', -⟩ | ⟨_, r'', ho', hs', hsame'⟩
      · cases ho.symm.trans ho'
      · cases ho.symm.trans ho'
        rw [hs, hs']
        exact .some (hsame.trans hsame')

theorem all_trans {scopes others scopes' : List Scope}
    (h : List.Forall₂ Scope.Same scopes others)
    (h' : List.Forall₂ Scope.Same others scopes') :
    List.Forall₂ Scope.Same scopes scopes' := by
  induction h generalizing scopes' with
  | nil => exact h'
  | cons hscope _ ih =>
      cases h' with
      | cons hscope' hrest => exact .cons (hscope.trans hscope') (ih hrest)

theorem insert (h : scope.Same other) (t : Node) {r r' : Reach} (hr : r.Same r') :
    (scope.insert t r).Same (other.insert t r') where
  distinct := h.distinct.insert t r
  distinct' := h.distinct'.insert t r'
  reach table := by
    rw [reach?_insert, reach?_insert]
    split
    · exact .some hr
    · exact h.reach table

theorem bringIn {inside inside' : Scope} (h : scope.Same other)
    (hinside : inside.Same inside') (label : String) :
    Scope.Same (inside.foldl (fun scope (t, reach) => scope.bringIn label t reach) scope)
      (inside'.foldl (fun scope (t, reach) => scope.bringIn label t reach) other) where
  distinct := h.distinct.foldl_bringIn inside label
  distinct' := h.distinct'.foldl_bringIn inside' label
  reach table := by
    rw [reach?_foldl_bringIn _ hinside.distinct, reach?_foldl_bringIn _ hinside.distinct']
    rcases hinside.reach?_cases table with ⟨hi, hi'⟩ | ⟨r, r', hi, hi', hsame⟩
    · rw [hi, hi']
      exact h.reach table
    · rw [hi, hi']
      exact .some (.beside label (h.reach table) hsame)

theorem map (h : scope.Same other) {f g : Reach → Reach}
    (hf : ∀ r r', Reach.Same r r' → (f r).Same (g r')) :
    Scope.Same (scope.map fun (t, reach) => (t, f reach))
      (other.map fun (t, reach) => (t, g reach)) where
  distinct := h.distinct.map f
  distinct' := h.distinct'.map g
  reach table := by
    rw [reach?_map, reach?_map]
    rcases h.reach?_cases table with ⟨hs, ho⟩ | ⟨r, r', hs, ho, hsame⟩
    · rw [hs, ho]
      exact .none
    · rw [hs, ho]
      exact .some (hf _ _ hsame)

end Scope.Same

/-! ## The same statement -/

/-- The scopes hold the same tables, in whatever order. -/
structure Statement.Same (s t : Statement) : Prop where
  config : s.config = t.config
  labels : s.labels = t.labels
  scope : s.scope.Same t.scope
  outer : List.Forall₂ Scope.Same s.outer t.outer

/-- No table stands in a scope twice. -/
def Statement.Distinct (s : Statement) : Prop :=
  s.scope.Distinct ∧ ∀ scope ∈ s.outer, scope.Distinct

namespace Statement.Same

variable {s t : Statement}

theorem refl (h : s.Distinct) : s.Same s :=
  ⟨rfl, rfl, .refl h.1, List.forall₂_same.2 fun scope hs => .refl (h.2 scope hs)⟩

theorem trans {u : Statement} (h : s.Same t) (h' : t.Same u) : s.Same u where
  config := h.config.trans h'.config
  labels := h.labels.trans h'.labels
  scope := h.scope.trans h'.scope
  outer := Scope.Same.all_trans h.outer h'.outer

theorem distinct (h : s.Same t) : s.Distinct := by
  have houter := h.outer.imp fun _ _ hsame => And.intro hsame.distinct hsame
  exact ⟨h.scope.distinct, ((List.forall₂_and_left _ _).1 houter).1⟩

theorem quote (h : s.Same t) : s.quote = t.quote := by
  funext name
  rw [Statement.quote, Statement.quote, h.config]

theorem qualified (h : s.Same t) : s.qualified = t.qualified := by
  funext label column
  rw [Statement.qualified, Statement.qualified, h.quote]

theorem offset (h : s.Same t) :
    s.offset = t.offset := by rw [Statement.offset, Statement.offset, h.config]

theorem outputName (h : s.Same t) (table : Node) (column : String) :
    s.outputName table column = t.outputName table column := by
  rw [Statement.outputName, Statement.outputName]
  rcases h.scope.reach?_cases table with ⟨hs, ht⟩ | ⟨r, r', hs, ht, hsame⟩
  · rw [hs, ht]
  · rw [hs, ht]
    cases hsame with
    | through hnames => exact congrArg (Option.getD · column) (hnames column)
    | ambiguous => rfl

theorem labelOf (h : s.Same t) (table : Node) : s.labelOf table = t.labelOf table := by
  rw [Statement.labelOf, Statement.labelOf]
  rcases h.scope.reach?_cases table with ⟨hs, ht⟩ | ⟨r, r', hs, ht, hsame⟩
  · rw [hs, ht]
  · rw [hs, ht]
    cases hsame <;> rfl

/-- Columns are written alike. -/
theorem column (h : s.Same t) (table : Node) (name : String) :
    s.column table name = t.column table name := by
  rw [Statement.column, Statement.column, h.outputName, h.labelOf, h.quote, h.qualified]

/-! ### Changes of statements -/

theorem openScope (h : s.Same t) : s.openScope.Same t.openScope :=
  ⟨h.config, h.labels, .refl .nil, .cons h.scope h.outer⟩

theorem forgetRenames (h : s.Same t) : s.forgetRenames.Same t.forgetRenames :=
  ⟨h.config, h.labels, h.scope.map fun _ _ => .forgetRenames, h.outer⟩

theorem rename (h : s.Same t) (item : String) {changes others : Renames}
    (hchanges : ∀ column, changes.newName? column = others.newName? column) :
    (s.rename item changes).Same (t.rename item others) :=
  ⟨h.config, h.labels, h.scope.map fun _ _ hr => hr.rename item hchanges, h.outer⟩

theorem bringIn (h : s.Same t) {tables tables' : Scope} (htables : tables.Same tables')
    (label : String) :
    (s.bringIn tables label).Same (t.bringIn tables' label) :=
  ⟨h.config, h.labels, h.scope.bringIn htables label, h.outer⟩

theorem isDirect (h : s.Same t) (table : Node) :
    (s.scope.reach? table).map Reach.isDirect
      = (t.scope.reach? table).map Reach.isDirect := by
  rcases h.scope.reach?_cases table with ⟨hs, ht⟩ | ⟨r, r', hs, ht, hsame⟩
  · rw [hs, ht]
  · rw [hs, ht, Option.map_some, Option.map_some, hsame.isDirect]

end Statement.Same

/-! ## Steps from the same statement -/

/-- The statements are the same, and so are the texts that are kept. -/
def Relisted (s t : Session Statement String) : Prop :=
  s.target.Same t.target ∧ s.memo = t.memo

/-- From the same statement on, the steps give the same and end with the same statement. -/
abbrev OrderFree {α : Type} (step other : Writing α) : Prop :=
  Matches Relisted Relisted step other

namespace OrderFree

variable {α β : Type} {step other : Writing α}

theorem pure (a : α) : OrderFree (Pure.pure a) (Pure.pure a) := .result a fun _ _ => id

theorem throw (e : Error) :
    OrderFree (MonadExcept.throw e : Writing α) (MonadExcept.throw e) :=
  .failure e fun _ _ => id

theorem bind {next next' : α → Writing β} (h : OrderFree step other)
    (hnext : ∀ a, OrderFree (next a) (next' a)) :
    OrderFree (step >>= next) (other >>= next') := Matches.bind h (fun _ _ => id) hnext

theorem lift_bind {x : Except Error α} {next next' : α → Writing β}
    (hnext : ∀ a, x = .ok a → OrderFree (next a) (next' a)) :
    OrderFree ((liftM x : Writing α) >>= next) ((liftM x : Writing α) >>= next') :=
  Matches.lift_bind (fun _ _ => id) hnext

theorem target_bind {next next' : Statement → Writing β}
    (hnext : ∀ s t, s.Same t → OrderFree (next s) (next' t)) :
    OrderFree (target >>= next) (target >>= next') :=
  fun _ _ hst => hnext _ _ hst.1 _ _ hst

theorem update {f g : Statement → Statement} (h : ∀ s t, s.Same t → (f s).Same (g t)) :
    OrderFree (update f) (update g) := fun _ _ hst => ⟨rfl, h _ _ hst.1, hst.2⟩

/-- What a change of the statement gives may be listed in another order too. -/
theorem change_bind {f : Statement → Except Error (α × Statement)}
    {next next' : α → Writing β} {V : α → α → Prop}
    (hf : ∀ s t, s.Same t → (∃ e, f s = .error e ∧ f t = .error e)
      ∨ ∃ a b s' t', f s = .ok (a, s') ∧ f t = .ok (b, t') ∧ s'.Same t' ∧ V a b)
    (hnext : ∀ a b, V a b → OrderFree (next a) (next' b)) :
    OrderFree (change f >>= next) (change f >>= next') := by
  rintro ⟨s, memo⟩ ⟨t, memo'⟩ ⟨hst, rfl⟩
  rw [run_bind, run_bind, change, run_target_bind, run_target_bind]
  rcases hf s t hst with ⟨e, hs, ht⟩ | ⟨a, b, s', t', hs, ht, hst', hab⟩
  · rw [hs, ht]
    exact ⟨rfl, hst, rfl⟩
  · rw [hs, ht]
    exact hnext a b hab ⟨s', memo⟩ ⟨t', memo⟩ ⟨hst', rfl⟩

theorem attempt_isolated (h : OrderFree step other) :
    OrderFree (attempt (isolated step)) (attempt (isolated other)) := by
  rintro ⟨s, memo⟩ ⟨t, memo'⟩ ⟨hst, rfl⟩
  obtain ⟨hresult, hafter⟩ :=
    h ⟨s, memo.map fun _ => []⟩ ⟨t, memo.map fun _ => []⟩ ⟨hst, rfl⟩
  rw [run_attempt_isolated, run_attempt_isolated]
  exact ⟨congrArg Except.ok hresult, hafter.1, rfl⟩

/-- Steps that only ask for texts of nodes. -/
theorem of_consults {S : Node → Prop} {step : (Node → Writing String) → Writing α}
    (h : Consults False S step) {emit emit' : Node → Writing String}
    (hemit : ∀ m, S m → OrderFree (emit m) (emit' m)) :
    OrderFree (step emit) (step emit') := by
  induction h with
  | pure a => exact .pure a
  | throw e => exact .throw e
  | ask hm => exact hemit _ hm
  | look h => exact h.elim
  | bind _ _ ih ihNext => exact .bind ih ihNext

end OrderFree

/-! ## The rules -/

section

variable {n : Node} {emit emit' : Node → Writing String}
    (hemit : ∀ m : Node, m.Built → OrderFree (emit m) (emit' m))

include hemit

theorem consults_orderFree {α : Type}
    {step : (Node → Writing String) → Writing α} (h : n.Built)
    (hstep : Consults False (· ∈ n.children) step) : OrderFree (step emit) (step emit') :=
  .of_consults hstep fun m hm => hemit m (h.of_mem_children hm)

/-! ### Items -/

omit hemit in
theorem bind_alike (table : Node) (s t : Statement) (h : s.Same t) :
    (∃ e, s.bind table = .error e ∧ t.bind table = .error e)
      ∨ ∃ a b s' t', s.bind table = .ok (a, s') ∧ t.bind table = .ok (b, t')
        ∧ s'.Same t' ∧ a = b := by
  rw [Statement.bind, Statement.bind, h.isDirect]
  split
  · exact .inl ⟨_, rfl, rfl⟩
  · refine .inr ⟨_, _, _, _, rfl, rfl, ?_, by rw [h.labels]⟩
    exact ⟨h.config, congrArg (· + 1) h.labels,
      h.scope.insert table (by rw [h.labels]; exact .refl _), h.outer⟩

omit hemit in
theorem closeScope_alike (s t : Statement) (h : s.Same t) :
    (∃ e, s.closeScope = .error e ∧ t.closeScope = .error e)
      ∨ ∃ a b s' t', s.closeScope = .ok (a, s') ∧ t.closeScope = .ok (b, t') ∧ s'.Same t'
        ∧ Scope.Same a b := by
  obtain ⟨hconfig, hlabels, hscope, houter⟩ := h
  obtain ⟨config, scope, outer, labels⟩ := s
  obtain ⟨config', scope', outer', labels'⟩ := t
  cases houter with
  | nil => exact .inl ⟨_, rfl, rfl⟩
  | cons hfirst hrest =>
      exact .inr ⟨_, _, _, _, rfl, rfl, ⟨hconfig, hlabels, hfirst, hrest⟩, hscope⟩

theorem fromItem_orderFree {table : Node} (htable : table.Built) :
    OrderFree (fromItem emit table) (fromItem emit' table) := by
  unfold fromItem
  split
  · refine .lift_bind fun name _ => .target_bind fun s t hst => ?_
    rw [hst.quote]
    refine .change_bind (V := (· = ·)) (bind_alike table) ?_
    rintro label _ rfl
    exact .pure _
  · refine .bind (.update fun _ _ => .openScope) fun _ => ?_
    refine .bind (.attempt_isolated (hemit table htable)) fun subquery => ?_
    -- The scope of the subquery, as it is brought in, may be listed in any order.
    refine .change_bind closeScope_alike fun tables tables' htables => ?_
    refine .lift_bind fun text _ => .change_bind (V := (· = ·)) (bind_alike table) ?_
    rintro label _ rfl
    split
    · exact .bind (.update fun _ _ h => h.bringIn htables label) fun _ => .pure _
    · exact .pure _

theorem selectItem_orderFree (h : n.Built) :
    OrderFree (selectItem emit n) (selectItem emit' n) := by
  refine .bind (hemit n h) fun text => .lift_bind fun name _ =>
    .target_bind fun s t hst => ?_
  have houtput : s.outputName = t.outputName := funext₂ hst.outputName
  rw [hst.quote, houtput]
  split
  · exact .lift_bind fun table _ => .lift_bind fun column _ =>
      .bind (.pure _) fun _ => .pure _
  · exact .bind (.pure _) fun _ => .pure _

omit hemit in
theorem expand_orderFree (table : Node) : OrderFree (expand table) (expand table) := by
  refine .target_bind fun s t hst => ?_
  have hcolumns : expandColumns s table = expandColumns t table := by
    have hcolumn : expandColumn s = expandColumn t := by
      funext table column
      rw [expandColumn, expandColumn, hst.column, hst.outputName, hst.quote]
    rw [expandColumns, expandColumns, hcolumn]
  rcases hst.scope.reach?_cases table with ⟨hs, ht⟩ | ⟨r, r', hs, ht, hsame⟩
  · rw [hs, ht]
    exact .throw _
  · rw [hs, ht, hcolumns]
    cases hsame with
    | ambiguous => exact fun _ _ h => ⟨rfl, h⟩
    | @through label direct renames others hnames =>
        cases direct with
        | false => exact fun _ _ h => ⟨rfl, h⟩
        | true =>
            -- Whether a column has a new name at all is the same on both sides.
            cases renames with
            | nil =>
                cases others with
                | nil => exact .pure _
                | cons x _ => exact absurd (hnames x.1) (by simp [Renames.newName?])
            | cons x _ =>
                cases others with
                | nil => exact absurd (hnames x.1) (by simp [Renames.newName?])
                | cons _ _ => exact fun _ _ h => ⟨rfl, h⟩

theorem selectionItems_orderFree {ms : List Node} (hms : ∀ m ∈ ms, m.Built) :
    OrderFree (selectionItems emit ms) (selectionItems emit' ms) := by
  induction ms with
  | nil => exact .pure []
  | cons m rest ih =>
      obtain ⟨hm, hrest⟩ := List.forall_mem_cons.1 hms
      rw [selectionItems, selectionItems]
      split
      · exact .bind (expand_orderFree m) fun items => .bind (ih hrest) fun more => .pure _
      · refine .bind (selectItem_orderFree hemit hm) fun item => ?_
        exact .bind (.pure _) fun items => .bind (ih hrest) fun more => .pure _

theorem valueItems_orderFree {ms : List Node} (hms : ∀ m ∈ ms, m.Built) :
    OrderFree (valueItems emit ms) (valueItems emit' ms) := by
  induction ms with
  | nil => exact .pure []
  | cons m rest ih =>
      obtain ⟨hm, hrest⟩ := List.forall_mem_cons.1 hms
      exact .bind (selectItem_orderFree hemit hm) fun item =>
        .bind (ih hrest) fun items => .pure _

theorem filledItems_orderFree {replacements : Arg}
    (hvalues : replacements.AllNodes Node.Built) (label : String)
    (columns : List ColumnInfo) :
    OrderFree (filledItems emit label replacements columns)
      (filledItems emit' label replacements columns) := by
  induction columns with
  | nil => exact .pure []
  | cons column rest ih =>
      refine .target_bind fun s t hst => ?_
      rw [hst.quote, hst.qualified]
      simp only []
      cases hvalue : replacementFor replacements column with
      | none => exact .bind (.pure _) fun item => .bind ih fun items => .pure _
      | some value =>
          refine .bind (hemit value (hvalues value (mem_nodes_of_replacementFor hvalue)))
            fun text => ?_
          exact .bind (.pure _) fun item => .bind ih fun items => .pure _

/-! ### Rules for tables -/

theorem child_orderFree (h : n.Built) {name : String} {table : Node}
    (htable : n.child name = .ok table) :
    OrderFree (fromItem emit table) (fromItem emit' table) :=
  fromItem_orderFree hemit (h.of_mem_children (h.mem_children_of_child htable))

omit hemit in
theorem inMemoryTableRule_orderFree :
    OrderFree (inMemoryTableRule emit n) (inMemoryTableRule emit' n) := by
  refine .target_bind fun s t hst => ?_
  have hcell : cell s = cell t := funext₂ fun column value => by simp only [cell, hst.quote]
  have hcells : ∀ columns values, cells s columns values = cells t columns values := by
    intro columns values
    induction columns generalizing values with
    | nil => cases values <;> rfl
    | cons column columns ih =>
        cases values with
        | nil => rfl
        | cons value values => rw [cells, cells, ih, hcell]
  have hrow : rowText s = rowText t :=
    funext₂ fun columns values => by rw [rowText, rowText, hcells]
  rw [storedRows, storedRows, hrow]
  exact fun _ _ h => ⟨rfl, h⟩

theorem selectionRule_orderFree (h : n.Built) :
    OrderFree (selectionRule emit n) (selectionRule emit' n) := by
  refine .lift_bind fun table htable => .bind (child_orderFree hemit h htable) fun item => ?_
  refine .lift_bind fun selected hselected => ?_
  have hselected : ∀ m ∈ selected, m.Built :=
    fun m hm => h.of_mem_children (h.mem_children_of_childList hselected hm)
  refine .bind (selectionItems_orderFree hemit hselected) fun items => ?_
  refine .bind (consults_orderFree hemit h (h.sequence _)) fun filters => ?_
  refine .bind (consults_orderFree hemit h (h.sequence _)) fun orderBy => ?_
  split
  · exact .pure _
  · exact .bind (.update fun _ _ => .forgetRenames) fun _ => .pure _

theorem aggregationRule_orderFree (h : n.Built) :
    OrderFree (aggregationRule emit n) (aggregationRule emit' n) := by
  have hbuilt {name : String} {ms : List Node} (hms : n.childList name = .ok ms) :
    ∀ m ∈ ms, m.Built := fun m hm =>
    h.of_mem_children (h.mem_children_of_childList hms hm)
  refine .lift_bind fun table htable => .bind (child_orderFree hemit h htable) fun item => ?_
  refine .lift_bind fun keys hkeys =>
    .bind (valueItems_orderFree hemit (hbuilt hkeys)) fun keyItems => ?_
  refine .lift_bind fun metrics hmetrics =>
    .bind (valueItems_orderFree hemit (hbuilt hmetrics)) fun metricItems => ?_
  exact .bind (consults_orderFree hemit h (h.sequence _)) fun filters => .pure _

theorem limitRule_orderFree (h : n.Built) :
    OrderFree (limitRule emit n) (limitRule emit' n) :=
  .lift_bind fun _ htable => .bind (child_orderFree hemit h htable) fun _ =>
    .lift_bind fun _ _ => .lift_bind fun _ _ =>
    .pure _

theorem distinctRule_orderFree (h : n.Built) :
    OrderFree (distinctRule emit n) (distinctRule emit' n) :=
  .lift_bind fun _ htable => .bind (child_orderFree hemit h htable) fun _ => .pure _

theorem dropNullsRule_orderFree (h : n.Built) :
    OrderFree (dropNullsRule emit n) (dropNullsRule emit' n) := by
  refine .lift_bind fun table htable => .bind (child_orderFree hemit h htable) fun item => ?_
  refine .target_bind fun s t hst => ?_
  rw [hst.qualified]
  simp only []
  split
  · refine .bind (consults_orderFree hemit h (h.sequence _)) fun subset => ?_
    split
    · exact .pure _
    · exact .lift_bind fun _ _ => .pure _
  · refine .lift_bind fun schema _ => .bind (.pure _) fun subset => ?_
    split
    · exact .pure _
    · exact .lift_bind fun _ _ => .pure _

theorem fillNullsRule_orderFree (h : n.Built) :
    OrderFree (fillNullsRule emit n) (fillNullsRule emit' n) := by
  refine .lift_bind fun table htable => .lift_bind fun schema _ =>
    .lift_bind fun replacements hfield => ?_
  have hvalues : replacements.AllNodes Node.Built := fun m hm =>
    h.of_mem_children (h.mem_children_of_get? (Node.field_eq_ok hfield) hm)
  cases unknownColumn? schema replacements with
  | some name => exact .throw _
  | none =>
      refine .bind (child_orderFree hemit h htable) fun item => ?_
      exact .bind (filledItems_orderFree hemit hvalues _ _) fun items => .pure _

theorem joinRule_orderFree (h : n.Built) (kind : NodeKind) (keyword : String) :
    OrderFree (joinRule kind keyword emit n) (joinRule kind keyword emit' n) := by
  refine .lift_bind fun left hleft => .lift_bind fun right hright => ?_
  refine .bind (child_orderFree hemit h hleft) fun leftItem => ?_
  refine .bind (child_orderFree hemit h hright) fun rightItem => ?_
  refine .bind (consults_orderFree hemit h (h.sequence _)) fun predicates => ?_
  simp only []
  split
  · exact .pure _
  · refine .lift_bind fun leftSchema _ => .lift_bind fun rightSchema _ =>
      .target_bind fun s t hst => ?_
    have hitem : Sql.rightItem s = Sql.rightItem t := by
      funext label left column
      rw [Sql.rightItem, Sql.rightItem, hst.qualified, hst.quote]
    rw [hst.qualified, hitem]
    exact .bind (.update fun _ _ h => h.rename rightItem.2 fun _ => rfl) fun _ => .pure _

theorem tableRules_orderFree (h : n.Built) :
    ∀ x ∈ tableRules, OrderFree (x.2 emit n) (x.2 emit' n) := by
  have hstored : OrderFree (databaseTableRule emit n) (databaseTableRule emit' n) := by
    refine .target_bind fun s t hst => .lift_bind fun name _ => ?_
    rw [hst.quote]
    exact .pure _
  simp only [tableRules, List.forall_mem_cons]
  exact ⟨hstored, inMemoryTableRule_orderFree,
    consults_orderFree hemit h (sortKeyRule_reads n h), selectionRule_orderFree hemit h,
    aggregationRule_orderFree hemit h, limitRule_orderFree hemit h,
    distinctRule_orderFree hemit h, dropNullsRule_orderFree hemit h,
    fillNullsRule_orderFree hemit h, joinRule_orderFree hemit h _ _,
    joinRule_orderFree hemit h _ _, joinRule_orderFree hemit h _ _,
    joinRule_orderFree hemit h _ _, joinRule_orderFree hemit h _ _,
    joinRule_orderFree hemit h _ _, fun _ hx => absurd hx List.not_mem_nil⟩

/-! ### Rules for values -/

theorem substringRule_orderFree (h : n.Built) :
    OrderFree (substringRule emit n) (substringRule emit' n) := by
  refine .target_bind fun s t hst => ?_
  rw [hst.offset]
  refine .bind (consults_orderFree hemit h (h.field "arg")) fun arg => ?_
  refine .bind (consults_orderFree hemit h (h.field "start")) fun start => ?_
  exact .bind (consults_orderFree hemit h (h.field? "length")) fun length => .pure _

theorem findRule_orderFree (h : n.Built) :
    OrderFree (findRule emit n) (findRule emit' n) := by
  unfold findRule
  split
  · exact .throw _
  · refine .target_bind fun s t hst => ?_
    rw [hst.offset]
    refine .bind (consults_orderFree hemit h (h.field "arg")) fun haystack => ?_
    refine .bind (consults_orderFree hemit h (h.field "substr")) fun needle => ?_
    exact .bind (consults_orderFree hemit h (searchStart_consults h _)) fun start => .pure _

theorem findInSetRule_orderFree (h : n.Built) :
    OrderFree (findInSetRule emit n) (findInSetRule emit' n) := by
  refine .bind (consults_orderFree hemit h (h.field "needle")) fun needle => ?_
  refine .lift_bind fun nodes _ => .lift_bind fun values _ => .target_bind fun s t hst => ?_
  rw [hst.offset]
  exact .pure _

omit hemit in
theorem columnRule_orderFree : OrderFree (columnRule emit n) (columnRule emit' n) := by
  refine .target_bind fun s t hst => .lift_bind fun table _ => .lift_bind fun name _ => ?_
  rw [hst.column]
  exact fun _ _ h => ⟨rfl, h⟩

/-- A rule that looks at the statement asks for a column or for where positions are counted
from. -/
theorem looking_orderFree (h : n.Built) {k : NodeKind} {rule : SqlRule}
    (hlooks : Looks n.kind) (hresolve : rules.resolve n.kind = .ok (k, rule)) :
    OrderFree (rule emit n) (rule emit' n) := by
  have hkind : n.kind = .tableColumn ∨ n.kind = .substring ∨ n.kind = .stringFind
      ∨ n.kind = .findInSet := by
    simpa [Looks] using hlooks
  rcases hkind with hk | hk | hk | hk <;> rw [hk] at hresolve <;> cases hresolve
  · show OrderFree (columnRule emit n) (columnRule emit' n)
    exact columnRule_orderFree
  · exact substringRule_orderFree hemit h
  · exact findRule_orderFree hemit h
  · exact findInSetRule_orderFree hemit h

omit hemit in
theorem eq_of_looks {kind k : NodeKind} (hk : k ∈ kind.lineage)
    (hlooks : Looks k) : kind = k := by
  have h : ∀ kind ∈ NodeKind.all, ∀ k ∈ kind.lineage, Looks k → kind = k := by
    set_option maxRecDepth 2000 in decide
  exact h kind kind.mem_all k hk hlooks

theorem rule_orderFree (h : n.Built) {k : NodeKind} {rule : SqlRule}
    (hresolve : rules.resolve n.kind = .ok (k, rule)) :
    OrderFree (rule emit n) (rule emit' n) := by
  by_cases hlooks : Looks n.kind
  · exact looking_orderFree hemit h hlooks hresolve
  · obtain ⟨hlineage, hmem | ⟨hmem, -⟩ | heq⟩ := mem_of_resolve hresolve
    · refine consults_orderFree hemit h
        ((plainRules_read _ hmem n h).mono (fun hk => hlooks ?_) fun _ => id)
      rw [eq_of_looks hlineage hk]
      exact hk
    · exact tableRules_orderFree hemit h _ hmem
    · cases heq
      exact .throw _

end

/-! ## Walks that find the scopes in another order -/

end Sql

namespace RuleTable

variable {σ ω : Type} (f : Rule σ ω → Rule σ ω) (table : RuleTable σ ω)

/-- The table with something done to every rule. -/
def mapRules : RuleTable σ ω :=
  { table with rules := table.rules.map fun (kind, rule) => (kind, f rule) }

theorem rule?_mapRules (kind : NodeKind) :
    (table.mapRules f).rule? kind = (table.rule? kind).map f := by
  simp [rule?, mapRules, List.find?_map, Function.comp_def]

theorem nearest?_mapRules (kinds : List NodeKind) :
    (table.mapRules f).nearest? kinds = (table.nearest? kinds).map fun found =>
      (found.1, f found.2) := by
  induction kinds with
  | nil => rfl
  | cons kind rest ih =>
      rw [nearest?, nearest?, rule?_mapRules, ih]
      cases table.rule? kind <;> rfl

/-- The same rules are resolved. -/
theorem resolve_mapRules (kind : NodeKind) :
    (table.mapRules f).resolve kind = (table.resolve kind).map fun found =>
      (found.1, f found.2) := by
  rw [resolve, resolve, nearest?_mapRules]
  cases table.nearest? kind.lineage <;> rfl

end RuleTable

namespace Sql

open Emission

/-- Whatever it does to a statement, it only lists the scopes in another order. -/
def Relists (change : Node → Statement → Statement) : Prop :=
  ∀ n s, s.Distinct → (change n s).Same s

/-- The rule, for which the scopes may be listed in another order each time that it is
asked for a node, and again when it is done. -/
def relisting (before after : Node → Statement → Statement) (rule : SqlRule) : SqlRule :=
  fun emit n => do
  update (before n)
  let text ← rule emit n
  update (after n)
  return text

/-- Compiling with scopes that may be listed in any order at any time. -/
def compileRelisting (before after : Node → Statement → Statement)
    (config : Config) (n : Node) :
    Except Error String :=
  (((rules.mapRules (relisting before after)).emit n).run
    (Session.start { config := config.sql } config.compiler.memoize)).1

section

variable {before after : Node → Statement → Statement} (hbefore : Relists before)
    (hafter : Relists after)

include hbefore hafter

theorem relisting_orderFree {n : Node} {rule : SqlRule} {emit emit' : Node → Writing String}
    (h : OrderFree (rule emit n) (rule emit' n)) :
    OrderFree (relisting before after rule emit n) (rule emit' n) := by
  have hfirst : ∀ s t, s.Same t → (before n s).Same t :=
    fun s t hst => (hbefore n s hst.distinct).trans hst
  have hlast : ∀ s t, s.Same t → (after n s).Same t :=
    fun s t hst => (hafter n s hst.distinct).trans hst
  have hrule : OrderFree (rule emit n >>= fun text => update (after n) >>= fun _ =>
      pure text) (rule emit' n) := by
    rw [← bind_pure (rule emit' n)]
    exact .bind h fun text s t hst => ⟨rfl, hlast _ _ hst.1, hst.2⟩
  exact fun s t hst => hrule _ _ ⟨hfirst _ _ hst.1, hst.2⟩

/-- The walk writes the same from the same statement on. -/
theorem emitWithin_relisted {n : Node} (hn : n.Built) (depth : Nat) :
    OrderFree ((rules.mapRules (relisting before after)).emitWithin depth n)
      (rules.emitWithin depth n) := by
  induction depth generalizing n with
  | zero => exact .throw _
  | succ depth ih =>
      rw [RuleTable.emitWithin, RuleTable.emitWithin]
      have hknown : OrderFree (known? n : Writing (Option String)) (known? n) := by
        rintro ⟨s, memo⟩ ⟨t, memo'⟩ ⟨hst, rfl⟩
        exact ⟨rfl, hst, rfl⟩
      have hremember (text : String) : OrderFree (remember n text) (remember n text) := by
        rintro ⟨s, memo⟩ ⟨t, memo'⟩ ⟨hst, rfl⟩
        exact ⟨rfl, hst, rfl⟩
      refine .bind hknown fun found => ?_
      cases found with
      | some text => exact .pure text
      | none =>
          rw [RuleTable.resolve_mapRules]
          cases hresolve : rules.resolve n.kind with
          | error e => exact .throw e
          | ok found =>
              have hrule := rule_orderFree (n := n) (fun _ => ih) hn hresolve
              have hrest :=
                OrderFree.bind (relisting_orderFree hbefore hafter hrule) fun text =>
                .bind (hremember text) fun _ => .pure text
              exact hrest

theorem compileRelisting_eq {n : Node} (hn : n.Built) (config : Config) :
    compileRelisting before after config n = compile config n :=
  (emitWithin_relisted hbefore hafter hn n.depth _ _
    ⟨.refl ⟨.nil, fun _ h => absurd h List.not_mem_nil⟩, rfl⟩).1

end

/-- Every scope listed the other way round. -/
def Statement.reversed (s : Statement) : Statement :=
  { s with scope := s.scope.reverse, outer := s.outer.map List.reverse }

theorem Statement.Same.reversed {s : Statement} (h : s.Distinct) : s.reversed.Same s :=
  ⟨rfl, rfl, .of_perm h.1 (List.reverse_perm _), List.forall₂_map_left_iff.2
    (List.forall₂_same.2 fun scope hscope =>
    .of_perm (h.2 scope hscope) (List.reverse_perm _))⟩

/-! ## Scopes that are put together -/

/-- What is done to the innermost scope while the items of a `FROM` clause are written. -/
inductive FromStep where
  | bind (table : Node)
  | bringIn (tables : Scope) (label : String)

namespace FromStep

def item? : FromStep → Option Node
  | bind table => some table
  | bringIn _ _ => none

/-- How the step lets a table be reached, if it brings it in from a subquery. -/
def brings? (table : Node) : FromStep → Option Reach
  | bind _ => none
  | bringIn tables label => (tables.reach? table).map (·.exported label)

/-- No table is brought in twice from the same subquery. -/
def Distinct : FromStep → Prop
  | bind _ => True
  | bringIn tables _ => tables.Distinct

/-- The items of the clause, in their order. -/
def items (steps : List FromStep) : List Node := steps.filterMap item?

/-- How a table is reached through the subqueries that it is brought in from. -/
def broughtIn (table : Node) (steps : List FromStep) : List Reach :=
  steps.filterMap (brings? table)

theorem items_bind (t : Node) (rest : List FromStep) :
    items (.bind t :: rest) = t :: items rest := rfl

theorem items_bringIn (tables : Scope) (label : String) (rest : List FromStep) :
    items (.bringIn tables label :: rest) = items rest := rfl

theorem broughtIn_bind (table t : Node) (rest : List FromStep) :
    broughtIn table (.bind t :: rest) = broughtIn table rest := rfl

theorem mem_broughtIn {tables : Scope} {label : String} {table : Node} {reach : Reach}
    {steps : List FromStep} (hstep : .bringIn tables label ∈ steps)
    (hreach : tables.reach? table = some reach) :
    reach.exported label ∈ broughtIn table steps :=
  List.mem_filterMap.2 ⟨_, hstep, by rw [brings?, hreach, Option.map_some]⟩

end FromStep

open FromStep

namespace Statement

variable {s out : Statement} {table : Node} {step : FromStep} {steps : List FromStep}

def take (s : Statement) : FromStep → Except Error Statement
  | .bind table => (s.bind table).map (·.2)
  | .bringIn tables label => .ok (s.bringIn tables label)

def takeAll (s : Statement) (steps : List FromStep) : Except Error Statement :=
  steps.foldlM take s

/-- Whether the table is an item of the innermost `FROM` clause. -/
def hasItem (s : Statement) (table : Node) : Bool :=
  ((s.scope.reach? table).map Reach.isDirect).getD false

/-- The statement with another item, under the next label. -/
def withItem (s : Statement) (t : Node) : Statement :=
  { s with
    scope := s.scope.insert t (.through ("t" ++ toString s.labels) true [])
    labels := s.labels + 1 }

theorem reach?_withItem (t table : Node) :
    (s.withItem t).scope.reach? table
      = if t == table then some (.through ("t" ++ toString s.labels) true [])
        else s.scope.reach? table :=
  Scope.reach?_insert ..

theorem hasItem_withItem (t table : Node) :
    (s.withItem t).hasItem table = ((t == table) || s.hasItem table) := by
  rw [hasItem, hasItem, reach?_withItem]
  cases t == table <;> rfl

theorem reach?_bringIn {tables : Scope} (htables : tables.Distinct) (label : String)
    (table : Node) :
    (s.bringIn tables label).scope.reach? table = match tables.reach? table with
      | none => s.scope.reach? table
      | some reach => some (Reach.beside label (s.scope.reach? table) reach) :=
  Scope.reach?_foldl_bringIn s.scope htables label table

/-- What a subquery brings in is no item, and items stay what they are. -/
theorem hasItem_bringIn {tables : Scope} (htables : tables.Distinct) (label : String)
    (table : Node) :
    (s.bringIn tables label).hasItem table = s.hasItem table := by
  rw [hasItem, hasItem, reach?_bringIn htables]
  cases tables.reach? table with
  | none => rfl
  | some reach =>
      cases s.scope.reach? table with
      | none => cases reach <;> rfl
      | some known =>
          show (Reach.beside label (some known) reach).isDirect = known.isDirect
          rw [Reach.beside]
          split
          · rfl
          · next h => exact (Bool.eq_false_iff.2 h).symm

/-- An item is not made one again. -/
theorem take_bind_of_hasItem {t : Node} (h : s.hasItem t = true) :
    s.take (.bind t) = .error (.inexpressible (t.kind.name
      ++ " appears twice in one FROM clause; column references to it are ambiguous")) := by
  rw [hasItem] at h
  rw [take, bind, if_pos h]
  rfl

theorem take_bind {t : Node} (h : s.hasItem t = false) :
    s.take (.bind t) = .ok (s.withItem t) := by
  rw [hasItem] at h
  rw [take, bind, if_neg (Bool.eq_false_iff.1 h)]
  rfl

/-- A step brings in tables, or it makes a table an item that was none. -/
theorem take_cases (h : s.take step = .ok out) :
    (∃ tables label, step = .bringIn tables label ∧ out = s.bringIn tables label)
      ∨ ∃ t, step = .bind t ∧ s.hasItem t = false ∧ out = s.withItem t := by
  cases step with
  | bringIn tables label => exact .inl ⟨tables, label, rfl, (Except.ok.inj h).symm⟩
  | bind t =>
      cases ht : s.hasItem t with
      | true => cases (take_bind_of_hasItem ht).symm.trans h
      | false => exact .inr ⟨t, rfl, ht, (Except.ok.inj ((take_bind ht).symm.trans h)).symm⟩

theorem takeAll_cons_eq_ok :
    s.takeAll (step :: steps) = .ok out
      ↔ ∃ middle, s.take step = .ok middle ∧ middle.takeAll steps = .ok out := by
  rw [takeAll, List.foldlM_cons]
  exact TypedQuery.bind_eq_ok

/-- The steps succeed unless a table is made an item that is one already. -/
theorem exists_takeAll_iff (hsteps : ∀ step ∈ steps, step.Distinct) :
    (∃ out, s.takeAll steps = .ok out)
      ↔ (items steps).Pairwise (fun t u => (t == u) = false)
        ∧ ∀ t ∈ items steps, s.hasItem t = false := by
  induction steps generalizing s with
  | nil => exact ⟨fun _ => ⟨.nil, fun _ h => absurd h List.not_mem_nil⟩, fun _ => ⟨s, rfl⟩⟩
  | cons step rest ih =>
      obtain ⟨hstep, hrest⟩ := List.forall_mem_cons.1 hsteps
      cases step with
      | bringIn tables label =>
          have ih := ih (s := s.bringIn tables label) hrest
          simp only [hasItem_bringIn hstep] at ih
          exact ih
      | bind t =>
          rw [items_bind, List.pairwise_cons, List.forall_mem_cons]
          have ih := ih (s := s.withItem t) hrest
          simp only [hasItem_withItem, Bool.or_eq_false_iff] at ih
          constructor
          · rintro ⟨out, h⟩
            obtain ⟨middle, htake, h⟩ := takeAll_cons_eq_ok.1 h
            obtain ⟨_, _, hstep, -⟩ | ⟨_, ⟨⟩, ht, rfl⟩ := take_cases htake
            · cases hstep
            · obtain ⟨hp, hothers⟩ := ih.1 ⟨out, h⟩
              exact ⟨⟨fun u hu => (hothers u hu).1, hp⟩, ht, fun u hu => (hothers u hu).2⟩
          · rintro ⟨⟨hnew, hp⟩, ht, hothers⟩
            obtain ⟨out, h⟩ := ih.2 ⟨hp, fun u hu => ⟨hnew u hu, hothers u hu⟩⟩
            exact ⟨out, takeAll_cons_eq_ok.2 ⟨_, take_bind ht, h⟩⟩

/-- What every step preserves, all steps preserve. -/
theorem takeAll_preserves {P : Statement → Prop}
    (hbringIn : ∀ s tables label, P s → P (s.bringIn tables label))
    (hbind : ∀ s t, P s → P (s.withItem t)) (hs : P s)
    (h : s.takeAll steps = .ok out) : P out := by
  induction steps generalizing s with
  | nil => cases h; exact hs
  | cons step rest ih =>
      obtain ⟨middle, htake, h⟩ := takeAll_cons_eq_ok.1 h
      obtain ⟨tables, label, -, rfl⟩ | ⟨t, -, -, rfl⟩ := take_cases htake
      · exact ih (hbringIn s tables label hs) h
      · exact ih (hbind s t hs) h

theorem distinct_takeAll (hs : s.Distinct) (h : s.takeAll steps = .ok out) : out.Distinct :=
  takeAll_preserves (P := Statement.Distinct)
    (fun _ tables label hs => ⟨hs.1.foldl_bringIn tables label, hs.2⟩)
    (fun _ t hs => ⟨hs.1.insert t _, hs.2⟩) hs h

/-- The items are those that were there and those that the steps make items. -/
theorem hasItem_takeAll (hsteps : ∀ step ∈ steps, step.Distinct)
    (h : s.takeAll steps = .ok out) :
    out.hasItem table = ((items steps).any (· == table) || s.hasItem table) := by
  induction steps generalizing s with
  | nil => cases h; rfl
  | cons step rest ih =>
      obtain ⟨hstep, hrest⟩ := List.forall_mem_cons.1 hsteps
      obtain ⟨middle, htake, h⟩ := takeAll_cons_eq_ok.1 h
      obtain ⟨tables, label, rfl, rfl⟩ | ⟨t, rfl, -, rfl⟩ := take_cases htake
      · rw [ih hrest h, hasItem_bringIn hstep, items_bringIn]
      · rw [ih hrest h, hasItem_withItem, items_bind, List.any_cons,
          Bool.or_left_comm, Bool.or_assoc]

/-- Every item takes a label. -/
theorem labels_takeAll (h : s.takeAll steps = .ok out) :
    out.labels = s.labels + (items steps).length := by
  induction steps generalizing s with
  | nil => cases h; rfl
  | cons step rest ih =>
      obtain ⟨middle, htake, h⟩ := takeAll_cons_eq_ok.1 h
      obtain ⟨tables, label, rfl, rfl⟩ | ⟨t, rfl, -, rfl⟩ := take_cases htake
      · exact (ih h).trans rfl
      · rw [ih h, items_bind, List.length_cons, withItem, Nat.add_assoc, Nat.add_comm 1]

/-! ### Ways to tables -/

/-- How a table is reached that was known in some way, or not at all, before
subqueries brought it in. -/
def reachAfter : Option Reach → List Reach → Option Reach
  | known, [] => known
  | none, [reach] => some reach
  | none, _ => some .ambiguous
  | some known, _ => if known.isDirect then some known else some .ambiguous

theorem reachAfter_cons (known : Option Reach) (label : String) (reach : Reach)
    (brought : List Reach) :
    reachAfter known (reach.exported label :: brought)
      = reachAfter (some (Reach.beside label known reach)) brought := by
  cases known with
  | none =>
      have hbrought : (reach.exported label).isDirect = false := by cases reach <;> rfl
      cases brought <;> simp [reachAfter, Reach.beside, hbrought]
  | some known =>
      by_cases hknown : known.isDirect
      · cases brought <;> simp [reachAfter, Reach.beside, hknown]
      · have hambiguous : Reach.ambiguous.isDirect = false := rfl
        cases brought <;> simp [reachAfter, Reach.beside, hknown, hambiguous]

theorem reachAfter_perm (known : Option Reach) {brought others : List Reach}
    (h : others.Perm brought) :
    reachAfter known others = reachAfter known brought := by
  match others, brought, h with
  | [], brought, h => rw [h.nil_eq]
  | [reach], brought, h => rw [List.singleton_perm.1 h]
  | _ :: _ :: _, [], h => cases h.eq_nil
  | _ :: _ :: _, [_], h => cases h.length_eq
  | _ :: _ :: _, _ :: _ :: _, _ => cases known <;> rfl

/-- A table that no step makes an item. -/
theorem reach?_takeAll (hsteps : ∀ step ∈ steps, step.Distinct)
    (htable : ∀ t ∈ items steps, (t == table) = false) (h : s.takeAll steps = .ok out) :
    out.scope.reach? table = reachAfter (s.scope.reach? table) (broughtIn table steps) := by
  induction steps generalizing s with
  | nil =>
      cases h
      cases out.scope.reach? table <;> rfl
  | cons step rest ih =>
      obtain ⟨hstep, hrest⟩ := List.forall_mem_cons.1 hsteps
      obtain ⟨middle, htake, h⟩ := takeAll_cons_eq_ok.1 h
      obtain ⟨tables, label, rfl, rfl⟩ | ⟨t, rfl, -, rfl⟩ := take_cases htake
      · rw [ih hrest htable h, reach?_bringIn hstep]
        cases hreach : tables.reach? table with
        | none => simp [broughtIn, brings?, hreach]
        | some reach => simp [broughtIn, brings?, hreach, reachAfter_cons]
      · obtain ⟨hne, hothers⟩ := List.forall_mem_cons.1 htable
        rw [ih hrest hothers h, reach?_withItem, hne, broughtIn_bind,
          if_neg Bool.false_ne_true]

/-- A table that is made an item stays that item, whatever comes before and afterwards. -/
theorem reach?_takeAll_of_item {before after : List FromStep} {t : Node}
    (hsteps : ∀ step ∈ before ++ .bind t :: after, step.Distinct) (htable : t == table)
    (h : s.takeAll (before ++ .bind t :: after) = .ok out) :
    out.scope.reach? table
      = some (.through ("t" ++ toString (s.labels + (items before).length)) true []) := by
  rw [takeAll, List.foldlM_append] at h
  obtain ⟨middle, hbefore, h⟩ := TypedQuery.bind_eq_ok.1 h
  obtain ⟨bound, htake, hafter⟩ := takeAll_cons_eq_ok.1 h
  have hrest : ∀ step ∈ after, step.Distinct := fun step hstep =>
    hsteps step (List.mem_append_right _ (List.mem_cons_of_mem _ hstep))
  obtain ⟨_, _, ⟨⟩, -⟩ | ⟨_, ⟨⟩, -, rfl⟩ := take_cases htake
  have hnot : ∀ u ∈ items after, (u == table) = false := by
    intro u hu
    have hitem := ((exists_takeAll_iff hrest).1 ⟨out, hafter⟩).2 u hu
    rw [hasItem_withItem, Bool.or_eq_false_iff, BEq.congr_left htable] at hitem
    exact BEq.comm.trans hitem.1
  rw [reach?_takeAll hrest hnot hafter, reach?_withItem, if_pos htable,
    labels_takeAll hbefore]
  cases broughtIn table after <;> simp [reachAfter, Reach.isDirect]

/-- How a table is reached in the end: as the item that it is, and otherwise through the
only subquery that brings it in. -/
structure Settles (s : Statement) (steps : List FromStep) (out : Statement)
    (table : Node) : Prop where
  item (before : List FromStep) (t : Node) (after : List FromStep)
    (hsteps : steps = before ++ .bind t :: after) (ht : t == table) :
    out.scope.reach? table
      = some (.through ("t" ++ toString (s.labels + (items before).length)) true [])
  ambiguous (hitem : ∀ t ∈ items steps, (t == table) = false)
    (h : 2 ≤ (broughtIn table steps).length ∨ .ambiguous ∈ broughtIn table steps) :
    out.scope.reach? table = some .ambiguous
  only (hitem : ∀ t ∈ items steps, (t == table) = false) (tables : Scope) (label : String)
    (reach : Reach) (hstep : .bringIn tables label ∈ steps)
    (hreach : tables.reach? table = some reach) (hone : (broughtIn table steps).length = 1) :
    out.scope.reach? table = some (reach.exported label)
  unknown (hitem : ∀ t ∈ items steps, (t == table) = false)
    (h : broughtIn table steps = []) :
    out.scope.reach? table = none

theorem settles_takeAll (hempty : s.scope = []) (hsteps : ∀ step ∈ steps, step.Distinct)
    (h : s.takeAll steps = .ok out) (table : Node) : s.Settles steps out table := by
  have hreach (hitem : ∀ t ∈ items steps, (t == table) = false) :
      out.scope.reach? table = reachAfter none (broughtIn table steps) := by
    rw [reach?_takeAll hsteps hitem h, hempty]
    rfl
  constructor
  case item =>
    rintro before t after rfl ht
    exact reach?_takeAll_of_item hsteps ht h
  case ambiguous =>
    intro hitem hmany
    rw [hreach hitem]
    rcases hbrought : broughtIn table steps with _ | ⟨reach, _ | ⟨reach', rest⟩⟩
      <;> rw [hbrought] at hmany
    · simp at hmany
    · simpa [reachAfter, eq_comm] using hmany
    · rfl
  case only =>
    intro hitem tables label reach hstep htable hone
    obtain ⟨reach', hbrought⟩ := List.length_eq_one_iff.1 hone
    have hmem := mem_broughtIn hstep htable
    rw [hbrought, List.mem_singleton] at hmem
    rw [hreach hitem, hbrought, hmem]
    rfl
  case unknown =>
    intro hitem hnone
    rw [hreach hitem, hnone]
    rfl

/-- In another order the steps succeed too, with the same items, and lead to all other
tables in the same way. -/
theorem takeAll_perm {others : List FromStep} (hsteps : ∀ step ∈ steps, step.Distinct)
    (hothers : others.Perm steps) (h : s.takeAll steps = .ok out) :
    ∃ out', s.takeAll others = .ok out' ∧ out'.labels = out.labels
      ∧ ∀ table, out'.hasItem table = out.hasItem table
      ∧ (out.hasItem table = false → out'.scope.reach? table = out.scope.reach? table) := by
  have hsteps' : ∀ step ∈ others, step.Distinct :=
    fun step hstep => hsteps step (hothers.mem_iff.1 hstep)
  have hitems : (items others).Perm (items steps) := hothers.filterMap _
  have hone := (exists_takeAll_iff hsteps).1 ⟨out, h⟩
  obtain ⟨out', h'⟩ := (exists_takeAll_iff hsteps').2
    ⟨(hitems.pairwise_iff fun h => BEq.comm.trans h).2 hone.1,
      fun t ht => hone.2 t (hitems.mem_iff.1 ht)⟩
  refine ⟨out', h', ?_, fun table => ⟨?_, fun hitem => ?_⟩⟩
  · rw [labels_takeAll h', labels_takeAll h, hitems.length_eq]
  · rw [hasItem_takeAll hsteps' h', hasItem_takeAll hsteps h, hitems.any_eq]
  · rw [hasItem_takeAll hsteps h, Bool.or_eq_false_iff, List.any_eq_false] at hitem
    have hnot : ∀ t ∈ items steps, (t == table) = false :=
      fun t ht => Bool.eq_false_iff.2 (hitem.1 t ht)
    have hbrought : (broughtIn table others).Perm (broughtIn table steps) :=
      hothers.filterMap _
    rw [reach?_takeAll hsteps' (fun t ht => hnot t (hitems.mem_iff.1 ht)) h',
      reach?_takeAll hsteps hnot h, reachAfter_perm _ hbrought]

end Statement

end Sql

/-- What a scope holds does not depend on the order in which it is listed, nor that of the
tables that a subquery brings in or of the new names, and so the text is the same however
they are listed on the way. An item of the clause is reached as itself, a table that
several subqueries bring in is ambiguous, and one that a single subquery brings in is
reached through that subquery, in whatever order they come. -/
theorem scope_order :
    (∀ (s t : Sql.Statement) (tables others : Sql.Scope) (label : String), s.Same t →
      tables.Distinct → others.Perm tables →
        (s.bringIn others label).Same (t.bringIn tables label))
      ∧ (∀ (s t : Sql.Statement) (item : String) (changes others : Sql.Renames), s.Same t →
        (changes.map (·.1)).Nodup → others.Perm changes →
          (s.rename item others).Same (t.rename item changes))
      ∧ (∀ before after : Node → Sql.Statement → Sql.Statement, Sql.Relists before →
        Sql.Relists after → ∀ n : Node, n.Built → ∀ config,
          Sql.compileRelisting before after config n = Sql.compile config n)
      ∧ ∀ (s : Sql.Statement) (steps : List Sql.FromStep), s.scope = [] →
        (∀ step ∈ steps, step.Distinct) →
        ((∃ out, s.takeAll steps = .ok out)
          ↔ (Sql.FromStep.items steps).Pairwise fun t u => (t == u) = false)
          ∧ ∀ out, s.takeAll steps = .ok out → (∀ table, s.Settles steps out table)
            ∧ ∀ others : List Sql.FromStep, others.Perm steps →
              ∃ out', s.takeAll others = .ok out' ∧ out'.labels = out.labels
                ∧ ∀ table, out'.hasItem table = out.hasItem table
                ∧ (out.hasItem table = false →
                  out'.scope.reach? table = out.scope.reach? table) := by
  refine ⟨?_, ?_, ?_, ?_⟩
  · intro s t tables others label hst htables hothers
    exact hst.bringIn (.of_perm htables hothers) label
  · intro s t item changes others hst hkeys hothers
    exact hst.rename item (Sql.Renames.newName?_perm hkeys hothers)
  · intro before after hbefore hafter n hn config
    exact Sql.compileRelisting_eq hbefore hafter hn config
  · intro s steps hempty hsteps
    refine ⟨?_, fun out h =>
      ⟨Sql.Statement.settles_takeAll hempty hsteps h, fun others hothers => ?_⟩⟩
    · have hnone : ∀ t ∈ Sql.FromStep.items steps, s.hasItem t = false := by
        intro t _
        rw [Sql.Statement.hasItem, hempty]
        rfl
      exact (Sql.Statement.exists_takeAll_iff hsteps).trans (and_iff_left hnone)
    · exact Sql.Statement.takeAll_perm hsteps hothers h

/-- A table that two subqueries bring in, beside one that is an item, and a compilation
that lists every scope the other way round each time. -/
theorem scope_order_reversed :
    ∃ left right rows join column n : Node,
      Node.databaseTable "l" ⟨[⟨"a", .int64, true⟩]⟩ = .ok left
        ∧ Node.databaseTable "r" ⟨[⟨"a", .int64, true⟩, ⟨"b", .int64, true⟩]⟩ = .ok right
        ∧ Node.build .distinct [.node right] [] = .ok rows
        ∧ Node.joinOn .innerJoin left rows "a" "a" = .ok join
        ∧ Node.column right "b" = .ok column
        ∧ Node.selectAs join column "x" = .ok n ∧ n.Built
        ∧ Sql.compileRelisting (fun _ => Sql.Statement.reversed)
          (fun _ => Sql.Statement.reversed) {} n
          = .ok ("SELECT t3.`b` AS `x` FROM (SELECT t0.`a`, t2.`a` AS `a_right`, t2.`b` "
            ++ "FROM `l` t0 INNER JOIN (SELECT DISTINCT t1.* FROM `r` t1) t2 "
            ++ "ON (t0.`a` = t2.`a`)) t3")
        ∧ ∃ out : Sql.Statement,
          Sql.Statement.takeAll { config := {}, labels := 4 }
              [.bringIn [(left, .through "t0" true [])] "t1", .bind right,
                .bringIn [(right, .through "t2" true []),
                  (left, .through "t2" true [("a", "a_left")])] "t3"]
            = .ok out
          ∧ out.scope.reach? left = some .ambiguous
          ∧ out.scope.reach? right = some (.through "t4" true [])
          ∧ (out.bringIn [(left, .through "t5" true []), (right, .ambiguous)] "t6").Same
            (out.bringIn [(right, .ambiguous), (left, .through "t5" true [])] "t6")
          ∧ (out.rename "t4" [("a", "b"), ("b", "c")]).Same
              (out.rename "t4" [("b", "c"), ("a", "b")]) := by
  obtain ⟨left, right, rows, join, column, n, hleft, hright, hrows, hjoin, hcolumn,
    hn, hne, htext⟩ :
      ∃ left right rows join column n : Node,
        Node.databaseTable "l" ⟨[⟨"a", .int64, true⟩]⟩ = .ok left
          ∧ Node.databaseTable "r" ⟨[⟨"a", .int64, true⟩, ⟨"b", .int64, true⟩]⟩ = .ok right
          ∧ Node.build .distinct [.node right] [] = .ok rows
          ∧ Node.joinOn .innerJoin left rows "a" "a" = .ok join
          ∧ Node.column right "b" = .ok column
          ∧ Node.selectAs join column "x" = .ok n ∧ (right == left) = false
          ∧ Sql.compile {} n
            = .ok ("SELECT t3.`b` AS `x` FROM (SELECT t0.`a`, t2.`a` AS `a_right`, t2.`b` "
            ++ "FROM `l` t0 INNER JOIN (SELECT DISTINCT t1.* FROM `r` t1) t2 "
            ++ "ON (t0.`a` = t2.`a`)) t3") := by
    refine ⟨_, _, _, _, _, _, rfl, rfl, rfl, rfl, rfl, rfl, ?_, ?_⟩ <;> decide +kernel
  have bright := Node.built_databaseTable hright
  have brows : rows.Built :=
    .of_build hrows (by simpa [Arg.nodes, Arg.nodesOfItems] using bright)
      (by simp [Arg.nodesOfFields])
  have bjoin : join.Built := Node.built_joinOn (Node.built_databaseTable hleft) brows hjoin
  have bn : n.Built := Node.built_selectAs bjoin (Node.built_column bright hcolumn) hn
  obtain ⟨hbringIn, hrename, hcompile, htake⟩ := scope_order
  have hreversed : Sql.Relists fun _ => Sql.Statement.reversed := fun _ _ => .reversed
  have hpair (reach reach' : Sql.Reach) :
      Sql.Scope.Distinct [(right, reach), (left, reach')] :=
    List.pairwise_pair.2 hne
  have hdistinct : ∀ step ∈ ([.bringIn [(left, .through "t0" true [])] "t1", .bind right,
      .bringIn [(right, .through "t2" true []),
        (left, .through "t2" true [("a", "a_left")])] "t3"] : List Sql.FromStep),
      step.Distinct := by
    simp only [List.forall_mem_cons]
    exact ⟨List.pairwise_singleton _ _, trivial, hpair _ _,
      fun _ h => absurd h List.not_mem_nil⟩
  obtain ⟨hok, hsettles⟩ := htake { config := {}, labels := 4 } _ rfl hdistinct
  obtain ⟨out, hout⟩ := hok.2 (List.pairwise_singleton _ _)
  have hsame : out.Same out :=
    .refl (Sql.Statement.distinct_takeAll ⟨.nil, fun _ h => absurd h List.not_mem_nil⟩ hout)
  refine ⟨left, right, rows, join, column, n, hleft, hright, hrows, hjoin, hcolumn, hn, bn,
    (hcompile _ _ hreversed hreversed n bn {}).trans htext, out, hout, ?_, ?_, ?_, ?_⟩
  · refine ((hsettles out hout).1 left).ambiguous ?_ (.inl ?_)
    · simpa [Sql.FromStep.items, Sql.FromStep.item?] using hne
    · simp [Sql.FromStep.broughtIn, Sql.FromStep.brings?, Sql.Scope.reach?,
        List.filterMap_cons, hne]
  · rw [show "t4" = "t" ++ toString 4 by decide]
    exact ((hsettles out hout).1 right).item [_] right [_] rfl BEq.rfl
  · exact hbringIn out out _ _ "t6" hsame (hpair _ _) (.swap ..)
  · exact hrename out out "t4" _ _ hsame (by decide) (.swap ..)

end TypedQuery
