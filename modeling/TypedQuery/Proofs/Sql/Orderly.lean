import TypedQuery.Proofs.Sql.Layout

/-!
# Steps that keep a statement in order

A statement is in order while all labels in its scopes are numbered labels. A step is
orderly if it keeps that, and what it gives has a property, wherever it succeeds without
kept texts. Unlike the steps of values, it may change the scopes.
-/

namespace TypedQuery.Sql

open Emission

/-- Of the configuration, and with numbered labels in all scopes. -/
def InOrder (config : SqlConfig) (s : Statement) : Prop :=
  s.config = config ∧ ∀ scope ∈ s.scope :: s.outer, ∀ l ∈ scope.labels, ∃ i,
    l = Statement.label i

/-- From a statement in order, and without kept texts, the step leaves one in order, and
what it gives has the property. -/
def Orderly (config : SqlConfig) {α : Type} (P : α → Prop) (step : Writing α) : Prop :=
  ∀ s a after, InOrder config s → step.run ⟨s, none⟩ = (.ok a, after) →
    (∃ t, after = ⟨t, none⟩ ∧ InOrder config t) ∧ P a

/-! ## Changes of scope -/

namespace InOrder

variable {config : SqlConfig} {s : Statement}

theorem openScope (h : InOrder config s) : InOrder config s.openScope :=
  ⟨h.1, List.forall_mem_cons.2 ⟨fun _ hl => absurd hl List.not_mem_nil, h.2⟩⟩

theorem closeScope {tables : Scope} {t : Statement} (h : InOrder config s)
    (hclose : s.closeScope = .ok (tables, t)) :
    InOrder config t := by
  obtain ⟨hconfig, hlabels⟩ := h
  unfold Statement.closeScope at hclose
  split at hclose
  · cases hclose
  · next scope outer houter =>
      cases hclose
      rw [houter] at hlabels
      exact ⟨hconfig, (List.forall_mem_cons.1 hlabels).2⟩

theorem withScope {scope : Scope} (h : InOrder config s)
    (hscope : ∀ l ∈ scope.labels, l ∈ s.scope.labels ∨ ∃ i, l = Statement.label i)
    (labels : Nat) : InOrder config { s with scope, labels } := by
  obtain ⟨hown, houter⟩ := List.forall_mem_cons.1 h.2
  exact ⟨h.1, List.forall_mem_cons.2 ⟨fun l hl => (hscope l hl).elim (hown l) id, houter⟩⟩

theorem bind {table : Node} {label : String} {t : Statement} (h : InOrder config s)
    (hbind : s.bind table = .ok (label, t)) :
    InOrder config t ∧ ∃ i, label = Statement.label i := by
  obtain ⟨-, rfl, rfl⟩ := Statement.bind_eq_ok hbind
  refine ⟨h.withScope (fun l hl => ?_) _, _, rfl⟩
  rcases Scope.labels_insert hl with ⟨d, r, hreach⟩ | hl
  · cases hreach
    exact Or.inr ⟨_, rfl⟩
  · exact Or.inl hl

theorem bringIn {label : String} (h : InOrder config s)
    (hlabel : ∃ i, label = Statement.label i) (tables : Scope) :
    InOrder config (s.bringIn tables label) := by
  have hfold : ∀ start : Scope,
      ∀ l ∈ (tables.foldl (fun scope entry => scope.bringIn label entry.1 entry.2)
        start).labels, l ∈ start.labels ∨ l = label := by
    induction tables with
    | nil => exact fun _ _ hl => Or.inl hl
    | cons table rest ih =>
        intro start l hl
        rcases ih _ l hl with hl | hl
        · exact (Scope.labels_bringIn hl).symm
        · exact Or.inr hl
  exact h.withScope (fun l hl => (hfold s.scope l hl).imp_right fun heq : l = label =>
    heq ▸ hlabel) s.labels

/-- A change of what tables are reached under keeps the labels. -/
theorem mapReach {f : Reach → Reach}
    (hf : ∀ label d r, ∃ r', f (.through label d r) = .through label d r')
    (hambiguous : f .ambiguous = .ambiguous) (h : InOrder config s) :
    InOrder config
      { s with scope := s.scope.map fun (table, reach) => (table, f reach) } := by
  refine h.withScope (fun l hl => Or.inl ?_) s.labels
  obtain ⟨⟨table, reach⟩, hmem, hreach⟩ := List.mem_filterMap.1 hl
  obtain ⟨⟨t, r⟩, hr, heq⟩ := List.mem_map.1 hmem
  obtain ⟨rfl, rfl⟩ := Prod.mk.inj heq
  refine List.mem_filterMap.2 ⟨(t, r), hr, ?_⟩
  cases r with
  | ambiguous =>
      rw [hambiguous] at hreach
      cases hreach
  | through label d renames =>
      obtain ⟨r', hr'⟩ := hf label d renames
      rw [hr'] at hreach
      exact hreach

theorem rename (item : String) (changes : Renames) (h : InOrder config s) :
    InOrder config (s.rename item changes) := by
  refine mapReach (f := Reach.rename item changes) (fun label d r => ?_) rfl h
  by_cases hlabel : label = item
  · exact ⟨_, if_pos hlabel⟩
  · exact ⟨_, if_neg hlabel⟩

theorem forgetRenames (h : InOrder config s) : InOrder config s.forgetRenames :=
  mapReach (f := Reach.forgetRenames) (fun _ _ _ => ⟨_, rfl⟩) rfl h

end InOrder

/-! ## Steps -/

namespace Orderly

variable {config : SqlConfig} {α β : Type} {P : α → Prop} {Q : β → Prop}

theorem pure {a : α} (h : P a) : Orderly config P (Pure.pure a : Writing α) := by
  intro s b after hs hrun
  cases hrun
  exact ⟨⟨s, rfl, hs⟩, h⟩

theorem throw (e : Error) : Orderly config P (MonadExcept.throw e : Writing α) := by
  intro s b after hs hrun
  cases hrun

theorem mono {P' : α → Prop} {step : Writing α} (h : Orderly config P step)
    (hP : ∀ a, P a → P' a) :
    Orderly config P' step :=
  fun s a after hs hrun => And.imp_right (hP a) (h s a after hs hrun)

theorem bind {step : Writing α} {next : α → Writing β} (h : Orderly config P step)
    (hnext : ∀ a, P a → Orderly config Q (next a)) : Orderly config Q (step >>= next) := by
  intro s b after hs hrun
  obtain ⟨a, middle, hstep, hrest⟩ := run_bind_eq_ok hrun
  obtain ⟨⟨t, rfl, ht⟩, ha⟩ := h s a middle hs hstep
  exact hnext a ha t b after ht hrest

theorem lift {x : Except Error α} (h : ∀ a, x = .ok a → P a) :
    Orderly config P (liftM x : Writing α) := by
  intro s b after hs hrun
  cases x with
  | error e => cases hrun
  | ok a =>
      cases hrun
      exact ⟨⟨s, rfl, hs⟩, h _ rfl⟩

theorem lift_bind {x : Except Error α} {next : α → Writing β}
    (h : ∀ a, x = .ok a → Orderly config Q (next a)) :
    Orderly config Q ((liftM x : Writing α) >>= next) :=
  .bind (.lift fun _ ha => ha) h

theorem target_bind {next : Statement → Writing β}
    (h : ∀ s, InOrder config s → Orderly config Q (next s)) :
    Orderly config Q ((Emission.target : Writing Statement) >>= next) := by
  refine .bind (P := InOrder config) (fun s b after hs hrun => ?_) h
  cases hrun
  exact ⟨⟨s, rfl, hs⟩, hs⟩

theorem update {f : Statement → Statement}
    (h : ∀ s, InOrder config s → InOrder config (f s)) :
    Orderly config (fun _ => True) (update f) := by
  intro s b after hs hrun
  cases hrun
  exact ⟨⟨_, rfl, h s hs⟩, trivial⟩

theorem ite {c : Prop} [Decidable c] {step other : Writing α}
    (hstep : c → Orderly config P step) (hother : ¬ c → Orderly config P other) :
    Orderly config P (if c then step else other) := by
  split
  · next hc => exact hstep hc
  · next hc => exact hother hc

end Orderly

/-! ## Fields -/

/-- What was written for a node below. -/
abbrev Laid (config : SqlConfig) (n : Node) (text : String) : Prop :=
  LaidOut config.identifierQuote n [] text

/-- The text is laid out, and shows what the node itself leaves empty and counts below
zero. -/
def Complete (config : SqlConfig) (n : Node) (text : String) : Prop :=
  ∃ shown, LaidOut config.identifierQuote n shown text
    ∧ (n.LeavesEmpty → ∃ listing, .list listing n 0 ∈ shown)
    ∧ ∀ clause, rowCount n clause < 0 → .count clause n (rowCount n clause) ∈ shown

theorem Complete.laid {config : SqlConfig} {n : Node} {text : String}
    (h : Complete config n text) : Laid config n text := by
  obtain ⟨shown, htext, -⟩ := h
  exact htext.hide

theorem rowCount_of_ne {n : Node} (h : n.kind ≠ .limit) (clause : CountClause) :
    rowCount n clause = 0 := if_neg h

/-- A list shows that there is nothing to list. -/
theorem Complete.of_list {config : SqlConfig} {n : Node} {text : String}
    (listing : Listing) {entries : Nat}
    (h : LaidOut config.identifierQuote n [.list listing n entries] text)
    (hempty : n.LeavesEmpty → entries = 0) (hkind : n.kind ≠ .limit) :
    Complete config n text := by
  refine ⟨_, h, fun hn => ⟨listing, ?_⟩, fun clause hneg => ?_⟩
  · rw [hempty hn]
    exact List.mem_singleton_self _
  · rw [rowCount_of_ne hkind] at hneg
    exact absurd hneg (Int.lt_irrefl 0)

/-- Where nothing is to be shown, being laid out is all. -/
theorem Complete.of_laid {config : SqlConfig} {n : Node} {text : String}
    (h : Laid config n text) (hn : ¬ n.LeavesEmpty) (hkind : n.kind ≠ .limit) :
    Complete config n text := by
  refine ⟨_, h, fun hempty => absurd hempty hn, fun clause hneg => ?_⟩
  rw [rowCount_of_ne hkind] at hneg
  exact absurd hneg (Int.lt_irrefl 0)

/-- The node builds, and all nodes in its fields are laid out. -/
structure LaysFields (config : SqlConfig) (n : Node)
    (emit : Node → Writing String) : Prop where
  built : n.Built
  child : ∀ m ∈ n.children, Orderly config (Laid config m) (emit m)

namespace LaysFields

variable {config : SqlConfig} {n m : Node} {emit : Node → Writing String}
    (h : LaysFields config n emit)

include h

theorem emit_child (hm : m ∈ n.children) : Orderly config (Laid config n) (emit m) :=
  (h.child m hm).mono fun _ htext => htext.of_child hm

theorem field (name : String) : Orderly config (Laid config n) (field emit n name) :=
  .lift_bind fun _ hm => h.emit_child (h.built.mem_children_of_child hm)

theorem field? (name : String) :
    Orderly config (fun text? : Option String => ∀ t ∈ text?, Laid config n t)
      (field? emit n name) := by
  unfold Emission.field?
  split
  · next m hm =>
      refine .bind (h.emit_child (h.built.mem_children_of_child? hm))
        fun text htext => .pure ?_
      rintro _ ⟨⟩
      exact htext
  · exact .pure nofun

theorem each {ms : List Node} (hms : ∀ m ∈ ms, m ∈ n.children) :
    Orderly config (fun texts : List String => texts.length = ms.length
      ∧ ∀ t ∈ texts, Laid config n t) (each emit ms) := by
  induction ms with
  | nil => exact .pure ⟨rfl, fun _ ht => absurd ht List.not_mem_nil⟩
  | cons m rest ih =>
      obtain ⟨hm, hrest⟩ := List.forall_mem_cons.1 hms
      refine .bind (h.emit_child hm) fun text ht =>
        .bind (ih hrest) fun texts hts => .pure ?_
      exact ⟨congrArg (· + 1) hts.1, List.forall_mem_cons.2 ⟨ht, hts.2⟩⟩

/-- The texts of a sequence are as many as its nodes. -/
theorem sequence (name : String) :
    Orderly config (fun texts : List String => (∃ ms, n.childList name = .ok ms
      ∧ texts.length = ms.length) ∧ ∀ t ∈ texts, Laid config n t) (sequence emit n name) :=
  .lift_bind fun ms hms =>
    (h.each fun _ hm => h.built.mem_children_of_childList hms hm).mono fun _ htexts =>
    ⟨⟨ms, hms, htexts.1⟩, htexts.2⟩

omit h in
theorem length_eq_zero_iff {name : String} {ms : List Node}
    (hms : n.childList name = .ok ms) {texts : List String}
    (hlength : texts.length = ms.length) : texts.length = 0 ↔ n.childList name = .ok [] := by
  rw [hlength, hms, List.length_eq_zero_iff]
  exact ⟨fun hnone => hnone ▸ rfl, Except.ok.inj⟩

theorem fieldTexts (fields : List String) :
    Orderly config (fun texts : List String => texts.length = fields.length
      ∧ ∀ t ∈ texts, Laid config n t) (fieldTexts emit n fields) := by
  induction fields with
  | nil => exact .pure ⟨rfl, fun _ ht => absurd ht List.not_mem_nil⟩
  | cons name rest ih =>
      refine .bind (h.field name) fun text ht => .bind ih fun texts hts => .pure ?_
      exact ⟨congrArg (· + 1) hts.1, List.forall_mem_cons.2 ⟨ht, hts.2⟩⟩

end LaysFields

/-! ## Items of a FROM clause -/

/-- A table as an item: its text, and its label. -/
theorem fromItem_orderly {config : SqlConfig} {emit : Node → Writing String} {table : Node}
    (h : Orderly config (Laid config table) (emit table)) :
    Orderly config (fun item : String × String => Laid config table item.1
      ∧ ∃ i, item.2 = Statement.label i)
      (fromItem emit table) := by
  have hbind : Orderly config (fun label => ∃ i, label = Statement.label i)
      (change fun s => s.bind table) := by
    intro s label after hs hrun
    have hrun : (change (fun s => s.bind table) >>= Pure.pure).run ⟨s, none⟩
      = (.ok label, after) := by rwa [bind_pure]
    obtain ⟨label, t, hbind, hrest⟩ := run_change_bind_eq_ok hrun
    cases hrest
    exact ⟨⟨t, rfl, (hs.bind hbind).1⟩, (hs.bind hbind).2⟩
  unfold fromItem
  refine .ite (fun _ => ?_) fun _ => ?_
  · refine .lift_bind fun name _ => .target_bind fun s hs => .bind hbind fun label hlabel =>
      .pure ⟨?_, hlabel⟩
    obtain ⟨i, rfl⟩ := hlabel
    rw [Statement.quote, hs.1]
    exact (LaidOut.name name).beside (by decide) (.label i)
  · refine .bind (.update fun _ hs => hs.openScope) fun _ _ => ?_
    -- A walk that fails is taken note of, but what comes after fails then too.
    intro s item after hs hrun
    obtain ⟨result, inner, hattempt, hrun⟩ := run_bind_eq_ok hrun
    rw [run_attempt_isolated] at hattempt
    obtain ⟨tables, t, hclose, hrun⟩ := run_change_bind_eq_ok hrun
    obtain ⟨subquery, hresult, hrest⟩ := run_lift_bind_eq_ok hrun
    subst hresult
    rcases hemit : (emit table).run ⟨s, none⟩ with ⟨result, last⟩
    simp only [Option.map_none] at hattempt
    rw [hemit] at hattempt
    cases hattempt
    obtain ⟨⟨u, rfl, hu⟩, hsubquery⟩ := h s subquery last hs hemit
    have hlast : Orderly config (fun item : String × String => Laid config table item.1
        ∧ ∃ i, item.2 = Statement.label i) (do
        let label ← change fun s => s.bind table
        if table.kind ≠ .aggregation then
          Sql.update fun s => s.bringIn tables label
        return ("(" ++ subquery ++ ") " ++ label, label)) := by
      refine .bind hbind fun label hlabel => ?_
      obtain ⟨i, rfl⟩ := hlabel
      have hitem : Laid config table ("(" ++ subquery ++ ") " ++ Statement.label i) :=
        (hsubquery.between (by decide) (by decide)).append (.label i)
      refine .ite (fun _ =>
        .bind (.update fun _ hs => hs.bringIn ⟨i, rfl⟩ tables) fun _ _ => ?_) fun _ => ?_
      · exact .pure ⟨hitem, i, rfl⟩
      · exact .pure ⟨hitem, i, rfl⟩
    exact hlast t item after (hu.closeScope hclose) hrest

end TypedQuery.Sql
