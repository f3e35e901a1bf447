import TypedQuery.Proofs.Columnar.Heights

/-!
# Expressions without reductions that have a row for every row

Where nothing is reduced, only a function without arguments has another height than the
batch: it has no rows. What is computed with it has no rows either. So if an expression
without reductions has a row for each row of the batch, then everything that it is
computed from has, and on other rows of the batch it gives the same rows
(`evaluate_filled`), and be it none.
-/

namespace TypedQuery

/-- The column has a row for each of `n` rows or none at all, and in the former case is
taken over to other rows. -/
structure Column.Filled (n : Nat) (rows : List Nat) (c : Column)
    (x : Except Error Column) : Prop where
  height : c.length = n ∨ c.length = 0
  taken : c.length = n → ∃ c', x = .ok c' ∧ Column.Taken n rows c c'

/-- Of heights that are brought to `n` none is zero but where `n` is. -/
theorem Covers.eq_of_filled {hs : List Nat} {n h : Nat} (hcovers : Covers hs n)
    (hmem : h ∈ hs) (hh : h = n ∨ h = 0) :
    h = n := by
  have := hcovers.2 h hmem
  omega

/-- Of a column without rows nothing is taken over. -/
theorem Column.Taken.of_empty {n : Nat} {rows : List Nat} {c : Column}
    (hempty : c.length = 0) (hlength : c.length = n) (hr : ∀ i ∈ rows, i < n) :
    Column.Taken n rows c c := by
  obtain rfl : n = 0 := hlength.symm.trans hempty
  obtain rfl : rows = [] := List.eq_nil_iff_forall_not_mem.2 fun i hi =>
    Nat.not_lt_zero i (hr i hi)
  refine ⟨c.type, fun _ => .null, ?_, ?_⟩ <;> exact congrArg (Column.mk c.type)
    (List.length_eq_zero_iff.1 hempty)

namespace Column.Filled

variable {n : Nat} {rows : List Nat} {c l r : Column} {x y : Except Error Column}

theorem of_follows (hheight : c.length = n) (h : Follows (Taken n rows) (.ok c) x) :
    Filled n rows c x :=
  ⟨.inl hheight, fun _ => h c rfl⟩

theorem mono (h : Filled n rows c x) (hxy : ∀ c', x = .ok c' → y = .ok c') :
    Filled n rows c y :=
  ⟨h.height, fun hlength => (h.taken hlength).imp fun _ => And.imp_left (hxy _)⟩

theorem unary {f : Column → Except Error Column}
    (hheight : Yields (·.length = c.length) (f c))
    (htaken : ∀ c', Taken n rows c c' → Follows (Taken n rows) (f c) (f c'))
    (h : Filled n rows c x) :
    Yields (Filled n rows · (x >>= f)) (f c) := by
  intro out hout
  have hlength := hheight out hout
  refine ⟨by rw [hlength]; exact h.height, fun hn => ?_⟩
  obtain ⟨c', hx, hc⟩ := h.taken (hlength ▸ hn)
  obtain ⟨out', hout', htaken⟩ := htaken c' hc out hout
  exact ⟨out', bind_eq_ok.2 ⟨c', hx, hout'⟩, htaken⟩

theorem height_of_covers {hs : List Nat} (hcovers : Covers hs c.length)
    (hhs : ∀ h ∈ hs, h = n ∨ h = 0) :
    c.length = n ∨ c.length = 0 := hhs _ hcovers.1

theorem binary {f : Column → Column → Except Error Column}
    (hcovers : Yields (fun c => Covers [l.length, r.length] c.length) (f l r))
    (htaken : ∀ l' r', Taken n rows l l' → Taken n rows r r' →
      Follows (Taken n rows) (f l r) (f l' r'))
    (hl : Filled n rows l x) (hr : Filled n rows r y) :
    Yields (Filled n rows · (x >>= fun l => y >>= fun r => f l r)) (f l r) := by
  intro out hout
  have hcovers : Covers _ out.length := hcovers out hout
  refine ⟨height_of_covers hcovers (by simp [hl.height, hr.height]), fun hn => ?_⟩
  rw [hn] at hcovers
  obtain ⟨l', hx, hl'⟩ := hl.taken (hcovers.eq_of_filled (by simp) hl.height)
  obtain ⟨r', hy, hr'⟩ := hr.taken (hcovers.eq_of_filled (by simp) hr.height)
  obtain ⟨out', hout', htaken⟩ := htaken l' r' hl' hr' out hout
  exact ⟨out', bind_eq_ok.2 ⟨l', hx, bind_eq_ok.2 ⟨r', hy, hout'⟩⟩, htaken⟩

theorem operator (hrows : ∀ i ∈ rows, i < n) (op : BinaryOp) (hl : Filled n rows l x)
    (hr : Filled n rows r y) :
    Yields (Filled n rows · (x >>= fun l => y >>= fun r => op.apply l r)) (op.apply l r) :=
  binary (covers_binary op l r) (fun _ _ hl hr => hl.binary hrows op hr) hl hr

end Column.Filled

/-- The same for several columns at once. -/
structure Column.AllFilled (n : Nat) (rows : List Nat) (cs : List Column)
    (x : Except Error (List Column)) : Prop where
  height : ∀ c ∈ cs, c.length = n ∨ c.length = 0
  taken : (∀ c ∈ cs, c.length = n) →
    ∃ cs', x = .ok cs' ∧ List.Forall₂ (Column.Taken n rows) cs cs'

namespace Column.AllFilled

variable {n : Nat} {rows : List Nat} {cs : List Column} {x : Except Error (List Column)}

theorem chosen {f : List Column → Except Error Column}
    (hcovers : Yields (fun c => Covers (cs.map Column.length) c.length) (f cs))
    (htaken : ∀ cs', List.Forall₂ (Taken n rows) cs cs' →
      Follows (Taken n rows) (f cs) (f cs'))
    (h : AllFilled n rows cs x) : Yields (Filled n rows · (x >>= f)) (f cs) := by
  intro out hout
  have hcovers : Covers _ out.length := hcovers out hout
  refine ⟨Filled.height_of_covers hcovers (by simpa using h.height), fun hn => ?_⟩
  rw [hn] at hcovers
  obtain ⟨cs', hx, hcs⟩ :=
    h.taken fun c hc => hcovers.eq_of_filled (List.mem_map_of_mem hc) (h.height c hc)
  obtain ⟨out', hout', htaken⟩ := htaken cs' hcs out hout
  exact ⟨out', bind_eq_ok.2 ⟨cs', hx, hout'⟩, htaken⟩

end Column.AllFilled

namespace Expr

variable {b : Batch} {rows : List Nat}

/-- What a test for membership tells is filled if the value is and the options are. -/
def FilledIn (b : Batch) (rows : List Nat) (options : List Expr) (c : Column)
    (found : Option Column) (out : Column) : Prop :=
  (out.length = b.rows ∨ out.length = 0)
    ∧ (out.length = b.rows → c.length = b.rows ∧ (∀ d ∈ found, d.length = b.rows)
      ∧ ∀ c' found', Column.Taken b.rows rows c c' →
        Option.Rel (Column.Taken b.rows rows) found found' →
          ∃ out', evaluateIn (b.gather (rows.map some)) c' found' options = .ok out'
            ∧ Column.Taken b.rows rows out out')

mutual

theorem evaluate_filled (hb : b.Rectangular) (hr : ∀ i ∈ rows, i < b.rows) :
    ∀ e : Expr, e.aggregateFree = true →
      Yields (Column.Filled b.rows rows · (e.evaluate (b.gather (rows.map some))))
        (e.evaluate b)
  | column name, _ => fun c hc =>
      .of_follows (length_findColumn hb name c hc)
        (hc ▸ evaluate_taken hb hr (column name) rfl)
  | literal v type, _ => fun c hc =>
      .of_follows (Column.length_literal v type b.rows c hc)
        (hc ▸ evaluate_taken hb hr (literal v type) rfl)
  | named e _, he => evaluate_filled hb hr e he
  | cast e type, he => .bind (evaluate_filled hb hr e he) fun _ hc =>
      hc.unary (f := (·.cast (.ofLogical type))) (fun _ => Column.length_cast)
        fun _ h => h.cast hr _
  | unary op e, he => .bind (evaluate_filled hb hr e he) fun c hc =>
      hc.unary (Column.length_unary op c) fun _ h => h.unary hr op
  | binary left op right, he => by
      obtain ⟨hl, hr'⟩ := Bool.and_eq_true_iff.1 he
      exact .bind (evaluate_filled hb hr left hl) fun _ hl =>
        .bind (evaluate_filled hb hr right hr') fun _ hr' =>
        hl.operator hr op hr'
  | choose predicate thenExpr otherwise, he => by
      obtain ⟨he, ho⟩ := Bool.and_eq_true_iff.1 he
      obtain ⟨hp, ht⟩ := Bool.and_eq_true_iff.1 he
      refine .bind (evaluate_filled hb hr predicate hp) fun p hp =>
        .bind_any fun mask hmask =>
        .bind (evaluate_filled hb hr thenExpr ht) fun l hl =>
          .bind (evaluate_filled hb hr otherwise ho) fun r ho => ?_
      intro out hout
      have hcovers : Covers _ out.length := Column.covers_select _ l r out hout
      rw [List.length_map, Column.length_asPredicate hmask] at hcovers
      refine ⟨Column.Filled.height_of_covers hcovers (by simp [hl.height, ho.height]),
        fun hn => ?_⟩
      rw [hn] at hcovers
      have hheight := Column.height_of_asPredicate hmask
      obtain ⟨p', hp', hpt⟩ := hp.taken (by have := hp.height; omega)
      obtain ⟨mask', hmask', hmt⟩ := hpt.asPredicate rfl (List.length_map _) mask hmask
      obtain ⟨l', hl', hlt⟩ := hl.taken (hcovers.eq_of_filled (by simp) hl.height)
      obtain ⟨r', hr', hrt⟩ := ho.taken (hcovers.eq_of_filled (by simp) ho.height)
      obtain ⟨out', hout', htaken⟩ :=
        Column.Taken.select hr (hmt.map Cell.boolContent) hlt hrt out hout
      exact ⟨out',
        bind_eq_ok.2 ⟨p', hp', bind_eq_ok.2
          ⟨mask', hmask', bind_eq_ok.2 ⟨l', hl', bind_eq_ok.2 ⟨r', hr', hout'⟩⟩⟩⟩,
        htaken⟩
  | fillNull e fill, he => by
      obtain ⟨he, hf⟩ := Bool.and_eq_true_iff.1 he
      exact .bind (evaluate_filled hb hr e he) fun l hl =>
        .bind (evaluate_filled hb hr fill hf) fun r hf =>
        hl.binary (Column.covers_orElse l r) (fun _ _ hl h => hl.orElse hr h) hf
  | fillNan e fill, he => by
      obtain ⟨he, hf⟩ := Bool.and_eq_true_iff.1 he
      refine .bind (evaluate_filled hb hr e he) fun c hc => ?_
      split
      · next htype =>
          refine .bind (evaluate_filled hb hr fill hf) fun d hd out hout => ?_
          have hcovers : Covers _ out.length := Column.covers_fillNan c d out hout
          refine ⟨Column.Filled.height_of_covers hcovers (by simp [hc.height, hd.height]),
            fun hn => ?_⟩
          rw [hn] at hcovers
          obtain ⟨c', hc', hct⟩ := hc.taken (hcovers.eq_of_filled (by simp) hc.height)
          obtain ⟨d', hd', hdt⟩ := hd.taken (hcovers.eq_of_filled (by simp) hd.height)
          obtain ⟨out', hout', htaken⟩ := hct.fillNan hr hdt out hout
          refine ⟨out', bind_eq_ok.2 ⟨c', hc', ?_⟩, htaken⟩
          rw [if_pos (hct.type_eq.trans htype)]
          exact bind_eq_ok.2 ⟨d', hd', hout'⟩
      · next htype =>
          refine .ok ⟨hc.height, fun hn => ?_⟩
          obtain ⟨c', hc', hct⟩ := hc.taken hn
          refine ⟨c', bind_eq_ok.2 ⟨c', hc', ?_⟩, hct⟩
          rw [if_neg (hct.type_eq ▸ htype)]
  | isIn e options, he => by
      obtain ⟨he, ho⟩ := Bool.and_eq_true_iff.1 he
      refine .bind (evaluate_filled hb hr e he) fun c hc =>
        (evaluateIn_filled hb hr options ho hc.height
        fun _ h => by cases h).mono
        fun out hout => ⟨hout.1, fun hn => ?_⟩
      obtain ⟨hcn, -, htaken⟩ := hout.2 hn
      obtain ⟨c', hc', hct⟩ := hc.taken hcn
      obtain ⟨out', hout', htaken⟩ := htaken c' none hct .none
      exact ⟨out', bind_eq_ok.2 ⟨c', hc', hout'⟩, htaken⟩
  | between e low high, he => by
      obtain ⟨he, hh⟩ := Bool.and_eq_true_iff.1 he
      obtain ⟨he, hl⟩ := Bool.and_eq_true_iff.1 he
      refine .bind (evaluate_filled hb hr e he) fun c hc =>
        .bind (evaluate_filled hb hr low hl) fun l hl =>
        .bind (evaluate_filled hb hr high hh) fun h hh => ?_
      refine .bind (hc.operator hr _ hl) fun above habove =>
        .bind (hc.operator hr _ hh) fun below hbelow => ?_
      refine (habove.operator hr _ hbelow).mono fun out hout =>
        hout.mono fun out' hout' => ?_
      -- The value is evaluated once for both comparisons.
      obtain ⟨above', habove', hout'⟩ := bind_eq_ok.1 hout'
      obtain ⟨below', hbelow', hout'⟩ := bind_eq_ok.1 hout'
      obtain ⟨c', hc', habove'⟩ := bind_eq_ok.1 habove'
      obtain ⟨l', hl', habove'⟩ := bind_eq_ok.1 habove'
      obtain ⟨c'', hc'', hbelow'⟩ := bind_eq_ok.1 hbelow'
      obtain ⟨h', hh', hbelow'⟩ := bind_eq_ok.1 hbelow'
      cases hc'.symm.trans hc''
      exact bind_eq_ok.2
        ⟨c', hc', bind_eq_ok.2
          ⟨l', hl', bind_eq_ok.2 ⟨h', hh', bind_eq_ok.2 ⟨above', habove',
        bind_eq_ok.2 ⟨below', hbelow', hout'⟩⟩⟩⟩⟩
  | coalesce items, he => .bind (evaluateList_filled hb hr items he) fun cs h =>
      h.chosen (Column.covers_coalesce cs) fun _ => Column.Taken.coalesce hr
  | least items, he => .bind (evaluateList_filled hb hr items he) fun cs h =>
      h.chosen (Column.covers_horizontal _ cs) fun _ => Column.Taken.horizontal hr _
  | greatest items, he => .bind (evaluateList_filled hb hr items he) fun cs h =>
      h.chosen (Column.covers_horizontal _ cs) fun _ => Column.Taken.horizontal hr _
  | call f items, he => by
      refine .bind (evaluateList_filled hb hr items he) fun cs h => ?_
      by_cases hne : cs = []
      · subst hne
        intro out hout
        have hempty : out.length = 0 := by simpa using Column.covers_call f [] out hout
        refine ⟨.inr hempty, fun hn => ?_⟩
        obtain ⟨cs', hcs', hcst⟩ := h.taken (List.forall_mem_nil _)
        cases hcst
        exact ⟨out, bind_eq_ok.2 ⟨[], hcs', hout⟩, .of_empty hempty hn hr⟩
      · refine h.chosen (f := fun cs => Column.align cs >>= f.apply)
          ((Column.covers_call f cs).mono fun c hc => by simpa [hne] using hc)
          fun cs' htaken => ?_
        obtain ⟨halign, halign'⟩ := Column.Taken.align htaken
        rw [halign, halign']
        exact Function.apply_taken hr f hne htaken
  | reduce .., he => by cases he
  | countRows _, he => by cases he

theorem evaluateList_filled (hb : b.Rectangular) (hr : ∀ i ∈ rows, i < b.rows) :
    ∀ items : List Expr, allAggregateFree items = true →
      Yields (Column.AllFilled b.rows
        rows · (evaluateList (b.gather (rows.map some)) items)) (evaluateList b items)
  | [], _ => .ok ⟨List.forall_mem_nil _, fun _ => ⟨[], rfl, .nil⟩⟩
  | e :: rest, he => by
      obtain ⟨he, hrest⟩ := Bool.and_eq_true_iff.1 he
      refine .bind (evaluate_filled hb hr e he) fun c hc =>
        .bind (evaluateList_filled hb hr rest hrest) fun cs hcs =>
        .ok ⟨List.forall_mem_cons.2 ⟨hc.height, hcs.height⟩, fun hall => ?_⟩
      obtain ⟨hhere, hall⟩ := List.forall_mem_cons.1 hall
      obtain ⟨c', hx, hc⟩ := hc.taken hhere
      obtain ⟨cs', hxs, hcs⟩ := hcs.taken hall
      exact ⟨c' :: cs', bind_eq_ok.2 ⟨c', hx, bind_eq_ok.2 ⟨cs', hxs, rfl⟩⟩, .cons hc hcs⟩

theorem evaluateIn_filled (hb : b.Rectangular) (hr : ∀ i ∈ rows, i < b.rows) :
    ∀ options : List Expr, allAggregateFree options = true →
      ∀ {c : Column}, (c.length = b.rows ∨ c.length = 0) →
      ∀ {found : Option Column}, (∀ d ∈ found,
          (d.length = b.rows ∨ d.length = 0) ∧ (d.length = b.rows → c.length = b.rows)) →
      Yields (FilledIn b rows options c found) (evaluateIn b c found options)
  | [], _, c, hc, found, hfound => by
      cases found with
      | none =>
          have hlength : (Column.constant .boolean (.bool false) c.length).length
            = c.length := List.length_replicate
          refine .ok ⟨by rw [Option.getD_none, hlength]; exact hc, fun hn => ?_⟩
          rw [Option.getD_none, hlength] at hn
          refine ⟨hn, nofun, fun c' found' hct hfound' => ?_⟩
          cases hfound'
          refine ⟨_, rfl, ?_⟩
          rw [Option.getD_none, Option.getD_none, hct.length, hct.length_taken]
          exact .of_cells _ (.replicate _)
      | some d =>
          obtain ⟨hd, hcd⟩ := hfound d rfl
          refine .ok ⟨hd,
            fun hn => ⟨hcd hn, by simpa using hn, fun c' found' hct hfound' => ?_⟩⟩
          cases hfound' with
          | some hdt => exact ⟨_, rfl, hdt⟩
  | e :: rest, he, c, hc, found, hfound => by
      obtain ⟨he, hrest⟩ := Bool.and_eq_true_iff.1 he
      refine .bind (evaluate_filled hb hr e he) fun value hvalue =>
        .bind_any fun matched hmatched => ?_
      have hcovers : Covers _ matched.length :=
        Column.covers_binary _ c value matched hmatched
      have hheight : matched.length = b.rows ∨ matched.length = 0 :=
        Column.Filled.height_of_covers hcovers (by simp [hc, hvalue.height])
      have hboth : matched.length = b.rows →
          c.length = b.rows ∧ value.length = b.rows := fun hn => by
        rw [hn] at hcovers
        exact ⟨hcovers.eq_of_filled (by simp) hc,
          hcovers.eq_of_filled (by simp) hvalue.height⟩
      have hagain : matched.length = b.rows → ∀ c', Column.Taken b.rows rows c c' →
          ∃ value' matched', e.evaluate (b.gather (rows.map some)) = .ok value'
            ∧ BinaryOp.apply (.compare .equal) c' value' = .ok matched'
            ∧ Column.Taken b.rows rows matched matched' := by
        intro hn c' hct
        obtain ⟨value', hvalue', hvt⟩ := hvalue.taken (hboth hn).2
        obtain ⟨matched', hmatched', hmt⟩ := hct.binary hr _ hvt matched hmatched
        exact ⟨value', matched', hvalue', hmatched', hmt⟩
      cases found with
      | none =>
          refine (evaluateIn_filled hb hr rest hrest hc
            (by simpa using ⟨hheight, fun hn => (hboth hn).1⟩)).mono
            fun out hout => ⟨hout.1, fun hn => ?_⟩
          obtain ⟨hcn, hfound, htaken⟩ := hout.2 hn
          refine ⟨hcn, nofun, fun c' found' hct hfound' => ?_⟩
          cases hfound'
          obtain ⟨value', matched', hvalue', hmatched', hmt⟩ :=
            hagain (hfound matched rfl) c' hct
          obtain ⟨out', hout', htaken⟩ := htaken c' _ hct (.some hmt)
          exact ⟨out', bind_eq_ok.2
            ⟨value', hvalue', bind_eq_ok.2 ⟨matched', hmatched', hout'⟩⟩, htaken⟩
      | some d =>
          refine .bind_any fun next hnext => ?_
          have hcovers : Covers _ next.length := Column.covers_binary _ d matched next hnext
          have hnextheight : next.length = b.rows ∨ next.length = 0 :=
            Column.Filled.height_of_covers hcovers (by simp [(hfound d rfl).1, hheight])
          have hnextboth : next.length = b.rows →
              d.length = b.rows ∧ matched.length = b.rows := fun hn => by
            rw [hn] at hcovers
            exact ⟨hcovers.eq_of_filled (by simp) (hfound d rfl).1,
              hcovers.eq_of_filled (by simp) hheight⟩
          refine (evaluateIn_filled hb hr rest hrest hc (by
            simpa using ⟨hnextheight, fun hn => (hboth (hnextboth hn).2).1⟩)).mono
            fun out hout => ⟨hout.1, fun hn => ?_⟩
          obtain ⟨hcn, hfound', htaken⟩ := hout.2 hn
          obtain ⟨hdn, hmn⟩ := hnextboth (hfound' next rfl)
          refine ⟨hcn, by simpa using hdn, fun c' found' hct hrel => ?_⟩
          cases hrel with
          | some hdt =>
              obtain ⟨value', matched', hvalue', hmatched', hmt⟩ := hagain hmn c' hct
              obtain ⟨next', hnext', hnt⟩ := hdt.binary hr _ hmt next hnext
              obtain ⟨out', hout', htaken⟩ := htaken c' _ hct (.some hnt)
              exact ⟨out', bind_eq_ok.2 ⟨value', hvalue', bind_eq_ok.2 ⟨matched', hmatched',
                bind_eq_ok.2 ⟨next', hnext', hout'⟩⟩⟩, htaken⟩

end

end Expr

end TypedQuery
