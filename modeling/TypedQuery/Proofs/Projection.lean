import Mathlib.Data.List.Nodup
import TypedQuery.Plan.Execute
import TypedQuery.Proofs.Columnar.Heights

/-!
# Selections of expressions that can be evaluated

A selection brings the columns that it computes to one height. Which height that is, it
reads off the expressions: a single row if a reduction stands in all of them, and the rows
of the batch otherwise. The columns themselves are as high as the batch or single rows, so
the second always works. The first does not: a reduction in an expression does not mean
that its value is a single row, as in the difference of a column and its least cell, and
such a value does not fit into one row.
-/

namespace TypedQuery

namespace Column

variable {c d : Column} {cs : List Column} {rows : Nat}

/-- `d` is `c` with so many rows: a single row stands in each of them. -/
def Repeats (rows : Nat) (c d : Column) : Prop :=
  d.type = c.type ∧ d.length = rows
    ∧ ∀ i < rows, d.cells[i]? = c.cells[if c.length = 1 then 0 else i]?

theorem broadcast_repeats (h : c.length = rows ∨ c.length = 1) :
    ∃ d, c.broadcast rows = .ok d ∧ Repeats rows c d := by
  by_cases heq : c.length = rows
  · refine ⟨c, if_pos heq, rfl, heq, fun i hi => ?_⟩
    split
    · next hone =>
        obtain rfl : i = 0 := by omega
        rfl
    · rfl
  · obtain ⟨t, cells⟩ := c
    have hone : cells.length = 1 := h.resolve_left heq
    obtain ⟨cell, rfl⟩ := List.length_eq_one_iff.1 hone
    refine ⟨constant t cell rows, if_neg heq, rfl, List.length_replicate, fun i hi => ?_⟩
    simp [constant, length, hi]

theorem broadcast_eq_error (hne : c.length ≠ rows) (hone : c.length ≠ 1) :
    c.broadcast rows = .error (unequalRows c.length rows) := by
  rw [broadcast, if_neg hne]
  split
  · next cell hcell => exact absurd (congrArg List.length hcell) hone
  · rfl

theorem broadcastAll_repeats (h : ∀ c ∈ cs, c.length = rows ∨ c.length = 1) :
    ∃ ds, broadcastAll rows cs = .ok ds ∧ List.Forall₂ (Repeats rows) cs ds := by
  induction cs with
  | nil => exact ⟨[], rfl, .nil⟩
  | cons c rest ih =>
      obtain ⟨hc, hrest⟩ := List.forall_mem_cons.1 h
      obtain ⟨d, hd, hrepeats⟩ := broadcast_repeats hc
      obtain ⟨ds, hds, hall⟩ := ih hrest
      exact ⟨d :: ds, bind_eq_ok.2 ⟨d, hd, bind_eq_ok.2 ⟨ds, hds, rfl⟩⟩, .cons hrepeats hall⟩

/-- The first column that cannot be brought to the height is the one that is reported. -/
theorem broadcastAll_eq_error (h : ∃ c ∈ cs, c.length ≠ rows ∧ c.length ≠ 1) :
    ∃ c ∈ cs, c.length ≠ rows ∧ c.length ≠ 1
      ∧ broadcastAll rows cs = .error (unequalRows c.length rows) := by
  induction cs with
  | nil =>
      obtain ⟨c, hc, -⟩ := h
      cases hc
  | cons c rest ih =>
      by_cases hfits : c.length = rows ∨ c.length = 1
      · obtain ⟨d, hd, -⟩ := broadcast_repeats hfits
        have hrest : ∃ c ∈ rest, c.length ≠ rows ∧ c.length ≠ 1 := by
          obtain ⟨other, hother, hne, hone⟩ := h
          rcases List.mem_cons.1 hother with rfl | hother
          · exact absurd hfits (not_or.2 ⟨hne, hone⟩)
          · exact ⟨other, hother, hne, hone⟩
        obtain ⟨other, hother, hne, hone, herror⟩ := ih hrest
        refine ⟨other, List.mem_cons_of_mem _ hother, hne, hone, ?_⟩
        rw [broadcastAll, hd, herror]
        rfl
      · obtain ⟨hne, hone⟩ := not_or.1 hfits
        refine ⟨c, List.mem_cons_self, hne, hone, ?_⟩
        rw [broadcastAll, broadcast_eq_error hne hone]
        rfl

end Column

namespace Batch

variable {b : Batch} {items : List Expr} {cs : List Column}

/-- The columns of a selection are brought to its height one after the other. -/
theorem computeAll_eq (rows : Nat) {seen : List String}
    (h : Expr.evaluateList b items = .ok cs) (hnames : (items.map Expr.outputName).Nodup)
    (hseen : ∀ e ∈ items, e.outputName ∉ seen) :
    b.computeAll rows seen items
      = (Column.broadcastAll rows cs).map ((items.map Expr.outputName).zip ·) := by
  induction items generalizing cs seen with
  | nil =>
      cases h
      rfl
  | cons e rest ih =>
      obtain ⟨c, hc, h⟩ := bind_eq_ok.1 h
      obtain ⟨cs, hcs, h⟩ := bind_eq_ok.1 h
      cases h
      obtain ⟨hfirst, hnames⟩ := List.nodup_cons.1 hnames
      obtain ⟨hnew, hseen⟩ := List.forall_mem_cons.1 hseen
      have hrest : ∀ other ∈ rest, other.outputName ∉ e.outputName :: seen := by
        intro other hother hmem
        rcases List.mem_cons.1 hmem with heq | hmem
        · exact hfirst (List.mem_map.2 ⟨other, hother, heq⟩)
        · exact hseen other hother hmem
      have hcontains : seen.contains e.outputName = false := by simpa using hnew
      rw [computeAll, if_neg (by rw [hcontains]; exact Bool.false_ne_true), compute, hc,
        Column.broadcastAll, ih hcs hnames hrest]
      show (c.broadcast rows >>= _) = _
      cases c.broadcast rows with
      | error => rfl
      | ok d => cases Column.broadcastAll rows cs <;> rfl

/-- The height of a selection. -/
def selectionRows (b : Batch) (items : List Expr) : Nat :=
  if items ≠ [] ∧ ∀ e ∈ items, e.reduces = true then 1 else b.rows

theorem select_eq (h : Expr.evaluateList b items = .ok cs)
    (hnames : (items.map Expr.outputName).Nodup) :
    b.select items = (Column.broadcastAll (b.selectionRows items) cs).map fun ds =>
      ⟨b.selectionRows items, (items.map Expr.outputName).zip ds⟩ := by
  have hrows : (if !items.isEmpty && items.all Expr.reduces then 1 else b.rows)
      = b.selectionRows items := by
    rw [selectionRows]
    refine if_congr ?_ rfl rfl
    cases items <;> simp
  rw [select, hrows, computeAll_eq _ h hnames fun _ _ => List.not_mem_nil]
  cases Column.broadcastAll (b.selectionRows items) cs <;> rfl

/-- A reduction stands in every expression, and yet one of them has more than one row. -/
def Misjudged (b : Batch) (items : List Expr) (cs : List Column) : Prop :=
  1 < b.rows ∧ (∀ e ∈ items, e.reduces = true) ∧ ∃ c ∈ cs, c.length = b.rows

/-- A value is as high as the batch, or a single row if there is a reduction in its
expression. Only a function without arguments has no rows. -/
theorem height_evaluate (hb : b.Rectangular) {e : Expr} {c : Column}
    (h : e.evaluate b = .ok c) :
    c.length = b.rows ∨ (c.length = 1 ∧ e.reduces = true)
      ∨ (c.length = 0 ∧ ∃ f, .call f [] ∈ e.parts b) :=
  Expr.mem_heights (Expr.covers_evaluate hb e c h).1

theorem one_or_rows (hb : b.Rectangular)
    (h : List.Forall₂ (fun e c => e.evaluate b = .ok c) items cs) :
    ∀ c ∈ cs, c.length ≠ 0 → c.length = 1 ∨ c.length = b.rows := by
  intro c hc hfilled
  obtain ⟨e, -, he⟩ := exists_of_forall₂_right h hc
  rcases height_evaluate hb he with hrows | ⟨hone, -⟩ | ⟨hzero, -⟩
  · exact .inr hrows
  · exact .inl hone
  · exact absurd hzero hfilled

/-- Columns with rows fit the height of the selection if it is judged right. -/
theorem fits_of_not_misjudged (hb : b.Rectangular)
    (h : List.Forall₂ (fun e c => e.evaluate b = .ok c) items cs)
    (hfilled : ∀ c ∈ cs, c.length ≠ 0) (hjudged : ¬ b.Misjudged items cs) :
    ∀ c ∈ cs, c.length = b.selectionRows items ∨ c.length = 1 := by
  intro c hc
  rcases one_or_rows hb h c hc (hfilled c hc) with hone | hlength
  · exact .inr hone
  · rw [selectionRows]
    split
    · next hreduces =>
        have hsingle : ¬ 1 < b.rows :=
          fun hmany => hjudged ⟨hmany, hreduces.2, c, hc, hlength⟩
        have hzero := hfilled c hc
        omega
    · exact .inl hlength

/-- A selection that is judged right has a single row if and only if its
columns are single rows. -/
theorem selectionRows_eq (hb : b.Rectangular)
    (h : List.Forall₂ (fun e c => e.evaluate b = .ok c) items cs)
    (hfilled : ∀ c ∈ cs, c.length ≠ 0)
    (hfits : ∀ c ∈ cs, c.length = b.selectionRows items ∨ c.length = 1) :
    b.selectionRows items = if items ≠ [] ∧ ∀ c ∈ cs, c.length = 1 then 1 else b.rows := by
  by_cases hreduces : items ≠ [] ∧ ∀ e ∈ items, e.reduces = true
  · have hrows : b.selectionRows items = 1 := if_pos hreduces
    rw [hrows] at hfits
    rw [hrows, if_pos ⟨hreduces.1, fun c hc => (hfits c hc).elim id id⟩]
  · have hrows : b.selectionRows items = b.rows := if_neg hreduces
    rw [hrows]
    split
    · next hsingle =>
        -- One of the expressions reduces nothing, so the single row that it gives is
        -- the one of the batch.
        obtain ⟨e, he, hplain⟩ : ∃ e ∈ items, e.reduces ≠ true := by
          by_contra hnone
          exact hreduces
            ⟨hsingle.1, fun e he => by_contra fun hplain => hnone ⟨e, he, hplain⟩⟩
        obtain ⟨c, hc, hevaluate⟩ := exists_of_forall₂_right h.flip he
        rcases height_evaluate hb hevaluate with hlength | ⟨-, hreduce⟩ | ⟨hzero, -⟩
        · rw [← hlength, hsingle.2 c hc]
        · exact absurd hreduce hplain
        · exact absurd hzero (hfilled c hc)
    · rfl

end Batch

open Column Batch

/-- A selection of expressions that can be evaluated succeeds, unless a value has no rows,
or one of many rows is taken for a single row. It has a single row if all its values are
single rows, and else the rows of the batch. -/
theorem selection_of_evaluable {b : Batch} {items : List Expr} {cs : List Column}
    (hb : b.Rectangular) (hrows : 0 < b.rows) (hnames : (items.map Expr.outputName).Nodup)
    (h : List.Forall₂ (fun e c => e.evaluate b = .ok c) items cs) :
    (∀ c ∈ cs, c.length = 1 ∨ c.length = b.rows
      ∨ (c.length = 0 ∧ ∃ e ∈ items, ∃ f, .call f [] ∈ e.parts b))
      ∧ ((∀ c ∈ cs, c.length ≠ 0) → ¬ b.Misjudged items cs → ∃ out, b.select items = .ok out
          ∧ out.names = items.map Expr.outputName
          ∧ out.rows = (if items ≠ [] ∧ ∀ c ∈ cs, c.length = 1 then 1 else b.rows)
          ∧ List.Forall₂ (Repeats out.rows) cs (out.columns.map (·.2)))
      ∧ ((∀ c ∈ cs, c.length ≠ 0) → b.Misjudged items cs →
        b.select items = .error (unequalRows b.rows 1))
      ∧ ((∃ c ∈ cs, c.length = 0) → ∃ e, b.select items = .error e) := by
  have hselect := select_eq (Expr.evaluateList_eq_ok.2 h) hnames
  refine ⟨fun c hc => ?_, fun hfilled hjudged => ?_, fun hfilled hjudged => ?_,
    fun hempty => ?_⟩
  · obtain ⟨e, he, hevaluate⟩ := exists_of_forall₂_right h hc
    rcases height_evaluate hb hevaluate with hlength | ⟨hone, -⟩ | ⟨hzero, hcall⟩
    · exact .inr (.inl hlength)
    · exact .inl hone
    · exact .inr (.inr ⟨hzero, e, he, hcall⟩)
  · have hfits := fits_of_not_misjudged hb h hfilled hjudged
    obtain ⟨ds, hds, hrepeats⟩ := broadcastAll_repeats hfits
    have hlength : (items.map Expr.outputName).length = ds.length := by
      rw [List.length_map, h.length_eq, hrepeats.length_eq]
    rw [hds] at hselect
    refine ⟨_, hselect, ?_, selectionRows_eq hb h hfilled hfits, ?_⟩
    · exact List.map_fst_zip (Nat.le_of_eq hlength)
    · exact (List.map_snd_zip (Nat.le_of_eq hlength.symm)).symm ▸ hrepeats
  · obtain ⟨hmany, hreduces, c, hc, hlength⟩ := hjudged
    have hitems : items ≠ [] := by
      rintro rfl
      cases h
      cases hc
    have hone : b.selectionRows items = 1 := if_pos ⟨hitems, hreduces⟩
    have hneither : ∃ c ∈ cs, c.length ≠ 1 ∧ c.length ≠ 1 := ⟨c, hc, by omega, by omega⟩
    obtain ⟨d, hd, -, hne, herror⟩ := broadcastAll_eq_error hneither
    have hd : d.length = b.rows := (one_or_rows hb h d hd (hfilled d hd)).resolve_left hne
    rw [hselect, hone, herror, hd]
    rfl
  · obtain ⟨c, hc, hzero⟩ := hempty
    have hne : c.length ≠ b.selectionRows items := by
      rw [selectionRows]
      split <;> omega
    obtain ⟨d, -, -, -, herror⟩ := broadcastAll_eq_error ⟨c, hc, hne, by omega⟩
    rw [hselect, herror]
    exact ⟨_, rfl⟩

/-- What every row has above the least one, beside the sum of all rows. -/
theorem selection_of_evaluable_mixed :
    ∃ (b : Batch) (items : List Expr) (cs : List Column) (out : Batch),
      b = ⟨2, [("a", ⟨.int64, [.int 3, .int 5]⟩)]⟩
      ∧ items = [.named (.subtract (.column "a") (.reduce .min (.column "a") none)) "above",
          .named (.reduce .sum (.column "a") none) "total", .column "a"]
      ∧ cs = [⟨.int64, [.int 0, .int 2]⟩, ⟨.int64, [.int 8]⟩, ⟨.int64, [.int 3, .int 5]⟩]
      ∧ List.Forall₂ (fun e c => e.evaluate b = .ok c) items cs ∧ b.select items = .ok out
      ∧ out.names = ["above", "total", "a"] ∧ out.rows = 2
      ∧ List.Forall₂ (Repeats 2) cs (out.columns.map (·.2)) := by
  have hevaluable : List.Forall₂ (fun (e : Expr) (c : Column) =>
    e.evaluate ⟨2, [("a", ⟨.int64, [.int 3, .int 5]⟩)]⟩ = .ok c)
      [.named (.subtract (.column "a") (.reduce .min (.column "a") none)) "above",
        .named (.reduce .sum (.column "a") none) "total", .column "a"]
      [⟨.int64, [.int 0, .int 2]⟩, ⟨.int64, [.int 8]⟩, ⟨.int64, [.int 3, .int 5]⟩] :=
    .cons (by decide) (.cons (by decide) (.cons (by decide) .nil))
  obtain ⟨-, hok, -⟩ := selection_of_evaluable (by decide) (by decide) (by decide) hevaluable
  obtain ⟨out, hselect, hnames, hrows, hrepeats⟩ := hok (by decide) fun hjudged => by
    have hplain := hjudged.2.1 (.column "a") (by simp)
    cases hplain
  have hrows : out.rows = 2 :=
    hrows.trans (if_neg fun hsingle => by cases hsingle.2 _ List.mem_cons_self)
  exact ⟨_, _, _, out, rfl, rfl, rfl, hevaluable, hselect, hnames, hrows, hrows ▸ hrepeats⟩

/-- The same difference by itself, or a sum with a constant, is taken for a single row. -/
theorem selection_of_evaluable_fails :
    ∃ b : Batch, b = ⟨2, [("a", ⟨.int64, [.int 3, .int 5]⟩)]⟩
      ∧ Expr.evaluate b (.subtract (.column "a") (.reduce .min (.column "a") none))
        = .ok ⟨.int64, [.int 0, .int 2]⟩
      ∧ b.select [.subtract (.column "a") (.reduce .min (.column "a") none)]
        = .error (unequalRows 2 1)
      ∧ Expr.evaluate b (.add (.reduce .sum (.column "a") none) (.ofInt 1))
        = .ok ⟨.int64, [.int 9, .int 9]⟩
      ∧ b.select [.add (.reduce .sum (.column "a") none) (.ofInt 1)]
        = .error (unequalRows 2 1) := by
  refine ⟨_, rfl, ?_, ?_, ?_, ?_⟩ <;> decide

end TypedQuery
