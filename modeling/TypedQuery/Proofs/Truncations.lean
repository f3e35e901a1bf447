import TypedQuery.Proofs.Columnar.RowView
import TypedQuery.Proofs.Columnar.Truncated
import TypedQuery.Proofs.Engine.Operands
import TypedQuery.Proofs.Node.Calls
import TypedQuery.Proofs.Node.Held

/-!
# Truncated dates and timestamps

The unit of a truncation is one of ten, of which dates take the first five. Whatever it is,
a date or a timestamp goes back to the last start of the unit, and to which one does not
depend on how often it is truncated or through which smaller units.
-/

namespace TypedQuery

open Calendar (Period)

theorem Node.Built.exists_period {n : Node} (h : n.Built)
    (hk : n.kind = .dateTruncate ∨ n.kind = .timestampTruncate) :
    ∃ p : Period, n.stringField "unit" = .ok p.code := by
  obtain ⟨options, hoptions, hall⟩ :
      ∃ options, n.kind.validator? "unit" = some (.oneOf options)
      ∧ ∀ s ∈ options, ∃ p : Period, s = p.code := by
    rcases hk with hk | hk <;> rw [hk]
    · refine ⟨Catalogue.dateUnits, rfl, ?_⟩
      simp only [Catalogue.dateUnits, List.forall_mem_cons, List.not_mem_nil, false_imp_iff,
        implies_true, and_true]
      exact ⟨⟨.year, rfl⟩, ⟨.quarter, rfl⟩, ⟨.month, rfl⟩, ⟨.week, rfl⟩, ⟨.day, rfl⟩⟩
    · refine ⟨Catalogue.timestampUnits, rfl, ?_⟩
      simp only [Catalogue.timestampUnits, List.forall_mem_cons, List.not_mem_nil,
        false_imp_iff, implies_true, and_true]
      exact ⟨⟨.year, rfl⟩, ⟨.quarter, rfl⟩, ⟨.month, rfl⟩, ⟨.week, rfl⟩, ⟨.day, rfl⟩,
        ⟨.hour, rfl⟩, ⟨.minute, rfl⟩, ⟨.second, rfl⟩, ⟨.millisecond, rfl⟩,
        ⟨.microsecond, rfl⟩⟩
  obtain ⟨raw, before, a, -, hvalid, -, hget⟩ := h.get?_eq hoptions
  obtain ⟨rfl, s, hs, hmem⟩ := Validator.oneOf_eq_ok hvalid
  obtain ⟨p, rfl⟩ := hall s hmem
  exact ⟨p, Node.fieldAs_of_get? hget hs⟩

namespace Engine

variable {clock : Clock} {n : Node} {arg : Expr}

theorem compiled_truncation (h : n.Built)
    (hk : n.kind = .dateTruncate ∨ n.kind = .timestampTruncate)
    (harg : Operand clock n "arg" arg) {unit : String}
    (hunit : n.stringField "unit" = .ok unit) :
    Compiled clock n (arg.callOne (.truncate unit)) := by
  have hresolve : ∃ k, rules.resolve n.kind = .ok (k, truncateRule) := by
    rcases hk with hk | hk
    · exact ⟨.dateTruncate, resolve_of_kind hk rfl⟩
    · exact ⟨.timestampTruncate, resolve_of_kind hk rfl⟩
  obtain ⟨k, hresolve⟩ := hresolve
  refine compiled_of_run h hresolve ?_
  rw [hunit]
  show ((expr (lowered clock) n "arg" >>= _).run _) = _
  rw [Emission.run_bind_of_ok (run_expr harg _)]
  rfl

end Engine

/-- Truncating a date or timestamp goes back to the last start of the unit. It succeeds if
64 bits have room for all nanoseconds, and truncating the result again, or truncating to a
unit that this one consists of first, gives the very same column. -/
theorem truncations {clock : Engine.Clock} {n : Node} {arg : Expr} (h : n.Built)
    (hk : n.kind = .dateTruncate ∨ n.kind = .timestampTruncate)
    (harg : Engine.Operand clock n "arg" arg) :
    ∃ p : Period, n.stringField "unit" = .ok p.code
      ∧ Engine.Compiled clock n (arg.callOne (.truncate p.code))
      ∧ ∀ (b : Batch) (c : Column) (tick : Int), arg.evaluate b = .ok c →
        c.type.tick? = some tick →
        ((∀ k, .int k ∈ c.cells → Instant.fitsInt64 (k * tick) = true) →
          ∃ out, (arg.callOne (.truncate p.code)).evaluate b = .ok out)
        ∧ ∀ out, (arg.callOne (.truncate p.code)).evaluate b = .ok out →
          c.TruncatedTo p tick out
          ∧ ((arg.callOne (.truncate p.code)).callOne (.truncate p.code)).evaluate b
            = .ok out
          ∧ ∀ q ∈ p.parts,
            ((arg.callOne (.truncate q.code)).callOne (.truncate p.code)).evaluate b
              = .ok out := by
  obtain ⟨p, hunit⟩ := h.exists_period hk
  refine ⟨p, hunit, Engine.compiled_truncation h hk harg hunit,
    fun b c tick hc ht => ⟨fun hfits => ?_, fun out hout => ?_⟩⟩
  · obtain ⟨out, hout⟩ := Column.exists_truncate ht fun cell hcell =>
      Column.Truncates.exists_of_fits (p := p) ht fun k hk => hfits k (hk ▸ hcell)
    exact ⟨out, (Expr.callOne_eq_ok hc).2 hout⟩
  · have hout := (Expr.callOne_eq_ok hc).1 hout
    have hthrough {q : Period} (hq : q = p ∨ q ∈ p.parts) :
        ((arg.callOne (.truncate q.code)).callOne (.truncate p.code)).evaluate b
            = .ok out := by
      obtain ⟨via, hvia, hlast⟩ := Column.truncate_truncate ht hq hout
      have hfirst : (arg.callOne (.truncate q.code)).evaluate b = .ok via :=
        (Expr.callOne_eq_ok hc).2 hvia
      exact (Expr.callOne_eq_ok hfirst).2 hlast
    exact ⟨Column.truncatedTo ht hout, hthrough (.inl rfl), fun q hq => hthrough (.inr hq)⟩

/-- The last millisecond before 1970 goes back to December 1969, and a leap day to the
first of its February. -/
theorem truncations_to_months :
    ∃ (source at' n : Node) (e : Expr) (b : Batch) (out : Column),
      Node.databaseTable "t" ⟨[⟨"at", .timestamp .millisecond, true⟩]⟩ = .ok source
        ∧ Node.column source "at" = .ok at'
        ∧ Node.build .timestampTruncate [.node at', .value (.string "M")] [] = .ok n
        ∧ Engine.Compiled ⟨0⟩ n e
        ∧ b = ⟨3, [("at",
          ⟨.timestamp .millisecond, [.int (-1), .null, .int 1709208000000]⟩)]⟩
        ∧ e.evaluate b = .ok out ∧ out.row 0 = .int (-2678400000) ∧ (out.row 1).isNull = true
        ∧ out.row 2 = .int 1706745600000
        ∧ (e.callOne (.truncate "M")).evaluate b = .ok out := by
  obtain ⟨source, at', n, ⟨hsource, hat, hn⟩, hkind, hunit, harg⟩ : ∃ source at' n : Node,
      (Node.databaseTable "t" ⟨[⟨"at", .timestamp .millisecond, true⟩]⟩ = .ok source
        ∧ Node.column source "at" = .ok at'
        ∧ Node.build .timestampTruncate [.node at', .value (.string "M")] [] = .ok n)
        ∧ n.kind = .timestampTruncate ∧ n.stringField "unit" = .ok "M"
            ∧ Engine.Operand ⟨0⟩ n "arg" (.column "at") :=
    ⟨_, _, _, ⟨rfl, rfl, rfl⟩, rfl, rfl, _, rfl, rfl⟩
  have bn : n.Built := by
    refine .of_build hn (fun k hk => ?_) nofun
    simp only [Arg.nodesOfItems, Arg.nodes, List.append_nil, List.mem_singleton] at hk
    rw [hk]
    exact Node.built_column (Node.built_databaseTable hsource) hat
  obtain ⟨p, hp, he, hall⟩ := truncations bn (.inr hkind) harg
  obtain rfl : p = .month := by
    have hcode : p.code = "M" := Except.ok.inj (hp.symm.trans hunit)
    cases p <;> first | rfl | exact absurd hcode (by decide)
  obtain ⟨hexists, hrows⟩ :=
    hall ⟨3, [("at", ⟨.timestamp .millisecond, [.int (-1), .null, .int 1709208000000]⟩)]⟩
    ⟨.timestamp .millisecond, [.int (-1), .null, .int 1709208000000]⟩ 1000000 rfl rfl
  obtain ⟨out, hout⟩ := hexists fun k hk => by
    simp only [List.mem_cons, List.not_mem_nil, or_false, Cell.int.injEq] at hk
    rcases hk with rfl | hnull | rfl
    · decide
    · cases hnull
    · decide
  obtain ⟨⟨-, -, hnull, hlast, -, -⟩, hagain, -⟩ := hrows out hout
  have hmonth (k s : Int) (hs : Period.month.floor (k * 1000000) = s) {i : Nat} {cell : Cell}
      (hcell : (∃ t, IsGreatest (Period.month.startsUpTo (k * 1000000)) t
        ∧ (Instant.fitsInt64 t = true → ∃ k', cell = .int k' ∧ k' * 1000000 = t)))
        (hfits : Instant.fitsInt64 s = true) :
      cell = .int (s / 1000000) := by
    obtain ⟨t, ht, hcell⟩ := hcell
    obtain rfl : t = s := (ht.unique (Period.month.isGreatest_floor _)).trans hs
    obtain ⟨k', rfl, hk'⟩ := hcell hfits
    rw [← hk', Int.mul_ediv_cancel _ (by decide)]
  refine ⟨source, at', n, _, _, out, hsource, hat, hn, he, rfl, hout, ?_,
    hnull 1 rfl, ?_, hagain⟩
  · exact hmonth (-1) (-2678400000000000) (by decide +kernel) (i := 0)
      (hlast 0 _ rfl (by decide)) (by decide)
  · exact hmonth 1709208000000 1706745600000000000 (by decide +kernel) (i := 2)
      (hlast 2 _ rfl (by decide)) (by decide)

end TypedQuery
