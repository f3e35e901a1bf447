import TypedQuery.Proofs.Columnar.Given
import TypedQuery.Proofs.Engine.SafeTables
import TypedQuery.Proofs.Node.Calls

/-!
# Tables of given rows

A table of given rows was checked when it was built: each row has a value for every column,
and its type may stand where that of the column is declared. From there nothing fails any
more, and the batch has a cell for every value. What is left to say is when the cell
denotes the value, which is if the value is kept in a column of that type.
-/

namespace TypedQuery

open Engine

namespace Engine

/-- A table of given rows becomes the batch of its rows. -/
theorem answer_given {n : Node} (h : n.Built) (hkind : n.kind = .inMemoryTable)
    {name : String} {s : Schema} {rows : List (List Value)}
    (hname : n.stringField "name" = .ok name) (hschema : n.outputSchema = .ok s)
    (hdata : n.field "data" = .ok (.ofRows rows)) (clock : Clock) :
    rules.answer clock n = (Batch.ofRows s rows).map fun b => .plan (.rows name b) := by
  have hresolve : rules.resolve n.kind = .ok (.inMemoryTable, givenRowsRule) := by
    rw [hkind]
    rfl
  rw [answer_eq_result h clock hresolve, givenRowsRule, hschema,
    rowsOf_of_field hdata, hname]
  show Emission.result clock
    ((liftM (Batch.ofRows s rows) : Lowering Batch) >>= fun b => _) = _
  rw [Emission.result_lift_bind]
  cases Batch.ofRows s rows <;> rfl

end Engine

/-- A table of given rows with a column becomes a batch of as many rows, under the names of
its schema. The cell of a value that is not an array denotes it exactly if nothing of it is
lost, and is null only where the value is or is out of range. -/
theorem given_rows {n : Node} (h : n.Built) (hkind : n.kind = .inMemoryTable) :
    ∃ (name : String) (s : Schema) (rows : List (List Value)),
      n.stringField "name" = .ok name ∧ n.outputSchema = .ok s
        ∧ n.field "data" = .ok (.ofRows rows)
        ∧ ((∀ row ∈ rows, ∀ v ∈ row, v.isArray = false) →
          ∀ (config : Config) (clock : Clock),
            (s.columns = [] → compile config clock n = .error (.compute .invalidArgument))
            ∧ (s.columns ≠ [] →
              ∃ b : Batch, compile config clock n = .ok (.plan (.rows name b))
              ∧ (∀ catalog, execute config clock n catalog = .ok b)
              ∧ b.rows = rows.length
              ∧ (b.columns.map fun c => (c.1, c.2.type, c.2.length))
                = (s.columns.map fun c =>
                  (c.name, Physical.ofLogical c.dataType, rows.length))
              ∧ ∀ (i j : Nat) (row : List Value) (column : ColumnInfo),
                rows[i]? = some row → s.columns[j]? = some column →
                ∃ v cell, row[j]? = some v ∧ b.cellAt i j = some cell
                  ∧ cell = v.cellIn column.dataType
                  ∧ (cell.Denotes column.dataType v ↔ v.Kept column.dataType)
                  ∧ (cell.isNull = true ↔ v = .null ∨ column.dataType = .int32
                    ∧ ¬ v.Kept column.dataType))) := by
  obtain ⟨name, hname⟩ := h.exists_text "name" (by rw [hkind]; rfl)
  obtain ⟨s, rows, hschema, hdata, hfits⟩ := h.stored_rows hkind
  refine ⟨name, s, rows, hname, hschema, hdata, fun harray config clock => ?_⟩
  have hanswer := answer_given h hkind hname hschema hdata clock
  rw [Batch.ofRows_of_fits hfits harray] at hanswer
  rw [compile_eq_answer h, hanswer]
  refine ⟨fun hempty => by rw [if_pos hempty]; rfl,
    fun hne => ⟨.given s rows, by rw [if_neg hne]; rfl, fun catalog => ?_, rfl,
      Batch.columns_given s rows, fun i j row column hrow hcolumn => ?_⟩⟩
  · rw [execute_eq h, planOf, hanswer, if_neg hne]
    rfl
  · obtain ⟨v, hv, hfit⟩ :=
      exists_of_forall₂_getElem? (hfits row (List.mem_of_getElem? hrow)) hcolumn
    have hplain := harray row (List.mem_of_getElem? hrow) v (List.mem_of_getElem? hv)
    exact ⟨v, _, hv, Batch.cellAt_given hrow hcolumn hv, rfl,
      Value.denotes_cellIn hfit hplain, Value.isNull_cellIn hfit hplain⟩

/-- The day that time is counted from begins where it does. -/
theorem given_rows_denoted :
    ∃ (n : Node) (b : Batch),
      Node.inMemoryTable "t" ⟨[⟨"i", .int32, true⟩, ⟨"s", .timestamp .second, true⟩]⟩
          [[.int64 7, .date 0], [.null, .timestamp 5 .second]] = .ok n
        ∧ execute {} ⟨0⟩ n (.empty {}) = .ok b ∧ b.rows = 2
        ∧ (∃ cell, b.cellAt 0 0 = some cell ∧ cell.Denotes .int32 (.int64 7))
        ∧ (∃ cell, b.cellAt 0 1 = some cell ∧ cell.Denotes (.timestamp .second) (.date 0))
        ∧ ∃ cell, b.cellAt 1 0 = some cell ∧ cell.isNull = true := by
  obtain ⟨n, hn, hkind, hschema, hrows⟩ : ∃ n : Node,
      Node.inMemoryTable "t" ⟨[⟨"i", .int32, true⟩, ⟨"s", .timestamp .second, true⟩]⟩
          [[.int64 7, .date 0], [.null, .timestamp 5 .second]] = .ok n
        ∧ n.kind = .inMemoryTable
        ∧ n.outputSchema = .ok ⟨[⟨"i", .int32, true⟩, ⟨"s", .timestamp .second, true⟩]⟩
        ∧ rowsOf n = .ok [[.int64 7, .date 0], [.null, .timestamp 5 .second]] :=
          ⟨_, rfl, rfl, rfl, rfl⟩
  obtain ⟨name, s, rows, -, hschema', hdata, hgiven⟩ :=
    given_rows (Node.built_inMemoryTable hn) hkind
  cases hschema.symm.trans hschema'
  cases hrows.symm.trans (rowsOf_of_field hdata)
  obtain ⟨-, hrun⟩ := hgiven (by decide) {} ⟨0⟩
  obtain ⟨b, -, hexecute, hheight, -, hcells⟩ := hrun nofun
  refine ⟨n, b, hn, hexecute _, hheight, ?_, ?_, ?_⟩
  · obtain ⟨v, cell, hv, hcell, -, hdenotes, -⟩ := hcells 0 0 _ _ rfl rfl
    cases hv
    exact ⟨cell, hcell, hdenotes.2 ⟨fun _ => rfl, nofun⟩⟩
  · obtain ⟨v, cell, hv, hcell, -, hdenotes, -⟩ := hcells 0 1 _ _ rfl rfl
    cases hv
    exact ⟨cell, hcell, hdenotes.2 (.inr rfl)⟩
  · obtain ⟨v, cell, hv, hcell, -, -, hnull⟩ := hcells 1 0 _ _ rfl rfl
    cases hv
    exact ⟨cell, hcell, hnull.2 (.inl rfl)⟩

/-- A whole number out of range becomes null, one between two doubles becomes one of
them, and the day after the first is taken for the second after the first, although
that day has a midnight. -/
theorem given_rows_lost :
    ∃ n : Node,
      Node.inMemoryTable "t"
        ⟨[⟨"i", .int32, true⟩, ⟨"x", .float64, true⟩, ⟨"s", .timestamp .second, true⟩]⟩
          [[.int64 2147483648, .int64 9007199254740993, .date 1]] = .ok n
        ∧ execute {} ⟨0⟩ n (.empty {}) = .ok ⟨1, [("i", ⟨.int32, [.null]⟩),
          ("x", ⟨.float64, [.float (.ofFloat 9007199254740992.0)]⟩),
            ("s", ⟨.timestamp .second, [.int 1]⟩)]⟩
        ∧ ¬ (Cell.int 1).Denotes (.timestamp .second) (.date 1)
        ∧ (Cell.int 86400).Denotes (.timestamp .second) (.date 1) := by
  refine ⟨_, rfl, ?_, ?_, .midnight rfl⟩
  · decide
  · intro h
    obtain ⟨cell, hcell⟩ : ∃ cell, Cell.int 1 = cell := ⟨_, rfl⟩
    rw [hcell] at h
    cases h with
    | midnight h =>
        cases hcell
        exact absurd h (by decide)

end TypedQuery
