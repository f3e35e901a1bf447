import TypedQuery.Columnar.Apply
import TypedQuery.Columnar.Literal
import TypedQuery.Proofs.Columnar.Lists
import TypedQuery.Proofs.Columnar.RowByRow

/-!
# Functions row by row

What a function depends on besides its row is fixed before the rows are looked at:
patterns, formats and units are the same for all of them. Functions of several columns take
at least one; with none there would be nothing to tell how many rows there are.
-/

namespace TypedQuery.Column

variable {n : Nat} {rows : List Nat} {c c' l l' r r' : Column} {cs cs' : List Column}

/-! ## Recursions over cells -/

theorem repeatTexts_eq_mapM (times : Nat) (texts : List (Option String)) :
    repeatTexts times texts = texts.mapM fun s =>
      (s.map fun s => (repeatText times s).map some).getD (.ok none) := by
  induction texts with
  | nil => rfl
  | cons s rest ih =>
      rw [List.mapM_cons, ← ih]
      cases s with
      | none => rfl
      | some s =>
          rw [repeatTexts]
          cases hs : repeatText times s <;> simp [hs, Except.map] <;> rfl

theorem truncateAll_eq_mapM (unit : String) (ts : List (Option Instant)) :
    truncateAll unit ts = ts.mapM fun t =>
      (t.map fun t => (truncateInstant unit t).map some).getD (.ok none) := by
  induction ts with
  | nil => rfl
  | cons t rest ih =>
      rw [List.mapM_cons, ← ih]
      cases t with
      | none => rfl
      | some t =>
          rw [truncateAll]
          cases ht : truncateInstant unit t <;> simp [ht, Except.map] <;> rfl

/-! ## Rows across columns -/

theorem rowsOf_taken {α : Type} {xss xss' : List (List α)} (hne : xss ≠ [])
    (h : List.Forall₂ (TypedQuery.Taken n rows) xss xss') :
    TypedQuery.Taken n rows (rowsOf xss) (rowsOf xss') := by
  induction h with
  | nil => exact absurd rfl hne
  | cons hx hrest ih =>
      cases hrest with
      | nil => exact hx.map _
      | cons => exact hx.zipWith _ (ih (List.cons_ne_nil _ _))

namespace Taken

/-- What is read from each of several columns, as many as there are columns. -/
theorem reads {α : Type} {read : Column → Except Error (List α)}
    {readAll : List Column → Except Error (List (List α))} (hnil : readAll [] = .ok [])
    (hcons : ∀ c rest, readAll (c :: rest) = do .ok ((← read c) :: (← readAll rest)))
    (hread : ∀ {c c'}, Taken n rows c c' →
      Follows (TypedQuery.Taken n rows) (read c) (read c'))
    (h : List.Forall₂ (Taken n rows) cs cs') :
    Follows (fun xss xss' => xss.length = cs.length
      ∧ List.Forall₂ (TypedQuery.Taken n rows) xss xss')
      (readAll cs) (readAll cs') := by
  induction h with
  | nil => rw [hnil]; exact .ok ⟨rfl, .nil⟩
  | cons hc _ ih =>
      rw [hcons, hcons]
      refine .bind (hread hc) fun _ _ hhere => .bind ih fun _ _ hrest =>
        .ok ⟨?_, .cons hhere hrest.2⟩
      rw [List.length_cons, hrest.1, List.length_cons]

theorem allTexts (hr : ∀ i ∈ rows, i < n) (hne : cs ≠ [])
    (h : List.Forall₂ (Taken n rows) cs cs') :
    Follows (fun xss xss' => xss ≠ [] ∧ List.Forall₂ (TypedQuery.Taken n rows) xss xss')
      (Column.allTexts cs) (Column.allTexts cs') :=
  (reads rfl (fun _ _ => rfl) (fun h => h.toTexts hr) h).mono fun _ _ h =>
    ⟨List.ne_nil_of_length_pos (h.1 ▸ List.length_pos_of_ne_nil hne), h.2⟩

theorem allInts (hr : ∀ i ∈ rows, i < n) (hne : cs ≠ [])
    (h : List.Forall₂ (Taken n rows) cs cs') :
    Follows (fun xss xss' => xss ≠ [] ∧ List.Forall₂ (TypedQuery.Taken n rows) xss xss')
      (Column.allInts cs) (Column.allInts cs') :=
  (reads rfl (fun _ _ => rfl) (fun h => h.toInts hr) h).mono fun _ _ h =>
    ⟨List.ne_nil_of_length_pos (h.1 ▸ List.length_pos_of_ne_nil hne), h.2⟩

/-! ## Texts -/

theorem mapTexts (hr : ∀ i ∈ rows, i < n) (type : Physical) (f : List Char → Option Cell)
    (h : Taken n rows c c') :
    Follows (Taken n rows) (c.mapTexts type f) (c'.mapTexts type f) :=
  .bind (h.toTexts hr) fun _ _ h => .ok (.of_cells _ (h.map _))

theorem editTexts (hr : ∀ i ∈ rows, i < n) (f : List Char → List Char)
    (h : Taken n rows c c') :
    Follows (Taken n rows) (c.editTexts f) (c'.editTexts f) := h.mapTexts hr _ _

theorem testTexts (hr : ∀ i ∈ rows, i < n) (f : List Char → Bool) (h : Taken n rows c c') :
    Follows (Taken n rows) (c.testTexts f) (c'.testTexts f) := h.mapTexts hr _ _

theorem countTexts (hr : ∀ i ∈ rows, i < n) (f : List Char → Int) (h : Taken n rows c c') :
    Follows (Taken n rows) (c.countTexts f) (c'.countTexts f) := h.mapTexts hr _ _

theorem textLength (hr : ∀ i ∈ rows, i < n) (h : Taken n rows c c') :
    Follows (Taken n rows) c.textLength c'.textLength := h.mapTexts hr _ _

theorem findInSet (hr : ∀ i ∈ rows, i < n) (values : List String) (h : Taken n rows c c') :
    Follows (Taken n rows) (c.findInSet values) (c'.findInSet values) := h.countTexts hr _

theorem splitTexts (hr : ∀ i ∈ rows, i < n) (separator : String) (h : Taken n rows c c') :
    Follows (Taken n rows) (c.splitTexts separator) (c'.splitTexts separator) :=
  h.mapTexts hr _ _

theorem regexMatch (hr : ∀ i ∈ rows, i < n) (pattern : String) (h : Taken n rows c c') :
    Follows (Taken n rows) (c.regexMatch pattern) (c'.regexMatch pattern) :=
  .bind_same fun _ _ => h.testTexts hr _

theorem regexExtract (hr : ∀ i ∈ rows, i < n) (pattern : String) (group : Nat)
    (h : Taken n rows c c') :
    Follows (Taken n rows) (c.regexExtract pattern group) (c'.regexExtract pattern group) :=
  .bind_same fun _ _ => h.mapTexts hr _ _

theorem regexReplace (hr : ∀ i ∈ rows, i < n) (pattern replacement : String)
    (h : Taken n rows c c') :
    Follows (Taken n rows) (c.regexReplace pattern replacement)
      (c'.regexReplace pattern replacement) :=
  .bind_same fun _ _ => h.editTexts hr _

theorem repeated (hr : ∀ i ∈ rows, i < n) (times : Nat) (h : Taken n rows c c') :
    Follows (Taken n rows) (c.repeated times) (c'.repeated times) := by
  unfold Column.repeated
  refine .bind (h.toTexts hr) fun _ _ htexts => ?_
  rw [repeatTexts_eq_mapM, repeatTexts_eq_mapM]
  exact .bind (htexts.mapM hr _) fun _ _ h => .ok (.of_cells _ (h.map _))

theorem concatTexts (hr : ∀ i ∈ rows, i < n) (separator : String) (hne : cs ≠ [])
    (h : List.Forall₂ (Taken n rows) cs cs') :
    Follows (Taken n rows) (Column.concatTexts separator cs)
      (Column.concatTexts separator cs') :=
  .bind (allTexts hr hne h) fun _ _ htexts =>
    .ok (.of_cells _ (((rowsOf_taken htexts.1 htexts.2).map _).map _))

/-! ## Times -/

theorem instants (h : Taken n rows c c') :
    Follows (TypedQuery.Taken n rows) c.instants c'.instants := by
  unfold Column.instants
  rw [h.type_eq]
  split
  · exact .ok (h.cells.map _)
  · exact .ok (h.cells.map _)
  · exact .error _ _

theorem ofInstants {ts ts' : List (Option Instant)} (type : Physical)
    (h : TypedQuery.Taken n rows ts ts') :
    Taken n rows (Column.ofInstants type ts) (Column.ofInstants type ts') :=
  .of_cells _ (h.map _)

theorem temporalField (field : TemporalField) (h : Taken n rows c c') :
    Follows (Taken n rows) (c.temporalField field) (c'.temporalField field) := by
  unfold Column.temporalField
  rw [h.type_eq]
  split
  · exact .ok (.of_cells _ (h.cells.map _))
  · exact .ok (.of_cells _ (h.cells.map _))
  · exact .error _ _

theorem epochSeconds (hr : ∀ i ∈ rows, i < n) (h : Taken n rows c c') :
    Follows (Taken n rows) c.epochSeconds c'.epochSeconds :=
  .bind (h.cast hr _) fun _ _ h => h.cast hr _

theorem strftime (format : String) (h : Taken n rows c c') :
    Follows (Taken n rows) (c.strftime format) (c'.strftime format) := by
  unfold Column.strftime
  split
  · exact .error _ _
  · exact .bind h.instants fun _ _ h => .ok (.of_cells _ ((h.map _).map _))

theorem strptime (hr : ∀ i ∈ rows, i < n) (format : String) (h : Taken n rows c c') :
    Follows (Taken n rows) (c.strptime format) (c'.strptime format) :=
  .bind (h.toTexts hr) fun _ _ h => .ok (ofInstants _ (h.map _))

theorem truncate (hr : ∀ i ∈ rows, i < n) (unit : String) (h : Taken n rows c c') :
    Follows (Taken n rows) (c.truncate unit) (c'.truncate unit) := by
  unfold Column.truncate
  refine .bind h.instants fun _ _ hinstants => ?_
  rw [truncateAll_eq_mapM, truncateAll_eq_mapM, h.type_eq]
  exact .bind (hinstants.mapM hr _) fun _ _ h => .ok (ofInstants _ h)

theorem ofParts (hr : ∀ i ∈ rows, i < n) (type : Physical) (hne : cs ≠ [])
    (h : List.Forall₂ (Taken n rows) cs cs') :
    Follows (Taken n rows) (Column.ofParts type cs) (Column.ofParts type cs') :=
  .bind (allInts hr hne h) fun _ _ hparts =>
    .ok (ofInstants _ ((rowsOf_taken hparts.1 hparts.2).map _))

theorem dateFromParts (hr : ∀ i ∈ rows, i < n) (hne : cs ≠ [])
    (h : List.Forall₂ (Taken n rows) cs cs') :
    Follows (Taken n rows) (Column.dateFromParts cs) (Column.dateFromParts cs') := by
  unfold Column.dateFromParts
  rw [← h.length_eq]
  split
  · exact ofParts hr _ hne h
  · exact .error _ _

theorem timestampFromParts (hr : ∀ i ∈ rows, i < n) (hne : cs ≠ [])
    (h : List.Forall₂ (Taken n rows) cs cs') :
    Follows (Taken n rows) (Column.timestampFromParts cs)
      (Column.timestampFromParts cs') := by
  unfold Column.timestampFromParts
  rw [← h.length_eq]
  split
  · exact ofParts hr _ hne h
  · exact .error _ _

/-! ## Lists -/

theorem requireList (h : Taken n rows c c') :
    Follows (fun _ _ => True) c.requireList c'.requireList := by
  unfold Column.requireList
  rw [h.type_eq]
  split
  · exact .ok trivial
  · exact .error _ _

theorem listLength (h : Taken n rows c c') :
    Follows (Taken n rows) c.listLength c'.listLength := by
  rw [Column.listLength_eq, Column.listLength_eq]
  exact .bind h.requireList fun _ _ _ => .ok (.of_cells _ ((h.cells.map _).map _))

theorem listConcat (hr : ∀ i ∈ rows, i < n) (hl : Taken n rows l l')
    (h : Taken n rows r r') :
    Follows (Taken n rows) (Column.listConcat l r) (Column.listConcat l' r') := by
  rw [Column.listConcat_eq, Column.listConcat_eq, hl.type_eq]
  refine .bind (h.cast hr _) fun _ _ h => .bind hl.requireList fun _ _ _ => ?_
  exact .ok (.of_cells _ (hl.cells.zipWith _ h.cells))

/-- The list of a row has the cells that the columns have in it. -/
theorem cells_at (h : List.Forall₂ (Taken n rows) cs cs') :
    ∃ f : Nat → List Cell, (∀ i < n, (cs.map fun c => c.cells.getD i .null) = f i)
      ∧ ∀ j (hj : j < rows.length), (cs'.map fun c => c.cells.getD j .null) = f rows[j] := by
  induction h with
  | nil => exact ⟨fun _ => [], fun _ _ => rfl, fun _ _ => rfl⟩
  | cons hc _ ih =>
      obtain ⟨t, g, rfl, rfl⟩ := hc
      obtain ⟨f, hf, hf'⟩ := ih
      refine ⟨fun i => g i :: f i, fun i hi => ?_, fun j hj => ?_⟩
      · rw [List.map_cons, hf i hi]
        simp [hi]
      · rw [List.map_cons, hf' j hj]
        simp [hj]

theorem listFromColumns (h : List.Forall₂ (Taken n rows) cs cs') :
    Follows (Taken n rows) (Column.listFromColumns cs) (Column.listFromColumns cs') := by
  obtain ⟨f, hf, hf'⟩ := cells_at h
  cases h with
  | nil => exact .error _ _
  | @cons c c' rest rest' hc hrest =>
      have htypes : (rest'.all fun r => decide (r.type = c.type)) = rest.all fun r =>
          decide (r.type = c.type) := by
        clear hf hf'
        induction hrest with
        | nil => rfl
        | cons hd _ ih => rw [List.all_cons, List.all_cons, hd.type_eq, ih]
      rw [Column.listFromColumns_eq, Column.listFromColumns_eq]
      simp only [hc.type_eq, htypes]
      split
      · rw [hc.length, hc.length_taken]
        refine .ok (.of_cells _ ⟨fun i => .list (f i), ?_, ?_⟩)
        · exact List.map_congr_left fun i hi =>
            congrArg Cell.list (hf i (List.mem_range.1 hi))
        · refine List.ext_getElem (by simp) fun j hj _ => ?_
          have hj : j < rows.length := by simpa using hj
          rw [List.getElem_map, List.getElem_range, List.getElem_map, hf' j hj]
      · exact .error _ _

end Taken

end TypedQuery.Column

namespace TypedQuery

variable {n : Nat} {rows : List Nat} {c c' : Column} {cs cs' : List Column}

/-! ## All functions -/

namespace Function

theorem atan2Columns_taken (hr : ∀ i ∈ rows, i < n) {y y' x x' : Column}
    (hy : y.Taken n rows y') (hx : x.Taken n rows x') :
    Follows (Column.Taken n rows) (atan2Columns y x) (atan2Columns y' x') :=
  .bind (hy.cast hr _) fun _ _ hy => .bind (hx.cast hr _) fun _ _ hx =>
    .ok (.of_cells _ (hy.cells.zipWith _ hx.cells))

theorem applyOne_taken (hr : ∀ i ∈ rows, i < n) (f : Function)
    (h : Column.Taken n rows c c') :
    Follows (Column.Taken n rows) (applyOne c f) (applyOne c' f) := by
  cases f with
  | length => exact h.textLength hr
  | split separator => exact h.splitTexts hr _
  | findInSet values => exact h.findInSet hr _
  | find => exact h.countTexts hr _
  | contains | startsWith | endsWith => exact h.testTexts hr _
  | regexMatch pattern => exact h.regexMatch hr _
  | regexExtract pattern group => exact h.regexExtract hr _ _
  | regexReplace pattern replacement => exact h.regexReplace hr _ _
  | repeated times => exact h.repeated hr _
  | temporal field => exact h.temporalField _
  | epochSeconds => exact h.epochSeconds hr
  | strftime format => exact h.strftime _
  | strptime format => exact h.strptime hr _
  | truncate unit => exact h.truncate hr _
  | listLength => exact h.listLength
  | concat | dateFromParts | timestampFromParts | atan2 | listConcat | listFromColumns =>
      exact .error _ _
  | _ => exact h.editTexts hr _

theorem apply_taken (hr : ∀ i ∈ rows, i < n) (f : Function) (hne : cs ≠ [])
    (h : List.Forall₂ (Column.Taken n rows) cs cs') :
    Follows (Column.Taken n rows) (f.apply cs) (f.apply cs') := by
  cases f with
  | concat separator => exact Column.Taken.concatTexts hr separator hne h
  | dateFromParts => exact Column.Taken.dateFromParts hr hne h
  | timestampFromParts => exact Column.Taken.timestampFromParts hr hne h
  | listFromColumns => exact Column.Taken.listFromColumns h
  | atan2 =>
      cases h with
      | nil => exact .error _ _
      | cons hy hrest =>
          cases hrest with
          | nil => exact .error _ _
          | cons hx hrest =>
              cases hrest with
              | nil => exact atan2Columns_taken hr hy hx
              | cons => exact .error _ _
  | listConcat =>
      cases h with
      | nil => exact .error _ _
      | cons hl hrest =>
          cases hrest with
          | nil => exact .error _ _
          | cons hr' hrest =>
              cases hrest with
              | nil => exact hl.listConcat hr hr'
              | cons => exact .error _ _
  | _ =>
      simp only [apply]
      cases h with
      | nil => exact .error _ _
      | cons hc hrest =>
          cases hrest with
          | nil => exact applyOne_taken hr _ hc
          | cons => exact .error _ _

end Function

/-! ## Constants -/

/-- A constant is the same in every row. -/
theorem Literal.column_taken (hr : ∀ i ∈ rows, i < n) (v : Value) (t : DataType) :
    Follows (Column.Taken n rows) (Literal.column v t n)
      (Literal.column v t rows.length) := by
  unfold Literal.column
  dsimp only
  split
  · exact .ok (.of_cells _ (.replicate _))
  · refine .bind_same fun stored _ => ?_
    have hconstant : Column.Taken n rows (.constant stored.1 stored.2 n)
        (.constant stored.1 stored.2 rows.length) :=
      .of_cells _ (.replicate _)
    split
    · exact .ok hconstant
    · exact hconstant.cast hr _

end TypedQuery
