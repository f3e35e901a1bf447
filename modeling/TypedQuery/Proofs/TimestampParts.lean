import TypedQuery.Proofs.Columnar.Counts
import TypedQuery.Proofs.Engine.Operands
import TypedQuery.Proofs.Node.Calls
import TypedQuery.Proofs.OperandHeights
import TypedQuery.Proofs.Time.Calendar

/-!
# Timestamps from parts

Six columns of whole numbers are read row by row as the parts of a moment. A valid moment
becomes the exact number of seconds since 1970, but it is counted in nanoseconds on the
way, and one that is too far from 1970 to be counted so becomes null as well, although its
seconds would have room.
-/

namespace TypedQuery

namespace Column

variable {c d : Column} {cs ds : List Column} {t : Physical} {rows m i k : Nat}
    {f : Nat → Option Int}

/-! ## Columns at one height -/

/-- Where the cell of a row stands in a column of some height. -/
def place (height i : Nat) : Nat := if height = 1 then 0 else i

theorem getElem?_place (hspans : c.Spans rows) (hi : i < rows) :
    c.cells[place c.length i]? = some (c.row i) := by
  have hindex : place c.length i < c.length := by
    unfold Spans at hspans
    unfold place
    split <;> omega
  rw [row, List.getD_eq_getElem?_getD,
    show (if c.length = 1 then 0 else i) = place c.length i from rfl,
    List.getElem?_eq_getElem hindex]
  rfl

/-- The height does not matter for the rows. -/
theorem Counts.broadcast (h : c.Counts t rows f) (hd : c.broadcast m = .ok d)
    (hm : m = rows ∨ m = 1) :
    d.Counts t rows f ∧ d.length = m := by
  have hlength := Batch.length_broadcast hd
  refine ⟨⟨(type_broadcast _ _ _ hd).trans h.type_eq, (h.typed.broadcast m d hd).2, ?_,
    fun i hi => ?_⟩, hlength⟩
  · rwa [Spans, hlength]
  · rw [← h.count_eq i hi]
    rcases hm with rfl | rfl
    · rw [row_broadcast hd hi]
    · have hone : c.length = 1 := (height_of_broadcast hd).elim id id
      rw [Column.broadcast, if_pos hone] at hd
      cases hd
      rfl

/-- Columns of counts, each with what it holds. -/
def AllCounts (rows : Nat) : List Column → List (Nat → Option Int) → Prop :=
  List.Forall₂ fun c f => ∃ t, t.countable = true ∧ c.Counts t rows f

theorem AllCounts.of_typed (h : ∀ c ∈ cs, c.Typed ∧ c.type.countable = true)
    (hspans : ∀ c ∈ cs, c.Spans rows) :
    AllCounts rows cs (cs.map fun c i => (c.row i).int?) :=
  List.forall₂_map_right_iff.2 (List.forall₂_same.2 fun c hc =>
    ⟨c.type, (h c hc).2, (h c hc).1.counts (hspans c hc)⟩)

theorem AllCounts.broadcastAll {fs : List (Nat → Option Int)} (h : AllCounts rows cs fs)
    (hm : m = rows ∨ m = 1) (hheights : ∀ c ∈ cs, c.Spans m) :
    ∃ ds, Column.broadcastAll m cs = .ok ds ∧ AllCounts rows ds fs
      ∧ ∀ d ∈ ds, d.length = m := by
  induction h with
  | nil => exact ⟨[], rfl, .nil, nofun⟩
  | cons hc _ ih =>
      obtain ⟨hheight, hheights⟩ := List.forall_mem_cons.1 hheights
      obtain ⟨t, ht, hcounts⟩ := hc
      obtain ⟨d, hd⟩ := exists_broadcast hheight
      obtain ⟨ds, hds, hall, hlengths⟩ := ih hheights
      obtain ⟨hcounts, hlength⟩ := hcounts.broadcast hd hm
      exact ⟨d :: ds, bind_eq_ok.2 ⟨d, hd, bind_eq_ok.2 ⟨ds, hds, rfl⟩⟩,
        .cons ⟨t, ht, hcounts⟩ hall, List.forall_mem_cons.2 ⟨hlength, hlengths⟩⟩

/-- Columns that go with the rows can be brought to the height of the tallest. -/
theorem AllCounts.align {fs : List (Nat → Option Int)} (h : AllCounts rows cs fs)
    (hrows : 0 < rows) (hne : cs ≠ []) (hspans : ∀ c ∈ cs, c.Spans rows) :
    ∃ m ds, Column.align cs = .ok ds ∧ (m = rows ∨ m = 1) ∧ AllCounts rows ds fs
      ∧ ∀ d ∈ ds, d.length = m := by
  have hle := (le_foldl_max 0 (cs.map length)).2
  generalize hm : (cs.map length).foldl max 0 = m at hle
  have hheight : m = rows ∨ m = 1 := by
    rcases List.mem_cons.1 (foldl_max_mem 0 (cs.map length)) with hzero | hmem
    · obtain ⟨c, rest, rfl⟩ := List.exists_cons_of_ne_nil hne
      have hspan := hspans c List.mem_cons_self
      have hlength := hle c.length List.mem_cons_self
      unfold Spans at hspan
      omega
    · obtain ⟨c, hc, hlength⟩ := List.mem_map.1 hmem
      have hspan := hspans c hc
      unfold Spans at hspan
      omega
  have hheights : ∀ c ∈ cs, c.Spans m := by
    intro c hc
    have hspan := hspans c hc
    have hlength := hle c.length (List.mem_map_of_mem hc)
    unfold Spans at *
    omega
  obtain ⟨ds, hds, hall, hlengths⟩ := h.broadcastAll hheight hheights
  exact ⟨m, ds, by rw [Column.align, hm, hds], hheight, hall, hlengths⟩

/-! ## Rows of parts -/

/-- The counts of all columns, as lists of one length. -/
theorem AllCounts.allInts {fs : List (Nat → Option Int)} (h : AllCounts rows ds fs)
    (hlengths : ∀ d ∈ ds, d.length = m) :
    ∃ nss, Column.allInts ds = .ok nss ∧ nss.length = ds.length ∧ (∀ ns ∈ nss, ns.length = m)
      ∧ ∀ i < rows, List.Forall₂ (fun ns n => ns[place m i]? = some n) nss
        (fs.map fun f => f i) := by
  induction h with
  | nil => exact ⟨[], rfl, rfl, nofun, fun _ _ => .nil⟩
  | cons hd _ ih =>
      obtain ⟨hlength, hlengths⟩ := List.forall_mem_cons.1 hlengths
      obtain ⟨t, ht, hcounts⟩ := hd
      obtain ⟨wide, hwide, hwidelength, hwidecounts⟩ := hcounts.toInt64 ht
      obtain ⟨nss, hnss, hcount, hnsslengths, hall⟩ := ih hlengths
      have hheight : wide.length = m := hwidelength.trans hlength
      refine ⟨wide.cells.map Cell.int? :: nss,
        bind_eq_ok.2 ⟨_, bind_eq_ok.2 ⟨wide, hwide, rfl⟩, bind_eq_ok.2 ⟨nss, hnss, rfl⟩⟩,
        congrArg Nat.succ hcount,
        List.forall_mem_cons.2 ⟨(List.length_map _).trans hheight, hnsslengths⟩,
        fun i hi => .cons ?_ (hall i hi)⟩
      rw [List.getElem?_map, ← hheight, getElem?_place hwidecounts.spans hi]
      exact congrArg some (hwidecounts.count_eq i hi)

theorem length_rowsOf {α : Type} {xss : List (List α)} (h : ∀ xs ∈ xss, xs.length = m)
    (hne : xss ≠ []) :
    (rowsOf xss).length = m := by
  induction xss with
  | nil => exact absurd rfl hne
  | cons xs rest ih =>
      obtain ⟨hxs, hrest⟩ := List.forall_mem_cons.1 h
      cases rest with
      | nil => rw [rowsOf, List.length_map, hxs]
      | cons ys more =>
          show (List.zipWith _ xs (rowsOf (ys :: more))).length = m
          rw [List.length_zipWith, hxs, ih hrest (List.cons_ne_nil _ _), Nat.min_self]

/-- A row has what each column has there. -/
theorem getElem?_rowsOf {α : Type} {xss : List (List α)} {row : List α}
    (h : List.Forall₂ (fun xs x => xs[k]? = some x) xss row) (hne : xss ≠ []) :
    (rowsOf xss)[k]? = some row := by
  induction h with
  | nil => exact absurd rfl hne
  | @cons xs x rest _ hx hrest ih =>
      cases hrest with
      | nil => rw [rowsOf, List.getElem?_map, hx]; rfl
      | cons hy hmore =>
          show (List.zipWith _ xs (rowsOf _))[k]? = _
          rw [List.getElem?_zipWith, hx, ih (List.cons_ne_nil _ _)]

/-- Instants are put together row by row. -/
theorem row_ofParts (type : Physical) {fs : List (Nat → Option Int)}
    (h : AllCounts rows ds fs) (hne : ds ≠ []) (hm : m = rows ∨ m = 1)
    (hlengths : ∀ d ∈ ds, d.length = m) :
    ∃ out, ofParts type ds = .ok out ∧ out.type = type ∧ out.length = m
      ∧ ∀ i < rows,
        out.row i = ((((fs.map fun f : Nat → Option Int => f i).mapM id).bind
          instantOfParts).map (instantCell type)).getD .null := by
  obtain ⟨nss, hnss, hcount, hnsslengths, hall⟩ := h.allInts hlengths
  have hnssne : nss ≠ [] := by
    rintro rfl
    exact hne (List.length_eq_zero_iff.1 hcount.symm)
  have hlength :
      (ofInstants type
        ((rowsOf nss).map fun row => (row.mapM id).bind instantOfParts)).length = m := by
    rw [length, ofInstants, List.length_map, List.length_map,
      length_rowsOf hnsslengths hnssne]
  refine ⟨_, bind_eq_ok.2 ⟨nss, hnss, rfl⟩, rfl, hlength, fun i hi => ?_⟩
  have hcell :=
    getElem?_place (c :=
      ofInstants type ((rowsOf nss).map fun row => (row.mapM id).bind instantOfParts))
    (by rwa [Spans, hlength]) hi
  rw [hlength, ofInstants, List.getElem?_map, List.getElem?_map,
    getElem?_rowsOf (hall i hi) hnssne] at hcell
  exact (Option.some.inj hcell).symm

end Column

/-! ## Moments -/

namespace Calendar.Moment

variable {m : Moment}

/-- The moment is near enough to 1970 to be counted in nanoseconds. -/
def Counted (m : Moment) : Prop :=
  Instant.fitsInt64 (m.elapsed * Instant.nanosPerSecond) = true

instance (m : Moment) : Decidable m.Counted := inferInstanceAs (Decidable (_ = true))

/-- That is from 1677-09-21T00:12:44 to 2262-04-11T23:47:16. -/
theorem counted_iff : m.Counted ↔ -9223372036 ≤ m.elapsed ∧ m.elapsed ≤ 9223372036 := by
  rw [Counted, Instant.fitsInt64_iff, Instant.nanosPerSecond]
  omega

/-- The instant of a moment, at its day and the second of the day. -/
def instant (m : Moment) : Instant :=
  ⟨m.date.toDays, (m.hour * 3600 + m.minute * 60 + m.second).toNat, 0⟩

theorem instantOfParts_eq (m : Moment) :
    Column.instantOfParts m.parts = if m.Valid then some m.instant else none := by
  show ((Date.ofParts? m.year m.month m.day).bind fun d =>
    (Instant.clock? m.hour m.minute m.second).bind fun clock =>
    some (⟨d.toDays, clock, 0⟩ : Instant)) = _
  split
  · next h =>
      rw [ofParts?_of_valid h, clock?_of_valid h]
      rfl
  · next h =>
      rcases none_of_not_valid h with h | h <;> rw [h]
      · rfl
      · exact Option.bind_eq_none_iff.2 fun _ _ => rfl

/-- The instant of a valid moment is as many nanoseconds from 1970 as a billion times its
seconds. -/
theorem exactNanos_instant (h : m.Valid) :
    m.instant.exactNanos = m.elapsed * Instant.nanosPerSecond := by
  obtain ⟨hhour, -⟩ := h.hour
  obtain ⟨hminute, -⟩ := h.minute
  obtain ⟨hsecond, -⟩ := h.second
  simp only [instant, Instant.exactNanos, Instant.seconds, Instant.secondsPerDay,
    Instant.nanosPerSecond, toDays_of_valid h, elapsed]
  rw [Int.toNat_of_nonneg (by omega)]
  omega

/-- What stands in a row for the parts of a moment. -/
def cell (m : Moment) : Cell := if m.Valid ∧ m.Counted then .int m.elapsed else .null

theorem instantCell_parts (m : Moment) :
    ((Column.instantOfParts m.parts).map (Column.instantCell (.timestamp .second))).getD
      .null = m.cell := by
  rw [instantOfParts_eq, cell]
  by_cases hvalid : m.Valid
  · rw [if_pos hvalid]
    show Cell.ofOption _ (Instant.nanos? _) = _
    rw [Instant.nanos?, exactNanos_instant hvalid]
    by_cases hcounted : Instant.fitsInt64 (m.elapsed * Instant.nanosPerSecond) = true
    · rw [if_pos hcounted, if_pos ⟨hvalid, hcounted⟩]
      show Cell.int ((m.elapsed * Instant.nanosPerSecond).tdiv Instant.nanosPerSecond) = _
      rw [Int.mul_tdiv_cancel _ (by decide)]
    · rw [if_neg hcounted, if_neg fun h => hcounted h.2]
      rfl
  · rw [if_neg hvalid, if_neg fun h => hvalid h.1]
    rfl

/-- Six whole numbers are the parts of a moment. -/
theorem exists_of_cells {cells : List Cell} (hlength : cells.length = 6)
    (h : ∀ cell ∈ cells, ∃ n, cell = .int n) :
    ∃ m : Moment, cells = m.parts.map .int := by
  obtain ⟨year, month, day, hour, minute, second, rfl⟩ :
      ∃ year month day hour minute second,
          cells = [year, month, day, hour, minute, second] := by
    match cells, hlength with
    | [_, _, _, _, _, _], _ => exact ⟨_, _, _, _, _, _, rfl⟩
  simp only [List.forall_mem_cons] at h
  obtain ⟨⟨_, rfl⟩, ⟨_, rfl⟩, ⟨_, rfl⟩, ⟨_, rfl⟩, ⟨_, rfl⟩, ⟨_, rfl⟩, -⟩ := h
  exact ⟨⟨_, _, _, _, _, _⟩, rfl⟩

end Calendar.Moment

theorem mapM_id_of_mem {α : Type} {values : List (Option α)} (h : none ∈ values) :
    values.mapM id = none := by
  induction values with
  | nil => cases h
  | cons value rest ih =>
      rw [List.mapM_cons]
      cases value with
      | none => rfl
      | some a =>
          rw [ih ((List.mem_cons.1 h).resolve_left nofun)]
          rfl

namespace Column

variable {cs : List Column} {b : Batch}

/-- In a row of columns of counts, one for each part, a part is null or all are those of a
moment. -/
theorem exists_null_or_moment {rows i : Nat} (hlength : cs.length = 6)
    (htyped : ∀ c ∈ cs, c.Typed ∧ c.type.countable = true) (hspans : ∀ c ∈ cs, c.Spans rows)
    (hi : i < rows) :
    (∃ c ∈ cs, (c.row i).isNull = true) ∨ ∃ m : Calendar.Moment,
      cs.map (·.row i) = m.parts.map .int := by
  by_cases hany : ∃ c ∈ cs, (c.row i).isNull = true
  · exact .inl hany
  · refine .inr
      (Calendar.Moment.exists_of_cells (by rw [List.length_map, hlength])
        fun cell hcell => ?_)
    obtain ⟨c, hc, rfl⟩ := List.mem_map.1 hcell
    obtain ⟨htyped, hcountable⟩ := htyped c hc
    rcases Cell.eq_int_or_missing hcountable (htyped _ (row_mem (hspans c hc) hi))
      with hn | ⟨r, hr⟩
    · exact hn
    · exact absurd ⟨c, hc, by rw [hr]; rfl⟩ hany

/-- Of columns of counts, one for each part, the timestamps can be put together. -/
theorem exists_timestampFromParts {rows : Nat} (hrows : 0 < rows) (hlength : cs.length = 6)
    (htyped : ∀ c ∈ cs, c.Typed ∧ c.type.countable = true)
    (hspans : ∀ c ∈ cs, c.Spans rows) :
    ∃ out, (Column.align cs >>= Function.apply .timestampFromParts) = .ok out
      ∧ out.type = .timestamp .second
      ∧ out.Spans rows ∧ ∀ i < rows,
        ((∃ c ∈ cs, (c.row i).isNull = true) → out.row i = .null)
        ∧ ∀ m : Calendar.Moment, cs.map (·.row i) = m.parts.map .int →
          out.row i = m.cell := by
  have hne : cs ≠ [] := fun h => by rw [h] at hlength; cases hlength
  have hcounts := AllCounts.of_typed htyped hspans
  obtain ⟨m, ds, hds, hm, hall, hlengths⟩ := hcounts.align hrows hne hspans
  have hdslength : ds.length = 6 := by rw [hall.length_eq, List.length_map, hlength]
  have hdsne : ds ≠ [] := fun h => by rw [h] at hdslength; cases hdslength
  obtain ⟨out, hout, htype, houtlength, hrow⟩ :=
    row_ofParts (.timestamp .second) hall hdsne hm hlengths
  refine ⟨out, bind_eq_ok.2 ⟨ds, hds, ?_⟩, htype, by rwa [Spans, houtlength], fun i hi => ?_⟩
  · rw [Function.apply, timestampFromParts, if_pos hdslength, hout]
  · rw [hrow i hi, List.map_map]
    constructor
    · rintro ⟨c, hc, hnull⟩
      have hnone :
          none ∈ cs.map ((fun f : Nat → Option Int => f i) ∘ fun c i => (c.row i).int?) := by
        refine List.mem_map.2 ⟨c, hc, ?_⟩
        exact (Cell.int?_eq_none (htyped c hc).2
          ((htyped c hc).1 _ (row_mem (hspans c hc) hi))).2 hnull
      rw [mapM_id_of_mem hnone]
      rfl
    · intro moment hmoment
      have hparts : cs.map ((fun f : Nat → Option Int => f i) ∘ fun c i => (c.row i).int?)
          = moment.parts.map some := by
        have hints := congrArg (List.map Cell.int?) hmoment
        rw [List.map_map, List.map_map] at hints
        exact hints
      rw [hparts]
      exact moment.instantCell_parts

end Column

/-- Putting a timestamp together from six columns of whole numbers compiles and succeeds.
A row is null if a part is, if the parts are not a valid moment, or if the moment is too
far from 1970 to be counted in nanoseconds; otherwise it is the exact number of seconds
between 1970 and the moment. -/
theorem timestamp_parts {clock : Engine.Clock} {n : Node} {es : List Expr} (h : n.Built)
    (hk : n.kind = .timestampFromYmdhms)
    (hes : List.Forall₂ (Engine.Operand clock n)
      ["year", "month", "day", "hours", "minutes", "seconds"] es) :
    ∃ e, Engine.Compiled clock n e ∧ ∀ (b : Batch) (cs : List Column),
      Expr.evaluateList b es = .ok cs → 0 < b.rows →
      (∀ c ∈ cs, c.Typed ∧ (c.type = .int32 ∨ c.type = .int64 ∨ c.type = .null)
        ∧ c.Spans b.rows) →
        ∃ out, e.evaluate b = .ok out ∧ out.Stores (.timestamp .second) ∧ out.Spans b.rows
          ∧ ∀ i < b.rows, ((out.row i).isNull = true ↔ (∃ c ∈ cs, (c.row i).isNull = true)
              ∨ ∃ m : Calendar.Moment,
                cs.map (·.row i) = m.parts.map .int ∧ ¬ (m.Valid ∧ m.Counted))
            ∧ ∀ m : Calendar.Moment, cs.map (·.row i) = m.parts.map .int →
              m.Valid → m.Counted →
              out.row i = .int m.elapsed := by
  have hcompiled :=
    Engine.compiled_callOf h (k := .timestampFromYmdhms) (Engine.resolve_of_kind hk rfl) hes
  refine ⟨_, hcompiled, fun b cs hcs hrows hall => ?_⟩
  have hlength : cs.length = 6 := (Expr.evaluateList_length hcs).trans hes.length_eq.symm
  have hcountable : ∀ c ∈ cs, c.Typed ∧ c.type.countable = true := fun c hc => by
    obtain ⟨htyped, htype, -⟩ := hall c hc
    refine ⟨htyped, ?_⟩
    rcases htype with htype | htype | htype <;> rw [htype] <;> rfl
  obtain ⟨out, hout, htype, hspans, hrow⟩ :=
    Column.exists_timestampFromParts hrows hlength hcountable fun c hc => (hall c hc).2.2
  have hevaluate : (Expr.call .timestampFromParts es).evaluate b = .ok out := by
    rw [Expr.evaluate, hcs]
    exact hout
  have htyped : out.Typed := by
    obtain ⟨ds, hds, hout⟩ := bind_eq_ok.1 hout
    have htyped := Column.typed_broadcastAll _ (fun c hc => (hall c hc).1) ds hds
    exact Function.timestampFromParts.typed_apply htyped out hout
  refine ⟨out, hevaluate, ⟨htype, htyped⟩, hspans, fun i hi => ?_⟩
  obtain ⟨hnull, hmoment⟩ := hrow i hi
  refine ⟨⟨fun hout => ?_, ?_⟩, fun m hm hvalid hcounted => ?_⟩
  · refine (Column.exists_null_or_moment hlength hcountable
      (fun c hc => (hall c hc).2.2) hi).imp_right ?_
    rintro ⟨m, hm⟩
    refine ⟨m, hm, fun hgood => ?_⟩
    rw [hmoment m hm, Calendar.Moment.cell, if_pos hgood] at hout
    cases hout
  · rintro (hany | ⟨m, hm, hbad⟩)
    · rw [hnull hany]
      rfl
    · rw [hmoment m hm, Calendar.Moment.cell, if_neg hbad]
      rfl
  · rw [hmoment m hm, Calendar.Moment.cell, if_pos ⟨hvalid, hcounted⟩]

/-- A moment of this century, a month that there is not, a moment that is too far
away, and an unknown one. -/
theorem timestamp_parts_of_four_rows :
    ∃ (source y m n : Node) (e : Expr) (b : Batch) (out : Column),
      Node.databaseTable "t" ⟨[⟨"y", .int32, true⟩, ⟨"m", .int64, true⟩]⟩ = .ok source
        ∧ Node.column source "y" = .ok y ∧ Node.column source "m" = .ok m
        ∧ Node.build .timestampFromYmdhms
          [.node y, .node m, .node (Node.literal (.int64 28)),
            .node (Node.literal (.int64 12)),
          .node (Node.literal (.int64 30)), .node (Node.literal (.int64 15))] [] = .ok n
        ∧ Engine.Compiled ⟨0⟩ n e
        ∧ b = ⟨4, [("y", ⟨.int32, [.int 2024, .int 2024, .int 3000, .null]⟩),
          ("m", ⟨.int64, [.int 2, .int 13, .int 2, .int 2]⟩)]⟩
        ∧ e.evaluate b = .ok out ∧ out.Stores (.timestamp .second)
        ∧ out.row 0 = .int 1709123415 ∧ (out.row 1).isNull = true
        ∧ (out.row 2).isNull = true ∧ (out.row 3).isNull = true := by
  obtain ⟨source, y, m, n, ⟨hsource, hy, hm, hn⟩, hkind, hes⟩ :
      ∃ source y m n : Node,
        (Node.databaseTable "t" ⟨[⟨"y", .int32, true⟩, ⟨"m", .int64, true⟩]⟩ = .ok source
            ∧ Node.column source "y" = .ok y ∧ Node.column source "m" = .ok m
            ∧ Node.build .timestampFromYmdhms
              [.node y, .node m, .node (Node.literal (.int64 28)),
                .node (Node.literal (.int64 12)), .node (Node.literal (.int64 30)),
                .node (Node.literal (.int64 15))] [] = .ok n)
          ∧ n.kind = .timestampFromYmdhms
          ∧ List.Forall₂ (Engine.Operand ⟨0⟩ n)
            ["year", "month", "day", "hours", "minutes", "seconds"]
            [.column "y", .column "m", .constant (.int64 28), .constant (.int64 12),
              .constant (.int64 30), .constant (.int64 15)] :=
    ⟨_, _, _, _, ⟨rfl, rfl, rfl, rfl⟩, rfl,
      .cons ⟨_, rfl, rfl⟩ (.cons ⟨_, rfl, rfl⟩ (.cons ⟨_, rfl, rfl⟩
      (.cons ⟨_, rfl, rfl⟩ (.cons ⟨_, rfl, rfl⟩ (.cons ⟨_, rfl, rfl⟩ .nil)))))⟩
  have bsource := Node.built_databaseTable hsource
  have bn : n.Built := by
    refine .of_build hn (fun k hk => ?_) nofun
    simp only [Arg.nodesOfItems, Arg.nodes, List.singleton_append, List.mem_cons,
      List.not_mem_nil, or_false] at hk
    rcases hk with rfl | rfl | rfl | rfl | rfl | rfl
    · exact Node.built_column bsource hy
    · exact Node.built_column bsource hm
    all_goals exact .literal _
  obtain ⟨e, he, hrows⟩ := timestamp_parts bn hkind hes
  obtain ⟨cs, hcs⟩ :
      ∃ cs : List Column,
        cs = [⟨.int32, [.int 2024, .int 2024, .int 3000, .null]⟩,
          ⟨.int64, [.int 2, .int 13, .int 2, .int 2]⟩, .constant .int64 (.int 28) 4,
          .constant .int64 (.int 12) 4,
      .constant .int64 (.int 30) 4, .constant .int64 (.int 15) 4] := ⟨_, rfl⟩
  obtain ⟨out, hout, hstores, -, hall⟩ :=
      hrows ⟨4, [("y", ⟨.int32, [.int 2024, .int 2024, .int 3000, .null]⟩),
          ("m", ⟨.int64, [.int 2, .int 13, .int 2, .int 2]⟩)]⟩ cs (by subst hcs; rfl)
          (show 0 < 4 by decide) (by
    subst hcs
    simp only [List.forall_mem_cons, Column.Typed, Column.Spans]
    decide)
  refine ⟨source, y, m, n, e, _, out, hsource, hy, hm, hn, he, rfl, hout,
    hstores, ?_, ?_, ?_, ?_⟩
  · rw [(hall 0 (show 0 < 4 by decide)).2 ⟨2024, 2, 28, 12, 30, 15⟩ (by subst hcs; rfl)
      (by decide) (by decide)]
    decide
  · exact (hall 1 (show 1 < 4 by decide)).1.2
      (.inr ⟨⟨2024, 13, 28, 12, 30, 15⟩, by subst hcs; rfl, by decide⟩)
  · exact (hall 2 (show 2 < 4 by decide)).1.2
      (.inr ⟨⟨3000, 2, 28, 12, 30, 15⟩, by subst hcs; rfl, by decide +kernel⟩)
  · exact (hall 3 (show 3 < 4 by decide)).1.2
      (.inl ⟨_, by subst hcs; exact List.mem_cons_self, rfl⟩)

/-- The first moment of the year 3000 is a moment of the calendar, and becomes null. -/
theorem timestamp_parts_too_far :
    ∃ source y one zero n item q : Node,
      Node.databaseTable "t" ⟨[⟨"y", .int64, true⟩]⟩ = .ok source
        ∧ Node.column source "y" = .ok y
        ∧ one = Node.literal (.int64 1) ∧ zero = Node.literal (.int64 0)
        ∧ Node.build .timestampFromYmdhms [.node y, .node one, .node one, .node zero,
          .node zero, .node zero] [] = .ok n
        ∧ Node.rename (.node n) "x" = .ok item
        ∧ Node.build .selection [.node source] [("selections", .seq [.node item])] = .ok q
        ∧ Calendar.Moment.Valid ⟨3000, 1, 1, 0, 0, 0⟩
        ∧ Calendar.Moment.elapsed ⟨3000, 1, 1, 0, 0, 0⟩ = 32503680000
        ∧ ∀ catalog : Catalog, catalog = ⟨[("t", ⟨1, [("y", ⟨.int64, [.int 3000]⟩)]⟩)], {}⟩ →
          Engine.execute {} ⟨0⟩ q catalog
            = .ok ⟨1, [("x", ⟨.timestamp .second, [.null]⟩)]⟩ := by
  refine ⟨_, _, _, _, _, _, _, rfl, rfl, rfl, rfl, rfl, rfl, rfl, by decide,
    by decide +kernel, ?_⟩
  rintro _ rfl
  with_unfolding_all decide

end TypedQuery
