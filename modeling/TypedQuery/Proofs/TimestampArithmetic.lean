import TypedQuery.Proofs.Columnar.Counts
import TypedQuery.Proofs.Engine.Operands
import TypedQuery.Proofs.Node.Calls

/-!
# Arithmetic of timestamps

A timestamp is moved on the scale of its own ticks where a step of the interval is a
whole number of them, and in nanoseconds otherwise. The first way is exact. On the
second the counts of both sides are brought to nanoseconds, where they may not fit
into 64 bits any more, and the fraction of a tick that is left in the end is dropped
towards 1970: an instant before it that does not fall on a tick is taken to the next
tick, and not to the last.

The difference of two timestamps counts whole seconds. Each side is brought to seconds by
itself, and the fraction is dropped towards 1970, so that seconds come out that were put in
if both sides are on one side of 1970 or are whole seconds. Where the two lie around 1970
and are not whole seconds, the fraction of each is dropped in the direction of the other,
and the difference is a second too small.
-/

namespace TypedQuery

variable {b : Batch} {base delta : Expr} {f g : Nat → Option Int} {op : Int → Int → Int}
    {arith : Column.Arithmetic}
  {tick step : Int} {P : Prop}

/-! ## Counts on two scales -/

/-- The counts on the way from a count of ticks and one of steps to the count of ticks
that they make together. -/
def shiftCounts (op : Int → Int → Int) (tick step : Int) (x d : Option Int) :
    List (Option Int) :=
  if step % tick = 0 then
    [d.map (· * (step / tick)), Option.map₂ (fun x d => op x (d * (step / tick))) x d]
  else [x.map (· * tick), d.map (· * step),
    Option.map₂ (fun x d => op (x * tick) (d * step)) x d]

/-- Every count on the way has room in 64 bits. -/
def ShiftFits (op : Int → Int → Int) (tick step : Int) (x d : Option Int) : Prop :=
  ∀ count ∈ shiftCounts op tick step x d, ∀ n ∈ count, Instant.fitsInt64 n = true

instance (op : Int → Int → Int) (tick step : Int) (x d : Option Int) :
    Decidable (ShiftFits op tick step x d) :=
  inferInstanceAs (Decidable
    (∀ count ∈ shiftCounts op tick step x d, ∀ n ∈ count, Instant.fitsInt64 n = true))

/-- The ticks in what both counts make together, without what remains of a tick. -/
def shifted (op : Int → Int → Int) (tick step x d : Int) : Int :=
  (op (x * tick) (d * step)).tdiv tick

theorem Instant.fitsInt64_tdiv {n : Int} (h : fitsInt64 n = true) (htick : 0 < tick) :
    fitsInt64 (n.tdiv tick) = true := by
  obtain ⟨hmin, hmax⟩ := fitsInt64_iff.1 h
  rw [fitsInt64_iff]
  rcases Int.le_total 0 n with hn | hn
  · have hpos := Int.tdiv_nonneg hn (Int.le_of_lt htick)
    have hle := Int.tdiv_le_self tick hn
    omega
  · have hpos := Int.tdiv_nonneg (Int.neg_nonneg_of_nonpos hn) (Int.le_of_lt htick)
    have hle := Int.tdiv_le_self tick (Int.neg_nonneg_of_nonpos hn)
    rw [Int.neg_tdiv] at hpos hle
    omega

/-- Operations that go along with a change of the scale. -/
def Scales (op : Int → Int → Int) : Prop := ∀ x y k, op (x * k) (y * k) = op x y * k

theorem scales_add : Scales (· + ·) := fun x y k => (Int.add_mul x y k).symm

theorem scales_sub : Scales (· - ·) := fun x y k => (Int.sub_mul x y k).symm

/-- Steps of whole ticks are added as ticks. -/
theorem shifted_of_emod (hop : Scales op) (htick : tick ≠ 0)
    (h : step % tick = 0) (x d : Int) :
    shifted op tick step x d = op x (d * (step / tick)) := by
  have hstep : d * step = d * (step / tick) * tick := by
    rw [Int.mul_assoc, Int.ediv_mul_cancel (Int.dvd_of_emod_eq_zero h)]
  rw [shifted, hstep, hop, Int.mul_tdiv_cancel _ htick]

namespace Expr.Tallies

/-- A count of something that is so many of another thing. -/
theorem times {e : Expr} {k : Int} (h : Tallies b e f P) (hk : Instant.fitsInt64 k = true) :
    Tallies b (e.multiply (.ofInt k)) (fun i => (f i).map (· * k))
      (P ∧ ∀ i < b.rows, ∀ n, (f i).map (· * k) = some n → Instant.fitsInt64 n = true) := by
  have hproduct : Tallies b (e.multiply (.ofInt k)) _ _ :=
    h.arithmetic (k := (· * ·)) (ofInt hk) (.inr (tall_ofInt hk)) fun _ _ _ _ _ _ => rfl
  refine hproduct.congr (fun i _ => Option.map₂_coe_right _ _ _) ?_
  simp only [Option.map₂_coe_right, true_and]

theorem tall_times {e : Expr} {k : Int} (h : Tallies b e f P)
    (hk : Instant.fitsInt64 k = true) :
    Tall b (e.multiply (.ofInt k)) :=
  h.tall (ofInt hk) (.inr (tall_ofInt hk)) _

/-- A count of ticks that is moved by a count of steps. -/
theorem shift (hbase : Tallies b base f True) (hdelta : Tallies b delta g True)
    (hop : Scales op) (harith : ∀ x y, arith.onInts x y = .ok (op x y)) (htick : 0 < tick)
    (htickfits : Instant.fitsInt64 tick = true) (hstep : 0 < step)
    (hstepfits : Instant.fitsInt64 step = true) :
    Tallies b (Engine.shift (fun l r => .binary l (.arithmetic arith) r) base
      delta tick step)
        (fun i => Option.map₂ (shifted op tick step) (f i) (g i))
          (∀ i < b.rows, ShiftFits op tick step (f i) (g i))
      ∧ Tall b (Engine.shift (fun l r => .binary l (.arithmetic arith) r) base delta
        tick step) := by
  unfold Engine.shift
  split
  · next hmod =>
      have hratio : Instant.fitsInt64 (step / tick) = true := by
        obtain ⟨-, hmax⟩ := Instant.fitsInt64_iff.1 hstepfits
        have hpos := Int.ediv_nonneg (Int.le_of_lt hstep) (Int.le_of_lt htick)
        have hle := Int.ediv_le_self tick (Int.le_of_lt hstep)
        exact Instant.fitsInt64_iff.2 ⟨by omega, by omega⟩
      have hticks := hdelta.times hratio
      have htall := hdelta.tall_times hratio
      refine ⟨(hbase.arithmetic hticks (.inr htall) fun _ _ x y _ _ => harith x y).congr
        (fun i _ => ?_) ?_, hbase.tall hticks (.inr htall) _⟩
      · rw [Option.map₂_map_right, funext₂ (shifted_of_emod hop (by omega) hmod)]
      · simp only [ShiftFits, shiftCounts, if_pos hmod, Option.map₂_map_right,
          List.forall_mem_cons, List.not_mem_nil, true_and, false_implies, implies_true,
          and_true, Option.mem_def]
        exact ⟨fun h i hi => ⟨h.1 i hi, h.2 i hi⟩,
          fun h => ⟨fun i hi => (h i hi).1, fun i hi => (h i hi).2⟩⟩
  · next hmod =>
      have hleft := hbase.times htickfits
      have hright := hdelta.times hstepfits
      have hlefttall := hbase.tall_times htickfits
      have hsum := hleft.arithmetic hright (.inl hlefttall) fun _ _ x y _ _ => harith x y
      have htall := tall_ofInt (b := b) htickfits
      -- The division is by a constant, which is not zero, and makes the count smaller.
      have hdivide : ∀ x y, some tick = some y →
          Column.Arithmetic.divide.onInts x y = .ok (x.tdiv y) := by
        rintro x _ ⟨⟩
        exact if_neg (by omega)
      have hquotient :=
        hsum.arithmetic (ofInt htickfits) (.inr htall) fun _ _ x y _ hy => hdivide x y hy
      refine ⟨hquotient.congr (fun i _ => ?_) ?_, hsum.tall (ofInt htickfits) (.inr htall) _⟩
      · rw [Option.map₂_coe_right, Option.map₂_map_right, Option.map₂_map_left,
          Option.map_map₂]
        rfl
      · simp only [ShiftFits, shiftCounts, if_neg hmod, Option.map₂_map_right,
          Option.map₂_map_left, Option.map₂_coe_right, List.forall_mem_cons,
          List.not_mem_nil, true_and, false_implies, implies_true, and_true, Option.mem_def]
        constructor
        · rintro ⟨⟨hx, hd, hboth⟩, -⟩ i hi
          exact ⟨hx i hi, hd i hi, hboth i hi⟩
        · intro h
          refine ⟨⟨fun i hi => (h i hi).1, fun i hi => (h i hi).2.1,
            fun i hi => (h i hi).2.2⟩, fun i hi n hn => ?_⟩
          obtain ⟨m, hm, rfl⟩ := Option.map_eq_some_iff.1 hn
          exact Instant.fitsInt64_tdiv ((h i hi).2.2 m hm) htick

end Expr.Tallies

/-! ## Nodes -/

theorem TimeUnit.fitsInt64_nanos (u : TimeUnit) : Instant.fitsInt64 u.nanos = true := by
  cases u <;> decide

theorem IntervalUnit.fixedNanos_pos {v : IntervalUnit} (h : v.fixedNanos = some step) :
    0 < step ∧ Instant.fitsInt64 step = true := by
  cases v <;> cases h <;> decide

/-- What is dropped towards 1970 of an instant before it makes a tick more than the last
whole one. -/
theorem shifted_eq_ediv (htick : 0 < tick) (x d : Int) :
    shifted op tick step x d
      = op (x * tick) (d * step) / tick + if 0 ≤ op (x * tick) (d * step)
        ∨ tick ∣ op (x * tick) (d * step) then 0 else 1 := by
  rw [shifted, Int.tdiv_eq_ediv, Int.sign_eq_one_of_pos htick]

/-- A timestamp in a column that is moved by an interval in another one. -/
theorem Expr.Tallies.moved {e d : Expr} {x y : Column} {u : TimeUnit} {v : IntervalUnit}
    (hop : Scales op) (harith : ∀ x y, arith.onInts x y = .ok (op x y))
    (hstep : v.fixedNanos = some step) (hx : e.evaluate b = .ok x)
    (hy : d.evaluate b = .ok y) (hxstored : x.Stores (.timestamp u))
    (hystored : y.Stores (.interval v)) (hxspans : x.Spans b.rows)
    (hyspans : y.Spans b.rows) :
    Tallies b (Engine.shift (fun l r => .binary l (.arithmetic arith) r) (.cast e .int64)
      (.cast d .int64) u.nanos step)
        (fun i => Option.map₂ (shifted op u.nanos step) (x.row i).int? (y.row i).int?)
        (∀ i < b.rows, ShiftFits op u.nanos step (x.row i).int? (y.row i).int?)
      ∧ Tall b (Engine.shift (fun l r => .binary l (.arithmetic arith) r) (.cast e .int64)
        (.cast d .int64) u.nanos step) := by
  obtain ⟨hpos, hfits⟩ := IntervalUnit.fixedNanos_pos hstep
  have hbase := castInt64 hx (hxstored.typed.counts hxspans) (hxstored.type_eq ▸ rfl)
  have hdelta := castInt64 hy (hystored.typed.counts hyspans) (hystored.type_eq ▸ rfl)
  exact shift hbase hdelta hop harith u.nanos_pos u.fitsInt64_nanos hpos hfits

/-- Counts that are read as ticks of a timestamp. -/
theorem Expr.Tallies.castTimestamp {e : Expr} (h : Tallies b e f P) (htall : Tall b e)
    (u : TimeUnit) :
    (P ∧ ∃ out, (cast e (.timestamp u)).evaluate b = .ok out ∧ out.length = b.rows
        ∧ out.Counts (.timestamp u) b.rows f)
      ∨ (¬ P ∧ (cast e (.timestamp u)).evaluate b
        = .error (.compute .arithmeticOverflow)) := by
  rcases h with ⟨hP, c, hc, hcounts⟩ | ⟨hP, herror⟩
  · obtain ⟨out, hout, hlength, houtcounts⟩ :=
      hcounts.cast (t := .timestamp u) (g := id) rfl rfl nofun rfl fun _ => rfl
    refine .inl ⟨hP, out, ?_, hlength.trans (htall c hc), houtcounts.congr fun _ _ =>
      congrFun Option.map_id _⟩
    rw [evaluate, hc]
    exact hout
  · refine .inr ⟨hP, ?_⟩
    rw [evaluate, herror]
    rfl

namespace Engine

variable {clock : Clock} {n m d : Node} {em ed : Expr} {u : TimeUnit} {v : IntervalUnit}

/-- The kinds that move a timestamp, forwards and backwards. -/
def Moves (k : NodeKind) (op : Int → Int → Int) : Prop :=
  (k = .timestampAdd ∧ op = (· + ·)) ∨ (k = .timestampSub ∧ op = (· - ·))

/-- What moves a timestamp compiles to a shift of its ticks. -/
theorem compiled_moves (h : n.Built) (hk : Moves n.kind op) (hm : n.child "left" = .ok m)
    (hd : n.child "right" = .ok d) (hu : m.dataType? = some (.timestamp u))
    (hv : d.dataType? = some (.interval v)) (hstep : v.fixedNanos = some step)
    (hem : Compiled clock m em) (hed : Compiled clock d ed) :
    ∃ arith, Scales op ∧ (∀ x y, arith.onInts x y = .ok (op x y))
      ∧ Compiled clock n
        (.cast (shift (fun l r => .binary l (.arithmetic arith) r) (.cast em .int64)
          (.cast ed .int64) u.nanos step) (.timestamp u)) := by
  rcases hk with ⟨hk, rfl⟩ | ⟨hk, rfl⟩
  · exact ⟨.add, scales_add, fun _ _ => rfl,
      compiled_shift h (k := .timestampAdd) (resolve_of_kind hk rfl) hm hu hd
      hv hstep hem hed⟩
  · exact ⟨.subtract, scales_sub, fun _ _ => rfl,
      compiled_shift h (k := .timestampSub) (resolve_of_kind hk rfl) hm hu hd
      hv hstep hem hed⟩

end Engine

/-- A timestamp that is moved by an interval of fixed length compiles, and succeeds if the
counts on the way have room in 64 bits. Then it is null where an operand is, and is else
the last tick at or before the exact instant, but for an instant before 1970 between two
ticks: that is taken to the later of them. -/
theorem timestamp_shifts {clock : Engine.Clock} {n m d : Node} {em ed : Expr} {u : TimeUnit}
    {v : IntervalUnit} {step : Int} {op : Int → Int → Int} (h : n.Built)
    (hk : Engine.Moves n.kind op) (hm : n.child "left" = .ok m)
    (hd : n.child "right" = .ok d) (hu : m.dataType? = some (.timestamp u))
    (hv : d.dataType? = some (.interval v)) (hstep : v.fixedNanos = some step)
    (hem : Engine.Compiled clock m em) (hed : Engine.Compiled clock d ed) :
    ∃ e, Engine.Compiled clock n e ∧ ∀ (b : Batch) (x y : Column),
      em.evaluate b = .ok x → ed.evaluate b = .ok y →
      x.Stores (.timestamp u) → y.Stores (.interval v) → x.Spans b.rows → y.Spans b.rows →
        (¬ (∀ i < b.rows, ShiftFits op u.nanos step (x.row i).int? (y.row i).int?) →
          e.evaluate b = .error (.compute .arithmeticOverflow))
        ∧ ((∀ i < b.rows, ShiftFits op u.nanos step (x.row i).int? (y.row i).int?) →
          ∃ out, e.evaluate b = .ok out ∧ out.length = b.rows ∧ out.Stores (.timestamp u)
            ∧ ∀ i < b.rows,
              ((out.row i).isNull = true ↔ (x.row i).isNull = true ∨ (y.row i).isNull = true)
              ∧ ∀ ticks steps, x.row i = .int ticks → y.row i = .int steps →
                ∃ instant, instant = op (ticks * u.nanos) (steps * step)
                  ∧ out.row i = .int (instant / u.nanos
                    + if 0 ≤ instant ∨ u.nanos ∣ instant then 0 else 1)) := by
  obtain ⟨arith, hop, harith, hcompiled⟩ :=
    Engine.compiled_moves h hk hm hd hu hv hstep hem hed
  refine ⟨_, hcompiled, fun b x y hx hy hxstored hystored hxspans hyspans => ?_⟩
  obtain ⟨htallies, htall⟩ :=
    Expr.Tallies.moved hop harith hstep hx hy hxstored hystored hxspans hyspans
  have hxcounts := hxstored.typed.counts hxspans
  have hycounts := hystored.typed.counts hyspans
  rcases htallies.castTimestamp htall u with ⟨hfits, out, hout, hlength, hcounts⟩
    | ⟨hfits, herror⟩
  · refine ⟨fun hnot => absurd hfits hnot,
      fun _ => ⟨out, hout, hlength, ⟨hcounts.type_eq, hcounts.typed⟩, fun i hi => ⟨?_, ?_⟩⟩⟩
    · rw [hcounts.isNull_iff rfl hi, Option.map₂_eq_none_iff,
        hxcounts.isNull_iff (hxstored.type_eq ▸ rfl) hi,
        hycounts.isNull_iff (hystored.type_eq ▸ rfl) hi]
    · intro ticks steps hticks hsteps
      refine ⟨_, rfl, ?_⟩
      rw [hcounts.eq_int_iff hi, hticks, hsteps, ← shifted_eq_ediv u.nanos_pos]
      rfl
  · exact ⟨fun _ => herror, fun h => absurd h hfits⟩

/-- Seconds that are moved by milliseconds: what remains of a second is dropped after 1970,
and taken for a whole one before. -/
theorem timestamp_shifts_of_milliseconds :
    ∃ (source m d n : Node) (e : Expr) (b : Batch) (out : Column),
      Node.databaseTable "t"
        ⟨[⟨"at", .timestamp .second, true⟩, ⟨"by", .interval .millisecond, true⟩]⟩
          = .ok source
        ∧ Node.column source "at" = .ok m ∧ Node.column source "by" = .ok d
        ∧ Node.build .timestampAdd [.node m, .node d] [] = .ok n ∧ Engine.Compiled ⟨0⟩ n e
        ∧ b = ⟨3, [("at", ⟨.timestamp .second, [.int 5, .int (-5), .null]⟩),
          ("by", ⟨.int64, [.int 1500, .int 1500, .int 7]⟩)]⟩
        ∧ e.evaluate b = .ok out ∧ out.Stores (.timestamp .second)
        ∧ out.row 0 = .int 6 ∧ out.row 1 = .int (-3) ∧ (out.row 2).isNull = true := by
  obtain ⟨source, m, d, n, ⟨hsource, hm, hd, hn⟩, hkind, hleft, hright, hu, hv, hem, hed⟩ :
      ∃ source m d n : Node,
          (Node.databaseTable "t"
            ⟨[⟨"at", .timestamp .second, true⟩, ⟨"by", .interval .millisecond, true⟩]⟩
              = .ok source
          ∧ Node.column source "at" = .ok m ∧ Node.column source "by" = .ok d
          ∧ Node.build .timestampAdd [.node m, .node d] [] = .ok n)
        ∧ n.kind = .timestampAdd ∧ n.child "left" = .ok m ∧ n.child "right" = .ok d
        ∧ m.dataType? = some (.timestamp .second)
        ∧ d.dataType? = some (.interval .millisecond)
        ∧ Engine.Compiled ⟨0⟩ m (.column "at") ∧ Engine.Compiled ⟨0⟩ d (.column "by") :=
    ⟨_, _, _, _, ⟨rfl, rfl, rfl, rfl⟩, rfl, rfl, rfl, rfl, rfl, rfl, rfl⟩
  have bsource := Node.built_databaseTable hsource
  have bn := Node.built_of_two (Node.built_column bsource hm)
    (Node.built_column bsource hd) hn
  obtain ⟨e, he, hrows⟩ :=
    timestamp_shifts bn (.inl ⟨hkind, rfl⟩) hleft hright hu hv rfl hem hed
  obtain ⟨x, hx⟩ :
    ∃ x : Column, x = ⟨.timestamp .second, [.int 5, .int (-5), .null]⟩ := ⟨_, rfl⟩
  obtain ⟨y, hy⟩ : ∃ y : Column, y = ⟨.int64, [.int 1500, .int 1500, .int 7]⟩ := ⟨_, rfl⟩
  have hfits : ∀ i < 3, ShiftFits (· + ·) TimeUnit.second.nanos 1000000 (x.row i).int?
      (y.row i).int? := by
    subst hx hy
    decide
  obtain ⟨out, hout, -, hstores, hall⟩ := (hrows ⟨3, [("at", x), ("by", y)]⟩ x y rfl rfl
    (hx ▸ ⟨rfl, by unfold Column.Typed; decide⟩)
    (hy ▸ ⟨rfl, by unfold Column.Typed; decide⟩) (hx ▸ .inl rfl)
    (hy ▸ .inl rfl)).2 hfits
  refine ⟨source, m, d, n, e, _, out, hsource, hm, hd, hn, he, by rw [hx, hy], hout,
    hstores, ?_, ?_, ?_⟩
  · obtain ⟨_, rfl, hrow⟩ := (hall 0 (show _ < 3 by decide)).2 5 1500 (hx ▸ rfl) (hy ▸ rfl)
    rw [hrow]
    decide
  · obtain ⟨_, rfl, hrow⟩ :=
      (hall 1 (show _ < 3 by decide)).2 (-5) 1500 (hx ▸ rfl) (hy ▸ rfl)
    rw [hrow]
    decide
  · exact (hall 2 (show _ < 3 by decide)).1.2 (.inl (hx ▸ rfl))

/-- A second before 1970 and a millisecond is 1970, which is later; and an instant far
ahead cannot be moved at all. -/
theorem timestamp_shifts_inexact :
    ∃ source m d n item q : Node,
      Node.databaseTable "t"
        ⟨[⟨"at", .timestamp .second, true⟩, ⟨"by", .interval .millisecond, true⟩]⟩
          = .ok source
        ∧ Node.column source "at" = .ok m ∧ Node.column source "by" = .ok d
        ∧ Node.build .timestampAdd [.node m, .node d] [] = .ok n
        ∧ Node.rename (.node n) "x" = .ok item
        ∧ Node.build .selection [.node source] [("selections", .seq [.node item])] = .ok q
        ∧ (∀ catalog : Catalog,
            catalog = ⟨[("t", ⟨1,
              [("at", ⟨.timestamp .second, [.int (-1)]⟩), ("by", ⟨.int64, [.int 1]⟩)]⟩)],
                {}⟩ →
          Engine.execute {} ⟨0⟩ q catalog = .ok ⟨1, [("x", ⟨.timestamp .second, [.int 0]⟩)]⟩
            ∧ (-1 * TimeUnit.second.nanos + 1 * TimeUnit.millisecond.nanos)
              / TimeUnit.second.nanos = -1)
        ∧ ∀ catalog : Catalog, catalog
            = ⟨[("t", ⟨1, [("at", ⟨.timestamp .second, [.int 10000000000]⟩),
              ("by", ⟨.int64, [.int 1]⟩)]⟩)], {}⟩ →
          Engine.execute {} ⟨0⟩ q catalog = .error (.compute .arithmeticOverflow)
            ∧ (10000000000 * TimeUnit.second.nanos + 1 * TimeUnit.millisecond.nanos)
              / TimeUnit.second.nanos = 10000000000 := by
  refine ⟨_, _, _, _, _, _, rfl, rfl, rfl, rfl, rfl, rfl, ?_, ?_⟩
  · rintro _ rfl
    constructor
    · with_unfolding_all decide
    · decide
  · rintro _ rfl
    constructor
    · with_unfolding_all decide
    · decide

end TypedQuery

namespace TypedQuery

variable {b : Batch} {e : Expr} {c : Column} {u : TimeUnit} {f : Nat → Option Int}

namespace TimeUnit

/-- The ticks in a second. -/
def perSecond (u : TimeUnit) : Int := second.nanos / u.nanos

theorem perSecond_pos (u : TimeUnit) : 0 < u.perSecond := by
  cases u <;> decide

/-- A tick is a whole part of a second. -/
theorem emod_nanos (u : TimeUnit) : second.nanos % u.nanos = 0 := by
  cases u <;> decide

end TimeUnit

/-! ## Whole seconds -/

/-- What the difference has too much, in seconds of so many ticks. -/
def excess (k before after : Int) : Int :=
  if k ∣ before ∨ (before < 0 ↔ after < 0) then 0 else if before < 0 then -1 else 1

/-- Fractions that are dropped on each side count where the sides lie around zero. -/
theorem tdiv_sub_tdiv {k : Int} (hk : 0 < k) (t n : Int) :
    (t + n * k).tdiv k - t.tdiv k = n + excess k t (t + n * k) := by
  have hdvd : k ∣ t + n * k ↔ k ∣ t := Int.dvd_add_left (Int.dvd_mul_left n k)
  rw [Int.tdiv_eq_ediv, Int.tdiv_eq_ediv, Int.add_mul_ediv_right t n (by omega),
    Int.sign_eq_one_of_pos hk, excess]
  by_cases ht : k ∣ t
  · simp only [hdvd, ht, or_true, true_or, if_true]
    omega
  · simp only [hdvd, ht, or_false, false_or]
    split_ifs <;> omega

theorem fitsInt64_tdiv_sub_tdiv {k t n : Int} (hk : k = 1 ∨ 1000 ≤ k)
    (h : Instant.fitsInt64 (n * k) = true) :
    Instant.fitsInt64 ((t + n * k).tdiv k - t.tdiv k) = true := by
  rw [tdiv_sub_tdiv (by omega)]
  obtain ⟨hmin, hmax⟩ := Instant.fitsInt64_iff.1 h
  rw [Instant.fitsInt64_iff]
  rcases hk with rfl | hk
  · have hexact : excess 1 t (t + n * 1) = 0 := if_pos (.inl (Int.one_dvd t))
    omega
  · have hexcess : -1 ≤ excess k t (t + n * k) ∧ excess k t (t + n * k) ≤ 1 := by
      unfold excess
      split_ifs <;> omega
    have hupper : n < 2 ^ 62 := by
      by_contra hn
      have := Int.mul_le_mul (Int.not_lt.1 hn) hk (by decide) (by omega)
      omega
    have hlower : -2 ^ 62 < n := by
      by_contra hn
      have := Int.mul_le_mul (Int.neg_le_neg (Int.not_lt.1 hn)) hk (by decide) (by omega)
      rw [Int.neg_mul n] at this
      omega
    omega

/-- Seconds of a timestamp, without the fraction. -/
theorem Expr.Tallies.seconds (hc : e.evaluate b = .ok c)
    (h : c.Counts (.timestamp u) b.rows f) :
    Tallies b (Engine.secondsOf e) (fun i => (f i).map (·.tdiv u.perSecond)) True
      ∧ (c.length = b.rows → Tall b (Engine.secondsOf e)) := by
  obtain ⟨d, hd, hlength, hcounts⟩ : ∃ d, c.cast (.timestamp .second) = .ok d
      ∧ d.length = c.length
      ∧ d.Counts (.timestamp .second) b.rows fun i => (f i).map (·.tdiv u.perSecond) := by
    by_cases hu : u = .second
    · subst hu
      refine ⟨c, by rw [Column.cast, if_pos h.type_eq], rfl, h.congr fun i _ => ?_⟩
      show f i = (f i).map (·.tdiv 1)
      simp
    · refine h.cast rfl (by cases u <;> rfl)
        (fun heq => hu (by injection heq)) rfl fun n => ?_
      cases u <;> first | rfl | exact absurd rfl hu
  have hcast : (cast e (.timestamp .second)).evaluate b = .ok d := by
    rw [evaluate, hc]
    exact hd
  refine ⟨castInt64 hcast hcounts rfl, fun htall out hout => ?_⟩
  rw [Engine.secondsOf, evaluate, hcast] at hout
  rw [Column.length_cast hout, hlength, htall]

/-! ## What was added -/

theorem ShiftFits.of_seconds {x d : Option Int}
    (h : ShiftFits (· + ·) u.nanos TimeUnit.second.nanos x d) {n : Int} (hd : d = some n) :
    Instant.fitsInt64 (n * u.perSecond) = true := by
  refine h (d.map (· * u.perSecond)) ?_ _ (by rw [hd]; rfl)
  rw [shiftCounts, if_pos u.emod_nanos]
  exact List.mem_cons_self

theorem shifted_seconds (t n : Int) :
    shifted (· + ·) u.nanos TimeUnit.second.nanos t n = t + n * u.perSecond :=
  shifted_of_emod scales_add (Int.ne_of_gt u.nanos_pos) u.emod_nanos t n

/-- Seconds that are added to a timestamp and taken as a difference from it. -/
theorem Expr.Tallies.difference {e' : Expr} {c' : Column} {g : Nat → Option Int}
    (hc : e.evaluate b = .ok c) (h : c.Counts (.timestamp u) b.rows f)
    (hc' : e'.evaluate b = .ok c') (hlength : c'.length = b.rows)
    (h' : c'.Counts (.timestamp u) b.rows fun i =>
      Option.map₂ (shifted (· + ·) u.nanos TimeUnit.second.nanos) (f i) (g i))
    (hfits : ∀ i < b.rows, ShiftFits (· + ·) u.nanos TimeUnit.second.nanos (f i) (g i)) :
    Tallies b (.subtract (Engine.secondsOf e') (Engine.secondsOf e))
        (fun i => Option.map₂ (fun t n => n + excess u.perSecond t (t + n * u.perSecond))
          (f i) (g i)) True
      ∧ Tall b (.subtract (Engine.secondsOf e') (Engine.secondsOf e)) := by
  obtain ⟨hright, -⟩ := seconds hc h
  obtain ⟨hleft, htall⟩ := seconds hc' h'
  have htall := htall hlength
  have hresult (i : Nat) : Option.map₂ (· - ·)
        ((Option.map₂ (shifted (· + ·) u.nanos TimeUnit.second.nanos) (f i) (g i)).map
          (·.tdiv u.perSecond))
        ((f i).map (·.tdiv u.perSecond))
      = Option.map₂ (fun t n => (t + n * u.perSecond).tdiv u.perSecond - t.tdiv u.perSecond)
          (f i) (g i) := by
    cases f i with
    | none => rfl
    | some t =>
        cases g i with
        | none => rfl
        | some n =>
            exact congrArg (fun sum => some (Int.tdiv sum _ - t.tdiv _))
              (shifted_seconds t n)
  refine ⟨(hleft.arithmetic hright (.inl htall) fun _ _ _ _ _ _ => rfl).congr
    (fun i _ => ?_) (iff_true_intro ?_), hleft.tall hright (.inl htall) _⟩
  · rw [hresult, funext₂ (tdiv_sub_tdiv u.perSecond_pos)]
  · refine ⟨trivial, trivial, fun i hi n hn => ?_⟩
    rw [hresult] at hn
    obtain ⟨t, m, -, hm, rfl⟩ := Option.map₂_eq_some_iff.1 hn
    exact fitsInt64_tdiv_sub_tdiv (by cases u <;> decide) ((hfits i hi).of_seconds hm)

/-- Where seconds can be added to a timestamp, the difference of the sum and the timestamp
can be computed. It is null where the sum is, and is else the seconds that were added, if
the timestamp is at a whole second or the sum is on the same side of 1970. Otherwise a
second is missing, from what was added or from what was taken away. -/
theorem timestamp_differences {clock : Engine.Clock} {n p m d : Node} {em ed ep : Expr}
    {u : TimeUnit} (h : n.Built) (hk : n.kind = .timestampDiff)
    (hleft : n.child "left" = .ok p) (hright : n.child "right" = .ok m)
    (hp : p.kind = .timestampAdd) (hm : p.child "left" = .ok m)
    (hd : p.child "right" = .ok d) (hu : m.dataType? = some (.timestamp u))
    (hv : d.dataType? = some (.interval .second)) (hem : Engine.Compiled clock m em)
    (hed : Engine.Compiled clock d ed) (hep : Engine.Compiled clock p ep) :
    ∃ e, Engine.Compiled clock n e
      ∧ ∀ (b : Batch) (x y sum : Column), em.evaluate b = .ok x → ed.evaluate b = .ok y →
        x.Stores (.timestamp u) → y.Stores (.interval .second) →
        x.Spans b.rows → y.Spans b.rows → ep.evaluate b = .ok sum →
          ∃ out, e.evaluate b = .ok out ∧ out.length = b.rows
            ∧ out.Stores (.interval .second)
            ∧ ∀ i < b.rows, ((out.row i).isNull = true ↔ (sum.row i).isNull = true)
              ∧ ∀ ticks seconds, x.row i = .int ticks → y.row i = .int seconds →
                ∃ after, after = ticks + seconds * u.perSecond ∧ sum.row i = .int after
                  ∧ out.row i = .int (seconds
                    + if u.perSecond ∣ ticks ∨ (ticks < 0 ↔ after < 0) then 0
                      else if ticks < 0 then -1 else 1) := by
  obtain ⟨arith, -, harith, hcompiled⟩ :=
    Engine.compiled_moves (h.of_child hleft) (.inl ⟨hp, rfl⟩) hm hd hu hv rfl hem hed
  refine ⟨_, Engine.compiled_difference h (k := .timestampDiff)
    (Engine.resolve_of_kind hk rfl) ⟨p, hleft, hep⟩
    ⟨m, hright, hem⟩, fun b x y sum hx hy hxstored hystored hxspans hyspans hsum => ?_⟩
  obtain rfl := hep.unique hcompiled
  have hxcounts : x.Counts (.timestamp u) b.rows fun i => (x.row i).int? := by
    have hcounts := hxstored.typed.counts hxspans
    rwa [hxstored.type_eq] at hcounts
  obtain ⟨hmoved, hmovedtall⟩ :=
    Expr.Tallies.moved scales_add harith rfl hx hy hxstored hystored hxspans hyspans
  rcases hmoved.castTimestamp hmovedtall u
    with ⟨hfits, c, hc, hlength, hcounts⟩ | ⟨-, herror⟩
  · obtain rfl : c = sum := Except.ok.inj (hc.symm.trans hsum)
    obtain ⟨htallies, htall⟩ :=
      Expr.Tallies.difference hx hxcounts hsum hlength hcounts hfits
    rcases htallies with ⟨-, out, hout, houtcounts⟩ | ⟨hfalse, -⟩
    · refine ⟨out, hout, htall out hout, ⟨houtcounts.type_eq, houtcounts.typed⟩,
        fun i hi => ⟨?_, ?_⟩⟩
      · rw [houtcounts.isNull_iff rfl hi, hcounts.isNull_iff rfl hi,
          Option.map₂_eq_none_iff, Option.map₂_eq_none_iff]
      · intro ticks seconds hticks hseconds
        refine ⟨_, rfl, ?_, ?_⟩
        · rw [hcounts.eq_int_iff hi, hticks, hseconds, ← shifted_seconds]
          rfl
        · rw [houtcounts.eq_int_iff hi, hticks, hseconds]
          rfl
    · exact absurd trivial hfalse
  · cases herror.symm.trans hsum

/-- A second that is added half a second before 1970 is lost, and one that is
added afterwards is not. -/
theorem timestamp_differences_of_milliseconds :
    ∃ (source m d p n : Node) (ep e : Expr) (b : Batch) (sum out : Column),
      Node.databaseTable "t"
        ⟨[⟨"at", .timestamp .millisecond, true⟩, ⟨"by", .interval .second, true⟩]⟩
          = .ok source
        ∧ Node.column source "at" = .ok m ∧ Node.column source "by" = .ok d
        ∧ Node.build .timestampAdd [.node m, .node d] [] = .ok p
        ∧ Node.build .timestampDiff [.node p, .node m] [] = .ok n
        ∧ Engine.Compiled ⟨0⟩ p ep ∧ Engine.Compiled ⟨0⟩ n e
        ∧ b = ⟨3, [("at", ⟨.timestamp .millisecond, [.int 1500, .int (-500), .null]⟩),
          ("by", ⟨.int64, [.int 1, .int 1, .int 1]⟩)]⟩
        ∧ ep.evaluate b = .ok sum ∧ e.evaluate b = .ok out ∧ out.Stores (.interval .second)
        ∧ out.row 0 = .int 1 ∧ out.row 1 = .int 0 ∧ (out.row 2).isNull = true := by
  obtain ⟨source, m, d, p, n, ep, ⟨hsource, hm, hd, hp, hn⟩, ⟨hkind, hleft, hright⟩,
    ⟨hpkind, hpleft, hpright⟩, hu, hv, hem, hed,
      hep, sum, hsum, hnull⟩ :
      ∃ (source m d p n : Node) (ep : Expr),
        (Node.databaseTable "t"
          ⟨[⟨"at", .timestamp .millisecond, true⟩, ⟨"by", .interval .second, true⟩]⟩
            = .ok source
            ∧ Node.column source "at" = .ok m ∧ Node.column source "by" = .ok d
            ∧ Node.build .timestampAdd [.node m, .node d] [] = .ok p
            ∧ Node.build .timestampDiff [.node p, .node m] [] = .ok n)
          ∧ (n.kind = .timestampDiff ∧ n.child "left" = .ok p ∧ n.child "right" = .ok m)
          ∧ (p.kind = .timestampAdd ∧ p.child "left" = .ok m ∧ p.child "right" = .ok d)
          ∧ m.dataType? = some (.timestamp .millisecond)
          ∧ d.dataType? = some (.interval .second)
          ∧ Engine.Compiled ⟨0⟩ m (.column "at") ∧ Engine.Compiled ⟨0⟩ d (.column "by")
          ∧ Engine.Compiled ⟨0⟩ p ep
          ∧ ∃ sum, ep.evaluate
              ⟨3, [("at", ⟨.timestamp .millisecond, [.int 1500, .int (-500), .null]⟩),
                ("by", ⟨.int64, [.int 1, .int 1, .int 1]⟩)]⟩ = .ok sum
                ∧ (sum.row 2).isNull = true :=
    ⟨_, _, _, _, _, _, ⟨rfl, rfl, rfl, rfl, rfl⟩, ⟨rfl, rfl, rfl⟩, ⟨rfl, rfl, rfl⟩, rfl,
      rfl, rfl, rfl, rfl, _, rfl, rfl⟩
  have bsource := Node.built_databaseTable hsource
  have bm := Node.built_column bsource hm
  have bn := Node.built_of_two (Node.built_of_two bm (Node.built_column bsource hd) hp) bm hn
  obtain ⟨e, he, hrows⟩ :=
    timestamp_differences bn hkind hleft hright hpkind hpleft hpright hu hv hem hed hep
  obtain ⟨out, hout, -, hstores, hall⟩ :=
    hrows _ _ _ sum rfl rfl ⟨rfl, by unfold Column.Typed; decide⟩
    ⟨rfl, by unfold Column.Typed; decide⟩ (.inl rfl) (.inl rfl) hsum
  refine ⟨source, m, d, p, n, ep, e, _, sum, out, hsource, hm, hd, hp, hn, hep, he, rfl,
    hsum, hout, hstores, ?_, ?_, ?_⟩
  · obtain ⟨_, rfl, -, hrow⟩ := (hall 0 (show _ < 3 by decide)).2 1500 1 rfl rfl
    rw [hrow]
    decide
  · obtain ⟨_, rfl, -, hrow⟩ := (hall 1 (show _ < 3 by decide)).2 (-500) 1 rfl rfl
    rw [hrow]
    decide
  · exact (hall 2 (show _ < 3 by decide)).1.2 hnull

/-- The difference of half a second before 1970 and a second later is no second. -/
theorem timestamp_differences_lost :
    ∃ source m d p n item q : Node,
      Node.databaseTable "t"
        ⟨[⟨"at", .timestamp .millisecond, true⟩, ⟨"by", .interval .second, true⟩]⟩
          = .ok source
        ∧ Node.column source "at" = .ok m ∧ Node.column source "by" = .ok d
        ∧ Node.build .timestampAdd [.node m, .node d] [] = .ok p
        ∧ Node.build .timestampDiff [.node p, .node m] [] = .ok n
        ∧ Node.rename (.node n) "x" = .ok item
        ∧ Node.build .selection [.node source] [("selections", .seq [.node item])] = .ok q
        ∧ ∀ catalog : Catalog, catalog
            = ⟨[("t", ⟨1, [("at", ⟨.timestamp .millisecond, [.int (-500)]⟩),
              ("by", ⟨.int64, [.int 1]⟩)]⟩)], {}⟩ →
          Engine.execute {} ⟨0⟩ q catalog = .ok ⟨1, [("x", ⟨.int64, [.int 0]⟩)]⟩ := by
  refine ⟨_, _, _, _, _, _, _, rfl, rfl, rfl, rfl, rfl, rfl, rfl, ?_⟩
  rintro _ rfl
  with_unfolding_all decide

end TypedQuery
