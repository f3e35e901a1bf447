import TypedQuery.Proofs.Columnar.Uniform

/-!
# How high a column is

The operands of an operation need not be of one height: a reduction gives a single row and
a constant as many as the batch has, and a text put together from no texts at all has none.
Where an operation succeeds, its result is as high as one of its operands, and all others
are as high as that or are single rows (`Covers`). This says the same of every operation,
and it goes through when operands are computed by operations themselves. So the height of
an expression is that of one of the parts that have a height of their own (`Expr.heights`),
and all other parts have the same or are single rows.
-/

namespace TypedQuery

/-- A height to which columns of the given heights are brought. -/
def Covers (heights : List Nat) (m : Nat) : Prop :=
  m ∈ heights ∧ ∀ h ∈ heights, h = m ∨ h = 1

namespace Covers

variable {hs hs' : List Nat} {m : Nat}

theorem single (m : Nat) :
    Covers [m] m := ⟨List.mem_singleton_self m, fun _ h => .inl (List.mem_singleton.1 h)⟩

theorem congr (h : Covers hs m) (hmem : ∀ h, h ∈ hs ↔ h ∈ hs') : Covers hs' m :=
  ⟨(hmem m).1 h.1, fun k hk => h.2 k ((hmem k).2 hk)⟩

theorem unique {k : Nat} (hk : Covers hs k) (hm : Covers hs m) : k = m := by
  have hkm := hm.2 k hk.1
  have hmk := hk.2 m hm.1
  omega

/-- Heights may be those of columns that are computed themselves. -/
theorem flatten {hss : List (List Nat)} (h : List.Forall₂ Covers hss hs)
    (hm : Covers hs m) : Covers hss.flatten m := by
  constructor
  · obtain ⟨inner, hinner, hcovers⟩ := exists_of_forall₂_right h hm.1
    exact List.mem_flatten.2 ⟨inner, hinner, hcovers.1⟩
  · intro k hk
    obtain ⟨inner, hinner, hk⟩ := List.mem_flatten.1 hk
    obtain ⟨height, hheight, hcovers⟩ := exists_of_forall₂_right h.flip hinner
    rcases hcovers.2 k hk with rfl | rfl
    · exact hm.2 k hheight
    · exact .inr rfl

theorem two {hs₁ hs₂ : List Nat} {k l : Nat} (hk : Covers hs₁ k) (hl : Covers hs₂ l)
    (h : Covers [k, l] m) :
    Covers (hs₁ ++ hs₂) m := by
  have h := flatten (.cons hk (.cons hl .nil)) h
  rwa [List.flatten_cons, List.flatten_cons, List.flatten_nil, List.append_nil] at h

theorem three {hs₁ hs₂ hs₃ : List Nat} {k l n : Nat} (hk : Covers hs₁ k) (hl : Covers hs₂ l)
    (hn : Covers hs₃ n) (h : Covers [k, l, n] m) : Covers (hs₁ ++ (hs₂ ++ hs₃)) m := by
  have h := flatten (.cons hk (.cons hl (.cons hn .nil))) h
  rwa [List.flatten_cons, List.flatten_cons, List.flatten_cons, List.flatten_nil,
    List.append_nil] at h

/-- The greatest height covers the others where it is an operand's and they can
all be brought to it. -/
theorem max_two {k l : Nat} (hk : k = max k l ∨ k = 1) (hl : l = max k l ∨ l = 1) :
    Covers [k, l] (max k l) := by
  refine ⟨?_, List.forall_mem_cons.2 ⟨hk, List.forall_mem_cons.2 ⟨hl, nofun⟩⟩⟩
  rw [List.mem_cons, List.mem_singleton]
  omega

end Covers

namespace Column

variable {c d l r : Column} {cs : List Column} {mask : List Bool} {n : Nat}

/-- The column is a row for each of `rows` rows, or a single one that stands for all of
them. -/
def Spans (rows : Nat) (c : Column) : Prop := c.length = rows ∨ c.length = 1

/-- Heights that are one or another can all be brought to the greatest. -/
theorem tallest_of_three {k l m : Nat} (hn : 0 < n) (hk : k = n ∨ k = 1)
    (hl : l = n ∨ l = 1) (hm : m = n ∨ m = 1) :
    (k = max k (max l m) ∨ k = 1) ∧ (l = max k (max l m) ∨ l = 1)
      ∧ (m = max k (max l m) ∨ m = 1) := by
  omega

theorem exists_broadcast {rows : Nat} (h : c.Spans rows) :
    ∃ d, c.broadcast rows = .ok d := by
  unfold broadcast
  split
  · exact ⟨c, rfl⟩
  · next hne =>
      obtain ⟨cell, hcell⟩ := List.length_eq_one_iff.1 (h.resolve_left hne)
      rw [hcell]
      exact ⟨_, rfl⟩

/-- The operands of an operation whose result is so high. -/
theorem spans_of_covers (h : Covers (cs.map length) n) : ∀ c ∈ cs, c.Spans n :=
  fun _ hc => h.2 _ (List.mem_map_of_mem hc)

/-! ## One column -/

theorem length_unary (op : UnaryOp) (c : Column) :
    Yields (·.length = c.length) (op.apply c) := by
  have htaken : Taken c.length [] c (c.gather ([].map some)) := .of_gather rfl
  intro out hout
  obtain ⟨out', -, hout'⟩ :=
    htaken.unary (fun _ hi => absurd hi List.not_mem_nil) op out hout
  exact hout'.length

theorem height_of_broadcast {rows : Nat} (h : c.broadcast rows = .ok d) :
    c.length = rows ∨ c.length = 1 := by
  unfold broadcast at h
  split at h
  · next hlength => exact .inl hlength
  · split at h
    · next cell hcells => exact .inr (congrArg List.length hcells)
    · cases h

theorem length_asPredicate {rows : Nat} {cells : List Cell}
    (h : c.asPredicate rows = .ok cells) : cells.length = rows := by
  obtain ⟨d, hd, h⟩ := bind_eq_ok.1 h
  split at h
  · cases h
    exact Batch.length_broadcast hd
  · cases h

theorem height_of_asPredicate {rows : Nat} {cells : List Cell}
    (h : c.asPredicate rows = .ok cells) :
    c.length = rows ∨ c.length = 1 := by
  obtain ⟨d, hd, -⟩ := bind_eq_ok.1 h
  exact height_of_broadcast hd

/-! ## Two columns side by side -/

theorem length_coerce (l r : Column) :
    Yields (fun p => p.1.length = l.length ∧ p.2.length = r.length) (l.coerce r) := by
  refine .bind_any fun t _ => .bind_any fun _ hl => .bind_any fun _ hr => .ok ?_
  exact ⟨length_cast hl, length_cast hr⟩

theorem covers_pairs (l r : Column) :
    Yields (fun ps => Covers [l.length, r.length] ps.length) (l.pairs r) := by
  unfold pairs
  split
  · next heq =>
      refine .ok ?_
      rw [List.length_map, List.length_zip, show l.cells.length = r.cells.length from heq,
        Nat.min_self]
      exact ⟨by simp [length],
        by simp [length, show l.cells.length = r.cells.length from heq]⟩
  · split
    · next cell hl => exact .ok ⟨by simp [length], by simp [length, hl]⟩
    · next cell hr _ => exact .ok ⟨by simp [length], by simp [length, hr]⟩
    · exact .error _

theorem length_computed {α : Type} {f : α → Except ComputeFailure Cell} {rows : List α}
    (t : Physical) :
    Yields (·.length = rows.length) (Column.computed t (rows.mapM f)) := by
  intro c hc
  cases hcells : rows.mapM f with
  | error failure =>
      rw [hcells] at hc
      cases hc
  | ok cells =>
      rw [hcells] at hc
      cases hc
      exact (mapM_eq_ok.1 hcells).length_eq.symm

theorem covers_arithmetic (op : Arithmetic) (l r : Column) :
    Yields (fun c => Covers [l.length, r.length] c.length) (Column.arithmetic op l r) := by
  refine .bind (covers_pairs l r) fun ps hps => ?_
  split
  · exact (rowwise_eq_mapM _ ps ▸ length_computed .int32).mono fun c hc => hc ▸ hps
  · exact (rowwise_eq_mapM _ ps ▸ length_computed .int64).mono fun c hc => hc ▸ hps
  · refine .ok ?_
    simpa [length] using hps
  · exact .error _

theorem covers_compare (op : Comparison) (l r : Column) :
    Yields (fun c => Covers [l.length, r.length] c.length) (Column.compare op l r) := by
  refine .bind (covers_pairs l r) fun ps hps => ?_
  split
  · exact .error _
  · refine .ok ?_
    simpa [length] using hps

theorem covers_power (l r : Column) :
    Yields (fun c => Covers [l.length, r.length] c.length) (Column.power l r) := by
  unfold Column.power
  refine .bind_any fun base hbase => .bind_any fun exponent hexponent => ?_
  rw [length_cast hbase, length_cast hexponent]
  refine .bind_any fun base' hbase' => .bind_any fun exponent' hexponent' => .ok ?_
  have hlength : (base'.cells.zip exponent'.cells).length = max l.length r.length := by
    rw [List.length_zip, show base'.cells.length = _ from Batch.length_broadcast hbase',
      show exponent'.cells.length = _ from Batch.length_broadcast hexponent', Nat.min_self]
  have hl := height_of_broadcast hbase'
  have hr := height_of_broadcast hexponent'
  rw [length_cast hbase] at hl
  rw [length_cast hexponent] at hr
  have hfloats : ∀ xs, (floats xs).length = xs.length := fun xs => List.length_map _
  rw [hfloats, List.length_map, hlength]
  exact .max_two hl hr

theorem length_condition (c : Column) : Yields (·.length = c.length) c.condition := by
  unfold Column.condition
  split
  · exact .ok rfl
  · exact .error _

theorem length_logic {op : Logic} {out : Column} (h : Column.logic op l r = .ok out) :
    out.length = max l.length r.length := by
  obtain ⟨l', hl, h⟩ := bind_eq_ok.1 h
  obtain ⟨ls, hls, h⟩ := bind_eq_ok.1 h
  obtain ⟨r', hr, h⟩ := bind_eq_ok.1 h
  obtain ⟨rs, hrs, h⟩ := bind_eq_ok.1 h
  cases h
  rw [length, List.length_zipWith, length_condition l' ls hls, length_condition r' rs hrs,
    Batch.length_broadcast hl, Batch.length_broadcast hr, Nat.min_self]

theorem covers_logic (op : Logic) (l r : Column) :
    Yields (fun c => Covers [l.length, r.length] c.length) (Column.logic op l r) := by
  intro out h
  rw [length_logic h]
  obtain ⟨_, hl, h⟩ := bind_eq_ok.1 h
  obtain ⟨_, -, h⟩ := bind_eq_ok.1 h
  obtain ⟨_, hr, -⟩ := bind_eq_ok.1 h
  exact .max_two (height_of_broadcast hl) (height_of_broadcast hr)

theorem covers_bitwise (op : Bitwise) (l r : Column) :
    Yields (fun c => Covers [l.length, r.length] c.length) (Column.bitwise op l r) := by
  unfold Column.bitwise
  refine .bind_any fun l' hl => .bind_any fun ls hls => .bind_any fun r' hr =>
    .bind_any fun rs hrs => .ok ?_
  have hlength : (List.zipWith (bitwiseCells op) ls.cells rs.cells).length
      = max l.length r.length := by
    rw [List.length_zipWith, show ls.cells.length = l'.length from length_cast hls,
      show rs.cells.length = r'.length from length_cast hrs, Batch.length_broadcast hl,
      Batch.length_broadcast hr, Nat.min_self]
  simp only [length, hlength]
  exact .max_two (height_of_broadcast hl) (height_of_broadcast hr)

theorem covers_binary (op : BinaryOp) (l r : Column) :
    Yields (fun c => Covers [l.length, r.length] c.length) (op.apply l r) := by
  refine .bind (length_coerce l r) fun p hp => ?_
  rw [← hp.1, ← hp.2]
  cases op with
  | arithmetic op => exact covers_arithmetic op _ _
  | power => exact covers_power _ _
  | compare op => exact covers_compare op _ _
  | logic op => exact covers_logic op _ _
  | bitwise op => exact covers_bitwise op _ _

/-! ## Choices -/

theorem length_choose {as bs : List Cell} (ha : as.length = n) (hb : bs.length = n)
    (hm : mask.length = n) :
    (Column.choose mask as bs).length = n := by
  induction mask generalizing as bs n with
  | nil => exact hm
  | cons m mask ih =>
      subst hm
      cases as with
      | nil => cases ha
      | cons a as =>
          cases bs with
          | nil => cases hb
          | cons b bs => exact congrArg Nat.succ (ih (Nat.succ.inj ha) (Nat.succ.inj hb) rfl)

theorem covers_select (mask : List Bool) (l r : Column) :
    Yields (fun c => Covers [mask.length, l.length, r.length] c.length)
      (Column.select mask l r) := by
  unfold Column.select
  refine .bind_any fun mask' hmask => .bind (length_coerce l r) fun p hp => ?_
  refine .bind_any fun a ha => .bind_any fun b hb => .ok ?_
  have hlength : (Column.choose (mask'.cells.map Cell.isTrue) a.cells b.cells).length
      = max mask.length (max l.length r.length) := by
    refine length_choose (Batch.length_broadcast ha) (Batch.length_broadcast hb) ?_
    rw [List.length_map]
    exact Batch.length_broadcast hmask
  have hm := height_of_broadcast hmask
  have hl := hp.1 ▸ height_of_broadcast ha
  have hr := hp.2 ▸ height_of_broadcast hb
  have hbools : (bools (mask.map some)).length = mask.length := by simp [bools, length]
  simp only [length, hlength] at *
  refine ⟨?_, ?_⟩
  · simp only [List.mem_cons, List.not_mem_nil, or_false]
    omega
  · simp only [List.forall_mem_cons, List.not_mem_nil, false_implies, implies_true, and_true]
    omega

theorem covers_orElse (l r : Column) :
    Yields (fun c => Covers [l.length, r.length] c.length) (l.orElse r) := by
  refine .bind_any fun fill hfill => ?_
  have hmask : (l.isNull.map (!·)).length = l.length := by simp [isNull, length]
  refine (covers_select _ l fill).mono fun c hc => ?_
  rw [hmask, length_cast hfill] at hc
  exact hc.congr (by simp)

theorem covers_fillNan (l r : Column) :
    Yields (fun c => Covers [l.length, r.length] c.length) (l.fillNan r) := by
  refine .bind_any fun fill hfill => ?_
  refine (covers_select _ l fill).mono fun c hc => ?_
  rw [List.length_map, length_cast hfill] at hc
  exact hc.congr (by simp [length])

/-- Only columns of one height can be compared for the better one. -/
theorem length_better (op : Comparison) (l r : Column) :
    Yields (fun c => l.length = r.length ∧ c.length = l.length) (Column.better op l r) := by
  refine .bind (length_coerce l r) fun p hp => ?_
  refine .bind (covers_compare op p.1 p.2) fun compared hcompared => ?_
  split
  · next heq =>
      have hlr : l.length = r.length := by rw [← hp.1, ← hp.2]; exact heq
      refine (covers_select _ p.1 p.2).mono fun c hc => ⟨hlr, ?_⟩
      have hheights := hcompared.1
      have hc := hc.1
      simp only [List.length_map, List.length_zip, List.mem_cons, List.not_mem_nil,
        or_false, length] at *
      omega
  · exact .error _

/-! ## Several columns -/

theorem covers_coalesce (cs : List Column) :
    Yields (fun c => Covers (cs.map Column.length) c.length) (Column.coalesce cs) := by
  induction cs with
  | nil => exact .error _
  | cons c rest ih =>
      cases rest with
      | nil => exact .ok (.single _)
      | cons next more =>
          exact .bind ih fun d hd => (covers_orElse c d).mono fun out hout =>
            .two (.single _) hd hout

theorem length_extremeFrom (op : Comparison) (c : Column) (cs : List Column) :
    Yields (fun out => out.length = c.length ∧ ∀ d ∈ cs, d.length = c.length)
      (Column.extremeFrom op c cs) := by
  induction cs generalizing c with
  | nil => exact .ok ⟨rfl, nofun⟩
  | cons next rest ih =>
      refine .bind (length_better op c next) fun better hbetter =>
        (ih better).mono fun out hout => ?_
      rw [hbetter.2] at hout
      exact ⟨hout.1, List.forall_mem_cons.2 ⟨hbetter.1.symm, hout.2⟩⟩

/-- Only columns of one height can be compared for the best one. -/
theorem length_horizontal (op : Comparison) (cs : List Column) :
    Yields (fun out => cs ≠ [] ∧ ∀ c ∈ cs, c.length = out.length)
      (Column.horizontal op cs) := by
  cases cs with
  | nil => exact .error _
  | cons c rest =>
      refine (length_extremeFrom op c rest).mono fun out hout => ⟨List.cons_ne_nil _ _, ?_⟩
      exact List.forall_mem_cons.2 ⟨hout.1.symm, fun d hd => (hout.2 d hd).trans hout.1.symm⟩

theorem covers_horizontal (op : Comparison) (cs : List Column) :
    Yields (fun c => Covers (cs.map Column.length) c.length) (Column.horizontal op cs) := by
  refine (length_horizontal op cs).mono fun out hout => ⟨?_, ?_⟩
  · obtain ⟨c, hc⟩ := List.exists_mem_of_ne_nil cs hout.1
    exact List.mem_map.2 ⟨c, hc, hout.2 c hc⟩
  · exact List.forall_mem_map.2 fun c hc => .inl (hout.2 c hc)

theorem foldl_max_mem (m : Nat) (hs : List Nat) : hs.foldl max m ∈ m :: hs := by
  induction hs generalizing m with
  | nil => exact List.mem_singleton_self m
  | cons h rest ih =>
      rw [List.foldl_cons]
      rcases List.mem_cons.1 (ih (max m h)) with heq | hmem
      · rw [heq, Nat.max_def]
        split <;> simp
      · exact List.mem_cons_of_mem _ (List.mem_cons_of_mem _ hmem)

theorem length_broadcastAll (rows : Nat) (cs : List Column) :
    Yields (fun out => out.length = cs.length ∧ (∀ c ∈ out, c.length = rows)
      ∧ ∀ c ∈ cs, c.length = rows ∨ c.length = 1)
      (broadcastAll rows cs) := by
  induction cs with
  | nil => exact .ok ⟨rfl, nofun, nofun⟩
  | cons c rest ih =>
      refine .bind_any fun here hhere => .bind ih fun after hafter =>
        .ok ⟨congrArg Nat.succ hafter.1, ?_, ?_⟩
      · exact List.forall_mem_cons.2 ⟨Batch.length_broadcast hhere, hafter.2.1⟩
      · exact List.forall_mem_cons.2 ⟨height_of_broadcast hhere, hafter.2.2⟩

/-- A function takes columns of one height and gives one of that height. Without any column
there is no row at all. -/
theorem covers_call (f : Function) (cs : List Column) :
    Yields (fun c => if cs = [] then c.length = 0
      else Covers (cs.map Column.length) c.length)
      (Column.align cs >>= f.apply) := by
  refine .bind (length_broadcastAll _ cs) fun aligned haligned => ?_
  obtain ⟨hlength, haligned, hheights⟩ := haligned
  cases aligned with
  | nil =>
      obtain rfl : cs = [] := List.length_eq_zero_iff.1 hlength.symm
      cases f with
      | concat separator => exact .ok rfl
      | _ => exact .error _
  | cons c rest =>
      have hcs : cs ≠ [] := fun h => by subst h; cases hlength
      have htaken :
          List.Forall₂ (Taken _ []) (c :: rest) ((c :: rest).map (·.gather ([].map some))) :=
        List.forall₂_map_right_iff.2 (List.forall₂_same.2 fun c hc =>
          .of_gather (haligned c hc))
      intro out hout
      obtain ⟨out', -, hout'⟩ :=
        Function.apply_taken (fun _ hi => absurd hi List.not_mem_nil) f
          (List.cons_ne_nil _ _) htaken out hout
      rw [if_neg hcs, hout'.length]
      refine ⟨?_, List.forall_mem_map.2 hheights⟩
      obtain ⟨first, others, rfl⟩ := List.exists_cons_of_ne_nil hcs
      rw [List.map_cons, List.foldl_cons, Nat.zero_max]
      exact foldl_max_mem _ _

theorem length_literal (v : Value) (t : DataType) (rows : Nat) :
    Yields (·.length = rows) (Literal.column v t rows) := by
  intro c hc
  have hnone : ∀ i ∈ ([] : List Nat), i < rows := fun _ hi => absurd hi List.not_mem_nil
  obtain ⟨c', -, htaken⟩ := Literal.column_taken hnone v t c hc
  exact htaken.length

end Column

/-! ## Expressions -/

namespace Expr

mutual

/-- Nothing is reduced anywhere in the expression. -/
def aggregateFree : Expr → Bool
  | column _ | literal .. => true
  | named e _ | cast e _ | unary _ e => aggregateFree e
  | binary a _ b | fillNull a b | fillNan a b => aggregateFree a && aggregateFree b
  | choose a b c | between a b c => aggregateFree a && aggregateFree b && aggregateFree c
  | isIn e items => aggregateFree e && allAggregateFree items
  | coalesce items | least items | greatest items | call _ items => allAggregateFree items
  | reduce .. | countRows _ => false

def allAggregateFree : List Expr → Bool
  | [] => true
  | e :: rest => aggregateFree e && allAggregateFree rest

end

/-- Whether the value of an expression is a column of doubles. -/
def givesDoubles (b : Batch) (e : Expr) : Bool :=
  (e.evaluate b).toOption.any fun c => c.type = .float64

mutual

/-- The expressions that evaluation comes to outside reductions, the whole one first. -/
def parts (b : Batch) : Expr → List Expr
  | column name => [column name]
  | literal v type => [literal v type]
  | named e name => named e name :: parts b e
  | cast e type => cast e type :: parts b e
  | unary op e => unary op e :: parts b e
  | binary left op right => binary left op right :: (parts b left ++ parts b right)
  | choose predicate thenExpr otherwise =>
    choose predicate thenExpr otherwise
      :: (parts b predicate ++ (parts b thenExpr ++ parts b otherwise))
  | fillNull e fill => fillNull e fill :: (parts b e ++ parts b fill)
  | fillNan e fill =>
    fillNan e fill :: (parts b e ++ if e.givesDoubles b then parts b fill else [])
  | isIn e options => isIn e options :: (parts b e ++ partsOf b options)
  | between e low high => between e low high :: (parts b e ++ (parts b low ++ parts b high))
  | coalesce items => coalesce items :: partsOf b items
  | least items => least items :: partsOf b items
  | greatest items => greatest items :: partsOf b items
  | call f items => call f items :: partsOf b items
  | reduce f e filter => [reduce f e filter]
  | countRows filter => [countRows filter]

def partsOf (b : Batch) : List Expr → List Expr
  | [] => []
  | e :: rest => parts b e ++ partsOf b rest

end

/-- The height of a part that does not take it from its own parts. -/
def ownHeight (b : Batch) : Expr → Option Nat
  | column _ | literal .. | choose .. => some b.rows
  | reduce .. | countRows _ => some 1
  | call _ [] => some 0
  | _ => none

/-- The heights that the height of an expression comes from. -/
def heights (b : Batch) (e : Expr) : List Nat := (e.parts b).filterMap (ownHeight b)

def heightsOf (b : Batch) (items : List Expr) : List Nat :=
  (partsOf b items).filterMap (ownHeight b)

variable {b : Batch}

theorem length_findColumn (hb : b.Rectangular) (name : String) :
    Yields (·.length = b.rows) (findColumn b name) := by
  intro c hc
  have hfollows : Follows (Column.Taken b.rows []) (findColumn b name) _ :=
    findColumn_taken hb name
  obtain ⟨c', -, htaken⟩ := hfollows c hc
  exact htaken.length

theorem length_reduce (f : Reduction) (e : Expr) (filter : Option Expr) :
    Yields (·.length = 1) ((reduce f e filter).evaluate b) := by
  cases filter with
  | none => exact .bind_any fun c _ => Column.length_reduced f c
  | some filter =>
      exact .bind_any fun _ _ => .bind_any fun _ _ => .bind_any fun _ _ =>
        .bind_any fun c _ => Column.length_reduced f c

theorem length_countRows (filter : Option Expr) :
    Yields (·.length = 1) ((countRows filter).evaluate b) := by
  cases filter with
  | none => exact .ok rfl
  | some filter => exact .bind_any fun _ _ => .bind_any fun _ _ => .ok rfl

/-- An expression without a height of its own has the heights of the parts below it. -/
theorem heights_of_parts {e : Expr} {below : List Expr} (hparts : e.parts b = e :: below)
    (hown : ownHeight b e = none) :
    e.heights b = below.filterMap (ownHeight b) := by
  rw [heights, hparts, List.filterMap_cons_none hown]

@[simp]
theorem heights_binary (left : Expr) (op : BinaryOp) (right : Expr) :
    (binary left op right).heights b = left.heights b ++ right.heights b :=
  (heights_of_parts rfl rfl).trans List.filterMap_append

@[simp]
theorem heights_choose (predicate thenExpr otherwise : Expr) :
    (choose predicate thenExpr otherwise).heights b
      = b.rows :: (predicate.heights b ++ (thenExpr.heights b ++ otherwise.heights b)) := by
  have hparts :
      (predicate.parts b ++ (thenExpr.parts b ++ otherwise.parts b)).filterMap (ownHeight b)
      = predicate.heights b ++ (thenExpr.heights b ++ otherwise.heights b) := by
    rw [List.filterMap_append, List.filterMap_append]
    rfl
  exact congrArg (b.rows :: ·) hparts

@[simp]
theorem heights_fillNull (e fill : Expr) :
    (fillNull e fill).heights b = e.heights b ++ fill.heights b :=
  (heights_of_parts rfl rfl).trans List.filterMap_append

@[simp]
theorem heights_fillNan (e fill : Expr) :
    (fillNan e fill).heights b = e.heights b ++ if e.givesDoubles b then
      fill.heights b else [] := by
  rw [heights_of_parts (e := fillNan e fill) rfl rfl, List.filterMap_append]
  cases e.givesDoubles b <;> rfl

@[simp]
theorem heights_isIn (e : Expr) (options : List Expr) :
    (isIn e options).heights b = e.heights b ++ heightsOf b options :=
  (heights_of_parts rfl rfl).trans List.filterMap_append

@[simp]
theorem heights_between (e low high : Expr) :
    (between e low high).heights b = e.heights b ++ (low.heights b ++ high.heights b) := by
  rw [heights_of_parts (e := between e low high) rfl rfl, List.filterMap_append,
    List.filterMap_append]
  rfl

@[simp]
theorem heightsOf_cons (e : Expr) (rest : List Expr) :
    heightsOf b (e :: rest) = e.heights b ++ heightsOf b rest :=
  List.filterMap_append

theorem heightsOf_eq (items : List Expr) :
    heightsOf b items = (items.map (heights b)).flatten := by
  induction items with
  | nil => rfl
  | cons e rest ih => rw [heightsOf_cons, List.map_cons, List.flatten_cons, ih]

mutual

/-- The height of a value is that of one of the parts with a height of their own, and the
others have the same or are single rows. -/
theorem covers_evaluate (hb : b.Rectangular) : ∀ e : Expr,
    Yields (fun c => Covers (e.heights b) c.length) (e.evaluate b)
  | column name => (length_findColumn hb name).mono fun c hc => hc ▸ .single b.rows
  | literal v type => (Column.length_literal v type b.rows).mono fun c hc =>
    hc ▸ .single b.rows
  | named e name => covers_evaluate hb e
  | cast e type => .bind (covers_evaluate hb e) fun _ hc => fun out hout =>
    Column.length_cast hout ▸ hc
  | unary op e => .bind (covers_evaluate hb e) fun c hc =>
    (Column.length_unary op c).mono fun out hout => hout ▸ hc
  | binary left op right => by
      refine .bind (covers_evaluate hb left) fun l hl =>
        .bind (covers_evaluate hb right) fun r hr => ?_
      refine (Column.covers_binary op l r).mono fun out hout => ?_
      exact heights_binary (b := b) left op right ▸ .two hl hr hout
  | choose predicate thenExpr otherwise => by
      refine .bind (covers_evaluate hb predicate) fun p hp => .bind_any fun mask hmask => ?_
      refine .bind (covers_evaluate hb thenExpr) fun l hl =>
        .bind (covers_evaluate hb otherwise) fun r hr => ?_
      refine (Column.covers_select _ l r).mono fun out hout => ?_
      rw [List.length_map, Column.length_asPredicate hmask] at hout
      -- The condition is brought to the height of the batch.
      have hcondition : Covers (b.rows :: predicate.heights b) b.rows := by
        refine .two (.single b.rows) hp ⟨List.mem_cons_self, ?_⟩
        simpa using Column.height_of_asPredicate hmask
      exact heights_choose (b := b) predicate thenExpr otherwise
        ▸ .three hcondition hl hr hout
  | fillNull e fill => by
      refine .bind (covers_evaluate hb e) fun c hc =>
        .bind (covers_evaluate hb fill) fun d hd => ?_
      refine (Column.covers_orElse c d).mono fun out hout => ?_
      exact heights_fillNull (b := b) e fill ▸ .two hc hd hout
  | fillNan e fill => by
      refine .bind_any fun c hc => ?_
      have hcovers := covers_evaluate hb e c hc
      have hdoubles : e.givesDoubles b = decide (c.type = .float64) := by
        rw [givesDoubles, hc]; rfl
      rw [heights_fillNan, hdoubles]
      by_cases htype : c.type = .float64
      · simp only [htype, if_true, decide_true]
        exact .bind (covers_evaluate hb fill) fun d hd =>
          (Column.covers_fillNan c d).mono fun out hout =>
          .two hcovers hd hout
      · simp only [htype, if_false, decide_false, Bool.false_eq_true, List.append_nil]
        exact .ok hcovers
  | isIn e options => by
      refine .bind (covers_evaluate hb e) fun c hc => ?_
      rw [heights_isIn]
      exact covers_evaluateIn hb options hc (fun _ => rfl) fun _ hd => by cases hd
  | between e low high => by
      refine .bind (covers_evaluate hb e) fun c hc =>
        .bind (covers_evaluate hb low) fun l hl => ?_
      refine .bind (covers_evaluate hb high) fun h hh => ?_
      refine .bind (Column.covers_binary _ c l) fun above habove =>
        .bind (Column.covers_binary _ c h) fun below hbelow => ?_
      refine (Column.covers_binary _ above below).mono fun out hout => ?_
      refine (Covers.two (.two hc hl habove) (.two hc hh hbelow) hout).congr fun k => ?_
      simp only [heights_between, List.mem_append]
      tauto
  | coalesce items => by
      refine .bind (covers_evaluateList hb items) fun cs hcs =>
        (Column.covers_coalesce cs).mono fun out hout => ?_
      show Covers (heightsOf b items) out.length
      exact heightsOf_eq (b := b) items ▸ .flatten hcs hout
  | least items => by
      refine .bind (covers_evaluateList hb items) fun cs hcs =>
        (Column.covers_horizontal _ cs).mono fun out hout => ?_
      show Covers (heightsOf b items) out.length
      exact heightsOf_eq (b := b) items ▸ .flatten hcs hout
  | greatest items => by
      refine .bind (covers_evaluateList hb items) fun cs hcs =>
        (Column.covers_horizontal _ cs).mono fun out hout => ?_
      show Covers (heightsOf b items) out.length
      exact heightsOf_eq (b := b) items ▸ .flatten hcs hout
  | call f items => by
      refine .bind_any fun cs hcs => (Column.covers_call f cs).mono fun out hout => ?_
      have hlength := evaluateList_length hcs
      cases items with
      | nil =>
          obtain rfl : cs = [] := List.length_eq_zero_iff.1 hlength
          rw [if_pos rfl] at hout
          exact hout ▸ .single 0
      | cons e rest =>
          rw [if_neg fun h => by subst h; cases hlength] at hout
          show Covers (heightsOf b (e :: rest)) out.length
          exact heightsOf_eq (b := b) (e :: rest)
            ▸ .flatten (covers_evaluateList hb (e :: rest) cs hcs) hout
  | reduce f e filter => (length_reduce f e filter).mono fun c hc => hc ▸ .single 1
  | countRows filter => (length_countRows filter).mono fun c hc => hc ▸ .single 1

theorem covers_evaluateList (hb : b.Rectangular) : ∀ items : List Expr,
    Yields (fun cs => List.Forall₂ Covers (items.map (heights b)) (cs.map Column.length))
      (evaluateList b items)
  | [] => .ok .nil
  | e :: rest => .bind (covers_evaluate hb e) fun _ hc =>
    .bind (covers_evaluateList hb rest) fun _ hcs =>
      .ok (.cons hc hcs)

/-- What was compared so far covers the heights of the value and of the options before. -/
theorem covers_evaluateIn (hb : b.Rectangular) :
    ∀ (options : List Expr) {c : Column} {hs before : List Nat}, Covers hs c.length →
      ∀ {found : Option Column}, (found = none → before = []) →
      (∀ d ∈ found, Covers (hs ++ before) d.length) →
      Yields (fun out => Covers (hs ++ (before ++ heightsOf b options)) out.length)
        (evaluateIn b c found options)
  | [], c, hs, before, hc, found, hnone, hfound => by
      have hnil : before ++ heightsOf b [] = before := List.append_nil before
      rw [hnil]
      refine .ok ?_
      cases found with
      | none =>
          have hlength : (Column.constant .boolean (.bool false) c.length).length
            = c.length := List.length_replicate
          rw [hnone rfl, List.append_nil]
          exact hlength.symm ▸ hc
      | some d => exact hfound d rfl
  | e :: rest, c, hs, before, hc, found, hnone, hfound => by
      refine .bind (covers_evaluate hb e) fun value hvalue => ?_
      refine .bind (Column.covers_binary _ c value) fun matched hmatched => ?_
      have hmatched : Covers (hs ++ e.heights b) matched.length := .two hc hvalue hmatched
      have hassoc : hs ++ (before ++ heightsOf b (e :: rest))
          = hs ++ ((before ++ e.heights b) ++ heightsOf b rest) := by
        rw [heightsOf_cons, List.append_assoc]
      rw [hassoc]
      cases found with
      | none =>
          rw [hnone rfl, List.nil_append]
          exact covers_evaluateIn hb rest hc nofun fun d hd => Option.some.inj hd ▸ hmatched
      | some d =>
          refine .bind (Column.covers_binary _ d matched) fun next hnext => ?_
          refine covers_evaluateIn hb rest hc nofun fun d' hd => Option.some.inj hd ▸ ?_
          refine (Covers.two (hfound d rfl) hmatched hnext).congr fun k => ?_
          simp only [List.mem_append]
          tauto

end

/-! ## Parts -/

mutual

/-- What is evaluated takes all its parts to be evaluated. -/
theorem evaluate_of_mem_parts {x : Expr} : ∀ e : Expr, x ∈ e.parts b →
    ∀ {c : Column}, e.evaluate b = .ok c → ∃ d, x.evaluate b = .ok d
  | column _, hx, _, h | literal .., hx, _, h | reduce .., hx, _, h
  | countRows _, hx, _, h => by
      obtain rfl := List.mem_singleton.1 hx
      exact ⟨_, h⟩
  | named e name, hx, c, h => by
      rcases List.mem_cons.1 hx with rfl | hx
      · exact ⟨c, h⟩
      · exact evaluate_of_mem_parts e hx h
  | cast e _, hx, c, h | unary _ e, hx, c, h => by
      rcases List.mem_cons.1 hx with rfl | hx
      · exact ⟨c, h⟩
      · obtain ⟨d, hd, -⟩ := bind_eq_ok.1 h
        exact evaluate_of_mem_parts e hx hd
  | binary left op right, hx, c, h => by
      simp only [parts, List.mem_cons, List.mem_append] at hx
      obtain ⟨l, hl, hrest⟩ := bind_eq_ok.1 h
      obtain ⟨r, hr, -⟩ := bind_eq_ok.1 hrest
      rcases hx with rfl | hx | hx
      · exact ⟨c, h⟩
      · exact evaluate_of_mem_parts left hx hl
      · exact evaluate_of_mem_parts right hx hr
  | choose predicate thenExpr otherwise, hx, c, h => by
      simp only [parts, List.mem_cons, List.mem_append] at hx
      obtain ⟨p, hp, hrest⟩ := bind_eq_ok.1 h
      obtain ⟨_, _, hrest⟩ := bind_eq_ok.1 hrest
      obtain ⟨l, hl, hrest⟩ := bind_eq_ok.1 hrest
      obtain ⟨r, hr, -⟩ := bind_eq_ok.1 hrest
      rcases hx with rfl | hx | hx | hx
      · exact ⟨c, h⟩
      · exact evaluate_of_mem_parts predicate hx hp
      · exact evaluate_of_mem_parts thenExpr hx hl
      · exact evaluate_of_mem_parts otherwise hx hr
  | fillNull e fill, hx, c, h => by
      simp only [parts, List.mem_cons, List.mem_append] at hx
      obtain ⟨l, hl, hrest⟩ := bind_eq_ok.1 h
      obtain ⟨r, hr, -⟩ := bind_eq_ok.1 hrest
      rcases hx with rfl | hx | hx
      · exact ⟨c, h⟩
      · exact evaluate_of_mem_parts e hx hl
      · exact evaluate_of_mem_parts fill hx hr
  | fillNan e fill, hx, c, h => by
      simp only [parts, List.mem_cons, List.mem_append] at hx
      obtain ⟨l, hl, hrest⟩ := bind_eq_ok.1 h
      rcases hx with rfl | hx | hx
      · exact ⟨c, h⟩
      · exact evaluate_of_mem_parts e hx hl
      · have hdoubles : e.givesDoubles b = decide (l.type = .float64) := by
          rw [givesDoubles, hl]; rfl
        rw [hdoubles] at hx
        by_cases htype : l.type = .float64
        · simp only [htype, if_true, decide_true] at hx hrest
          obtain ⟨r, hr, -⟩ := bind_eq_ok.1 hrest
          exact evaluate_of_mem_parts fill hx hr
        · simp [htype] at hx
  | isIn e options, hx, c, h => by
      simp only [parts, List.mem_cons, List.mem_append] at hx
      obtain ⟨l, hl, hrest⟩ := bind_eq_ok.1 h
      rcases hx with rfl | hx | hx
      · exact ⟨c, h⟩
      · exact evaluate_of_mem_parts e hx hl
      · exact evaluateIn_of_mem_parts options hx hrest
  | between e low high, hx, c, h => by
      simp only [parts, List.mem_cons, List.mem_append] at hx
      obtain ⟨v, hv, hrest⟩ := bind_eq_ok.1 h
      obtain ⟨l, hl, hrest⟩ := bind_eq_ok.1 hrest
      obtain ⟨r, hr, -⟩ := bind_eq_ok.1 hrest
      rcases hx with rfl | hx | hx | hx
      · exact ⟨c, h⟩
      · exact evaluate_of_mem_parts e hx hv
      · exact evaluate_of_mem_parts low hx hl
      · exact evaluate_of_mem_parts high hx hr
  | coalesce items, hx, c, h | least items, hx, c, h | greatest items, hx, c, h
  | call _ items, hx, c, h => by
      rcases List.mem_cons.1 hx with rfl | hx
      · exact ⟨c, h⟩
      · obtain ⟨cs, hcs, -⟩ := bind_eq_ok.1 h
        exact evaluateList_of_mem_parts items hx hcs

theorem evaluateList_of_mem_parts {x : Expr} : ∀ items : List Expr, x ∈ partsOf b items →
    ∀ {cs : List Column}, evaluateList b items = .ok cs → ∃ d, x.evaluate b = .ok d
  | [], hx, _, _ => by cases hx
  | e :: rest, hx, _, h => by
      obtain ⟨here, hhere, h⟩ := bind_eq_ok.1 h
      obtain ⟨after, hafter, -⟩ := bind_eq_ok.1 h
      rcases List.mem_append.1 hx with hx | hx
      · exact evaluate_of_mem_parts e hx hhere
      · exact evaluateList_of_mem_parts rest hx hafter

theorem evaluateIn_of_mem_parts {x : Expr} : ∀ options : List Expr, x ∈ partsOf b options →
    ∀ {c out : Column} {found : Option Column}, evaluateIn b c found options = .ok out →
      ∃ d, x.evaluate b = .ok d
  | [], hx, _, _, _, _ => by cases hx
  | e :: rest, hx, c, out, found, h => by
      obtain ⟨value, hvalue, h⟩ := bind_eq_ok.1 h
      obtain ⟨matched, -, h⟩ := bind_eq_ok.1 h
      rcases List.mem_append.1 hx with hx | hx
      · exact evaluate_of_mem_parts e hx hvalue
      · cases found with
        | none => exact evaluateIn_of_mem_parts rest hx h
        | some found =>
            obtain ⟨next, -, h⟩ := bind_eq_ok.1 h
            exact evaluateIn_of_mem_parts rest hx h

end

/-! ## Heights and reductions -/

mutual

theorem aggregateFree_eq : ∀ e : Expr, e.aggregateFree = !e.reduces
  | column _ | literal .. | reduce .. | countRows _ => rfl
  | named e _ | cast e _ | unary _ e => aggregateFree_eq e
  | binary l _ r | fillNull l r | fillNan l r => by
      rw [aggregateFree, reduces, aggregateFree_eq l, aggregateFree_eq r, Bool.not_or]
  | choose e l r | between e l r => by
      rw [aggregateFree, reduces, aggregateFree_eq e, aggregateFree_eq l,
        aggregateFree_eq r, Bool.not_or, Bool.not_or]
  | isIn e items => by
    rw [aggregateFree, reduces, aggregateFree_eq e, allAggregateFree_eq items, Bool.not_or]
  | coalesce items | least items | greatest items | call _ items => allAggregateFree_eq items

theorem allAggregateFree_eq : ∀ items : List Expr, allAggregateFree items = !anyReduces items
  | [] => rfl
  | e :: rest =>
    by rw [allAggregateFree, anyReduces, aggregateFree_eq e,
      allAggregateFree_eq rest, Bool.not_or]

end

mutual

theorem reduces_of_mem_parts {x : Expr} (hx : x.reduces = true) :
    ∀ e : Expr, x ∈ e.parts b → e.reduces = true
  | column _, h | literal .., h | reduce .., h | countRows _, h => by
      rwa [List.mem_singleton.1 h] at hx
  | named e _, h | cast e _, h | unary _ e, h => by
      rcases List.mem_cons.1 h with rfl | h
      · exact hx
      · exact reduces_of_mem_parts hx e h
  | binary l _ r, h | fillNull l r, h => by
      simp only [parts, List.mem_cons, List.mem_append] at h
      rcases h with rfl | h | h
      · exact hx
      · simp [reduces, reduces_of_mem_parts hx l h]
      · simp [reduces, reduces_of_mem_parts hx r h]
  | fillNan l r, h => by
      simp only [parts, List.mem_cons, List.mem_append] at h
      rcases h with rfl | h | h
      · exact hx
      · simp [reduces, reduces_of_mem_parts hx l h]
      · split at h
        · simp [reduces, reduces_of_mem_parts hx r h]
        · cases h
  | choose e l r, h | between e l r, h => by
      simp only [parts, List.mem_cons, List.mem_append] at h
      rcases h with rfl | h | h | h
      · exact hx
      · simp [reduces, reduces_of_mem_parts hx e h]
      · simp [reduces, reduces_of_mem_parts hx l h]
      · simp [reduces, reduces_of_mem_parts hx r h]
  | isIn e items, h => by
      simp only [parts, List.mem_cons, List.mem_append] at h
      rcases h with rfl | h | h
      · exact hx
      · simp [reduces, reduces_of_mem_parts hx e h]
      · simp [reduces, reduces_of_mem_partsOf hx items h]
  | coalesce items, h | least items, h | greatest items, h | call _ items, h => by
      rcases List.mem_cons.1 h with rfl | h
      · exact hx
      · exact reduces_of_mem_partsOf hx items h

theorem reduces_of_mem_partsOf {x : Expr} (hx : x.reduces = true) :
    ∀ items : List Expr, x ∈ partsOf b items →
    anyReduces items = true
  | [], h => by cases h
  | e :: rest, h => by
      rcases List.mem_append.1 h with h | h
      · exact Bool.or_eq_true_iff.2 (.inl (reduces_of_mem_parts hx e h))
      · exact Bool.or_eq_true_iff.2 (.inr (reduces_of_mem_partsOf hx rest h))

end

/-- A height of its own is that of the batch, of a reduction, or of a function without
arguments. -/
theorem mem_heights {e : Expr} {h : Nat} (hmem : h ∈ e.heights b) :
    h = b.rows ∨ (h = 1 ∧ e.reduces = true) ∨ (h = 0 ∧ ∃ f, call f [] ∈ e.parts b) := by
  obtain ⟨x, hx, hheight⟩ := List.mem_filterMap.1 hmem
  cases x with
  | column | literal | choose => exact .inl (Option.some.inj hheight).symm
  | reduce | countRows =>
      exact .inr (.inl ⟨(Option.some.inj hheight).symm, reduces_of_mem_parts rfl e hx⟩)
  | call f items =>
      cases items with
      | nil => exact .inr (.inr ⟨(Option.some.inj hheight).symm, f, hx⟩)
      | cons => cases hheight
  | _ => cases hheight

/-- An expression that reduces nothing gives no more rows than its batch has. -/
theorem atMost_evaluate (hb : b.Rectangular) (e : Expr) (he : e.aggregateFree = true) :
    Yields (·.length ≤ b.rows) (e.evaluate b) := by
  refine (covers_evaluate hb e).mono fun c hc => ?_
  rcases mem_heights hc.1 with h | ⟨-, h⟩ | ⟨h, -⟩
  · exact Nat.le_of_eq h
  · rw [aggregateFree_eq, h] at he
    cases he
  · omega

end Expr

end TypedQuery
