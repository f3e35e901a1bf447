import TypedQuery.Proofs.Columnar.Heights
import TypedQuery.Proofs.Columnar.Residues

/-!
# One value in many rows and in one

A column with one value in every row is to be computed with as its value is by itself.
What is done row by row is, since a single row may be chosen over and over. But next to
the column there may be another that has a single row, and operations differ in how they
go about that: some repeat the row, some leave the row out if it is missing, and
choosing the least or the greatest fails. So an operation on columns of different
heights is first compared with the same operation on columns that were brought to one
height (`Raised`), and that with the operation on single rows. The data is the same in
both steps, though residues are not.
-/

namespace TypedQuery

variable {ε α β γ δ : Type}

/-! ## Success on both sides -/

/-- If one step succeeds then so does the other, with related results; back
only under a condition. -/
def Mutual (P : Prop) (R : α → β → Prop) (x : Except ε α) (y : Except ε β) : Prop :=
  Follows R x y ∧ (P → Follows (fun b a => R a b) y x)

namespace Mutual

variable {P Q : Prop} {R : α → β → Prop} {S : γ → δ → Prop} {x : Except ε α} {y : Except ε β}

theorem ok {a : α} {b : β} (h : R a b) : Mutual P R (.ok a : Except ε α) (.ok b) :=
  ⟨.ok h, fun _ => .ok h⟩

theorem error (e e' : ε) : Mutual P R (.error e : Except ε α) (.error e' : Except ε β) :=
  ⟨.error e _, fun _ => .error e' _⟩

theorem bind {f : α → Except ε γ} {g : β → Except ε δ} (h : Mutual P R x y)
    (hfg : ∀ a b, x = .ok a → y = .ok b → R a b → Mutual P S (f a) (g b)) :
    Mutual P S (x >>= f) (y >>= g) := by
  constructor
  · intro c hc
    obtain ⟨a, ha, hc⟩ := bind_eq_ok.1 hc
    obtain ⟨b, hb, hab⟩ := h.1 a ha
    obtain ⟨d, hd, hcd⟩ := (hfg a b ha hb hab).1 c hc
    exact ⟨d, bind_eq_ok.2 ⟨b, hb, hd⟩, hcd⟩
  · intro hP d hd
    obtain ⟨b, hb, hd⟩ := bind_eq_ok.1 hd
    obtain ⟨a, ha, hab⟩ := h.2 hP b hb
    obtain ⟨c, hc, hcd⟩ := (hfg a b ha hb hab).2 hP d hd
    exact ⟨c, bind_eq_ok.2 ⟨a, ha, hc⟩, hcd⟩

/-- A step that both sides take alike. -/
theorem bind_same {x : Except ε α} {f : α → Except ε γ} {g : α → Except ε δ}
    (hfg : ∀ a, x = .ok a → Mutual P S (f a) (g a)) : Mutual P S (x >>= f) (x >>= g) := by
  cases x with
  | error e => exact .error e e
  | ok a => exact hfg a rfl

theorem mono {R' : α → β → Prop} (h : Mutual P R x y) (hR : ∀ a b, R a b → R' a b) :
    Mutual P R' x y :=
  ⟨h.1.mono hR, fun hP => (h.2 hP).mono fun b a => hR a b⟩

theorem imp (h : Mutual P R x y) (hPQ : Q → P) :
    Mutual Q R x y := ⟨h.1, fun hQ => h.2 (hPQ hQ)⟩

/-- What succeeds always succeeds under a condition. -/
theorem always (h : Mutual True R x y) : Mutual P R x y := h.imp fun _ => trivial

end Mutual

namespace Column

variable {n m h h' : Nat} {c c' d d' l l' r r' : Column} {cs ds : List Column}

theorem lt_of_mem_firsts_one {i : Nat} (h : i ∈ List.replicate n 0) : i < 1 :=
  (List.eq_of_mem_replicate h).symm ▸ Nat.one_pos

/-! ## Columns brought to a height -/

/-- The column at the height `m`. -/
abbrev Raised (m : Nat) (c c' : Column) : Prop := c.broadcast m = .ok c'

namespace Raised

theorem cases (h : Raised m c c') :
    (c.length = m ∧ c' = c)
      ∨ (c.length ≠ m ∧ ∃ a, c.cells = [a] ∧ c' = constant c.type a m) := by
  unfold Raised broadcast at h
  split at h
  · next hlength => exact .inl ⟨hlength, (Except.ok.inj h).symm⟩
  · next hlength =>
      split at h
      · next a ha => exact .inr ⟨hlength, a, ha, (Except.ok.inj h).symm⟩
      · cases h

theorem constant (t : Physical) (a : Cell) (hm : h = m ∨ h = 1) :
    Raised m (.constant t a h) (.constant t a m) := by
  by_cases heq : h = m
  · subst heq
    exact if_pos List.length_replicate
  · obtain rfl := hm.resolve_left heq
    exact if_neg fun hlength => heq (List.length_replicate.symm.trans hlength)

theorem length (h : Raised m c c') : c'.length = m := Batch.length_broadcast h

theorem eq (h : Raised m c c') : c.broadcast m = .ok c' := h

theorem again (h : Raised m c c') : c'.broadcast m = .ok c' :=
  Batch.broadcast_of_length h.length

theorem type_eq (h : Raised m c c') : c'.type = c.type := by
  rcases h.cases with ⟨-, rfl⟩ | ⟨-, a, -, rfl⟩ <;> rfl

/-- Rows that are repeated may be computed before. -/
theorem map (t : Physical) (f : Cell → Cell) (h : Raised m c c') :
    Raised m ⟨t, c.cells.map f⟩ ⟨t, c'.cells.map f⟩ := by
  rcases h.cases with ⟨hlength, rfl⟩ | ⟨hlength, a, ha, rfl⟩
  · exact if_pos ((List.length_map _).trans hlength)
  · have hsingle : Raised m (.constant t (f a) 1) (.constant t (f a) m) :=
      .constant t (f a) (.inr rfl)
    rw [ha]
    simpa [Column.constant] using hsingle

theorem of_taken (h : Taken 1 (List.replicate m 0) c c') : Raised m c c' := by
  obtain ⟨t, f, rfl, rfl⟩ := h
  rw [List.map_replicate]
  exact .constant t (f 0) (.inr rfl)

theorem cast (hm : 0 < m) (h : Raised m c c') (t : Physical) :
    Mutual True (Raised m) (c.cast t) (c'.cast t) := by
  rcases h.cases with ⟨hlength, rfl⟩ | ⟨-, a, ha, rfl⟩
  · have hsame : Follows (fun d d' => Raised m d d' ∧ d' = d) (c'.cast t) (c'.cast t) :=
      fun d hd =>
      ⟨d, hd, Batch.broadcast_of_length ((length_cast hd).trans hlength), rfl⟩
    exact ⟨hsame.mono fun _ _ h => h.1, fun _ => hsame.mono fun d d' h => h.2 ▸ h.2 ▸ h.1⟩
  · obtain ⟨type, cells⟩ := c
    obtain rfl : cells = [a] := ha
    have hup : Taken 1 (List.replicate m 0) ⟨type, [a]⟩ (.constant type a m) :=
      ⟨type, fun _ => a, rfl, by rw [List.map_replicate]; rfl⟩
    have hdown : Taken m [0] (.constant type a m) ⟨type, [a]⟩ :=
      ⟨type, fun _ => a, by rw [List.map_const', List.length_range]; rfl, rfl⟩
    constructor
    · exact (hup.cast (fun _ hi => lt_of_mem_firsts_one hi) t).mono fun _ _ => of_taken
    · intro _ d' hd'
      obtain ⟨d, hd, -⟩ :=
        hdown.cast (fun _ hi => (List.mem_singleton.1 hi).symm ▸ hm) t d' hd'
      obtain ⟨d'', hd'', htaken⟩ := hup.cast (fun _ hi => lt_of_mem_firsts_one hi) t d hd
      cases hd'.symm.trans hd''
      exact ⟨d, hd, of_taken htaken⟩

theorem coerce (hm : 0 < m) (hl : Raised m l l') (hr : Raised m r r') :
    Mutual True (fun p p' => Raised m p.1 p'.1 ∧ Raised m p.2 p'.2) (l.coerce r)
      (l'.coerce r') := by
  unfold Column.coerce
  rw [hl.type_eq, hr.type_eq]
  exact .bind_same fun t _ => .bind (hl.cast hm t) fun _ _ _ _ hl =>
    .bind (hr.cast hm t) fun _ _ _ _ hr => .ok ⟨hl, hr⟩

/-! ## Two columns side by side -/

theorem zip_replicate_left (a : Cell) (bs : List Cell) :
    (List.replicate bs.length a).zip bs = bs.map (Prod.mk a) := by
  induction bs with
  | nil => rfl
  | cons b bs ih =>
      rw [List.length_cons, List.replicate_succ, List.zip_cons_cons, ih, List.map_cons]

theorem zip_replicate_right (as : List Cell) (b : Cell) :
    as.zip (List.replicate as.length b) = as.map (·, b) := by
  induction as with
  | nil => rfl
  | cons a as ih =>
      rw [List.length_cons, List.replicate_succ, List.zip_cons_cons, ih, List.map_cons]

/-- Nothing more is seen where the row is repeated. -/
theorem pairs (hl : Raised m l l') (hr : Raised m r r') (hm : m = max l.length r.length) :
    ∃ ps ps', l.pairs r = .ok ps ∧ l'.pairs r' = .ok ps' ∧ ps.map seen = ps'.map seen := by
  have hpairs' : l'.pairs r' = .ok ((l'.cells.zip r'.cells).map some) :=
    if_pos (hl.length.trans hr.length.symm)
  rcases hl.cases with ⟨hlength, rfl⟩ | ⟨hlength, a, ha, rfl⟩
  · rcases hr.cases with ⟨-, rfl⟩ | ⟨hrlength, b, hb, rfl⟩
    · exact ⟨_, _, hpairs', hpairs', rfl⟩
    · refine ⟨_, _, pairs_of_single_right hb (hlength.trans_ne hrlength.symm), hpairs', ?_⟩
      rw [seen_right, Column.constant, ← hlength, Column.length, zip_replicate_right,
        List.map_map, List.map_map]
      rfl
  · have hrlength : r.length = m := by
      have hone : l.length = 1 := congrArg List.length ha
      rcases hr.cases with ⟨hrlength, -⟩ | ⟨-, b, hb, -⟩
      · exact hrlength
      · have hrone : r.length = 1 := congrArg List.length hb
        omega
    obtain rfl : r' = r := Except.ok.inj (hr.symm.trans (Batch.broadcast_of_length hrlength))
    refine ⟨_, _, pairs_of_single_left ha (hlength.trans_eq hrlength.symm), hpairs', ?_⟩
    rw [seen_left, Column.constant, ← hrlength, Column.length, zip_replicate_left,
      List.map_map, List.map_map]
    rfl

/-! ## Operations on two columns -/

theorem binary (op : BinaryOp) (hm : m = max l.length r.length) (hpos : 0 < m)
    (hl : Raised m l l') (hr : Raised m r r') :
    Mutual True SameData (op.apply l r) (op.apply l' r') := by
  refine .bind (hl.coerce hpos hr) fun p p' hp _ hraised => ?_
  obtain ⟨hl, hr⟩ := hraised
  obtain ⟨hlength, hlength'⟩ := length_coerce l r p hp
  rw [← hlength, ← hlength'] at hm
  have hmax : m = max p'.1.length p'.2.length := by rw [hl.length, hr.length, Nat.max_self]
  have hseen : Follows (fun ps ps' => ps.map seen = ps'.map seen) (p.1.pairs p.2)
      (p'.1.pairs p'.2)
      ∧ Follows (fun ps ps' => ps.map seen = ps'.map seen) (p'.1.pairs p'.2)
          (p.1.pairs p.2) := by
    obtain ⟨ps, ps', hps, hps', h⟩ := hl.pairs hr hm
    rw [hps, hps']
    exact ⟨.ok h, .ok h.symm⟩
  have hsame {x y : Except Error Column} (h : x = y) : Mutual True SameData x y :=
    h ▸ ⟨fun c hc => ⟨c, hc, .refl c⟩, fun _ c hc => ⟨c, hc, .refl c⟩⟩
  cases op with
  | arithmetic op =>
      refine ⟨SameData.arithmetic op hl.type_eq.symm hseen.1, fun _ => ?_⟩
      exact (SameData.arithmetic op hl.type_eq hseen.2).mono fun _ _ => .symm
  | compare op =>
      refine ⟨SameData.compare op hl.type_eq.symm hseen.1, fun _ => ?_⟩
      exact (SameData.compare op hl.type_eq hseen.2).mono fun _ _ => .symm
  | power =>
      unfold Column.power
      refine .bind (hl.cast hpos _) fun base base' hbase _ hl => ?_
      refine .bind (hr.cast hpos _) fun exponent exponent' hexponent _ hr => ?_
      refine hsame ?_
      simp only [length_cast hbase, length_cast hexponent, hl.length, hr.length,
        Nat.max_self, ← hm, hl.eq, hr.eq, hl.again, hr.again]
  | logic op =>
      exact hsame (by simp only [Column.logic, ← hm, ← hmax, hl.eq, hr.eq,
        hl.again, hr.again])
  | bitwise op =>
      exact hsame (by simp only [Column.bitwise, ← hm, ← hmax, hl.eq, hr.eq,
        hl.again, hr.again])

/-! ## Choices -/

theorem select {mask mask' : List Bool}
    (hm : m = max mask.length (max l.length r.length)) (hpos : 0 < m)
    (hmask : Raised m (bools (mask.map some)) (bools (mask'.map some))) (hl : Raised m l l')
    (hr : Raised m r r') :
    Mutual True (· = ·) (Column.select mask l r) (Column.select mask' l' r') := by
  have hmask' : mask'.length = m := by simpa [bools, Column.length] using hmask.length
  unfold Column.select
  simp only [← hm, hmask', hl.length, hr.length, Nat.max_self, hmask.eq, hmask.again]
  refine .bind_same fun _ _ => .bind (hl.coerce hpos hr) fun p p' _ _ hp => ?_
  simp only [hp.1.eq, hp.2.eq, hp.1.again, hp.2.again]
  exact .bind_same fun a _ => .bind_same fun b _ => .ok rfl

theorem mask (g : Cell → Bool) (h : Raised m c c') :
    Raised m (bools ((c.cells.map g).map some)) (bools ((c'.cells.map g).map some)) := by
  rw [bools, bools, List.map_map, List.map_map, List.map_map, List.map_map]
  exact h.map .boolean _

/-- One column stands in for another where a test on that fails. -/
theorem select_tested (g : Cell → Bool) (hm : m = max l.length r.length) (hpos : 0 < m)
    (hl : Raised m l l') (hr : Raised m r r') :
    Mutual True (· = ·) (Column.select (l.cells.map g) l r)
      (Column.select (l'.cells.map g) l' r') := by
  refine select ?_ hpos (hl.mask g) hl hr
  rw [List.length_map, hm]
  exact (Nat.max_assoc _ _ _ ▸ congrArg (max · _) (Nat.max_self _)).symm

theorem orElse (hm : m = max l.length r.length) (hpos : 0 < m) (hl : Raised m l l')
    (hr : Raised m r r') :
    Mutual True (· = ·) (l.orElse r) (l'.orElse r') := by
  unfold Column.orElse
  rw [hl.type_eq, isNull, isNull, List.map_map, List.map_map]
  exact .bind (hr.cast hpos _) fun _ _ hfill _ hr =>
    select_tested _ (length_cast hfill ▸ hm) hpos hl hr

theorem fillNan (hm : m = max l.length r.length) (hpos : 0 < m) (hl : Raised m l l')
    (hr : Raised m r r') :
    Mutual True (· = ·) (l.fillNan r) (l'.fillNan r') :=
  .bind (hr.cast hpos _) fun _ _ hfill _ hr =>
    select_tested _ (length_cast hfill ▸ hm) hpos hl hr

end Raised

/-! ## Echoes -/

/-- A column of `h` rows with one value in all of them, and a single row with the same
data. -/
def Echo (h : Nat) (c d : Column) : Prop :=
  ∃ (t : Physical) (a : Cell), c.SameData (constant t a h) ∧ d.SameData (constant t a 1)

/-- Columns that differ in residues only. -/
theorem mutual_of_sameData {P : Prop} {x y : Except Error Column} (h : Follows SameData x y)
    (h' : Follows SameData y x) :
    Mutual P SameData x y := ⟨h, fun _ => h'.mono fun _ _ => .symm⟩

theorem mutual_trans {x y z : Except Error Column} (hx : Mutual True SameData x y)
    (hy : Mutual True SameData y z) :
    Mutual True SameData x z := by
  constructor
  · intro c hc
    obtain ⟨d, hd, hcd⟩ := hx.1 c hc
    obtain ⟨e, he, hde⟩ := hy.1 d hd
    exact ⟨e, he, hcd.trans hde⟩
  · intro _ e he
    obtain ⟨d, hd, hde⟩ := hy.2 trivial e he
    obtain ⟨c, hc, hcd⟩ := hx.2 trivial d hd
    exact ⟨c, hc, hcd.trans hde⟩

/-- What is done row by row is followed to the first row, which is chosen over and
over on the way back. -/
theorem mutual_echo {x y rows row : Except Error Column} (hx : Mutual True SameData x rows)
    (hy : Mutual True SameData y row) (hdown : Follows (Taken h [0]) rows row)
    (hup : Follows (Taken 1 (List.replicate h 0)) row rows) : Mutual True (Echo h) x y := by
  have hecho {a b c d : Column} (hca : c.SameData a) (hdb : d.SameData b)
    (hba : Taken 1 (List.replicate h 0) b a) :
      Echo h c d := by
    obtain ⟨t, f, rfl, rfl⟩ := hba
    rw [List.map_replicate] at hca
    exact ⟨t, f 0, hca, hdb⟩
  constructor
  · intro c hc
    obtain ⟨a, ha, hca⟩ := hx.1 c hc
    obtain ⟨b, hb, -⟩ := hdown a ha
    obtain ⟨d, hd, hdb⟩ := hy.2 trivial b hb
    obtain ⟨a', ha', hba⟩ := hup b hb
    cases ha.symm.trans ha'
    exact ⟨d, hd, hecho hca hdb hba⟩
  · intro _ d hd
    obtain ⟨b, hb, hdb⟩ := hy.1 d hd
    obtain ⟨a, ha, hba⟩ := hup b hb
    obtain ⟨c, hc, hca⟩ := hx.2 trivial a ha
    exact ⟨c, hc, hecho hca hdb hba⟩

theorem constant_taken (t : Physical) (a : Cell) :
    Taken h [0] (constant t a h) (constant t a 1) :=
  .of_cells t (.replicate a)

theorem taken_constant (t : Physical) (a : Cell) :
    Taken 1 (List.replicate h 0) (constant t a 1) (constant t a h) := by
  have htaken : Taken 1 (List.replicate h 0) (constant t a 1)
      (constant t a (List.replicate h 0).length) :=
    .of_cells t (.replicate a)
  rwa [List.length_replicate] at htaken

/-- An operation on two columns that goes row by row: residues do not matter, single rows
may be repeated before, and rows may be chosen before. -/
structure RowByRow (op : Column → Column → Except Error Column) : Prop where
  sameData : ∀ {l l' r r' : Column}, l.SameData l' → r.SameData r' →
    Follows SameData (op l r) (op l' r')
  raised : ∀ {m : Nat} {l l' r r' : Column}, m = max l.length r.length → 0 < m →
    Raised m l l' → Raised m r r' →
    Mutual True SameData (op l r) (op l' r')
  taken : ∀ {n : Nat} {rows : List Nat} {l l' r r' : Column}, (∀ i ∈ rows, i < n) →
    Taken n rows l l' → Taken n rows r r' →
    Follows (Taken n rows) (op l r) (op l' r')

theorem sameData_of_eq {x y : Except Error Column} (h : Mutual True (· = ·) x y) :
    Mutual True SameData x y :=
  h.mono fun a _ hab => hab ▸ .refl a

theorem rowByRow_binary (op : BinaryOp) : RowByRow op.apply :=
  ⟨fun hl hr => hl.binary op hr, fun hm hpos hl hr => hl.binary op hm hpos hr,
    fun hr hl hr' => hl.binary hr op hr'⟩

theorem rowByRow_orElse : RowByRow orElse :=
  ⟨fun hl hr => hl.orElse hr, fun hm hpos hl hr => sameData_of_eq (hl.orElse hm hpos hr),
    fun hr hl hr' => hl.orElse hr hr'⟩

theorem rowByRow_fillNan : RowByRow fillNan :=
  ⟨fun hl hr => hl.fillNan hr, fun hm hpos hl hr => sameData_of_eq (hl.fillNan hm hpos hr),
    fun hr hl hr' => hl.fillNan hr hr'⟩

namespace Echo

theorem length (h' : Echo h c d) : c.length = h := by
  obtain ⟨t, a, hc, -⟩ := h'
  exact hc.length_eq.trans List.length_replicate

theorem length_one (h' : Echo h c d) : d.length = 1 := by
  obtain ⟨t, a, -, hd⟩ := h'
  exact hd.length_eq

theorem type_eq (h' : Echo h c d) : c.type = d.type := by
  obtain ⟨t, a, hc, hd⟩ := h'
  exact hc.1.trans hd.1.symm

/-- What one column is computed from. -/
theorem through {op : Column → Except Error Column} (hpos : 0 < h) (h' : Echo h c d)
    (hsame : ∀ {c c' : Column}, c.SameData c' → Follows SameData (op c) (op c'))
    (htaken : ∀ {n : Nat} {rows : List Nat} {c c' : Column}, (∀ i ∈ rows, i < n) →
      Taken n rows c c' →
      Follows (Taken n rows) (op c) (op c')) : Mutual True (Echo h) (op c) (op d) := by
  obtain ⟨t, a, hc, hd⟩ := h'
  refine mutual_echo (mutual_of_sameData (hsame hc) (hsame hc.symm))
    (mutual_of_sameData (hsame hd) (hsame hd.symm)) ?_ ?_
  · exact htaken (fun _ hi => (List.mem_singleton.1 hi).symm ▸ hpos) (constant_taken t a)
  · exact htaken (fun _ hi => lt_of_mem_firsts_one hi) (taken_constant t a)

/-- What several columns of one height are computed from. -/
theorem throughAll {op : List Column → Except Error Column} (hpos : 0 < h)
    (hall : List.Forall₂ (Echo h) cs ds)
    (hsame : ∀ {cs cs' : List Column}, List.Forall₂ SameData cs cs' →
      Follows SameData (op cs) (op cs'))
    (htaken : ∀ {n : Nat} {rows : List Nat} {cs' ds' : List Column}, (∀ i ∈ rows, i < n) →
      cs'.length = cs.length →
      List.Forall₂ (Taken n rows) cs' ds' → Follows (Taken n rows) (op cs') (op ds')) :
        Mutual True (Echo h) (op cs) (op ds) := by
  obtain ⟨rows, row, hrows, hrow, hdown, hup⟩ : ∃ rows row : List Column,
      List.Forall₂ SameData cs rows
      ∧ List.Forall₂ SameData ds row ∧ List.Forall₂ (Taken h [0]) rows row
      ∧ List.Forall₂ (Taken 1 (List.replicate h 0)) row rows := by
    clear hsame htaken
    induction hall with
    | nil => exact ⟨[], [], .nil, .nil, .nil, .nil⟩
    | cons hecho _ ih =>
        obtain ⟨t, a, hc, hd⟩ := hecho
        obtain ⟨rows, row, hrows, hrow, hdown, hup⟩ := ih
        exact ⟨_ :: rows, _ :: row, .cons hc hrows, .cons hd hrow,
          .cons (constant_taken t a) hdown, .cons (taken_constant t a) hup⟩
  refine mutual_echo
    (mutual_of_sameData (hsame hrows) (hsame (hrows.flip.imp fun _ _ => .symm)))
    (mutual_of_sameData (hsame hrow) (hsame (hrow.flip.imp fun _ _ => .symm))) ?_ ?_
  · exact htaken (fun _ hi => (List.mem_singleton.1 hi).symm ▸ hpos)
      hrows.length_eq.symm hdown
  · exact htaken (fun _ hi => lt_of_mem_firsts_one hi)
      (hrow.length_eq.symm.trans hall.length_eq.symm) hup

theorem unary (op : UnaryOp) (hpos : 0 < h) (h' : Echo h c d) :
    Mutual True (Echo h) (op.apply c) (op.apply d) :=
  h'.through hpos (fun hsame => hsame.unary op) fun hr htaken => htaken.unary hr op

theorem cast (t : Physical) (hpos : 0 < h) (h' : Echo h c d) :
    Mutual True (Echo h) (c.cast t) (d.cast t) :=
  h'.through hpos (fun hsame => hsame.cast t) fun hr htaken => htaken.cast hr t

/-- What two columns of different heights are computed from. -/
theorem beside {op : Column → Column → Except Error Column} (hop : RowByRow op)
    (hm : m = max h h') (hh : h = m ∨ h = 1) (hh' : h' = m ∨ h' = 1) (hpos : 0 < m)
    (hc : Echo h c d) (hc' : Echo h' c' d') :
    Mutual True (Echo m) (op c c') (op d d') := by
  obtain ⟨t, a, hc, hd⟩ := hc
  obtain ⟨t', a', hc', hd'⟩ := hc'
  have hraised : Mutual True SameData (op (constant t a h) (constant t' a' h'))
      (op (constant t a m) (constant t' a' m)) :=
    hop.raised (by simp [Column.length, constant, hm]) hpos (.constant t a hh)
      (.constant t' a' hh')
  have hrows : Mutual True SameData (op c c') (op (constant t a m) (constant t' a' m)) :=
    mutual_trans (mutual_of_sameData (hop.sameData hc hc')
      (hop.sameData hc.symm hc'.symm)) hraised
  have hrow : Mutual True SameData (op d d') (op (constant t a 1) (constant t' a' 1)) :=
    mutual_of_sameData (hop.sameData hd hd') (hop.sameData hd.symm hd'.symm)
  refine mutual_echo hrows hrow ?_ ?_
  · exact hop.taken (fun _ hi => (List.mem_singleton.1 hi).symm ▸ hpos) (constant_taken t a)
      (constant_taken t' a')
  · exact hop.taken (fun _ hi => lt_of_mem_firsts_one hi) (taken_constant t a)
      (taken_constant t' a')

end Echo

/-- An echo at one of the heights that there are: that of the batch and that of single
rows. -/
def Echoes (n : Nat) (c d : Column) : Prop := ∃ h, 0 < h ∧ (h = n ∨ h = 1) ∧ Echo h c d

namespace Echoes

theorem length_one (h : Echoes n c d) : d.length = 1 := by
  obtain ⟨_, _, _, hecho⟩ := h
  exact hecho.length_one

theorem type_eq (h : Echoes n c d) : c.type = d.type := by
  obtain ⟨_, _, _, hecho⟩ := h
  exact hecho.type_eq

theorem unary (op : UnaryOp) (h : Echoes n c d) :
    Mutual True (Echoes n) (op.apply c) (op.apply d) := by
  obtain ⟨h, hpos, hn, hecho⟩ := h
  exact (hecho.unary op hpos).mono fun _ _ hecho => ⟨h, hpos, hn, hecho⟩

theorem cast (t : Physical) (h : Echoes n c d) :
    Mutual True (Echoes n) (c.cast t) (d.cast t) := by
  obtain ⟨h, hpos, hn, hecho⟩ := h
  exact (hecho.cast t hpos).mono fun _ _ hecho => ⟨h, hpos, hn, hecho⟩

theorem beside {op : Column → Column → Except Error Column} (hop : RowByRow op)
    (hc : Echoes n c d) (hc' : Echoes n c' d') :
    Mutual True (Echoes n) (op c c') (op d d') := by
  obtain ⟨h, hpos, hn, hc⟩ := hc
  obtain ⟨h', hpos', hn', hc'⟩ := hc'
  have hmax : 0 < max h h' ∧ (max h h' = n ∨ max h h' = 1) := by omega
  exact (hc.beside hop rfl (by omega) (by omega) hmax.1 hc').mono fun _ _ hecho =>
    ⟨_, hmax.1, hmax.2, hecho⟩

theorem coalesce (h : List.Forall₂ (Echoes n) cs ds) :
    Mutual True (Echoes n) (Column.coalesce cs) (Column.coalesce ds) := by
  induction h with
  | nil => exact .error _ _
  | cons hc hrest ih =>
      cases hrest with
      | nil => exact .ok hc
      | cons => exact .bind ih fun _ _ _ _ hd => hc.beside rowByRow_orElse hd

/-- The mask is of the height of the batch. -/
theorem select (hn : 0 < n) (keep : Bool) (hc : Echoes n c d) (hc' : Echoes n c' d') :
    Mutual True (Echoes n) (Column.select (List.replicate n keep) c c')
      (Column.select (List.replicate 1 keep) d d') := by
  obtain ⟨h, hpos, hh, t, a, hc, hd⟩ := hc
  obtain ⟨h', hpos', hh', t', a', hc', hd'⟩ := hc'
  have hraised : Mutual True (· = ·)
      (Column.select (List.replicate n keep) (constant t a h) (constant t' a' h'))
      (Column.select (List.replicate n keep) (constant t a n) (constant t' a' n)) := by
    refine Raised.select ?_ hn ?_ (.constant t a hh) (.constant t' a' hh')
    · simp only [List.length_replicate, Column.length, constant]
      omega
    · exact Batch.broadcast_of_length (by simp [bools, Column.length])
  have hrows : Mutual True SameData (Column.select (List.replicate n keep) c c')
      (Column.select (List.replicate n keep) (constant t a n) (constant t' a' n)) :=
    mutual_trans (mutual_of_sameData (SameData.select _ hc hc')
      (SameData.select _ hc.symm hc'.symm)) (sameData_of_eq hraised)
  have hrow : Mutual True SameData (Column.select (List.replicate 1 keep) d d')
      (Column.select (List.replicate 1 keep) (constant t a 1) (constant t' a' 1)) :=
    mutual_of_sameData (SameData.select _ hd hd') (SameData.select _ hd.symm hd'.symm)
  have hkeep : TypedQuery.Taken 1 (List.replicate n 0) (List.replicate 1 keep)
      (List.replicate (List.replicate n 0).length keep) := .replicate keep
  rw [List.length_replicate] at hkeep
  refine (mutual_echo hrows hrow ?_ ?_).mono fun _ _ hecho => ⟨n, hn, .inl rfl, hecho⟩
  · exact Taken.select (fun _ hi => (List.mem_singleton.1 hi).symm ▸ hn) (.replicate keep)
      (constant_taken t a)
      (constant_taken t' a')
  · exact Taken.select (fun _ hi => lt_of_mem_firsts_one hi) hkeep (taken_constant t a)
      (taken_constant t' a')

/-- A condition without residues holds in all rows or in none, and so does its single row. -/
theorem asPredicate (h : Echoes n c d)
    (hc : ∀ cell ∈ c.cells, cell.boolContent = cell.isTrue)
    (hd : ∀ cell ∈ d.cells, cell.boolContent = cell.isTrue) :
    Mutual True (fun mask mask' => ∃ keep, mask.map Cell.boolContent = List.replicate n keep
        ∧ mask'.map Cell.boolContent = List.replicate 1 keep)
      (c.asPredicate n) (d.asPredicate 1) := by
  obtain ⟨h, hpos, hh, t, a, hsame, hsame'⟩ := h
  obtain ⟨raised, hraised, hdata⟩ := hsame.symm.broadcast n _ (Raised.constant t a hh)
  have hcells : ∀ cell ∈ raised.cells, cell.boolContent = cell.isTrue := by
    rcases Raised.cases hraised with ⟨-, rfl⟩ | ⟨-, b, hb, rfl⟩
    · exact hc
    · exact fun cell hcell =>
        List.eq_of_mem_replicate hcell ▸ hc b (hb ▸ List.mem_singleton_self b)
  have hmask : raised.cells.map Cell.boolContent = List.replicate n a.isTrue := by
    rw [List.map_congr_left hcells, ← hdata.views Cell.isTrue_bare]
    exact List.map_replicate
  have hmask' : d.cells.map Cell.boolContent = List.replicate 1 a.isTrue := by
    rw [List.map_congr_left hd, hsame'.views Cell.isTrue_bare]
    rfl
  have htype : raised.type = d.type := hdata.1.symm.trans hsame'.1.symm
  simp only [Column.asPredicate, hraised,
    Batch.broadcast_of_length (show d.length = 1 from hsame'.length_eq)]
  refine .bind (R := fun raised' d' => raised' = raised ∧ d' = d) (.ok ⟨rfl, rfl⟩)
    fun _ _ _ _ hsame => ?_
  rw [hsame.1, hsame.2, htype]
  split
  · exact .ok ⟨_, hmask, hmask'⟩
  · exact .error _ _

/-! ## Several columns -/

theorem forall_echo (h : List.Forall₂ (Echoes n) cs ds) {m : Nat}
    (hm : ∀ c ∈ cs, c.length = m) :
    List.Forall₂ (Echo m) cs ds := by
  induction h with
  | nil => exact .nil
  | cons hc _ ih =>
      obtain ⟨hlength, hrest⟩ := List.forall_mem_cons.1 hm
      obtain ⟨_, _, _, hecho⟩ := hc
      exact .cons (hecho.length.symm.trans hlength ▸ hecho) (ih hrest)

/-- Only columns of one height are compared for the best one. -/
theorem horizontal (op : Comparison) (h : List.Forall₂ (Echoes n) cs ds) :
    Mutual (∀ c ∈ cs, ∀ c' ∈ cs, c.length = c'.length) (Echoes n) (Column.horizontal op cs)
      (Column.horizontal op ds) := by
  have hlevel (hlevel : ∀ c ∈ cs, ∀ c' ∈ cs, c.length = c'.length) :
      Mutual True (Echoes n) (Column.horizontal op cs) (Column.horizontal op ds) := by
    cases h with
    | nil => exact .error _ _
    | @cons c d cs ds hc hrest =>
        have hall := forall_echo (.cons hc hrest) fun c' hc' =>
          hlevel c' hc' c List.mem_cons_self
        obtain ⟨h, hpos, hh, hecho⟩ := hc
        rw [hecho.length] at hall
        refine (Echo.throughAll hpos hall (SameData.horizontal op) fun hr _ =>
          Taken.horizontal hr op).mono ?_
        exact fun _ _ hecho => ⟨h, hpos, hh, hecho⟩
  constructor
  · intro out hout
    obtain ⟨-, hlengths⟩ := length_horizontal op cs out hout
    exact (hlevel fun c hc c' hc' => (hlengths c hc).trans (hlengths c' hc').symm).1 out hout
  · exact fun h => (hlevel h).2 trivial

/-- The greatest of the heights that there are is one of them. -/
theorem foldl_max_heights {hs : List Nat} (h : ∀ h ∈ hs, 0 < h ∧ (h = n ∨ h = 1)) {m : Nat}
    (hm : 0 < m ∧ (m = n ∨ m = 1)) :
    0 < hs.foldl max m ∧ (hs.foldl max m = n ∨ hs.foldl max m = 1)
      ∧ (m = hs.foldl max m ∨ m = 1)
      ∧ ∀ h ∈ hs, h = hs.foldl max m ∨ h = 1 := by
  induction hs generalizing m with
  | nil => exact ⟨hm.1, hm.2, .inl rfl, nofun⟩
  | cons h' rest ih =>
      obtain ⟨hh, hrest⟩ := List.forall_mem_cons.1 h
      obtain ⟨hpos, hmax, hstart, hall⟩ := ih hrest (m := max m h') (by omega)
      rw [List.foldl_cons]
      refine ⟨hpos, hmax, by omega, List.forall_mem_cons.2 ⟨by omega, hall⟩⟩

theorem broadcastAll (h : List.Forall₂ (Echoes n) cs ds) {m : Nat}
    (hm : ∀ c ∈ cs, c.length = m ∨ c.length = 1) :
    ∃ raised, Column.broadcastAll m cs = .ok raised ∧ List.Forall₂ (Echo m) raised ds := by
  induction h with
  | nil => exact ⟨[], rfl, .nil⟩
  | @cons c d cs ds hc _ ih =>
      obtain ⟨hlength, hrest⟩ := List.forall_mem_cons.1 hm
      obtain ⟨raised, hraised, hall⟩ := ih hrest
      obtain ⟨h, -, -, hecho⟩ := hc
      rw [hecho.length] at hlength
      obtain ⟨t, a, hsame, hsame'⟩ := hecho
      obtain ⟨first, hfirst, hdata⟩ := hsame.symm.broadcast m _ (Raised.constant t a hlength)
      exact ⟨first :: raised,
        bind_eq_ok.2 ⟨first, hfirst, bind_eq_ok.2 ⟨raised, hraised, rfl⟩⟩,
        .cons ⟨t, a, hdata.symm, hsame'⟩ hall⟩

/-- Without arguments there would be no row at all. -/
theorem call (f : Function) (hne : cs ≠ []) (h : List.Forall₂ (Echoes n) cs ds) :
    Mutual True (Echoes n) (Column.align cs >>= f.apply) (Column.align ds >>= f.apply) := by
  have hheights : ∀ h ∈ cs.map Column.length, 0 < h ∧ (h = n ∨ h = 1) := by
    refine List.forall_mem_map.2 fun c hc => ?_
    obtain ⟨d, -, h, hpos, hh, hecho⟩ := exists_of_forall₂_right h.flip hc
    exact hecho.length ▸ ⟨hpos, hh⟩
  have halign : Column.align ds = .ok ds := by
    refine Taken.align_of_length (m := 1) fun d hd => ?_
    obtain ⟨c, -, hecho⟩ := exists_of_forall₂_right h hd
    exact hecho.length_one
  obtain ⟨m, hpos, hm, hraised⟩ : ∃ m, 0 < m ∧ (m = n ∨ m = 1)
      ∧ ∃ raised, Column.align cs = .ok raised ∧ List.Forall₂ (Echo m) raised ds := by
    cases cs with
    | nil => exact absurd rfl hne
    | cons c rest =>
        obtain ⟨hc, hrest⟩ := List.forall_mem_cons.1 hheights
        obtain ⟨hpos, hm, hfirst, hothers⟩ := foldl_max_heights hrest hc
        rw [Column.align, List.map_cons, List.foldl_cons, Nat.zero_max]
        exact ⟨_, hpos, hm, broadcastAll h
          (List.forall_mem_cons.2 ⟨hfirst, fun c hc => hothers _ (List.mem_map_of_mem hc)⟩)⟩
  obtain ⟨raised, hraised, hall⟩ := hraised
  rw [hraised, halign]
  have hraised : raised ≠ [] := fun hnil =>
    hne (List.length_eq_zero_iff.1 (by rw [h.length_eq, ← hall.length_eq, hnil]; rfl))
  refine (Echo.throughAll hpos hall (Function.apply_sameData f) fun hr hlength =>
    Function.apply_taken hr f ?_).mono
    fun _ _ hecho => ⟨m, hpos, hm, hecho⟩
  exact fun hnil =>
    hraised (List.length_eq_zero_iff.1 (hlength.symm.trans (congrArg List.length hnil)))

/-- A constant is repeated over the batch. -/
theorem literal (hn : 0 < n) (v : Value) (t : DataType) :
    Mutual True (Echoes n) (Literal.column v t n) (Literal.column v t 1) := by
  have hsame (x : Except Error Column) : Mutual True SameData x x :=
    mutual_of_sameData (fun c hc => ⟨c, hc, .refl c⟩) fun c hc => ⟨c, hc, .refl c⟩
  have hup := Literal.column_taken
    (fun i (hi : i ∈ List.replicate n 0) => lt_of_mem_firsts_one hi) v t
  rw [List.length_replicate] at hup
  refine (mutual_echo (hsame _) (hsame _) ?_ hup).mono fun _ _ hecho =>
    ⟨n, hn, .inl rfl, hecho⟩
  have hdown : ∀ i ∈ [0], i < n := fun _ hi => (List.mem_singleton.1 hi).symm ▸ hn
  exact Literal.column_taken hdown v t

end Echoes

end Column

end TypedQuery
