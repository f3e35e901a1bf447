import TypedQuery.Proofs.Columnar.Counts
import TypedQuery.Proofs.Columnar.Functions
import TypedQuery.Proofs.Time.Periods

/-!
# Truncated columns

A truncation takes every instant back to the last start of its unit. The count that stands
for the instant is multiplied out to nanoseconds, the start is looked up on the calendar or
the clock, and it is counted again in the same ticks, of which it is always a whole number.

The instants that a column can hold are those between two bounds: timestamps as far as
nanoseconds go in 64 bits, dates as far as the calendar goes. A start that is before the
lower bound becomes null, or, if it is before the first year of the calendar, fails the
whole column. Everything else that is said of truncations follows from the start being
the greatest of its kind.
-/

namespace TypedQuery

open Calendar (Period nanosPerDay daysInRange)

variable {p q : Period} {n : Int}

/-! ## Instants -/

namespace Instant

theorem days_ofNanos (n : Int) : (ofNanos n).days = n / nanosPerDay :=
  (Int.ediv_ediv_of_nonneg (by decide)).trans rfl

theorem ofDays_eq (days : Int) : ofDays days = ofNanos (days * nanosPerDay) := by
  simp only [ofDays, ofNanos, nanosPerSecond, secondsPerDay, nanosPerDay, Instant.mk.injEq]
  omega

theorem daysInRange_iff {days : Int} :
    daysInRange days = true ↔ -96465292 ≤ days ∧ days ≤ 95026236 := by
  have hleast : (Calendar.Date.mk Calendar.leastYear 1 1).toDays = -96465292 := by decide
  have hgreatest : (Calendar.Date.mk Calendar.greatestYear 12 31).toDays
    = 95026236 := by decide
  rw [daysInRange, hleast, hgreatest, Bool.and_eq_true, decide_eq_true_eq, decide_eq_true_eq]

end Instant

namespace Column

/-! ## Starts -/

/-- Units of a day and longer ones start on a day. -/
theorem truncated?_of_day (hp : p = .day ∨ .day ∈ p.parts) (t : Instant) :
    truncated? p.code t = some (startOf (p.firstDay t.days)) := by
  obtain ⟨⟨hpos, hle, -, -⟩, -⟩ := Calendar.Date.ofDays_spec t.days
  have hmonth (m : Nat) (hpos : 1 ≤ m) (hle : m ≤ 12) :
      (Calendar.Date.mk t.date.year m 1).toDays
          = Calendar.firstOfMonth (t.date.year * 12 + (m - 1)) :=
    (Calendar.firstOfMonth_eq _ hpos hle).symm
  change 1 ≤ t.date.month at hpos
  change t.date.month ≤ 12 at hle
  have hof : Calendar.monthOfDay t.days = t.date.year * 12 + (t.date.month - 1) := rfl
  cases p with
  | year =>
      show some (startOf _) = _
      rw [hmonth 1 (by decide) (by decide), Period.firstDay, hof]
      congr 3
      omega
  | quarter =>
      show some (startOf _) = _
      rw [hmonth _ (by omega) (by omega), Period.firstDay, hof]
      congr 3
      omega
  | month =>
      show some (startOf _) = _
      rw [hmonth _ hpos hle, Period.firstDay, hof]
  | week =>
      show some (startOf (t.days - (Calendar.weekday t.days : Int))) = _
      rw [Calendar.weekday, Int.toNat_of_nonneg (by omega)]
      rfl
  | day => rfl
  | _ => exact absurd hp (by decide)

/-- Shorter units start on the clock of the same day. -/
theorem truncated?_of_clock (hp : ¬ (p = .day ∨ .day ∈ p.parts)) (n : Int) :
    truncated? p.code (Instant.ofNanos n) = some (some (Instant.ofNanos (p.floor n))) := by
  cases p with
  | hour | minute | second | millisecond | microsecond =>
      refine congrArg (fun t => some (some t)) ?_
      simp only [Instant.atClock, Instant.ofNanos, Instant.hour, Instant.minute,
        Instant.nanosPerSecond, Instant.secondsPerDay, Period.floor, Instant.mk.injEq]
      omega
  | _ => exact absurd (by decide) hp

theorem floor_of_day (hp : p = .day ∨ .day ∈ p.parts) (n : Int) :
    p.floor n = p.firstDay (n / nanosPerDay) * nanosPerDay := by
  cases p with
  | year | quarter | month | week | day => rfl
  | _ => exact absurd hp (by decide)

theorem floor_of_clock (hp : ¬ (p = .day ∨ .day ∈ p.parts)) (n : Int) :
    p.floor n / nanosPerDay = n / nanosPerDay := by
  cases p with
  | hour | minute | second | millisecond | microsecond =>
      simp only [Period.floor, nanosPerDay]
      omega
  | _ => exact absurd (by decide) hp

/-- The start of the unit that an instant is in is found if the calendar has it. -/
theorem truncateInstant_eq_ok {s : Instant} (hn : daysInRange (n / nanosPerDay) = true) :
    truncateInstant p.code (Instant.ofNanos n) = .ok s
      ↔ s = Instant.ofNanos (p.floor n) ∧ daysInRange (p.floor n / nanosPerDay) = true := by
  unfold truncateInstant
  by_cases hp : p = .day ∨ .day ∈ p.parts
  · have hfloor := floor_of_day hp n
    have hdays : p.floor n / nanosPerDay = p.firstDay (n / nanosPerDay) := by
      rw [hfloor, Int.mul_ediv_cancel _ (by decide)]
    rw [truncated?_of_day hp, Instant.days_ofNanos, hdays, hfloor, startOf, instantOfDay,
      Instant.ofDays_eq]
    split
    · next ht =>
        split at ht
        · next hrange =>
            cases ht
            exact ⟨fun h => ⟨(Except.ok.inj h).symm, hrange⟩, fun h => congrArg _ h.1.symm⟩
        · cases ht
    · next ht =>
        split at ht
        · cases ht
        · next hrange => exact ⟨nofun, fun h => absurd h.2 hrange⟩
    · next ht => cases ht
  · rw [truncated?_of_clock hp, floor_of_clock hp]
    exact ⟨fun h => ⟨(Except.ok.inj h).symm, hn⟩, fun h => congrArg _ h.1.symm⟩

end Column

/-! ## Counts -/

/-- The nanoseconds that one count stands for, in the types of dates and timestamps. -/
def Physical.tick? : Physical → Option Int
  | .date => some nanosPerDay
  | .timestamp unit => some unit.nanos
  | _ => none

/-- Whether an instant can be held, given by its nanoseconds. -/
def Physical.holds (t : Physical) (n : Int) : Bool :=
  if t = .date then daysInRange (n / nanosPerDay) else Instant.fitsInt64 n

/-- What stands for an instant. -/
def Physical.counted (t : Physical) (tick n : Int) : Cell :=
  if t.holds n then .int (n / tick) else .null

namespace Physical

variable {t : Physical} {tick m k : Int}

theorem mem_ticks (ht : t.tick? = some tick) :
    tick ∈ [nanosPerDay, 1000000000, 1000000, 1000, 1] := by
  cases t <;> cases ht
  · decide
  · next unit => cases unit <;> decide

theorem tick_pos (ht : t.tick? = some tick) : 0 < tick := by
  have htick := mem_ticks ht
  simp only [List.mem_cons, List.not_mem_nil, or_false] at htick
  rcases htick with rfl | rfl | rfl | rfl | rfl <;> decide

theorem holds_date (n : Int) : date.holds n = daysInRange (n / nanosPerDay) := if_pos rfl

theorem holds_timestamp (unit : TimeUnit) (n : Int) :
    (timestamp unit).holds n = Instant.fitsInt64 n := if_neg nofun

theorem fitsInt64_days (h : Instant.fitsInt64 n = true) :
    daysInRange (n / nanosPerDay) = true := by
  rw [Instant.fitsInt64_iff] at h
  rw [Instant.daysInRange_iff, nanosPerDay]
  omega

theorem holds_of_fitsInt64 (t : Physical) (h : Instant.fitsInt64 n = true) :
    t.holds n = true := by
  unfold holds
  split
  · exact fitsInt64_days h
  · exact h

/-- What can be held lies on the calendar. -/
theorem daysInRange_of_holds (h : t.holds n = true) :
    daysInRange (n / nanosPerDay) = true := by
  unfold holds at h
  split at h
  · exact h
  · exact fitsInt64_days h

/-- What is between two instants that can be held can be held. -/
theorem holds_of_between (hm : t.holds m = true) (hn : t.holds n = true) (hle : m ≤ k)
    (hle' : k ≤ n) : t.holds k = true := by
  unfold holds at *
  split at hm
  · next ht =>
      rw [if_pos ht, Instant.daysInRange_iff, nanosPerDay] at *
      omega
  · next ht =>
      rw [if_neg ht, Instant.fitsInt64_iff] at *
      omega

end Physical

namespace Column

variable {t : Physical} {tick k : Int} {cell out : Cell} {c : Column}

/-- The instant that a cell stands for. -/
def instantAt (t : Physical) (cell : Cell) : Option Instant :=
  cell.int?.bind fun k => match t with
    | .timestamp unit => instantOfTicks unit k
    | _ => instantOfDay k

theorem instants_eq (ht : c.type.tick? = some tick) :
    c.instants = .ok (c.cells.map (instantAt c.type)) := by
  obtain ⟨type, cells⟩ := c
  change type.tick? = some tick at ht
  cases type <;> first | rfl | cases ht

theorem instantAt_int (ht : t.tick? = some tick) (k : Int) :
    instantAt t (.int k) = if t.holds (k * tick) then
      some (Instant.ofNanos (k * tick)) else none := by
  cases t <;> cases ht
  · show instantOfDay k = _
    rw [instantOfDay, Physical.holds_date, Int.mul_ediv_cancel _ (by decide),
      Instant.ofDays_eq]
  · rw [Physical.holds_timestamp]
    rfl

theorem instantCell_eq (ht : t.tick? = some tick) (hn : tick ∣ n)
    (hrange : daysInRange (n / nanosPerDay) = true) :
    instantCell t (Instant.ofNanos n) = t.counted tick n := by
  cases t <;> cases ht
  · rw [Physical.counted, Physical.holds_date, if_pos hrange, instantCell,
      Instant.days_ofNanos]
  · next unit =>
      rw [Physical.counted, Physical.holds_timestamp, instantCell, Instant.nanos?,
        Instant.exactNanos_ofNanos]
      split
      · obtain ⟨k, rfl⟩ := hn
        have hne : unit.nanos ≠ 0 := Int.ne_of_gt unit.nanos_pos
        show Cell.int ((unit.nanos * k).tdiv unit.nanos) = _
        rw [Int.mul_tdiv_cancel_left _ hne, Int.mul_ediv_cancel_left _ hne]
      · rfl

/-- What a truncation makes of a cell. -/
def Truncates (code : String) (t : Physical) (cell out : Cell) : Prop :=
  ∃ start : Option Instant,
    ((instantAt t cell).map fun i => (truncateInstant code i).map some).getD
    (.ok none) = .ok start
      ∧ out = (start.map (instantCell t)).getD .null

section

variable {code : String} (ht : c.type.tick? = some tick)

include ht

theorem truncate_eq : c.truncate code
    = (truncateAll code (c.cells.map (instantAt c.type)) >>= fun starts =>
      .ok (ofInstants c.type starts)) := by
  rw [truncate, instants_eq ht]
  rfl

theorem truncate_eq_ok {out : Column} :
    c.truncate code = .ok out
      ↔ out.type = c.type ∧ List.Forall₂ (Truncates code c.type) c.cells out.cells := by
  unfold Truncates
  rw [truncate_eq ht, bind_eq_ok, forall₂_comp_iff]
  constructor
  · rintro ⟨starts, hall, hout⟩
    cases hout
    rw [truncateAll_eq_mapM, mapM_eq_ok, List.forall₂_map_left_iff] at hall
    exact ⟨rfl, starts, hall,
      List.forall₂_map_right_iff.2 (List.forall₂_same.2 fun _ _ => rfl)⟩
  · rintro ⟨htype, starts, hall, hcells⟩
    refine ⟨starts, ?_, congrArg _ ?_⟩
    · rwa [truncateAll_eq_mapM, mapM_eq_ok, List.forall₂_map_left_iff]
    · have hmap : out.cells = starts.map fun start =>
          (start.map (instantCell c.type)).getD .null := by
        rw [← List.forall₂_eq_eq_eq, List.forall₂_map_right_iff]
        exact hcells.flip
      rw [ofInstants, ← hmap, ← htype]

/-- A column can be truncated if each of its cells can. -/
theorem exists_truncate (h : ∀ cell ∈ c.cells, ∃ out, Truncates code c.type cell out) :
    ∃ out, c.truncate code = .ok out := by
  obtain ⟨starts, hstarts⟩ : ∃ starts, (c.cells.map (instantAt c.type)).mapM
      (fun t => (t.map fun t => (truncateInstant code t).map some).getD (.ok none))
        = .ok starts := by
    refine mapM_isOk fun t hmem => ?_
    obtain ⟨cell, hcell, rfl⟩ := List.mem_map.1 hmem
    obtain ⟨_, start, hstart, -⟩ := h cell hcell
    exact ⟨start, hstart⟩
  rw [← truncateAll_eq_mapM] at hstarts
  exact ⟨_, by rw [truncate_eq ht, hstarts]; rfl⟩

end

namespace Truncates

theorem of_none {code : String} (h : instantAt t cell = none) :
    Truncates code t cell out ↔ out = .null := by
  rw [Truncates, h]
  constructor
  · rintro ⟨start, hstart, rfl⟩
    cases hstart
    rfl
  · rintro rfl
    exact ⟨none, rfl, rfl⟩

theorem null_iff {code : String} : Truncates code t .null out ↔ out = .null := of_none rfl

/-- A count goes back to the count of the last start, if the calendar has that. -/
theorem int_iff (ht : t.tick? = some tick) (hk : t.holds (k * tick) = true) :
    Truncates p.code t (.int k) out
      ↔ daysInRange (p.floor (k * tick) / nanosPerDay) = true
        ∧ out = t.counted tick (p.floor (k * tick)) := by
  have hdvd : tick ∣ p.floor (k * tick) :=
    Period.dvd_floor (Physical.mem_ticks ht) (Int.dvd_mul_left _ _)
  have hstart {s : Instant} :=
    truncateInstant_eq_ok (p := p) (s := s) (Physical.daysInRange_of_holds hk)
  rw [Truncates, instantAt_int ht, if_pos hk]
  constructor
  · rintro ⟨start, hmap, rfl⟩
    obtain ⟨s, hs, rfl⟩ := map_eq_ok.1 hmap
    obtain ⟨rfl, hrange⟩ := hstart.1 hs
    exact ⟨hrange, instantCell_eq ht hdvd hrange⟩
  · rintro ⟨hrange, rfl⟩
    refine ⟨some (Instant.ofNanos (p.floor (k * tick))),
      map_eq_ok.2 ⟨_, hstart.2 ⟨rfl, hrange⟩, rfl⟩, ?_⟩
    exact (instantCell_eq ht hdvd hrange).symm

/-- A cell is taken for an instant, or becomes null. -/
theorem cases_cell (ht : t.tick? = some tick) (cell : Cell) :
    instantAt t cell = none ∨ ∃ k, cell = .int k ∧ t.holds (k * tick) = true := by
  cases cell with
  | int k =>
      rw [instantAt_int ht]
      by_cases hk : t.holds (k * tick) = true
      · exact .inr ⟨k, rfl, hk⟩
      · exact .inl (if_neg hk)
  | _ => exact .inl rfl

/-- Going back to the start of a part first makes no difference. -/
theorem through_part (ht : t.tick? = some tick) (hq : q = p ∨ q ∈ p.parts)
    (h : Truncates p.code t cell out) :
    ∃ via, Truncates q.code t cell via ∧ Truncates p.code t via out := by
  rcases cases_cell ht cell with hnone | ⟨k, rfl, hk⟩
  · obtain rfl := (of_none hnone).1 h
    exact ⟨.null, (of_none hnone).2 rfl, null_iff.2 rfl⟩
  · obtain ⟨hrange, rfl⟩ := (int_iff ht hk).1 h
    generalize hn : k * tick = n at hrange
    have hle : p.floor n ≤ q.floor n := by
      rw [← Period.floor_floor hq n]
      exact p.floor_le _
    have hqrange : daysInRange (q.floor n / nanosPerDay) = true := by
      have hup := Physical.daysInRange_of_holds hk
      have hqle := q.floor_le n
      rw [hn] at hup
      exact Physical.holds_of_between (t := .date) hrange hup hle hqle
    refine ⟨t.counted tick (q.floor n), (int_iff ht hk).2 ⟨hn ▸ hqrange, by rw [hn]⟩, ?_⟩
    by_cases hvia : t.holds (q.floor n) = true
    · have hdvd : tick ∣ q.floor n :=
        Period.dvd_floor (Physical.mem_ticks ht) (hn ▸ Int.dvd_mul_left _ _)
      have hcount : q.floor n / tick * tick = q.floor n := Int.ediv_mul_cancel hdvd
      rw [Physical.counted, if_pos hvia, int_iff ht (by rwa [hcount]), hcount,
        Period.floor_floor hq]
      exact ⟨hrange, rfl⟩
    · rw [Physical.counted, if_neg hvia, null_iff, Physical.counted, if_neg fun hout => ?_]
      exact hvia (Physical.holds_of_between hout (hn ▸ hk) hle (q.floor_le n))

/-- What is counted after a truncation is the last start. -/
theorem count_eq (ht : t.tick? = some tick) {k' : Int}
    (h : Truncates p.code t (.int k) (.int k')) :
    k' * tick = p.floor (k * tick) := by
  rcases cases_cell ht (.int k) with hnone | ⟨_, hcell, hk⟩
  · cases (of_none hnone).1 h
  · cases hcell
    obtain ⟨-, hout⟩ := (int_iff ht hk).1 h
    unfold Physical.counted at hout
    split at hout
    · cases hout
      exact Int.ediv_mul_cancel
        (Period.dvd_floor (Physical.mem_ticks ht) (Int.dvd_mul_left _ _))
    · cases hout

theorem exists_count (ht : t.tick? = some tick) (h : Truncates p.code t (.int k) out)
    (hk : t.holds (k * tick) = true) (hstart : t.holds (p.floor (k * tick)) = true) :
    ∃ k', out = .int k' := by
  obtain ⟨-, hout⟩ := (int_iff ht hk).1 h
  rw [Physical.counted, if_pos hstart] at hout
  exact ⟨_, hout⟩

/-- Some start of every kind is before the time that 64 bits reach, and long
after the calendar begins. -/
theorem exists_early_start (p : Period) :
    ∃ s, p.Starts s ∧ -200000 * nanosPerDay ≤ s ∧ s ≤ -2 ^ 63 := by
  have hfirst : Calendar.midnight ⟨1600, 1, 1⟩ = -135140 * nanosPerDay := by decide +kernel
  refine ⟨(if p = .week then -139996 else -135140) * nanosPerDay, ?_, by cases p <;> decide,
    by cases p <;> decide⟩
  cases p with
  | year => exact ⟨1600, hfirst.symm⟩
  | quarter => exact ⟨1600, 1, by decide, hfirst.symm⟩
  | month => exact ⟨1600, 1, by decide, by decide, hfirst.symm⟩
  | week => exact ⟨-20000, by decide⟩
  | _ => exact Int.dvd_trans (by decide) (Int.dvd_mul_left _ nanosPerDay)

/-- What 64 bits hold can be truncated. -/
theorem exists_of_fits (ht : t.tick? = some tick)
    (h : ∀ k, cell = .int k → Instant.fitsInt64 (k * tick) = true) :
    ∃ out, Truncates p.code t cell out := by
  rcases cases_cell ht cell with hnone | ⟨k, rfl, hk⟩
  · exact ⟨.null, (of_none hnone).2 rfl⟩
  · obtain ⟨s, hs, hlow, hhigh⟩ := exists_early_start p
    have hfits := Instant.fitsInt64_iff.1 (h k rfl)
    have hle := Period.le_floor hs (Int.le_trans hhigh hfits.1)
    have hle' := p.floor_le (k * tick)
    refine ⟨_, (int_iff ht hk).2 ⟨?_, rfl⟩⟩
    generalize p.floor (k * tick) = n at hle hle' ⊢
    rw [Instant.daysInRange_iff]
    unfold nanosPerDay at *
    omega

end Truncates

/-! ## Columns -/

section

variable {out : Column}

/-- Counts of so many nanoseconds each go back to those of the last starts,
wherever 64 bits have room for the nanoseconds. No count becomes greater, and no
two change their order. -/
structure TruncatedTo (p : Period) (tick : Int) (c out : Column) : Prop where
  type_eq : out.type = c.type
  length_eq : out.length = c.length
  null : ∀ i, (c.row i).isNull = true → (out.row i).isNull = true
  last_start : ∀ i k, c.row i = .int k → Instant.fitsInt64 (k * tick) = true →
    ∃ s, IsGreatest (p.startsUpTo (k * tick)) s
      ∧ (Instant.fitsInt64 s = true → ∃ k', out.row i = .int k' ∧ k' * tick = s)
  le : ∀ i k k', c.row i = .int k → out.row i = .int k' → k' ≤ k
  mono : ∀ i j k l k' l', c.row i = .int k → c.row j = .int l → out.row i = .int k' →
    out.row j = .int l' → k ≤ l → k' ≤ l'

theorem truncatedTo (ht : c.type.tick? = some tick) (h : c.truncate p.code = .ok out) :
    c.TruncatedTo p tick out := by
  obtain ⟨htype, hall⟩ := (truncate_eq_ok ht).1 h
  have hrow := row_of_forall₂ hall (Truncates.null_iff.2 rfl)
  have htick := Physical.tick_pos ht
  have hcount {i : Nat} {k k' : Int} (hi : c.row i = .int k) (hi' : out.row i = .int k') :
      k' * tick = p.floor (k * tick) :=
    Truncates.count_eq ht (hi' ▸ hi ▸ hrow i)
  refine ⟨htype, hall.length_eq.symm, fun i hnull => ?_, fun i k hi hfits => ?_,
    fun i k k' hi hi' => ?_, fun i j k l k' l' hi hj hi' hj' hle => ?_⟩
  · have hnone : instantAt c.type (c.row i) = none := by
      cases hcell : c.row i with
      | missing => rfl
      | _ => rw [hcell] at hnull; cases hnull
    rw [(Truncates.of_none hnone).1 (hrow i)]
    rfl
  · refine ⟨_, p.isGreatest_floor _, fun hstart => ?_⟩
    obtain ⟨k', hk'⟩ :=
      Truncates.exists_count ht (hi ▸ hrow i) (Physical.holds_of_fitsInt64 _ hfits)
      (Physical.holds_of_fitsInt64 _ hstart)
    exact ⟨k', hk', hcount hi hk'⟩
  · refine Int.le_of_mul_le_mul_right ?_ htick
    rw [hcount hi hi']
    exact p.floor_le _
  · refine Int.le_of_mul_le_mul_right ?_ htick
    rw [hcount hi hi', hcount hj hj']
    exact Period.floor_mono (Int.mul_le_mul_of_nonneg_right hle (Int.le_of_lt htick))

/-- Truncating to the unit, or to one that it consists of, and then to the unit gives what
truncating to the unit gives. -/
theorem truncate_truncate (ht : c.type.tick? = some tick) (hq : q = p ∨ q ∈ p.parts)
    (h : c.truncate p.code = .ok out) :
    ∃ via, c.truncate q.code = .ok via ∧ via.truncate p.code = .ok out := by
  obtain ⟨htype, hall⟩ := (truncate_eq_ok ht).1 h
  obtain ⟨via, hvia, hlast⟩ :=
    forall₂_comp_iff.1 (hall.imp fun cell cell' => Truncates.through_part ht hq)
  exact ⟨⟨c.type, via⟩, (truncate_eq_ok ht).2 ⟨rfl, hvia⟩,
    (truncate_eq_ok (c := ⟨c.type, via⟩) ht).2 ⟨htype, hlast⟩⟩

end

end Column

end TypedQuery
