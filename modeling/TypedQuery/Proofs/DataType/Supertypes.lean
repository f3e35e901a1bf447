import Mathlib.Data.List.Basic
import TypedQuery.DataType.Basic

/-!
# Common supertypes are least upper bounds

Types that are neither null nor arrays stand in chains: the numbers, the days with the
timestamps from coarse to fine, and every other type by itself. Of two types of one chain
the common supertype is the one that ranks higher, and types of different chains have none.
Arrays follow their elements, and null is below everything. So `commonSupertype` is
commutative and associative wherever it is defined, and what it gives is the least type
that both sides widen to.
-/

namespace TypedQuery.DataType

/-! ## Chains -/

/-- The highest type of the chain that a type stands in. -/
def chain : DataType → DataType
  | int32 | int64 | float64 => float64
  | date | timestamp _ => timestamp .nanosecond
  | t => t

/-- How high a type stands in its chain. -/
def rank : DataType → Nat
  | int64 | timestamp .second => 1
  | float64 | timestamp .millisecond => 2
  | timestamp .microsecond => 3
  | timestamp .nanosecond => 4
  | _ => 0

/-- Neither null nor an array. -/
def isPlain (t : DataType) : Bool := !t.isNull && !t.isArray

variable {a b c s t u : DataType}

@[simp] theorem null_commonSupertype (t : DataType) : null.commonSupertype t = some t := by
  cases t <;> rfl

@[simp] theorem commonSupertype_null (t : DataType) : t.commonSupertype null = some t := by
  cases t <;> rfl

theorem commonSupertype_array (a b : DataType) :
    (array a).commonSupertype (array b) = (a.commonSupertype b).map array := rfl

theorem commonSupertype_of_isPlain (ha : a.isPlain = true) (hb : b.isPlain = true) :
    a.commonSupertype b = if a.chain = b.chain then
      some (if a.rank ≤ b.rank then b else a) else none := by
  cases a with
  | timestamp u =>
      cases b with
      | timestamp v => cases u <;> cases v <;> rfl
      | date => cases u <;> rfl
      | null | array => cases hb
      | _ => rfl
  | interval u =>
      cases b with
      | interval v => cases u <;> cases v <;> rfl
      | null | array => cases hb
      | _ => rfl
  | null | array => cases ha
  | _ => cases b <;> first | rfl | cases hb

theorem plain_commonSupertype_array (ha : a.isPlain = true) :
    a.commonSupertype (array b) = none := by
  cases a <;> first | rfl | cases ha

theorem array_commonSupertype_plain (hb : b.isPlain = true) :
    (array a).commonSupertype b = none := by
  cases b <;> first | rfl | cases hb

/-- A type is null, an array, or plain. -/
theorem plain_cases (t : DataType) :
    t = null ∨ (∃ element, t = array element) ∨ t.isPlain = true := by
  cases t with
  | null => exact .inl rfl
  | array element => exact .inr (.inl ⟨element, rfl⟩)
  | _ => exact .inr (.inr rfl)

/-! ## Laws -/

theorem eq_of_rank_eq (ha : a.isPlain = true) (hb : b.isPlain = true)
    (hchain : a.chain = b.chain) (hrank : a.rank = b.rank) : a = b := by
  cases a with
  | timestamp u =>
      cases b with
      | timestamp v => cases u <;> cases v <;> first | rfl | cases hrank
      | date => cases u <;> cases hrank
      | _ => cases hchain
  | date =>
      cases b with
      | timestamp v => cases v <;> cases hrank
      | _ => first | rfl | cases hchain
  | null | array => cases ha
  | int32 | int64 | float64 =>
      cases b with
      | int32 | int64 | float64 => first | rfl | cases hrank
      | _ => cases hchain
  | _ => cases b <;> first | exact hchain | cases hchain

/-- The type of the higher rank. -/
def higher (a b : DataType) : DataType := if a.rank ≤ b.rank then b else a

theorem higher_comm (ha : a.isPlain = true) (hb : b.isPlain = true)
    (hchain : a.chain = b.chain) :
    a.higher b = b.higher a := by
  unfold higher
  split <;> split
  · next hab hba => exact (eq_of_rank_eq ha hb hchain (by omega)).symm
  · rfl
  · rfl
  · omega

theorem higher_assoc (a b c : DataType) : (a.higher b).higher c = a.higher (b.higher c) := by
  unfold higher
  repeat' split
  all_goals first | rfl | omega

theorem higher_isPlain (ha : a.isPlain = true) (hb : b.isPlain = true) :
    (a.higher b).isPlain = true := by
  unfold higher
  split
  · exact hb
  · exact ha

theorem chain_higher (h : a.chain = b.chain) : (a.higher b).chain = b.chain := by
  unfold higher
  split
  · rfl
  · exact h

theorem commonSupertype_comm (a b : DataType) :
    a.commonSupertype b = b.commonSupertype a := by
  have hplain {a b : DataType} (ha : a.isPlain = true) : a.commonSupertype b
      = b.commonSupertype a := by
    rcases plain_cases b with rfl | ⟨b, rfl⟩ | hb
    · simp
    · rw [array_commonSupertype_plain ha, plain_commonSupertype_array ha]
    · rw [commonSupertype_of_isPlain ha hb, commonSupertype_of_isPlain hb ha]
      by_cases hchain : a.chain = b.chain
      · rw [if_pos hchain, if_pos hchain.symm]
        exact congrArg some (higher_comm ha hb hchain)
      · rw [if_neg hchain, if_neg (Ne.symm hchain)]
  induction a generalizing b with
  | null => simp
  | array a ih =>
      rcases plain_cases b with rfl | ⟨b, rfl⟩ | hb
      · simp
      · rw [commonSupertype_array, commonSupertype_array, ih]
      · exact (hplain hb).symm
  | _ => exact hplain rfl

theorem commonSupertype_assoc_of_isPlain (ha : a.isPlain = true) (hb : b.isPlain = true)
    (hc : c.isPlain = true) :
    (a.commonSupertype b).bind (·.commonSupertype c)
      = (b.commonSupertype c).bind a.commonSupertype := by
  have hab := higher_isPlain ha hb
  have hbc := higher_isPlain hb hc
  rw [commonSupertype_of_isPlain ha hb, commonSupertype_of_isPlain hb hc]
  by_cases h : a.chain = b.chain <;> by_cases h' : b.chain = c.chain
  · rw [if_pos h, if_pos h', Option.bind_some, Option.bind_some, ← higher, ← higher,
      commonSupertype_of_isPlain hab hc, commonSupertype_of_isPlain ha hbc,
      if_pos ((chain_higher h).trans h'), if_pos (h.trans (h'.trans (chain_higher h').symm))]
    exact congrArg some (higher_assoc a b c)
  · rw [if_pos h, if_neg h', Option.bind_some, ← higher, commonSupertype_of_isPlain hab hc,
      if_neg (fun hc => h' ((chain_higher h).symm.trans hc)), Option.bind_none]
  · rw [if_neg h, if_pos h', Option.bind_some, ← higher, commonSupertype_of_isPlain ha hbc,
      if_neg (fun hc => h (hc.trans ((chain_higher h').trans h'.symm))), Option.bind_none]
  · rw [if_neg h, if_neg h', Option.bind_none, Option.bind_none]

theorem isPlain_of_commonSupertype (ha : a.isPlain = true)
    (h : a.commonSupertype b = some s) : s.isPlain = true := by
  rcases plain_cases b with rfl | ⟨b, rfl⟩ | hb
  · simp only [commonSupertype_null, Option.some.injEq] at h
    exact h ▸ ha
  · rw [plain_commonSupertype_array ha] at h
    cases h
  · rw [commonSupertype_of_isPlain ha hb] at h
    split at h
    · cases h
      exact higher_isPlain ha hb
    · cases h

theorem commonSupertype_assoc (a b c : DataType) :
    (a.commonSupertype b).bind (·.commonSupertype c)
      = (b.commonSupertype c).bind a.commonSupertype := by
  -- Where arrays and plain types mix, neither side is defined.
  induction a generalizing b c with
  | null =>
      rw [null_commonSupertype, Option.bind_some, funext null_commonSupertype,
        Option.bind_fun_some]
  | array a ih =>
      rcases plain_cases b with rfl | ⟨b, rfl⟩ | hb
      · simp
      · rcases plain_cases c with rfl | ⟨c, rfl⟩ | hc
        · simp
        · have h := congrArg (Option.map array) (ih b c)
          simpa [commonSupertype_array, Option.map_bind, Option.bind_map,
            Function.comp_def] using h
        · rw [array_commonSupertype_plain hc, commonSupertype_array]
          cases a.commonSupertype b <;> simp [array_commonSupertype_plain hc]
      · rw [array_commonSupertype_plain hb, Option.bind_none]
        cases h : b.commonSupertype c with
        | none => rfl
        | some s =>
            exact (array_commonSupertype_plain (isPlain_of_commonSupertype hb h)).symm
  | _ =>
      rcases plain_cases b with rfl | ⟨b, rfl⟩ | hb
      · simp
      · rw [plain_commonSupertype_array rfl, Option.bind_none]
        rcases plain_cases c with rfl | ⟨c, rfl⟩ | hc
        · rw [commonSupertype_null, Option.bind_some, plain_commonSupertype_array rfl]
        · rw [commonSupertype_array]
          cases b.commonSupertype c with
          | none => rfl
          | some s => exact (plain_commonSupertype_array rfl).symm
        · rw [array_commonSupertype_plain hc, Option.bind_none]
      · rcases plain_cases c with rfl | ⟨c, rfl⟩ | hc
        · rw [commonSupertype_null, Option.bind_some, funext commonSupertype_null,
            Option.bind_fun_some]
        · rw [plain_commonSupertype_array hb, Option.bind_none]
          cases h : DataType.commonSupertype _ b with
          | none => rfl
          | some s => exact plain_commonSupertype_array (isPlain_of_commonSupertype rfl h)
        · exact commonSupertype_assoc_of_isPlain rfl hb hc

/-! ## The order -/

/-- The one type is a supertype of the other. -/
def Widens (a b : DataType) : Prop := a.commonSupertype b = some b

theorem Widens.refl (t : DataType) : t.Widens t := commonSupertype_self t

theorem Widens.trans (hab : a.Widens b) (hbc : b.Widens c) : a.Widens c := by
  have h := commonSupertype_assoc a b c
  rw [hab, hbc] at h
  exact h.symm.trans hbc

theorem widens_left (h : a.commonSupertype b = some s) : a.Widens s := by
  have hassoc := commonSupertype_assoc a a b
  rw [commonSupertype_self, h] at hassoc
  exact hassoc.symm.trans h

theorem widens_right (h : a.commonSupertype b = some s) : b.Widens s :=
  widens_left ((commonSupertype_comm b a).trans h)

/-- Two types that widen to a third have a common supertype, and it widens to that one too.
-/
theorem commonSupertype_of_widens (ha : a.Widens u) (hb : b.Widens u) :
    ∃ s, a.commonSupertype b = some s ∧ s.Widens u := by
  have h := commonSupertype_assoc a b u
  rw [hb, Option.bind_some, ha] at h
  exact Option.bind_eq_some_iff.1 h

/-! ## Several types -/

theorem foldlM_commonSupertype (t : DataType) (ts : List DataType) :
    ts.foldlM commonSupertype t = (highestPrecedence ts).bind t.commonSupertype := by
  induction ts generalizing t with
  | nil => simp [highestPrecedence]
  | cons u rest ih =>
      have hu : highestPrecedence (u :: rest)
          = (highestPrecedence rest).bind u.commonSupertype := by
        rw [highestPrecedence, List.foldlM_cons, null_commonSupertype]
        exact ih u
      rw [hu, List.foldlM_cons, Option.bind_assoc]
      show (t.commonSupertype u).bind _ = _
      cases h : highestPrecedence rest with
      | none => simp [ih, h]
      | some s =>
          rw [Option.bind_some, ← commonSupertype_assoc]
          exact congrArg _ (funext fun v => by rw [ih v, h, Option.bind_some])

/-- The first type against the common supertype of the others. -/
theorem highestPrecedence_cons (t : DataType) (ts : List DataType) :
    highestPrecedence (t :: ts) = (highestPrecedence ts).bind t.commonSupertype := by
  rw [highestPrecedence, List.foldlM_cons, null_commonSupertype]
  exact foldlM_commonSupertype t ts

theorem highestPrecedence_append (ts us : List DataType) :
    highestPrecedence (ts ++ us) = (highestPrecedence ts).bind fun t =>
      (highestPrecedence us).bind t.commonSupertype := by
  rw [highestPrecedence, List.foldlM_append]
  exact congrArg _ (funext fun t => foldlM_commonSupertype t us)

theorem highestPrecedence_pair (a b : DataType) :
    highestPrecedence [a, b] = a.commonSupertype b := by
  rw [highestPrecedence_cons, highestPrecedence_cons]
  simp [highestPrecedence]

theorem widens_highestPrecedence {ts : List DataType}
    (h : highestPrecedence ts = some s) (ht : t ∈ ts) :
    t.Widens s := by
  induction ts generalizing s with
  | nil => cases ht
  | cons u rest ih =>
      rw [highestPrecedence_cons] at h
      obtain ⟨v, hv, h⟩ := Option.bind_eq_some_iff.1 h
      rcases List.mem_cons.1 ht with rfl | ht
      · exact widens_left h
      · exact (ih hv ht).trans (widens_right h)

/-- A type that is there already makes no difference. -/
theorem highestPrecedence_cons_of_mem {ts : List DataType} (ht : t ∈ ts) :
    highestPrecedence (t :: ts) = highestPrecedence ts := by
  rw [highestPrecedence_cons]
  cases h : highestPrecedence ts with
  | none => rfl
  | some s => exact widens_highestPrecedence h ht

end TypedQuery.DataType

/-!
## Coercion against common supertypes

A type that may stand for another has it as their common supertype. The converse holds as
well but for timestamps: of two units the common supertype is the finer, while no timestamp
may stand for one of another unit. So all that is to be known of a type beside what it
widens to is the unit of the timestamps in it.
-/

namespace TypedQuery.DataType

variable {a b c s t : DataType} {u w : TimeUnit}

/-- The unit of a timestamp, or of the timestamps in an array. -/
def unit? : DataType → Option TimeUnit
  | timestamp u => some u
  | array element => element.unit?
  | _ => none

theorem canCoerceTo_trans (hab : a.canCoerceTo b = true) (hbc : b.canCoerceTo c = true) :
    a.canCoerceTo c = true := by
  induction a generalizing b c with
  | array a ih =>
      cases b with
      | array b =>
          cases c with
          | array c => exact ih hab hbc
          | _ => cases hbc
      | _ => cases hab
  | null => rfl
  | _ => cases b <;> cases c <;> simp_all [canCoerceTo]

/-- What may stand for another type widens to it. -/
theorem widens_of_canCoerceTo (h : a.canCoerceTo b = true) : a.Widens b := by
  induction a generalizing b with
  | array a ih =>
      cases b with
      | array b => rw [Widens, commonSupertype_array, ih h]; rfl
      | _ => cases h
  | null => exact null_commonSupertype b
  | _ =>
      cases b <;> first
        | rfl
        | (simp only [canCoerceTo, beq_iff_eq] at h
           rw [h]
           exact Widens.refl _)

/-- What widens to another type may stand for it if all timestamps in them have the same
unit. -/
theorem canCoerceTo_of_widens (h : a.Widens b)
    (hunit : ∀ u w, a.unit? = some u → b.unit? = some w → u = w) :
    a.canCoerceTo b = true := by
  induction a generalizing b with
  | array a ih =>
      cases b with
      | array b =>
          rw [Widens, commonSupertype_array] at h
          obtain ⟨s, hs, heq⟩ := Option.map_eq_some_iff.1 h
          cases heq
          exact ih hs hunit
      | _ => cases h
  | null => rfl
  | timestamp u =>
      cases b with
      | timestamp w =>
          cases hunit u w rfl rfl
          exact canCoerceTo_refl _
      | _ => cases h
  | interval u =>
      cases b with
      | interval w =>
          rw [Widens, commonSupertype_of_isPlain rfl rfl] at h
          split at h
          · next heq => rw [show interval u = interval w from heq]; exact canCoerceTo_refl _
          · cases h
      | _ => cases h
  | _ => cases b <;> first | rfl | cases h

/-! ### Several types -/

theorem exists_highestPrecedence {ts : List DataType} (h : ∀ t ∈ ts, t.Widens s) :
    ∃ t, highestPrecedence ts = some t ∧ t.Widens s := by
  induction ts with
  | nil => exact ⟨null, rfl, null_commonSupertype s⟩
  | cons t rest ih =>
      obtain ⟨ht, hrest⟩ := List.forall_mem_cons.1 h
      obtain ⟨u, hu, hus⟩ := ih hrest
      rw [highestPrecedence_cons, hu]
      exact commonSupertype_of_widens ht hus

/-- Beside arrays, a common supertype is one of the two. -/
theorem eq_or_eq_of_commonSupertype (ha : a.isPlain = true)
    (h : a.commonSupertype b = some s) : s = a ∨ s = b := by
  rcases plain_cases b with rfl | ⟨b, rfl⟩ | hb
  · rw [commonSupertype_null] at h
    exact .inl (Option.some.inj h).symm
  · rw [plain_commonSupertype_array ha] at h
    cases h
  · rw [commonSupertype_of_isPlain ha hb] at h
    split at h
    · split at h
      · exact .inr (Option.some.inj h).symm
      · exact .inl (Option.some.inj h).symm
    · cases h

theorem unit?_of_commonSupertype (h : a.commonSupertype b = some s) (hs : s.unit? = some u) :
    a.unit? = some u ∨ b.unit? = some u := by
  induction a generalizing b s with
  | array a ih =>
      rcases plain_cases b with rfl | ⟨b, rfl⟩ | hb
      · cases h
        exact .inl hs
      · rw [commonSupertype_array] at h
        obtain ⟨t, ht, rfl⟩ := Option.map_eq_some_iff.1 h
        exact (ih ht hs : a.unit? = some u ∨ b.unit? = some u)
      · rw [array_commonSupertype_plain hb] at h
        cases h
  | null =>
      rw [null_commonSupertype] at h
      cases h
      exact .inr hs
  | _ =>
      rcases eq_or_eq_of_commonSupertype rfl h with rfl | rfl
      · exact .inl hs
      · exact .inr hs

/-- The unit of a common supertype is that of one of the types. -/
theorem exists_unit?_of_highestPrecedence {ts : List DataType}
    (h : highestPrecedence ts = some s) (hs : s.unit? = some u) :
    ∃ t ∈ ts, t.unit? = some u := by
  induction ts generalizing s with
  | nil => cases h; cases hs
  | cons t rest ih =>
      rw [highestPrecedence_cons] at h
      obtain ⟨v, hv, h⟩ := Option.bind_eq_some_iff.1 h
      rcases unit?_of_commonSupertype h hs with ht | hv'
      · exact ⟨t, List.mem_cons_self, ht⟩
      · obtain ⟨r, hr, hunit⟩ := ih hv hv'
        exact ⟨r, List.mem_cons_of_mem _ hr, hunit⟩

/-! ### Integers of 64 bits -/

/-- The type with 64 bits for every integer, which is how many a value has. -/
def roomy : DataType → DataType
  | int32 => int64
  | array element => array element.roomy
  | t => t

theorem roomy_of_isInteger (h : t.isInteger = true) : t.roomy = int64 := by
  cases t <;> first | rfl | cases h

theorem widens_roomy (t : DataType) : t.Widens t.roomy := by
  induction t with
  | array element ih => rw [roomy, Widens, commonSupertype_array, ih]; rfl
  | int32 => rfl
  | _ => exact Widens.refl _

end TypedQuery.DataType
