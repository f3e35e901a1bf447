import TypedQuery.Proofs.Columnar.Heights

/-!
# Operands of different heights

A column over a batch is as high as the batch or a single row, and the columns that an
operation takes are brought to one height in different ways: side by side with one of
them repeated, broadcast to the tallest, or broadcast to the batch. As long as the
heights are only these two, none of the ways fails. Only a function without arguments
gives another height, and an expression without one never fails because columns of
different heights cannot be combined.

The induction is over the expression. What it carries through is that every operand spans
the batch; that the result does so too is known from where the height of an expression
comes (`covers_evaluate`).
-/

namespace TypedQuery

namespace Column

/-- The step does not fail because two columns are of different heights. -/
def Levels {α : Type} (x : Except Error α) : Prop := ∀ l r, x ≠ .error (unequalRows l r)

namespace Levels

variable {α β : Type}

theorem ok (a : α) : Levels (.ok a : Except Error α) := fun _ _ h => by cases h

theorem compute (failure : ComputeFailure) :
    Levels (.error (.compute failure) : Except Error α) :=
  fun _ _ h => by cases h

theorem type (text : String) : Levels (.error (.type text) : Except Error α) :=
  fun _ _ h => by cases h

theorem value (text : String) : Levels (.error (.value text) : Except Error α) :=
  fun _ _ h => by cases h

/-- A failure of execution that is worded otherwise. -/
theorem of_text {text : String} (h : text.toList.take 3 ≠ "can".toList) :
    Levels (.error (.execution text) : Except Error α) := by
  intro l r heq
  obtain rfl := Error.execution.inj (Except.error.inj heq)
  exact h (by simp [String.toList_append])

/-- The failure about heights ends in a word, and this one in a number. -/
theorem of_count (text : String) (n : Nat) :
    Levels (.error (.execution (text ++ toString n)) : Except Error α) := by
  intro l r heq
  have hchars := congrArg String.toList (Error.execution.inj (Except.error.inj heq))
  have hdigits : (toString n).toList = Nat.toDigits 10 n := by
    rw [Nat.toString_eq_repr, Nat.toList_repr]
  have hlast : 's' ∈ Nat.toDigits 10 n := by
    have hend := congrArg List.getLast? hchars
    rw [String.toList_append, hdigits, List.getLast?_append_of_ne_nil _ Nat.toDigits_ne_nil,
      String.toList_append, List.getLast?_append_of_ne_nil _ (by simp)] at hend
    exact List.mem_of_getLast? (hend.trans (by simp))
  exact absurd (Nat.isDigit_of_mem_toDigits (by decide) (by decide) hlast) (by decide)

theorem bind {x : Except Error α} {f : α → Except Error β} (hx : Levels x)
    (hf : ∀ a, x = .ok a → Levels (f a)) :
    Levels (x >>= f) := by
  cases x with
  | error e => exact fun l r h => hx l r (congrArg Except.error (Except.error.inj h))
  | ok a => exact hf a rfl

/-- The rest is known to go through for all that the step can give. -/
theorem bind_yields {P : α → Prop} {x : Except Error α} {f : α → Except Error β}
    (hx : Levels x) (hP : Yields P x) (hf : ∀ a, P a → Levels (f a)) : Levels (x >>= f) :=
  hx.bind fun a ha => hf a (hP a ha)

end Levels

variable {c l r : Column} {cs : List Column} {n rows : Nat} {mask : List Bool}

/-! ## Spanning -/

theorem Spans.of_covers {hs : List Nat} {m : Nat} (h : Covers hs m)
    (hhs : ∀ k ∈ hs, k = n ∨ k = 1) : m = n ∨ m = 1 :=
  hhs m h.1

theorem Spans.taller (hn : 0 < n) (hl : l.Spans n) (hr : r.Spans n) :
    l.Spans (max l.length r.length) ∧ r.Spans (max l.length r.length) := by
  unfold Spans at *
  omega

theorem Spans.two (hl : l.Spans n) (hr : r.Spans n) :
    ∀ k ∈ [l.length, r.length], k = n ∨ k = 1 :=
  List.forall_mem_cons.2 ⟨hl, List.forall_mem_cons.2 ⟨hr, nofun⟩⟩

theorem Spans.cast {t : Physical} (hc : c.Spans n) :
    Yields (Spans n) (c.cast t) := fun d hd => by
  unfold Spans
  rw [length_cast hd]
  exact hc

/-! ## Bringing columns together -/

theorem levels_cast (c : Column) (t : Physical) : Levels (c.cast t) := by
  unfold Column.cast
  split
  · exact .ok _
  · split
    · split
      · exact .ok _
      · exact .compute _
    · exact .compute _

theorem levels_broadcast (h : c.Spans rows) : Levels (c.broadcast rows) := by
  obtain ⟨d, hd⟩ := exists_broadcast h
  rw [hd]
  exact .ok d

theorem levels_pairs (hl : l.Spans n) (hr : r.Spans n) : Levels (pairs l r) := by
  unfold pairs
  split
  · exact .ok _
  · next hne =>
      split
      · exact .ok _
      · exact .ok _
      · next hnotl hnotr =>
          -- One of the two is a single row, since not both are as high as the batch.
          rcases hl with hl | hl
          · obtain ⟨cell, hcell⟩ :=
              List.length_eq_one_iff.1 (hr.resolve_left fun h => hne (hl.trans h.symm))
            exact absurd hcell (hnotr _)
          · obtain ⟨cell, hcell⟩ := List.length_eq_one_iff.1 hl
            exact absurd hcell (hnotl _)

theorem levels_commonType (t u : Physical) : Levels (commonType t u) := by
  unfold commonType
  split
  · exact .ok _
  · split <;> first | exact .ok _ | exact .type _

theorem levels_coerce (l r : Column) : Levels (l.coerce r) :=
  .bind (levels_commonType _ _) fun _ _ => .bind (levels_cast _ _) fun _ _ =>
    .bind (levels_cast _ _) fun _ _ => .ok _

theorem Spans.coerce (hl : l.Spans n) (hr : r.Spans n) :
    Yields (fun p => p.1.Spans n ∧ p.2.Spans n) (l.coerce r) :=
  (length_coerce l r).mono fun p hp => by
    unfold Spans
    rw [hp.1, hp.2]
    exact ⟨hl, hr⟩

theorem levels_condition (c : Column) : Levels c.condition := by
  unfold condition
  split
  · exact .ok _
  · exact .type _

theorem levels_asPredicate (h : c.Spans rows) : Levels (c.asPredicate rows) := by
  refine .bind (levels_broadcast h) fun c _ => ?_
  split
  · exact .ok _
  · exact .type _

/-! ## Operators -/

theorem levels_computed (t : Physical) (x : Except ComputeFailure (List Cell)) :
    Levels (computed t x) := by
  cases x with
  | error failure => exact .compute failure
  | ok cells => exact .ok _

theorem levels_arithmetic (hl : l.Spans n) (hr : r.Spans n) (op : Arithmetic) :
    Levels (arithmetic op l r) := by
  refine .bind (levels_pairs hl hr) fun ps _ => ?_
  split
  · exact levels_computed _ _
  · exact levels_computed _ _
  · exact .ok _
  · exact .compute _

theorem levels_compare (hl : l.Spans n) (hr : r.Spans n) (op : Comparison) :
    Levels (compare op l r) := by
  refine .bind (levels_pairs hl hr) fun ps _ => ?_
  split
  · exact .compute _
  · exact .ok _

theorem levels_power (hn : 0 < n) (hl : l.Spans n) (hr : r.Spans n) :
    Levels (power l r) := by
  refine .bind_yields (levels_cast _ _) hl.cast fun base hbase => ?_
  refine .bind_yields (levels_cast _ _) hr.cast fun exponent hexponent => ?_
  obtain ⟨htall, htall'⟩ := hbase.taller hn hexponent
  exact .bind (levels_broadcast htall) fun _ _ =>
    .bind (levels_broadcast htall') fun _ _ => .ok _

theorem levels_logic (hn : 0 < n) (hl : l.Spans n) (hr : r.Spans n) (op : Logic) :
    Levels (logic op l r) := by
  obtain ⟨htall, htall'⟩ := hl.taller hn hr
  exact .bind (levels_broadcast htall) fun _ _ => .bind (levels_condition _) fun _ _ =>
    .bind (levels_broadcast htall') fun _ _ => .bind (levels_condition _) fun _ _ => .ok _

theorem levels_bitwise (hn : 0 < n) (hl : l.Spans n) (hr : r.Spans n) (op : Bitwise) :
    Levels (bitwise op l r) := by
  obtain ⟨htall, htall'⟩ := hl.taller hn hr
  exact .bind (levels_broadcast htall) fun _ _ => .bind (levels_cast _ _) fun _ _ =>
    .bind (levels_broadcast htall') fun _ _ => .bind (levels_cast _ _) fun _ _ => .ok _

theorem levels_binary (hn : 0 < n) (hl : l.Spans n) (hr : r.Spans n) (op : BinaryOp) :
    Levels (op.apply l r) := by
  refine .bind_yields (levels_coerce l r) (hl.coerce hr) fun p hp => ?_
  cases op with
  | arithmetic op => exact levels_arithmetic hp.1 hp.2 op
  | power => exact levels_power hn hp.1 hp.2
  | compare op => exact levels_compare hp.1 hp.2 op
  | logic op => exact levels_logic hn hp.1 hp.2 op
  | bitwise op => exact levels_bitwise hn hp.1 hp.2 op

theorem Spans.binary (hl : l.Spans n) (hr : r.Spans n) (op : BinaryOp) :
    Yields (Spans n) (op.apply l r) :=
  (covers_binary op l r).mono fun _ h => .of_covers h (hl.two hr)

theorem levels_mapDoubles (f : Double → Double) (c : Column) : Levels (c.mapDoubles f) :=
  .bind (.bind (levels_cast _ _) fun _ _ => .ok _) fun _ _ => .ok _

theorem levels_unary (op : UnaryOp) (c : Column) : Levels (op.apply c) := by
  cases op with
  | negate =>
      simp only [UnaryOp.apply, negate]
      split
      · exact levels_computed _ _
      · exact levels_computed _ _
      · exact .ok _
      · exact .compute _
  | not => exact .bind (levels_condition c) fun _ _ => .ok _
  | complement => exact .bind (levels_cast _ _) fun _ _ => .ok _
  | isNull | isNotNull => exact .ok _
  | isNan | isInfinite =>
      exact .bind (.bind (levels_cast _ _) fun _ _ => .ok _) fun _ _ => .ok _
  | abs =>
      simp only [UnaryOp.apply, abs]
      split
      · exact levels_cast _ _
      · exact levels_mapDoubles _ c
  | sign => exact .bind (levels_mapDoubles _ c) fun _ _ => levels_cast _ _
  | ceil | floor | round | exp | ln | log2 | log10 | sqrt | acos | asin | atan | cos | sin
  | tan =>
      exact levels_mapDoubles _ c

/-! ## Choices -/

theorem levels_select (hn : 0 < n) (hmask : mask.length = n ∨ mask.length = 1)
    (hl : l.Spans n) (hr : r.Spans n) :
    Levels (select mask l r) := by
  obtain ⟨hmask, hl, hr⟩ := tallest_of_three hn hmask hl hr
  have hlength : (bools (mask.map some)).length = mask.length := by simp [bools, length]
  refine .bind (levels_broadcast (hlength ▸ hmask)) fun _ _ => ?_
  refine .bind_yields (levels_coerce l r) (length_coerce l r) fun p hp => ?_
  exact .bind (levels_broadcast (hp.1 ▸ hl)) fun _ _ =>
    .bind (levels_broadcast (hp.2 ▸ hr)) fun _ _ => .ok _

theorem levels_orElse (hn : 0 < n) (hl : l.Spans n) (hr : r.Spans n) :
    Levels (l.orElse r) := by
  refine .bind_yields (levels_cast _ _) hr.cast fun fill hfill =>
    levels_select hn ?_ hl hfill
  rw [List.length_map, isNull, List.length_map]
  exact hl

theorem Spans.orElse (hl : l.Spans n) (hr : r.Spans n) : Yields (Spans n) (l.orElse r) :=
  (covers_orElse l r).mono fun _ h => .of_covers h (hl.two hr)

theorem levels_fillNan (hn : 0 < n) (hl : l.Spans n) (hr : r.Spans n) :
    Levels (l.fillNan r) := by
  refine .bind_yields (levels_cast _ _) hr.cast fun fill hfill =>
    levels_select hn ?_ hl hfill
  rw [List.length_map]
  exact hl

theorem levels_better (hn : 0 < n) (hl : l.Spans n) (hr : r.Spans n) (op : Comparison) :
    Levels (better op l r) := by
  refine .bind_yields (levels_coerce l r) (hl.coerce hr) fun p hp => ?_
  refine .bind_yields (levels_compare hp.1 hp.2 op) (covers_compare op p.1 p.2)
    fun compared hcompared => ?_
  split
  · next heq =>
      refine levels_select hn ?_ hp.1 hp.2
      have hheight : compared.length = p.1.length := by
        simpa [← heq] using hcompared.1
      have hmask : min p.1.cells.length (min p.2.cells.length compared.cells.length)
          = p.1.length := by
        unfold length at *
        omega
      rw [List.length_map, List.length_zip, List.length_zip, hmask]
      exact hp.1
  · exact .compute _

/-! ## Several columns -/

theorem levels_coalesce (hn : 0 < n) (hcs : ∀ c ∈ cs, c.Spans n) :
    Levels (coalesce cs) ∧ Yields (Spans n) (coalesce cs) := by
  induction cs with
  | nil => exact ⟨.of_text (by decide), .error _⟩
  | cons c rest ih =>
      obtain ⟨hc, hrest⟩ := List.forall_mem_cons.1 hcs
      cases rest with
      | nil => exact ⟨.ok _, .ok hc⟩
      | cons next more =>
          obtain ⟨hlevels, hspans⟩ := ih hrest
          exact ⟨.bind_yields hlevels hspans fun d hd => levels_orElse hn hc hd,
            .bind hspans fun d hd => hc.orElse hd⟩

theorem levels_extremeFrom (hn : 0 < n) (op : Comparison) (hc : c.Spans n)
    (hcs : ∀ d ∈ cs, d.Spans n) :
    Levels (extremeFrom op c cs) := by
  induction cs generalizing c with
  | nil => exact .ok _
  | cons next rest ih =>
      obtain ⟨hnext, hrest⟩ := List.forall_mem_cons.1 hcs
      refine .bind_yields (levels_better hn hc hnext op) (length_better op c next)
        fun d hd => ih ?_ hrest
      unfold Spans
      rw [hd.2]
      exact hc

theorem levels_horizontal (hn : 0 < n) (op : Comparison) (hcs : ∀ c ∈ cs, c.Spans n) :
    Levels (horizontal op cs) := by
  cases cs with
  | nil => exact .of_text (by decide)
  | cons c rest =>
      obtain ⟨hc, hrest⟩ := List.forall_mem_cons.1 hcs
      exact levels_extremeFrom hn op hc hrest

theorem levels_broadcastAll (hcs : ∀ c ∈ cs, c.Spans rows) :
    Levels (broadcastAll rows cs) := by
  induction cs with
  | nil => exact .ok _
  | cons c rest ih =>
      obtain ⟨hc, hrest⟩ := List.forall_mem_cons.1 hcs
      exact .bind (levels_broadcast hc) fun _ _ => .bind (ih hrest) fun _ _ => .ok _

theorem le_foldl_max (m : Nat) (hs : List Nat) :
    m ≤ hs.foldl max m ∧ ∀ h ∈ hs, h ≤ hs.foldl max m := by
  induction hs generalizing m with
  | nil => exact ⟨Nat.le_refl m, nofun⟩
  | cons h rest ih =>
      obtain ⟨hfirst, hrest⟩ := ih (max m h)
      rw [List.foldl_cons]
      exact ⟨by omega, List.forall_mem_cons.2 ⟨by omega, hrest⟩⟩

theorem levels_align (hn : 0 < n) (hcs : ∀ c ∈ cs, c.Spans n) : Levels (align cs) := by
  refine levels_broadcastAll fun c hc => ?_
  have htall : c.length ≤ (cs.map length).foldl max 0 :=
    (le_foldl_max 0 _).2 _ (List.mem_map_of_mem hc)
  have hheight : (cs.map length).foldl max 0 = 0 ∨ (cs.map length).foldl max 0 = n
      ∨ (cs.map length).foldl max 0 = 1 := by
    rcases List.mem_cons.1 (foldl_max_mem 0 (cs.map length)) with h | h
    · exact .inl h
    · obtain ⟨d, hd, hlength⟩ := List.mem_map.1 h
      exact .inr (hlength ▸ hcs d hd)
  have hspans := hcs c hc
  unfold Spans at *
  omega

/-! ## Functions, reductions and constants -/

theorem levels_toTexts (c : Column) : Levels c.toTexts :=
  .bind (levels_cast _ _) fun _ _ => .ok _

theorem levels_regex (pattern : String) : Levels (regex pattern) := by
  unfold regex
  split
  · exact .ok _
  · exact .value _

theorem levels_instants (c : Column) : Levels c.instants := by
  unfold instants
  split
  · exact .ok _
  · exact .ok _
  · exact .type _

theorem levels_repeatTexts (times : Nat) (ss : List (Option String)) :
    Levels (repeatTexts times ss) := by
  induction ss with
  | nil => exact .ok _
  | cons s rest ih =>
      cases s with
      | none => exact .bind ih fun _ _ => .ok _
      | some s =>
          refine .bind ?_ fun _ _ => .bind ih fun _ _ => .ok _
          unfold repeatText
          split
          · exact .of_text (by simp [String.toList_append])
          · exact .ok _

theorem levels_truncateAll (unit : String) (ts : List (Option Instant)) :
    Levels (truncateAll unit ts) := by
  induction ts with
  | nil => exact .ok _
  | cons t rest ih =>
      cases t with
      | none => exact .bind ih fun _ _ => .ok _
      | some t =>
          refine .bind ?_ fun _ _ => .bind ih fun _ _ => .ok _
          unfold truncateInstant
          split
          · exact .ok _
          · exact .value _
          · exact .value _

theorem levels_allTexts (cs : List Column) : Levels (allTexts cs) := by
  induction cs with
  | nil => exact .ok _
  | cons c rest ih => exact .bind (levels_toTexts c) fun _ _ => .bind ih fun _ _ => .ok _

theorem levels_allInts (cs : List Column) : Levels (allInts cs) := by
  induction cs with
  | nil => exact .ok _
  | cons c rest ih =>
      exact .bind (.bind (levels_cast _ _) fun _ _ => .ok _) fun _ _ =>
        .bind ih fun _ _ => .ok _

theorem levels_ofParts (t : Physical) (cs : List Column) : Levels (ofParts t cs) :=
  .bind (levels_allInts cs) fun _ _ => .ok _

theorem levels_requireList (c : Column) : Levels c.requireList := by
  unfold requireList
  split
  · exact .ok _
  · exact .type _

theorem levels_applyOne (f : Function) (c : Column) : Levels (f.applyOne c) := by
  cases f with
  | lowercase | uppercase | strip | stripStart | stripEnd | capitalize | reverse | length
  | slice | tail | find | findInSet | contains | startsWith | endsWith | replace | split
  | padStart | padEnd =>
      exact .bind (levels_toTexts c) fun _ _ => .ok _
  | regexMatch | regexExtract | regexReplace =>
      exact .bind (levels_regex _) fun _ _ => .bind (levels_toTexts c) fun _ _ => .ok _
  | repeated times =>
      exact .bind (levels_toTexts c) fun _ _ =>
        .bind (levels_repeatTexts _ _) fun _ _ => .ok _
  | temporal field =>
      simp only [Function.applyOne, temporalField]
      split
      · exact .ok _
      · exact .ok _
      · exact .compute _
  | epochSeconds => exact .bind (levels_cast _ _) fun _ _ => levels_cast _ _
  | strftime format =>
      simp only [Function.applyOne, strftime]
      split
      · exact .value _
      · exact .bind (levels_instants c) fun _ _ => .ok _
  | strptime format => exact .bind (levels_toTexts c) fun _ _ => .ok _
  | truncate unit =>
      exact .bind (levels_instants c) fun _ _ =>
        .bind (levels_truncateAll _ _) fun _ _ => .ok _
  | listLength => exact .bind (levels_requireList c) fun _ _ => .ok _
  | concat | dateFromParts | timestampFromParts | atan2 | listConcat | listFromColumns =>
      exact fun _ _ h => by cases h

theorem levels_apply (f : Function) (cs : List Column) : Levels (f.apply cs) := by
  cases f with
  | concat separator => exact .bind (levels_allTexts cs) fun _ _ => .ok _
  | dateFromParts =>
      simp only [Function.apply, dateFromParts]
      split
      · exact levels_ofParts _ _
      · exact .of_text (by simp)
  | timestampFromParts =>
      simp only [Function.apply, timestampFromParts]
      split
      · exact levels_ofParts _ _
      · exact .of_text (by simp)
  | atan2 =>
      simp only [Function.apply]
      split
      · exact .bind (levels_cast _ _) fun _ _ => .bind (levels_cast _ _) fun _ _ => .ok _
      · exact .of_text (by simp)
  | listConcat =>
      simp only [Function.apply]
      split
      · rw [listConcat_eq]
        exact .bind (levels_cast _ _) fun _ _ =>
          .bind (levels_requireList _) fun _ _ => .ok _
      · exact .of_text (by simp)
  | listFromColumns =>
      cases cs with
      | nil => exact .of_text (by decide)
      | cons c rest =>
          rw [Function.apply, listFromColumns_eq]
          split
          · exact .ok _
          · exact .compute _
  | _ =>
      simp only [Function.apply]
      split
      · exact levels_applyOne _ _
      · exact .of_count _ _

theorem levels_reduction (f : Reduction) (c : Column) : Levels (f.apply c) := by
  have hfloats : Levels (Reduction.floatValues c) :=
    .bind (.bind (levels_cast _ _) fun _ _ => .ok _) fun _ _ => .ok _
  have hextreme (greatest : Bool) : Levels (Reduction.extreme greatest c) := by
    unfold Reduction.extreme
    split
    · exact .ok _
    · split
      · exact .compute _
      · exact .ok _
  cases f with
  | count | countDistinct | collect => exact .ok _
  | sum =>
      simp only [Reduction.apply]
      split
      · exact .bind hfloats fun _ _ => .ok _
      · exact .bind (.bind (.bind (levels_cast _ _) fun _ _ => .ok _) fun _ _ => .ok _)
          fun _ _ => .ok _
  | min => exact hextreme false
  | max => exact hextreme true
  | mean | median | std | variance => exact .bind hfloats fun _ _ => .ok _

theorem levels_literal (v : Value) (t : DataType) (rows : Nat) :
    Levels (Literal.column v t rows) := by
  simp only [Literal.column]
  split
  · exact .ok _
  · refine .bind ?_ fun _ _ => ?_
    · cases v with
      | array => exact fun _ _ h => by cases h
      | _ => exact .ok _
    · split
      · exact .ok _
      · exact levels_cast _ _

theorem levels_filter (c : Column) (mask : List Cell) : Levels (c.filter mask) := by
  unfold Column.filter
  split
  · exact .compute _
  · exact .ok _

end Column

/-! ## Expressions -/

namespace Expr

open Column

variable {b : Batch}

mutual

/-- Every function in the expression has an argument. -/
def callsFilled : Expr → Bool
  | column _ | literal .. | countRows none => true
  | named e _ | cast e _ | unary _ e | reduce _ e none | countRows (some e) => callsFilled e
  | binary a _ b | fillNull a b | fillNan a b | reduce _ a (some b) =>
    callsFilled a && callsFilled b
  | choose a b c | between a b c => callsFilled a && callsFilled b && callsFilled c
  | isIn e items => callsFilled e && allCallsFilled items
  | coalesce items | least items | greatest items => allCallsFilled items
  | call _ items => !items.isEmpty && allCallsFilled items

def allCallsFilled : List Expr → Bool
  | [] => true
  | e :: rest => callsFilled e && allCallsFilled rest

end

variable {e : Expr}

mutual

theorem callsFilled_of_mem_parts {x : Expr} :
    ∀ e : Expr, e.callsFilled = true → x ∈ e.parts b → x.callsFilled = true
  | column _, he, hx | literal .., he, hx | reduce .., he, hx | countRows _, he, hx => by
      rwa [List.mem_singleton.1 hx]
  | named e _, he, hx | cast e _, he, hx | unary _ e, he, hx => by
      rcases List.mem_cons.1 hx with rfl | hx
      · exact he
      · exact callsFilled_of_mem_parts e he hx
  | binary l _ r, he, hx | fillNull l r, he, hx => by
      simp only [parts, List.mem_cons, List.mem_append] at hx
      have hparts := (Bool.and_eq_true _ _).mp he
      rcases hx with rfl | hx | hx
      · exact he
      · exact callsFilled_of_mem_parts l hparts.1 hx
      · exact callsFilled_of_mem_parts r hparts.2 hx
  | fillNan l r, he, hx => by
      simp only [parts, List.mem_cons, List.mem_append] at hx
      have hparts := (Bool.and_eq_true _ _).mp he
      rcases hx with rfl | hx | hx
      · exact he
      · exact callsFilled_of_mem_parts l hparts.1 hx
      · split at hx
        · exact callsFilled_of_mem_parts r hparts.2 hx
        · cases hx
  | choose e l r, he, hx | between e l r, he, hx => by
      simp only [parts, List.mem_cons, List.mem_append] at hx
      obtain ⟨hfirst, hr⟩ := (Bool.and_eq_true _ _).mp he
      obtain ⟨he', hl⟩ := (Bool.and_eq_true _ _).mp hfirst
      rcases hx with rfl | hx | hx | hx
      · exact he
      · exact callsFilled_of_mem_parts e he' hx
      · exact callsFilled_of_mem_parts l hl hx
      · exact callsFilled_of_mem_parts r hr hx
  | isIn e items, he, hx => by
      simp only [parts, List.mem_cons, List.mem_append] at hx
      have hparts := (Bool.and_eq_true _ _).mp he
      rcases hx with rfl | hx | hx
      · exact he
      · exact callsFilled_of_mem_parts e hparts.1 hx
      · exact callsFilled_of_mem_partsOf items hparts.2 hx
  | coalesce items, he, hx | least items, he, hx | greatest items, he, hx => by
      rcases List.mem_cons.1 hx with rfl | hx
      · exact he
      · exact callsFilled_of_mem_partsOf items he hx
  | call _ items, he, hx => by
      rcases List.mem_cons.1 hx with rfl | hx
      · exact he
      · exact callsFilled_of_mem_partsOf items ((Bool.and_eq_true _ _).mp he).2 hx

theorem callsFilled_of_mem_partsOf {x : Expr} :
    ∀ items : List Expr, allCallsFilled items = true → x ∈ partsOf b items →
    x.callsFilled = true
  | [], _, hx => by cases hx
  | e :: rest, he, hx => by
      have hparts := (Bool.and_eq_true _ _).mp he
      rcases List.mem_append.1 hx with hx | hx
      · exact callsFilled_of_mem_parts e hparts.1 hx
      · exact callsFilled_of_mem_partsOf rest hparts.2 hx

end

/-- The height of a value is that of the batch or one, since no function without
arguments takes part. -/
theorem spans_evaluate (hb : b.Rectangular) (he : e.callsFilled = true) :
    Yields (Spans b.rows) (e.evaluate b) := by
  refine (covers_evaluate hb e).mono fun c hc => ?_
  rcases mem_heights hc.1 with h | ⟨h, -⟩ | ⟨-, f, hcall⟩
  · exact .inl h
  · exact .inr h
  · cases callsFilled_of_mem_parts e he hcall

theorem spans_evaluateList (hb : b.Rectangular) {items : List Expr}
    (he : allCallsFilled items = true) :
    Yields (∀ c ∈ ·, c.Spans b.rows) (evaluateList b items) := by
  induction items with
  | nil => exact .ok nofun
  | cons e rest ih =>
      obtain ⟨he, hrest⟩ := (Bool.and_eq_true _ _).mp he
      refine .bind (spans_evaluate hb he) fun c hc => .bind (ih hrest) fun cs hcs => .ok ?_
      exact List.forall_mem_cons.2 ⟨hc, hcs⟩

theorem levels_findColumn (b : Batch) (name : String) : Levels (findColumn b name) := by
  unfold findColumn
  split
  · exact .ok _
  · exact fun _ _ h => by cases h

mutual

/-- No step fails for the heights of its operands, since the columns of all
operands span the batch. -/
theorem levels_evaluate (hb : b.Rectangular) (hn : 0 < b.rows) :
    ∀ e : Expr, e.callsFilled = true → Levels (e.evaluate b)
  | column name, _ => levels_findColumn b name
  | literal v type, _ => levels_literal v type b.rows
  | named e _, he => levels_evaluate hb hn e he
  | cast e _, he => .bind (levels_evaluate hb hn e he) fun c _ => levels_cast c _
  | unary op e, he => .bind (levels_evaluate hb hn e he) fun c _ => levels_unary op c
  | binary left op right, he => by
      obtain ⟨hleft, hright⟩ := (Bool.and_eq_true _ _).mp he
      exact .bind_yields (levels_evaluate hb hn left hleft)
        (spans_evaluate hb hleft) fun l hl =>
        .bind_yields (levels_evaluate hb hn right hright) (spans_evaluate hb hright)
          fun r hr => levels_binary hn hl hr op
  | choose predicate thenExpr otherwise, he => by
      obtain ⟨hfirst, hotherwise⟩ := (Bool.and_eq_true _ _).mp he
      obtain ⟨hpredicate, hthen⟩ := (Bool.and_eq_true _ _).mp hfirst
      refine .bind_yields (levels_evaluate hb hn predicate hpredicate)
        (spans_evaluate hb hpredicate) fun p hp => ?_
      refine .bind (levels_asPredicate hp) fun mask hmask => ?_
      refine .bind_yields (levels_evaluate hb hn thenExpr hthen)
        (spans_evaluate hb hthen) fun l hl => ?_
      refine .bind_yields (levels_evaluate hb hn otherwise hotherwise)
        (spans_evaluate hb hotherwise) fun r hr => ?_
      refine levels_select hn ?_ hl hr
      rw [List.length_map, length_asPredicate hmask]
      exact .inl rfl
  | fillNull e fill, he => by
      obtain ⟨he, hfill⟩ := (Bool.and_eq_true _ _).mp he
      exact .bind_yields (levels_evaluate hb hn e he) (spans_evaluate hb he) fun c hc =>
        .bind_yields (levels_evaluate hb hn fill hfill) (spans_evaluate hb hfill)
          fun d hd => levels_orElse hn hc hd
  | fillNan e fill, he => by
      obtain ⟨he, hfill⟩ := (Bool.and_eq_true _ _).mp he
      refine .bind_yields (levels_evaluate hb hn e he) (spans_evaluate hb he) fun c hc => ?_
      split
      · exact .bind_yields (levels_evaluate hb hn fill hfill) (spans_evaluate hb hfill)
          fun d hd => levels_fillNan hn hc hd
      · exact .ok _
  | isIn e options, he => by
      obtain ⟨he, hoptions⟩ := (Bool.and_eq_true _ _).mp he
      exact .bind_yields (levels_evaluate hb hn e he) (spans_evaluate hb he) fun c hc =>
        levels_evaluateIn hb hn options hoptions hc fun _ hd => by cases hd
  | between e low high, he => by
      obtain ⟨hfirst, hhigh⟩ := (Bool.and_eq_true _ _).mp he
      obtain ⟨he, hlow⟩ := (Bool.and_eq_true _ _).mp hfirst
      refine .bind_yields (levels_evaluate hb hn e he) (spans_evaluate hb he) fun c hc => ?_
      refine .bind_yields (levels_evaluate hb hn low hlow)
        (spans_evaluate hb hlow) fun l hl => ?_
      refine .bind_yields (levels_evaluate hb hn high hhigh)
        (spans_evaluate hb hhigh) fun h hh => ?_
      refine .bind_yields (levels_binary hn hc hl _) (hc.binary hl _) fun above habove => ?_
      refine .bind_yields (levels_binary hn hc hh _) (hc.binary hh _) fun below hbelow => ?_
      exact levels_binary hn habove hbelow _
  | coalesce items, he =>
      .bind_yields (levels_evaluateList hb hn items he) (spans_evaluateList hb he)
        fun _ hcs => (levels_coalesce hn hcs).1
  | least items, he | greatest items, he =>
      .bind_yields (levels_evaluateList hb hn items he) (spans_evaluateList hb he)
        fun _ hcs => levels_horizontal hn _ hcs
  | call f items, he => by
      have hitems := ((Bool.and_eq_true _ _).mp he).2
      exact .bind_yields (levels_evaluateList hb hn items hitems)
        (spans_evaluateList hb hitems) fun cs hcs =>
        .bind (levels_align hn hcs) fun aligned _ => levels_apply f aligned
  | reduce f e none, he => .bind (levels_evaluate hb hn e he) fun c _ => levels_reduction f c
  | reduce f e (some filter), he => by
      obtain ⟨he, hfilter⟩ := (Bool.and_eq_true _ _).mp he
      refine .bind (levels_evaluate hb hn e he) fun c _ => ?_
      refine .bind_yields (levels_evaluate hb hn filter hfilter)
        (spans_evaluate hb hfilter) fun p hp => ?_
      exact .bind (levels_asPredicate hp) fun mask _ =>
        .bind (levels_filter c mask) fun kept _ => levels_reduction f kept
  | countRows none, _ => .ok _
  | countRows (some filter), he =>
      .bind_yields (levels_evaluate hb hn filter he) (spans_evaluate hb he) fun _ hp =>
        .bind (levels_asPredicate hp) fun _ _ => .ok _

theorem levels_evaluateList (hb : b.Rectangular) (hn : 0 < b.rows) :
    ∀ items : List Expr, allCallsFilled items = true → Levels (evaluateList b items)
  | [], _ => .ok _
  | e :: rest, he => by
      obtain ⟨he, hrest⟩ := (Bool.and_eq_true _ _).mp he
      exact .bind (levels_evaluate hb hn e he) fun _ _ =>
        .bind (levels_evaluateList hb hn rest hrest) fun _ _ => .ok _

/-- What was found in the options before spans the batch as the value does. -/
theorem levels_evaluateIn (hb : b.Rectangular) (hn : 0 < b.rows) :
    ∀ options : List Expr, allCallsFilled options = true →
    ∀ {c : Column} {found : Option Column}, c.Spans b.rows → (∀ d ∈ found, d.Spans b.rows) →
      Levels (evaluateIn b c found options)
  | [], _, _, _, _, _ => .ok _
  | e :: rest, he, c, found, hc, hfound => by
      obtain ⟨he, hrest⟩ := (Bool.and_eq_true _ _).mp he
      refine .bind_yields (levels_evaluate hb hn e he) (spans_evaluate hb he)
        fun value hvalue => ?_
      refine .bind_yields (levels_binary hn hc hvalue _) (hc.binary hvalue _)
        fun matched hmatched => ?_
      cases found with
      | none =>
          exact levels_evaluateIn hb hn rest hrest hc fun d hd =>
            Option.some.inj hd ▸ hmatched
      | some found =>
          have hfound := hfound found rfl
          refine .bind_yields (levels_binary hn hfound hmatched _)
            (hfound.binary hmatched _) fun next hnext => ?_
          exact levels_evaluateIn hb hn rest hrest hc fun d hd => Option.some.inj hd ▸ hnext

end

end Expr

/-- Over a batch with rows an expression whose functions all have arguments gives as many
rows as the batch has, or a single one, and it never fails because columns of different
heights cannot be combined. -/
theorem evaluate_spans {b : Batch} (hb : b.Rectangular) (hn : 0 < b.rows) {e : Expr}
    (he : e.callsFilled = true) :
    (∀ c, e.evaluate b = .ok c → c.length = b.rows ∨ c.length = 1)
      ∧ ∀ left right, e.evaluate b ≠ .error (Column.unequalRows left right) :=
  ⟨Expr.spans_evaluate hb he, Expr.levels_evaluate hb hn e he⟩

/-- A column less its greatest value among those of some rows, joined as text with a
constant. -/
theorem evaluate_spans_mixed :
    ∃ (b : Batch) (e : Expr), b.Rectangular ∧ 0 < b.rows ∧ e.callsFilled = true
      ∧ e = .call (.concat "/")
        [.subtract (.column "a") (.reduce .max (.column "a") (some (.column "p"))), .ofInt 1]
      ∧ (∀ c, e.evaluate b = .ok c → c.length = b.rows ∨ c.length = 1)
      ∧ ∀ left right, e.evaluate b ≠ .error (Column.unequalRows left right) := by
  have hb : Batch.Rectangular
      ⟨2, [("a", ⟨.int64, [.int 3, .int 5]⟩), ("p", ⟨.boolean, [.bool true, .null]⟩)]⟩ := by
    simp [Batch.Rectangular, Column.length]
  exact ⟨_, _, hb, by decide, by rfl, rfl, evaluate_spans hb (by decide) (by rfl)⟩

end TypedQuery
