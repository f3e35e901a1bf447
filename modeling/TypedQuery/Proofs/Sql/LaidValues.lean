import TypedQuery.Proofs.Node.Held
import TypedQuery.Proofs.Sql.Orderly
import TypedQuery.Proofs.Node.Types

/-!
# Values are laid out

The rules for values, shape by shape. Most list nothing, or what they always have; a test
for membership lists its options and a condition its branches, of which there may be none.
-/

namespace TypedQuery.Sql

open Emission

/-- The rule lays its text out if the texts of the fields are, for a node that has what it
lists. -/
def LaysText (rule : SqlRule) : Prop :=
  ∀ config n emit, ¬ n.LeavesEmpty → LaysFields config n emit →
    Orderly config (Laid config n) (rule emit n)

/-! ## The shapes of rules -/

theorem callOf_lays {name : String} (hname : Unreserved name) (fields : List String) :
    LaysText (callOf name fields) :=
  fun _ _ _ _ h => .bind (h.fieldTexts fields) fun _ hts => .pure (.call hname hts.2)

/-- A function that needs arguments is given some. -/
theorem callOf_arguments {name : String} (hname : IsPlain name) {fields : List String}
    (hfields : fields ≠ []) :
    LaysText (callOf name fields) := by
  intro config n emit hn h
  refine .bind (h.fieldTexts fields) fun texts hts => .pure (.arguments hname hts.2 ?_ hn)
  rintro rfl
  exact hfields (List.length_eq_zero_iff.1 hts.1.symm)

theorem callOfAll_lays {name : String} (hname : Unreserved name) (field : String) :
    LaysText (callOfAll name field) :=
  fun _ _ _ _ h => .bind (h.sequence field) fun _ hts => .pure (.call hname hts.2)

theorem operator_lays {symbol : String} (hsymbol : Unreserved symbol) :
    LaysText (operator symbol) := by
  intro config n emit _ h
  refine .bind (h.field "left") fun left hl =>
    .bind (h.field "right") fun right hr => .pure ?_
  have hleft : Laid config n ("(" ++ left ++ " ") := .between (by decide) hl (by decide)
  exact (((hleft.append (.words hsymbol)).append (.words (by decide))).append hr).append
    (.words (by decide))

theorem around_lays {before after : String} (hbefore : Unreserved before) (field : String)
    (hafter : Unreserved after) :
    LaysText (around before field after) :=
  fun _ _ _ _ h => .bind (h.field field) fun _ ht => .pure (.between hbefore ht hafter)

/-! ## Constants, columns and conditions -/

theorem literalRule_lays : LaysText literalRule := by
  intro config n emit _ _
  unfold literalRule
  split
  · exact .lift fun _ h => .constant h
  · exact .throw _

section

variable {config : SqlConfig} {n : Node} {s : Statement}

theorem InOrder.quote (h : InOrder config s) (name : String) :
    Laid config n (s.quote name) := by
  rw [Statement.quote, h.1]
  exact .name name

theorem InOrder.qualified (h : InOrder config s) {label : String}
    (hlabel : ∃ i, label = Statement.label i) (name : String) :
    Laid config n (s.qualified label name) := by
  obtain ⟨i, rfl⟩ := hlabel
  exact (LaidOut.label i).beside (by decide) (h.quote name)

/-- A column is qualified with a label in scope. -/
theorem InOrder.column (h : InOrder config s) {table : Node} {name text : String}
    (htext : s.column table name = .ok text) :
    Laid config n text := by
  rw [Statement.column_eq] at htext
  split at htext
  · cases htext
    exact h.quote name
  · next hreach =>
      cases htext
      exact h.qualified ((List.forall_mem_cons.1 h.2).1 _ (Scope.mem_labels hreach)) _
  · cases htext

end

theorem columnRule_lays : LaysText columnRule :=
  fun _ _ _ _ _ => .target_bind fun _ hs => .lift_bind fun _ _ => .lift_bind fun _ _ =>
    .lift fun _ h => hs.column h

theorem typeName_laid {quote : Char} {n : Node} {t : DataType} {name : String}
    (h : typeName t = .ok name) :
    LaidOut quote n [] name := by
  induction t generalizing name with
  | array element ih =>
      obtain ⟨inner, hinner, rfl⟩ := map_eq_ok.1 h
      exact .between (by decide) (ih hinner) (by decide)
  | _ => cases h <;> exact .words (by decide)

theorem castRule_lays : LaysText castRule := by
  intro config n emit _ h
  refine .lift_bind fun target _ => ?_
  cases target.type? with
  | none => exact .throw _
  | some t =>
      refine .bind (h.field "arg") fun arg harg => .lift_bind fun name hname => .pure ?_
      have htext : Laid config n ("CAST(" ++ arg ++ " AS ") :=
        .between (by decide) harg (by decide)
      exact (htext.append (typeName_laid hname)).append (.words (by decide))

/-! ### Branches -/

/-- One branch of a condition. -/
def branch (case result : String) : String := " WHEN " ++ case ++ " THEN " ++ result

theorem branch_laid {quote : Char} {n : Node} {case result : String}
    (hcase : LaidOut quote n [] case) (hresult : LaidOut quote n [] result) :
    LaidOut quote n [] (branch case result) :=
  (LaidOut.between (by decide) hcase (by decide)).append hresult

theorem branches_eq (cases results : List String) :
    branches cases results = "".intercalate (List.zipWith branch cases results) := by
  induction cases generalizing results with
  | nil => rfl
  | cons case cases ih =>
      cases results with
      | nil => rfl
      | cons result results =>
          rw [branches, ih, List.zipWith_cons_cons]
          cases List.zipWith branch cases results with
          | nil => simp [branch]
          | cons b rest => rw [String.intercalate_cons_cons, String.append_empty]; rfl

/-- A condition with the branches, whatever its subject is. -/
theorem condition_laid {quote : Char} {n : Node} {subject default : String}
    {branches : List String} (hsubject : LaidOut quote n [] subject)
    (hbranches : ∀ b ∈ branches, LaidOut quote n [] b)
    (hdefault : LaidOut quote n [] default) (hempty : branches.length = 0 ↔ n.LeavesEmpty) :
    LaidOut quote n [.list .branches n branches.length]
      ("CASE" ++ subject ++ "".intercalate branches ++ " ELSE " ++ default ++ " END") := by
  have hlist := LaidOut.list .branches hsubject hbranches hempty
  have htext :=
    ((hlist.append (.words (show Unreserved " ELSE " by decide))).append hdefault).append
    (.words (show Unreserved " END" by decide))
  simpa [Listing.opening, Listing.separator, Listing.closing] using htext

/-- The same with one branch. -/
theorem oneBranch_laid {quote : Char} {n : Node} {case result default : String}
    (hcase : LaidOut quote n [] case) (hresult : LaidOut quote n [] result)
    (hdefault : LaidOut quote n [] default) (hn : ¬ n.LeavesEmpty) :
    LaidOut quote n [] ("CASE WHEN " ++ case ++ " THEN " ++ result ++ " ELSE " ++ default
      ++ " END") := by
  have hsubject : LaidOut quote n [] "" := .words (by decide)
  have h := condition_laid hsubject
    (List.forall_mem_singleton.2 (branch_laid hcase hresult)) hdefault
    ⟨fun h => absurd h (by simp), fun h => absurd h hn⟩
  have htext : "CASE" ++ "" ++ "".intercalate [branch case result] ++ " ELSE "
      ++ default ++ " END"
      = "CASE WHEN " ++ case ++ " THEN " ++ result ++ " ELSE " ++ default ++ " END" := by
    rw [String.append_empty, String.intercalate_singleton, branch, ← String.append_assoc,
      ← String.append_assoc, ← String.append_assoc]
    rfl
  rw [← htext]
  exact h.hide

theorem caseText_complete {config : SqlConfig} {n : Node} {emit : Node → Writing String}
    (hkind : n.kind ∈ [.simpleCase, .searchedCase]) (h : LaysFields config n emit)
    {subject : String} (hsubject : Laid config n subject) :
    Orderly config (Complete config n) (caseText emit n subject) := by
  have hresults : n.kind.validator? "results" = some (.sameLengthAs "cases") := by
    simp only [List.mem_cons, List.not_mem_nil, or_false] at hkind
    rcases hkind with hk | hk <;> rw [hk] <;> rfl
  have hlimit : n.kind ≠ .limit := fun hk => absurd (hk ▸ hkind) (by decide)
  refine .bind (h.sequence "cases") fun cases hcases =>
    .bind (h.sequence "results") fun results hresult => ?_
  refine .bind (h.field "default") fun default hdefault => .pure ?_
  obtain ⟨⟨ms, hms, hlength⟩, hcases⟩ := hcases
  obtain ⟨⟨ks, hks, hlength'⟩, hresult⟩ := hresult
  have hbranches : (List.zipWith branch cases results).length = ms.length := by
    rw [List.length_zipWith, hlength, hlength',
      h.built.length_eq_of_sameLength hresults hks hms, Nat.min_self]
  have hempty : (List.zipWith branch cases results).length = 0 ↔ n.LeavesEmpty := by
    rw [LaysFields.length_eq_zero_iff hms hbranches, Node.leavesEmpty_condition hkind]
  rw [branches_eq]
  refine .of_list .branches
    (condition_laid hsubject (fun b hb => ?_) hdefault hempty) hempty.2 hlimit
  rw [← List.map_uncurry_zip_eq_zipWith] at hb
  obtain ⟨⟨case, result⟩, hpair, rfl⟩ := List.mem_map.1 hb
  exact branch_laid (hcases case (List.of_mem_zip hpair).1)
    (hresult result (List.of_mem_zip hpair).2)

theorem simpleCaseRule_complete {config : SqlConfig} {n : Node}
    {emit : Node → Writing String} (hkind : n.kind = .simpleCase)
    (h : LaysFields config n emit) :
    Orderly config (Complete config n) (simpleCaseRule emit n) :=
  .bind (h.field "base") fun _ hbase => caseText_complete (by rw [hkind]; decide) h
    (.append (.words (by decide)) hbase)

/-! ### Tests -/

theorem betweenRule_lays : LaysText betweenRule := by
  intro config n emit _ h
  refine .bind (h.field "arg") fun arg harg =>
    .bind (h.field "lower_bound") fun lower hlower => ?_
  exact .bind (h.field "upper_bound") fun upper hupper =>
    .pure ((harg.beside (by decide) hlower).beside (by decide) hupper)

theorem membershipRule_complete {config : SqlConfig} {n : Node}
    {emit : Node → Writing String} (hkind : n.kind ∈ [.contains, .notContains])
    (h : LaysFields config n emit) {keyword : String} (hkeyword : IsPlain keyword) :
    Orderly config (Complete config n) (membershipRule keyword emit n) := by
  have hlimit : n.kind ≠ .limit := fun hk => absurd (hk ▸ hkind) (by decide)
  refine .bind (h.field "value") fun value hvalue =>
    .bind (h.sequence "options") fun options hoptions => .pure ?_
  obtain ⟨⟨ms, hms, hlength⟩, hoptions⟩ := hoptions
  have hempty : options.length = 0 ↔ n.LeavesEmpty := by
    rw [LaysFields.length_eq_zero_iff hms hlength, Node.leavesEmpty_membership hkind]
  have hlist :=
    LaidOut.list (.options keyword hkeyword)
      (LaidOut.words (show Unreserved "" by decide)) hoptions hempty
  have htext := (hvalue.append (.words (show Unreserved " " by decide))).append hlist
  refine .of_list (.options keyword hkeyword) ?_ hempty.2 hlimit
  simpa [Listing.opening, Listing.separator, Listing.closing, String.append_assoc]
    using htext

/-! ## Operators -/

theorem floorDivideRule_lays : LaysText floorDivideRule := by
  intro config n emit _ h
  refine .bind (h.field "left") fun left hl =>
    .bind (h.field "right") fun right hr => .pure ?_
  exact (((LaidOut.words (by decide)).append hl).beside (by decide) hr).append
    (.words (by decide))

theorem xorRule_lays : LaysText xorRule := by
  intro config n emit _ h
  refine .bind (h.field "left") fun left hl =>
    .bind (h.field "right") fun right hr => .pure ?_
  have hor : Laid config n ("((" ++ left ++ " OR " ++ right) :=
    ((LaidOut.words (by decide)).append hl).beside (by decide) hr
  exact ((hor.beside (by decide) hl).beside (by decide) hr).append (.words (by decide))

section

variable {config : SqlConfig} {n : Node}

theorem Laid.toList {text? : Option String} (h : ∀ t ∈ text?, Laid config n t) :
    ∀ t ∈ text?.toList, Laid config n t :=
  fun t ht => h t (Option.mem_toList.1 ht)

theorem Laid.pair {a b : String} (ha : Laid config n a) (hb : Laid config n b) :
    ∀ t ∈ [a, b], Laid config n t :=
  List.forall_mem_cons.2 ⟨ha, List.forall_mem_singleton.2 hb⟩

/-- A bound that may be left out. -/
theorem bounded_laid (hn : ¬ n.LeavesEmpty) {name text : String} (hname : IsPlain name)
    (h : Laid config n text) :
    ∀ {bound : Option String}, (∀ t ∈ bound, Laid config n t) →
      Laid config n (match bound with
      | some bound => call name [text, bound]
      | none => text)
  | none, _ => h
  | some bound, hbound => .arguments hname (Laid.pair h (hbound bound rfl))
    (List.cons_ne_nil _ _) hn

end

theorem roundRule_lays : LaysText roundRule := by
  intro config n emit _ h
  refine .bind (h.field "arg") fun arg harg =>
    .bind (h.field? "digits") fun digits hdigits => .pure ?_
  exact .call (by decide) (List.forall_mem_cons.2 ⟨harg, Laid.toList hdigits⟩)

theorem clipRule_lays : LaysText clipRule := by
  intro config n emit hn h
  refine .bind (h.field "arg") fun arg harg =>
    .bind (h.field? "lower") fun lower hlower => ?_
  refine .bind (h.field? "upper") fun upper hupper =>
    .ite (fun _ => .throw _) fun _ => .pure ?_
  have hbelow := bounded_laid hn (show IsPlain "least" by decide) harg hupper
  exact bounded_laid hn (show IsPlain "greatest" by decide) hbelow hlower

theorem logRule_lays : LaysText logRule := by
  intro config n emit _ h
  refine .bind (h.field "arg") fun arg harg => .bind (h.field? "base") fun base hbase => ?_
  cases base with
  | none => exact .pure (.call (by decide) (List.forall_mem_singleton.2 harg))
  | some base => exact .pure (.call (by decide) (Laid.pair (hbase base rfl) harg))

/-- A function that needs arguments may be given none. -/
theorem callOfAll_complete {config : SqlConfig} {n : Node} {emit : Node → Writing String}
    (hkind : n.kind ∈ [.coalesce, .greatest, .least])
    (h : LaysFields config n emit) {name : String} (hname : IsPlain name) :
    Orderly config (Complete config n) (callOfAll name "arg" emit n) := by
  have hlimit : n.kind ≠ .limit := fun hk => absurd (hk ▸ hkind) (by decide)
  refine .bind (h.sequence "arg") fun args hargs => .pure ?_
  obtain ⟨⟨ms, hms, hlength⟩, hargs⟩ := hargs
  have hempty : args.length = 0 ↔ n.LeavesEmpty := by
    rw [LaysFields.length_eq_zero_iff hms hlength, Node.leavesEmpty_variadic hkind]
  have hlist :=
    LaidOut.list (.arguments name hname)
      (LaidOut.words (show Unreserved "" by decide)) hargs hempty
  refine .of_list (.arguments name hname) ?_ hempty.2 hlimit
  simpa [Listing.opening, Listing.separator, Listing.closing, call] using hlist

theorem operatorRules_lay : ∀ x ∈ operatorRules, x.1 ∉ [.coalesce, .greatest, .least] →
    LaysText x.2 := by
  have hbinary : ∀ x ∈ binaryOperators, Unreserved x.2 := by decide
  have hfunctions : ∀ x ∈ binaryFunctions ++ unaryFunctions, Unreserved x.2 := by decide
  have hvariadic : ∀ x ∈ variadicFunctions, x.1 ∉ [NodeKind.coalesce, .greatest, .least] →
    Unreserved x.2 := by decide
  intro x hx hkind
  simp only [operatorRules, List.mem_append, List.mem_map] at hx
  rcases hx with (((⟨y, hy, rfl⟩ | ⟨y, hy, rfl⟩) | ⟨y, hy, rfl⟩) | ⟨y, hy, rfl⟩) | hx
  · exact operator_lays (hbinary y hy)
  · exact callOf_lays (hfunctions y (List.mem_append_left _ hy)) _
  · exact callOf_lays (hfunctions y (List.mem_append_right _ hy)) _
  · exact callOfAll_lays (hvariadic y hy hkind) _
  · simp only [List.mem_cons, List.not_mem_nil, or_false] at hx
    rcases hx with rfl | rfl | rfl | rfl | rfl | rfl | rfl | rfl | rfl | rfl | rfl | rfl
    · exact floorDivideRule_lays
    · exact xorRule_lays
    · exact around_lays (by decide) _ (by decide)
    · exact around_lays (by decide) _ (by decide)
    · exact around_lays (by decide) _ (by decide)
    · exact around_lays (by decide) _ (by decide)
    · exact around_lays (by decide) _ (by decide)
    · exact around_lays (by decide) _ (by decide)
    · exact callOfAll_lays (by decide) _
    · exact roundRule_lays
    · exact clipRule_lays
    · exact logRule_lays

theorem genericRules_lay : ∀ x ∈ genericRules, x.1 ∉ Node.listingKinds → LaysText x.2 := by
  simp only [genericRules, List.forall_mem_cons]
  refine ⟨fun _ => literalRule_lays, fun _ => columnRule_lays,
    fun _ _ _ _ _ h => h.field "arg", fun _ => castRule_lays, fun _ => callOf_arguments
    (by decide) (List.cons_ne_nil _ _), fun _ => callOf_lays (by decide) _,
    fun _ => callOf_lays (by decide) _, fun h => absurd (by decide) h,
    fun h => absurd (by decide) h, fun _ => betweenRule_lays, fun h => absurd (by decide) h,
    fun h => absurd (by decide) h, fun _ hx => absurd hx List.not_mem_nil⟩

/-! ## Reductions -/

theorem filteredArg_laid {config : SqlConfig} {n : Node} {emit : Node → Writing String}
    (hn : ¬ n.LeavesEmpty) (h : LaysFields config n emit) :
    Orderly config (Laid config n) (filteredArg emit n) := by
  refine .bind (h.field "arg") fun arg harg =>
    .bind (h.field? "where") fun condition hcondition => ?_
  cases condition with
  | none => exact .pure harg
  | some condition =>
      refine .pure ?_
      have htext := oneBranch_laid (hcondition condition rfl) harg
        (LaidOut.words (show Unreserved "NULL" by decide)) hn
      simpa [String.append_assoc] using htext

theorem reductionRule_lays {name : String} (hname : Unreserved name) :
    LaysText (reductionRule name) :=
  fun _ _ _ hn h => .bind (filteredArg_laid hn h) fun _ ht =>
    .pure (.call hname (List.forall_mem_singleton.2 ht))

theorem countDistinctRule_lays : LaysText countDistinctRule :=
  fun _ _ _ hn h => .bind (filteredArg_laid hn h) fun _ ht =>
    .pure (.between (by decide) ht (by decide))

theorem countRowsRule_lays : LaysText countRowsRule := by
  intro config n emit hn h
  refine .bind (h.field? "where") fun condition hcondition => ?_
  cases condition with
  | none => exact .pure (.words (by decide))
  | some condition =>
      refine .pure ?_
      have htext := LaidOut.between (show Unreserved "sum(" by decide)
        (oneBranch_laid (hcondition condition rfl)
        (LaidOut.words (show Unreserved "1" by decide))
          (LaidOut.words (show Unreserved "0" by decide)) hn)
        (show Unreserved ")" by decide)
      simp only [String.append_assoc] at htext ⊢
      rw [← String.append_assoc] at htext
      exact htext

theorem deviationRule_lays {name : String}
    (hname : ∀ suffix ∈ ["_pop", "_samp"], Unreserved (name ++ suffix)) :
    LaysText (deviationRule name) := by
  intro config n emit hn h
  refine .lift_bind fun how _ => .bind (filteredArg_laid hn h) fun arg harg => .pure ?_
  refine .call ?_ (List.forall_mem_singleton.2 harg)
  split <;> exact hname _ (by decide)

theorem reductionRules_lay : ∀ x ∈ reductionRules, LaysText x.2 := by
  simp only [reductionRules, List.forall_mem_cons]
  exact ⟨reductionRule_lays (by decide), reductionRule_lays (by decide),
    reductionRule_lays (by decide), reductionRule_lays (by decide),
    reductionRule_lays (by decide), reductionRule_lays (by decide), reductionRule_lays
    (by decide), countDistinctRule_lays, countRowsRule_lays, deviationRule_lays (by decide),
      deviationRule_lays (by decide), fun _ hx => absurd hx List.not_mem_nil⟩

/-! ## Text -/

/-- Positions are counted from zero or from one. -/
theorem unreserved_offset (s : Statement) : Unreserved (toString s.offset) := by
  unfold Statement.offset
  cases s.config.indexOrigin <;> decide

section

variable {config : SqlConfig} {n : Node} {text : String}

theorem shifted_laid (h : Laid config n text) (s : Statement) :
    Laid config n (shifted text s.offset) := by
  unfold shifted
  split
  · exact h
  · exact h.beside (by decide) (.words (unreserved_offset s))

theorem unshifted_laid (h : Laid config n text) (s : Statement) :
    Laid config n (unshifted text s.offset) := by
  unfold unshifted
  split
  · exact h
  · exact h.beside (by decide) (.words (unreserved_offset s))

end

theorem substringRule_lays : LaysText substringRule := by
  intro config n emit _ h
  refine .target_bind fun s _ => .bind (h.field "arg") fun arg harg =>
    .bind (h.field "start") fun start hstart => ?_
  refine .bind (h.field? "length") fun length hlength => .pure (.call (by decide) ?_)
  exact List.forall_mem_append.2
    ⟨Laid.pair harg (shifted_laid hstart s), Laid.toList hlength⟩

theorem searchStart_laid {config : SqlConfig} {n : Node} {emit : Node → Writing String}
    (h : LaysFields config n emit) (s : Statement) :
    Orderly config (fun texts : List String => ∀ t ∈ texts, Laid config n t)
      (searchStart emit n s.offset) := by
  unfold searchStart
  split
  · exact .pure fun _ ht => absurd ht List.not_mem_nil
  · next start _ =>
      refine .pure ?_
      split
      · exact fun _ ht => absurd ht List.not_mem_nil
      · exact List.forall_mem_singleton.2
          (.constant (v := .int64 (start + Int64.ofInt s.offset)) rfl)
  · exact .bind (h.field "start") fun start hstart =>
      .pure (List.forall_mem_singleton.2 (shifted_laid hstart s))

theorem findRule_lays : LaysText findRule := by
  intro config n emit _ h
  refine .ite (fun _ => .throw _) fun _ => .target_bind fun s _ => ?_
  refine .bind (h.field "arg") fun haystack hhaystack =>
    .bind (h.field "substr") fun needle hneedle => ?_
  refine .bind (searchStart_laid h s) fun start hstart =>
    .pure (unshifted_laid (.call (by decide) ?_) s)
  exact List.forall_mem_append.2 ⟨Laid.pair hneedle hhaystack, hstart⟩

theorem findInSetRule_lays : LaysText findInSetRule := by
  intro config n emit _ h
  refine .bind (h.field "needle") fun needle hneedle => .lift_bind fun nodes _ =>
    .lift_bind fun values _ => ?_
  exact .target_bind fun s _ =>
    .pure (unshifted_laid (.call (by decide) (Laid.pair hneedle (.quotedText _))) s)

theorem joinTextsRule_lays : LaysText joinTextsRule := by
  intro config n emit _ h
  refine .bind (h.field "sep") fun separator hseparator =>
    .bind (h.sequence "arg") fun texts htexts => .pure ?_
  exact .call (by decide) (List.forall_mem_cons.2 ⟨hseparator, htexts.2⟩)

theorem likeRule_lays : LaysText likeRule :=
  fun _ _ _ _ h => .bind (h.field "arg") fun _ harg => .bind (h.field "pattern")
    fun _ hpattern =>
    .pure (harg.beside (by decide) hpattern)

theorem startsWithRule_lays : LaysText startsWithRule := by
  intro config n emit _ h
  refine .bind (h.field "arg") fun arg harg =>
    .bind (h.field "start") fun start hstart => .pure ?_
  have hend : ", '%')" = ", " ++ quotedText "%" ++ ")" := by decide
  rw [hend]
  exact (harg.beside (by decide) hstart).append
    (.between (by decide) (.quotedText "%") (by decide))

theorem endsWithRule_lays : LaysText endsWithRule := by
  intro config n emit _ h
  refine .bind (h.field "arg") fun arg harg =>
    .bind (h.field "end") fun suffix hsuffix => .pure ?_
  have hstart : " like concat('%', " = " like concat(" ++ quotedText "%" ++ ", " := by decide
  rw [hstart]
  exact ((harg.append (.between (by decide) (.quotedText "%") (by decide))).append
    hsuffix).append (.words (by decide))

theorem containsTextRule_lays : LaysText containsTextRule :=
  fun _ _ _ _ h => .bind (h.field "haystack") fun _ hhaystack => .bind (h.field "needle")
    fun _ hneedle =>
    .pure ((LaidOut.call (by decide) (Laid.pair hneedle hhaystack)).append
      (.words (by decide)))

theorem parseUrlRule_lays : LaysText parseUrlRule := by
  intro config n emit _ h
  refine .bind (h.field "arg") fun arg harg => .lift_bind fun part _ =>
    .bind (h.field? "key") fun key hkey => ?_
  exact .pure (.call (by decide)
    (List.forall_mem_append.2 ⟨Laid.pair harg (.quotedText part), Laid.toList hkey⟩))

theorem textRules_lay : ∀ x ∈ textRules, LaysText x.2 := by
  have hcalls : ∀ name ∈ ["lower", "upper", "trim", "ltrim", "rtrim", "initcap", "reverse",
    "length", "strright", "replace",
      "regexp_replace", "regexp_like", "regexp_extract", "split", "lpad", "rpad",
      "repeat"], ∀ fields, LaysText (callOf name fields) := by
    intro name hname fields
    refine callOf_lays ?_ fields
    revert name
    decide
  simp only [textRules, List.forall_mem_cons, List.not_mem_nil, false_imp_iff, implies_true,
    and_true] at hcalls ⊢
  simp only [hcalls, substringRule_lays, findRule_lays, findInSetRule_lays,
    joinTextsRule_lays, likeRule_lays, startsWithRule_lays, endsWithRule_lays,
    containsTextRule_lays, parseUrlRule_lays, and_self]

/-! ## Time -/

theorem truncateRule_lays : LaysText truncateRule := by
  intro config n emit _ h
  refine .lift_bind fun code _ => .lift_bind fun unit hunit =>
    .bind (h.field "arg") fun arg harg => .pure ?_
  refine .call (by decide) (Laid.pair (.constant (v := .string unit) ?_) harg)
  unfold truncationUnit at hunit
  split at hunit <;> cases hunit <;> rfl

theorem secondsBetweenRule_lays : LaysText secondsBetweenRule :=
  fun _ _ _ _ h => .bind (h.field "left") fun _ hl => .bind (h.field "right") fun _ hr =>
    .pure ((((LaidOut.words (by decide)).append hl).beside (by decide) hr).append
      (.words (by decide)))

theorem fromUnixRule_lays : LaysText fromUnixRule := by
  intro config n emit _ h
  refine .bind (h.field "arg") fun arg harg => .lift_bind fun unit _ => .pure ?_
  have hdivided {ticks : String} (hticks : Unreserved ticks) :
      Laid config n (call "from_unixtime" [arg ++ " DIV " ++ ticks]) :=
    .call (by decide) (List.forall_mem_singleton.2 (harg.beside (by decide) (.words hticks)))
  split
  · exact .call (by decide) (List.forall_mem_singleton.2 harg)
  · exact hdivided (by decide)
  · exact hdivided (by decide)
  · exact hdivided (by decide)

theorem intervalRule_lays : LaysText intervalRule := by
  intro config n emit _ h
  refine .lift_bind fun code _ => ?_
  cases IntervalUnit.ofCode? code with
  | none => exact .throw _
  | some unit =>
      refine .bind (h.field "arg") fun arg harg => .pure ?_
      have hunit : Unreserved unit.sqlName := by cases unit <;> decide
      exact (LaidOut.between (by decide) harg (by decide)).append (.words hunit)

theorem timeRules_lay : ∀ x ∈ timeRules, LaysText x.2 := by
  have hcalls : ∀ name ∈ ["weekofyear", "dayofyear", "unix_timestamp", "dayname", "to_date",
    "datediff", "date_format",
      "to_timestamp", "make_date", "make_timestamp"],
      ∀ fields, LaysText (callOf name fields) := by
    intro name hname fields
    refine callOf_lays ?_ fields
    revert name
    decide
  have hextractions :
      ∀ name ∈ ["YEAR", "QUARTER", "MONTH", "DAY", "HOUR", "MINUTE", "SECOND"],
          LaysText (extraction name) := by
    intro name hname
    refine around_lays ?_ _ (by decide)
    revert name
    decide
  have hnow : LaysText fun _ _ => return "now()" :=
    fun _ _ _ _ _ => .pure (.words (by decide))
  simp only [timeRules, sharing, List.map_cons, List.map_nil, List.forall_mem_append,
    List.forall_mem_cons, List.not_mem_nil, false_imp_iff, implies_true, and_true]
    at hcalls hextractions ⊢
  have hmillis : LaysText (around "(extract(MILLISECOND FROM " "arg" ") % 1000)") :=
    around_lays (by decide) _ (by decide)
  have hweekday : LaysText (around "pmod(dayofweek(" "arg" ") - 2, 7)") :=
    around_lays (by decide) _ (by decide)
  have hplus : LaysText (operator "+") := operator_lays (by decide)
  have hminus : LaysText (operator "-") := operator_lays (by decide)
  simp only [hcalls, hextractions, hmillis, hweekday, hplus, hminus, hnow,
    secondsBetweenRule_lays, truncateRule_lays, fromUnixRule_lays,
    intervalRule_lays, and_self]

theorem sortKeyRule_lays : LaysText sortKeyRule := by
  intro config n emit _ h
  refine .bind (h.field "expr") fun key hkey => .lift_bind fun ascending _ =>
    .pure (hkey.append (.words ?_))
  split <;> decide

/-! ## All values -/

/-- The rules for values that may list nothing are those of their own kinds. -/
theorem listingRule_complete {config : SqlConfig} {n : Node} {k : NodeKind} {rule : SqlRule}
    {emit : Node → Writing String}
    (hkind : n.kind
      ∈ [.contains, .notContains, .simpleCase, .searchedCase, .coalesce, .greatest, .least])
    (hresolve : rules.resolve n.kind = .ok (k, rule)) (h : LaysFields config n emit) :
    Orderly config (Complete config n) (rule emit n) := by
  simp only [List.mem_cons, List.not_mem_nil, or_false] at hkind
  rcases hkind with hk | hk | hk | hk | hk | hk | hk <;> rw [hk] at hresolve
    <;> cases hresolve
  · exact membershipRule_complete (by rw [hk]; decide) h (by decide)
  · exact membershipRule_complete (by rw [hk]; decide) h (by decide)
  · exact simpleCaseRule_complete hk h
  · exact caseText_complete (by rw [hk]; decide) h (.words (show Unreserved "" by decide))
  · exact callOfAll_complete (by rw [hk]; decide) h (by decide)
  · exact callOfAll_complete (by rw [hk]; decide) h (by decide)
  · exact callOfAll_complete (by rw [hk]; decide) h (by decide)

theorem plainRules_lay : ∀ x ∈ plainRules, x.1 ∉ Node.listingKinds → LaysText x.2 := by
  have hvariadic : [.coalesce, .greatest, .least] ⊆ Node.listingKinds := by decide
  intro x hx hlisting
  simp only [plainRules, List.mem_append, List.mem_singleton] at hx
  rcases hx with ((((hx | hx) | hx) | hx) | hx) | rfl
  · exact genericRules_lay x hx hlisting
  · exact operatorRules_lay x hx fun hk => hlisting (hvariadic hk)
  · exact reductionRules_lay x hx
  · exact textRules_lay x hx
  · exact timeRules_lay x hx
  · exact sortKeyRule_lays

end TypedQuery.Sql
