import TypedQuery.Proofs.Memoization
import TypedQuery.Proofs.Sql.Splices

/-!
# Operands in the text of a value

Every rule decides for itself whether to put brackets around its text, and none puts them
around its operands. So an operand is read as one where its text holds together at least as
tightly as its place asks for. The tests have no brackets, and so have the positions found
by a search when the target counts from one; constants below zero begin with a sign. All
else is in brackets, or a call, or a single word. `Node.strength` and `Node.place` say this
of nodes, and an operand that is too weak for its place is exactly what keeps the text of a
value from being read back.
-/

namespace TypedQuery

namespace NodeKind

/-- The kinds that compare without brackets around the comparison. -/
def tests : List NodeKind :=
  [isNull, notNull, between, contains, notContains, stringLike, startsWith,
    endsWith, stringContains]

/-- The kinds that find a position. -/
def searches : List NodeKind := [stringFind, findInSet]

end NodeKind

namespace Node

/-- How tightly the text of a node holds together, in levels of SQL. -/
def strength (offset : Int) (n : Node) : Nat :=
  if n.kind ∈ NodeKind.tests then 5
  else if n.kind ∈ NodeKind.searches ∧ offset ≠ 0 then 6
  else if n.literal?.any Value.isNegative then 8
  else 9

/-- How tightly the operand in a field has to hold together. -/
def place (offset : Int) (n : Node) (field : String) : Nat :=
  match n.kind with
  | .floorDivide => if field = "left" then 7 else 8
  | .xor => if field = "left" then 3 else 4
  -- Two signs in a row begin a comment.
  | .negate => 9
  | .not => 4
  | .isNull | .notNull => 5
  | .between => if field = "arg" then 5 else 6
  | .contains | .notContains => if field = "value" then 5 else 2
  | .stringLike => if field = "arg" then 5 else 6
  | .startsWith | .endsWith => if field = "arg" then 5 else 2
  | .stringFind => if field = "start" ∧ offset ≠ 0 then 6 else 2
  | .timestampFromUnix => if (n.stringField "unit").toOption.bind Sql.ticksPerSecond?
    = none then 2 else 7
  | k => match k.operator? with
    | some op => if field = "left" then op.level else op.level + 1
    | none => 2

/-- An operand of the node is too weak for its place. -/
def Captures (offset : Int) (n : Node) : Prop :=
  ∃ field ∈ n.kind.operandFields, ∃ m ∈ n.nodesAt field,
    m.strength offset < n.place offset field

/-- No part of the node captures anything of an operand. -/
def Free (offset : Int) (n : Node) : Prop := ∀ m : Node, m.PartOf n → ¬ m.Captures offset

variable {n : Node} {offset : Int}

theorem five_le_strength (offset : Int) (n : Node) : 5 ≤ n.strength offset := by
  unfold strength
  split
  · decide
  · split
    · decide
    · split <;> decide

theorem strength_of_test (h : n.kind ∈ NodeKind.tests) : n.strength offset = 5 := if_pos h

theorem literal?_of_ne (h : n.kind ≠ .literal) :
    n.literal? = none := by simp [literal?, isLiteral, h]

theorem strength_of_search (h : n.kind ∈ NodeKind.searches) :
    n.strength offset = if offset = 0 then 9 else 6 := by
  have hkinds : ∀ k ∈ NodeKind.searches, k ∉ NodeKind.tests ∧ k ≠ .literal := by decide
  obtain ⟨htests, hliteral⟩ := hkinds _ h
  rw [strength, if_neg htests, literal?_of_ne hliteral]
  by_cases hzero : offset = 0 <;> simp [h, hzero]

theorem strength_of_literal {v : Value} (hk : n.kind = .literal) (hv : n.literal? = some v) :
    n.strength offset = if v.isNegative then 8 else 9 := by
  have htests : n.kind ∉ NodeKind.tests := by rw [hk]; decide
  have hsearches : n.kind ∉ NodeKind.searches := by rw [hk]; decide
  simp [strength, htests, hsearches, hv]

theorem eight_le_of_literal (hk : n.kind = .literal) : 8 ≤ n.strength offset := by
  have htests : n.kind ∉ NodeKind.tests := by rw [hk]; decide
  have hsearches : n.kind ∉ NodeKind.searches := by rw [hk]; decide
  rw [strength, if_neg htests, if_neg fun h => hsearches h.1]
  split <;> decide

theorem strength_of_other (htests : n.kind ∉ NodeKind.tests)
    (hsearches : n.kind ∉ NodeKind.searches) (hliteral : n.kind ≠ .literal) :
    n.strength offset = 9 := by
  simp [strength, htests, hsearches, literal?_of_ne hliteral]

/-- Operands that are strong enough, and free themselves. -/
theorem free_iff : n.Free offset ↔ ∀ field ∈ n.kind.operandFields, ∀ m ∈ n.nodesAt field,
    n.place offset field ≤ m.strength offset ∧ m.Free offset := by
  have hcaptures : ¬ n.Captures offset ↔
      ∀ field ∈ n.kind.operandFields, ∀ m ∈ n.nodesAt field,
      n.place offset field ≤ m.strength offset := by
    simp only [Captures, not_exists, not_and, Nat.not_lt]
  rw [Free, forall_partOf_iff, hcaptures]
  simp only [forall_and, Free]

/-- Where a constant is looked for, there is one or nothing. -/
theorem literal_of_optionalLiteral {target field : String} {v : Option Value}
    (h : n.optionalLiteral target field = .ok v) :
    ∀ m ∈ n.nodesAt field, m.kind = .literal := by
  unfold optionalLiteral at h
  unfold nodesAt
  split at h
  · next hget => simp [hget]
  · next hget => simp [hget, Arg.nodes]
  · next hget => simp [hget, Arg.nodes]
  · next child hget =>
      split at h
      · next hliteral => simpa [hget, Arg.nodes, isLiteral] using hliteral
      · cases h
  · cases h

theorem spliced_literal (hk : n.kind = .literal) : n.Spliced := by
  rw [spliced_iff, hk]
  exact ⟨List.mem_cons_self, fun _ hfield => absurd hfield List.not_mem_nil⟩

theorem free_literal (hk : n.kind = .literal) : n.Free offset := by
  rw [free_iff, hk]
  exact fun _ hfield => absurd hfield List.not_mem_nil

end Node

namespace Sql

variable {s : Statement} {n : Node} {p : Phrase}

theorem level_positionFound {offset : Int} (h : p.level = 9) :
    (positionFound offset p).level = if offset = 0 then 9 else 6 := by
  unfold positionFound
  split
  · exact h
  · rfl

/-- The phrase of a node is as strong as its text. -/
theorem Splices.level_eq (h : Splices s n p) : p.level = n.strength s.offset := by
  cases h with
  | constant hk hv hp => rw [(constant_level hp).1, Node.strength_of_literal hk hv]
  | operator hk =>
      have hoperators : ∀ k ∈ NodeKind.tests ++ NodeKind.searches ++ [.literal],
        k.operator? = none := by decide
      have hnot : ∀ k ∈ NodeKind.tests ++ NodeKind.searches ++ [.literal], n.kind ≠ k := by
        rintro k hmem rfl
        rw [hoperators _ hmem] at hk
        cases hk
      exact (Node.strength_of_other (fun h => hnot _ (by simp [h]) rfl)
        (fun h => hnot _ (by simp [h]) rfl)
        (hnot .literal (by simp))).symm
  | findFixed hk | findFrom hk | findInSet hk =>
      rw [level_positionFound rfl, Node.strength_of_search (by rw [hk]; decide)]
  | column hk | floorDivide hk | power hk | xor hk | negate hk | not hk | fromUnix hk =>
      exact (Node.strength_of_other (by rw [hk]; decide) (by rw [hk]; decide)
        (by rw [hk]; decide)).symm
  | isNull hk | notNull hk | between hk | like hk | startsWith hk | endsWith hk
  | contains hk =>
      exact (Node.strength_of_test (by rw [hk]; decide)).symm
  | among negated hk =>
      exact (Node.strength_of_test (by rw [hk]; cases negated <;> decide)).symm

/-! ## Reading operands -/

theorem readable_positionFound {offset : Int} (h : p.level = 9) :
    (positionFound offset p).Readable ↔ p.Readable := by
  unfold positionFound
  split
  · exact Iff.rfl
  · rw [Phrase.readable_binary, h]
    simp [Phrase.level, Operator.level]

theorem readable_positionGiven {offset : Int} :
    (positionGiven offset p).Readable ↔ p.Readable ∧ (offset ≠ 0 → 6 ≤ p.level) := by
  unfold positionGiven
  split
  · next h => simp [h]
  · next h => simp [h, Phrase.level, Operator.level]

theorem Splices.five_le_level (h : Splices s n p) :
    5 ≤ p.level := h.level_eq ▸ Node.five_le_strength s.offset n

theorem level_of_operator {k : NodeKind} {op : Operator} (h : k.operator? = some op) :
    2 ≤ op.level := by
  have hlevels : ∀ x ∈ splicedOperators, 2 ≤ x.2.level := by decide
  exact hlevels _ (mem_of_operator h)

theorem place_of_operator {op : Operator} (h : n.kind.operator? = some op) (offset : Int) :
    n.place offset "left" = op.level ∧ n.place offset "right" = op.level + 1 := by
  unfold Node.place
  split
  case h_15 => simp [h]
  all_goals
    rename_i hk
    rw [hk] at h
    cases h

section

variable {m m₁ m₂ m₃ : Node} {p p₁ p₂ p₃ : Phrase} {field field₁ field₂ field₃ : String}

/-- What a node with one operand asks for. -/
theorem free_iff_of_one (hfields : n.kind.operandFields = [field])
    (hm : n.child field = .ok m) (h : Splices s m p) (ih : p.Readable ↔ m.Free s.offset) :
    n.Free s.offset ↔ n.place s.offset field ≤ p.level ∧ p.Readable := by
  simp [Node.free_iff (n := n), hfields, Node.nodesAt_of_child hm, ih, h.level_eq]

theorem free_iff_of_two (hfields : n.kind.operandFields = [field₁, field₂])
    (hm₁ : n.child field₁ = .ok m₁) (hm₂ : n.child field₂ = .ok m₂) (h₁ : Splices s m₁ p₁)
    (h₂ : Splices s m₂ p₂) (ih₁ : p₁.Readable ↔ m₁.Free s.offset)
    (ih₂ : p₂.Readable ↔ m₂.Free s.offset) :
    n.Free s.offset ↔ (n.place s.offset field₁ ≤ p₁.level ∧ p₁.Readable)
      ∧ n.place s.offset field₂ ≤ p₂.level ∧ p₂.Readable := by
  simp [Node.free_iff (n := n), hfields, Node.nodesAt_of_child hm₁,
    Node.nodesAt_of_child hm₂, ih₁, ih₂, h₁.level_eq, h₂.level_eq]

theorem free_iff_of_three (hfields : n.kind.operandFields = [field₁, field₂, field₃])
    (hm₁ : n.child field₁ = .ok m₁) (hm₂ : n.child field₂ = .ok m₂)
    (hm₃ : n.child field₃ = .ok m₃) (h₁ : Splices s m₁ p₁) (h₂ : Splices s m₂ p₂)
    (h₃ : Splices s m₃ p₃) (ih₁ : p₁.Readable ↔ m₁.Free s.offset)
    (ih₂ : p₂.Readable ↔ m₂.Free s.offset) (ih₃ : p₃.Readable ↔ m₃.Free s.offset) :
    n.Free s.offset ↔ (n.place s.offset field₁ ≤ p₁.level ∧ p₁.Readable)
      ∧ (n.place s.offset field₂ ≤ p₂.level ∧ p₂.Readable)
      ∧ n.place s.offset field₃ ≤ p₃.level ∧ p₃.Readable := by
  simp [Node.free_iff (n := n), hfields, Node.nodesAt_of_child hm₁,
    Node.nodesAt_of_child hm₂, Node.nodesAt_of_child hm₃, ih₁, ih₂, ih₃, h₁.level_eq,
    h₂.level_eq, h₃.level_eq]

end

/-- Items of a list, all of them strong enough for the commas. -/
theorem readable_items {function : String} {ps : List Phrase} (h : ∀ p ∈ ps, 5 ≤ p.level) :
    (Phrase.call function (.chain ps)).Readable ↔ ∀ p ∈ ps, p.Readable :=
  Phrase.readable_call.trans (Phrase.readable_chain fun p hp =>
    Nat.le_trans (by decide) (h p hp))

theorem five_le_positionGiven {offset : Int} (h : 5 ≤ p.level) :
    5 ≤ (positionGiven offset p).level := by
  unfold positionGiven
  split
  · exact h
  · exact Nat.le_succ 5

/-- The options of a test for membership, node by node. -/
theorem readable_options {ms : List Node} {ps : List Phrase}
    (hlength : ms.length = ps.length) (hps : ∀ x ∈ ms.zip ps, Splices s x.1 x.2)
    (ih : ∀ x ∈ ms.zip ps, x.2.Readable ↔ x.1.Free s.offset) :
    (∀ p ∈ ps, 2 ≤ p.level) ∧ ((∀ p ∈ ps, p.Readable) ↔ ∀ m ∈ ms, m.Free s.offset) := by
  induction ms generalizing ps with
  | nil =>
      obtain rfl := List.length_eq_zero_iff.1 hlength.symm
      simp
  | cons m ms ih' =>
      obtain ⟨p, ps, rfl⟩ := List.exists_cons_of_length_eq_add_one hlength.symm
      obtain ⟨hp, hps⟩ := List.forall_mem_cons.1 hps
      obtain ⟨hm, ih⟩ := List.forall_mem_cons.1 ih
      obtain ⟨hlevels, hreadable⟩ := ih' (Nat.succ.inj hlength) hps ih
      refine ⟨List.forall_mem_cons.2
        ⟨Nat.le_trans (by decide) hp.five_le_level, hlevels⟩, ?_⟩
      rw [List.forall_mem_cons, List.forall_mem_cons, hm, hreadable]

/-- Where a search starts at a constant, both the constant and what is written for it are
readable. -/
theorem fixedStart_constant {offset : Int} {start : List Phrase}
    (h : fixedStart? n offset = some start) :
    (∀ p ∈ start, p.Readable ∧ 5 ≤ p.level)
      ∧ ∀ m ∈ n.nodesAt "start", m.kind = .literal := by
  unfold fixedStart? at h
  split at h
  · next hstart =>
      cases h
      exact ⟨fun _ hp => absurd hp List.not_mem_nil, Node.literal_of_optionalLiteral hstart⟩
  · next hstart =>
      cases h
      refine ⟨fun p hp => ?_, Node.literal_of_optionalLiteral hstart⟩
      split at hp
      · exact absurd hp List.not_mem_nil
      · rw [List.mem_singleton.1 hp, Phrase.level_signed]
        exact ⟨Phrase.readable_signed _ _, by split <;> decide⟩
  · cases h

/-- A phrase is readable if and only if the node is free. -/
theorem Splices.readable_iff (h : Splices s n p) : p.Readable ↔ n.Free s.offset := by
  induction h with
  | constant hk hv hp => exact iff_of_true (constant_level hp).2 (Node.free_literal hk)
  | column hk =>
      rw [Node.free_iff, hk]
      exact iff_of_true (Phrase.readable_atom _) fun _ hfield =>
        absurd hfield List.not_mem_nil
  | operator hk hl hr hp hq ihp ihq =>
      have hlevel := level_of_operator hk
      obtain ⟨hleft, hright⟩ := place_of_operator hk s.offset
      rw [free_iff_of_two (operandFields_of_operator hk) hl hr hp hq ihp ihq, hleft, hright,
        Phrase.readable_paren, Phrase.readable_binary, Phrase.level]
      grind
  | floorDivide hk hl hr hp hq ihp ihq =>
      rw [free_iff_of_two (by rw [hk]; rfl) hl hr hp hq ihp ihq, Phrase.readable_call]
      simp only [Node.place, hk, Phrase.chain, List.foldl_nil,
        Phrase.readable_binary, Operator.level]
      grind
  | power hk hl hr hp hq ihp ihq =>
      have hp5 := hp.five_le_level
      have hq5 := hq.five_le_level
      rw [free_iff_of_two (by rw [hk]; rfl) hl hr hp hq ihp ihq,
        readable_items (by simp [hp5, hq5])]
      simp [Node.place, hk, NodeKind.operator?, splicedOperators]
      grind
  | xor hk hl hr hp hq ihp ihq =>
      have hor : Operator.or.level = 2 := rfl
      have hand : Operator.and.level = 3 := rfl
      rw [free_iff_of_two (by rw [hk]; rfl) hl hr hp hq ihp ihq]
      simp [Node.place, hk, hor, hand]
      grind
  | negate hk hm hp ih | not hk hm hp ih =>
      rw [free_iff_of_one (by rw [hk]; rfl) hm hp ih]
      simp [Node.place, hk, and_comm]
  | isNull hk hm hp ih | notNull hk hm hp ih =>
      rw [free_iff_of_one (by rw [hk]; rfl) hm hp ih]
      simp [Node.place, hk, and_comm]
  | between hk hm hl hu hp hq hr ihp ihq ihr =>
      rw [free_iff_of_three (by rw [hk]; rfl) hm hl hu hp hq hr ihp ihq ihr]
      simp [Node.place, hk]
      grind
  | like hk hm hl hp hq ihp ihq =>
      have hlike : Operator.like.level = 5 := rfl
      rw [free_iff_of_two (by rw [hk]; rfl) hm hl hp hq ihp ihq]
      simp [Node.place, hk, hlike]
      grind
  | startsWith hk hm hl hp hq ihp ihq =>
      have hlike : Operator.like.level = 5 := rfl
      have hq5 := hq.five_le_level
      rw [free_iff_of_two (by rw [hk]; rfl) hm hl hp hq ihp ihq, Phrase.readable_binary,
        readable_items (by simp [hq5])]
      simp [Node.place, hk, hlike]
      grind
  | endsWith hk hm hl hp hq ihp ihq =>
      have hlike : Operator.like.level = 5 := rfl
      have hq5 := hq.five_le_level
      rw [free_iff_of_two (by rw [hk]; rfl) hm hl hp hq ihp ihq, Phrase.readable_binary,
        readable_items (by simp [hq5])]
      simp [Node.place, hk, hlike]
      grind
  | contains hk hm hl hp hq ihp ihq =>
      have hgreater : Operator.greater.level = 5 := rfl
      have hp5 := hp.five_le_level
      have hq5 := hq.five_le_level
      rw [free_iff_of_two (by rw [hk]; rfl) hm hl hp hq ihp ihq, Phrase.readable_binary,
        readable_items (by simp [hp5, hq5])]
      simp [Node.place, hk, hgreater, NodeKind.operator?, splicedOperators]
      grind
  | findInSet hk hm hnodes hvalues hq ih =>
      have hq5 := hq.five_le_level
      rw [free_iff_of_one (by rw [hk]; rfl) hm hq ih, readable_positionFound rfl,
        readable_items (by simp [hq5])]
      simp [Node.place, hk, NodeKind.operator?, splicedOperators]
      grind
  | fromUnix hk hm hunit hp ih =>
      have hdiv : Operator.div.level = 7 := rfl
      have hp5 := hp.five_le_level
      rw [free_iff_of_one (by rw [hk]; rfl) hm hp ih]
      cases hticks : ticksPerSecond? _ with
      | none =>
          rw [readable_items (by simp [hp5])]
          simp [Node.place, hk, hunit, Except.toOption, hticks]
          grind
      | some ticks =>
          rw [readable_items (by simp [hdiv])]
          simp [Node.place, hk, hunit, Except.toOption, hticks, hdiv, and_comm]
  | @among n m ms p ps negated hk hm hms hp hlength hps ihp ihps =>
      have hfields : n.kind.operandFields = ["value", "options"] := by
        cases negated <;> (rw [hk]; rfl)
      have hplace : n.place s.offset "value" = 5 ∧ n.place s.offset "options" = 2 := by
        cases negated <;> simp [Node.place, hk]
      have hstrong : ∀ m ∈ ms, 2 ≤ m.strength s.offset := fun m _ =>
        Nat.le_trans (by decide) (m.five_le_strength s.offset)
      obtain ⟨hlevels, hreadable⟩ := readable_options hlength hps ihps
      rw [Phrase.readable_among, Phrase.readable_chain hlevels, hreadable,
        Node.free_iff, hfields]
      simp only [List.forall_mem_cons, Node.nodesAt_of_child hm,
        Node.nodesAt_of_childList hms, hplace, ← ihp, ← hp.level_eq]
      grind
  | @findFixed n haystack needle p q start hk hm hl hp hq hstart ihp ihq =>
      have hp5 := hp.five_le_level
      have hq5 := hq.five_le_level
      obtain ⟨hphrases, hconstants⟩ := fixedStart_constant hstart
      have hitems : ∀ r ∈ [q, p] ++ start, 5 ≤ r.level :=
        List.forall_mem_append.2 ⟨by simp [hp5, hq5], fun r hr => (hphrases r hr).2⟩
      have hplace : ∀ field, n.place s.offset field ≤ 6 := fun field => by
        simp only [Node.place, hk]
        split <;> decide
      have hfixed : ∀ m ∈ n.nodesAt "start", n.place s.offset "start" ≤ m.strength s.offset
        ∧ m.Free s.offset := fun m hm =>
        ⟨Nat.le_trans (hplace _)
          (Nat.le_trans (by decide) (Node.eight_le_of_literal (hconstants m hm))),
          Node.free_literal (hconstants m hm)⟩
      have hother : n.place s.offset "arg" = 2 ∧ n.place s.offset "substr" = 2 := by
        simp [Node.place, hk]
      have hfields : n.kind.operandFields = ["arg", "substr", "start"] := by rw [hk]; rfl
      rw [readable_positionFound rfl, readable_items hitems, Node.free_iff, hfields]
      simp only [List.forall_mem_append, List.forall_mem_cons, Node.nodesAt_of_child hm,
        Node.nodesAt_of_child hl, hother, ← ihp, ← ihq, ← hp.level_eq, ← hq.level_eq]
      grind
  | findFrom hk hm hl hstart hfixed hp hq hr ihp ihq ihr =>
      have hp5 := hp.five_le_level
      have hq5 := hq.five_le_level
      have hr5 := hr.five_le_level
      rw [free_iff_of_three (by rw [hk]; rfl) hm hl hstart hp hq hr ihp ihq ihr,
        readable_positionFound rfl,
        readable_items (by simp [hp5, hq5, five_le_positionGiven hr5])]
      simp [Node.place, hk, readable_positionGiven]
      grind

end Sql

/-! ## Texts that are read back -/

/-- The text of a value has one phrase that puts the operands in their places, and this is
how the text is read if and only if no operand in it is too weak for its place. -/
theorem operand_splicing {n : Node} (h : n.Built) {config : Config}
    (hquote : Sql.Separate config.sql.identifierQuote) (hspliced : n.Spliced)
    {text : String} (htext : Sql.compile config n = .ok text) :
    ∃ p, (∀ q, Sql.Splices { config := config.sql } n q ↔ q = p)
      ∧ (Sql.Phrase.read? config.sql.identifierQuote text = some p
        ↔ n.Free config.sql.indexOrigin.offset) := by
  have hplain := (Sql.compile_memoizing_false h config).trans htext
  have hlabels : ∀ l ∈ ({ config := config.sql } : Sql.Statement).scope.labels, ∃ i,
      l = Sql.Statement.label i :=
    fun _ hl => absurd hl List.not_mem_nil
  obtain ⟨-, p, hp, hshown⟩ :=
    Sql.emitWithin_splices hquote hlabels hspliced n.depth text _ (Prod.ext hplain rfl)
  refine ⟨p, fun q => ⟨fun hq => hq.unique hp, fun heq => heq ▸ hp⟩, ?_⟩
  rw [hshown.read?_eq_some_iff (Nat.le_trans (by decide) hp.five_le_level)]
  exact hp.readable_iff

/-- A sign may follow another after a blank, and tests bind no tighter than what stands in
them. -/
theorem operand_splicing_between :
    ∃ difference between : Node,
      Node.build .subtract [.value (.int64 1), .value (.int64 (-5))] [] = .ok difference
        ∧ Node.build .between [.node difference, .value (.int64 (-5)), .value (.int64 5)]
          [] = .ok between
        ∧ Sql.compile {} between = .ok "(1 - -5) BETWEEN -5 AND 5"
        ∧ ∃ p, Sql.Splices { config := {} } between p
          ∧ Sql.Phrase.read? '\x60' "(1 - -5) BETWEEN -5 AND 5" = some p := by
  obtain ⟨difference, between, hdifference, hbetween, htext, hdkind, hbkind, hdoperands,
    hbstrong, hboperands⟩ :
      ∃ difference between : Node,
        Node.build .subtract [.value (.int64 1), .value (.int64 (-5))] [] = .ok difference
          ∧ Node.build .between [.node difference, .value (.int64 (-5)), .value (.int64 5)]
          [] = .ok between
          ∧ Sql.compile {} between = .ok "(1 - -5) BETWEEN -5 AND 5"
          ∧ difference.kind ∈ NodeKind.spliced ∧ between.kind ∈ NodeKind.spliced
          ∧ (∀ field ∈ difference.kind.operandFields, ∀ m ∈ difference.nodesAt field,
              difference.place 1 field ≤ m.strength 1 ∧ m.kind = .literal)
          ∧ (∀ field ∈ between.kind.operandFields, ∀ m ∈ between.nodesAt field,
            between.place 1 field ≤ m.strength 1)
          ∧ between.kind.operandFields.flatMap between.nodesAt
              = [difference, .literal (.int64 (-5)), .literal (.int64 5)] := by
    refine ⟨_, _, rfl, rfl, ?_, ?_, ?_, ?_, ?_, rfl⟩
      <;> set_option maxRecDepth 2000 in with_unfolding_all decide
  have hd : difference.Spliced ∧ difference.Free 1 :=
    ⟨Node.spliced_iff.2
      ⟨hdkind, fun _ hfield m hm => Node.spliced_literal (hdoperands _ hfield m hm).2⟩,
      Node.free_iff.2 fun _ hfield m hm =>
        ⟨(hdoperands _ hfield m hm).1, Node.free_literal (hdoperands _ hfield m hm).2⟩⟩
  have hparts : ∀ field ∈ between.kind.operandFields, ∀ m ∈ between.nodesAt field,
      m.Spliced ∧ m.Free 1 := by
    intro field hfield m hm
    have hmem := List.mem_flatMap.2 ⟨field, hfield, hm⟩
    rw [hboperands] at hmem
    simp only [List.mem_cons, List.not_mem_nil, or_false] at hmem
    rcases hmem with rfl | rfl | rfl
    · exact hd
    all_goals exact ⟨Node.spliced_literal rfl, Node.free_literal rfl⟩
  have hspliced : between.Spliced :=
    Node.spliced_iff.2 ⟨hbkind, fun _ hfield m hm => (hparts _ hfield m hm).1⟩
  have hfree : between.Free 1 :=
    Node.free_iff.2 fun _ hfield m hm => ⟨hbstrong _ hfield m hm, (hparts _ hfield m hm).2⟩
  have hdbuilt : difference.Built :=
    .of_build hdifference (by simp [Arg.nodes, Arg.nodesOfItems])
      (by simp [Arg.nodesOfFields])
  have hbuilt : between.Built :=
    .of_build hbetween (by simpa [Arg.nodes, Arg.nodesOfItems] using hdbuilt)
      (by simp [Arg.nodesOfFields])
  obtain ⟨p, hp, hread⟩ :=
    operand_splicing hbuilt
      (show Sql.Separate ({} : Config).sql.identifierQuote from rfl) hspliced htext
  exact ⟨difference, between, hdifference, hbetween, htext, p, (hp p).2 rfl, hread.2 hfree⟩

/-- A constant below zero after a sign begins a comment, a test takes the operand that
stands in front of it, and what is subtracted from a position is multiplied first. -/
theorem operand_splicing_captured :
    ∃ negated tested equal found product : Node,
      Node.build .negate [.value (.int64 (-5))] [] = .ok negated
        ∧ Sql.compile {} negated = .ok "(--5)" ∧ Sql.Phrase.read? '\x60' "(--5)" = none
        ∧ Node.build .isNull [.value (.int64 5)] [] = .ok tested
        ∧ Node.build .equals [.value (.bool true), .node tested] [] = .ok equal
        ∧ Sql.compile {} equal = .ok "(TRUE = 5 IS NULL)"
        ∧ Sql.Phrase.read? '\x60' "(TRUE = 5 IS NULL)"
          = some (.paren
            (.null false (.binary .equal (.atom (.truth true)) (.atom (.number "5")))))
        ∧ Node.build .stringFind [.value (.string "abc"), .value (.string "b")] []
          = .ok found
        ∧ Node.build .multiply [.node found, .value (.int64 2)] [] = .ok product
        ∧ Sql.compile {} product = .ok "(locate('b', 'abc') - 1 * 2)"
        ∧ Sql.Phrase.read? '\x60' "(locate('b', 'abc') - 1 * 2)"
          = some (.paren
            (.binary .minus
              (.call "locate" (.chain [.atom (.text "b"), .atom (.text "abc")]))
                (.binary .times (.atom (.number "1")) (.atom (.number "2"))))) := by
  refine ⟨_, _, _, _, _, rfl, ?_, ?_, rfl, rfl, ?_, ?_, rfl, rfl, ?_, ?_⟩
    <;> set_option maxRecDepth 2000 in with_unfolding_all decide

end TypedQuery
