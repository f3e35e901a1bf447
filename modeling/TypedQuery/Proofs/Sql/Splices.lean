import TypedQuery.Proofs.Sql.Constants
import TypedQuery.Proofs.Sql.Orderly

/-!
# How rules splice operands

`Splices s n p` says that the phrase `p` is the node `n` with its operands where the rule
for its kind means to put them, and the operands of these in turn. It asks nothing of how
tightly they hold together. The text that a rule writes shows the phrase of its node: that
is one lemma for each shape of a rule, and an induction over the walk.
-/

namespace TypedQuery

/-! ## Operands -/

/-- The kinds that put a sign or a word between two operands in brackets. -/
def splicedOperators : List (NodeKind × Sql.Operator) :=
  [(.add, .plus), (.subtract, .minus), (.multiply, .times), (.divide, .slash),
    (.modulus, .percent), (.equals, .equal), (.notEquals, .unequal), (.greater, .greater),
    (.greaterEqual, .atLeast), (.less, .less), (.lessEqual, .atMost), (.and, .and),
    (.or, .or), (.timestampAdd, .plus), (.dateAdd, .plus), (.timestampSub, .minus),
    (.dateSub, .minus), (.intervalSubtract, .minus)]

namespace NodeKind

def operator? (k : NodeKind) : Option Sql.Operator :=
  (splicedOperators.find? (·.1 == k)).map (·.2)

/-- The fields whose texts the rule for the kind puts together. -/
def operandFields : NodeKind → List String
  | floorDivide | power | xor => ["left", "right"]
  | negate | not | isNull | notNull | timestampFromUnix => ["arg"]
  | between => ["arg", "lower_bound", "upper_bound"]
  | contains | notContains => ["value", "options"]
  | stringLike => ["arg", "pattern"]
  | startsWith => ["arg", "start"]
  | endsWith => ["arg", "end"]
  | stringContains => ["haystack", "needle"]
  | stringFind => ["arg", "substr", "start"]
  | findInSet => ["needle"]
  | k => if k.operator?.isSome then ["left", "right"] else []

/-- Constants, columns, arithmetic, comparisons, connectives, and tests and searches of
text. -/
def spliced : List NodeKind :=
  [literal, tableColumn, floorDivide, power, xor, negate, not, isNull, notNull, between,
    contains, notContains, stringLike, startsWith, endsWith, stringContains, stringFind,
    findInSet, timestampFromUnix] ++ splicedOperators.map (·.1)

end NodeKind

namespace Node

/-- The nodes in a field. -/
def nodesAt (n : Node) (field : String) : List Node := ((n.get? field).map Arg.nodes).getD []

/-- The node itself, or a part of an operand. -/
inductive PartOf : Node → Node → Prop
  | self (n : Node) : PartOf n n
  | operand {m k n : Node} {field : String} (hfield : field ∈ n.kind.operandFields)
      (hk : k ∈ n.nodesAt field)
      (h : PartOf m k) : PartOf m n

/-- The node, its operands, and the operands of these in turn are of the kinds above. -/
def Spliced (n : Node) : Prop := ∀ m : Node, m.PartOf n → m.kind ∈ NodeKind.spliced

variable {n m : Node} {field : String}

theorem forall_partOf_iff {P : Node → Prop} : (∀ m : Node, m.PartOf n → P m) ↔
    P n ∧ ∀ field ∈ n.kind.operandFields, ∀ k ∈ n.nodesAt field, ∀ m : Node,
      m.PartOf k → P m := by
  constructor
  · exact fun h => ⟨h n (.self n), fun _ hfield _ hk m hm => h m (.operand hfield hk hm)⟩
  · rintro ⟨hself, hoperands⟩ m hm
    cases hm with
    | self => exact hself
    | operand hfield hk hm => exact hoperands _ hfield _ hk m hm

theorem spliced_iff :
    n.Spliced ↔ n.kind ∈ NodeKind.spliced ∧ ∀ field ∈ n.kind.operandFields,
      ∀ m ∈ n.nodesAt field, m.Spliced :=
  forall_partOf_iff

theorem nodesAt_of_child (h : n.child field = .ok m) : n.nodesAt field = [m] := by
  obtain ⟨a, ha, hm⟩ := fieldAs_eq_ok h
  rw [nodesAt, ha]
  cases a <;> simp only [Arg.node?, Option.some.injEq, reduceCtorEq] at hm
  subst hm
  simp [Arg.nodes]

theorem nodesAt_of_childList {ms : List Node} (h : n.childList field = .ok ms) :
    n.nodesAt field = ms := by
  rcases childList_eq_ok h with ⟨hget, rfl⟩ | hget
  · rw [nodesAt, hget]
    rfl
  · simp [nodesAt, hget, Arg.nodes, nodesOfItems_map_node]

end Node

namespace Sql

theorem mem_of_operator {k : NodeKind} {op : Operator} (h : k.operator? = some op) :
    (k, op) ∈ splicedOperators := by
  obtain ⟨⟨k', op'⟩, hx, heq⟩ := Option.map_eq_some_iff.1 h
  have hk := List.find?_some hx
  cases heq
  rw [← eq_of_beq hk]
  exact List.mem_of_find?_eq_some hx

/-! ## Phrases of nodes -/

/-- A column under the name it has in the statement, with the label of its
table if that is in scope. -/
def Statement.reference (s : Statement) (table : Node) (name : String) : Except Error Atom :=
  (s.labelOf table).map fun label => .name label (s.outputName table name)

/-- A position that is moved from where the statement counts to where expressions count. -/
def positionFound (offset : Int) (p : Phrase) : Phrase :=
  if offset = 0 then p else .binary .minus p (.atom (.number (toString offset)))

/-- The same the other way round. -/
def positionGiven (offset : Int) (p : Phrase) : Phrase :=
  if offset = 0 then p else .binary .plus p (.atom (.number (toString offset)))

/-- Where a search starts that starts at a constant, or nowhere in particular. -/
def fixedStart? (n : Node) (offset : Int) : Option (List Phrase) :=
  match n.optionalLiteral "sql" "start" with
  | .ok none => some []
  | .ok (some (.int64 start)) =>
    some (if start = 0 then [] else
      let position := (start + Int64.ofInt offset).toInt
      [.signed (position < 0) (toString position.natAbs)])
  | _ => none

/-- Ticks of a unit in a second, if there are more than one. -/
def ticksPerSecond? : String → Option String
  | "s" => none
  | "ms" => some "1000"
  | "us" => some "1000000"
  | _ => some "1000000000"

/-- The phrase is the node with its operands in their places. -/
inductive Splices (s : Statement) : Node → Phrase → Prop
  | constant {n : Node} {v : Value} {p : Phrase} (hk : n.kind = .literal)
    (hv : n.literal? = some v) (hp : Sql.constant v = .ok p) : Splices s n p
  | column {n table : Node} {name : String} {a : Atom} (hk : n.kind = .tableColumn)
      (htable : n.child "table" = .ok table)
      (hname : n.stringField "name" = .ok name) (ha : s.reference table name = .ok a) :
        Splices s n (.atom a)
  | operator {n l r : Node} {p q : Phrase} {op : Operator} (hk : n.kind.operator? = some op)
      (hl : n.child "left" = .ok l) (hr : n.child "right" = .ok r) (hp : Splices s l p)
      (hq : Splices s r q) : Splices s n (.paren (.binary op p q))
  | floorDivide {n l r : Node} {p q : Phrase} (hk : n.kind = .floorDivide)
      (hl : n.child "left" = .ok l)
      (hr : n.child "right" = .ok r) (hp : Splices s l p) (hq : Splices s r q) :
      Splices s n (.call "floor" (.chain [.binary .slash p q]))
  | power {n l r : Node} {p q : Phrase} (hk : n.kind = .power) (hl : n.child "left" = .ok l)
      (hr : n.child "right" = .ok r) (hp : Splices s l p) (hq : Splices s r q) :
      Splices s n (.call "pow" (.chain [p, q]))
  | xor {n l r : Node} {p q : Phrase} (hk : n.kind = .xor) (hl : n.child "left" = .ok l)
      (hr : n.child "right" = .ok r) (hp : Splices s l p) (hq : Splices s r q) :
      Splices s n (.paren
        (.binary .and (.paren (.binary .or p q)) (.not (.paren (.binary .and p q)))))
  | negate {n m : Node} {p : Phrase} (hk : n.kind = .negate) (hm : n.child "arg" = .ok m)
    (hp : Splices s m p) :
      Splices s n (.paren (.negate p))
  | not {n m : Node} {p : Phrase} (hk : n.kind = .not) (hm : n.child "arg" = .ok m)
    (hp : Splices s m p) :
      Splices s n (.paren (.not p))
  | isNull {n m : Node} {p : Phrase} (hk : n.kind = .isNull) (hm : n.child "arg" = .ok m)
    (hp : Splices s m p) :
      Splices s n (.null false p)
  | notNull {n m : Node} {p : Phrase} (hk : n.kind = .notNull) (hm : n.child "arg" = .ok m)
    (hp : Splices s m p) :
      Splices s n (.null true p)
  | between {n m lower upper : Node} {p q r : Phrase} (hk : n.kind = .between)
      (hm : n.child "arg" = .ok m) (hl : n.child "lower_bound" = .ok lower)
      (hu : n.child "upper_bound" = .ok upper) (hp : Splices s m p) (hq : Splices s lower q)
      (hr : Splices s upper r) : Splices s n (.between p q r)
  | among {n m : Node} {ms : List Node} {p : Phrase} {ps : List Phrase} (negated : Bool)
      (hk : n.kind = if negated then .notContains else .contains)
      (hm : n.child "value" = .ok m) (hms : n.childList "options" = .ok ms)
      (hp : Splices s m p) (hlength : ms.length = ps.length)
      (hps : ∀ x ∈ ms.zip ps, Splices s x.1 x.2) : Splices s n (.among negated p (.chain ps))
  | like {n m pattern : Node} {p q : Phrase} (hk : n.kind = .stringLike)
      (hm : n.child "arg" = .ok m) (hpattern : n.child "pattern" = .ok pattern)
      (hp : Splices s m p) (hq : Splices s pattern q) : Splices s n (.binary .like p q)
  | startsWith {n m start : Node} {p q : Phrase} (hk : n.kind = .startsWith)
      (hm : n.child "arg" = .ok m)
      (hstart : n.child "start" = .ok start) (hp : Splices s m p) (hq : Splices s start q) :
      Splices s n (.binary .like p (.call "concat" (.chain [q, .atom (.text "%")])))
  | endsWith {n m suffix : Node} {p q : Phrase} (hk : n.kind = .endsWith)
      (hm : n.child "arg" = .ok m)
      (hsuffix : n.child "end" = .ok suffix) (hp : Splices s m p) (hq : Splices s suffix q) :
      Splices s n (.binary .like p (.call "concat" (.chain [.atom (.text "%"), q])))
  | contains {n haystack needle : Node} {p q : Phrase} (hk : n.kind = .stringContains)
      (hhaystack : n.child "haystack" = .ok haystack)
      (hneedle : n.child "needle" = .ok needle) (hp : Splices s haystack p)
      (hq : Splices s needle q) :
      Splices s n (.binary .greater (.call "locate" (.chain [q, p])) (.atom (.number "0")))
  | findFixed {n haystack needle : Node} {p q : Phrase} {start : List Phrase}
      (hk : n.kind = .stringFind) (hhaystack : n.child "arg" = .ok haystack)
      (hneedle : n.child "substr" = .ok needle) (hp : Splices s haystack p)
      (hq : Splices s needle q) (hstart : fixedStart? n s.offset = some start) :
      Splices s n (positionFound s.offset (.call "locate" (.chain ([q, p] ++ start))))
  | findFrom {n haystack needle start : Node} {p q r : Phrase} (hk : n.kind = .stringFind)
      (hhaystack : n.child "arg" = .ok haystack) (hneedle : n.child "substr" = .ok needle)
      (hstart : n.child "start" = .ok start) (hfixed : fixedStart? n s.offset = none)
      (hp : Splices s haystack p) (hq : Splices s needle q) (hr : Splices s start r) :
      Splices s n (positionFound s.offset
        (.call "locate" (.chain ([q, p] ++ [positionGiven s.offset r]))))
  | findInSet {n needle : Node} {nodes : List Node} {values : List String} {q : Phrase}
      (hk : n.kind = .findInSet)
      (hneedle : n.child "needle" = .ok needle) (hnodes : n.childList "values" = .ok nodes)
      (hvalues : constantTexts nodes = .ok values) (hq : Splices s needle q) :
      Splices s n (positionFound s.offset
        (.call "find_in_set" (.chain [q, .atom (.text (",".intercalate values))])))
  | fromUnix {n m : Node} {unit : String} {p : Phrase} (hk : n.kind = .timestampFromUnix)
      (hm : n.child "arg" = .ok m)
      (hunit : n.stringField "unit" = .ok unit) (hp : Splices s m p) :
      Splices s n (.call "from_unixtime" (.chain [match ticksPerSecond? unit with
        | none => p
        | some ticks => .binary .div p (.atom (.number ticks))]))

section

variable {s : Statement} {n : Node} {p q : Phrase}

/-- Phrases of the same nodes are the same, if they are node by node. -/
theorem phrases_unique {ms : List Node} {ps qs : List Phrase} (hp : ms.length = ps.length)
    (hq : ms.length = qs.length) (h : ∀ x ∈ ms.zip ps, ∀ {q}, Splices s x.1 q → x.2 = q)
    (hqs : ∀ x ∈ ms.zip qs, Splices s x.1 x.2) : ps = qs := by
  induction ms generalizing ps qs with
  | nil => rw [List.length_eq_zero_iff.1 hp.symm, List.length_eq_zero_iff.1 hq.symm]
  | cons m ms ih =>
      obtain ⟨p, ps, rfl⟩ := List.exists_cons_of_length_eq_add_one hp.symm
      obtain ⟨q, qs, rfl⟩ := List.exists_cons_of_length_eq_add_one hq.symm
      obtain ⟨hq', hqs⟩ := List.forall_mem_cons.1 hqs
      have hrest : ps = qs := ih (Nat.succ.inj hp) (Nat.succ.inj hq)
        (fun x hx => h x (List.mem_cons_of_mem _ hx)) hqs
      exact congrArg₂ List.cons (h (m, p) List.mem_cons_self hq') hrest

/-- A node has one phrase: its kind says which rule it is for, and its fields what the rule
finds. -/
theorem Splices.unique (h : Splices s n p) (h' : Splices s n q) : p = q := by
  induction h generalizing q with
  | constant hk hv hp =>
      cases h' with
      | constant hk' hv' hp' => grind
      | among negated hk' => cases negated <;> cases hk.symm.trans hk'
      | operator hk' => rw [hk] at hk'; cases hk'
      | _ hk' => cases hk.symm.trans hk'
  | column hk htable hname ha =>
      cases h' with
      | column hk' htable' hname' ha' => grind
      | among negated hk' => cases negated <;> cases hk.symm.trans hk'
      | operator hk' => rw [hk] at hk'; cases hk'
      | _ hk' => cases hk.symm.trans hk'
  | operator hk hl hr hp hq ihp ihq =>
      cases h' with
      | operator hk' hl' hr' hp' hq' => grind
      | among negated hk' => rw [hk'] at hk; cases negated <;> cases hk
      | _ hk' => rw [hk'] at hk; cases hk
  | negate hk hm hp ih | not hk hm hp ih | isNull hk hm hp ih | notNull hk hm hp ih =>
      cases h' with
      | negate hk' hm' hp' | not hk' hm' hp' | isNull hk' hm' hp' | notNull hk' hm' hp' =>
          cases hk.symm.trans hk' <;> grind
      | among negated hk' => cases negated <;> cases hk.symm.trans hk'
      | operator hk' => rw [hk] at hk'; cases hk'
      | _ hk' => cases hk.symm.trans hk'
  | floorDivide hk hl hr hp hq ihp ihq | power hk hl hr hp hq ihp ihq
  | xor hk hl hr hp hq ihp ihq | like hk hl hr hp hq ihp ihq
  | startsWith hk hl hr hp hq ihp ihq | endsWith hk hl hr hp hq ihp ihq
  | contains hk hl hr hp hq ihp ihq =>
      cases h' with
      | floorDivide hk' hl' hr' hp' hq' | power hk' hl' hr' hp' hq' | xor hk' hl' hr' hp' hq'
      | like hk' hl' hr' hp' hq' | startsWith hk' hl' hr' hp' hq'
      | endsWith hk' hl' hr' hp' hq' | contains hk' hl' hr' hp' hq' =>
          cases hk.symm.trans hk' <;> grind
      | among negated hk' => cases negated <;> cases hk.symm.trans hk'
      | operator hk' => rw [hk] at hk'; cases hk'
      | _ hk' => cases hk.symm.trans hk'
  | between hk hm hl hu hp hq hr ihp ihq ihr =>
      cases h' with
      | between hk' hm' hl' hu' hp' hq' hr' => grind
      | among negated hk' => cases negated <;> cases hk.symm.trans hk'
      | operator hk' => rw [hk] at hk'; cases hk'
      | _ hk' => cases hk.symm.trans hk'
  | among negated hk hm hms hp hlength hps ihp ihps =>
      cases h' with
      | among negated' hk' hm' hms' hp' hlength' hps' =>
          obtain rfl := Except.ok.inj (hm.symm.trans hm')
          obtain rfl := Except.ok.inj (hms.symm.trans hms')
          obtain rfl := ihp hp'
          obtain rfl := phrases_unique hlength hlength' ihps hps'
          have hsame : negated = negated' := by
            cases negated <;> cases negated' <;> first | rfl | cases hk.symm.trans hk'
          rw [hsame]
      | operator hk' => rw [hk] at hk'; cases negated <;> cases hk'
      | _ hk' => cases negated <;> cases hk.symm.trans hk'
  | findFixed hk hm hl hp hq hstart ihp ihq =>
      cases h' with
      | findFixed hk' hm' hl' hp' hq' hstart' => grind
      | findFrom hk' hm' hl' hstart' hnone => grind
      | among negated hk' => cases negated <;> cases hk.symm.trans hk'
      | operator hk' => rw [hk] at hk'; cases hk'
      | _ hk' => cases hk.symm.trans hk'
  | findFrom hk hm hl hstart hnone hp hq hr ihp ihq ihr =>
      cases h' with
      | findFixed hk' hm' hl' hp' hq' hstart' => grind
      | findFrom hk' hm' hl' hstart' hnone' hp' hq' hr' => grind
      | among negated hk' => cases negated <;> cases hk.symm.trans hk'
      | operator hk' => rw [hk] at hk'; cases hk'
      | _ hk' => cases hk.symm.trans hk'
  | findInSet hk hm hnodes hvalues hq ih =>
      cases h' with
      | findInSet hk' hm' hnodes' hvalues' hq' => grind
      | among negated hk' => cases negated <;> cases hk.symm.trans hk'
      | operator hk' => rw [hk] at hk'; cases hk'
      | _ hk' => cases hk.symm.trans hk'
  | fromUnix hk hm hunit hp ih =>
      cases h' with
      | fromUnix hk' hm' hunit' hp' => grind
      | among negated hk' => cases negated <;> cases hk.symm.trans hk'
      | operator hk' => rw [hk] at hk'; cases hk'
      | _ hk' => cases hk.symm.trans hk'
end

/-- The text shows a phrase of the node. -/
def SplicedAs (s : Statement) (n : Node) (text : String) : Prop :=
  ∃ p, Splices s n p ∧ Shown s.config.identifierQuote text p

/-! ## Steps -/

variable {s : Statement} {n : Node} {emit : Node → Writing String}

theorem Gives.mono {α : Type} {P Q : α → Prop} {step : Writing α} (h : Gives s P step)
    (hPQ : ∀ a, P a → Q a) :
    Gives s Q step :=
  fun a after hrun => (h a after hrun).imp_right (hPQ a)

/-- Each text belongs to its node. -/
theorem Gives.eachOf {R : Node → String → Prop} {ms : List Node}
    (h : ∀ m ∈ ms, Gives s (R m) (emit m)) :
    Gives s (List.Forall₂ R ms) (Emission.each emit ms) := by
  induction ms with
  | nil => exact .pure .nil
  | cons m rest ih =>
      obtain ⟨hm, hrest⟩ := List.forall_mem_cons.1 h
      exact .bind hm fun text ht => .bind (ih hrest) fun texts hts => .pure (.cons ht hts)

/-- The operands of the node are spliced. -/
def SplicesOperands (s : Statement) (n : Node) (emit : Node → Writing String) : Prop :=
  ∀ field ∈ n.kind.operandFields, ∀ m ∈ n.nodesAt field, Gives s (SplicedAs s m) (emit m)

namespace SplicesOperands

variable {name : String}

theorem field (h : SplicesOperands s n emit) (hname : name ∈ n.kind.operandFields) :
    Gives s (fun text => ∃ m, n.child name = .ok m ∧ SplicedAs s m text)
      (Emission.field emit n name) := by
  refine .lift_bind fun m hm => (h name hname m ?_).mono fun text htext => ⟨m, hm, htext⟩
  rw [Node.nodesAt_of_child hm]
  exact List.mem_singleton_self m

theorem sequence (h : SplicesOperands s n emit) (hname : name ∈ n.kind.operandFields) :
    Gives s (fun texts => ∃ ms,
      n.childList name = .ok ms ∧ List.Forall₂ (SplicedAs s) ms texts)
      (Emission.sequence emit n name) := by
  refine .lift_bind fun ms hms =>
    (Gives.eachOf fun m hm => h name hname m ?_).mono fun texts htexts => ⟨ms, hms, htexts⟩
  rwa [Node.nodesAt_of_childList hms]

end SplicesOperands

/-! ## Constants and columns -/

theorem literalRule_splices (emit : Node → Writing String) (hk : n.kind = .literal) :
    Gives s (SplicedAs s n) (literalRule emit n) := by
  unfold literalRule
  split
  · next v hv =>
      refine .lift fun text htext => ?_
      obtain ⟨p, hp, hshown⟩ := constant_shown htext
      exact ⟨p, .constant hk hv hp, hshown⟩
  · exact .throw _

/-- No keyword begins with the letter of labels. -/
theorem head_of_ofText? {text : String} {k : Keyword} (h : Keyword.ofText? text = some k) :
    text.toList.head? ≠ some 't' := by
  unfold Keyword.ofText? at h
  split at h
  case h_18 => cases h
  all_goals decide

theorem fixed_label (i : Nat) :
    Fixed (Statement.label i ++ ".") [.word (Statement.label i), .sign .dot] := by
  have hlist : (Statement.label i).toList = 't' :: Nat.toDigits 10 i := by
    simp [Statement.label]
  have hword : Lexeme.ofWord (Statement.label i) = .word (Statement.label i) := by
    unfold Lexeme.ofWord
    split
    · next h => exact absurd (by rw [hlist]; rfl) (head_of_ofText? h)
    · rfl
  have hdigits : ∀ c ∈ Nat.toDigits 10 i, Mode.continuesWord c := fun c hc => by
    simp [Mode.continuesWord, Char.isAlphanum, isDigit_toDigits c hc]
  have hdot : (Mode.word ('t' :: Nat.toDigits 10 i)).extended? '.' = none := by
    rw [Mode.extended?, if_neg (by decide)]
  refine ⟨fun quote => ?_, ?_⟩
  · rw [String.toList_append, scan_append, hlist, Lexed.scan_opened (m := .word ['t']) rfl,
      scan_word hdigits]
    have hend : (".").toList = ['.'] := rfl
    simp only [List.singleton_append, List.nil_append, hend]
    rw [scan_anew hdot rfl, ← hlist, String.ofList_toList, hword]
    rfl
  · have hword' : Lexed '\'' _ _ _ := .word (c := 't') rfl hdigits
    have hlabel := hword'.dashes_eq
    rw [← hlist, String.ofList_toList, hword] at hlabel
    rw [String.toList_append, List.count_append, ← hlabel]
    rfl

/-- A column is read under its name, with a label in front of it if there is one. -/
theorem columnRule_splices (emit : Node → Writing String)
    (hquote : Separate s.config.identifierQuote)
    (hlabels : ∀ l ∈ s.scope.labels, ∃ i, l = Statement.label i)
    (hk : n.kind = .tableColumn) :
    Gives s (SplicedAs s n) (columnRule emit n) := by
  refine .target_bind (.lift_bind fun table htable => .lift_bind fun name hname =>
    .lift fun text htext => ?_)
  have hquoted : ∀ column, Lexed s.config.identifierQuote (s.quote column).toList
    [.name column] True := .name hquote
  have hhead : ∀ column, (s.quote column).toList.head? = some s.config.identifierQuote :=
    fun _ => by
    simp [Statement.quote, quoted]
  rw [Statement.column_eq] at htext
  split at htext
  · next hreach =>
      cases htext
      have ha : s.reference table name = .ok (.name none name) := by
        simp [Statement.reference, Statement.labelOf, Statement.outputName,
          hreach, Except.map]
      exact ⟨_, .column hk htable hname ha,
        .of_lexed (hquoted name) (hhead name) (hquote.ne rfl) id⟩
  · next label direct renames hreach =>
      cases htext
      obtain ⟨i, rfl⟩ := hlabels label (Scope.mem_labels hreach)
      have ha : s.reference table name
          = .ok (.name (some (Statement.label i)) (renames.apply name)) := by
        simp [Statement.reference, Statement.labelOf, Statement.outputName, hreach,
          Except.map, Renames.apply]
      refine ⟨_, .column hk htable hname ha, .of_lexed ?_ (s := 't')
        (by simp [Statement.qualified, Statement.label]) (by decide) id⟩
      exact .fixed (fixed_label i) (hquoted _)
  · cases htext

/-! ## Operators -/

theorem operandFields_of_operator {k : NodeKind} {op : Operator}
    (h : k.operator? = some op) :
    k.operandFields = ["left", "right"] := by
  unfold NodeKind.operandFields
  split
  case h_18 => simp [h]
  all_goals cases h

theorem operator_splices {op : Operator} (hk : n.kind.operator? = some op)
    (h : SplicesOperands s n emit) :
    Gives s (SplicedAs s n) (Sql.operator op.symbol emit n) := by
  have hfields := operandFields_of_operator hk
  refine .bind (h.field (by rw [hfields]; decide)) fun left ⟨l, hl, p, hp, hleft⟩ => ?_
  refine .bind (h.field (by rw [hfields]; decide))
    fun right ⟨r, hr, q, hq, hright⟩ => .pure ?_
  refine ⟨_, .operator hk hl hr hp hq, ?_⟩
  simpa only [String.append_assoc] using (hleft.binary op hright).paren

theorem namesFunction_floor : NamesFunction "floor" :=
  ⟨⟨fun _ => rfl, rfl⟩, 'f', rfl, by decide⟩

theorem namesFunction_pow : NamesFunction "pow" := ⟨⟨fun _ => rfl, rfl⟩, 'p', rfl, by decide⟩

theorem floorDivideRule_splices (hk : n.kind = .floorDivide) (h : SplicesOperands s n emit) :
    Gives s (SplicedAs s n) (floorDivideRule emit n) := by
  refine .bind (h.field (by rw [hk]; decide)) fun left ⟨l, hl, p, hp, hleft⟩ => ?_
  refine .bind (h.field (by rw [hk]; decide)) fun right ⟨r, hr, q, hq, hright⟩ => .pure ?_
  refine ⟨_, .floorDivide hk hl hr hp hq, ?_⟩
  have hshown := Shown.call namesFunction_floor (.cons (hleft.binary .slash hright) .nil)
  rw [Sql.call, String.intercalate_singleton] at hshown
  have hopening : "floor" ++ "(" = "floor(" := rfl
  have hslash : " " ++ Operator.slash.symbol ++ " " = " / " := rfl
  simpa only [hopening, hslash, String.append_assoc] using hshown

theorem powerRule_splices (hk : n.kind = .power) (h : SplicesOperands s n emit) :
    Gives s (SplicedAs s n) (callOf "pow" ["left", "right"] emit n) := by
  refine .bind (P := fun texts => ∃ left right, texts = [left, right]
    ∧ (∃ l, n.child "left" = .ok l ∧ SplicedAs s l left)
    ∧ ∃ r, n.child "right" = .ok r ∧ SplicedAs s r right) ?_ ?_
  · refine .bind (h.field (by rw [hk]; decide)) fun left hleft => ?_
    refine .bind (P := fun texts => ∃ right, texts = [right] ∧ ∃ r, n.child "right" = .ok r
      ∧ SplicedAs s r right) ?_ ?_
    · exact .bind (h.field (by rw [hk]; decide)) fun right hright =>
        .pure ⟨right, rfl, hright⟩
    · rintro _ ⟨right, rfl, hright⟩
      exact .pure ⟨left, right, rfl, hleft, hright⟩
  · rintro _ ⟨left, right, rfl, ⟨l, hl, p, hp, hleft⟩, r, hr, q, hq, hright⟩
    exact .pure ⟨_, .power hk hl hr hp hq,
      .call namesFunction_pow (.cons hleft (.cons hright .nil))⟩

theorem xorRule_splices (hk : n.kind = .xor) (h : SplicesOperands s n emit) :
    Gives s (SplicedAs s n) (xorRule emit n) := by
  refine .bind (h.field (by rw [hk]; decide)) fun left ⟨l, hl, p, hp, hleft⟩ => ?_
  refine .bind (h.field (by rw [hk]; decide)) fun right ⟨r, hr, q, hq, hright⟩ => .pure ?_
  refine ⟨_, .xor hk hl hr hp hq, ?_⟩
  have hshown :=
    ((hleft.binary .or hright).paren.binary .and (hleft.binary .and hright).paren.not).paren
  have htext : "(" ++ ("(" ++ (left ++ (" " ++ Operator.or.symbol ++ " ") ++ right) ++ ")"
    ++ (" " ++ Operator.and.symbol ++ " ")
      ++ ("NOT " ++ ("(" ++ (left ++ (" " ++ Operator.and.symbol ++ " ") ++ right) ++ ")")))
      ++ ")"
      = "((" ++ left ++ " OR " ++ right ++ ") AND NOT (" ++ left ++ " AND "
          ++ right ++ "))" := by
    rw [← String.toList_inj]
    simp [Operator.symbol]
  exact htext ▸ hshown

/-- The text of the only operand between two others. -/
theorem around_splices {before after : String} (h : SplicesOperands s n emit)
    (hfield : "arg" ∈ n.kind.operandFields)
    (hsplice : ∀ m p text, n.child "arg" = .ok m → Splices s m p →
      Shown s.config.identifierQuote text p →
      SplicedAs s n (before ++ text ++ after)) :
        Gives s (SplicedAs s n) (around before "arg" after emit n) :=
  .bind (h.field hfield) fun text ⟨m, hm, p, hp, htext⟩ =>
    .pure (hsplice m p text hm hp htext)

theorem negateRule_splices (hk : n.kind = .negate) (h : SplicesOperands s n emit) :
    Gives s (SplicedAs s n) (around "(-" "arg" ")" emit n) := by
  refine around_splices h (by rw [hk]; decide) fun m p text hm hp htext =>
    ⟨_, .negate hk hm hp, ?_⟩
  have hopening : "(" ++ "-" = "(-" := rfl
  simpa only [← String.append_assoc, hopening] using htext.negate.paren

theorem notRule_splices (hk : n.kind = .not) (h : SplicesOperands s n emit) :
    Gives s (SplicedAs s n) (around "(NOT " "arg" ")" emit n) := by
  refine around_splices h (by rw [hk]; decide) fun m p text hm hp htext =>
    ⟨_, .not hk hm hp, ?_⟩
  have hopening : "(" ++ "NOT " = "(NOT " := rfl
  simpa only [← String.append_assoc, hopening] using htext.not.paren

theorem isNullRule_splices (hk : n.kind = .isNull) (h : SplicesOperands s n emit) :
    Gives s (SplicedAs s n) (around "" "arg" " IS NULL" emit n) := by
  refine around_splices h (by rw [hk]; decide) fun m p text hm hp htext =>
    ⟨_, .isNull hk hm hp, ?_⟩
  simpa only [String.empty_append] using htext.null

theorem notNullRule_splices (hk : n.kind = .notNull) (h : SplicesOperands s n emit) :
    Gives s (SplicedAs s n) (around "" "arg" " IS NOT NULL" emit n) := by
  refine around_splices h (by rw [hk]; decide) fun m p text hm hp htext =>
    ⟨_, .notNull hk hm hp, ?_⟩
  simpa only [String.empty_append] using htext.notNull

/-! ## Tests -/

theorem betweenRule_splices (hk : n.kind = .between) (h : SplicesOperands s n emit) :
    Gives s (SplicedAs s n) (betweenRule emit n) := by
  refine .bind (h.field (by rw [hk]; decide)) fun arg ⟨m, hm, p, hp, harg⟩ => ?_
  refine .bind (h.field (by rw [hk]; decide)) fun lower ⟨l, hl, q, hq, hlower⟩ => ?_
  refine .bind (h.field (by rw [hk]; decide)) fun upper ⟨u, hu, r, hr, hupper⟩ => .pure ?_
  exact ⟨_, .between hk hm hl hu hp hq hr, harg.between hlower hupper⟩

/-- Texts and the phrases that they show, node by node. -/
theorem SplicedAs.exists_phrases {ms : List Node} {texts : List String}
    (h : List.Forall₂ (SplicedAs s) ms texts) :
    ∃ ps, ms.length = ps.length ∧ (∀ x ∈ ms.zip ps, Splices s x.1 x.2)
      ∧ List.Forall₂ (Shown s.config.identifierQuote) texts ps := by
  induction h with
  | nil => exact ⟨[], rfl, fun _ hx => absurd hx List.not_mem_nil, .nil⟩
  | cons hm _ ih =>
      obtain ⟨p, hp, htext⟩ := hm
      obtain ⟨ps, hlength, hps, htexts⟩ := ih
      exact ⟨p :: ps, congrArg (· + 1) hlength, List.forall_mem_cons.2 ⟨hp, hps⟩,
        .cons htext htexts⟩

theorem membershipRule_splices {keyword : String} (negated : Bool)
    (hk : n.kind = if negated then .notContains else .contains)
    (hfields : n.kind.operandFields = ["value", "options"])
    (hkeyword : Fixed (" " ++ keyword ++ " (") (Joint.among negated).lexemes)
    (h : SplicesOperands s n emit) :
    Gives s (SplicedAs s n) (membershipRule keyword emit n) := by
  refine .bind (h.field (by rw [hfields]; decide)) fun value ⟨m, hm, p, hp, hvalue⟩ => ?_
  refine .bind (h.sequence (by rw [hfields]; decide))
    fun options ⟨ms, hms, hoptions⟩ => .pure ?_
  obtain ⟨ps, hlength, hps, hshown⟩ := SplicedAs.exists_phrases hoptions
  refine ⟨_, .among negated hk hm hms hp hlength hps, ?_⟩
  have hsep : Separated (" " ++ keyword ++ " (") := ⟨' ', by decide, by simp⟩
  simpa only [String.append_assoc] using hvalue.among hkeyword hsep hshown

theorem likeRule_splices (hk : n.kind = .stringLike) (h : SplicesOperands s n emit) :
    Gives s (SplicedAs s n) (likeRule emit n) := by
  refine .bind (h.field (by rw [hk]; decide)) fun arg ⟨m, hm, p, hp, harg⟩ => ?_
  refine .bind (h.field (by rw [hk]; decide))
    fun pattern ⟨l, hl, q, hq, hpattern⟩ => .pure ?_
  exact ⟨_, .like hk hm hl hp hq, harg.binary .like hpattern⟩

theorem fixed_like : Fixed " like " [Operator.like.lexeme] := ⟨fun _ => rfl, rfl⟩

theorem separated_like : Separated " like " := ⟨' ', by decide, rfl⟩

theorem namesFunction_concat : NamesFunction "concat" :=
  ⟨⟨fun _ => rfl, rfl⟩, 'c', rfl, by decide⟩

theorem namesFunction_locate : NamesFunction "locate" :=
  ⟨⟨fun _ => rfl, rfl⟩, 'l', rfl, by decide⟩

theorem namesFunction_findInSet : NamesFunction "find_in_set" :=
  ⟨⟨fun _ => rfl, rfl⟩, 'f', rfl, by decide⟩

theorem namesFunction_fromUnix : NamesFunction "from_unixtime" :=
  ⟨⟨fun _ => rfl, rfl⟩, 'f', rfl, by decide⟩

/-- Any text stands for a percent sign. -/
theorem shown_wildcard (quote : Char) :
    Shown quote "'%'" (.atom (.text "%")) := .quotedText "%"

theorem startsWithRule_splices (hk : n.kind = .startsWith) (h : SplicesOperands s n emit) :
    Gives s (SplicedAs s n) (startsWithRule emit n) := by
  refine .bind (h.field (by rw [hk]; decide)) fun arg ⟨m, hm, p, hp, harg⟩ => ?_
  refine .bind (h.field (by rw [hk]; decide)) fun start ⟨l, hl, q, hq, hstart⟩ => .pure ?_
  refine ⟨_, .startsWith hk hm hl hp hq, ?_⟩
  have hpattern :=
    Shown.call namesFunction_concat (.cons hstart (.cons (shown_wildcard _) .nil))
  have htext : arg ++ " like " ++ Sql.call "concat" [start, "'%'"]
      = arg ++ " like concat(" ++ start ++ ", '%')" := by
    rw [← String.toList_inj]
    simp [Sql.call]
  exact htext ▸ harg.infixed fixed_like separated_like hpattern

theorem endsWithRule_splices (hk : n.kind = .endsWith) (h : SplicesOperands s n emit) :
    Gives s (SplicedAs s n) (endsWithRule emit n) := by
  refine .bind (h.field (by rw [hk]; decide)) fun arg ⟨m, hm, p, hp, harg⟩ => ?_
  refine .bind (h.field (by rw [hk]; decide)) fun suffix ⟨l, hl, q, hq, hsuffix⟩ => .pure ?_
  refine ⟨_, .endsWith hk hm hl hp hq, ?_⟩
  have hpattern :=
    Shown.call namesFunction_concat (.cons (shown_wildcard _) (.cons hsuffix .nil))
  have htext : arg ++ " like " ++ Sql.call "concat" ["'%'", suffix]
      = arg ++ " like concat('%', " ++ suffix ++ ")" := by
    rw [← String.toList_inj]
    simp [Sql.call]
  exact htext ▸ harg.infixed fixed_like separated_like hpattern

theorem containsTextRule_splices (hk : n.kind = .stringContains)
    (h : SplicesOperands s n emit) :
    Gives s (SplicedAs s n) (containsTextRule emit n) := by
  refine .bind (h.field (by rw [hk]; decide)) fun haystack ⟨m, hm, p, hp, hhaystack⟩ => ?_
  refine .bind (h.field (by rw [hk]; decide)) fun needle ⟨l, hl, q, hq, hneedle⟩ => .pure ?_
  refine ⟨_, .contains hk hm hl hp hq, ?_⟩
  have hlocate := Shown.call namesFunction_locate (.cons hneedle (.cons hhaystack .nil))
  have hzero : Shown s.config.identifierQuote "0" (.atom (.number "0")) :=
    .number ⟨'0', [], rfl, by decide, rfl⟩
  have htext : " " ++ Operator.greater.symbol ++ " " ++ "0" = " > 0" := rfl
  have hshown := hlocate.binary .greater hzero
  rw [String.append_assoc, htext] at hshown
  exact hshown

/-! ## Searches -/

theorem shown_offset (s : Statement) (quote : Char) :
    Shown quote (toString s.offset) (.atom (.number (toString s.offset))) := by
  refine .number ?_
  unfold Statement.offset
  cases s.config.indexOrigin
  · exact ⟨'0', [], rfl, by decide, rfl⟩
  · exact ⟨'1', [], rfl, by decide, rfl⟩

theorem Shown.positionFound {text : String} {p : Phrase}
    (h : Shown s.config.identifierQuote text p) :
    Shown s.config.identifierQuote (unshifted text s.offset)
      (Sql.positionFound s.offset p) := by
  unfold unshifted Sql.positionFound
  split
  · exact h
  · exact h.binary .minus (shown_offset s _)

theorem Shown.positionGiven {text : String} {p : Phrase}
    (h : Shown s.config.identifierQuote text p) :
    Shown s.config.identifierQuote (shifted text s.offset)
      (Sql.positionGiven s.offset p) := by
  unfold shifted Sql.positionGiven
  split
  · exact h
  · exact h.binary .plus (shown_offset s _)

/-- A search starts at a constant, which is moved at once, or at the text of the node. -/
theorem searchStart_splices (hk : n.kind = .stringFind) (h : SplicesOperands s n emit) :
    Gives s (fun texts =>
      (∃ start, fixedStart? n s.offset = some start
        ∧ List.Forall₂ (Shown s.config.identifierQuote) texts start)
      ∨ ∃ m text, fixedStart? n s.offset = none ∧ n.child "start" = .ok m
        ∧ SplicedAs s m text
        ∧ texts = [shifted text s.offset]) (searchStart emit n s.offset) := by
  unfold searchStart
  split
  · next hstart => exact .pure (.inl ⟨[], by rw [fixedStart?, hstart], .nil⟩)
  · next start hstart =>
      refine .pure (.inl ⟨_, by rw [fixedStart?, hstart], ?_⟩)
      split
      · exact .nil
      · exact .cons (.integer _) .nil
  · next hnone hint =>
      refine .bind (h.field (by rw [hk]; decide)) fun text ⟨m, hm, htext⟩ =>
        .pure (.inr ⟨m, text, ?_, hm, htext, rfl⟩)
      unfold fixedStart?
      split
      · next hstart => exact absurd hstart hnone
      · next start hstart => exact absurd hstart (hint start)
      · rfl

theorem findRule_splices (hk : n.kind = .stringFind) (h : SplicesOperands s n emit) :
    Gives s (SplicedAs s n) (findRule emit n) := by
  refine .ite (fun _ => .throw _) fun _ => .target_bind ?_
  refine .bind (h.field (by rw [hk]; decide)) fun haystack ⟨m, hm, p, hp, hhaystack⟩ => ?_
  refine .bind (h.field (by rw [hk]; decide)) fun needle ⟨l, hl, q, hq, hneedle⟩ => ?_
  refine .bind (searchStart_splices hk h) fun start hstart => .pure ?_
  rcases hstart with ⟨phrases, hfixed, hphrases⟩
    | ⟨first, text, hfixed, hfrom, ⟨r, hr, htext⟩, rfl⟩
  · exact ⟨_, .findFixed hk hm hl hp hq hfixed,
      .positionFound (.call namesFunction_locate (.cons hneedle (.cons hhaystack hphrases)))⟩
  · refine ⟨_, .findFrom hk hm hl hfrom hfixed hp hq hr,
      .positionFound (.call namesFunction_locate ?_)⟩
    exact .cons hneedle (.cons hhaystack (.cons htext.positionGiven .nil))

theorem findInSetRule_splices (hk : n.kind = .findInSet) (h : SplicesOperands s n emit) :
    Gives s (SplicedAs s n) (findInSetRule emit n) := by
  refine .bind (h.field (by rw [hk]; decide)) fun needle ⟨m, hm, q, hq, hneedle⟩ => ?_
  refine .lift_bind fun nodes hnodes => .lift_bind fun values hvalues =>
    .target_bind (.pure ?_)
  refine ⟨_, .findInSet hk hm hnodes hvalues hq,
    .positionFound (.call namesFunction_findInSet ?_)⟩
  exact .cons hneedle (.cons (.quotedText _) .nil)

/-! ## Times -/

theorem fromUnixRule_splices (hk : n.kind = .timestampFromUnix)
    (h : SplicesOperands s n emit) :
    Gives s (SplicedAs s n) (fromUnixRule emit n) := by
  refine .bind (h.field (by rw [hk]; decide)) fun arg ⟨m, hm, p, hp, harg⟩ =>
    .lift_bind fun unit hunit => .pure ?_
  refine ⟨_, .fromUnix hk hm hunit hp, ?_⟩
  have hdivided : ∀ ticks, IsNumeral ticks.toList →
      Shown s.config.identifierQuote (Sql.call "from_unixtime" [arg ++ " DIV " ++ ticks])
      (.call "from_unixtime" (.chain [.binary .div p (.atom (.number ticks))])) :=
    fun ticks hticks =>
      .call namesFunction_fromUnix (.cons (harg.binary .div (.number hticks)) .nil)
  split
  · exact .call namesFunction_fromUnix (.cons harg .nil)
  · exact hdivided "1000" ⟨'1', "000".toList, rfl, by decide, by decide⟩
  · exact hdivided "1000000" ⟨'1', "000000".toList, rfl, by decide, by decide⟩
  · next hs hms hus =>
      have hticks : ticksPerSecond? unit = some "1000000000" := by
        unfold ticksPerSecond?
        split
        · exact absurd rfl hs
        · exact absurd rfl hms
        · exact absurd rfl hus
        · rfl
      rw [hticks]
      exact hdivided "1000000000" ⟨'1', "000000000".toList, rfl, by decide, by decide⟩

/-! ## The walk -/

theorem resolve_operator {k : NodeKind} {op : Operator} (h : k.operator? = some op) :
    rules.resolve k = .ok (k, Sql.operator op.symbol) := by
  have hall : ∀ x ∈ splicedOperators,
      rules.resolve x.1 = .ok (x.1, Sql.operator x.2.symbol) := by
    simp only [splicedOperators, List.forall_mem_cons, List.not_mem_nil, false_imp_iff,
      implies_true, and_true]
    exact ⟨rfl, rfl, rfl, rfl, rfl, rfl, rfl, rfl, rfl, rfl, rfl, rfl, rfl, rfl,
      rfl, rfl, rfl, rfl⟩
  exact hall _ (mem_of_operator h)

/-- The rule for a kind splices the operands of its nodes. -/
theorem rule_splices (hquote : Separate s.config.identifierQuote)
    (hlabels : ∀ l ∈ s.scope.labels, ∃ i, l = Statement.label i)
    (hk : n.kind ∈ NodeKind.spliced) (h : SplicesOperands s n emit) {k : NodeKind}
    {rule : SqlRule} (hrule : rules.resolve n.kind = .ok (k, rule)) :
    Gives s (SplicedAs s n) (rule emit n) := by
  rcases List.mem_append.1 hk with hk | hk
  · simp only [List.mem_cons, List.not_mem_nil, or_false] at hk
    rcases hk with hk | hk | hk | hk | hk | hk | hk | hk | hk | hk | hk | hk | hk | hk | hk
      | hk | hk | hk | hk
      <;> rw [hk] at hrule <;> cases hrule
    · exact literalRule_splices emit hk
    · exact columnRule_splices emit hquote hlabels hk
    · exact floorDivideRule_splices hk h
    · exact powerRule_splices hk h
    · exact xorRule_splices hk h
    · exact negateRule_splices hk h
    · exact notRule_splices hk h
    · exact isNullRule_splices hk h
    · exact notNullRule_splices hk h
    · exact betweenRule_splices hk h
    · exact membershipRule_splices false hk (by rw [hk]; rfl) ⟨fun _ => rfl, rfl⟩ h
    · exact membershipRule_splices true hk (by rw [hk]; rfl) ⟨fun _ => rfl, rfl⟩ h
    · exact likeRule_splices hk h
    · exact startsWithRule_splices hk h
    · exact endsWithRule_splices hk h
    · exact containsTextRule_splices hk h
    · exact findRule_splices hk h
    · exact findInSetRule_splices hk h
    · exact fromUnixRule_splices hk h
  · obtain ⟨op, hop⟩ : ∃ op, n.kind.operator? = some op := by
      obtain ⟨x, hx, hkind⟩ := List.mem_map.1 hk
      cases hop : n.kind.operator? with
      | some op => exact ⟨op, rfl⟩
      | none =>
          exact absurd (beq_iff_eq.2 hkind)
            (List.find?_eq_none.1 (Option.map_eq_none_iff.1 hop) x hx)
    rw [resolve_operator hop] at hrule
    cases hrule
    exact operator_splices hop h

/-- The text of a value made of the spliced kinds shows its phrase. -/
theorem emitWithin_splices (hquote : Separate s.config.identifierQuote)
    (hlabels : ∀ l ∈ s.scope.labels, ∃ i, l = Statement.label i)
    (hn : n.Spliced) (depth : Nat) :
    Gives s (SplicedAs s n) (rules.emitWithin depth n) := by
  induction depth generalizing n with
  | zero => exact .throw _
  | succ depth ih =>
      obtain ⟨hkind, hoperands⟩ := Node.spliced_iff.1 hn
      exact .emitWithin fun k rule hrule => rule_splices hquote hlabels hkind
        (fun _ hfield m hm => ih (hoperands _ hfield m hm)) hrule

end Sql

end TypedQuery
