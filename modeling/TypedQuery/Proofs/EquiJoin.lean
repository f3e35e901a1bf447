import Mathlib.Data.List.Zip
import TypedQuery.Proofs.Engine.Preserved
import TypedQuery.Proofs.Engine.References
import TypedQuery.Proofs.Node.Calls
import TypedQuery.Proofs.Plan.Keys

/-!
# Rows that a join pairs

An equality predicate holds of two rows if their keys are equal in their common type. A
join converts the key of one side to the type of the other: a left key keeps its type,
except in a right join, where the right one does. So a join pairs by its predicates
only where the type that is kept is the common type of both. Elsewhere it also pairs
rows of which the predicate doesn't hold: beside a whole number a fraction is dropped,
beside a date the time of day.
-/

namespace TypedQuery

def NodeKind.joins : List NodeKind :=
  [innerJoin, leftJoin, rightJoin, outerJoin, leftSemiJoin, leftAntiJoin]

namespace Batch

/-- What a join makes of the pairs that it found. -/
def joined (kind : JoinKind) (left right : Batch) (pairs : List Join.RowPair) : Batch :=
  if kind = .semi ∨ kind = .anti then left.gather (pairs.map (·.1))
    else left.paired right pairs

theorem join_eq_joined (left right : Batch) (leftKeys rightKeys : List Expr)
    (kind : JoinKind) (nullsMatch : Bool) :
    left.join right leftKeys rightKeys kind Rules.rightMark nullsMatch
      = (left.pairing right leftKeys rightKeys kind nullsMatch).map
        (left.joined kind right) := by
  by_cases hkind : kind = .semi ∨ kind = .anti
  · have hchosen : (decide (kind = .semi) || decide (kind = .anti)) = true := by
      simpa using hkind
    have hjoined : left.joined kind right = fun pairs => left.gather (pairs.map (·.1)) := by
      funext pairs
      rw [joined, if_pos hkind]
    rw [hjoined]
    unfold join pairing
    split
    · rfl
    · cases left.computeKeys leftKeys with
      | error e => rfl
      | ok ls =>
          cases right.computeKeys rightKeys with
          | error e => rfl
          | ok rs =>
              simp only [bind, Except.bind]
              cases Join.convertKeys ls rs <;> rfl
  · have hjoined : left.joined kind right = left.paired right := by
      funext pairs
      rw [joined, if_neg hkind]
    rw [hjoined]
    exact join_eq left right leftKeys rightKeys kind nullsMatch (not_or.1 hkind)

end Batch

namespace Engine

/-! ## Keys -/

/-- The values of the two sides of an equality, and what they are compiled to. -/
def KeyExprs (clock : Clock) (left right predicate : Node) (k : Expr × Expr) : Prop :=
  ∃ l r, joinSides left right predicate = .ok (l, r) ∧ rules.answer clock l = .ok (.expr k.1)
    ∧ rules.answer clock r = .ok (.expr k.2)

/-- The columns that both sides of an equality are computed to, that of the left table
first. -/
def KeyColumns (clock : Clock) (left right : Node) (lb rb : Batch) (predicate : Node)
    (k : Column × Column) : Prop :=
  ∃ e, KeyExprs clock left right predicate e ∧ lb.compute lb.rows e.1 = .ok k.1
    ∧ rb.compute rb.rows e.2 = .ok k.2

theorem joinKeyPairs_eq_ok {clock : Clock} {left right : Node} {predicates : List Node}
    {keys : List (Expr × Expr)} {s after : Session Clock Lowered}
    (h : (joinKeyPairs (lowered clock) left right predicates).run s = (.ok keys, after)) :
    List.Forall₂ (KeyExprs clock left right) predicates keys := by
  induction predicates generalizing keys s after with
  | nil =>
      cases h
      exact .nil
  | cons predicate rest ih =>
      obtain ⟨⟨l, r⟩, hsides, h⟩ := Emission.run_lift_bind_eq_ok h
      obtain ⟨le, _, hle, h⟩ := Emission.run_bind_eq_ok h
      obtain ⟨re, _, hre, h⟩ := Emission.run_bind_eq_ok h
      obtain ⟨more, _, hmore, h⟩ := Emission.run_bind_eq_ok h
      cases h
      exact .cons ⟨l, r, hsides, run_exprOf_eq_ok hle, run_exprOf_eq_ok hre⟩ (ih hmore)

theorem keysOf_eq_ok {clock : Clock} {n left right : Node} {keys : List (Expr × Expr)}
    (hleft : n.child "left" = .ok left)
    (hright : n.child "right" = .ok right) (h : keysOf clock n = .ok keys) :
    ∃ predicates, n.childList "predicates" = .ok predicates
      ∧ List.Forall₂ (KeyExprs clock left right) predicates keys := by
  obtain ⟨after, hrun⟩ : ∃ after,
      (joinKeys (lowered clock) n).run ⟨clock, none⟩ = (.ok keys, after) :=
    ⟨_, Prod.ext h rfl⟩
  obtain ⟨left', hleft', hrun⟩ := Emission.run_lift_bind_eq_ok hrun
  cases hleft.symm.trans hleft'
  obtain ⟨right', hright', hrun⟩ := Emission.run_lift_bind_eq_ok hrun
  cases hright.symm.trans hright'
  obtain ⟨predicates, hpredicates, hrun⟩ := Emission.run_lift_bind_eq_ok hrun
  refine ⟨predicates, hpredicates, ?_⟩
  simp only [] at hrun
  split at hrun
  · cases hrun
  · exact joinKeyPairs_eq_ok hrun

/-- What both sides of all predicates are computed to, by the keys of a join. -/
theorem keyColumns_of_keyExprs {clock : Clock} {left right : Node} {lb rb : Batch}
    {predicates : List Node} {keys : List (Expr × Expr)} {ls rs : List Column}
    (hkeys : List.Forall₂ (KeyExprs clock left right) predicates keys)
    (hls : lb.computeKeys (keys.map (·.1)) = .ok ls)
    (hrs : rb.computeKeys (keys.map (·.2)) = .ok rs) :
    List.Forall₂ (KeyColumns clock left right lb rb) predicates (ls.zip rs) := by
  induction hkeys generalizing ls rs with
  | nil =>
      cases hls
      exact .nil
  | cons hkey _ ih =>
      obtain ⟨l, hl, hls⟩ := bind_eq_ok.1 hls
      obtain ⟨ls, hls', hls⟩ := bind_eq_ok.1 hls
      obtain ⟨r, hr, hrs⟩ := bind_eq_ok.1 hrs
      obtain ⟨rs, hrs', hrs⟩ := bind_eq_ok.1 hrs
      cases hls
      cases hrs
      exact .cons ⟨_, hkey, hl, hr⟩ (ih hls' hrs')

/-- What an equality of two columns is computed to. -/
theorem keyColumns_of_columns {clock : Clock} {left right predicate l r : Node}
    {x y : String} {lb rb : Batch} {k : Column × Column} (bleft : left.Built)
    (bright : right.Built) (hl : Node.column left x = .ok l)
    (hr : Node.column right y = .ok r)
    (hsides : joinSides left right predicate = .ok (l, r))
    (hk : KeyColumns clock left right lb rb predicate k) :
    lb.compute lb.rows (.column x) = .ok k.1 ∧ rb.compute rb.rows (.column y) = .ok k.2 := by
  have hanswer : ∀ {table m : Node} {name : String} {e : Expr}, table.Built →
      Node.column table name = .ok m →
      rules.answer clock m = .ok (.expr e) → e = .column name := by
    intro table m name e htable hm he
    obtain ⟨hkind, hname⟩ := Node.name_of_column hm
    rw [answer_column (Node.built_column htable hm) hkind, hname] at he
    cases he
    rfl
  obtain ⟨⟨le, re⟩, ⟨l', r', hsides', hle, hre⟩, hlc, hrc⟩ := hk
  cases hsides.symm.trans hsides'
  cases hanswer bleft hl hle
  cases hanswer bright hr hre
  exact ⟨hlc, hrc⟩

/-! ## Joins -/

/-- How a table pairs rows. A right join is a left join of the swapped sides. -/
def joinKind : NodeKind → JoinKind
  | .leftJoin | .rightJoin => .left
  | .outerJoin => .outer
  | .leftSemiJoin => .semi
  | .leftAntiJoin => .anti
  | _ => .inner

/-- What a join makes of two batches, by which of their rows meet. -/
def nestedJoin (n left right : Node) (lb rb : Batch) (meet : Nat → Nat → Bool) :
    Except Error Batch :=
  if n.kind = .rightJoin then do
    let layout := rightJoinLayout (← left.outputSchema) (← right.outputSchema)
    (rb.paired lb (Join.nested .left rb.rows lb.rows fun j i => meet i j)).select layout
  else .ok (lb.joined (joinKind n.kind) rb
    (Join.nested (joinKind n.kind) lb.rows rb.rows meet))

theorem nestedJoin_congr (n left right : Node) {lb rb : Batch}
    {meet meet' : Nat → Nat → Bool}
    (h : ∀ i < lb.rows, ∀ j < rb.rows, meet i j = meet' i j) :
    nestedJoin n left right lb rb meet = nestedJoin n left right lb rb meet' := by
  rw [nestedJoin, nestedJoin, Join.nested_congr _ h,
    Join.nested_congr .left fun j hj i hi => h i hi j hj]

/-- Both columns of a key, that whose type is kept first. -/
def keySides (kind : NodeKind) (k : Column × Column) : Column × Column :=
  if kind = .rightJoin then k.swap else k

/-- What a join does with the two columns of a key. -/
def keyMatches (kind : NodeKind) (nullsMatch : Bool) (k : Column × Column)
    (i j : Nat) : Bool :=
  if kind = .rightJoin then k.2.matchAt nullsMatch k.1 j i
    else k.1.matchAt nullsMatch k.2 i j

/-- If the type that is kept leads, a join does what its predicate says, on
whichever side that type is. -/
theorem keyMatches_eq_agreeAt {kind : NodeKind} {nullsMatch : Bool}
    {k : Column × Column} {i j : Nat}
    (h : Column.Leads nullsMatch (keySides kind k).1.type (keySides kind k).2.type)
    (hl : k.1.Typed) (hr : k.2.Typed)
    (hcast : ∃ o, (keySides kind k).2.cast (keySides kind k).1.type = .ok o)
    (hi : i < k.1.length) (hj : j < k.2.length) :
    keyMatches kind nullsMatch k i j = k.1.agreeAt nullsMatch k.2 i j := by
  obtain ⟨o, ho⟩ := hcast
  unfold keySides at h ho
  unfold keyMatches
  by_cases hkind : kind = .rightJoin
  · rw [if_pos hkind] at h ho ⊢
    exact (Column.matchAt_eq_agreeAt h hl ho hi).trans (Column.agreeAt_comm nullsMatch hr hl)
  · rw [if_neg hkind] at h ho ⊢
    exact Column.matchAt_eq_agreeAt h hr ho hj

section

variable {n left right : Node} {config : Config} {clock : Clock}
    {catalog : Catalog} {b : Batch}

theorem resolve_join {kind : NodeKind} (h : kind ∈ NodeKind.joins)
    (hright : kind ≠ .rightJoin) :
    ∃ k, rules.resolve kind = .ok (k, joinRule (joinKind kind)) := by
  simp only [NodeKind.joins, List.mem_cons, List.not_mem_nil, or_false] at h
  rcases h with rfl | rfl | rfl | rfl | rfl | rfl
  all_goals first | exact absurd rfl hright | exact ⟨_, rfl⟩

/-- An executed join has executed both sides and paired them by its keys. -/
theorem execute_pairing (h : n.Built) (hkind : n.kind ∈ NodeKind.joins)
    (hleft : n.child "left" = .ok left) (hright : n.child "right" = .ok right)
    (bleft : left.Built) (bright : right.Built)
    (hb : execute config clock n catalog = .ok b) :
    ∃ lb rb keys, execute config clock left catalog = .ok lb
      ∧ execute config clock right catalog = .ok rb
      ∧ keysOf clock n = .ok keys
      ∧ if n.kind = .rightJoin then ∃ l r pairs, left.outputSchema = .ok l
          ∧ right.outputSchema = .ok r
          ∧ rb.pairing lb (keys.map (·.2)) (keys.map (·.1)) .left
            catalog.config.nullJoinKeysMatch = .ok pairs
          ∧ (rb.paired lb pairs).select (rightJoinLayout l r) = .ok b
        else ∃ pairs, lb.pairing rb (keys.map (·.1)) (keys.map (·.2)) (joinKind n.kind)
            catalog.config.nullJoinKeysMatch = .ok pairs
          ∧ b = lb.joined (joinKind n.kind) rb pairs := by
  obtain ⟨p, hp, hb⟩ := (execute_eq_ok h).1 hb
  by_cases hswap : n.kind = .rightJoin
  · obtain ⟨left', right', l, r, s, hj⟩ := h.joins (by rw [hswap]; decide)
    obtain ⟨rfl, rfl⟩ := hj.of_children hleft hright
    rw [planOf_rightJoin h clock hleft hright hswap hj.leftSchema hj.rightSchema] at hp
    obtain ⟨lp, hlp, hp⟩ := bind_eq_ok.1 hp
    obtain ⟨rp, hrp, hp⟩ := bind_eq_ok.1 hp
    obtain ⟨keys, hkeys, hp⟩ := bind_eq_ok.1 hp
    cases hp
    obtain ⟨swapped, hswapped, hb⟩ := bind_eq_ok.1 hb
    obtain ⟨rb, hrb, hswapped⟩ := bind_eq_ok.1 hswapped
    obtain ⟨lb, hlb, hswapped⟩ := bind_eq_ok.1 hswapped
    rw [Batch.join_eq rb lb _ _ .left _ (by decide)] at hswapped
    obtain ⟨pairs, hpairs, rfl⟩ := map_eq_ok.1 hswapped
    refine ⟨lb, rb, keys, (execute_eq_ok bleft).2 ⟨lp, hlp, hlb⟩,
      (execute_eq_ok bright).2 ⟨rp, hrp, hrb⟩, hkeys, ?_⟩
    rw [if_pos hswap]
    exact ⟨l, r, pairs, hj.leftSchema, hj.rightSchema, hpairs, hb⟩
  · obtain ⟨k, hresolve⟩ := resolve_join hkind hswap
    rw [planOf_join h clock hleft hright hresolve] at hp
    obtain ⟨lp, hlp, hp⟩ := bind_eq_ok.1 hp
    obtain ⟨rp, hrp, hp⟩ := bind_eq_ok.1 hp
    obtain ⟨keys, hkeys, hp⟩ := bind_eq_ok.1 hp
    cases hp
    obtain ⟨lb, hlb, hb⟩ := bind_eq_ok.1 hb
    obtain ⟨rb, hrb, hb⟩ := bind_eq_ok.1 hb
    rw [Batch.join_eq_joined] at hb
    obtain ⟨pairs, hpairs, rfl⟩ := map_eq_ok.1 hb
    refine ⟨lb, rb, keys, (execute_eq_ok bleft).2 ⟨lp, hlp, hlb⟩,
      (execute_eq_ok bright).2 ⟨rp, hrp, hrb⟩, hkeys, ?_⟩
    rw [if_neg hswap]
    exact ⟨pairs, hpairs, rfl⟩

/-- An executed join is one by nested loops in which every key matches, as the join
compares keys. -/
theorem execute_nested (h : n.Built) (hkind : n.kind ∈ NodeKind.joins)
    (hleft : n.child "left" = .ok left) (hright : n.child "right" = .ok right)
    (hcatalog : catalog.Typed) (hb : execute config clock n catalog = .ok b) :
    ∃ lb rb keys ls rs, execute config clock left catalog = .ok lb
      ∧ execute config clock right catalog = .ok rb
      ∧ keysOf clock n = .ok keys ∧ lb.Typed ∧ rb.Typed
      ∧ lb.computeKeys (keys.map (·.1)) = .ok ls ∧ rb.computeKeys (keys.map (·.2)) = .ok rs
      ∧ (∀ k ∈ ls.zip rs, ∃ o, (keySides n.kind k).2.cast (keySides n.kind k).1.type = .ok o)
      ∧ nestedJoin n left right lb rb (fun i j =>
          (ls.zip rs).all fun k => keyMatches n.kind catalog.config.nullJoinKeysMatch k i j)
            = .ok b := by
  have hsides : n.kind.validator? "left" = some .table
      ∧ n.kind.validator? "right" = some .table := by
    simp only [NodeKind.joins, List.mem_cons, List.not_mem_nil, or_false] at hkind
    rcases hkind with hkind | hkind | hkind | hkind | hkind | hkind
      <;> (rw [hkind]; exact ⟨rfl, rfl⟩)
  have bleft := h.of_mem_children (h.mem_children_of_child hleft)
  have bright := h.of_mem_children (h.mem_children_of_child hright)
  obtain ⟨lb, rb, keys, hlb, hrb, hkeys, hpairing⟩ :=
    execute_pairing h hkind hleft hright bleft bright hb
  have hl := typed_execute bleft (h.isTable_of_child hsides.1 hleft) hcatalog hlb
  have hr := typed_execute bright (h.isTable_of_child hsides.2 hright) hcatalog hrb
  refine ⟨lb, rb, keys, ?_⟩
  by_cases hswap : n.kind = .rightJoin
  · rw [if_pos hswap] at hpairing
    obtain ⟨l, r, pairs, hls, hrs, hpairs, hb⟩ := hpairing
    obtain ⟨rs, ls, hrightKeys, hleftKeys, hcasts, rfl⟩ := Join.pairing_eq_ok hr hl hpairs
    refine ⟨ls, rs, hlb, hrb, hkeys, hl, hr, hleftKeys, hrightKeys, fun k hk => ?_, ?_⟩
    · rw [keySides, if_pos hswap]
      exact hcasts k.swap (by rw [← List.zip_swap]; exact List.mem_map_of_mem hk)
    · rw [nestedJoin, if_pos hswap, hls, hrs]
      refine Eq.trans (congrArg (fun pairs => (rb.paired lb pairs).select _) ?_) hb
      refine Join.nested_congr .left fun j _ i _ => ?_
      rw [← List.zip_swap, List.all_map]
      simp only [keyMatches, if_pos hswap, Function.comp_def, Prod.fst_swap, Prod.snd_swap]
  · rw [if_neg hswap] at hpairing
    obtain ⟨pairs, hpairs, rfl⟩ := hpairing
    obtain ⟨ls, rs, hleftKeys, hrightKeys, hcasts, rfl⟩ := Join.pairing_eq_ok hl hr hpairs
    refine ⟨ls, rs, hlb, hrb, hkeys, hl, hr, hleftKeys, hrightKeys, fun k hk => ?_, ?_⟩
    · rw [keySides, if_neg hswap]
      exact hcasts k hk
    · rw [nestedJoin, if_neg hswap]
      simp only [keyMatches, if_neg hswap]

end

end Engine

/-- A join pairs two rows if all its keys match. If of every key the type that is kept
leads, a key matches exactly if the values of both rows are equal as the predicate compares
them, or both are null and nulls match. -/
theorem join_matches {n : Node} (h : n.Built) (hkind : n.kind ∈ NodeKind.joins)
    {config : Config} {clock : Engine.Clock} {catalog : Catalog} (hcatalog : catalog.Typed)
    {b : Batch} (hb : Engine.execute config clock n catalog = .ok b) :
    ∃ left right lb rb predicates keys, n.child "left" = .ok left
      ∧ n.child "right" = .ok right
      ∧ n.childList "predicates" = .ok predicates
      ∧ Engine.execute config clock left catalog = .ok lb
      ∧ Engine.execute config clock right catalog = .ok rb
      ∧ List.Forall₂ (Engine.KeyColumns clock left right lb rb) predicates keys
      ∧ Engine.nestedJoin n left right lb rb (fun i j =>
          keys.all fun k => Engine.keyMatches n.kind catalog.config.nullJoinKeysMatch k i j)
            = .ok b
      ∧ ((∀ k ∈ keys, Column.Leads catalog.config.nullJoinKeysMatch
            (Engine.keySides n.kind k).1.type (Engine.keySides n.kind k).2.type) →
          Engine.nestedJoin n left right lb rb (fun i j =>
            keys.all fun k => k.1.agreeAt catalog.config.nullJoinKeysMatch k.2 i j)
              = .ok b) := by
  have hsides : n.kind.validator? "left" = some .table
      ∧ n.kind.validator? "right" = some .table := by
    simp only [NodeKind.joins, List.mem_cons, List.not_mem_nil, or_false] at hkind
    rcases hkind with hkind | hkind | hkind | hkind | hkind | hkind
      <;> (rw [hkind]; exact ⟨rfl, rfl⟩)
  obtain ⟨left, hleft, -, -⟩ := h.child_eq hsides.1
  obtain ⟨right, hright, -, -⟩ := h.child_eq hsides.2
  obtain ⟨lb, rb, keys, ls, rs, hlb, hrb, hkeys, hl, hr, hls, hrs, hcasts, hnested⟩ :=
    Engine.execute_nested h hkind hleft hright hcatalog hb
  obtain ⟨predicates, hpredicates, hexprs⟩ := Engine.keysOf_eq_ok hleft hright hkeys
  refine ⟨left, right, lb, rb, predicates, ls.zip rs, hleft, hright, hpredicates, hlb, hrb,
    Engine.keyColumns_of_keyExprs hexprs hls hrs, hnested, fun hleads => ?_⟩
  refine (Engine.nestedJoin_congr n left right fun i hi j hj => ?_).trans hnested
  rw [Bool.eq_iff_iff, List.all_eq_true, List.all_eq_true]
  refine forall₂_congr fun k hk => ?_
  obtain ⟨hk1, hk2⟩ := List.of_mem_zip hk
  have hi : i < k.1.length := by rw [Batch.length_of_computeKeys hls _ hk1]; exact hi
  have hj : j < k.2.length := by rw [Batch.length_of_computeKeys hrs _ hk2]; exact hj
  rw [Engine.keyMatches_eq_agreeAt (hleads k hk) (hl.computeKeys _ ls hls _ hk1)
    (hr.computeKeys _ rs hrs _ hk2)
    (hcasts k hk) hi hj]

/-- A whole number of 32 bits is compared with one of 64 bits as such, and is joined with
it so. -/
theorem join_matches_widened :
    ∃ (left right join : Node) (catalog : Catalog) (lb rb b : Batch) (predicates : List Node)
        (keys : List (Column × Column)),
      Node.databaseTable "l" ⟨[⟨"k", .int64, true⟩]⟩ = .ok left
        ∧ Node.databaseTable "r" ⟨[⟨"j", .int32, true⟩]⟩ = .ok right
        ∧ Node.joinOn .innerJoin left right "k" "j" = .ok join ∧ join.Built
        ∧ join.kind ∈ NodeKind.joins
        ∧ catalog.Typed ∧ Engine.execute {} ⟨0⟩ join catalog = .ok b
        ∧ List.Forall₂ (Engine.KeyColumns ⟨0⟩ left right lb rb) predicates keys
        ∧ keys = [(⟨.int64, [.int 1, .int 2]⟩, ⟨.int32, [.int 2]⟩)]
        ∧ Engine.nestedJoin join left right lb rb (fun i j =>
            keys.all fun k => k.1.agreeAt catalog.config.nullJoinKeysMatch k.2 i j) = .ok b
        ∧ b = ⟨1, [("k", ⟨.int64, [.int 2]⟩), ("j", ⟨.int32, [.int 2]⟩)]⟩ := by
  obtain ⟨catalog, hcatalog⟩ :
      ∃ catalog : Catalog,
        catalog = ⟨[("l", ⟨2, [("k", ⟨.int64, [.int 1, .int 2]⟩)]⟩),
          ("r", ⟨1, [("j", ⟨.int32, [.int 2]⟩)]⟩)], {}⟩ := ⟨_, rfl⟩
  obtain ⟨left, right, join, p, l, r, hleft, hright, hjoin, hkind,
    ⟨hleftChild, hrightChild⟩, hp, ⟨hl, hr⟩,
      ⟨hpkind, hpl, hpr⟩, hreads, hlb, hrb, hb⟩ : ∃ left right join p l r : Node,
      Node.databaseTable "l" ⟨[⟨"k", .int64, true⟩]⟩ = .ok left
        ∧ Node.databaseTable "r" ⟨[⟨"j", .int32, true⟩]⟩ = .ok right
        ∧ Node.joinOn .innerJoin left right "k" "j" = .ok join ∧ join.kind = .innerJoin
        ∧ (join.child "left" = .ok left ∧ join.child "right" = .ok right)
        ∧ join.childList "predicates" = .ok [p]
        ∧ (Node.column left "k" = .ok l ∧ Node.column right "j" = .ok r)
        ∧ (p.kind = .equals ∧ p.child "left" = .ok l ∧ p.child "right" = .ok r)
        ∧ (l.readsOnly (· == left) && r.readsOnly (· == right)) = true
        ∧ Engine.execute {} ⟨0⟩ left catalog = .ok ⟨2, [("k", ⟨.int64, [.int 1, .int 2]⟩)]⟩
        ∧ Engine.execute {} ⟨0⟩ right catalog = .ok ⟨1, [("j", ⟨.int32, [.int 2]⟩)]⟩
        ∧ Engine.execute {} ⟨0⟩ join catalog
            = .ok ⟨1, [("k", ⟨.int64, [.int 2]⟩), ("j", ⟨.int32, [.int 2]⟩)]⟩ := by
    subst hcatalog
    refine ⟨_, _, _, _, _, _, rfl, rfl, rfl, rfl, ⟨rfl, rfl⟩, rfl, ⟨rfl, rfl⟩,
      ⟨rfl, rfl, rfl⟩, ?_, ?_, ?_, ?_⟩ <;>
      with_unfolding_all decide
  have hsides : Engine.joinSides left right p = .ok (l, r) := by
    rw [Engine.joinSides, if_neg (not_not.2 hpkind), hpl, hpr]
    exact if_pos hreads
  have bleft := Node.built_databaseTable hleft
  have bright := Node.built_databaseTable hright
  have bjoin : join.Built := Node.built_joinOn bleft bright hjoin
  have hjoins : join.kind ∈ NodeKind.joins := by
    rw [hkind]
    decide
  have htyped : catalog.Typed := by
    subst hcatalog
    simp [Catalog.Typed, Batch.Typed, Column.Typed, Cell.fits]
  obtain ⟨left', right', lb, rb, predicates, keys, hleft', hright', hp', hlb', hrb',
      hkeys, -, hagree⟩ :=
    join_matches bjoin hjoins htyped hb
  cases hleftChild.symm.trans hleft'
  cases hrightChild.symm.trans hright'
  cases hlb.symm.trans hlb'
  cases hrb.symm.trans hrb'
  cases hp.symm.trans hp'
  have hkeys' : keys = [(⟨.int64, [.int 1, .int 2]⟩, ⟨.int32, [.int 2]⟩)] := by
    obtain ⟨⟨lc, rc⟩, rest, hkey, hrest, rfl⟩ := List.forall₂_cons_left_iff.1 hkeys
    cases hrest
    obtain ⟨hlc, hrc⟩ := Engine.keyColumns_of_columns bleft bright hl hr hsides hkey
    cases hlc
    cases hrc
    rfl
  refine ⟨left, right, join, catalog, _, _, _, _, keys, hleft, hright, hjoin, bjoin, hjoins,
    htyped, hb, hkeys, hkeys', hagree ?_, rfl⟩
  rw [hkeys', List.forall_mem_singleton, hkind]
  exact ⟨rfl, by decide, rfl, fun _ htext => absurd htext (by decide)⟩

/-- A whole number is compared with a fraction as a fraction, but the fraction is made
whole to be joined with it. -/
theorem join_matches_truncated :
    ∃ left right join : Node,
      Node.databaseTable "l" ⟨[⟨"k", .int64, true⟩]⟩ = .ok left
        ∧ Node.databaseTable "r" ⟨[⟨"j", .float64, true⟩]⟩ = .ok right
        ∧ Node.joinOn .innerJoin left right "k" "j" = .ok join
        ∧ Engine.execute {} ⟨0⟩ join ⟨[("l", ⟨1, [("k", ⟨.int64, [.int 1]⟩)]⟩),
            ("r", ⟨1, [("j", ⟨.float64, [.float ⟨0x3ff8000000000000⟩]⟩)]⟩)], {}⟩
          = .ok ⟨1, [("k", ⟨.int64, [.int 1]⟩),
            ("j", ⟨.float64, [.float ⟨0x3ff8000000000000⟩]⟩)]⟩
        ∧ Expr.evaluate
          ⟨1, [("k", ⟨.int64, [.int 1]⟩), ("j", ⟨.float64, [.float ⟨0x3ff8000000000000⟩]⟩)]⟩
            (.binary (.column "k") (.compare .equal) (.column "j"))
              = .ok ⟨.boolean, [.bool false]⟩
        ∧ Column.equalAt ⟨.int64, [.int 1]⟩ ⟨.float64, [.float ⟨0x3ff8000000000000⟩]⟩ 0 0
          = false := by
  refine ⟨_, _, _, rfl, rfl, rfl, ?_, ?_, ?_⟩ <;> with_unfolding_all decide

end TypedQuery
