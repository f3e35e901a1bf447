import Mathlib.Data.List.Forall2
import Mathlib.Data.List.Nodup
import Mathlib.Data.List.Perm.Subperm
import TypedQuery.Proofs.Node.Schema

/-!
# Names of joined columns

A join keeps the names of the left side and marks those of the right side that the left
side has too. When the schema of a join is derived, a name counts as taken as soon as any
column before it has it, while everything that reads the join looks at the left side only.
Both agree exactly when no marked name is a name of the right side.
-/

namespace TypedQuery

namespace Rules

/-- The name of a column of the right side, by what the left side has. -/
def markedName (left : List String) (name : String) : String :=
  if name ∈ left then name ++ rightMark else name

/-- The names of a join, by what the left side has. -/
def markedNames (left right : List String) : List String :=
  left ++ right.map (markedName left)

/-- A column that both sides have becomes, once marked, a column that the right side has
already. -/
def Clash (left right : List String) : Prop :=
  ∃ name ∈ right, name ∈ left ∧ name ++ rightMark ∈ right

instance (left right : List String) : Decidable (Clash left right) := by
  unfold Clash
  infer_instance

theorem append_rightMark_ne (name : String) : name ++ rightMark ≠ name := by
  intro h
  have hlength := congrArg String.length h
  rw [String.length_append] at hlength
  have hmark : rightMark.length = 6 := by decide
  omega

theorem append_rightMark_inj {a b : String} (h : a ++ rightMark = b ++ rightMark) : a = b :=
  String.append_left_inj rightMark |>.1 h

/-- With a clash, a name is given twice. -/
theorem not_nodup_of_clash {left right : List String} (h : Clash left right) :
    ¬ (markedNames left right).Nodup := by
  obtain ⟨name, hright, hleft, hmarked⟩ := h
  intro hnodup
  obtain ⟨-, hmap, hdisjoint⟩ := List.nodup_append.1 hnodup
  have hname : markedName left name = name ++ rightMark := if_pos hleft
  by_cases htaken : name ++ rightMark ∈ left
  · exact hdisjoint _ htaken _ (List.mem_map.2 ⟨name, hright, hname⟩) rfl
  · have hsame : markedName left (name ++ rightMark) = name ++ rightMark := if_neg htaken
    have heq := List.inj_on_of_nodup_map hmap hright hmarked (hname.trans hsame.symm)
    exact append_rightMark_ne name heq.symm

/-- Without a clash, no two columns of the right side get the same name. -/
theorem markedName_inj {left right : List String} (h : ¬ Clash left right) {a b : String}
    (ha : a ∈ right) (hb : b ∈ right)
    (heq : markedName left a = markedName left b) : a = b := by
  unfold markedName at heq
  split at heq
  · next hla =>
      split at heq
      · exact append_rightMark_inj heq
      · exact absurd ⟨a, ha, hla, heq ▸ hb⟩ h
  · split at heq
    · next hlb => exact absurd ⟨b, hb, hlb, heq ▸ ha⟩ h
    · exact heq

/-- Names are given once exactly when no names clash, on either side. -/
theorem nodup_markedNames {left right : List String} (hleft : left.Nodup)
    (hright : right.Nodup) (hclash : ¬ Clash left right) (hswapped : ¬ Clash right left) :
    (markedNames left right).Nodup := by
  refine List.nodup_append.2 ⟨hleft, ?_, ?_⟩
  · exact hright.map_on fun a ha b hb heq => markedName_inj hclash ha hb heq
  · intro name hname marked hmarked heq
    obtain ⟨other, hother, rfl⟩ := List.mem_map.1 hmarked
    unfold markedName at heq
    split at heq
    · next hboth => exact hswapped ⟨other, hboth, hother, heq ▸ hname⟩
    · next hnew => exact hnew (heq ▸ hname)

theorem pushUnique_singleton {owner field : String} {s out : Schema} {column : ColumnInfo}
    (h : pushUnique owner field s [column] = .ok out) : out = s.push column := by
  rw [pushUnique] at h
  split at h
  · cases h
  · cases h; rfl

/-- Adding columns one after the other, when no marked name is in the way. -/
theorem pushRight_names {left : List String} {s out : Schema}
    (done columns : List ColumnInfo) (hclash : ¬ Clash left ((done ++ columns).map (·.name)))
    (hnodup : ((done ++ columns).map (·.name)).Nodup)
    (hs : s.names = markedNames left (done.map (·.name)))
    (h : pushRight s columns = .ok out) :
    out.names = markedNames left ((done ++ columns).map (·.name)) := by
  induction columns generalizing s done with
  | nil =>
      cases h
      rw [hs, List.append_nil]
  | cons column rest ih =>
      have hsplit : done ++ column :: rest = (done ++ [column]) ++ rest := by simp
      have htaken : s.contains column.name = true ↔ column.name ∈ left := by
        rw [Schema.contains_iff, hs, markedNames, List.mem_append]
        constructor
        · rintro (hleft | hmap)
          · exact hleft
          · obtain ⟨name, hname, heq⟩ := List.mem_map.1 hmap
            by_contra hleft
            have hmine : markedName left column.name = column.name := if_neg hleft
            have hsame := markedName_inj hclash
              (by rw [List.map_append]; exact List.mem_append_left _ hname) (by simp)
              (heq.trans hmine.symm)
            rw [List.map_append, List.nodup_append] at hnodup
            exact hnodup.2.2 name hname column.name (by simp) hsame
        · exact Or.inl
      rw [pushRight] at h
      obtain ⟨next, hnext, h⟩ := bind_eq_ok.1 h
      rw [pushUnique_singleton hnext] at h
      rw [hsplit] at hclash hnodup ⊢
      refine ih (done ++ [column]) hclash hnodup ?_ h
      rw [Schema.names_push, hs, markedNames, markedNames, List.map_append, List.map_append,
        List.append_assoc]
      congr 2
      by_cases hleft : column.name ∈ left
      · simp [htaken.2 hleft, markedName, hleft]
      · have hfree : s.contains column.name = false := by
          rw [← Bool.not_eq_true, htaken]
          exact hleft
        simp [hfree, markedName, hleft]

/-- The schema of a join names its columns by what the left side has, exactly when no names
clash. -/
theorem pushRight_names_iff {l r s : Schema} (hl : l.names.Nodup) (hr : r.names.Nodup)
    (h : pushRight l r.columns = .ok s) :
    s.names = markedNames l.names r.names ↔ ¬ Clash l.names r.names := by
  constructor
  · intro heq hclash
    refine not_nodup_of_clash hclash ?_
    rw [← heq]
    exact pushRight_nodup hl h
  · intro hclash
    have hstart : l.names = markedNames l.names (([] : List ColumnInfo).map (·.name)) := by
      simp [markedNames]
    exact pushRight_names [] r.columns hclash hr hstart h

/-- Where the left side has a name marked and unmarked, a column of that name has nowhere
to go. -/
theorem not_mem_of_pushRight {s out : Schema} {columns : List ColumnInfo} {name : String}
    (hname : name ∈ s.names) (hmarked : name ++ rightMark ∈ s.names)
    (h : pushRight s columns = .ok out) : name ∉ columns.map (·.name) := by
  induction columns generalizing s with
  | nil => simp
  | cons column rest ih =>
      rw [pushRight] at h
      obtain ⟨next, hnext, h⟩ := bind_eq_ok.1 h
      have hkept : ∀ other ∈ s.names, other ∈ next.names := by
        intro other hother
        rw [pushUnique_singleton hnext, Schema.names_push]
        exact List.mem_append_left _ hother
      rw [List.map_cons, List.mem_cons, not_or]
      refine ⟨?_, ih (hkept _ hname) (hkept _ hmarked) h⟩
      rintro rfl
      rw [pushUnique, if_pos (Schema.contains_iff.2 hname),
        if_pos (Schema.contains_iff.2 hmarked)]
        at hnext
      cases hnext

/-- So with the sides swapped no names clash in a join that has a schema. -/
theorem not_clash_swapped {l r s : Schema} (h : pushRight l r.columns = .ok s) :
    ¬ Clash r.names l.names := by
  rintro ⟨name, hleft, hright, hmarked⟩
  exact not_mem_of_pushRight hleft hmarked h hright

/-! ## Where columns go -/

theorem pushRight_append {s out : Schema} {done rest : List ColumnInfo}
    (h : pushRight s (done ++ rest) = .ok out) :
    ∃ before, pushRight s done = .ok before ∧ pushRight before rest = .ok out := by
  induction done generalizing s with
  | nil => exact ⟨s, rfl, h⟩
  | cons column more ih =>
      rw [List.cons_append, pushRight] at h
      obtain ⟨next, hnext, h⟩ := bind_eq_ok.1 h
      obtain ⟨before, hbefore, h⟩ := ih h
      refine ⟨before, ?_, h⟩
      rw [pushRight, hnext]
      exact hbefore

/-- Columns that are there stay where they are, and one more stands behind them
for each that is added. -/
theorem columns_of_pushRight {s out : Schema} {columns : List ColumnInfo}
    (h : pushRight s columns = .ok out) :
    s.columns <+: out.columns ∧ out.columns.length = s.columns.length + columns.length := by
  induction columns generalizing s with
  | nil =>
      cases h
      exact ⟨List.prefix_rfl, rfl⟩
  | cons column rest ih =>
      rw [pushRight] at h
      obtain ⟨next, hnext, h⟩ := bind_eq_ok.1 h
      obtain ⟨hkept, hlength⟩ := ih h
      rw [pushUnique_singleton hnext] at hkept hlength
      refine ⟨(List.prefix_append _ _).trans hkept, ?_⟩
      rw [hlength, Schema.push, List.length_append, List.length_cons, List.length_cons,
        List.length_nil]
      omega

/-- The names that the left side decides on are taken as soon as their columns are added. -/
theorem markedName_mem_of_pushRight {s out : Schema} {columns : List ColumnInfo}
    {left : List String} (hleft : ∀ name ∈ left, name ∈ s.names)
    (h : pushRight s columns = .ok out) {column : ColumnInfo} (hcolumn : column ∈ columns) :
    markedName left column.name ∈ out.names := by
  induction columns generalizing s with
  | nil => cases hcolumn
  | cons first rest ih =>
      rw [pushRight] at h
      obtain ⟨next, hnext, h⟩ := bind_eq_ok.1 h
      have hkept : ∀ name ∈ next.names, name ∈ out.names := by
        obtain ⟨⟨more, hmore⟩, -⟩ := columns_of_pushRight h
        intro name hname
        rw [Schema.names, ← hmore, List.map_append]
        exact List.mem_append_left _ hname
      rw [pushUnique_singleton hnext] at hkept
      rw [Schema.names_push] at hkept
      rcases List.mem_cons.1 hcolumn with rfl | hcolumn
      · by_cases hmem : column.name ∈ left
        · refine hkept _ (List.mem_append_right _ ?_)
          rw [if_pos (Schema.contains_iff.2 (hleft _ hmem)), markedName, if_pos hmem]
          exact List.mem_singleton_self _
        · rw [markedName, if_neg hmem]
          by_cases htaken : s.contains column.name = true
          · exact hkept _ (List.mem_append_left _ (Schema.contains_iff.1 htaken))
          · refine hkept _ (List.mem_append_right _ ?_)
            rw [if_neg htaken]
            exact List.mem_singleton_self _
      · refine ih (fun name hname => ?_) h hcolumn
        rw [pushUnique_singleton hnext, Schema.names_push]
        exact List.mem_append_left _ (hleft name hname)

/-- The column that another one becomes: it stands as far behind the left side,
and has the same type. -/
theorem pushRight_getElem? {l r s : Schema} (h : pushRight l r.columns = .ok s) {i : Nat}
    {column : ColumnInfo} (hi : r.columns[i]? = some column) :
    ∃ before name, pushRight l (r.columns.take i) = .ok before
      ∧ s.columns[l.columns.length + i]? = some { column with name := name }
      ∧ name = (if column.name ∈ before.names then column.name ++ rightMark else column.name)
      ∧ name ∉ before.names := by
  obtain ⟨hlt, rfl⟩ := List.getElem?_eq_some_iff.1 hi
  rw [← List.take_append_drop i r.columns, List.drop_eq_getElem_cons hlt] at h
  obtain ⟨before, hbefore, h⟩ := pushRight_append h
  rw [pushRight] at h
  obtain ⟨next, hnext, h⟩ := bind_eq_ok.1 h
  obtain ⟨name, hname⟩ : ∃ name, name = (if r.columns[i].name ∈ before.names
      then r.columns[i].name ++ rightMark else r.columns[i].name) := ⟨_, rfl⟩
  have hcolumn : (if before.contains r.columns[i].name
      then { r.columns[i] with name := r.columns[i].name ++ rightMark } else r.columns[i])
        = { r.columns[i] with name := name } := by
    by_cases hmem : r.columns[i].name ∈ before.names
    · rw [hname, if_pos (Schema.contains_iff.2 hmem), if_pos hmem]
    · rw [hname, if_neg (by rwa [Schema.contains_iff]), if_neg hmem]
  rw [hcolumn] at hnext
  have hfree : name ∉ before.names := by
    intro hmem
    rw [pushUnique, if_pos (Schema.contains_iff.2 hmem)] at hnext
    cases hnext
  refine ⟨before, name, hbefore, ?_, hname, hfree⟩
  have hlength := (columns_of_pushRight hbefore).2
  rw [List.length_take, Nat.min_eq_left (Nat.le_of_lt hlt)] at hlength
  obtain ⟨more, hmore⟩ := (columns_of_pushRight h).1
  rw [← hmore, pushUnique_singleton hnext, ← hlength, Schema.push, List.append_assoc,
    List.getElem?_append_right (Nat.le_refl _), Nat.sub_self]
  rfl

end Rules

/-! ## Joins that build -/

/-- The kinds of joins that have the columns of both sides. -/
def NodeKind.wideJoins : List NodeKind := [innerJoin, leftJoin, rightJoin, outerJoin]

theorem NodeKind.mem_wideJoins {k : NodeKind} :
    k ∈ wideJoins ↔ k = innerJoin ∨ k = leftJoin ∨ k = rightJoin ∨ k = outerJoin := by
  simp [wideJoins]

theorem NodeKind.definition_of_wideJoins {k : NodeKind} (h : k ∈ wideJoins) :
    k.isTable = true ∧ k.schemaRule = Rules.joinSchema ∧ k.validator? "left" = some .table
      ∧ k.validator? "right" = some .table := by
  rcases mem_wideJoins.1 h with rfl | rfl | rfl | rfl <;> exact ⟨rfl, rfl, rfl, rfl⟩

/-- The two sides of a join, and how its schema comes about. -/
structure Node.Joins (n left right : Node) (l r s : Schema) : Prop where
  built : n.Built
  kind : n.kind ∈ NodeKind.wideJoins
  left_eq : n.child "left" = .ok left
  right_eq : n.child "right" = .ok right
  left_table : left.kind.isTable = true
  right_table : right.kind.isTable = true
  leftSchema : left.outputSchema = .ok l
  rightSchema : right.outputSchema = .ok r
  schema : n.outputSchema = .ok s
  pushed : Rules.pushRight l r.columns = .ok s
  left_nodup : l.names.Nodup
  right_nodup : r.names.Nodup

theorem Node.Built.joins {n : Node} (h : n.Built) (hkind : n.kind ∈ NodeKind.wideJoins) :
    ∃ left right l r s, n.Joins left right l r s := by
  obtain ⟨htable, hrule, hvleft, hvright⟩ := NodeKind.definition_of_wideJoins hkind
  obtain ⟨s, hs, hschema⟩ := h.schemaRule_eq htable
  rw [hrule] at hs
  obtain ⟨l, hl, hs⟩ := bind_eq_ok.1 hs
  obtain ⟨r, hr, hs⟩ := bind_eq_ok.1 hs
  obtain ⟨left, hleft, hl⟩ := Rules.schemaIn_eq_ok hl
  obtain ⟨right, hright, hr⟩ := Rules.schemaIn_eq_ok hr
  have hltable := h.isTable_of_node? hvleft hleft
  have hrtable := h.isTable_of_node? hvright hright
  refine ⟨left, right, l, r, s, h, hkind, child_of_node? hleft, child_of_node? hright,
    hltable, hrtable, outputSchema_eq_ok hl, outputSchema_eq_ok hr,
    outputSchema_eq_ok hschema, hs, ?_, ?_⟩
  · exact (h.of_mem_children (mem_children_of_node? hleft)).schema_nodup hltable hl
  · exact (h.of_mem_children (mem_children_of_node? hright)).schema_nodup hrtable hr

namespace Node.Joins

variable {n left right : Node} {l r s : Schema}

theorem schema_names_nodup (h : n.Joins left right l r s) : s.names.Nodup :=
  Rules.pushRight_nodup h.left_nodup h.pushed

theorem schema_names_iff (h : n.Joins left right l r s) :
    s.names = Rules.markedNames l.names r.names ↔ ¬ Rules.Clash l.names r.names :=
  Rules.pushRight_names_iff h.left_nodup h.right_nodup h.pushed

theorem left_mem (h : n.Joins left right l r s) : left ∈ n.children :=
  h.built.mem_children_of_child h.left_eq

theorem right_mem (h : n.Joins left right l r s) : right ∈ n.children :=
  h.built.mem_children_of_child h.right_eq

theorem left_built (h : n.Joins left right l r s) :
    left.Built := h.built.of_mem_children h.left_mem

theorem right_built (h : n.Joins left right l r s) :
    right.Built := h.built.of_mem_children h.right_mem

theorem not_clash_swapped (h : n.Joins left right l r s) : ¬ Rules.Clash r.names l.names :=
  Rules.not_clash_swapped h.pushed

theorem of_children {left' right' : Node} (h : n.Joins left right l r s)
    (hleft : n.child "left" = .ok left') (hright : n.child "right" = .ok right') :
    left' = left ∧ right' = right := by
  rw [h.left_eq] at hleft
  rw [h.right_eq] at hright
  cases hleft
  cases hright
  exact ⟨rfl, rfl⟩

/-- The column that one of the right side becomes. Nothing before it has its name, neither
in the schema nor by what the left side decides on. -/
theorem right_column (h : n.Joins left right l r s) {i : Nat} {column : ColumnInfo}
    (hi : r.columns[i]? = some column) :
    ∃ name, s.columns[l.columns.length + i]? = some { column with name := name }
      ∧ (name ∉ l.names ∧ ∀ d ∈ r.names.take i, Rules.markedName l.names d ≠ name)
      ∧ (column.name ∈ l.names → name = Rules.markedName l.names column.name)
      ∧ (¬ Rules.Clash l.names r.names → name = Rules.markedName l.names column.name) := by
  obtain ⟨before, name, hbefore, hget, hname, hfree⟩ := Rules.pushRight_getElem? h.pushed hi
  have hkept : ∀ x ∈ l.names, x ∈ before.names := by
    obtain ⟨⟨more, hmore⟩, -⟩ := Rules.columns_of_pushRight hbefore
    intro x hx
    rw [Schema.names, ← hmore, List.map_append]
    exact List.mem_append_left _ hx
  refine ⟨name, hget, ⟨fun hmem => hfree (hkept _ hmem), ?_⟩, ?_, ?_⟩
  · intro d hd heq
    rw [Schema.names, ← List.map_take] at hd
    obtain ⟨other, hother, rfl⟩ := List.mem_map.1 hd
    exact hfree (heq ▸ Rules.markedName_mem_of_pushRight (fun _ hx => hx) hbefore hother)
  · intro hmem
    rw [hname, if_pos (hkept _ hmem), Rules.markedName, if_pos hmem]
  · intro hclash
    have hnames := congrArg (·[l.columns.length + i]?) (h.schema_names_iff.2 hclash)
    have hright : r.names[i]? = some column.name := by
      rw [Schema.names, List.getElem?_map, hi]; rfl
    have hlength : l.columns.length = l.names.length := by rw [Schema.names, List.length_map]
    simp only [Rules.markedNames] at hnames
    rw [Schema.names, List.getElem?_map, hget, hlength,
      List.getElem?_append_right (Nat.le_add_right _ _), Nat.add_sub_cancel_left,
      List.getElem?_map, hright] at hnames
    exact Option.some.inj hnames

end Node.Joins

end TypedQuery

/-!
## Marks that only the schema has

Where names clash, the schema of a join marks columns that the executed join leaves as they
are, and joins above it see names that the schema does not promise. Still every name of a
batch is a name of its schema, and the column in its place is called the same in the
schema, perhaps with more marks (`Marked`): joining keeps that. Both have the same names as
soon as the batch has every name of the schema, and a right join can only be put in order
if both of its sides do.
-/

namespace TypedQuery.Rules

/-- A name, with any number of marks behind it. -/
inductive MarkedFrom (name : String) : String → Prop where
  | same : MarkedFrom name name
  | more {marked : String} : MarkedFrom name marked → MarkedFrom name (marked ++ rightMark)

namespace MarkedFrom

variable {name marked : String}

theorem mark (h : MarkedFrom name marked) :
    MarkedFrom (name ++ rightMark) (marked ++ rightMark) := by
  induction h with
  | same => exact .same
  | more _ ih => exact .more ih

/-- Where a mark stands behind a name, one more on the name is still among those of the
other. -/
theorem of_ne (h : MarkedFrom name marked) (hne : name ≠ marked) :
    MarkedFrom (name ++ rightMark) marked := by
  cases h with
  | same => exact absurd rfl hne
  | more h => exact h.mark

theorem eq_or_length_lt (h : MarkedFrom name marked) :
    name = marked ∨ name.length < marked.length := by
  induction h with
  | same => exact .inl rfl
  | @more marked _ ih =>
      have hmark : rightMark.length = 6 := by decide
      have hlength : name.length ≤ marked.length :=
        ih.elim (fun heq => heq ▸ Nat.le_refl _) Nat.le_of_lt
      rw [String.length_append]
      omega

/-- One more name on the right side of a join: whatever decides on the mark of the batch
decides on that of the schema. -/
theorem join {left taken : List String} (h : MarkedFrom name marked)
    (hleft : ∀ x ∈ left, x ∈ taken) :
    MarkedFrom (markedName left name) (if marked ∈ taken then marked ++ rightMark
      else marked) := by
  rw [markedName]
  by_cases hmem : name ∈ left
  · rw [if_pos hmem]
    by_cases heq : name = marked
    · rw [if_pos (heq ▸ hleft name hmem), heq]
      exact .same
    · split
      · exact h.mark
      · exact h.of_ne heq
  · rw [if_neg hmem]
    split
    · exact .more h
    · exact h

end MarkedFrom

/-- The names of a batch beside those of its schema. -/
structure Marked (names schema : List String) : Prop where
  mem : ∀ name ∈ names, name ∈ schema
  marked : List.Forall₂ MarkedFrom names schema

theorem Marked.refl (names : List String) : Marked names names where
  mem := fun _ h => h
  marked := List.forall₂_same.2 fun _ _ => .same

/-- More marks make the names longer as a whole. -/
theorem eq_or_characters_lt {names schema : List String}
    (h : List.Forall₂ MarkedFrom names schema) :
    names = schema
      ∨ (names.flatMap String.toList).length < (schema.flatMap String.toList).length := by
  induction h with
  | nil => exact .inl rfl
  | cons hname _ ih =>
      rw [List.flatMap_cons, List.flatMap_cons, List.length_append, List.length_append,
        String.length_toList, String.length_toList]
      rcases hname.eq_or_length_lt with rfl | hlt <;> rcases ih with rfl | hlts
      · exact .inl rfl
      all_goals right; omega

/-- A batch that has every name of its schema has them in their places. -/
theorem Marked.eq_of_subset {names schema : List String} (h : Marked names schema)
    (hnodup : schema.Nodup) (hsubset : ∀ name ∈ schema, name ∈ names) : names = schema := by
  have hperm : schema.Perm names :=
    (List.subperm_of_subset hnodup hsubset).perm_of_length_le
      (Nat.le_of_eq h.marked.length_eq)
  have hcharacters := (hperm.flatMap_right String.toList).length_eq
  exact (eq_or_characters_lt h.marked).resolve_right (by omega)

/-! ### Joins -/

/-- The names that are added to a schema, beside those that are added to a batch. -/
theorem marked_pushRight {left names : List String} {s out : Schema}
    {columns : List ColumnInfo} (hleft : ∀ x ∈ left, x ∈ s.names)
    (hnames : List.Forall₂ MarkedFrom names (columns.map (·.name)))
    (h : pushRight s columns = .ok out) :
    ∃ added, out.names = s.names ++ added
      ∧ List.Forall₂ MarkedFrom (names.map (markedName left)) added := by
  induction columns generalizing s names with
  | nil =>
      cases hnames
      cases h
      exact ⟨[], (List.append_nil _).symm, .nil⟩
  | cons column rest ih =>
      obtain ⟨name, more, hname, hmore, rfl⟩ := List.forall₂_cons_right_iff.1 hnames
      rw [pushRight] at h
      obtain ⟨next, hnext, h⟩ := bind_eq_ok.1 h
      have hnames := congrArg Schema.names (pushUnique_singleton hnext)
      rw [Schema.names_push] at hnames
      have hkept : ∀ x ∈ left, x ∈ next.names := by
        intro x hx
        rw [hnames]
        exact List.mem_append_left _ (hleft x hx)
      obtain ⟨added, hadded, hmarked⟩ := ih hkept hmore h
      refine ⟨_ :: added, ?_, .cons (hname.join hleft) hmarked⟩
      rw [hadded, hnames, List.append_assoc, List.singleton_append]
      congr 2
      simp only [← Schema.contains_iff]
      split <;> rfl

/-- Joining two tables keeps what their names have to do with their schemas. -/
theorem Marked.join {l r s : Schema} {left right : List String} (hl : Marked left l.names)
    (hr : Marked right r.names) (h : pushRight l r.columns = .ok s) :
    Marked (markedNames left right) s.names := by
  have hkept : ∀ name ∈ l.names, name ∈ s.names := by
    obtain ⟨⟨more, hmore⟩, -⟩ := columns_of_pushRight h
    intro name hname
    rw [Schema.names, ← hmore, List.map_append]
    exact List.mem_append_left _ hname
  refine ⟨fun name hname => ?_, ?_⟩
  · rcases List.mem_append.1 hname with hname | hname
    · exact hkept name (hl.mem name hname)
    · obtain ⟨other, hother, rfl⟩ := List.mem_map.1 hname
      obtain ⟨column, hcolumn, rfl⟩ := List.mem_map.1 (hr.mem other hother)
      have hmem := markedName_mem_of_pushRight (fun _ hx => hx) h hcolumn
      by_cases hleft : column.name ∈ left
      · rw [markedName, if_pos hleft]
        rwa [markedName, if_pos (hl.mem _ hleft)] at hmem
      · rw [markedName, if_neg hleft]
        by_cases hschema : column.name ∈ l.names
        · exact hkept _ hschema
        · rwa [markedName, if_neg hschema] at hmem
  · obtain ⟨added, hadded, hmarked⟩ := marked_pushRight hl.mem hr.marked h
    rw [hadded]
    exact List.rel_append hl.marked hmarked

theorem mem_markedNames {left right : List String} {name : String} :
    name ∈ markedNames left right ↔ name ∈ left ∨ (name ∈ right ∧ name ∉ left)
      ∨ ∃ both ∈ right, both ∈ left ∧ name = both ++ rightMark := by
  rw [markedNames, List.mem_append, List.mem_map]
  refine or_congr_right ⟨?_, ?_⟩
  · rintro ⟨other, hother, rfl⟩
    by_cases hleft : other ∈ left
    · exact .inr ⟨other, hother, hleft, if_pos hleft⟩
    · rw [markedName, if_neg hleft]
      exact .inl ⟨hother, hleft⟩
  · rintro (⟨hright, hleft⟩ | ⟨both, hright, hleft, rfl⟩)
    · exact ⟨name, hright, if_neg hleft⟩
    · exact ⟨both, hright, if_pos hleft⟩

/-- If a swapped join has every column that is to be put in order, under its name there,
its sides have the names of their schemas. -/
theorem Marked.eq_of_swapped {l r left right : List String} (hl : Marked left l)
    (hr : Marked right r) (hlnodup : l.Nodup) (hrnodup : r.Nodup) (hclash : ¬ Clash l r)
    (hswapped : ¬ Clash r l) (hleft : ∀ name ∈ l, markedName r name ∈ markedNames right left)
    (hright : ∀ name ∈ r, name ∈ markedNames right left) : left = l ∧ right = r := by
  -- A marked name that both sides have is not taken by either of them.
  have hboth : ∀ name ∈ l, name ∈ r → name ∈ left ∧ name ∈ right := by
    intro name hnl hnr
    have hfound := hleft name hnl
    rw [markedName, if_pos hnr] at hfound
    rcases mem_markedNames.1 hfound with hmem | ⟨hmem, -⟩ | ⟨both, hbl, hbr, heq⟩
    · exact absurd ⟨name, hnr, hnl, hr.mem _ hmem⟩ hclash
    · exact absurd ⟨name, hnl, hnr, hl.mem _ hmem⟩ hswapped
    · rw [append_rightMark_inj heq]
      exact ⟨hbl, hbr⟩
  refine ⟨hl.eq_of_subset hlnodup fun name hname => ?_,
    hr.eq_of_subset hrnodup fun name hname => ?_⟩
  · by_cases hshared : name ∈ r
    · exact (hboth name hname hshared).1
    · have hfound := hleft name hname
      rw [markedName, if_neg hshared] at hfound
      rcases mem_markedNames.1 hfound with hmem | ⟨hmem, -⟩ | ⟨both, hbl, hbr, rfl⟩
      · exact absurd (hr.mem _ hmem) hshared
      · exact hmem
      · exact absurd ⟨both, hl.mem _ hbl, hr.mem _ hbr, hname⟩ hswapped
  · rcases mem_markedNames.1 (hright name hname)
      with hmem | ⟨hmem, -⟩ | ⟨both, hbl, hbr, rfl⟩
    · exact hmem
    · exact (hboth name (hl.mem _ hmem) hname).2
    · exact absurd ⟨both, hr.mem _ hbr, hl.mem _ hbl, hname⟩ hclash

end TypedQuery.Rules
